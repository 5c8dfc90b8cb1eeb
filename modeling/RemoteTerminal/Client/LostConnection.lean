import RemoteTerminal.Client.Widgets

/-! A connection that the server or the network has ended. Only `CheckMessages` tells the
user, with the next timeout of `messageTimer`. -/
namespace RemoteTerminal
open PlainText LabelledRuns EntryTable

def Lost (s : Form) : Prop := s.widgets.messageTimer = true ∧ s.client.tcpConn.conn.isConnected = false

def Noticed (s : Form) : Prop := Lost s ∧ (s.client.call = .form .clearDisconnected ∨ s.client.call = .form .hangUp)

def Form.left (s : Form) : Nat := match s.client.call with
  | .form .clearDisconnected => 1
  | _ => 0

def WidgetLabel.ofWindow : WidgetLabel → Bool
  | .window _ => true
  | _ => false

section
variable {library : CryptoLibrary} {qt : Qt} {s t : Form} {l : WidgetLabel} {call : ClientCall}

theorem busyStep (busy : s.idle = false) (other : l.ofWindow = false)
    (act : (widgetMachine library qt).act s l = some (call,t)) : t.client.call = s.client.call ∧ t.widgets = s.widgets ∧
      (t.client.tcpConn.conn.isConnected = true → s.client.tcpConn.conn.isConnected = true) := by
  have calling (i : FrmMain.Input) (passes : s.passes qt (.input i) = some (call,t)) : False := by
    obtain ⟨client,-,acted⟩ := passesAct passes
    simp only [reconnectingMachine] at acted
    split at acted <;> try contradiction
    rename_i idle
    simp [Form.idle,FrmMain.Call.idle,idle] at busy
  cases l with
  | window r => cases other
  | receiver k r =>
    obtain ⟨client,rfl,acted⟩ := passesAct act
    simp only [reconnectingMachine,bind,Option.bind_eq_some_iff] at acted
    obtain ⟨thread,here,⟨call,pc,tcpConn⟩,moved,same⟩ := acted
    cases same
    exact ⟨rfl,rfl,runConnected moved⟩
  | sendCommand | cancelClick => exact (calling _ act).elim
  | messageTimeout =>
    simp only [widgetMachine] at act
    split at act <;> try contradiction
    exact (calling _ act).elim
  | _ => simp [widgetMachine,busy] at act

theorem noticedBusy (noticed : Noticed s) : s.idle = false := by
  rcases noticed.2 with calling | calling <;> simp [Form.idle,FrmMain.Call.idle,calling]

theorem noticedWaits (noticed : Noticed s) (other : l.ofWindow = false)
    (act : (widgetMachine library qt).act s l = some (call,t)) : Noticed t ∧ t.left ≤ s.left := by
  obtain ⟨calling,widgets,live⟩ := busyStep (noticedBusy noticed) other act
  obtain ⟨⟨running,unconnected⟩,leaving⟩ := noticed
  refine ⟨⟨⟨widgets ▸ running,?_⟩,calling ▸ leaving⟩,?_⟩
  · cases connected : t.client.tcpConn.conn.isConnected with
    | false => rfl
    | true => cases unconnected.symm.trans (live connected)
  · rw [Form.left,Form.left,calling]

theorem noticedFalls (noticed : Noticed s) (mine : l.ofWindow = true)
    (act : (widgetMachine library qt).act s l = some (call,t)) : ¬ Lost t ∨ Noticed t ∧ t.left < s.left := by
  obtain ⟨⟨running,unconnected⟩,leaving⟩ := noticed
  cases l with
  | window r =>
    obtain ⟨⟨_,client⟩,acted,same⟩ := Option.map_eq_some_iff.mp act
    cases same
    rcases leaving with calling | calling
    · right
      simp only [reconnectingMachine,windowStep,calling,FrmMain.step,Option.map_some] at acted
      cases acted
      simp only [FrmMain.widgetsAfter,calling]
      exact ⟨⟨⟨running,unconnected⟩,.inr rfl⟩,by simp [Form.left,calling]⟩
    · left
      intro lost
      have still := lost.1
      simp [FrmMain.widgetsAfter,calling,unconnected,FrmMain.showDisconnected] at still
  | _ => cases mine

theorem timeoutNotices (lost : Lost s) (act : (widgetMachine library qt).act s .messageTimeout = some (call,t)) :
    Noticed t := by
  obtain ⟨running,unconnected⟩ := lost
  simp only [widgetMachine,if_pos running] at act
  obtain ⟨client,rfl,acted⟩ := passesAct act
  simp only [reconnectingMachine] at acted
  split at acted <;> try contradiction
  obtain ⟨pc,starts,same⟩ := Option.map_eq_some_iff.mp acted
  cases same
  simp only [FrmMain.start,unconnected,Bool.false_eq_true,if_false] at starts
  cases starts
  exact ⟨⟨running,unconnected⟩,.inl rfl⟩

end

section
variable {library : CryptoLibrary} {qt : Qt} {trace : Nat → Form} {labels : Nat → Option WidgetLabel} {n : Nat}

theorem noticedEnds (behaviour : Behaviour (widgetMachine library qt) trace labels)
    (goesOn : ∀ n, (trace n).idle = false → Eventually n fun k => ∃ l ∈ labels k, l.ofWindow = true)
    (noticed : Noticed (trace n)) : Eventually n fun k => ¬ Lost (trace k) := by
  refine rankLeadsTo (fun k => Noticed (trace k)) (fun k => ¬ Lost (trace k))
    (fun k => ∃ l ∈ labels k, l.ofWindow = true) (fun k => (trace k).left)
    (fun k leaving => goesOn k (noticedBusy leaving)) ?_ ?_ noticed
  · intro k leaving other
    right
    cases moved : labels k with
    | none =>
      rw [behaviour.rests k moved]
      exact ⟨leaving,Nat.le_refl _⟩
    | some l =>
      obtain ⟨call,act⟩ := behaviour.moves k l moved
      refine noticedWaits leaving ?_ act
      cases own : l.ofWindow with
      | false => rfl
      | true => exact (other ⟨l,moved,own⟩).elim
  · intro k leaving ⟨l,moved,own⟩
    obtain ⟨call,act⟩ := behaviour.moves k l moved
    exact noticedFalls leaving own act

theorem behaviourAgrees (behaviour : Behaviour (widgetMachine library qt) trace labels) (start : Agrees (trace 0))
    (k : Nat) : Agrees (trace k) := by
  induction k with
  | zero => exact start
  | succ k ih =>
    cases moved : labels k with
    | none => exact behaviour.rests k moved ▸ ih
    | some l =>
      obtain ⟨call,act⟩ := behaviour.moves k l moved
      exact agreesStep ih act

/-- In every infinite behaviour in which the timeouts of a running `messageTimer` are handled
and the window's calls go on, the window never shows a lost connection for good: from any
moment on it sooner or later has a connection, or looks as before the first one. -/
theorem lostConnectionShown {crypto : Crypto} {fields : FrmMain.ConnectFields}
    (behaviour : Behaviour (widgetMachine library qt) trace labels) (start : trace 0 = opened crypto fields)
    (ticks : ∀ n, Eventually n fun k => (trace k).widgets.messageTimer = false ∨ labels k = some .messageTimeout)
    (goesOn : ∀ n, (trace n).idle = false → Eventually n fun k => ∃ l ∈ labels k, l.ofWindow = true) :
    Eventually n fun k => (trace k).client.tcpConn.conn.isConnected = true ∨
      (trace k).widgets.messageTimer = false ∧ Coherent (trace k).widgets := by
  have ended : Eventually n fun k => ¬ Lost (trace k) := by
    obtain ⟨k,after,ticked⟩ := ticks n
    by_cases still : Lost (trace k)
    · have label : labels k = some .messageTimeout := by
        rcases ticked with stopped | label
        · cases stopped.symm.trans still.1
        · exact label
      obtain ⟨call,act⟩ := behaviour.moves k _ label
      have noticed := timeoutNotices still act
      exact eventuallyLater (by omega) (noticedEnds behaviour goesOn noticed)
    · exact ⟨k,after,still⟩
  obtain ⟨k,after,found⟩ := ended
  refine ⟨k,after,?_⟩
  cases connected : (trace k).client.tcpConn.conn.isConnected with
  | true => exact .inl connected
  | false =>
    right
    refine ⟨?_,(behaviourAgrees behaviour (start ▸ agreesOpened crypto fields) k).coherent⟩
    cases running : (trace k).widgets.messageTimer with
    | true => exact (found ⟨running,connected⟩).elim
    | false => rfl

end

def lostAndNoticed : List WidgetLabel :=
  firstConnection ++ ([.received .closed,.done,.done,.done,.failed] : List ClientResult).map (.receiver 0) ++
    [.messageTimeout,.window .done,.window .done]

theorem lostAtTimeout : ∃ t, run (widgetMachine secretLibrary plainQt) free
      (opened secretCrypto ⟨text "127.0.0.1",[],text "6001"⟩) lostAndNoticed = some t ∧
    Lost (traceOf (widgetMachine secretLibrary plainQt) (opened secretCrypto ⟨text "127.0.0.1",[],text "6001"⟩)
      lostAndNoticed 18) ∧
    Eventually 18 fun k =>
      (traceOf (widgetMachine secretLibrary plainQt) (opened secretCrypto ⟨text "127.0.0.1",[],text "6001"⟩)
        lostAndNoticed k).client.tcpConn.conn.isConnected = true ∨
      (traceOf (widgetMachine secretLibrary plainQt) (opened secretCrypto ⟨text "127.0.0.1",[],text "6001"⟩)
        lostAndNoticed k).widgets.messageTimer = false ∧
      Coherent (traceOf (widgetMachine secretLibrary plainQt)
        (opened secretCrypto ⟨text "127.0.0.1",[],text "6001"⟩) lostAndNoticed k).widgets := by
  have ends : (run (widgetMachine secretLibrary plainQt) free (opened secretCrypto ⟨text "127.0.0.1",[],text "6001"⟩)
      lostAndNoticed).map (fun t => (t.idle,t.widgets.messageTimer)) = some (true,false) := by decide +kernel
  obtain ⟨t,ran,same⟩ := Option.map_eq_some_iff.mp ends
  obtain ⟨idle,stopped⟩ := Prod.mk.inj same
  refine ⟨t,ran,⟨by decide +kernel,by decide +kernel⟩,lostConnectionShown (finiteBehaviour ran) (traceStart _ _) ?_ ?_⟩
  · intro n
    refine ⟨n+lostAndNoticed.length,by omega,.inl ?_⟩
    rw [traceEnd ran (by omega)]
    exact stopped
  · intro n busy
    by_cases later : lostAndNoticed.length ≤ n
    · rw [traceEnd ran later,idle] at busy
      cases busy
    · have last : lostAndNoticed.length = 21 := by decide
      exact ⟨20,by omega,.window .done,rfl,rfl⟩

end RemoteTerminal
