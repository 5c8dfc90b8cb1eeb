import RemoteTerminal.Client.Connections

/-! The button Cancel. `SendCommand` enables it and the end of a transmission disables it;
`Disconnect` of the window leaves it as it is, and so does `Connect`. -/
namespace RemoteTerminal
open ByteStrings LabelledRuns EntryTable

variable {qt : Qt}

/- What became of the commands. `issued`: one was sent on this connection after the last end
that was handled. `commanded`: one was sent on this connection. `sending`: the send under
way is a command's. `stray`: an 'X' was sent on a connection before any command. -/
structure Commands where
  issued : Bool
  commanded : Bool
  sending : Bool
  stray : Bool
  deriving DecidableEq, Repr

def noCommands : Commands := ⟨false,false,false,false⟩

def noteSent (memo : Commands) (sent : Bool) : Commands :=
  if memo.sending then
    if sent then {memo with issued := true,commanded := true,sending := false} else memo
  else {memo with stray := memo.stray || !memo.commanded}

def noteWindow (memo : Commands) (s : Client) (r : ClientResult) : FrmMain.Call → Commands
  | .form .clearOutput => {memo with sending := true}
  | .form .send => noteSent memo (r = .done)
  | .form (.decrypt _) => if s.tcpConn.conn.transmissionEnd then {memo with issued := false} else memo
  | .connecting .setConnected _ => {memo with issued := false,commanded := false}
  | _ => memo

def noteCommands (memo : Commands) (s : Client) (l : ReconnectLabel) (_ : ClientCall) (_ : Client) : Commands :=
  match l with
  | .input _ => {memo with sending := false}
  | .window r => noteWindow memo s r s.call
  | .connect _ | .receiver _ _ => memo

def FrmMain.Call.idle : FrmMain.Call → Bool
  | .form .idle => true
  | _ => false

def CancelOffered (s : Client × Commands) : Prop :=
  (s.1.call.idle = true → s.1.window.cancelEnabled = true → s.1.tcpConn.conn.isConnected = true →
    s.2.issued = true) ∧ s.2.stray = false

/- A connection is made only while Cancel is disabled. The second part is about a client that
was started with its standard input closed. -/
def ConnectsDisabled (s : Client × Commands) : ReconnectLabel → Prop
  | .window r => match s.1.call with
    | .connecting .setConnected _ => s.1.window.cancelEnabled = false
    | .form .send => s.2.sending = true → r ≠ .done → s.1.tcpConn.currentSocket ≠ 0
    | _ => True
  | _ => True
instance : (s : Client × Commands) → (l : ReconnectLabel) → Decidable (ConnectsDisabled s l)
  | s,.window r => by
    dsimp only [ConnectsDisabled]
    split <;> infer_instance
  | _,.input _ | _,.connect _ | _,.receiver _ _ => isTrue trivial

def FrmMain.Call.finishes : FrmMain.Call → Bool
  | .form .send | .form .clearDisconnected | .form .hangUp | .farewell | .disconnecting .test
  | .disconnecting .clearConnected => true
  | _ => false

def FrmMain.Call.sends : FrmMain.Call → Bool
  | .form .send => true
  | _ => false

structure Offers (s : Client) (memo : Commands) : Prop where
  offered : s.window.cancelEnabled = true → s.tcpConn.conn.isConnected = true → memo.issued = true ∨
    (memo.sending = true ∧ s.call.finishes = true ∧ (s.call.sends = false → s.tcpConn.currentSocket ≠ 0))
  commanded : memo.issued = true → memo.commanded = true
  cancelling : s.call.sends = true → memo.sending = false → memo.commanded = true
  stray : memo.stray = false

variable {s s' : Client} {memo : Commands} {l : ReconnectLabel} {call : ClientCall} {r : ClientResult}

theorem offersFrame (offers : Offers s memo) (window : s'.window.cancelEnabled = true → s.window.cancelEnabled = true)
    (connected : s'.tcpConn.conn.isConnected = true → s.tcpConn.conn.isConnected = true)
    (still : s.call.finishes = true → (s.call.sends = false → s.tcpConn.currentSocket ≠ 0) →
      s'.tcpConn.conn.isConnected = true → s'.call.finishes = true ∧ s'.tcpConn.currentSocket ≠ 0)
    (sends : s'.call.sends = false) : Offers s' memo := by
  refine ⟨fun enabled live => ?_,offers.commanded,fun sending => ?_,offers.stray⟩
  · rcases offers.offered (window enabled) (connected live) with issued | ⟨sending,finishes,nonzero⟩
    · exact .inl issued
    · obtain ⟨finishes,nonzero⟩ := still finishes nonzero live
      exact .inr ⟨sending,finishes,fun _ => nonzero⟩
  · rw [sends] at sending
    contradiction

theorem offersUnfinished (offers : Offers s memo) (unfinished : s.call.finishes = false)
    (window : s'.window.cancelEnabled = true → s.window.cancelEnabled = true)
    (connected : s'.tcpConn.conn.isConnected = true → s.tcpConn.conn.isConnected = true)
    (sends : s'.call.sends = false) : Offers s' memo :=
  offersFrame offers window connected (by simp [unfinished]) sends

theorem offersSent (offers : Offers s memo) (calling : s.call = .form .send)
    (ok : memo.sending = true → r ≠ .done → s.tcpConn.currentSocket ≠ 0) :
    Offers {s with call := .form (if r = .done then .idle else .clearDisconnected)}
      (noteSent memo (r = .done)) := by
  obtain ⟨offered,commanded,cancelling,stray⟩ := offers
  have unsent : (FrmMain.Call.form (if r = .done then .idle else .clearDisconnected)).sends = false := by
    split <;> rfl
  cases sending : memo.sending with
  | true =>
    by_cases sent : r = .done
    · simp only [noteSent,sending,sent,if_true,decide_true]
      exact ⟨fun _ _ => .inl rfl,fun _ => rfl,nofun,stray⟩
    · simp only [noteSent,sending,sent,if_true,if_false,decide_false,Bool.false_eq_true]
      refine ⟨fun enabled live => ?_,commanded,nofun,stray⟩
      exact .inr ⟨sending,rfl,fun _ => ok sending sent⟩
  | false =>
    have before := cancelling (by rw [calling]; rfl) sending
    have clean : noteSent memo (r = .done) = memo := by
      obtain ⟨_,_,_,_⟩ := memo
      simp_all [noteSent]
    rw [clean]
    refine ⟨fun enabled live => ?_,commanded,fun sends => ?_,stray⟩
    · rcases offered enabled live with issued | ⟨started,-⟩
      · exact .inl issued
      · exact Bool.noConfusion (sending.symm.trans started)
    · rw [unsent] at sends
      contradiction

theorem offersForm {pc : FrmMain.Pc} {next : FrmMain.Pc × Connection × FrmMain.Window} (offers : Offers s memo)
    (ok : ConnectsDisabled (s,memo) (.window r)) (calling : s.call = .form pc) (stays : pc ≠ .hangUp)
    (moved : FrmMain.step qt s.crypto s.tcpConn.conn s.window (r = .done) pc = some next) :
    Offers {s with call := .form next.1,tcpConn.conn := next.2.1,window := next.2.2} (noteWindow memo s r s.call) := by
  rw [calling]
  cases pc with
  | length | take =>
    cases moved
    refine offersUnfinished offers (by rw [calling]; rfl) id id ?_
    dsimp only
    first | rfl | (split <;> rfl)
  | decrypt taken =>
    cases moved
    cases ended : s.tcpConn.conn.transmissionEnd with
    | true =>
      simp only [noteWindow,ended,if_true]
      exact ⟨nofun,nofun,nofun,offers.stray⟩
    | false =>
      simp only [noteWindow,ended,Bool.false_eq_true,if_false]
      exact offersUnfinished offers (by rw [calling]; rfl) id id rfl
  | clear taken ended =>
    cases moved
    refine offersUnfinished offers (by rw [calling]; rfl) id id ?_
    dsimp only
    split <;> rfl
  | setTransmissionEnd =>
    cases moved
    exact offersUnfinished offers (by rw [calling]; rfl) id id rfl
  | clearOutput =>
    cases moved
    exact ⟨fun _ _ => .inr ⟨rfl,rfl,nofun⟩,offers.commanded,nofun,offers.stray⟩
  | send =>
    simp only [ConnectsDisabled,calling] at ok
    have sent := offersSent offers calling ok
    cases moved
    simp only [decide_eq_true_eq]
    exact sent
  | clearDisconnected =>
    cases moved
    refine offersFrame offers id id (fun _ nonzero _ => ⟨rfl,nonzero (by rw [calling]; rfl)⟩) rfl
  | hangUp => exact (stays rfl).elim
  | idle | stopped => nomatch moved

theorem offersDisconnecting {d : TCPClient.Disconnecting} {next : ClientCall × Option TCPClient.Disconnecting × TCPConn}
    (offers : Offers s memo) (calling : s.call = .disconnecting d)
    (moved : TCPClient.disconnectStep s.tcpConn r d = some next) :
    Offers {s with call := (next.2.1.map FrmMain.Call.disconnecting).getD (.form .idle),tcpConn := next.2.2} memo := by
  have sends (next : Option TCPClient.Disconnecting) :
      ((next.map FrmMain.Call.disconnecting).getD (.form .idle)).sends = false := by cases next <;> rfl
  cases d with
  | test =>
    cases moved
    refine offersFrame offers id id (fun _ nonzero _ => ?_) (sends _)
    have nonzero : s.tcpConn.currentSocket ≠ 0 := nonzero (by rw [calling]; rfl)
    simp [nonzero,FrmMain.Call.finishes]
  | clearConnected =>
    cases moved
    exact offersFrame offers id nofun (fun _ _ => nofun) rfl
  | clearTransmission | close =>
    cases moved
    exact offersUnfinished offers (by rw [calling]; rfl) id id rfl
  | shutdown =>
    cases r <;> simp only [TCPClient.disconnectStep,reduceCtorEq] at moved <;> cases moved <;>
      exact offersUnfinished offers (by rw [calling]; rfl) id id rfl

theorem offersConnecting {pc : TCPClient.Connecting} {crypto : Crypto} {next : ClientCall × TCPClient.Connecting × TCPConn}
    {receivers : List ReceiveThread} {connections : Nat} (offers : Offers s memo)
    (ok : ConnectsDisabled (s,memo) (.window r)) (calling : s.call = .connecting pc crypto)
    (moved : TCPClient.connectStep s.tcpConn r pc = some next) :
    Offers {s with call := .connecting next.2.1 crypto,tcpConn := next.2.2,receivers,connections}
      (noteWindow memo s r s.call) := by
  rw [calling]
  cases pc with
  | setConnected =>
    simp only [ConnectsDisabled,calling] at ok
    cases moved
    exact ⟨by simp [ok],nofun,nofun,offers.stray⟩
  | clearConnected =>
    cases moved
    exact offersUnfinished offers (by rw [calling]; rfl) id nofun rfl
  | close =>
    cases moved
    exact offersUnfinished offers (by rw [calling]; rfl) id id rfl
  | result => nomatch moved
  | lookup | socket | connect | create =>
    cases r <;> simp only [TCPClient.connectStep,reduceCtorEq] at moved <;> cases moved <;>
      exact offersUnfinished offers (by rw [calling]; rfl) id id rfl

theorem offersWindow (offers : Offers s memo) (ok : ConnectsDisabled (s,memo) (.window r))
    (act : windowStep qt s r = some (call,s')) : Offers s' (noteWindow memo s r s.call) := by
  unfold windowStep at act
  split at act
  · rename_i calling
    cases act
    rw [calling]
    refine offersFrame offers id id (fun _ nonzero live => ?_) ?_
    · have live : s.tcpConn.conn.isConnected = true := live
      have nonzero := nonzero (by rw [calling]; rfl)
      simp [live,nonzero,FrmMain.Call.finishes]
    · split <;> rfl
  · rename_i pc stays calling
    obtain ⟨next,moved,same⟩ := Option.map_eq_some_iff.mp act
    cases same
    exact offersForm offers ok calling stays moved
  · rename_i calling
    cases act
    rw [calling]
    exact offersFrame offers id id (fun _ nonzero _ => ⟨rfl,nonzero (by rw [calling]; rfl)⟩) rfl
  · rename_i d calling
    obtain ⟨next,moved,same⟩ := Option.map_eq_some_iff.mp act
    cases same
    have after := offersDisconnecting offers calling moved
    rw [calling]
    exact after
  · rename_i calling
    cases act
    rw [calling]
    exact offersUnfinished offers (by rw [calling]; rfl) id id rfl
  · rename_i pc crypto _ calling
    obtain ⟨next,moved,same⟩ := Option.map_eq_some_iff.mp act
    cases same
    exact offersConnecting offers ok calling moved

theorem runConnected {tcpConn tcpConn' : TCPConn} {pc pc' : TCPClient.RunPc}
    (act : TCPClient.runStep tcpConn r pc = some (call,pc',tcpConn')) (live : tcpConn'.conn.isConnected = true) :
    tcpConn.conn.isConnected = true := by
  cases pc with
  | leaving d =>
    obtain ⟨⟨call,next,after⟩,moved,same⟩ := Option.map_eq_some_iff.mp act
    cases same
    cases d with
    | shutdown => cases r <;> simp only [TCPClient.disconnectStep,reduceCtorEq] at moved <;> cases moved <;> exact live
    | clearConnected =>
      cases moved
      cases live
    | _ =>
      cases moved
      exact live
  | select | receiving socket =>
    cases r <;> simp only [TCPClient.runStep,reduceCtorEq] at act <;> cases act <;> exact live
  | overrun _ | done => cases act
  | _ =>
    cases act
    exact live

theorem offersInput {i : FrmMain.Input} {pc : FrmMain.Pc} (offers : Offers s memo) (idle : s.call = .form .idle)
    (offered : CancelOffered (s,memo)) (starts : FrmMain.start s.tcpConn.conn s.window i = some pc) :
    Offers {s with call := .form pc} {memo with sending := false} := by
  have issued : s.window.cancelEnabled = true → s.tcpConn.conn.isConnected = true → memo.issued = true :=
    offered.1 (by rw [idle]; rfl)
  constructor
  · exact fun enabled live => .inl (issued enabled live)
  · exact offers.commanded
  · intro sends _
    cases i with
    | cancelCommand =>
      simp only [FrmMain.start] at starts
      split at starts <;> try contradiction
      rename_i enabled
      split at starts <;> cases starts
      · rename_i live
        exact offers.commanded (issued enabled live.1)
      · nomatch sends
    | _ =>
      simp only [FrmMain.start] at starts
      split at starts <;> cases starts <;> nomatch sends
  · exact offers.stray

theorem cancelOffered (offers : Offers s memo) : CancelOffered (s,memo) := by
  refine ⟨fun idle enabled live => ?_,offers.stray⟩
  rcases offers.offered enabled live with issued | ⟨-,finishes,-⟩
  · exact issued
  · dsimp only at idle
    unfold FrmMain.Call.idle at idle
    split at idle <;> try contradiction
    rename_i calling
    rw [calling] at finishes
    nomatch finishes

theorem offersStep {s s' : Client × Commands} {l : ReconnectLabel} {call : ClientCall}
    (offers : Offers s.1 s.2) (ok : ConnectsDisabled s l)
    (noting : (watch (reconnectingMachine qt) noteCommands).act s l = some (call,s')) : Offers s'.1 s'.2 := by
  obtain ⟨act,noted⟩ := watchAct noting
  obtain ⟨s,memo⟩ := s
  obtain ⟨s',memo'⟩ := s'
  dsimp only at offers act noted ⊢
  subst noted
  cases l with
  | input i =>
    simp only [reconnectingMachine] at act
    split at act <;> try contradiction
    rename_i idle
    obtain ⟨pc,starts,same⟩ := Option.map_eq_some_iff.mp act
    cases same
    exact offersInput offers idle (cancelOffered offers) starts
  | connect crypto =>
    simp only [reconnectingMachine] at act
    split at act <;> try contradiction
    rename_i idle
    split at act <;> try contradiction
    cases act
    exact offersUnfinished offers (by rw [idle]; rfl) id id rfl
  | window r => exact offersWindow offers ok act
  | receiver k r =>
    simp only [reconnectingMachine,bind,Option.bind_eq_some_iff] at act
    obtain ⟨thread,here,⟨call,pc,tcpConn⟩,moved,same⟩ := act
    cases same
    have live := runConnected moved
    obtain ⟨-,socket,-⟩ := runSteps moved
    obtain ⟨offered,commanded,cancelling,stray⟩ := offers
    refine ⟨fun enabled connected => ?_,commanded,cancelling,stray⟩
    dsimp only at socket ⊢
    rw [socket]
    exact offered enabled (live connected)

/-- Cancel is offered only for a command in progress on every run that connects only while
Cancel is disabled, and 'X' is sent on no connection before a command. -/
theorem cancelOfferedForCommand {crypto : Crypto} {t : Client × Commands}
    (run : Reaches (watch (reconnectingMachine qt) noteCommands) ConnectsDisabled (launched crypto,noCommands) t) :
    CancelOffered t := by
  have start : Offers (launched crypto) noCommands := ⟨nofun,nofun,nofun,rfl⟩
  exact cancelOffered (invariantOfStep (I := fun u => Offers u.1 u.2) offersStep run start)

def endsCommand : List ReconnectLabel :=
  receiverDoes 0 [.received (.bytes endTransmissionCode),.done,.done,.done,.done] ++ [.input .checkMessages] ++
    windowDoes [.done,.done,.done,.done,.done]

def sendsCommand : List ReconnectLabel := [.input .sendCommand] ++ windowDoes [.done,.done]

def cancelsCommand : List ReconnectLabel := [.input .cancelCommand] ++ windowDoes [.done]

theorem cancelOfferedAgain : ∃ t, run (watch (reconnectingMachine plainQt) noteCommands) ConnectsDisabled
      (launched secretCrypto,noCommands) (connects 0 3 ++ sendsCommand ++ cancelsCommand ++ endsCommand ++
        windowHangsUp ++ receiverLeaves 0 ++ receiverDoes 0 [.failed] ++ connects 1 3 ++ sendsCommand) = some t ∧
      t.1.window.cancelEnabled = true ∧ t.1.tcpConn.conn.isConnected = true ∧ CancelOffered t := by
  have ends : (run (watch (reconnectingMachine plainQt) noteCommands) ConnectsDisabled (launched secretCrypto,noCommands)
      (connects 0 3 ++ sendsCommand ++ cancelsCommand ++ endsCommand ++ windowHangsUp ++ receiverLeaves 0 ++
        receiverDoes 0 [.failed] ++ connects 1 3 ++ sendsCommand)).map
      (fun t => (t.1.window.cancelEnabled,t.1.tcpConn.conn.isConnected)) = some (true,true) := by
    decide +kernel
  obtain ⟨t,ran,same⟩ := Option.map_eq_some_iff.mp ends
  obtain ⟨enabled,live⟩ := Prod.mk.inj same
  exact ⟨t,ran,enabled,live,cancelOfferedForCommand (runReaches ran)⟩

theorem cancelStaysEnabled : ∃ t u, Reaches (watch (reconnectingMachine plainQt) noteCommands) free
      (launched secretCrypto,noCommands) t ∧
    t.1.call.idle = true ∧ t.1.window.cancelEnabled = true ∧ t.1.tcpConn.conn.isConnected = true ∧
    t.2.issued = false ∧ t.2.commanded = false ∧
    Reaches (watch (reconnectingMachine plainQt) noteCommands) free t u ∧ u.2.stray = true := by
  have ends : (run (watch (reconnectingMachine plainQt) noteCommands) free (launched secretCrypto,noCommands)
      (connects 0 3 ++ sendsCommand ++ windowHangsUp ++ receiverLeaves 0 ++ receiverDoes 0 [.failed] ++
        connects 1 3)).map (fun t => (t.1.call.idle,t.1.window.cancelEnabled,t.1.tcpConn.conn.isConnected,
        t.2.issued,t.2.commanded,(run (watch (reconnectingMachine plainQt) noteCommands) free t cancelsCommand).map
          fun u => u.2.stray)) = some (true,true,true,false,false,some true) := by
    decide +kernel
  obtain ⟨t,ran,same⟩ := Option.map_eq_some_iff.mp ends
  simp only [Prod.mk.injEq] at same
  obtain ⟨idle,enabled,live,issued,commanded,cancels⟩ := same
  obtain ⟨u,sent,stray⟩ := Option.map_eq_some_iff.mp cancels
  exact ⟨t,u,runReaches ran,idle,enabled,live,issued,commanded,runReaches sent,stray⟩

end RemoteTerminal
