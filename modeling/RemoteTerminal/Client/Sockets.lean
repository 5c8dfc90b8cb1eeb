import RemoteTerminal.Client.Connections
import RemoteTerminal.Server.Sockets

/-! The sockets of the client. `Disconnect` is called by the window and by every receive
thread, for the socket that `CurrentSocket` names when it is called; it closes a socket
only if `shutdown` succeeded on it. -/
namespace RemoteTerminal
open ByteStrings LabelledRuns EntryTable

variable {qt : Qt}

def TCPClient.RunPc.disconnecting : TCPClient.RunPc → Option TCPClient.Disconnecting
  | .leaving d => some d
  | _ => none

def FrmMain.Call.disconnecting? : FrmMain.Call → Option TCPClient.Disconnecting
  | .disconnecting d => some d
  | _ => none

def Client.disconnecting (s : Client) : Option Nat → Option TCPClient.Disconnecting
  | none => s.call.disconnecting?
  | some k => (s.receivers[k]?).bind fun thread => thread.pc.disconnecting

def ReconnectLabel.who : ReconnectLabel → Option (Option Nat)
  | .window _ => some none
  | .receiver k _ => some (some k)
  | .input _ | .connect _ => none

/- `opened` are the sockets that connected and are not closed, `left` those that a
`Disconnect` has run for since. `socket` is what a `Disconnect` was called for. -/
structure ClientSockets where
  opened : Int → Bool
  left : Int → Bool
  socket : Option Nat → Int

def ClientSockets.connected (memo : ClientSockets) (d : Int) : ClientSockets :=
  {memo with opened := Function.update memo.opened d true,left := Function.update memo.left d false}

def ClientSockets.closed (memo : ClientSockets) (d : Int) : ClientSockets :=
  {memo with opened := Function.update memo.opened d false}

def noteCall (memo : ClientSockets) : ReconnectLabel → ClientCall → ClientSockets
  | .window .done,.connect d => memo.connected d
  | _,.close d => memo.closed d
  | _,_ => memo

def noteLeft (who : Option Nat) (called : Int) (returned : Bool) (memo : ClientSockets) : ClientSockets :=
  {memo with
    socket := Function.update memo.socket who called
    left := if returned then Function.update memo.left called true else memo.left}

def noteSockets (memo : ClientSockets) (s : Client) (l : ReconnectLabel) (call : ClientCall) (s' : Client) :
    ClientSockets :=
  match l.who with
  | none => memo
  | some who => match s.disconnecting who with
    | none => noteCall memo l call
    | some d => noteLeft who (if d = .test then s.tcpConn.currentSocket else memo.socket who)
        (s'.disconnecting who).isNone (noteCall memo l call)

def ReconnectLabel.result : ReconnectLabel → Option ClientResult
  | .window r | .receiver _ r => some r
  | .input _ | .connect _ => none

/- No `shutdown` of an open socket fails. `socket` is not called while a receive thread is
inside `Disconnect`, and descriptor 0 is the standard input. -/
def ShutsDownOwn (s : Client × ClientSockets) (l : ReconnectLabel) : Prop :=
  (∀ who ∈ l.who, s.1.disconnecting who = some .shutdown → l.result = some .failed →
    s.2.opened s.1.tcpConn.currentSocket = false) ∧
  (s.1.call.opens = true → l.who = some none → l.result ≠ some (.descriptor 0) ∧
    ∀ thread ∈ s.1.receivers, ∀ d ∈ thread.pc.disconnecting, d = .test)
instance (s : Client × ClientSockets) (l : ReconnectLabel) : Decidable (ShutsDownOwn s l) := by
  unfold ShutsDownOwn; infer_instance

def FrmMain.Call.dials : FrmMain.Call → Bool
  | .connecting .connect _ => true
  | _ => false

inductive SocketStep (s : Client) : ReconnectLabel → ClientCall → Client → Prop where
  | made {r s'} (opens : s.call.opens = true) (outside : s.disconnecting none = none)
      (others : ∀ who, s'.disconnecting who = s.disconnecting who)
      (socket : s'.call.dials = true → ∃ n : Nat, r = .descriptor n ∧ s'.tcpConn.currentSocket = (n : Int)) :
      SocketStep s (.window r) .socket s'
  | dialled {r s'} (dials : s.call.dials = true) (outside : s.disconnecting none = none)
      (others : ∀ who, s'.disconnecting who = s.disconnecting who)
      (socket : s'.tcpConn.currentSocket = s.tcpConn.currentSocket) (after : s'.call.dials = false) :
      SocketStep s (.window r) (.connect s.tcpConn.currentSocket) s'
  | left {l call s' who d r tcpConn'} (acting : l.who = some who) (result : l.result = some r)
      (at_ : s.disconnecting who = some d)
      (step : TCPClient.disconnectStep s.tcpConn r d = some (call,s'.disconnecting who,tcpConn'))
      (others : ∀ w, w ≠ who → s'.disconnecting w = s.disconnecting w)
      (socket : s'.tcpConn.currentSocket = s.tcpConn.currentSocket)
      (dials : s'.call.dials = true → s.call.dials = true) : SocketStep s l call s'
  | other {l call s'} (outside : ∀ who, l.who = some who → s.disconnecting who = none)
      (entered : ∀ who d, s'.disconnecting who = some d → s.disconnecting who = some d ∨ d = .test)
      (socket : s'.tcpConn.currentSocket = s.tcpConn.currentSocket) (connects : ∀ d, call ≠ .connect d)
      (dials : s'.call.dials = true → s.call.dials = true) : SocketStep s l call s'

theorem runLeaves {tcpConn tcpConn' : TCPConn} {r : ClientResult} {pc pc' : TCPClient.RunPc} {call : ClientCall}
    (act : TCPClient.runStep tcpConn r pc = some (call,pc',tcpConn')) :
    (∃ d, pc.disconnecting = some d ∧
      TCPClient.disconnectStep tcpConn r d = some (call,pc'.disconnecting,tcpConn')) ∨
    (pc.disconnecting = none ∧ (∀ d, pc'.disconnecting = some d → d = .test) ∧ ∀ d, call ≠ .connect d) := by
  cases pc with
  | leaving d =>
    obtain ⟨⟨call,next,after⟩,moved,same⟩ := Option.map_eq_some_iff.mp act
    cases same
    refine .inl ⟨d,rfl,?_⟩
    rw [moved]
    cases next <;> rfl
  | select =>
    right
    cases r <;> simp only [TCPClient.runStep,reduceCtorEq] at act <;> cases act <;>
      simp [TCPClient.RunPc.disconnecting]
  | receiving socket =>
    right
    cases r <;> simp only [TCPClient.runStep,reduceCtorEq] at act
    rename_i r
    cases act
    refine ⟨rfl,fun d inside => ?_,by simp⟩
    unfold TCPClient.afterReceive TCPClient.Pc.run at inside
    grind [TCPClient.RunPc.disconnecting]
  | overrun _ | done => contradiction
  | _ =>
    right
    cases act
    simp [TCPClient.RunPc.disconnecting]

theorem outsideStep {s s' : Client} {r : ClientResult} {call : ClientCall} (outside : s.disconnecting none = none)
    (entered : ∀ d, s'.call.disconnecting? = some d → d = .test) (receivers : s'.receivers = s.receivers)
    (socket : s'.tcpConn.currentSocket = s.tcpConn.currentSocket) (connects : ∀ d, call ≠ .connect d)
    (dials : s'.call.dials = false) : SocketStep s (.window r) call s' := by
  refine .other ?_ ?_ socket connects (by simp [dials])
  · intro who acting
    cases acting
    exact outside
  · intro who d inside
    cases who with
    | none => exact .inr (entered d inside)
    | some k =>
      left
      simpa only [Client.disconnecting,receivers] using inside

theorem connectingSocketStep {s : Client} {r : ClientResult} {pc : TCPClient.Connecting} {crypto : Crypto}
    {next : ClientCall × TCPClient.Connecting × TCPConn} (calling : s.call = .connecting pc crypto)
    (act : TCPClient.connectStep s.tcpConn r pc = some next) : SocketStep s (.window r) next.1 {s with
      call := .connecting next.2.1 crypto
      tcpConn := next.2.2
      receivers := if pc = .create ∧ r = .done then s.receivers ++ [⟨.start,s.connections⟩] else s.receivers
      connections := if pc = .socket ∧ next.2.1 = .connect then s.connections+1 else s.connections} := by
  have outside : s.disconnecting none = none := by
    simp [Client.disconnecting,calling,FrmMain.Call.disconnecting?]
  have same (who : Option Nat) (call : FrmMain.Call) (tcpConn : TCPConn) (connections : Nat)
      (none_ : call.disconnecting? = none) :
      Client.disconnecting {s with call,tcpConn,connections} who = s.disconnecting who := by
    cases who with
    | none => exact none_.trans outside.symm
    | some k => rfl
  cases pc with
  | socket =>
    cases r <;> simp only [TCPClient.connectStep,reduceCtorEq] at act <;> cases act
    · exact .made (by rw [calling]; rfl) outside (fun who => same who _ _ _ rfl) (by simp [FrmMain.Call.dials])
    · exact .made (by rw [calling]; rfl) outside (fun who => same who _ _ _ rfl) (fun _ => ⟨_,rfl,rfl⟩)
  | connect =>
    cases r <;> simp only [TCPClient.connectStep,reduceCtorEq] at act <;> cases act <;>
      exact .dialled (by rw [calling]; rfl) outside (fun who => same who _ _ _ rfl) rfl rfl
  | create =>
    have pushed : SocketStep s (.window r) .createReceiver {s with
        call := .connecting .result crypto,receivers := s.receivers ++ [⟨.start,s.connections⟩]} := by
      refine .other (fun who acting => ?_) (fun who d inside => ?_) rfl (by simp) (by simp [FrmMain.Call.dials])
      · cases acting
        exact outside
      · cases who with
        | none => cases inside
        | some k =>
          obtain ⟨thread,found,leaving⟩ := Option.bind_eq_some_iff.mp inside
          rcases pushFound found with ⟨-,rfl⟩ | ⟨-,old⟩
          · cases leaving
          · exact .inl (Option.bind_eq_some_iff.mpr ⟨thread,old,leaving⟩)
    cases r <;> simp only [TCPClient.connectStep,reduceCtorEq] at act <;> cases act
    · simpa using pushed
    · refine outsideStep outside ?_ (by simp) rfl (by simp) rfl
      simp [FrmMain.Call.disconnecting?]
  | result => cases act
  | lookup =>
    cases r <;> simp only [TCPClient.connectStep,reduceCtorEq] at act <;> cases act <;>
      exact outsideStep outside (by simp [FrmMain.Call.disconnecting?]) (by simp) rfl (by simp) rfl
  | clearConnected | close | setConnected =>
    cases act
    exact outsideStep outside (by simp [FrmMain.Call.disconnecting?]) (by simp) rfl (by simp) rfl

theorem windowSocketStep {s s' : Client} {r : ClientResult} {call : ClientCall}
    (act : windowStep qt s r = some (call,s')) : SocketStep s (.window r) call s' := by
  unfold windowStep at act
  split at act
  · rename_i calling
    cases act
    refine outsideStep (by simp [Client.disconnecting,calling,FrmMain.Call.disconnecting?]) ?_ rfl rfl (by simp) ?_
    · split <;> simp [FrmMain.Call.disconnecting?]
    · split <;> rfl
  · rename_i pc _ calling
    obtain ⟨next,-,same⟩ := Option.map_eq_some_iff.mp act
    cases same
    refine outsideStep (by simp [Client.disconnecting,calling,FrmMain.Call.disconnecting?])
      (by simp [FrmMain.Call.disconnecting?]) rfl rfl ?_ rfl
    split <;> simp
  · rename_i calling
    cases act
    exact outsideStep (by simp [Client.disconnecting,calling,FrmMain.Call.disconnecting?])
      (by simp [FrmMain.Call.disconnecting?]) rfl rfl (by simp) rfl
  · rename_i d calling
    obtain ⟨⟨call,next,after⟩,moved,same⟩ := Option.map_eq_some_iff.mp act
    cases same
    have at_ : s.disconnecting none = some d := by
      simp [Client.disconnecting,calling,FrmMain.Call.disconnecting?]
    have leaves : TCPClient.disconnectStep s.tcpConn r d = some (call,Client.disconnecting {s with
        call := (next.map FrmMain.Call.disconnecting).getD (.form .idle),tcpConn := after} none,after) := by
      rw [moved]
      cases next <;> rfl
    refine .left rfl rfl at_ leaves ?_ (disconnectSteps moved).1 ?_
    · intro w other
      cases w with
      | none => exact (other rfl).elim
      | some k => rfl
    · cases next <;> simp [FrmMain.Call.dials]
  · rename_i calling
    cases act
    exact outsideStep (by simp [Client.disconnecting,calling,FrmMain.Call.disconnecting?])
      (by simp [FrmMain.Call.disconnecting?]) rfl rfl (by simp) rfl
  · rename_i pc crypto _ calling
    obtain ⟨next,moved,same⟩ := Option.map_eq_some_iff.mp act
    cases same
    exact connectingSocketStep calling moved

theorem socketStep {s s' : Client} {l : ReconnectLabel} {call : ClientCall}
    (act : (reconnectingMachine qt).act s l = some (call,s')) : SocketStep s l call s' := by
  cases l with
  | input i =>
    simp only [reconnectingMachine] at act
    split at act <;> try contradiction
    obtain ⟨pc,-,same⟩ := Option.map_eq_some_iff.mp act
    cases same
    refine .other (fun _ acting => ?_) (fun who d inside => ?_) rfl (by simp) (by simp [FrmMain.Call.dials])
    · cases acting
    cases who with
    | none => cases inside
    | some k => exact .inl inside
  | connect crypto =>
    simp only [reconnectingMachine] at act
    split at act <;> try contradiction
    split at act <;> try contradiction
    cases act
    refine .other (fun _ acting => ?_) (fun who d inside => ?_) rfl (by simp) (by simp [FrmMain.Call.dials])
    · cases acting
    cases who with
    | none => cases inside
    | some k => exact .inl inside
  | window r => exact windowSocketStep act
  | receiver k r =>
    simp only [reconnectingMachine,bind,Option.bind_eq_some_iff] at act
    obtain ⟨thread,here,⟨call,pc,tcpConn⟩,moved,last⟩ := act
    cases last
    have socket := (runSteps moved).2.1
    have now : Client.disconnecting {s with tcpConn,receivers := s.receivers.set k {thread with pc}} (some k) =
        pc.disconnecting := by
      simp [Client.disconnecting,setAt here]
    have others (w : Option Nat) (other : w ≠ some k) :
        Client.disconnecting {s with tcpConn,receivers := s.receivers.set k {thread with pc}} w =
        s.disconnecting w := by
      cases w with
      | none => rfl
      | some j =>
        have differ : j ≠ k := by simpa using other
        simp [Client.disconnecting,setAt here,differ]
    have before : s.disconnecting (some k) = thread.pc.disconnecting := by
      simp [Client.disconnecting,here]
    rcases runLeaves moved with ⟨d,at_,leaves⟩ | ⟨outside,entered,connects⟩
    · exact .left rfl rfl (before.trans at_) (by rw [now]; exact leaves) others socket id
    · refine .other ?_ ?_ socket connects id
      · intro who acting
        cases acting
        exact before.trans outside
      · intro w d inside
        by_cases mine : w = some k
        · subst mine
          exact .inr (entered d (now.symm.trans inside))
        · exact .inl ((others w mine).symm.trans inside)

structure SocketsLeft (s : Client × ClientSockets) : Prop where
  called : ∀ who d, s.1.disconnecting who = some d → d ≠ .test → s.2.socket who = s.1.tcpConn.currentSocket
  dials : s.1.call.dials = true → s.1.tcpConn.currentSocket ≠ 0
  zero : s.2.opened 0 = false
  left : ∀ d, s.2.left d = true → s.2.opened d = false

theorem noteOutside {memo : ClientSockets} {s s' : Client} {l : ReconnectLabel} {call : ClientCall}
    (outside : ∀ who, l.who = some who → s.disconnecting who = none) (connects : ∀ d, call ≠ .connect d) :
    noteSockets memo s l call s' = memo ∨ ∃ d, noteSockets memo s l call s' = memo.closed d := by
  unfold noteSockets
  cases acting : l.who with
  | none => exact .inl rfl
  | some who =>
    simp only [outside who acting]
    unfold noteCall
    split
    · exact (connects _ rfl).elim
    · exact .inr ⟨_,rfl⟩
    · exact .inl rfl

theorem closedLess {memo : ClientSockets} {d n : Int} (off : memo.opened n = false) :
    (memo.closed d).opened n = false := by
  by_cases same : n = d
  · simp [ClientSockets.closed,same]
  · simpa [ClientSockets.closed,same] using off

theorem leftClosed {memo : ClientSockets} {l : ReconnectLabel} {call : ClientCall} {tcpConn tcpConn' : TCPConn}
    {r : ClientResult} {d : TCPClient.Disconnecting} {next : Option TCPClient.Disconnecting}
    (act : TCPClient.disconnectStep tcpConn r d = some (call,next,tcpConn')) (zero : memo.opened 0 = false)
    (ok : d = .shutdown → r = .failed → memo.opened tcpConn.currentSocket = false) (returned : next = none) :
    (noteCall memo l call).opened tcpConn.currentSocket = false := by
  cases d with
  | test =>
    cases act
    split at returned
    · contradiction
    · rename_i standard
      have standard : tcpConn.currentSocket = 0 := by simpa using standard
      simpa [noteCall,standard] using zero
  | shutdown =>
    cases r <;> simp only [TCPClient.disconnectStep,reduceCtorEq] at act <;> cases act
    · contradiction
    · simpa [noteCall] using ok rfl rfl
  | close =>
    cases act
    simp [noteCall,ClientSockets.closed]
  | clearConnected | clearTransmission =>
    cases act
    contradiction

theorem noteCallLeft {memo : ClientSockets} {l : ReconnectLabel} {call : ClientCall}
    (connects : ∀ d, call ≠ .connect d) : (noteCall memo l call).left = memo.left ∧ (noteCall memo l call).socket = memo.socket ∧
      ∀ n, memo.opened n = false → (noteCall memo l call).opened n = false := by
  unfold noteCall
  split
  · exact (connects _ rfl).elim
  · exact ⟨rfl,rfl,fun n => closedLess⟩
  · exact ⟨rfl,rfl,fun n => id⟩

theorem disconnectConnects {tcpConn tcpConn' : TCPConn} {r : ClientResult} {d : TCPClient.Disconnecting}
    {call : ClientCall} {next : Option TCPClient.Disconnecting}
    (act : TCPClient.disconnectStep tcpConn r d = some (call,next,tcpConn')) (socket : Int) :
    call ≠ .connect socket := by
  cases d with
  | shutdown => cases r <;> simp only [TCPClient.disconnectStep,reduceCtorEq] at act <;> cases act <;> simp
  | _ =>
    cases act
    simp

theorem calledAgain {s s' : Client} {memo : ClientSockets} (kept : SocketsLeft (s,memo))
    (entered : ∀ who d, s'.disconnecting who = some d → s.disconnecting who = some d ∨ d = .test)
    (socket : s'.tcpConn.currentSocket = s.tcpConn.currentSocket) (who : Option Nat) (d : TCPClient.Disconnecting)
    (inside : s'.disconnecting who = some d) (later : d ≠ .test) : memo.socket who = s'.tcpConn.currentSocket := by
  have before := (entered who d inside).resolve_right later
  exact (kept.called who d before later).trans socket.symm

theorem disconnectingLeft {s s' : Client} {memo : ClientSockets} {l : ReconnectLabel} {call : ClientCall}
    {who : Option Nat} {d : TCPClient.Disconnecting} {r : ClientResult} {tcpConn' : TCPConn}
    (kept : SocketsLeft (s,memo)) (ok : ShutsDownOwn (s,memo) l) (acting : l.who = some who) (result : l.result = some r)
    (at_ : s.disconnecting who = some d)
    (step : TCPClient.disconnectStep s.tcpConn r d = some (call,s'.disconnecting who,tcpConn'))
    (others : ∀ w, w ≠ who → s'.disconnecting w = s.disconnecting w)
    (socket : s'.tcpConn.currentSocket = s.tcpConn.currentSocket)
    (keeps : s'.call.dials = true → s.call.dials = true) : SocketsLeft (s',noteSockets memo s l call s') := by
  have target : (if d = .test then s.tcpConn.currentSocket else memo.socket who) = s.tcpConn.currentSocket := by
    split
    · rfl
    · rename_i later
      exact kept.called who d at_ later
  have same : noteSockets memo s l call s' =
      noteLeft who s.tcpConn.currentSocket (s'.disconnecting who).isNone (noteCall memo l call) := by
    simp only [noteSockets,acting,at_,target]
  obtain ⟨leftSame,socketSame,fewer⟩ := noteCallLeft (disconnectConnects step)
  rw [same]
  refine ⟨fun w e inside later => ?_,fun dialling => ?_,fewer 0 kept.zero,fun n ran => ?_⟩
  · by_cases mine : w = who
    · subst mine
      simp [noteLeft,socket]
    · rw [others w mine] at inside
      simp only [noteLeft,Function.update_of_ne mine,socketSame]
      exact (kept.called w e inside later).trans socket.symm
  · rw [socket]
    exact kept.dials (keeps dialling)
  · have closed := leftClosed (l := l) step kept.zero fun shut failed => ok.1 who acting (shut ▸ at_) (failed ▸ result)
    simp only [noteLeft] at ran ⊢
    split at ran
    · rename_i returned
      by_cases here : n = s.tcpConn.currentSocket
      · subst here
        exact closed (by simpa using returned)
      · rw [Function.update_of_ne here,leftSame] at ran
        exact fewer n (kept.left n ran)
    · rw [leftSame] at ran
      exact fewer n (kept.left n ran)

theorem leftStep {s s' : Client} {memo memo' : ClientSockets} {l : ReconnectLabel} {call : ClientCall}
    (kept : SocketsLeft (s,memo)) (ok : ShutsDownOwn (s,memo) l) (step : SocketStep s l call s')
    (noted : memo' = noteSockets memo s l call s') : SocketsLeft (s',memo') := by
  cases step with
  | @made r _ opens outside others socket =>
    have same : memo' = memo := by simp [noted,noteSockets,ReconnectLabel.who,outside,noteCall]
    obtain ⟨stdin,waits⟩ := ok.2 opens rfl
    subst same
    refine ⟨fun who d inside later => ?_,fun dialling => ?_,kept.zero,kept.left⟩
    · rw [others who] at inside
      cases who with
      | none =>
        rw [outside] at inside
        contradiction
      | some k =>
        obtain ⟨thread,found,leaving⟩ := Option.bind_eq_some_iff.mp inside
        exact (later (waits thread (List.mem_of_getElem? found) d leaving)).elim
    · obtain ⟨n,rfl,named⟩ := socket dialling
      rintro standard
      have standard : n = 0 := by
        have : (n : Int) = 0 := named.symm.trans standard
        omega
      exact stdin (by rw [standard]; rfl)
  | @dialled r _ dialling outside others socket after =>
    have nonzero := kept.dials dialling
    have same : memo' = memo ∨ memo' = memo.connected s.tcpConn.currentSocket := by
      simp only [noted,noteSockets,ReconnectLabel.who,outside,noteCall]
      split <;> simp_all
    have again := calledAgain kept (fun who d inside => .inl (others who ▸ inside)) socket
    rcases same with rfl | rfl
    · exact ⟨again,by simp [after],kept.zero,kept.left⟩
    · refine ⟨again,by simp [after],?_,fun d ran => ?_⟩
      · simpa [ClientSockets.connected,Function.update_of_ne (Ne.symm nonzero)] using kept.zero
      · by_cases here : d = s.tcpConn.currentSocket
        · simp [ClientSockets.connected,here] at ran
        · simp only [ClientSockets.connected,Function.update_of_ne here] at ran ⊢
          exact kept.left d ran
  | @left _ _ _ who d r tcpConn' acting result at_ step others socket keeps =>
    subst noted
    exact disconnectingLeft kept ok acting result at_ step others socket keeps
  | other outside entered socket connects keeps =>
    have again := calledAgain kept entered socket
    have dialled : s'.call.dials = true → s'.tcpConn.currentSocket ≠ 0 := fun dialling =>
      socket ▸ kept.dials (keeps dialling)
    rcases noteOutside outside connects with same | ⟨d,same⟩
    · rw [noted,same]
      exact ⟨again,dialled,kept.zero,kept.left⟩
    · rw [noted,same]
      exact ⟨again,dialled,closedLess kept.zero,fun n ran => closedLess (kept.left n ran)⟩

def noSockets : ClientSockets := ⟨fun _ => false,fun _ => false,fun _ => 0⟩

theorem launchedLeft (crypto : Crypto) : SocketsLeft (launched crypto,noSockets) := by
  refine ⟨fun who d inside => ?_,by simp [launched,FrmMain.Call.dials],rfl,fun _ => nofun⟩
  cases who with
  | none => nomatch inside
  | some k => simp [Client.disconnecting,launched] at inside

/-- On either side every socket has been closed when nobody is left to close it, as long as
`shutdown` succeeds on each that is open. -/
theorem socketsClosed {host : Host} {maxClients : Nat} {s t : Server DescriptorTable} (unstarted : Unstarted s)
    (zero : s.system 0 = some .other) (fresh : ∀ n i, s.system n ≠ some (.connection i))
    (run : Reaches (serverMachine host maxClients descriptorSystem) ShutsDown s t) {crypto : Crypto}
    {u : Client × ClientSockets}
    (clientRun : Reaches (watch (reconnectingMachine qt) noteSockets) ShutsDownOwn (launched crypto,noSockets) u) :
    (∀ i, ¬ t.inSession i → ∀ n, t.system n ≠ some (.connection i)) ∧
    ∀ d, u.2.left d = true → u.2.opened d = false := by
  have held : SocketsHeld t :=
    invariantOfStep (fun held ok act => heldStep held ok (serverStep act)) run (unstartedHeld unstarted zero fresh)
  have kept : SocketsLeft u := by
    refine invariantOfStep ?_ clientRun (launchedLeft crypto)
    rintro ⟨v,memo⟩ l call ⟨v',memo'⟩ before ok act
    obtain ⟨act,noted⟩ := watchAct act
    exact leftStep before ok (socketStep act) noted
  exact ⟨heldClosed held,kept.left⟩

theorem standardFresh (n i : Nat) : standardTable n ≠ some (.connection i) := by
  unfold standardTable
  split <;> simp

def hangsUp (results : List Result) : List (ServerLabel Empty) :=
  [.listen .done] ++ accepts 4 ++ [.start] ++
    (clientDoes 0 ([.path (ascii "/"),.received ⟨0,[]⟩] ++ results)).map (SlotLabel.onServer 0)

theorem hangUpCloses : ∃ t u,
    run (serverMachine plainHost 19 descriptorSystem) ShutsDown (booted standardTable) (hangsUp [.done,.done,.done]) =
      some t ∧
    run (watch (reconnectingMachine plainQt) noteSockets) ShutsDownOwn (launched secretCrypto,noSockets)
      connectsAfterReturn = some u ∧
    (∀ i, ¬ t.inSession i → ∀ n, t.system n ≠ some (.connection i)) ∧
    ∀ d, u.2.left d = true → u.2.opened d = false := by
  have ends : (run (serverMachine plainHost 19 descriptorSystem) ShutsDown (booted standardTable)
      (hangsUp [.done,.done,.done])).isSome = true := by decide +kernel
  have endsClient : (run (watch (reconnectingMachine plainQt) noteSockets) ShutsDownOwn (launched secretCrypto,noSockets)
      connectsAfterReturn).isSome = true := by decide +kernel
  obtain ⟨t,ran⟩ := Option.isSome_iff_exists.mp ends
  obtain ⟨u,ranClient⟩ := Option.isSome_iff_exists.mp endsClient
  exact ⟨t,u,ran,ranClient,
    socketsClosed (bootedUnstarted _) rfl standardFresh (runReaches ran) (runReaches ranClient)⟩

def InFirstSlot (s : Server DescriptorTable) (l : ServerLabel Empty) : Prop := ∀ on ∈ l.onSlot s, on.1 = 0
instance (s : Server DescriptorTable) (l : ServerLabel Empty) : Decidable (InFirstSlot s l) := by
  unfold InFirstSlot; infer_instance

theorem otherSlotsUnused {host : Host} {maxClients : Nat} {s t : Server DescriptorTable}
    (run : Reaches (serverMachine host maxClients descriptorSystem) InFirstSlot s t)
    (unused : ∀ i, i ≠ 0 → (s.slots i).clients = []) : ∀ i, i ≠ 0 → (t.slots i).clients = [] := by
  refine invariantOfStep (I := fun u => ∀ i, i ≠ 0 → (u.slots i).clients = []) ?_ run unused
  intro u l call v empty ok act i other
  cases on : l.onSlot u with
  | none =>
    rw [slotsOfEvent (serverStep act) on]
    exact empty i other
  | some acting =>
    obtain ⟨j,label⟩ := acting
    have first : j = 0 := ok (j,label) on
    rw [(slotOfServer (serverStep act) on).2 i (by omega)]
    exact empty i other

def resetClient : List ReconnectLabel :=
  connects 0 3 ++ receiverDoes 0 [.received .failed,.done,.done,.done,.failed]

theorem resetLeaksSockets :
    (∃ t, Reaches (serverMachine plainHost 19 descriptorSystem) free (booted standardTable) t ∧
      (∀ i, ¬ t.inSession i) ∧ t.system 4 = some (.connection 0)) ∧
    ∃ u, Reaches (watch (reconnectingMachine plainQt) noteSockets) free (launched secretCrypto,noSockets) u ∧
      u.2.left 3 = true ∧ u.2.opened 3 = true := by
  constructor
  · have ends : (run (serverMachine plainHost 19 descriptorSystem) InFirstSlot (booted standardTable)
        (hangsUp [.failed,.done,.done])).map (fun t => (t.pending,t.listener,
          (t.slots 0).clients.map (fun c => c.pc),t.system 4)) =
        some (0,.scan 1,[.done],some (.connection 0)) := by decide +kernel
    obtain ⟨t,ran,same⟩ := Option.map_eq_some_iff.mp ends
    simp only [Prod.mk.injEq] at same
    obtain ⟨none,listener,threads,leaked⟩ := same
    have others := otherSlotsUnused (runReaches ran) (fun _ _ => rfl)
    have free_ : Reaches (serverMachine plainHost 19 descriptorSystem) free (booted standardTable) t :=
      reachesProject id (fun {_ l seen _} _ act => .inr ⟨l,seen,trivial,act⟩) (runReaches ran)
    refine ⟨t,free_,fun i => ?_,leaked⟩
    rintro (expected | ⟨thread,mem,holds⟩)
    · simp [Server.expects,none,listener,SocketListen.Pc.handles] at expected
    · by_cases first : i = 0
      · subst first
        have done : thread.pc ∈ (t.slots 0).clients.map (fun c => c.pc) := List.mem_map_of_mem mem
        rw [threads,List.mem_singleton] at done
        rw [done] at holds
        contradiction
      · rw [others i first] at mem
        contradiction
  · have ends : (run (watch (reconnectingMachine plainQt) noteSockets) free (launched secretCrypto,noSockets)
        resetClient).map (fun u => (u.2.left 3,u.2.opened 3)) = some (true,true) := by decide +kernel
    obtain ⟨u,ran,same⟩ := Option.map_eq_some_iff.mp ends
    exact ⟨u,runReaches ran,congrArg Prod.fst same,congrArg Prod.snd same⟩

end RemoteTerminal
