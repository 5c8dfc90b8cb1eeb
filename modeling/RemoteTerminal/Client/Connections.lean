import RemoteTerminal.Client.Machine
import RemoteTerminal.Library.Table

/-! The client from one connection to the next: the window's `Connect` and `Disconnect`
and every receive thread that was created, one call or store at a time, over the one
`TCPConn` they share. A receive thread reads `CurrentSocket` anew for each call, so a
thread that has not returned when `socket` is called again works on the new socket. -/
namespace RemoteTerminal
open ByteStrings LabelledRuns EntryTable

variable {qt : Qt}

structure TCPConn where
  conn : Connection
  currentSocket : Int
  deriving DecidableEq, Repr

inductive ClientCall where
  | memory
  | setIsConnected (isConnected : Bool)
  | setTransmissionEnd (transmissionEnd : Bool)
  | gethostbyname
  | socket
  | connect (socket : Int)
  | createReceiver
  | send (socket : Int)
  | select (socket : Int)
  | recv (socket : Int)
  | shutdown (socket : Int)
  | close (socket : Int)
  deriving DecidableEq, Repr

inductive ClientResult where
  | done
  | failed
  | descriptor (n : Nat)
  | received (r : Recv)
  deriving DecidableEq, Repr

namespace TCPClient

def setIsConnected (tcpConn : TCPConn) (isConnected : Bool) : TCPConn :=
  {tcpConn with conn.isConnected := isConnected}

def setTransmissionEnd (tcpConn : TCPConn) (transmissionEnd : Bool) : TCPConn :=
  {tcpConn with conn.transmissionEnd := transmissionEnd}

inductive Disconnecting where
  | test
  | clearConnected
  | clearTransmission
  | shutdown
  | close
  deriving DecidableEq, Repr

def disconnectStep (tcpConn : TCPConn) (r : ClientResult) :
    Disconnecting → Option (ClientCall × Option Disconnecting × TCPConn)
  | .test => some (.memory,if tcpConn.currentSocket ≠ 0 then some .clearConnected else none,tcpConn)
  | .clearConnected => some (.setIsConnected false,some .clearTransmission,setIsConnected tcpConn false)
  | .clearTransmission => some (.setTransmissionEnd false,some .shutdown,setTransmissionEnd tcpConn false)
  | .shutdown => match r with
    | .done => some (.shutdown tcpConn.currentSocket,some .close,tcpConn)
    | .failed => some (.shutdown tcpConn.currentSocket,none,tcpConn)
    | _ => none
  | .close => some (.close tcpConn.currentSocket,none,tcpConn)

inductive RunPc where
  | start
  | select
  | recv
  | receiving (socket : Int)
  | append (sPacket : Bytes)
  | mark (sPacket : Bytes)
  | overrun (r : Bytes)
  | leaving (d : Disconnecting)
  | done
  deriving DecidableEq, Repr

def Pc.run : Pc → RunPc
  | .receive => .select
  | .append sPacket => .append sPacket
  | .mark sPacket => .mark sPacket
  | .overrun r => .overrun r
  | .disconnect => .leaving .test
  | .done => .done

def runStep (tcpConn : TCPConn) (r : ClientResult) : RunPc → Option (ClientCall × RunPc × TCPConn)
  | .start => some (.memory,.select,tcpConn)
  | .select => match r with
    | .done => some (.select tcpConn.currentSocket,.recv,tcpConn)
    | .failed => some (.select tcpConn.currentSocket,.leaving .test,tcpConn)
    | _ => none
  | .recv => some (.recv tcpConn.currentSocket,.receiving tcpConn.currentSocket,tcpConn)
  | .receiving _ => match r with
    | .received r => some (.memory,(afterReceive tcpConn.conn r).run,tcpConn)
    | _ => none
  | .append sPacket =>
    some (.memory,.mark sPacket,{tcpConn with conn.serverOutput := tcpConn.conn.serverOutput ++ sPacket})
  | .mark sPacket =>
    let transmissionEnd := contains sPacket endTransmissionCode
    some (.setTransmissionEnd transmissionEnd,.select,setTransmissionEnd tcpConn transmissionEnd)
  | .leaving d => (disconnectStep tcpConn r d).map fun next =>
      (next.1,(next.2.1.map RunPc.leaving).getD .done,next.2.2)
  | .overrun _ | .done => none

inductive Connecting where
  | clearConnected
  | lookup
  | socket
  | connect
  | close
  | setConnected
  | create
  | result
  deriving DecidableEq, Repr

def connectStep (tcpConn : TCPConn) (r : ClientResult) : Connecting → Option (ClientCall × Connecting × TCPConn)
  | .clearConnected => some (.setIsConnected false,.lookup,setIsConnected tcpConn false)
  | .lookup => match r with
    | .done => some (.gethostbyname,.socket,tcpConn)
    | .failed => some (.gethostbyname,.result,tcpConn)
    | _ => none
  | .socket => match r with
    | .descriptor n => some (.socket,.connect,{tcpConn with currentSocket := n})
    | .failed => some (.socket,.result,{tcpConn with currentSocket := -1})
    | _ => none
  | .connect => match r with
    | .done => some (.connect tcpConn.currentSocket,.setConnected,tcpConn)
    | .failed => some (.connect tcpConn.currentSocket,.close,tcpConn)
    | _ => none
  | .close => some (.close tcpConn.currentSocket,.result,tcpConn)
  | .setConnected => some (.setIsConnected true,.create,setIsConnected tcpConn true)
  -- the result of `pthread_create` is not looked at
  | .create => match r with
    | .done | .failed => some (.createReceiver,.result,tcpConn)
    | _ => none
  | .result => none

end TCPClient

namespace FrmMain

inductive Call where
  | form (pc : Pc)
  | connecting (pc : TCPClient.Connecting) (crypto : Crypto)
  | farewell
  | disconnecting (d : TCPClient.Disconnecting)

end FrmMain

/- `connection` numbers the `socket` call whose `Connect` created the thread. -/
structure ReceiveThread where
  pc : TCPClient.RunPc
  connection : Nat
  deriving DecidableEq, Repr

/- `connections` counts the sockets `Connect` has made. `crypto` is looked at only while
connected. -/
structure Client where
  tcpConn : TCPConn
  call : FrmMain.Call
  window : FrmMain.Window
  crypto : Crypto
  receivers : List ReceiveThread
  connections : Nat

inductive ReconnectLabel where
  | input (i : FrmMain.Input)
  | connect (crypto : Crypto)
  | window (r : ClientResult)
  | receiver (k : Nat) (r : ClientResult)

def windowStep (qt : Qt) (s : Client) (r : ClientResult) : Option (ClientCall × Client) :=
  match s.call with
  | .form .hangUp =>
    some (.memory,{s with call := if s.tcpConn.conn.isConnected then .farewell else .form .idle})
  | .form pc =>
    let call := match pc with
      | .send => ClientCall.send s.tcpConn.currentSocket
      | .setTransmissionEnd => .setTransmissionEnd false
      | _ => .memory
    (FrmMain.step qt s.crypto s.tcpConn.conn s.window (r = .done) pc).map fun next =>
      (call,{s with call := .form next.1,tcpConn.conn := next.2.1,window := next.2.2})
  | .farewell => some (.send s.tcpConn.currentSocket,{s with call := .disconnecting .test})
  | .disconnecting d => (TCPClient.disconnectStep s.tcpConn r d).map fun next =>
      (next.1,{s with call := (next.2.1.map FrmMain.Call.disconnecting).getD (.form .idle),tcpConn := next.2.2})
  | .connecting .result crypto =>
    some (.memory,{s with call := .form .idle,crypto := if s.tcpConn.conn.isConnected then crypto else s.crypto})
  | .connecting pc crypto => (TCPClient.connectStep s.tcpConn r pc).map fun next =>
      (next.1,{s with
        call := .connecting next.2.1 crypto
        tcpConn := next.2.2
        receivers := if pc = .create ∧ r = .done then s.receivers ++ [⟨.start,s.connections⟩] else s.receivers
        connections := if pc = .socket ∧ next.2.1 = .connect then s.connections+1 else s.connections})

def reconnectingMachine (qt : Qt) : Machine Client ReconnectLabel ClientCall where
  act s
    | .input i => match s.call with
      | .form .idle => (FrmMain.start s.tcpConn.conn s.window i).map fun pc => (.memory,{s with call := .form pc})
      | _ => none
    | .connect crypto => match s.call with
      | .form .idle =>
        if s.tcpConn.conn.isConnected then none
        else some (.memory,{s with call := .connecting .clearConnected crypto})
      | _ => none
    | .window r => windowStep qt s r
    | .receiver k r => do
      let thread ← s.receivers[k]?
      let (call,pc,tcpConn) ← TCPClient.runStep s.tcpConn r thread.pc
      some (call,{s with tcpConn,receivers := s.receivers.set k {thread with pc}})

structure OnConnection (c : Crypto) (socket : Int) (k : Nat) (pc : TCPClient.RunPc) (call : FrmMain.Call)
    (conn : Connection) (window : FrmMain.Window) (s : Client) : Prop where
  tcpConn : s.tcpConn = ⟨conn,socket⟩
  call : s.call = call
  window : s.window = window
  crypto : s.crypto = c
  receiver : ∃ n, s.receivers[k]? = some ⟨pc,n⟩

section
variable {c : Crypto} {socket : Int} {k : Nat} {pc pc' : TCPClient.RunPc} {call call' : FrmMain.Call}
  {conn conn' : Connection} {window window' : FrmMain.Window} {s : Client} {made : ClientCall}

theorem onConnectionClient (on : OnConnection c socket k pc call conn window s) :
    s = ⟨⟨conn,socket⟩,call,window,c,s.receivers,s.connections⟩ := by
  rw [← on.tcpConn,← on.call,← on.window,← on.crypto]

theorem receiverActs (r : ClientResult) (on : OnConnection c socket k pc call conn window s)
    (moved : TCPClient.runStep ⟨conn,socket⟩ r pc = some (made,pc',⟨conn',socket⟩)) :
    ∃ t, Reaches (reconnectingMachine qt) free s t ∧ OnConnection c socket k pc' call conn' window t := by
  obtain ⟨n,here⟩ := on.receiver
  have act : (reconnectingMachine qt).act s (.receiver k r) = some (made,{s with
      tcpConn := ⟨conn',socket⟩,receivers := s.receivers.set k ⟨pc',n⟩}) := by
    simp [reconnectingMachine,here,on.tcpConn,moved]
  exact ⟨_,.step .refl trivial act,rfl,on.call,on.window,on.crypto,n,by rw [setAt here,if_pos rfl]⟩

theorem windowActs (call' : FrmMain.Call) (conn' : Connection) (window' : FrmMain.Window) (l : ReconnectLabel)
    (on : OnConnection c socket k pc call conn window s)
    (moved : ∀ receivers connections, ∃ made,
      (reconnectingMachine qt).act ⟨⟨conn,socket⟩,call,window,c,receivers,connections⟩ l =
      some (made,⟨⟨conn',socket⟩,call',window',c,receivers,connections⟩)) :
    ∃ t, Reaches (reconnectingMachine qt) free s t ∧ OnConnection c socket k pc call' conn' window' t := by
  obtain ⟨made,act⟩ := moved s.receivers s.connections
  rw [← onConnectionClient on] at act
  exact ⟨_,.step .refl trivial act,rfl,rfl,rfl,rfl,on.receiver⟩

theorem receiverDisconnects (nonzero : socket ≠ 0)
    (on : OnConnection c socket k (.leaving .test) call conn window s) : ∃ t,
    Reaches (reconnectingMachine qt) free s t ∧
    OnConnection c socket k .done call (TCPClient.disconnect conn) window t := by
  have test : TCPClient.runStep ⟨conn,socket⟩ .done (.leaving .test) =
      some (.memory,.leaving .clearConnected,⟨conn,socket⟩) := by
    simp [TCPClient.runStep,TCPClient.disconnectStep,nonzero]
  obtain ⟨s₁,run₁,on⟩ := receiverActs .done on test
  obtain ⟨s₂,run₂,on⟩ := receiverActs .done on rfl
  obtain ⟨s₃,run₃,on⟩ := receiverActs .done on rfl
  obtain ⟨s₄,run₄,on⟩ := receiverActs .done on rfl
  obtain ⟨s₅,run₅,on⟩ := receiverActs .done on rfl
  exact ⟨s₅,reachesTrans run₁ (reachesTrans run₂ (reachesTrans run₃ (reachesTrans run₄ run₅))),on⟩

theorem windowDisconnects (nonzero : socket ≠ 0) (on : OnConnection c socket k pc (.form .hangUp) conn window s) :
    ∃ t, Reaches (reconnectingMachine qt) free s t ∧ OnConnection c socket k pc (.form .idle)
      (if conn.isConnected then TCPClient.disconnect conn else conn) window t := by
  cases connected : conn.isConnected with
  | false =>
    refine windowActs _ _ _ (.window .done) on fun _ _ => ⟨.memory,?_⟩
    simp only [reconnectingMachine,windowStep,connected,Bool.false_eq_true,if_false]
  | true =>
    have test : TCPClient.disconnectStep ⟨conn,socket⟩ .done .test =
        some (.memory,some .clearConnected,⟨conn,socket⟩) := by
      simp only [TCPClient.disconnectStep,ne_eq,nonzero,not_false_eq_true,if_true]
    obtain ⟨s₁,run₁,on⟩ := windowActs .farewell conn window (.window .done) on fun _ _ =>
      ⟨.memory,by simp only [reconnectingMachine,windowStep,connected,if_true]⟩
    obtain ⟨s₂,run₂,on⟩ := windowActs (.disconnecting .test) conn window (.window .done) on fun _ _ => ⟨_,rfl⟩
    obtain ⟨s₃,run₃,on⟩ := windowActs (.disconnecting .clearConnected) conn window (.window .done) on fun _ _ =>
      ⟨.memory,by simp only [reconnectingMachine,windowStep,test]; rfl⟩
    obtain ⟨s₄,run₄,on⟩ := windowActs (.disconnecting .clearTransmission) {conn with isConnected := false} window
      (.window .done) on fun _ _ => ⟨_,rfl⟩
    obtain ⟨s₅,run₅,on⟩ := windowActs (.disconnecting .shutdown) (TCPClient.disconnect conn) window
      (.window .done) on fun _ _ => ⟨_,rfl⟩
    obtain ⟨s₆,run₆,on⟩ := windowActs (.disconnecting .close) (TCPClient.disconnect conn) window
      (.window .done) on fun _ _ => ⟨_,rfl⟩
    obtain ⟨s₇,run₇,on⟩ := windowActs (.form .idle) (TCPClient.disconnect conn) window
      (.window .done) on fun _ _ => ⟨_,rfl⟩
    exact ⟨s₇,reachesTrans run₁ (reachesTrans run₂ (reachesTrans run₃ (reachesTrans run₄ (reachesTrans run₅
      (reachesTrans run₆ run₇))))),on⟩

end

def FrmMain.Pc.call : FrmMain.Pc → FrmMain.Call
  | .stopped => .form .idle
  | pc => .form pc

theorem formRuns {c : Crypto} {socket : Int} {k : Nat} {pc : TCPClient.RunPc} {form : FrmMain.Pc} {sent : Bool}
    {conn : Connection} {window : FrmMain.Window} {next : FrmMain.Pc × Connection × FrmMain.Window} {S : Client}
    (stays : form ≠ .hangUp) (moved : FrmMain.step qt c conn window sent form = some next)
    (on : OnConnection c socket k pc form.call conn window S) : ∃ T, Reaches (reconnectingMachine qt) free S T ∧
      OnConnection c socket k pc next.1.call next.2.1 next.2.2 T := by
  obtain ⟨then_,conn',window'⟩ := next
  have running : FrmMain.Pc.call form = .form form := by
    cases form <;> first | rfl | nomatch moved
  have goesOn : FrmMain.Pc.call then_ = .form then_ := by
    cases form <;> grind [FrmMain.step,FrmMain.Pc.call]
  rw [running] at on
  dsimp only
  rw [goesOn]
  refine windowActs _ _ _ (.window (if sent then .done else .failed)) on fun _ _ => ?_
  have result : decide ((if sent then ClientResult.done else .failed) = .done) = sent := by
    cases sent <;> rfl
  cases form with
  | hangUp => exact (stays rfl).elim
  | _ =>
    simp only [reconnectingMachine,windowStep,result,moved]
    exact ⟨_,rfl⟩

theorem clientStepRuns {c : Crypto} {socket : Int} {k : Nat} {s t : ClientState} {l : ClientLabel} {S : Client}
    (nonzero : socket ≠ 0)
    (on : OnConnection c socket k s.receiver.run s.form.call s.conn s.window S)
    (act : clientAct qt c s l = some t) : ∃ T, Reaches (reconnectingMachine qt) free S T ∧
      OnConnection c socket k t.receiver.run t.form.call t.conn t.window T := by
  obtain ⟨conn,network,receiver,form,window⟩ := s
  cases l with
  | recv r =>
    simp only [clientAct] at act
    split at act <;> try contradiction
    rename_i waiting
    obtain ⟨rest,-,same⟩ := Option.map_eq_some_iff.mp act
    subst waiting same
    obtain ⟨s₁,run₁,on⟩ := receiverActs .done on rfl
    obtain ⟨s₂,run₂,on⟩ := receiverActs .done on rfl
    obtain ⟨s₃,run₃,on⟩ := receiverActs (.received r) on rfl
    exact ⟨s₃,reachesTrans run₁ (reachesTrans run₂ run₃),on⟩
  | run =>
    obtain ⟨next,moved,same⟩ := Option.map_eq_some_iff.mp act
    subst same
    cases receiver with
    | append sPacket | mark sPacket =>
      cases moved
      exact receiverActs .done on rfl
    | disconnect =>
      cases moved
      exact receiverDisconnects nonzero on
    | receive | overrun _ | done => nomatch moved
  | input i =>
    simp only [clientAct] at act
    split at act <;> try contradiction
    rename_i idle
    obtain ⟨pc,started,same⟩ := Option.map_eq_some_iff.mp act
    subst idle same
    have starts : FrmMain.Pc.call pc = .form pc := by
      unfold FrmMain.start at started
      cases i <;> grind [FrmMain.Pc.call]
    dsimp only at on ⊢
    rw [starts]
    refine windowActs _ _ _ (.input i) on fun _ _ => ⟨.memory,?_⟩
    simp only [reconnectingMachine,FrmMain.Pc.call,started,Option.map_some]
  | form sent =>
    obtain ⟨next,moved,same⟩ := Option.map_eq_some_iff.mp act
    subst same
    by_cases hangs : form = .hangUp
    · subst hangs
      cases moved
      exact windowDisconnects nonzero on
    · exact formRuns hangs moved on

theorem clientRuns {c : Crypto} {socket : Int} {k : Nat} {s t : ClientState} {S : Client} (nonzero : socket ≠ 0)
    (on : OnConnection c socket k s.receiver.run s.form.call s.conn s.window S)
    (run : Reaches (clientMachine qt c) free s t) : ∃ T, Reaches (reconnectingMachine qt) free S T ∧
      OnConnection c socket k t.receiver.run t.form.call t.conn t.window T := by
  refine invariantOfStep (I := fun u => ∃ U, Reaches (reconnectingMachine qt) free S U ∧
    OnConnection c socket k u.receiver.run u.form.call u.conn u.window U) ?_ run ⟨S,.refl,on⟩
  rintro u l seen v ⟨U,before,on⟩ - act
  obtain ⟨V,after,on⟩ := clientStepRuns nonzero on (clientMachineAct act)
  exact ⟨V,reachesTrans before after,on⟩

def ClientCall.touches : ClientCall → Bool
  | .setIsConnected isConnected => !isConnected
  | .setTransmissionEnd transmissionEnd => !transmissionEnd
  | .recv _ | .shutdown _ | .close _ => true
  | _ => false

def noteDamage (damages : List (Nat × Nat)) (s : Client) (l : ReconnectLabel) (call : ClientCall) (_ : Client) :
    List (Nat × Nat) :=
  match l with
  | .receiver k _ => match s.receivers[k]? with
    | some thread =>
      if call.touches ∧ thread.connection < s.connections then (thread.connection,s.connections)::damages else damages
    | none => damages
  | _ => damages

def FrmMain.Call.opens : FrmMain.Call → Bool
  | .connecting .socket _ => true
  | _ => false

/- `socket` gives `CurrentSocket` a new value when no receive thread is left. -/
def ReturnedFirst (s : Client × List (Nat × Nat)) : ReconnectLabel → Prop
  | .window (.descriptor _) => s.1.call.opens → ∀ thread ∈ s.1.receivers, thread.pc = .done
  | _ => True
instance (s) : (l : ReconnectLabel) → Decidable (ReturnedFirst s l)
  | .window (.descriptor _) => by dsimp only [ReturnedFirst]; infer_instance
  | .window .done | .window .failed | .window (.received _) => isTrue trivial
  | .input _ | .connect _ | .receiver _ _ => isTrue trivial

theorem disconnectSteps {tcpConn tcpConn' : TCPConn} {r : ClientResult} {d : TCPClient.Disconnecting}
    {call : ClientCall} {next : Option TCPClient.Disconnecting}
    (act : TCPClient.disconnectStep tcpConn r d = some (call,next,tcpConn')) :
    tcpConn'.currentSocket = tcpConn.currentSocket ∧
    (next = none → tcpConn.currentSocket ≠ 0 → call.touches = true) := by
  cases d with
  | shutdown =>
    cases r <;> simp only [TCPClient.disconnectStep,reduceCtorEq] at act <;> cases act <;>
      exact ⟨rfl,fun _ _ => rfl⟩
  | test =>
    cases act
    exact ⟨rfl,fun returns other => by simp [other] at returns⟩
  | _ =>
    cases act
    exact ⟨rfl,fun _ _ => rfl⟩

theorem runSteps {tcpConn tcpConn' : TCPConn} {r : ClientResult} {pc pc' : TCPClient.RunPc} {call : ClientCall}
    (act : TCPClient.runStep tcpConn r pc = some (call,pc',tcpConn')) :
    pc ≠ .done ∧ tcpConn'.currentSocket = tcpConn.currentSocket ∧
    (pc' = .done → tcpConn.currentSocket ≠ 0 → call.touches = true) := by
  cases pc with
  | select =>
    cases r <;> simp only [TCPClient.runStep,reduceCtorEq] at act <;> cases act <;> exact ⟨nofun,rfl,nofun⟩
  | receiving socket =>
    cases r <;> simp only [TCPClient.runStep,reduceCtorEq] at act
    rename_i r
    cases act
    refine ⟨nofun,rfl,fun returns => ?_⟩
    unfold TCPClient.afterReceive TCPClient.Pc.run at returns
    grind
  | leaving d =>
    obtain ⟨⟨call,next,after⟩,moved,same⟩ := Option.map_eq_some_iff.mp act
    cases same
    obtain ⟨socket,returns⟩ := disconnectSteps moved
    refine ⟨nofun,socket,fun done => returns ?_⟩
    cases next with
    | none => rfl
    | some d => nomatch done
  | overrun _ | done => nomatch act
  | _ =>
    cases act
    exact ⟨nofun,rfl,nofun⟩

theorem connectSteps {tcpConn tcpConn' : TCPConn} {r : ClientResult} {pc pc' : TCPClient.Connecting}
    {call : ClientCall} (act : TCPClient.connectStep tcpConn r pc = some (call,pc',tcpConn')) :
    (pc = .socket ∧ pc' = .connect ∧ ∃ n : Nat, r = .descriptor n ∧ tcpConn'.currentSocket = (n : Int)) ∨
    (¬ (pc = .socket ∧ pc' = .connect) ∧ (tcpConn'.currentSocket = tcpConn.currentSocket ∨
      tcpConn'.currentSocket = -1)) := by
  cases pc <;> cases r <;> simp only [TCPClient.connectStep,reduceCtorEq] at act <;> cases act <;>
    simp [TCPClient.setIsConnected]

theorem windowThreads {s s' : Client} {r : ClientResult} {call : ClientCall}
    (act : windowStep qt s r = some (call,s')) :
    (s.call.opens = true ∧ s'.connections = s.connections+1 ∧ s'.receivers = s.receivers ∧
      ∃ n : Nat, r = .descriptor n ∧ s'.tcpConn.currentSocket = (n : Int)) ∨
    (s'.connections = s.connections ∧
      (s'.tcpConn.currentSocket = s.tcpConn.currentSocket ∨ s'.tcpConn.currentSocket = -1) ∧
      (s'.receivers = s.receivers ∨ s'.receivers = s.receivers ++ [⟨.start,s.connections⟩])) := by
  unfold windowStep at act
  split at act
  · cases act
    exact .inr ⟨rfl,.inl rfl,.inl rfl⟩
  · obtain ⟨next,-,same⟩ := Option.map_eq_some_iff.mp act
    cases same
    exact .inr ⟨rfl,.inl rfl,.inl rfl⟩
  · cases act
    exact .inr ⟨rfl,.inl rfl,.inl rfl⟩
  · obtain ⟨⟨call,next,after⟩,moved,same⟩ := Option.map_eq_some_iff.mp act
    cases same
    exact .inr ⟨rfl,.inl (disconnectSteps moved).1,.inl rfl⟩
  · cases act
    exact .inr ⟨rfl,.inl rfl,.inl rfl⟩
  · rename_i pc crypto _ calling
    obtain ⟨⟨call,next,after⟩,moved,same⟩ := Option.map_eq_some_iff.mp act
    cases same
    rcases connectSteps moved with ⟨rfl,rfl,opened⟩ | ⟨other,socket⟩
    · exact .inl ⟨by rw [calling]; rfl,by simp,by simp,opened⟩
    · refine .inr ⟨if_neg other,socket,?_⟩
      by_cases creates : pc = .create ∧ r = .done
      · exact .inr (if_pos creates)
      · exact .inl (if_neg creates)

inductive ThreadsStep (s : Client) : ReconnectLabel → ClientCall → Client → Prop where
  | apart {l call s'} (window : ∀ k r, l ≠ .receiver k r) (connections : s'.connections = s.connections)
      (socket : s'.tcpConn.currentSocket = s.tcpConn.currentSocket ∨ s'.tcpConn.currentSocket = -1)
      (receivers : s'.receivers = s.receivers ∨ s'.receivers = s.receivers ++ [⟨.start,s.connections⟩]) :
      ThreadsStep s l call s'
  | opened {n : Nat} {call s'} (opens : s.call.opens = true) (connections : s'.connections = s.connections+1)
      (socket : s'.tcpConn.currentSocket = (n : Int)) (receivers : s'.receivers = s.receivers) :
      ThreadsStep s (.window (.descriptor n)) call s'
  | receiver {k r call s' thread} {pc : TCPClient.RunPc} (here : s.receivers[k]? = some thread)
      (running : thread.pc ≠ .done) (connections : s'.connections = s.connections)
      (socket : s'.tcpConn.currentSocket = s.tcpConn.currentSocket)
      (receivers : s'.receivers = s.receivers.set k {thread with pc})
      (returns : pc = .done → s.tcpConn.currentSocket ≠ 0 → call.touches = true) :
      ThreadsStep s (.receiver k r) call s'

theorem threadsStep {s s' : Client} {l : ReconnectLabel} {call : ClientCall}
    (act : (reconnectingMachine qt).act s l = some (call,s')) : ThreadsStep s l call s' := by
  cases l with
  | input i =>
    simp only [reconnectingMachine] at act
    split at act <;> try contradiction
    obtain ⟨pc,-,same⟩ := Option.map_eq_some_iff.mp act
    cases same
    exact .apart nofun rfl (.inl rfl) (.inl rfl)
  | connect crypto =>
    simp only [reconnectingMachine] at act
    split at act <;> try contradiction
    split at act <;> try contradiction
    cases act
    exact .apart nofun rfl (.inl rfl) (.inl rfl)
  | window r =>
    rcases windowThreads act with ⟨opens,connections,receivers,n,rfl,socket⟩ | ⟨connections,socket,receivers⟩
    · exact .opened opens connections socket receivers
    · exact .apart nofun connections socket receivers
  | receiver k r =>
    simp only [reconnectingMachine,bind,Option.bind_eq_some_iff] at act
    obtain ⟨thread,here,⟨call,pc,tcpConn⟩,moved,last⟩ := act
    cases last
    obtain ⟨running,socket,returns⟩ := runSteps moved
    exact .receiver here running rfl socket rfl returns

def OwnConnection (s : Client) : Prop := ∀ (k : Nat) (thread : ReceiveThread), s.receivers[k]? = some thread →
  thread.pc ≠ .done → thread.connection = s.connections

theorem ownConnectionStep {s s' : Client × List (Nat × Nat)} {l : ReconnectLabel} {call : ClientCall}
    (own : OwnConnection s.1 ∧ s.2 = []) (ok : ReturnedFirst s l)
    (act : (watch (reconnectingMachine qt) noteDamage).act s l = some (call,s')) :
    OwnConnection s'.1 ∧ s'.2 = [] := by
  obtain ⟨act,noted⟩ := watchAct act
  obtain ⟨s,damages⟩ := s
  obtain ⟨s',damages'⟩ := s'
  obtain ⟨own,rfl⟩ := own
  dsimp only at own act noted ⊢
  cases threadsStep act with
  | apart window connections socket receivers =>
    constructor
    · intro k thread found running
      rw [connections]
      rcases receivers with same | pushed
      · exact own k thread (same ▸ found) running
      · rcases pushFound (pushed ▸ found) with ⟨-,rfl⟩ | ⟨-,old⟩
        · rfl
        · exact own k thread old running
    · cases l with
      | receiver k r => exact (window k r rfl).elim
      | _ => exact noted
  | opened opens connections socket receivers =>
    constructor
    · intro k thread found running
      exact (running (ok opens thread (List.mem_of_getElem? (receivers ▸ found)))).elim
    · exact noted
  | @receiver j r _ _ thread pc here running connections socket receivers returns =>
    constructor
    · intro k other found live
      rw [connections]
      rw [receivers] at found
      rcases setFound here found with ⟨rfl,rfl⟩ | ⟨-,old⟩
      · exact own k thread here running
      · exact own k other old live
    · have current := own j thread here running
      simpa [noteDamage,here,current] using noted

structure NeverConnected (s : Client) : Prop where
  receivers : s.receivers = []
  connections : s.connections = 0

/-- No thread of a finished connection touches a later one, provided that every thread has
returned when the next socket is made. -/
theorem laterConnectionUntouched {s : Client} {t : Client × List (Nat × Nat)} (fresh : NeverConnected s)
    (run : Reaches (watch (reconnectingMachine qt) noteDamage) ReturnedFirst (s,[]) t) : t.2 = [] := by
  have start : OwnConnection s ∧ ([] : List (Nat × Nat)) = [] := by
    refine ⟨?_,rfl⟩
    intro k thread found
    simp [fresh.receivers] at found
  exact (invariantOfStep (I := fun u => OwnConnection u.1 ∧ u.2 = []) ownConnectionStep run start).2

def launched (crypto : Crypto) : Client where
  tcpConn := ⟨⟨[],false,false⟩,0⟩
  call := .form .idle
  window := ⟨[],false⟩
  crypto := crypto
  receivers := []
  connections := 0

theorem launchedNeverConnected (crypto : Crypto) : NeverConnected (launched crypto) := ⟨rfl,rfl⟩

def windowDoes (results : List ClientResult) : List ReconnectLabel := results.map .window
def receiverDoes (k : Nat) (results : List ClientResult) : List ReconnectLabel := results.map (.receiver k)

def connects (k descriptor : Nat) : List ReconnectLabel :=
  [.connect secretCrypto] ++ windowDoes [.done,.done,.descriptor descriptor,.done,.done,.done,.done] ++
    receiverDoes k [.done,.done,.done]

def windowHangsUp : List ReconnectLabel :=
  [.input .disconnect] ++ windowDoes [.done,.done,.done,.done,.done,.done,.done,.done]

def receiverLeaves (k : Nat) : List ReconnectLabel := receiverDoes k [.received .closed,.done,.done,.done]

def connectsAfterReturn : List ReconnectLabel :=
  connects 0 3 ++ windowHangsUp ++ receiverLeaves 0 ++ receiverDoes 0 [.failed] ++ connects 1 3

theorem reconnectedAfterReturn : ∃ t, run (watch (reconnectingMachine plainQt) noteDamage) ReturnedFirst
      (launched secretCrypto,[]) connectsAfterReturn = some t ∧ t.1.connections = 2 ∧ t.2 = [] := by
  have ends : (run (watch (reconnectingMachine plainQt) noteDamage) ReturnedFirst (launched secretCrypto,[])
      connectsAfterReturn).map (fun t => t.1.connections) = some 2 := by decide +kernel
  obtain ⟨t,ran,two⟩ := Option.map_eq_some_iff.mp ends
  exact ⟨t,ran,two,laterConnectionUntouched (launchedNeverConnected secretCrypto) (runReaches ran)⟩

def connectsBeforeReturn : List ReconnectLabel :=
  connects 0 3 ++ windowHangsUp ++ connects 1 3 ++ receiverLeaves 0 ++ receiverDoes 0 [.done,.done]

theorem returnHangsUpNext : ∃ t, Reaches (watch (reconnectingMachine plainQt) noteDamage) free (launched secretCrypto,[]) t ∧
    t.1.connections = 2 ∧ t.1.tcpConn.conn.isConnected = false ∧ t.2 ≠ [] := by
  have ends : (run (watch (reconnectingMachine plainQt) noteDamage) free (launched secretCrypto,[])
      connectsBeforeReturn).map (fun t => (t.1.connections,t.1.tcpConn.conn.isConnected,t.2)) =
      some (2,false,[(1,2),(1,2),(1,2),(1,2)]) := by decide +kernel
  obtain ⟨t,ran,same⟩ := Option.map_eq_some_iff.mp ends
  obtain ⟨two,same⟩ := Prod.mk.inj same
  obtain ⟨ended,damages⟩ := Prod.mk.inj same
  exact ⟨t,runReaches ran,two,ended,by simp [damages]⟩

def NotStdin (_ : Client × List (Nat × Nat)) : ReconnectLabel → Prop
  | .window (.descriptor n) => n ≠ 0
  | _ => True

structure Overtaken (k : Nat) (s : Client × List (Nat × Nat)) : Prop where
  socket : s.1.tcpConn.currentSocket ≠ 0
  behind : s.2 ≠ [] ∨ ∃ thread : ReceiveThread, s.1.receivers[k]? = some thread ∧ thread.pc ≠ .done ∧
    thread.connection < s.1.connections

theorem noteKeeps {damages : List (Nat × Nat)} {s s' : Client} {l : ReconnectLabel} {call : ClientCall}
    (some : damages ≠ []) : noteDamage damages s l call s' ≠ [] := by
  unfold noteDamage
  grind

theorem overtakenStep {k : Nat} {s s' : Client × List (Nat × Nat)} {l : ReconnectLabel} {call : ClientCall}
    (before : Overtaken k s) (ok : NotStdin s l)
    (act : (watch (reconnectingMachine qt) noteDamage).act s l = some (call,s')) : Overtaken k s' := by
  obtain ⟨act,noted⟩ := watchAct act
  obtain ⟨nonzero,behind⟩ := before
  have step := threadsStep act
  constructor
  · cases step with
    | apart window connections socket receivers => rcases socket with same | minus <;> omega
    | @opened n _ _ opens connections socket receivers =>
      have other : n ≠ 0 := ok
      omega
    | receiver here running connections socket receivers returns => exact socket ▸ nonzero
  · rcases behind with damaged | ⟨thread,here,running,behind⟩
    · exact .inl (noted ▸ noteKeeps damaged)
    · cases step with
      | apart window connections socket receivers =>
        refine .inr ⟨thread,?_,running,connections ▸ behind⟩
        rcases receivers with same | pushed
        · rw [same]; exact here
        · rw [pushed]; exact pushKeeps here
      | opened opens connections socket receivers =>
        exact .inr ⟨thread,by rw [receivers]; exact here,running,by omega⟩
      | @receiver j r _ _ moving pc there live connections socket receivers returns =>
        by_cases mine : k = j
        · subst mine
          cases Option.some.inj (here.symm.trans there)
          by_cases returned : pc = .done
          · have touches := returns returned nonzero
            refine .inl ?_
            rw [noted]
            simp [noteDamage,here,touches,behind]
          · exact .inr ⟨{thread with pc},by rw [receivers,setAt here,if_pos rfl],returned,connections ▸ behind⟩
        · exact .inr ⟨thread,by rw [receivers,setAt there,if_neg mine]; exact here,running,connections ▸ behind⟩

/- A thread that the next socket overtakes cannot return without touching it. -/
theorem overtakenTouches {s t : Client × List (Nat × Nat)} {k : Nat} {thread last : ReceiveThread}
    (here : s.1.receivers[k]? = some thread) (running : thread.pc ≠ .done)
    (behind : thread.connection < s.1.connections) (socket : s.1.tcpConn.currentSocket ≠ 0)
    (run : Reaches (watch (reconnectingMachine qt) noteDamage) NotStdin s t)
    (found : t.1.receivers[k]? = some last) (returned : last.pc = .done) : t.2 ≠ [] := by
  have kept := invariantOfStep (I := Overtaken k) overtakenStep run ⟨socket,.inr ⟨thread,here,running,behind⟩⟩
  rcases kept.behind with damaged | ⟨other,same,live,-⟩
  · exact damaged
  · cases Option.some.inj (found.symm.trans same)
    exact (live returned).elim

end RemoteTerminal
