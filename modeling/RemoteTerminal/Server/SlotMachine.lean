import RemoteTerminal.Server.Steps
import RemoteTerminal.Library.Runs
import RemoteTerminal.Library.Table

/-! One slot of the server: `Service->clients[i]`, `ClientConsole[i]`, and every thread
that was started for it. The accept loop works on the slot from outside, so its program
counter comes with the label. `pthread_join` waits for the thread it names; on a handle
that was never written there is no step. -/
namespace RemoteTerminal
open ByteStrings LabelledRuns EntryTable

structure SlotState where
  slot : Slot
  clients : List NewClient.Thread
  consoles : List NewConsole.Thread
  deriving DecidableEq, Repr

inductive SlotLabel where
  | listen (pc : SocketListen.Pc) (r : Result)
  | start (i : Nat)
  | client (t : Nat) (r : Result)
  | console (k : Nat) (r : Result)
  deriving DecidableEq, Repr

def NewClient.started (i : Nat) : NewClient.Thread := ⟨.enter,i,[],none⟩
def NewConsole.created (i : Nat) : NewConsole.Thread := ⟨.prompt,i,0,true⟩

def exited (consoles : List NewConsole.Thread) : Option Nat → Bool
  | none => false
  | some k => consoles[k]?.any fun c => c.pc = .done

def slotMachine (host : Host) (maxClients : Nat) : Machine SlotState SlotLabel Call where
  act s
    | .listen pc r => do
      let (call,_,slot,_) ← SocketListen.step maxClients pc s.slot 0 r
      some (call,{s with slot})
    | .start i => some (.memory,{s with clients := s.clients ++ [NewClient.started i]})
    | .client t r => do
      let thread ← s.clients[t]?
      let (call,next,slot) ← NewClient.step host thread s.slot r
      let clients := s.clients.set t next
      match call,r with
      | .createConsole,.thread k =>
        if k = s.consoles.length then
          some (call,⟨slot,clients,s.consoles ++ [NewConsole.created thread.socketID]⟩)
        else none
      | .join thread,_ => if exited s.consoles thread then some (call,⟨slot,clients,s.consoles⟩) else none
      | _,_ => some (call,⟨slot,clients,s.consoles⟩)
    | .console k r => do
      let thread ← s.consoles[k]?
      let (call,next,slot) ← NewConsole.step thread s.slot r
      some (call,⟨slot,s.clients,s.consoles.set k next⟩)

inductive SlotStep (host : Host) (maxClients : Nat) (s : SlotState) : SlotLabel → Call → SlotState → Prop where
  | listen {pc r call pc' slot current} (step : SocketListen.Steps maxClients s.slot 0 pc r call pc' slot current) :
      SlotStep host maxClients s (.listen pc r) call {s with slot}
  | start {i} : SlotStep host maxClients s (.start i) .memory {s with clients := s.clients ++ [NewClient.started i]}
  | client {t r thread call next slot} (here : s.clients[t]? = some thread)
      (step : NewClient.Steps host thread s.slot r call next slot) (noThread : ∀ k, r ≠ .thread k)
      (joined : ∀ j, call = .join j → exited s.consoles j = true) :
      SlotStep host maxClients s (.client t r) call ⟨slot,s.clients.set t next,s.consoles⟩
  | created {t thread} (here : s.clients[t]? = some thread) (at_ : thread.pc = .create) :
      SlotStep host maxClients s (.client t (.thread s.consoles.length)) .createConsole
        ⟨s.slot,s.clients.set t {thread with pc := .receive,newConsoleThread := some s.consoles.length},
          s.consoles ++ [NewConsole.created thread.socketID]⟩
  | console {k r thread call next slot} (here : s.consoles[k]? = some thread)
      (step : NewConsole.Steps thread s.slot r call next slot) :
      SlotStep host maxClients s (.console k r) call ⟨slot,s.clients,s.consoles.set k next⟩

theorem slotStep {host maxClients s l call s'}
    (h : (slotMachine host maxClients).act s l = some (call,s')) : SlotStep host maxClients s l call s' := by
  cases l with
  | listen pc r =>
    simp only [slotMachine,bind,Option.bind_eq_some_iff] at h
    obtain ⟨⟨call,pc',slot,current⟩,hs,last⟩ := h
    cases Option.some.inj last
    exact .listen (SocketListen.steps hs)
  | start i =>
    cases Option.some.inj h
    exact .start
  | client t r =>
    simp only [slotMachine,bind,Option.bind_eq_some_iff] at h
    obtain ⟨thread,here,⟨call,next,slot⟩,hs,last⟩ := h
    have step := NewClient.steps hs
    have same := step
    cases step with
    | created at_ =>
      dsimp only at last
      split at last <;> try contradiction
      rename_i fresh
      cases Option.some.inj last
      subst fresh
      exact .created here at_
    | join at_ =>
      dsimp only at last
      split at last <;> try contradiction
      rename_i finished
      cases Option.some.inj last
      refine .client here same (by simp) ?_
      intro j named
      cases named
      exact finished
    | returnDirectory at_ outcome =>
      cases Option.some.inj last
      rcases outcome with rfl | rfl <;> exact .client here same (by simp) (by simp)
    | _ =>
      cases Option.some.inj last
      exact .client here same (by simp) (by simp)
  | console k r =>
    simp only [slotMachine,bind,Option.bind_eq_some_iff] at h
    obtain ⟨thread,here,⟨call,next,slot⟩,hs,last⟩ := h
    cases Option.some.inj last
    exact .console here (NewConsole.steps hs)

def plainHost : Host := ⟨ascii "box",ascii "user",ascii "/home/user",false⟩

def freshConsole (pipeActive hasNextCommand : Bool) : ThreadData :=
  ⟨[],[],[],[],0,(0,0),(0,0),0,pipeActive,[],hasNextCommand,0⟩

def vacant (pipeActive hasNextCommand : Bool) : SlotState := ⟨⟨0,freshConsole pipeActive hasNextCommand⟩,[],[]⟩

def heard (message : String) : Result := .received ⟨1,ascii message⟩

def clientDoes (t : Nat) (results : List Result) : List SlotLabel := results.map (.client t)
def consoleDoes (k : Nat) (results : List Result) : List SlotLabel := results.map (.console k)

def sessionOpens (descriptor : Nat) (directory : Bytes) : List SlotLabel :=
  [.listen (.scan 0) (.descriptor descriptor),.listen (.reset 0) .done,.start 0,.client 0 (.path directory)]

def launches (t k : Nat) (message : String) : List SlotLabel :=
  clientDoes t [heard message,.done,.done,.done,.descriptors (5+2*k) (6+2*k),.descriptors (7+2*k) (8+2*k),.done,.thread k]

def consoleStarts (k pid : Nat) : List SlotLabel :=
  consoleDoes k [.done,.done,.done,.process pid,.done,.done,.done]

def consoleReturns (k pid : Nat) : List SlotLabel :=
  consoleDoes k [.endOfFile,.done,.done,.done,.done,.done,.done,.process pid,.done,.done,.done,.done]

def disconnects (t : Nat) : List SlotLabel := clientDoes t [.received ⟨0,[]⟩,.done,.done,.done,.done]

end RemoteTerminal
