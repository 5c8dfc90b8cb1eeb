import RemoteTerminal.Server.Machine
import RemoteTerminal.Server.Transmission

/-! The process table. The system gives a new process any id that is not in use; the shell
of a command is a child of the server, and `HandleClientPipe` kills it and the id after it.
Each process carries the console thread whose command it belongs to. -/
namespace RemoteTerminal
open ByteStrings LabelledRuns EntryTable

structure Process where
  owner : Option (Nat × Nat)
  child : Bool
  group : Bool
  zombie : Bool
  deriving DecidableEq, Repr

abbrev ProcessTable := Nat → Option Process

inductive ProcessEvent where
  | born (pid : Nat)
  | spawn (parent child : Nat)
  | exit (pid : Nat)
  | reap (pid : Nat)
  deriving DecidableEq, Repr

/- `kill` reads 0 as the caller's process group and -1 as every process. -/
def signalled (pid : Int) (q : Nat) (p : Process) : Bool :=
  if 0 < pid then (q : Int) = pid else if pid = 0 then p.group else true

def shellProcess (i k : Nat) : Process := ⟨some (i,k),true,true,false⟩

/- An ended process keeps its id until its parent waits for it. -/
def ended (table : ProcessTable) (which : Nat → Process → Bool) : ProcessTable :=
  fun q => (table q).map fun p => if which q p then {p with zombie := true} else p

def processSystem : OperatingSystem ProcessTable ProcessEvent where
  call table
    | .console i k,.fork _,.process pid =>
      if 0 < pid ∧ table pid = none then some (Function.update table pid (some (shellProcess i k))) else none
    | _,.kill pid,.done =>
      if 0 < pid ∧ table pid.toNat = none then none
      else some (ended table (signalled pid))
    | _,.wait,.process pid => match table pid with
      | some p => if p.child ∧ p.zombie then some (Function.update table pid none) else none
      | none => none
    | _,_,_ => some table
  event table
    | .born pid =>
      if 0 < pid ∧ table pid = none then some (Function.update table pid (some ⟨none,false,false,false⟩)) else none
    | .spawn parent child => match table parent with
      | some p =>
        if ¬ p.zombie ∧ 0 < child ∧ table child = none then
          some (Function.update table child (some ⟨p.owner,false,p.group,false⟩)) else none
      | none => none
    | .exit pid => some (ended table fun q _ => q = pid)
    | .reap pid => match table pid with
      | some p => if ¬ p.child ∧ p.zombie then some (Function.update table pid none) else none
      | none => none

structure Reservation where
  shell : Nat
  owner : Nat × Nat
  deriving DecidableEq, Repr

def SlotState.secondKill (s : SlotState) (k : Nat) : Bool := s.consoles[k]?.any fun c => c.pc = .killNext

def noteReserved (memo : List Reservation) (s : Server ProcessTable) (l : ServerLabel ProcessEvent) (call : Call)
    (_ : Server ProcessTable) : List Reservation := match l,call with
  | .console i k (.process pid),.fork _ => ⟨pid,i,k⟩::memo
  | .console i k _,.kill _ => if (s.slots i).secondKill k then memo.filter (·.owner ≠ (i,k)) else memo
  | _,_ => memo

def Reservation.covers (entry : Reservation) (pid : Nat) : Prop := pid = entry.shell ∨ pid = entry.shell+1
instance (entry : Reservation) (pid : Nat) : Decidable (entry.covers pid) := by
  unfold Reservation.covers; infer_instance

def SlotState.forking (s : SlotState) (k : Nat) : Bool := s.consoles[k]?.any fun c => match c.pc with
  | .fork _ => true
  | _ => false

/- Forks succeed. The id after a new shell's is not in use, and until the second kill
neither id is given to a process that is not of the command. -/
def Reserves (s : Server ProcessTable × List Reservation) : ServerLabel ProcessEvent → Prop
  | .start => StartsAlone s.1 (.start : ServerLabel ProcessEvent)
  | .console i k r => (s.1.slots i).forking k = true → match r with
    | .process pid => s.1.system (pid+1) = none ∧ ∀ entry ∈ s.2, ¬ entry.covers pid
    | _ => False
  | .system (.born pid) => ∀ entry ∈ s.2, ¬ entry.covers pid
  | .system (.spawn parent child) => ∀ entry ∈ s.2, entry.covers child →
      ∀ p ∈ s.1.system parent, p.owner = some entry.owner
  | _ => True

instance (s : Server ProcessTable × List Reservation) : (l : ServerLabel ProcessEvent) → Decidable (Reserves s l)
  | .start | .system (.born _) | .system (.spawn _ _) | .console _ _ (.process _) => by
    dsimp only [Reserves]; infer_instance
  | .console _ _ .done | .console _ _ .failed | .console _ _ (.thread _) | .console _ _ (.descriptor _)
  | .console _ _ (.descriptors _ _) | .console _ _ (.path _) | .console _ _ (.received _)
  | .console _ _ (.output _) | .console _ _ (.again _) | .console _ _ .endOfFile => by
    dsimp only [Reserves]; infer_instance
  | .listen _ | .client _ _ _ | .system (.exit _) | .system (.reap _) => isTrue trivial

structure KillsOwn (s : Server ProcessTable) (l : ServerLabel ProcessEvent) (call : Call) : Prop where
  own : ∀ i k r pid, l = .console i k r → call = .kill pid → ∀ q p, s.system q = some p →
    signalled pid q p = true → p.owner = some (i,k)

def NewConsole.Pc.entering : NewConsole.Pc → Bool
  | .closeInput | .closeOutput | .enter => true
  | _ => false

def NewConsole.Thread.shell (t : NewConsole.Thread) (s : Slot) : Int :=
  if t.pc.entering then s.console.activePipeID else t.pipeProcessID

def SlotReserves (i : Nat) (s : SlotState) (memo : List Reservation) : Prop :=
  ∀ (k : Nat) (console : NewConsole.Thread), s.consoles[k]? = some console → console.pc.holdsProcess = true →
    ∃ p : Nat, console.shell s.slot = p ∧ ⟨p,i,k⟩ ∈ memo

structure Owned (s : Server ProcessTable × List Reservation) : Prop where
  locked : ∀ i, SlotLock (s.1.slots i)
  exclusive : ∀ entry ∈ s.2, 0 < entry.shell ∧ ∀ q, entry.covers q → ∀ p, s.1.system q = some p →
    p.owner = some entry.owner
  reserved : ∀ i, SlotReserves i (s.1.slots i) s.2

theorem clientProcess {host t s r call t' s'} (h : NewClient.Steps host t s r call t' s') :
    s'.console.activePipeID = s.console.activePipeID ∧ ∀ command, call ≠ .fork command := by
  cases h <;> simp_all

theorem listenProcess {maxClients s current pc r call pc' s' current'}
    (h : SocketListen.Steps maxClients s current pc r call pc' s' current') :
    s'.console.activePipeID = s.console.activePipeID ∧ ∀ command, call ≠ .fork command := by
  cases h <;> simp

theorem consoleProcess {t s r call t' s'} (h : NewConsole.Steps t s r call t' s') :
    (∃ command, t.pc = .fork command ∧ t'.pc = .closeInput ∧ call = .fork command ∧
      ((∃ pid : Nat, r = .process pid ∧ s'.console.activePipeID = pid) ∨ r = .failed)) ∨
    (t.pc = .killNext ∧ t'.pc.holdsProcess = false ∧ call = .kill (t.pipeProcessID+1) ∧ s' = s) ∨
    (t.pc = .kill ∧ t'.pc = .killNext ∧ call = .kill t.pipeProcessID ∧ s' = s ∧
      t'.pipeProcessID = t.pipeProcessID) ∨
    (t'.pc.holdsProcess = t.pc.holdsProcess ∧ (t.pc.holdsProcess = true → t'.shell s' = t.shell s) ∧
      s'.console.activePipeID = s.console.activePipeID ∧ t.pc ≠ .killNext ∧
      (∀ command, call ≠ .fork command) ∧ ∀ pid, call ≠ .kill pid) := by
  cases h <;> simp_all [NewConsole.Pc.holdsProcess,NewConsole.Thread.shell,NewConsole.Pc.entering]

def OwnersKept (table table' : ProcessTable) : Prop :=
  ∀ q p', table' q = some p' → ∃ p, table q = some p ∧ p.owner = p'.owner

theorem erasedKept {table : ProcessTable} {pid : Nat} : OwnersKept table (Function.update table pid none) := by
  intro q p' found
  by_cases same : q = pid
  · subst same
    simp at found
  · rw [Function.update_of_ne same] at found
    exact ⟨p',found,rfl⟩

theorem endedKept {table : ProcessTable} (which : Nat → Process → Bool) : OwnersKept table (ended table which) := by
  intro q p' found
  obtain ⟨p,here,rfl⟩ := Option.map_eq_some_iff.mp found
  refine ⟨p,here,?_⟩
  split <;> rfl

theorem callKept {table table' actor call r} (noFork : ∀ command, call ≠ .fork command)
    (h : processSystem.call table actor call r = some table') : OwnersKept table table' := by
  have unchanged : OwnersKept table table := fun q p found => ⟨p,found,rfl⟩
  simp only [processSystem] at h
  split at h
  · exact (noFork _ rfl).elim
  · split at h <;> try contradiction
    cases Option.some.inj h
    exact endedKept _
  · split at h <;> try contradiction
    split at h <;> try contradiction
    cases Option.some.inj h
    exact erasedKept
  · cases Option.some.inj h
    exact unchanged

theorem exclusiveKept {table table' : ProcessTable} {memo : List Reservation} (kept : OwnersKept table table')
    (exclusive : ∀ entry ∈ memo, 0 < entry.shell ∧ ∀ q, entry.covers q → ∀ p, table q = some p →
      p.owner = some entry.owner) :
    ∀ entry ∈ memo, 0 < entry.shell ∧ ∀ q, entry.covers q → ∀ p, table' q = some p → p.owner = some entry.owner := by
  intro entry mem
  refine ⟨(exclusive entry mem).1,fun q covered p' found => ?_⟩
  obtain ⟨p,here,same⟩ := kept q p' found
  exact same ▸ (exclusive entry mem).2 q covered p here

theorem ownedEvent {s : Server ProcessTable} {memo e table} (owned : Owned (s,memo)) (ok : Reserves (s,memo) (.system e))
    (happened : processSystem.event s.system e = some table) : Owned ({s with system := table},memo) := by
  refine ⟨owned.locked,?_,owned.reserved⟩
  cases e with
  | exit pid =>
    cases Option.some.inj happened
    exact exclusiveKept (endedKept _) owned.exclusive
  | reap pid =>
    simp only [processSystem] at happened
    split at happened <;> try contradiction
    split at happened <;> try contradiction
    cases Option.some.inj happened
    exact exclusiveKept erasedKept owned.exclusive
  | born pid =>
    simp only [processSystem] at happened
    split at happened <;> try contradiction
    cases Option.some.inj happened
    intro entry mem
    refine ⟨(owned.exclusive entry mem).1,fun q covered p found => ?_⟩
    have other : q ≠ pid := fun same => ok entry mem (same ▸ covered)
    simp only [Function.update_of_ne other] at found
    exact (owned.exclusive entry mem).2 q covered p found
  | spawn parent child =>
    simp only [processSystem] at happened
    split at happened <;> try contradiction
    rename_i p present
    split at happened <;> try contradiction
    cases Option.some.inj happened
    intro entry mem
    refine ⟨(owned.exclusive entry mem).1,fun q covered p' found => ?_⟩
    by_cases same : q = child
    · subst same
      simp only [Function.update_self,Option.some.injEq] at found
      subst found
      exact ok entry mem covered p present
    · simp only [Function.update_of_ne same] at found
      exact (owned.exclusive entry mem).2 q covered p' found

theorem reservedFrame {i : Nat} {slot slot' : SlotState} {memo memo' : List Reservation}
    (reserved : SlotReserves i slot memo)
    (consoles : ∀ (k : Nat) (console : NewConsole.Thread), slot'.consoles[k]? = some console →
      console.pc.holdsProcess = true → slot.consoles[k]? = some console)
    (same : slot'.slot.console.activePipeID = slot.slot.console.activePipeID) (grows : ∀ entry ∈ memo, entry ∈ memo') :
    SlotReserves i slot' memo' := by
  intro k console found holds
  obtain ⟨p,shell,mem⟩ := reserved k console (consoles k console found holds) holds
  refine ⟨p,?_,grows _ mem⟩
  simpa only [NewConsole.Thread.shell,same] using shell

theorem reservedSlots {slots : Nat → SlotState} {i : Nat} {slot : SlotState} {memo : List Reservation}
    (acting : SlotReserves i slot memo) (others : ∀ j, j ≠ i → SlotReserves j (slots j) memo) :
    ∀ j, SlotReserves j (Function.update slots i slot j) memo :=
  (Function.forall_update_iff slots fun j slot => SlotReserves j slot memo).mpr ⟨acting,others⟩

theorem ownedClient {host maxClients} {s s' : Server ProcessTable} {memo i t r call}
    (owned : Owned (s,memo)) (locked : ∀ i, SlotLock (s'.slots i))
    (h : ServerStep host maxClients processSystem s (.client i t r) call s') : Owned (s',memo) := by
  cases h with
  | client step handled =>
    cases step with
    | client here step noThread joined =>
      obtain ⟨same,noFork⟩ := clientProcess step
      refine ⟨locked,exclusiveKept (callKept noFork handled) owned.exclusive,?_⟩
      refine reservedSlots ?_ fun j _ => owned.reserved j
      exact reservedFrame (owned.reserved i) (fun _ _ found _ => found) same fun _ => id
    | created here at_ =>
      refine ⟨locked,exclusiveKept (callKept (by simp) handled) owned.exclusive,?_⟩
      refine reservedSlots ?_ fun j _ => owned.reserved j
      refine reservedFrame (owned.reserved i) ?_ rfl fun _ => id
      intro k console found holds
      rcases pushFound found with ⟨rfl,rfl⟩ | ⟨_,old⟩
      · contradiction
      · exact old

theorem ownedListen {host maxClients} {s s' : Server ProcessTable} {memo r call} (owned : Owned (s,memo))
    (locked : ∀ i, SlotLock (s'.slots i)) (h : ServerStep host maxClients processSystem s (.listen r) call s') :
    Owned (s',memo) := by
  cases h with
  | listen step handled =>
    obtain ⟨same,noFork⟩ := listenProcess step
    refine ⟨locked,exclusiveKept (callKept noFork handled) owned.exclusive,?_⟩
    refine reservedSlots ?_ fun j _ => owned.reserved j
    exact reservedFrame (owned.reserved _) (fun _ _ found _ => found) same fun _ => id

theorem ownedStart {host maxClients} {s s' : Server ProcessTable} {memo call} (owned : Owned (s,memo))
    (locked : ∀ i, SlotLock (s'.slots i)) (h : ServerStep host maxClients processSystem s .start call s') :
    Owned (s',memo) := by
  cases h with
  | start waiting =>
    refine ⟨locked,owned.exclusive,?_⟩
    refine reservedSlots ?_ fun j _ => owned.reserved j
    exact reservedFrame (owned.reserved _) (fun _ _ found _ => found) rfl fun _ => id

theorem reservedSet {i k : Nat} {slot : SlotState} {memory : Slot} {memo memo' : List Reservation}
    {thread next : NewConsole.Thread} (reserved : SlotReserves i slot memo) (here : slot.consoles[k]? = some thread)
    (acting : next.pc.holdsProcess = true → ∃ p : Nat, next.shell memory = p ∧ ⟨p,i,k⟩ ∈ memo')
    (others : ∀ (j : Nat) (console : NewConsole.Thread), j ≠ k → slot.consoles[j]? = some console →
      console.pc.holdsProcess = true → memory.console.activePipeID = slot.slot.console.activePipeID ∧
        ∀ p, ⟨p,i,j⟩ ∈ memo → ⟨p,i,j⟩ ∈ memo') :
    SlotReserves i ⟨memory,slot.clients,slot.consoles.set k next⟩ memo' := by
  intro j console found holds
  rcases setFound here found with ⟨rfl,rfl⟩ | ⟨differ,old⟩
  · exact acting holds
  · obtain ⟨same,kept⟩ := others j console differ old holds
    obtain ⟨p,shell,mem⟩ := reserved j console old holds
    refine ⟨p,?_,kept p mem⟩
    simpa only [NewConsole.Thread.shell,same] using shell

theorem otherHoldsNone {s : SlotState} {k j : Nat} {thread console : NewConsole.Thread} (lock : SlotLock s)
    (here : s.consoles[k]? = some thread) (active : thread.pc.active = true) (differ : j ≠ k)
    (found : s.consoles[j]? = some console) : console.pc.holdsProcess ≠ true := by
  intro holds
  have idle := othersInactive lock here active differ found
  rw [owingActive (heldOwes holds)] at idle
  contradiction

theorem forkExclusive {table : ProcessTable} {memo : List Reservation} {i k pid : Nat}
    (exclusive : ∀ entry ∈ memo, 0 < entry.shell ∧ ∀ q, entry.covers q → ∀ p, table q = some p →
      p.owner = some entry.owner) (positive : 0 < pid) (nextFree : table (pid+1) = none)
    (apart : ∀ entry ∈ memo, ¬ entry.covers pid) : ∀ entry ∈ (⟨pid,i,k⟩ : Reservation)::memo, 0 < entry.shell ∧
      ∀ q, entry.covers q → ∀ p, Function.update table pid (some (shellProcess i k)) q = some p →
        p.owner = some entry.owner := by
  intro entry mem
  rcases List.mem_cons.mp mem with rfl | old
  · refine ⟨positive,fun q covered p found => ?_⟩
    rcases covered with rfl | rfl
    · simp only [Function.update_self,Option.some.injEq] at found
      rw [← found]
      rfl
    · have after : pid+1 ≠ pid := by omega
      simp only [Function.update_of_ne after,nextFree] at found
      contradiction
  · refine ⟨(exclusive entry old).1,fun q covered p found => ?_⟩
    have other : q ≠ pid := fun same => apart entry old (same ▸ covered)
    simp only [Function.update_of_ne other] at found
    exact (exclusive entry old).2 q covered p found

section
variable {s s' : Server ProcessTable} {memo : List Reservation} {i k : Nat} {thread next : NewConsole.Thread}
  {memory : Slot}

theorem ownedFork {pid : Nat} {command : Bytes} (owned : Owned (s,memo)) (locked : ∀ i, SlotLock (s'.slots i))
    (here : (s.slots i).consoles[k]? = some thread) (at_ : thread.pc = .fork command) (then_ : next.pc = .closeInput)
    (shell : memory.console.activePipeID = pid)
    (slots : s'.slots = Function.update s.slots i ⟨memory,(s.slots i).clients,(s.slots i).consoles.set k next⟩)
    (handled : processSystem.call s.system (.console i k) (.fork command) (.process pid) = some s'.system)
    (nextFree : s.system (pid+1) = none) (apart : ∀ entry ∈ memo, ¬ entry.covers pid) :
    Owned (s',⟨pid,i,k⟩::memo) := by
  have lock : SlotLock (s.slots i) := owned.locked i
  simp only [processSystem] at handled
  split at handled <;> try contradiction
  rename_i fresh
  refine ⟨locked,?_,?_⟩
  · rw [← Option.some.inj handled]
    exact forkExclusive owned.exclusive fresh.1 nextFree apart
  · rw [slots]
    refine reservedSlots (reservedSet (owned.reserved i) here ?_ ?_) fun j _ => ?_
    · intro _
      refine ⟨pid,?_,List.mem_cons_self⟩
      simp [NewConsole.Thread.shell,NewConsole.Pc.entering,then_,shell]
    · intro u console differ found holds
      exact (otherHoldsNone lock here (by rw [at_]; rfl) differ found holds).elim
    · exact reservedFrame (owned.reserved j) (fun _ _ found _ => found) rfl fun _ => List.mem_cons_of_mem _

theorem ownedKillNext {pid : Int} {r : Result} (owned : Owned (s,memo)) (locked : ∀ i, SlotLock (s'.slots i))
    (here : (s.slots i).consoles[k]? = some thread) (at_ : thread.pc = .killNext)
    (freed : next.pc.holdsProcess = false)
    (slots : s'.slots = Function.update s.slots i ⟨memory,(s.slots i).clients,(s.slots i).consoles.set k next⟩)
    (handled : processSystem.call s.system (.console i k) (.kill pid) r = some s'.system) :
    Owned (s',memo.filter (·.owner ≠ (i,k))) := by
  have lock : SlotLock (s.slots i) := owned.locked i
  refine ⟨locked,exclusiveKept (callKept (by simp) handled) ?_,?_⟩
  · exact fun entry mem => owned.exclusive entry (List.mem_of_mem_filter mem)
  · rw [slots]
    refine reservedSlots (reservedSet (owned.reserved i) here (fun holds => ?_) ?_) fun j acting => ?_
    · rw [freed] at holds
      contradiction
    · intro u console differ found holds
      exact (otherHoldsNone lock here (by rw [at_]; rfl) differ found holds).elim
    · intro u console found holds
      obtain ⟨p,shell,mem⟩ := owned.reserved j u console found holds
      exact ⟨p,shell,List.mem_filter.mpr ⟨mem,by simp [acting]⟩⟩

theorem ownedHeld {call : Call} {r : Result} (owned : Owned (s,memo)) (locked : ∀ i, SlotLock (s'.slots i))
    (here : (s.slots i).consoles[k]? = some thread)
    (same : memory.console.activePipeID = (s.slots i).slot.console.activePipeID)
    (holds : next.pc.holdsProcess = true → thread.pc.holdsProcess = true)
    (shell : next.pc.holdsProcess = true → next.shell memory = thread.shell (s.slots i).slot)
    (slots : s'.slots = Function.update s.slots i ⟨memory,(s.slots i).clients,(s.slots i).consoles.set k next⟩)
    (noFork : ∀ command, call ≠ .fork command)
    (handled : processSystem.call s.system (.console i k) call r = some s'.system) : Owned (s',memo) := by
  refine ⟨locked,exclusiveKept (callKept noFork handled) owned.exclusive,?_⟩
  rw [slots]
  refine reservedSlots ?_ fun j _ => owned.reserved j
  refine reservedSet (owned.reserved i) here (fun held => ?_) fun _ _ _ _ _ => ⟨same,fun _ => id⟩
  obtain ⟨p,before,mem⟩ := owned.reserved i k thread here (holds held)
  exact ⟨p,(shell held).trans before,mem⟩

end

theorem noteUnreserved {s after : Server ProcessTable} {memo : List Reservation} {i k : Nat} {r : Result}
    {call : Call} (noFork : ∀ command, call ≠ .fork command) (noKill : ∀ pid, call ≠ .kill pid) :
    noteReserved memo s (.console i k r) call after = memo := by
  cases call with
  | fork command => exact (noFork command rfl).elim
  | kill pid => exact (noKill pid rfl).elim
  | _ => cases r <;> rfl

theorem ownedConsole {host maxClients} {s s' : Server ProcessTable} {memo i k r call}
    (owned : Owned (s,memo)) (ok : Reserves (s,memo) (.console i k r)) (locked : ∀ i, SlotLock (s'.slots i))
    (h : ServerStep host maxClients processSystem s (.console i k r) call s') :
    Owned (s',noteReserved memo s (.console i k r) call s') := by
  cases h with
  | @console _ _ _ _ slot system step handled =>
    cases step with
    | @console _ _ thread _ next memory here step =>
      rcases consoleProcess step with ⟨command,at_,then_,rfl,result⟩ | ⟨at_,freed,rfl,rfl⟩ | ⟨at_,then_,rfl,rfl,same⟩ |
          ⟨sameHolds,sameShell,same,notSecond,noFork,noKill⟩
      · have allowed := ok (by simp [SlotState.forking,here,at_])
        rcases result with ⟨pid,rfl,shell⟩ | rfl
        · exact ownedFork owned locked here at_ then_ shell rfl handled allowed.1 allowed.2
        · exact allowed.elim
      · have second : (s.slots i).secondKill k = true := by simp [SlotState.secondKill,here,at_]
        simp only [noteReserved,second,if_true]
        exact ownedKillNext owned locked here at_ freed rfl handled
      · have first : (s.slots i).secondKill k = false := by simp [SlotState.secondKill,here,at_]
        simp only [noteReserved,first,Bool.false_eq_true,if_false]
        refine ownedHeld owned locked here rfl (fun _ => by rw [at_]; rfl) (fun _ => ?_) rfl (by simp) handled
        simp [NewConsole.Thread.shell,NewConsole.Pc.entering,at_,then_,same]
      · rw [noteUnreserved noFork noKill]
        exact ownedHeld owned locked here same (fun held => sameHolds ▸ held)
          (fun held => sameShell (sameHolds ▸ held)) rfl noFork handled

theorem ownedKills {host maxClients} {s s' : Server ProcessTable} {memo l call} (owned : Owned (s,memo))
    (h : ServerStep host maxClients processSystem s l call s') : KillsOwn s l call := by
  refine ⟨?_⟩
  intro i k r pid on kills q p found reached
  subst on
  cases h with
  | console step handled =>
    cases step with
    | @console _ _ thread _ next memory here step =>
      have own (holds : thread.pc.holdsProcess = true) (out : thread.pc.entering = false) : ∃ shell : Nat,
          thread.pipeProcessID = shell ∧ 0 < shell ∧
          ∀ q, Reservation.covers ⟨shell,i,k⟩ q → ∀ p, s.system q = some p → p.owner = some (i,k) := by
        obtain ⟨shell,same,mem⟩ := owned.reserved i k thread here holds
        simp only [NewConsole.Thread.shell,out] at same
        exact ⟨shell,same,owned.exclusive _ mem⟩
      subst kills
      rcases consoleProcess step with ⟨command,_,_,fork,_⟩ | ⟨at_,_,kill,_⟩ | ⟨at_,_,kill,_,_⟩ | ⟨_,_,_,_,_,noKill⟩
      · exact Call.noConfusion fork
      · obtain ⟨shell,same,positive,mine⟩ := own (by rw [at_]; rfl) (by rw [at_]; rfl)
        cases kill
        refine mine q ?_ p found
        simp only [signalled,same] at reached
        split at reached
        · have next : q = shell+1 := by
            have target := of_decide_eq_true reached
            omega
          exact .inr next
        · omega
      · obtain ⟨shell,same,positive,mine⟩ := own (by rw [at_]; rfl) (by rw [at_]; rfl)
        cases kill
        refine mine q ?_ p found
        simp only [signalled,same] at reached
        split at reached
        · have shellItself : q = shell := by
            have target := of_decide_eq_true reached
            omega
          exact .inl shellItself
        · omega
      · exact (noKill pid rfl).elim

theorem ownedStep {host maxClients} {s s' : Server ProcessTable × List Reservation} {l call} (owned : Owned s)
    (ok : Reserves s l) (h : (watch (serverMachine host maxClients processSystem) noteReserved).act s l = some (call,s')) :
    Owned s' ∧ KillsOwn s.1 l call := by
  obtain ⟨act,noted⟩ := watchAct h
  have step := serverStep act
  obtain ⟨s,memo⟩ := s
  obtain ⟨next,memo'⟩ := s'
  obtain rfl : memo' = noteReserved memo s l call next := noted
  have alone : StartsAlone s l := by
    cases l with
    | start => exact ok
    | _ => trivial
  have locked := serverLock owned.locked alone step
  refine ⟨?_,ownedKills owned step⟩
  cases l with
  | listen r => exact ownedListen owned locked step
  | start => exact ownedStart owned locked step
  | client i t r => exact ownedClient owned locked step
  | console i k r => exact ownedConsole owned ok locked step
  | system e =>
    cases step with
    | system happened => exact ownedEvent owned ok happened

theorem killsOwnProcesses {host maxClients} {s : Server ProcessTable} {t u : Server ProcessTable × List Reservation}
    {l call} (unstarted : Unstarted s)
    (run : Reaches (watch (serverMachine host maxClients processSystem) noteReserved) Reserves (s,[]) t)
    (ok : Reserves t l) (act : (watch (serverMachine host maxClients processSystem) noteReserved).act t l =
      some (call,u)) : KillsOwn t.1 l call := by
  have start : Owned (s,[]) := by
    refine ⟨fun i => noThreadsLock (unstarted.threads i),by simp,fun i k console found => ?_⟩
    rw [(unstarted.threads i).consoles] at found
    simp at found
  have now := invariantOfStep (fun owned ok act => (ownedStep owned ok act).1) run start
  exact (ownedStep now ok act).2

def twoCommands (first second : Nat) : List (ServerLabel ProcessEvent) :=
  [.listen .done] ++ accepts 4 ++ [.start] ++ accepts 5 ++ [.start] ++
  ([SlotLabel.client 0 (.path (ascii "/"))] ++ launches 0 0 "Mcat" ++ consoleStarts 0 first).map (SlotLabel.onServer 0) ++
  ([SlotLabel.client 0 (.path (ascii "/"))] ++ launches 0 0 "Mcat" ++ consoleStarts 0 second).map (SlotLabel.onServer 1)

def noProcesses : Server ProcessTable := booted fun _ => none

theorem farShellsSpared : ∃ t u,
    run (watch (serverMachine plainHost 19 processSystem) noteReserved) Reserves (noProcesses,[])
      (twoCommands 100 200 ++ [.console 0 0 .endOfFile]) = some t ∧
    (watch (serverMachine plainHost 19 processSystem) noteReserved).act t (.console 0 0 .done) = some (.kill 100,u) ∧
    KillsOwn t.1 (.console 0 0 .done) (.kill 100) := by
  have ends : ((run (watch (serverMachine plainHost 19 processSystem) noteReserved) Reserves (noProcesses,[])
      (twoCommands 100 200 ++ [.console 0 0 .endOfFile])).bind fun t =>
        if Reserves t (.console 0 0 .done) then
          ((watch (serverMachine plainHost 19 processSystem) noteReserved).act t (.console 0 0 .done)).map Prod.fst
        else none) = some (.kill 100) := by decide +kernel
  obtain ⟨t,ran,last⟩ := Option.bind_eq_some_iff.mp ends
  have ok : Reserves t (.console 0 0 .done) := by
    by_contra no
    rw [if_neg no] at last
    nomatch last
  rw [if_pos ok] at last
  obtain ⟨⟨call,u⟩,act,rfl⟩ := Option.map_eq_some_iff.mp last
  exact ⟨t,u,ran,act,killsOwnProcesses (bootedUnstarted _) (runReaches ran) ok act⟩

theorem neighbourShellKilled : ∃ t u,
    Reaches (watch (serverMachine plainHost 19 processSystem) noteReserved) free (noProcesses,[]) t ∧
    (watch (serverMachine plainHost 19 processSystem) noteReserved).act t (.console 0 0 .done) = some (.kill 101,u) ∧
    t.1.system 101 = some (shellProcess 1 0) ∧ ¬ KillsOwn t.1 (.console 0 0 .done) (.kill 101) := by
  have ends : ((run (watch (serverMachine plainHost 19 processSystem) noteReserved) free (noProcesses,[])
      (twoCommands 100 101 ++ [.console 0 0 .endOfFile,.console 0 0 .done])).bind fun t =>
        ((watch (serverMachine plainHost 19 processSystem) noteReserved).act t (.console 0 0 .done)).map fun r =>
          (r.1,t.1.system 101)) = some (.kill 101,some (shellProcess 1 0)) := by decide +kernel
  obtain ⟨t,ran,last⟩ := Option.bind_eq_some_iff.mp ends
  obtain ⟨⟨call,u⟩,act,same⟩ := Option.map_eq_some_iff.mp last
  simp only [Prod.mk.injEq] at same
  obtain ⟨rfl,neighbour⟩ := same
  refine ⟨t,u,runReaches ran,act,neighbour,fun kills => ?_⟩
  have mine := kills.own 0 0 .done 101 rfl rfl 101 _ neighbour (by decide)
  exact absurd mine (by decide)

end RemoteTerminal
