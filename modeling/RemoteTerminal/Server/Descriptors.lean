import RemoteTerminal.Server.Machine

/-! The descriptor table of the server process. `accept`, `pipe` and `fopen` take the
lowest free number; `close` frees whatever the number names at that time. Every resource
carries the slot, and the console thread, it was opened for. -/
namespace RemoteTerminal
open ByteStrings LabelledRuns EntryTable

inductive Resource where
  | other
  | connection (i : Nat)
  | pipeEnd (i k : Nat)
  | file (i k : Nat)
  deriving DecidableEq, Repr

abbrev DescriptorTable := Nat → Option Resource

def LowestFree (table : DescriptorTable) (n : Nat) : Prop := table n = none ∧ ∀ m < n, table m ≠ none
instance (table : DescriptorTable) (n : Nat) : Decidable (LowestFree table n) := by
  unfold LowestFree; infer_instance

def DescriptorTable.opened (table : DescriptorTable) (n : Nat) (what : Resource) : DescriptorTable :=
  Function.update table n (some what)

def DescriptorTable.closed (table : DescriptorTable) (d : Int) : DescriptorTable :=
  fun n => if (n : Int) = d then none else table n

def DescriptorTable.connected (table : DescriptorTable) (d : Int) : Bool :=
  0 ≤ d && match table d.toNat with
    | some (.connection _) => true
    | _ => false

/- `shutdown` succeeds only on a connected socket. -/
def descriptorSystem : OperatingSystem DescriptorTable Empty where
  call table
    | .listener i,.accept,.descriptor n =>
      if LowestFree table n then some (table.opened n (.connection i)) else none
    | .client i k,.pipe,.descriptors r w =>
      if LowestFree table r ∧ LowestFree (table.opened r (.pipeEnd i k)) w then
        some ((table.opened r (.pipeEnd i k)).opened w (.pipeEnd i k)) else none
    | .console i k,.fopen _,.descriptor n =>
      if LowestFree table n then some (table.opened n (.file i k)) else none
    | _,.close d,_ | _,.fclose d,_ => some (table.closed d)
    | _,.shutdown d,.done => if table.connected d then some table else none
    | _,_,_ => some table
  event _ e := nomatch e

/- One thread after the other serves a slot, and no console thread executes the first of
the four `close` calls that follow `HandleClientPipe`. -/
def SparesClosed (s : Server DescriptorTable) : ServerLabel Empty → Prop
  | .start => StartsAlone s (.start : ServerLabel Empty)
  | .console i k _ => ∀ console ∈ (s.slots i).consoles[k]?, console.pc ≠ .closeAgain 0
  | _ => True
instance (s : Server DescriptorTable) : (l : ServerLabel Empty) → Decidable (SparesClosed s l)
  | .start | .console _ _ _ => by dsimp only [SparesClosed]; infer_instance
  | .listen _ | .client _ _ _ | .system _ => isTrue trivial

structure ClosesOwn (s : Server DescriptorTable) (l : ServerLabel Empty) (call : Call) : Prop where
  own : ∀ i k r d, l = .console i k r → call = .close d → ∃ n : Nat, d = n ∧ s.system n = some (.pipeEnd i k)

def NewConsole.Pc.unclosed : NewConsole.Pc → Bool
  | .prompt | .returnDirectory | .assemble | .fork _ | .closeInput => true
  | _ => false

def NewClient.Pc.hasOutput : NewClient.Pc → Bool
  | .openInput | .activate | .create => true
  | _ => false

def NewClient.Pc.hasInput : NewClient.Pc → Bool
  | .activate | .create => true
  | _ => false

structure SlotOwns (i : Nat) (s : SlotState) (table : DescriptorTable) : Prop where
  lock : SlotLock s
  socket : 0 < s.slot.client → (∃ n : Nat, s.slot.client = n ∧ table n = some (.connection i)) ∨
    ∃ c ∈ s.clients, c.pc = .freeSlot
  closing : ∀ c ∈ s.clients, c.pc = .closeSocket → ∃ n : Nat, s.slot.client = n ∧ table n = some (.connection i)
  output : ∀ c ∈ s.clients, c.pc.hasOutput = true →
    table s.slot.console.pipeChildToParent.2 = some (.pipeEnd i s.consoles.length)
  input : ∀ c ∈ s.clients, c.pc.hasInput = true →
    table s.slot.console.pipeParentToChild.1 = some (.pipeEnd i s.consoles.length) ∧
      s.slot.console.pipeParentToChild.1 ≠ s.slot.console.pipeChildToParent.2
  unclosed : ∀ (k : Nat) (console : NewConsole.Thread), s.consoles[k]? = some console → console.pc.unclosed = true →
    table s.slot.console.pipeParentToChild.1 = some (.pipeEnd i k) ∧
      table s.slot.console.pipeChildToParent.2 = some (.pipeEnd i k) ∧
      s.slot.console.pipeParentToChild.1 ≠ s.slot.console.pipeChildToParent.2
  half : ∀ (k : Nat) (console : NewConsole.Thread), s.consoles[k]? = some console → console.pc = .closeOutput →
    table s.slot.console.pipeChildToParent.2 = some (.pipeEnd i k)
  probing : ∀ (k : Nat) (console : NewConsole.Thread) (n : Nat), s.consoles[k]? = some console →
    console.pc = .probed n → table n = some (.file i k)
  final : ∀ console ∈ s.consoles, ∀ n, console.pc = .closeAgain n → n = 0

theorem clientDescriptors {host t s r call t' s'} (h : NewClient.Steps host t s r call t' s') :
    (∃ a b, t.pc = .openOutput ∧ t'.pc = .openInput ∧ call = .pipe ∧ r = .descriptors a b ∧
      s' = {s with console.pipeChildToParent := (a,b)}) ∨
    (∃ a b, t.pc = .openInput ∧ t'.pc = .activate ∧ call = .pipe ∧ r = .descriptors a b ∧
      s' = {s with console.pipeParentToChild := (a,b)}) ∨
    (t.pc = .leave ∧ t'.pc = .closeSocket ∧ call = .shutdown s.client ∧ r = .done ∧ s' = s) ∨
    (t.pc = .closeSocket ∧ t'.pc = .freeSlot ∧ call = .close s.client ∧ s' = s) ∨
    (t.pc = .freeSlot ∧ t'.pc = .exit ∧ call = .memory ∧ s' = {s with client := 0}) ∨
    (t.pc ≠ .freeSlot ∧ t'.pc ≠ .closeSocket ∧ (t'.pc.hasOutput = true → t.pc.hasOutput = true) ∧
      (t'.pc.hasInput = true → t.pc.hasInput = true) ∧ s'.client = s.client ∧
      s'.console.pipeChildToParent = s.console.pipeChildToParent ∧
      s'.console.pipeParentToChild = s.console.pipeParentToChild ∧
      (∀ d, call ≠ .close d) ∧ ∀ d, call ≠ .fclose d) := by
  cases h <;> simp_all [NewClient.Pc.hasOutput,NewClient.Pc.hasInput]

theorem consoleDescriptors {t s r call t' s'} (h : NewConsole.Steps t s r call t' s') :
    (t.pc = .closeInput ∧ t'.pc = .closeOutput ∧ call = .close s.console.pipeParentToChild.1 ∧ s' = s) ∨
    (t.pc = .closeOutput ∧ t'.pc = .enter ∧ call = .close s.console.pipeChildToParent.2 ∧ s' = s) ∨
    (∃ n pid, t.pc = .probe ∧ t'.pc = .probed n ∧ call = .fopen pid ∧ r = .descriptor n ∧ s' = s) ∨
    (∃ n : Nat, t.pc = .probed n ∧ t'.pc = .testExit ∧ call = .fclose n ∧ s' = s) ∨
    (∃ n, t.pc = .closeAgain n) ∨
    ((t'.pc.unclosed = true → t.pc.unclosed = true) ∧ t'.pc ≠ .closeOutput ∧ (∀ n, t'.pc ≠ .probed n) ∧
      (∀ n, t'.pc = .closeAgain n → n = 0) ∧ s'.client = s.client ∧
      s'.console.pipeChildToParent = s.console.pipeChildToParent ∧
      s'.console.pipeParentToChild = s.console.pipeParentToChild ∧
      (∀ d, call ≠ .close d) ∧ ∀ d, call ≠ .fclose d) := by
  cases h <;> simp_all [NewConsole.Pc.unclosed]

def Resource.slot : Resource → Option Nat
  | .other => none
  | .connection i | .pipeEnd i _ | .file i _ => some i

def KeepsSlot (i : Nat) (table table' : DescriptorTable) : Prop :=
  ∀ n what, what.slot = some i → table n = some what → table' n = some what

def Extends (table table' : DescriptorTable) : Prop := ∀ n what, table n = some what → table' n = some what

theorem openedExtends {table : DescriptorTable} {n : Nat} {what : Resource} (fresh : LowestFree table n) :
    Extends table (table.opened n what) := by
  intro m there found
  have differ : m ≠ n := fun same => by rw [same,fresh.1] at found; contradiction
  rw [DescriptorTable.opened,Function.update_of_ne differ]
  exact found

theorem callExtends {table table' actor call r} (h : descriptorSystem.call table actor call r = some table')
    (noClose : ∀ d, call ≠ .close d) (noFclose : ∀ d, call ≠ .fclose d) : Extends table table' := by
  have same : Extends table table := fun _ _ => id
  simp only [descriptorSystem] at h
  split at h
  · split at h <;> try contradiction
    rename_i fresh
    cases Option.some.inj h
    exact openedExtends fresh
  · split at h <;> try contradiction
    rename_i fresh
    cases Option.some.inj h
    exact fun n what found => openedExtends fresh.2 n what (openedExtends fresh.1 n what found)
  · split at h <;> try contradiction
    rename_i fresh
    cases Option.some.inj h
    exact openedExtends fresh
  · exact (noClose _ rfl).elim
  · exact (noFclose _ rfl).elim
  · split at h <;> try contradiction
    cases Option.some.inj h
    exact same
  · cases Option.some.inj h
    exact same

theorem closedKeeps {table : DescriptorTable} {n : Nat} {d : Int} {what : Resource} (found : table n = some what)
    (differ : (n : Int) ≠ d) : table.closed d n = some what := by
  simp [DescriptorTable.closed,differ,found]

theorem closedElsewhere {table : DescriptorTable} {n i : Nat} {gone : Resource} (here : table n = some gone)
    (elsewhere : gone.slot ≠ some i) : KeepsSlot i table (table.closed n) := by
  intro m what mine found
  refine closedKeeps found fun same => elsewhere ?_
  have same : m = n := by omega
  rw [same,here] at found
  cases found
  exact mine

theorem ownsFrame {i s table table'} (owns : SlotOwns i s table) (kept : KeepsSlot i table table') :
    SlotOwns i s table' := by
  obtain ⟨lock,socket,closing,output,input,unclosed,half,probing,final⟩ := owns
  refine ⟨lock,?_,?_,?_,?_,?_,?_,?_,final⟩
  · intro taken
    rcases socket taken with ⟨n,same,found⟩ | freeing
    · exact .inl ⟨n,same,kept _ _ rfl found⟩
    · exact .inr freeing
  · intro c mem at_
    obtain ⟨n,same,found⟩ := closing c mem at_
    exact ⟨n,same,kept _ _ rfl found⟩
  · exact fun c mem has => kept _ _ rfl (output c mem has)
  · exact fun c mem has => ⟨kept _ _ rfl (input c mem has).1,(input c mem has).2⟩
  · intro k console found at_
    obtain ⟨first,second,differ⟩ := unclosed k console found at_
    exact ⟨kept _ _ rfl first,kept _ _ rfl second,differ⟩
  · exact fun k console found at_ => kept _ _ rfl (half k console found at_)
  · exact fun k console n found at_ => kept _ _ rfl (probing k console n found at_)

theorem extendsKeeps {table table' : DescriptorTable} (grows : Extends table table') (i : Nat) :
    KeepsSlot i table table' := fun n what _ found => grows n what found

theorem unclosedActive {pc : NewConsole.Pc} (open_ : pc.unclosed = true) : pc.active = true := by
  cases pc <;> simp_all [NewConsole.Pc.unclosed,NewConsole.Pc.active]

theorem ownsNext {i s t} {thread next : NewClient.Thread} {slot : Slot} {table table' : DescriptorTable}
    (owns : SlotOwns i s table) (here : s.clients[t]? = some thread) (live : thread.pc ≠ .done)
    (lock : SlotLock ⟨slot,s.clients.set t next,s.consoles⟩)
    (kept : ∀ n what, (∀ j, what ≠ .connection j) → table n = some what → table' n = some what)
    (socket : 0 < slot.client → (∃ n : Nat, slot.client = n ∧ table' n = some (.connection i)) ∨ next.pc = .freeSlot)
    (closing : next.pc = .closeSocket → ∃ n : Nat, slot.client = n ∧ table' n = some (.connection i))
    (output : next.pc.hasOutput = true →
      table' slot.console.pipeChildToParent.2 = some (.pipeEnd i s.consoles.length))
    (input : next.pc.hasInput = true →
      table' slot.console.pipeParentToChild.1 = some (.pipeEnd i s.consoles.length) ∧
        slot.console.pipeParentToChild.1 ≠ slot.console.pipeChildToParent.2)
    (pipes : (slot.console.pipeParentToChild = s.slot.console.pipeParentToChild ∧
      slot.console.pipeChildToParent = s.slot.console.pipeChildToParent) ∨ thread.pc.preparing = true) :
    SlotOwns i ⟨slot,s.clients.set t next,s.consoles⟩ table' := by
  have sole (c : NewClient.Thread) (mem : c ∈ s.clients.set t next) (working : c.pc ≠ .done) : c = next :=
    onlyLiveNext owns.lock here live mem working
  have idle (preparing : thread.pc.preparing = true) (k : Nat) (console : NewConsole.Thread)
      (found : s.consoles[k]? = some console) : console.pc.active ≠ true := by
    rw [owns.lock.alone t thread k console here preparing found]
    simp
  refine ⟨lock,?_,?_,?_,?_,?_,?_,?_,owns.final⟩
  · intro taken
    rcases socket taken with named | freeing
    · exact .inl named
    · exact .inr ⟨next,(memSet here).mpr (.inl rfl),freeing⟩
  · intro c mem at_
    obtain rfl := sole c mem (by simp [at_])
    exact closing at_
  · intro c mem has
    obtain rfl := sole c mem (fun stopped => by simp [stopped,NewClient.Pc.hasOutput] at has)
    exact output has
  · intro c mem has
    obtain rfl := sole c mem (fun stopped => by simp [stopped,NewClient.Pc.hasInput] at has)
    exact input has
  · intro k console found at_
    rcases pipes with ⟨sameInput,sameOutput⟩ | preparing
    · obtain ⟨first,second,differ⟩ := owns.unclosed k console found at_
      simp only [sameInput,sameOutput]
      exact ⟨kept _ _ (by simp) first,kept _ _ (by simp) second,differ⟩
    · exact (idle preparing k console found (unclosedActive at_)).elim
  · intro k console found at_
    rcases pipes with ⟨_,sameOutput⟩ | preparing
    · simp only [sameOutput]
      exact kept _ _ (by simp) (owns.half k console found at_)
    · exact (idle preparing k console found (by rw [at_]; rfl)).elim
  · exact fun k console n found at_ => kept _ _ (by simp) (owns.probing k console n found at_)

def SparesOthers (i : Nat) (table table' : DescriptorTable) : Prop :=
  (∀ j, j ≠ i → KeepsSlot j table table') ∧ (table 0 = some .other → table' 0 = some .other)

theorem extendsSpares {table table' : DescriptorTable} (grows : Extends table table') (i : Nat) :
    SparesOthers i table table' := ⟨fun j _ => extendsKeeps grows j,grows 0 _⟩

theorem closedSpares {table : DescriptorTable} {n i : Nat} {gone : Resource} (here : table n = some gone)
    (mine : gone.slot = some i) : SparesOthers i table (table.closed n) := by
  refine ⟨fun j other => closedElsewhere here (by rw [mine]; simpa using Ne.symm other),fun zero => ?_⟩
  refine closedKeeps zero fun same => ?_
  have same : n = 0 := by omega
  rw [same,zero] at here
  cases here
  contradiction

theorem socketNamed {i t : Nat} {s : SlotState} {thread : NewClient.Thread} {table : DescriptorTable}
    (owns : SlotOwns i s table) (here : s.clients[t]? = some thread) (live : thread.pc ≠ .done)
    (off : thread.pc ≠ .freeSlot) (taken : 0 < s.slot.client) :
    ∃ n : Nat, s.slot.client = n ∧ table n = some (.connection i) := by
  refine (owns.socket taken).resolve_right ?_
  intro ⟨c,found,at_⟩
  obtain rfl := onlyLive owns.lock here live found (by simp [at_])
  exact off at_

theorem ownsGrown {i t : Nat} {s : SlotState} {thread next : NewClient.Thread} {slot : Slot}
    {table table' : DescriptorTable} (owns : SlotOwns i s table) (here : s.clients[t]? = some thread)
    (live : thread.pc ≠ .done) (lock : SlotLock ⟨slot,s.clients.set t next,s.consoles⟩) (grows : Extends table table')
    (off : thread.pc ≠ .freeSlot) (noClose : next.pc ≠ .closeSocket) (client : slot.client = s.slot.client)
    (output : next.pc.hasOutput = true →
      table' slot.console.pipeChildToParent.2 = some (.pipeEnd i s.consoles.length))
    (input : next.pc.hasInput = true →
      table' slot.console.pipeParentToChild.1 = some (.pipeEnd i s.consoles.length) ∧
        slot.console.pipeParentToChild.1 ≠ slot.console.pipeChildToParent.2)
    (pipes : (slot.console.pipeParentToChild = s.slot.console.pipeParentToChild ∧
      slot.console.pipeChildToParent = s.slot.console.pipeChildToParent) ∨ thread.pc.preparing = true) :
    SlotOwns i ⟨slot,s.clients.set t next,s.consoles⟩ table' ∧ SparesOthers i table table' := by
  refine ⟨ownsNext owns here live lock (fun n what _ => grows n what) ?_ (fun at_ => (noClose at_).elim) output input
    pipes,extendsSpares grows i⟩
  intro taken
  rw [client] at taken ⊢
  obtain ⟨n,same,found⟩ := socketNamed owns here live off taken
  exact .inl ⟨n,same,grows _ _ found⟩

theorem connectedTaken {table : DescriptorTable} {d : Int} (zero : table 0 = some .other)
    (connected : table.connected d = true) : 0 < d := by
  simp only [DescriptorTable.connected,Bool.and_eq_true,decide_eq_true_eq] at connected
  rcases Int.lt_or_eq_of_le connected.1 with positive | none
  · exact positive
  · rw [← none] at connected
    simp [zero] at connected

theorem ownsMoved {host} {i t : Nat} {s : SlotState} {thread next : NewClient.Thread} {r call} {slot : Slot}
    {table table' : DescriptorTable} (owns : SlotOwns i s table) (zero : table 0 = some .other)
    (here : s.clients[t]? = some thread) (step : NewClient.Steps host thread s.slot r call next slot)
    (handled : descriptorSystem.call table (.client i s.consoles.length) call r = some table')
    (lock : SlotLock ⟨slot,s.clients.set t next,s.consoles⟩) :
    SlotOwns i ⟨slot,s.clients.set t next,s.consoles⟩ table' ∧ SparesOthers i table table' := by
  have live := clientNotDone step
  have mem : thread ∈ s.clients := List.mem_of_getElem? here
  rcases clientDescriptors step with ⟨a,b,at_,then_,rfl,rfl,rfl⟩ | ⟨a,b,at_,then_,rfl,rfl,rfl⟩ |
      ⟨at_,then_,rfl,rfl,rfl⟩ | ⟨at_,then_,rfl,rfl⟩ | ⟨at_,then_,rfl,rfl⟩ |
      ⟨off,noClose,hasOutput,hasInput,client,output,input,noClosing,noFclose⟩
  · have grows := callExtends handled (by simp) (by simp)
    simp only [descriptorSystem] at handled
    split at handled <;> try contradiction
    cases Option.some.inj handled
    refine ownsGrown owns here live lock grows (by simp [at_]) (by simp [then_]) rfl ?_ ?_ (.inr (by rw [at_]; rfl))
    · simp [DescriptorTable.opened]
    · simp [then_,NewClient.Pc.hasInput]
  · have grows := callExtends handled (by simp) (by simp)
    have second := owns.output thread mem (by rw [at_]; rfl)
    simp only [descriptorSystem] at handled
    split at handled <;> try contradiction
    rename_i fresh
    cases Option.some.inj handled
    refine ownsGrown owns here live lock grows (by simp [at_]) (by simp [then_]) rfl ?_ ?_ (.inr (by rw [at_]; rfl))
    · exact fun _ => grows _ _ second
    · intro _
      refine ⟨openedExtends fresh.2 _ _ (by simp [DescriptorTable.opened]),fun same => ?_⟩
      simp only at same
      rw [← same,fresh.1.1] at second
      contradiction
  · simp only [descriptorSystem] at handled
    split at handled <;> try contradiction
    rename_i connected
    cases Option.some.inj handled
    have socket := socketNamed owns here live (by simp [at_]) (connectedTaken zero connected)
    refine ⟨ownsNext owns here live lock (fun _ _ _ => id) (fun _ => .inl socket) (fun _ => socket) ?_ ?_
      (.inl ⟨rfl,rfl⟩),extendsSpares (fun _ _ => id) i⟩
    · simp [then_,NewClient.Pc.hasOutput]
    · simp [then_,NewClient.Pc.hasInput]
  · obtain ⟨n,same,found⟩ := owns.closing thread mem at_
    have closed : table' = table.closed n := by
      rw [same] at handled
      exact (Option.some.inj handled).symm
    subst closed
    refine ⟨ownsNext owns here live lock ?_ (fun _ => .inr then_) (by simp [then_]) ?_ ?_ (.inl ⟨rfl,rfl⟩),
      closedSpares found rfl⟩
    · intro m what noSocket there
      refine closedKeeps there fun equal => ?_
      have equal : m = n := by omega
      rw [equal,found] at there
      exact noSocket i (Option.some.inj there).symm
    · simp [then_,NewClient.Pc.hasOutput]
    · simp [then_,NewClient.Pc.hasInput]
  · have grows := callExtends handled (by simp) (by simp)
    refine ⟨ownsNext owns here live lock (fun n what _ => grows n what) (fun taken => (Int.lt_irrefl 0 taken).elim)
      (by simp [then_]) ?_ ?_ (.inl ⟨rfl,rfl⟩),extendsSpares grows i⟩
    · simp [then_,NewClient.Pc.hasOutput]
    · simp [then_,NewClient.Pc.hasInput]
  · have grows := callExtends handled noClosing noFclose
    refine ownsGrown owns here live lock grows off noClose client ?_ ?_ (.inl ⟨input,output⟩)
    · intro has
      rw [output]
      exact grows _ _ (owns.output thread mem (hasOutput has))
    · intro has
      obtain ⟨first,differ⟩ := owns.input thread mem (hasInput has)
      rw [input,output]
      exact ⟨grows _ _ first,differ⟩

theorem ownsCreated {i t : Nat} {s : SlotState} {thread next : NewClient.Thread} {table table' : DescriptorTable}
    (owns : SlotOwns i s table) (here : s.clients[t]? = some thread) (at_ : thread.pc = .create)
    (then_ : next.pc = .receive) (grows : Extends table table')
    (lock : SlotLock ⟨s.slot,s.clients.set t next,s.consoles ++ [NewConsole.created thread.socketID]⟩) :
    SlotOwns i ⟨s.slot,s.clients.set t next,s.consoles ++ [NewConsole.created thread.socketID]⟩ table' ∧
      SparesOthers i table table' := by
  have mem : thread ∈ s.clients := List.mem_of_getElem? here
  have preparing : thread.pc.preparing = true := by rw [at_]; rfl
  have idle (k : Nat) (console : NewConsole.Thread) (found : s.consoles[k]? = some console) :
      console.pc.active ≠ true := by
    rw [owns.lock.alone t thread k console here preparing found]
    simp
  have second := owns.output thread mem (by rw [at_]; rfl)
  obtain ⟨first,differ⟩ := owns.input thread mem (by rw [at_]; rfl)
  have sole (c : NewClient.Thread) (found : c ∈ s.clients.set t next) (working : c.pc ≠ .done) :
      c.pc = .receive := by
    rw [onlyLiveNext owns.lock here (by simp [at_]) found working,then_]
  refine ⟨⟨lock,?_,?_,?_,?_,?_,?_,?_,?_⟩,extendsSpares grows i⟩
  · intro taken
    obtain ⟨n,same,found⟩ := socketNamed owns here (by simp [at_]) (by simp [at_]) taken
    exact .inl ⟨n,same,grows _ _ found⟩
  · intro c found closing
    rw [sole c found (by simp [closing])] at closing
    contradiction
  · intro c found has
    rw [sole c found (fun stopped => by simp [stopped,NewClient.Pc.hasOutput] at has)] at has
    contradiction
  · intro c found has
    rw [sole c found (fun stopped => by simp [stopped,NewClient.Pc.hasInput] at has)] at has
    contradiction
  · intro k console found open_
    rcases pushFound found with ⟨rfl,_⟩ | ⟨_,old⟩
    · exact ⟨grows _ _ first,grows _ _ second,differ⟩
    · exact (idle k console old (unclosedActive open_)).elim
  · intro k console found closing
    rcases pushFound found with ⟨_,rfl⟩ | ⟨_,old⟩
    · contradiction
    · exact (idle k console old (by rw [closing]; rfl)).elim
  · intro k console n found probed
    rcases pushFound found with ⟨_,rfl⟩ | ⟨_,old⟩
    · contradiction
    · exact (idle k console old (by rw [probed]; rfl)).elim
  · intro console found n again
    rcases List.mem_append.mp found with old | new
    · exact owns.final console old n again
    · rw [List.mem_singleton.mp new] at again
      contradiction

theorem ownsClient {host maxClients i t r call} {s s' : SlotState} {table table' : DescriptorTable}
    (owns : SlotOwns i s table) (zero : table 0 = some .other)
    (h : SlotStep host maxClients s (.client t r) call s')
    (handled : descriptorSystem.call table (.client i s.consoles.length) call r = some table') (lock : SlotLock s') :
    SlotOwns i s' table' ∧ SparesOthers i table table' := by
  cases h with
  | client here step noThread joined => exact ownsMoved owns zero here step handled lock
  | created here at_ => exact ownsCreated owns here at_ rfl (callExtends handled (by simp) (by simp)) lock

theorem outputPreparing {pc : NewClient.Pc} (has : pc.hasOutput = true) : pc.preparing = true := by
  cases pc <;> simp_all [NewClient.Pc.hasOutput,NewClient.Pc.preparing]

theorem inputOutput {pc : NewClient.Pc} (has : pc.hasInput = true) : pc.hasOutput = true := by
  cases pc <;> simp_all [NewClient.Pc.hasOutput,NewClient.Pc.hasInput]

theorem ownsConsoleNext {i k} {s : SlotState} {thread next : NewConsole.Thread} {slot : Slot}
    {table table' : DescriptorTable} (owns : SlotOwns i s table) (here : s.consoles[k]? = some thread)
    (lock : SlotLock ⟨slot,s.clients,s.consoles.set k next⟩)
    (sockets : ∀ n, table n = some (.connection i) → table' n = some (.connection i))
    (rest : thread.pc.active = true ∨ Extends table table') (client : slot.client = s.slot.client)
    (input : slot.console.pipeParentToChild = s.slot.console.pipeParentToChild)
    (output : slot.console.pipeChildToParent = s.slot.console.pipeChildToParent)
    (unclosed : next.pc.unclosed = true → table' s.slot.console.pipeParentToChild.1 = some (.pipeEnd i k) ∧
      table' s.slot.console.pipeChildToParent.2 = some (.pipeEnd i k) ∧
      s.slot.console.pipeParentToChild.1 ≠ s.slot.console.pipeChildToParent.2)
    (half : next.pc = .closeOutput → table' s.slot.console.pipeChildToParent.2 = some (.pipeEnd i k))
    (probing : ∀ n, next.pc = .probed n → table' n = some (.file i k))
    (final : ∀ n, next.pc = .closeAgain n → n = 0) :
    SlotOwns i ⟨slot,s.clients,s.consoles.set k next⟩ table' := by
  have idle (c : NewClient.Thread) (mem : c ∈ s.clients) (has : c.pc.hasOutput = true) : Extends table table' := by
    refine rest.resolve_left fun active => ?_
    obtain ⟨t,found⟩ := List.mem_iff_getElem?.mp mem
    rw [owns.lock.alone t c k thread found (outputPreparing has) here] at active
    contradiction
  have apart (j : Nat) (console : NewConsole.Thread) (differ : j ≠ k) (found : s.consoles[j]? = some console)
      (works : console.pc.active = true) : Extends table table' := by
    refine rest.resolve_left fun active => ?_
    rw [othersInactive owns.lock here active differ found] at works
    contradiction
  refine ⟨lock,?_,?_,?_,?_,?_,?_,?_,?_⟩
  · intro taken
    simp only [client] at taken ⊢
    rcases owns.socket taken with ⟨n,same,found⟩ | freeing
    · exact .inl ⟨n,same,sockets n found⟩
    · exact .inr freeing
  · intro c mem at_
    obtain ⟨n,same,found⟩ := owns.closing c mem at_
    exact ⟨n,client.trans same,sockets n found⟩
  · intro c mem has
    simp only [output,List.length_set]
    exact idle c mem has _ _ (owns.output c mem has)
  · intro c mem has
    simp only [input,output,List.length_set]
    exact ⟨idle c mem (inputOutput has) _ _ (owns.input c mem has).1,(owns.input c mem has).2⟩
  · intro j console found open_
    simp only [input,output]
    rcases setFound here found with ⟨rfl,rfl⟩ | ⟨differ,old⟩
    · exact unclosed open_
    · have grows := apart j console differ old (unclosedActive open_)
      obtain ⟨first,second,distinct⟩ := owns.unclosed j console old open_
      exact ⟨grows _ _ first,grows _ _ second,distinct⟩
  · intro j console found at_
    simp only [output]
    rcases setFound here found with ⟨rfl,rfl⟩ | ⟨differ,old⟩
    · exact half at_
    · exact apart j console differ old (by rw [at_]; rfl) _ _ (owns.half j console old at_)
  · intro j console n found at_
    rcases setFound here found with ⟨rfl,rfl⟩ | ⟨differ,old⟩
    · exact probing n at_
    · exact apart j console differ old (by rw [at_]; rfl) _ _ (owns.probing j console n old at_)
  · intro console found n at_
    rcases (memSet here).mp found with rfl | ⟨_,_,old⟩
    · exact final n at_
    · exact owns.final console (List.mem_of_getElem? old) n at_

theorem closedSockets {table : DescriptorTable} {i n : Nat} {gone : Resource} (here : table n = some gone)
    (noSocket : ∀ j, gone ≠ .connection j) (m : Nat) (found : table m = some (.connection i)) :
    table.closed n m = some (.connection i) := by
  refine closedKeeps found fun same => ?_
  have same : m = n := by omega
  rw [same,here] at found
  exact noSocket i (Option.some.inj found)

theorem ownsClosed {i k n : Nat} {s : SlotState} {thread next : NewConsole.Thread} {table : DescriptorTable}
    {gone : Resource} (owns : SlotOwns i s table) (here : s.consoles[k]? = some thread)
    (lock : SlotLock ⟨s.slot,s.clients,s.consoles.set k next⟩) (active : thread.pc.active = true)
    (own : table n = some gone) (noSocket : ∀ j, gone ≠ .connection j) (mine : gone.slot = some i)
    (unclosed : next.pc.unclosed = false) (probing : ∀ m, next.pc ≠ .probed m)
    (half : next.pc = .closeOutput → table.closed n s.slot.console.pipeChildToParent.2 = some (.pipeEnd i k))
    (final : ∀ m, next.pc = .closeAgain m → m = 0) :
    SlotOwns i ⟨s.slot,s.clients,s.consoles.set k next⟩ (table.closed n) ∧ SparesOthers i table (table.closed n) := by
  refine ⟨ownsConsoleNext owns here lock (closedSockets own noSocket) (.inl active) rfl rfl rfl ?_ half ?_ final,
    closedSpares own mine⟩
  · intro still
    rw [unclosed] at still
    contradiction
  · intro m at_
    exact (probing m at_).elim

theorem ownsConsole {host maxClients i k r call} {s s' : SlotState} {table table' : DescriptorTable}
    (owns : SlotOwns i s table) (ok : ∀ console ∈ s.consoles[k]?, console.pc ≠ .closeAgain 0)
    (h : SlotStep host maxClients s (.console k r) call s')
    (handled : descriptorSystem.call table (.console i k) call r = some table') (lock : SlotLock s') :
    (SlotOwns i s' table' ∧ SparesOthers i table table') ∧
      ∀ d, call = .close d → ∃ n : Nat, d = n ∧ table n = some (.pipeEnd i k) := by
  cases h with
  | @console _ _ thread _ next slot here step =>
    rcases consoleDescriptors step with ⟨at_,then_,rfl,rfl⟩ | ⟨at_,then_,rfl,rfl⟩ | ⟨n,pid,at_,then_,rfl,rfl,rfl⟩ |
        ⟨n,at_,then_,rfl,rfl⟩ | ⟨n,at_⟩ | ⟨unclosed,half,probed,final,client,output,input,noClose,noFclose⟩
    · obtain ⟨first,second,differ⟩ := owns.unclosed k thread here (by rw [at_]; rfl)
      obtain rfl := Option.some.inj handled
      refine ⟨ownsClosed owns here lock (by rw [at_]; rfl) first (by simp) rfl (by rw [then_]; rfl) (by simp [then_])
        (fun _ => closedKeeps second (by omega)) (by simp [then_]),?_⟩
      intro d same
      cases same
      exact ⟨_,rfl,first⟩
    · have second := owns.half k thread here at_
      obtain rfl := Option.some.inj handled
      refine ⟨ownsClosed owns here lock (by rw [at_]; rfl) second (by simp) rfl (by rw [then_]; rfl) (by simp [then_])
        (by simp [then_]) (by simp [then_]),?_⟩
      intro d same
      cases same
      exact ⟨_,rfl,second⟩
    · have grows := callExtends handled (by simp) (by simp)
      simp only [descriptorSystem] at handled
      split at handled <;> try contradiction
      cases Option.some.inj handled
      refine ⟨⟨ownsConsoleNext owns here lock (fun _ => grows _ _) (.inr grows) rfl rfl rfl ?_ ?_ ?_ ?_,
        extendsSpares grows i⟩,by simp⟩
      · simp [then_,NewConsole.Pc.unclosed]
      · simp [then_]
      · intro m same
        rw [then_] at same
        cases same
        simp [DescriptorTable.opened]
      · simp [then_]
    · have file := owns.probing k thread n here at_
      obtain rfl := Option.some.inj handled
      exact ⟨ownsClosed owns here lock (by rw [at_]; rfl) file (by simp) rfl (by rw [then_]; rfl) (by simp [then_])
        (by simp [then_]) (by simp [then_]),by simp⟩
    · obtain rfl := owns.final thread (List.mem_of_getElem? here) n at_
      exact (ok thread here at_).elim
    · have grows := callExtends handled noClose noFclose
      refine ⟨⟨ownsConsoleNext owns here lock (fun _ => grows _ _) (.inr grows) client input output ?_
        (fun at_ => (half at_).elim) (fun n at_ => (probed n at_).elim) final,extendsSpares grows i⟩,
        fun d same => (noClose d same).elim⟩
      intro open_
      obtain ⟨first,second,differ⟩ := owns.unclosed k thread here (unclosed open_)
      exact ⟨grows _ _ first,grows _ _ second,differ⟩

structure TableOwned (s : Server DescriptorTable) : Prop where
  zero : s.system 0 = some .other
  invalid : ∀ i, s.listener = .invalid i → (s.slots i).slot.client ≤ 0
  slots : ∀ i, SlotOwns i (s.slots i) s.system

theorem clientSocketKept {host t s r call t' s'} (h : NewClient.Steps host t s r call t' s') :
    s'.client = s.client ∨ s'.client = 0 := by
  cases h <;> simp

theorem ownsListen {maxClients pc r call pc' current current'} {s : SlotState} {slot : Slot} {i : Nat}
    {table table' : DescriptorTable} (owns : SlotOwns i s table) (zero : table 0 = some .other)
    (failed : (∃ j, pc = .invalid j) → s.slot.client ≤ 0)
    (h : SocketListen.Steps maxClients s.slot current pc r call pc' slot current')
    (handled : descriptorSystem.call table (.listener i) call r = some table') (lock : SlotLock {s with slot}) :
    SlotOwns i {s with slot} table' ∧ SparesOthers i table table' := by
  have grows : Extends table table' := callExtends handled (by cases h <;> simp) (by cases h <;> simp)
  refine ⟨?_,extendsSpares grows i⟩
  obtain ⟨_,socket,closing,output,input,unclosed,half,probing,final⟩ := ownsFrame owns (extendsKeeps grows i)
  have open_ (off : s.slot.client ≤ 0) (c : NewClient.Thread) (mem : c ∈ s.clients) : c.pc ≠ .closeSocket := by
    intro at_
    obtain ⟨n,same,found⟩ := owns.closing c mem at_
    have standard : n = 0 := by omega
    rw [standard,zero] at found
    exact Resource.noConfusion (Option.some.inj found)
  cases h with
  | @accepted _ n inside free =>
    refine ⟨lock,fun _ => .inl ⟨n,rfl,?_⟩,?_,output,input,unclosed,half,probing,final⟩
    · simp only [descriptorSystem] at handled
      split at handled <;> try contradiction
      cases Option.some.inj handled
      simp [DescriptorTable.opened]
    · exact fun c mem at_ => (open_ (by omega) c mem at_).elim
  | refused inside free =>
    refine ⟨lock,fun taken => ?_,?_,output,input,unclosed,half,probing,final⟩
    · simp at taken
    · exact fun c mem at_ => (open_ (by omega) c mem at_).elim
  | invalid =>
    refine ⟨lock,fun taken => (Int.lt_irrefl 0 taken).elim,?_,output,input,unclosed,half,probing,final⟩
    exact fun c mem at_ => (open_ (failed ⟨_,rfl⟩) c mem at_).elim
  | _ => exact ⟨lock,socket,closing,output,input,unclosed,half,probing,final⟩

theorem ownsStart {i j} {s : SlotState} {table : DescriptorTable} (owns : SlotOwns i s table)
    (lock : SlotLock {s with clients := s.clients ++ [NewClient.started j]}) :
    SlotOwns i {s with clients := s.clients ++ [NewClient.started j]} table := by
  obtain ⟨_,socket,closing,output,input,unclosed,half,probing,final⟩ := owns
  have old (c : NewClient.Thread) (mem : c ∈ s.clients ++ [NewClient.started j]) (later : c.pc ≠ .enter) :
      c ∈ s.clients := by
    rcases List.mem_append.mp mem with found | new
    · exact found
    · exact (later (by rw [List.mem_singleton.mp new]; rfl)).elim
  refine ⟨lock,?_,?_,?_,?_,unclosed,half,probing,final⟩
  · intro taken
    rcases socket taken with named | ⟨c,mem,freeing⟩
    · exact .inl named
    · exact .inr ⟨c,List.mem_append_left _ mem,freeing⟩
  · exact fun c mem at_ => closing c (old c mem (by simp [at_])) at_
  · exact fun c mem has => output c (old c mem (fun new => by simp [new,NewClient.Pc.hasOutput] at has)) has
  · exact fun c mem has => input c (old c mem (fun new => by simp [new,NewClient.Pc.hasInput] at has)) has

theorem ownedSlots {s next : Server DescriptorTable} {i : Nat} (owned : TableOwned s)
    (others : ∀ j, j ≠ i → next.slots j = s.slots j)
    (acting : SlotOwns i (next.slots i) next.system ∧ SparesOthers i s.system next.system)
    (invalid : ∀ j, next.listener = .invalid j → (next.slots j).slot.client ≤ 0) : TableOwned next := by
  refine ⟨acting.2.2 owned.zero,invalid,fun j => ?_⟩
  by_cases here : j = i
  · subst here
    exact acting.1
  · rw [others j here]
    exact ownsFrame (owned.slots j) (acting.2.1 j here)

theorem invalidElsewhere {i : Nat} {s s' : Server DescriptorTable} (owned : TableOwned s)
    (others : ∀ j, j ≠ i → s'.slots j = s.slots j) (listener : s'.listener = s.listener)
    (stays : (s.slots i).slot.client ≤ 0 → (s'.slots i).slot.client ≤ 0) (j : Nat) (wrong : s'.listener = .invalid j) :
    (s'.slots j).slot.client ≤ 0 := by
  have bound := owned.invalid j (listener ▸ wrong)
  by_cases here : j = i
  · subst here
    exact stays bound
  · rw [others j here]
    exact bound

theorem clientStays {host maxClients t r call} {s s' : SlotState} (h : SlotStep host maxClients s (.client t r) call s')
    (bound : s.slot.client ≤ 0) : s'.slot.client ≤ 0 := by
  cases h with
  | client _ step _ _ =>
    rcases clientSocketKept step with same | none
    · exact same.trans_le bound
    · exact none.le
  | created _ _ => exact bound

theorem tableStep {host maxClients} {s s' : Server DescriptorTable} {l call} (owned : TableOwned s)
    (ok : SparesClosed s l) (h : ServerStep host maxClients descriptorSystem s l call s') :
    TableOwned s' ∧ ClosesOwn s l call := by
  have alone : StartsAlone s l := by
    cases l with
    | start => exact ok
    | _ => trivial
  have locked := serverLock (fun i => (owned.slots i).lock) alone h
  cases l with
  | system e => nomatch e
  | listen r =>
    refine ⟨?_,⟨by simp⟩⟩
    obtain ⟨_,others⟩ := slotOfServer h rfl
    have lock := locked s.listener.slot
    cases h with
    | @listen _ _ pc slot current system step handled =>
      refine ownedSlots owned others ?_ ?_
      · simp only [Function.update_self] at lock ⊢
        refine ownsListen (owned.slots _) owned.zero ?_ step handled lock
        intro ⟨j,wrong⟩
        have bound := owned.invalid j wrong
        rw [wrong]
        exact bound
      · intro j wrong
        simp only at wrong
        generalize s.listener = at_ at *
        cases step <;> simp_all [SocketListen.Pc.slot]
  | start =>
    refine ⟨?_,⟨by simp⟩⟩
    obtain ⟨_,others⟩ := slotOfServer h rfl
    have lock := locked s.current
    cases h with
    | start waiting =>
      refine ownedSlots owned others ?_ (invalidElsewhere owned others rfl ?_)
      · simp only [Function.update_self] at lock ⊢
        exact ⟨ownsStart (owned.slots _) lock,extendsSpares (fun _ _ => id) _⟩
      · simp only [Function.update_self]
        exact id
  | client i t r =>
    refine ⟨?_,⟨by simp⟩⟩
    obtain ⟨_,others⟩ := slotOfServer h rfl
    have lock := locked i
    cases h with
    | client step handled =>
      refine ownedSlots owned others ?_ (invalidElsewhere owned others rfl ?_)
      · simp only [Function.update_self] at lock ⊢
        exact ownsClient (owned.slots i) owned.zero step handled lock
      · simp only [Function.update_self]
        exact clientStays step
  | console i k r =>
    obtain ⟨_,others⟩ := slotOfServer h rfl
    have lock := locked i
    cases h with
    | console step handled =>
      simp only [Function.update_self] at lock
      obtain ⟨acting,law⟩ := ownsConsole (owned.slots i) ok step handled lock
      refine ⟨ownedSlots owned others ?_ (invalidElsewhere owned others rfl ?_),⟨?_⟩⟩
      · simpa only [Function.update_self] using acting
      · simp only [Function.update_self]
        cases step with
        | console _ step => exact (consoleClient step).trans_le
      · intro j u _ d on closes
        cases on
        exact law d closes

theorem consoleClosesOwn {host maxClients} {s t u : Server DescriptorTable} {l call} (unstarted : Unstarted s)
    (zero : s.system 0 = some .other) (run : Reaches (serverMachine host maxClients descriptorSystem) SparesClosed s t)
    (ok : SparesClosed t l) (act : (serverMachine host maxClients descriptorSystem).act t l = some (call,u)) :
    ClosesOwn t l call := by
  have start : TableOwned s := by
    refine ⟨zero,by simp [unstarted.listener],fun i => ?_⟩
    have none := unstarted.threads i
    refine ⟨noThreadsLock none,?_,?_,?_,?_,?_,?_,?_,?_⟩
    · simp [unstarted.clients i]
    · simp [none.clients]
    · simp [none.clients]
    · simp [none.clients]
    · simp [none.consoles]
    · simp [none.consoles]
    · simp [none.consoles]
    · simp [none.consoles]
  have now := invariantOfStep (fun owned ok act => (tableStep owned ok (serverStep act)).1) run start
  exact (tableStep now ok (serverStep act)).2

theorem pipeEndsOpened {table table' : DescriptorTable} {actor : Actor} {call : Call} {r : Result} {n i k : Nat}
    (handled : descriptorSystem.call table actor call r = some table') (found : table' n = some (.pipeEnd i k)) :
    table n = some (.pipeEnd i k) ∨ actor = .client i k ∧ call = .pipe := by
  have removed (d : Int) (left : table.closed d n = some (.pipeEnd i k)) : table n = some (.pipeEnd i k) := by
    unfold DescriptorTable.closed at left
    split at left
    · cases left
    · exact left
  have opened {old : DescriptorTable} {m : Nat} {what : Resource} (now : old.opened m what n = some (.pipeEnd i k)) :
      old n = some (.pipeEnd i k) ∨ what = .pipeEnd i k := by
    by_cases same : n = m
    · subst same
      rw [DescriptorTable.opened,Function.update_self] at now
      exact .inr (Option.some.inj now)
    · rw [DescriptorTable.opened,Function.update_of_ne same] at now
      exact .inl now
  unfold descriptorSystem at handled
  dsimp only at handled
  split at handled
  all_goals try split at handled
  all_goals cases handled
  · rcases opened found with old | no
    · exact .inl old
    · cases no
  · rcases opened found with first | same
    · rcases opened first with old | same
      · exact .inl old
      · cases same
        exact .inr ⟨rfl,rfl⟩
    · cases same
      exact .inr ⟨rfl,rfl⟩
  · rcases opened found with old | no
    · exact .inl old
    · cases no
  · exact .inl (removed _ found)
  · exact .inl (removed _ found)
  · exact .inl found
  · exact .inl found

theorem consoleSpends {t s r call t' s'} (h : NewConsole.Steps t s r call t' s') :
    s'.console.pipeParentToChild = s.console.pipeParentToChild ∧ call ≠ .pipe ∧
      (t'.pc.unclosed = false → t.pc.unclosed = false ∨ call = .close s.console.pipeParentToChild.1) := by
  cases h <;> simp_all [NewConsole.Pc.unclosed]

theorem listenSpends {maxClients s current pc r call pc' s' current'}
    (h : SocketListen.Steps maxClients s current pc r call pc' s' current') :
    s'.console.pipeParentToChild = s.console.pipeParentToChild := by
  cases h <;> rfl

theorem clientSpends {host t s r call t' s'} (h : NewClient.Steps host t s r call t' s') :
    s'.console.pipeParentToChild = s.console.pipeParentToChild ∨
      ∃ a b, call = .pipe ∧ r = .descriptors a b ∧ s'.console.pipeParentToChild = (a,b) := by
  cases h <;> simp

/- What a console thread has closed before `HandleClientPipe` is no pipe end of its own any
more: the ends opened since then are a later thread's. -/
def Spent (s : Server DescriptorTable) : Prop :=
  ∀ (i k : Nat) (console : NewConsole.Thread), (s.slots i).consoles[k]? = some console → console.pc.unclosed = false →
    s.system (s.slots i).slot.console.pipeParentToChild.1 ≠ some (.pipeEnd i k)

theorem spentStep {host maxClients} {s s' : Server DescriptorTable} {l call} (spent : Spent s)
    (h : ServerStep host maxClients descriptorSystem s l call s') : Spent s' := by
  intro i k console found past mine
  cases h with
  | listen step handled =>
    have old := (pipeEndsOpened handled mine).resolve_right (by simp)
    by_cases here : i = s.listener.slot
    · subst here
      simp only [Function.update_self] at found old
      rw [listenSpends step] at old
      exact spent _ k console found past old
    · simp only [Function.update_of_ne here] at found old
      exact spent i k console found past old
  | start waiting =>
    by_cases here : i = s.current
    · subst here
      simp only [Function.update_self] at found mine
      exact spent _ k console found past mine
    · simp only [Function.update_of_ne here] at found mine
      exact spent i k console found past mine
  | @client j t r call slot system step handled =>
    by_cases here : i = j
    · subst here
      simp only [Function.update_self] at found mine
      cases step with
      | @client _ _ thread _ next slot at_ step noThread joined =>
        have short := (List.getElem?_eq_some_iff.mp found).1
        have old := (pipeEndsOpened handled mine).resolve_right fun now => by
          cases now.1
          exact lt_irrefl _ short
        rcases clientSpends step with same | ⟨a,b,rfl,rfl,fields⟩
        · rw [same] at old
          exact spent _ k console found past old
        · -- a number that `pipe` returns was free
          rw [fields] at old
          dsimp only [descriptorSystem] at handled
          split at handled
          · rename_i fresh
            cases fresh.1.1.symm.trans old
          · cases handled
      | created at_ creating =>
        have old := (pipeEndsOpened handled mine).resolve_right fun now => by cases now.2
        rcases pushFound found with ⟨-,rfl⟩ | ⟨-,before⟩
        · cases past
        · exact spent _ k console before past old
    · have old := (pipeEndsOpened handled mine).resolve_right (by simp [Ne.symm here])
      simp only [Function.update_of_ne here] at found old
      exact spent i k console found past old
  | @console j m r call slot system step handled =>
    by_cases here : i = j
    · subst here
      have old := (pipeEndsOpened handled mine).resolve_right (by simp)
      simp only [Function.update_self] at found mine old
      cases step with
      | @console _ _ thread _ next slot at_ step =>
        obtain ⟨fields,-,closes⟩ := consoleSpends step
        rw [fields] at mine old
        rcases setFound at_ found with ⟨rfl,rfl⟩ | ⟨-,before⟩
        · rcases closes past with earlier | rfl
          · exact spent _ _ _ at_ earlier old
          · have closed : s.system.closed (s.slots i).slot.console.pipeParentToChild.1 = system := Option.some.inj handled
            simp [← closed,DescriptorTable.closed] at mine
        · exact spent _ k console before past old
    · have old := (pipeEndsOpened handled mine).resolve_right (by simp)
      simp only [Function.update_of_ne here] at found old
      exact spent i k console found past old
  | system e => nomatch e

theorem firstCloseAgainSpent {host maxClients i k r} {s t u : Server DescriptorTable} {console : NewConsole.Thread}
    {call : Call} (unstarted : Unstarted s) (run : Reaches (serverMachine host maxClients descriptorSystem) free s t)
    (here : (t.slots i).consoles[k]? = some console) (at_ : console.pc = .closeAgain 0)
    (act : (serverMachine host maxClients descriptorSystem).act t (.console i k r) = some (call,u)) :
    ¬ ClosesOwn t (.console i k r) call := by
  intro closes
  have start : Spent s := fun i k console found => by
    rw [(unstarted.threads i).consoles] at found
    simp at found
  have spent := invariantOfStep (fun spent _ act => spentStep spent (serverStep act)) run start
  have step := serverStep act
  cases step with
  | console step handled =>
    cases step with
    | @console _ _ thread _ _ _ found step =>
      cases Option.some.inj (here.symm.trans found)
      have names : call = .close (t.slots i).slot.console.pipeParentToChild.1 := by
        cases step with
        | closeAgain before | closeLast before =>
          cases before.symm.trans at_
          rfl
        | _ before => cases before.symm.trans at_
      obtain ⟨n,same,own⟩ := closes.own i k r _ rfl names
      obtain rfl := Int.ofNat.inj same
      exact spent i k console here (by rw [at_]; rfl) own

def standardTable : DescriptorTable := fun n => if n < 4 then some .other else none

def catUpTo (later : List (ServerLabel Empty)) : List (ServerLabel Empty) :=
  [.listen .done] ++ accepts 4 ++ [.start] ++
    ([SlotLabel.client 0 (.path (ascii "/"))] ++ launches 0 0 "Mcat" ++
      consoleDoes 0 [.done,.done,.done,.process 100]).map (SlotLabel.onServer 0) ++ later

theorem firstCloseOwn : ∃ t u,
    run (serverMachine plainHost 19 descriptorSystem) SparesClosed (booted standardTable) (catUpTo []) = some t ∧
    (serverMachine plainHost 19 descriptorSystem).act t (.console 0 0 .done) = some (.close 7,u) ∧
    ClosesOwn t (.console 0 0 .done) (.close 7) := by
  have ends : ((run (serverMachine plainHost 19 descriptorSystem) SparesClosed (booted standardTable)
      (catUpTo [])).bind fun t => if SparesClosed t (.console 0 0 .done) then
        ((serverMachine plainHost 19 descriptorSystem).act t (.console 0 0 .done)).map Prod.fst else none) =
      some (.close 7) := by decide +kernel
  obtain ⟨t,ran,last⟩ := Option.bind_eq_some_iff.mp ends
  have ok : SparesClosed t (.console 0 0 .done) := by
    by_contra no
    rw [if_neg no] at last
    nomatch last
  rw [if_pos ok] at last
  obtain ⟨⟨call,u⟩,act,rfl⟩ := Option.map_eq_some_iff.mp last
  exact ⟨t,u,ran,act,consoleClosesOwn (bootedUnstarted _) rfl (runReaches ran) ok act⟩

def acceptedBetween : List (ServerLabel Empty) := catUpTo
  ((consoleDoes 0 [.done,.done,.done,.endOfFile,.done,.done,.done,.done,.done,.done,.process 100]).map
    (SlotLabel.onServer 0) ++ [.listen (.descriptor 6)] ++
    (consoleDoes 0 [.done,.done,.done]).map (SlotLabel.onServer 0))

theorem secondClientSocketClosed : ∃ t u,
    Reaches (serverMachine plainHost 19 descriptorSystem) free (booted standardTable) t ∧
    (serverMachine plainHost 19 descriptorSystem).act t (.console 0 0 .done) = some (.close 6,u) ∧
    (t.slots 1).slot.client = 6 ∧ t.system 6 = some (.connection 1) ∧
    ¬ ClosesOwn t (.console 0 0 .done) (.close 6) := by
  have ends : ((run (serverMachine plainHost 19 descriptorSystem) free (booted standardTable)
      acceptedBetween).bind fun t =>
        ((serverMachine plainHost 19 descriptorSystem).act t (.console 0 0 .done)).map fun r =>
          (r.1,(t.slots 1).slot.client,t.system 6)) = some (.close 6,6,some (.connection 1)) := by decide +kernel
  obtain ⟨t,ran,last⟩ := Option.bind_eq_some_iff.mp ends
  obtain ⟨⟨call,u⟩,act,same⟩ := Option.map_eq_some_iff.mp last
  simp only [Prod.mk.injEq] at same
  obtain ⟨rfl,client,socket⟩ := same
  refine ⟨t,u,runReaches ran,act,client,socket,fun closes => ?_⟩
  obtain ⟨n,number,mine⟩ := closes.own 0 0 .done 6 rfl rfl
  have six : n = 6 := by omega
  rw [six,socket] at mine
  exact Resource.noConfusion (Option.some.inj mine)

end RemoteTerminal
