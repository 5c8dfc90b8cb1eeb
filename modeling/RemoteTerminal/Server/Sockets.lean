import RemoteTerminal.Server.Descriptors
import RemoteTerminal.Server.Handoff

/-! The sockets of the server. A slot is freed whether or not its descriptor was closed, so
the slots account for the descriptors that `accept` returned only as long as every
`shutdown` of an open one succeeds. -/
namespace RemoteTerminal
open ByteStrings LabelledRuns EntryTable

def Server.inSession (s : Server DescriptorTable) (i : Nat) : Prop :=
  s.expects i ∨ ∃ thread ∈ (s.slots i).clients, thread.pc.holdsSlot = true

/- The accept loop stores a slot index only when the last one was read, its threads are
created, and no `shutdown` of an open socket fails. -/
def ShutsDown (s : Server DescriptorTable) : ServerLabel Empty → Prop
  | .listen r => match s.listener with
    | .publish _ => s.pending = 0
    | .create _ => r = .done
    | _ => True
  | .client i t r => r = .failed → ∀ thread ∈ (s.slots i).clients[t]?, thread.pc = .leave →
      s.system.connected (s.slots i).slot.client = false
  | _ => True
instance : (s : Server DescriptorTable) → (l : ServerLabel Empty) → Decidable (ShutsDown s l)
  | ⟨.publish _,_,_,_,_⟩,.listen _ | ⟨.create _,_,_,_,_⟩,.listen _ | _,.client _ _ _ => by
    dsimp only [ShutsDown]; infer_instance
  | ⟨.listen,_,_,_,_⟩,.listen _ | ⟨.scan _,_,_,_,_⟩,.listen _ | ⟨.invalid _,_,_,_,_⟩,.listen _
  | ⟨.reset _,_,_,_,_⟩,.listen _ | _,.start | _,.console _ _ _ | _,.system _ => isTrue trivial

theorem connectionOld {table table' actor call r} {n i : Nat}
    (h : descriptorSystem.call table actor call r = some table')
    (foreign : call = .accept → actor ≠ .listener i) (found : table' n = some (.connection i)) :
    table n = some (.connection i) := by
  have opened {table : DescriptorTable} {m : Nat} {what : Resource} (other : what ≠ .connection i)
      (found : table.opened m what n = some (.connection i)) : table n = some (.connection i) := by
    by_cases same : n = m
    · subst same
      simp [DescriptorTable.opened,other] at found
    · rwa [DescriptorTable.opened,Function.update_of_ne same] at found
  have closed {d : Int} (found : table.closed d n = some (.connection i)) : table n = some (.connection i) := by
    unfold DescriptorTable.closed at found
    split at found
    · contradiction
    · exact found
  simp only [descriptorSystem] at h
  split at h
  · split at h <;> try contradiction
    cases Option.some.inj h
    exact opened (by simpa using foreign rfl) found
  · split at h <;> try contradiction
    cases Option.some.inj h
    exact opened (by simp) (opened (by simp) found)
  · split at h <;> try contradiction
    cases Option.some.inj h
    exact opened (by simp) found
  · cases Option.some.inj h
    exact closed found
  · cases Option.some.inj h
    exact closed found
  · split at h <;> try contradiction
    cases Option.some.inj h
    exact found
  · cases Option.some.inj h
    exact found

theorem freshNonzero {table : DescriptorTable} {n : Nat} (zero : table 0 = some .other) (fresh : LowestFree table n) :
    n ≠ 0 := by
  rintro rfl
  rw [fresh.1] at zero
  contradiction

theorem openedZero {table : DescriptorTable} {n : Nat} (what : Resource) (zero : table 0 = some .other)
    (nonzero : n ≠ 0) : table.opened n what 0 = some .other := by
  rw [DescriptorTable.opened,Function.update_of_ne (Ne.symm nonzero)]
  exact zero

theorem zeroKept {table table' actor call r} (h : descriptorSystem.call table actor call r = some table')
    (zero : table 0 = some .other) (nonzero : ∀ d, call = .close d ∨ call = .fclose d → d ≠ 0) :
    table' 0 = some .other := by
  have closed {d : Int} (off : d ≠ 0) : table.closed d 0 = some .other := by
    rw [DescriptorTable.closed,if_neg (by simpa using off.symm)]
    exact zero
  simp only [descriptorSystem] at h
  split at h
  · split at h <;> try contradiction
    rename_i fresh
    cases Option.some.inj h
    exact openedZero _ zero (freshNonzero zero fresh)
  · split at h <;> try contradiction
    rename_i fresh
    cases Option.some.inj h
    refine openedZero _ (openedZero _ zero (freshNonzero zero fresh.1)) (freshNonzero ?_ fresh.2)
    exact openedZero _ zero (freshNonzero zero fresh.1)
  · split at h <;> try contradiction
    rename_i fresh
    cases Option.some.inj h
    exact openedZero _ zero (freshNonzero zero fresh)
  · cases Option.some.inj h
    exact closed (nonzero _ (.inl rfl))
  · cases Option.some.inj h
    exact closed (nonzero _ (.inr rfl))
  · split at h <;> try contradiction
    cases Option.some.inj h
    exact zero
  · cases Option.some.inj h
    exact zero

def Ends (pipe : Nat × Nat) : Prop := pipe.1 ≠ 0 ∧ pipe.2 ≠ 0

structure PipesOpened (s : SlotState) : Prop where
  output : ∀ c ∈ s.clients, c.pc.hasOutput = true → Ends s.slot.console.pipeChildToParent
  input : ∀ c ∈ s.clients, c.pc.hasInput = true → Ends s.slot.console.pipeParentToChild
  consoles : s.consoles ≠ [] → Ends s.slot.console.pipeChildToParent ∧ Ends s.slot.console.pipeParentToChild
  probing : ∀ console ∈ s.consoles, ∀ n, console.pc = .probed n → n ≠ 0

theorem pipeEnds {table table' actor a b} {i k : Nat} (zero : table 0 = some .other) (by_ : actor = .client i k)
    (h : descriptorSystem.call table actor .pipe (.descriptors a b) = some table') : Ends (a,b) := by
  subst by_
  simp only [descriptorSystem] at h
  split at h <;> try contradiction
  rename_i fresh
  exact ⟨freshNonzero zero fresh.1,freshNonzero (openedZero (.pipeEnd i k) zero (freshNonzero zero fresh.1)) fresh.2⟩

theorem pipesNext {s : SlotState} {t : Nat} {thread next : NewClient.Thread} {slot : Slot} (pipes : PipesOpened s)
    (here : s.clients[t]? = some thread)
    (output : slot.console.pipeChildToParent = s.slot.console.pipeChildToParent ∨ Ends slot.console.pipeChildToParent)
    (input : slot.console.pipeParentToChild = s.slot.console.pipeParentToChild ∨ Ends slot.console.pipeParentToChild)
    (hasOutput : next.pc.hasOutput = true → Ends slot.console.pipeChildToParent)
    (hasInput : next.pc.hasInput = true → Ends slot.console.pipeParentToChild) :
    PipesOpened ⟨slot,s.clients.set t next,s.consoles⟩ := by
  have outputs : Ends s.slot.console.pipeChildToParent → Ends slot.console.pipeChildToParent := by
    intro ends
    exact output.elim (fun same => same ▸ ends) id
  have inputs : Ends s.slot.console.pipeParentToChild → Ends slot.console.pipeParentToChild := by
    intro ends
    exact input.elim (fun same => same ▸ ends) id
  refine ⟨?_,?_,fun some_ => ⟨outputs (pipes.consoles some_).1,inputs (pipes.consoles some_).2⟩,pipes.probing⟩
  · intro c mem has
    rcases (memSet here).mp mem with rfl | ⟨_,_,old⟩
    · exact hasOutput has
    · exact outputs (pipes.output c (List.mem_of_getElem? old) has)
  · intro c mem has
    rcases (memSet here).mp mem with rfl | ⟨_,_,old⟩
    · exact hasInput has
    · exact inputs (pipes.input c (List.mem_of_getElem? old) has)

theorem pipesClient {host maxClients i t r call} {s s' : SlotState} {table table' : DescriptorTable}
    (pipes : PipesOpened s) (zero : table 0 = some .other)
    (h : SlotStep host maxClients s (.client t r) call s')
    (handled : descriptorSystem.call table (.client i s.consoles.length) call r = some table') : PipesOpened s' := by
  cases h with
  | @client _ _ thread _ next slot here step noThread joined =>
    have mem : thread ∈ s.clients := List.mem_of_getElem? here
    rcases clientDescriptors step with ⟨a,b,at_,then_,rfl,rfl,rfl⟩ | ⟨a,b,at_,then_,rfl,rfl,rfl⟩ |
        ⟨at_,then_,-,-,rfl⟩ | ⟨at_,then_,-,rfl⟩ | ⟨at_,then_,-,rfl⟩ | ⟨-,-,hasOutput,hasInput,-,output,input,-,-⟩
    · have ends := pipeEnds zero rfl handled
      exact pipesNext pipes here (.inr ends) (.inl rfl) (fun _ => ends) (by simp [then_,NewClient.Pc.hasInput])
    · have ends := pipeEnds zero rfl handled
      exact pipesNext pipes here (.inl rfl) (.inr ends) (fun _ => pipes.output thread mem (by rw [at_]; rfl))
        (fun _ => ends)
    · exact pipesNext pipes here (.inl rfl) (.inl rfl) (by simp [then_,NewClient.Pc.hasOutput])
        (by simp [then_,NewClient.Pc.hasInput])
    · exact pipesNext pipes here (.inl rfl) (.inl rfl) (by simp [then_,NewClient.Pc.hasOutput])
        (by simp [then_,NewClient.Pc.hasInput])
    · exact pipesNext pipes here (.inl rfl) (.inl rfl) (by simp [then_,NewClient.Pc.hasOutput])
        (by simp [then_,NewClient.Pc.hasInput])
    · refine pipesNext pipes here (.inl output) (.inl input) (fun has => ?_) (fun has => ?_)
      · rw [output]
        exact pipes.output thread mem (hasOutput has)
      · rw [input]
        exact pipes.input thread mem (hasInput has)
  | @created _ thread here at_ =>
    have mem : thread ∈ s.clients := List.mem_of_getElem? here
    have output := pipes.output thread mem (by rw [at_]; rfl)
    have input := pipes.input thread mem (by rw [at_]; rfl)
    refine ⟨fun _ _ _ => output,fun _ _ _ => input,fun _ => ⟨output,input⟩,fun console found n probed => ?_⟩
    rcases List.mem_append.mp found with old | new
    · exact pipes.probing console old n probed
    · rw [List.mem_singleton.mp new] at probed
      contradiction

theorem consoleCloses {t s r call t' s'} (h : NewConsole.Steps t s r call t' s') :
    s'.console.pipeChildToParent = s.console.pipeChildToParent ∧
    s'.console.pipeParentToChild = s.console.pipeParentToChild ∧
    (∀ d, call = .close d ∨ call = .fclose d →
      d = s.console.pipeChildToParent.1 ∨ d = s.console.pipeChildToParent.2 ∨
      d = s.console.pipeParentToChild.1 ∨ d = s.console.pipeParentToChild.2 ∨ ∃ n : Nat, t.pc = .probed n ∧ d = n) ∧
    ∀ n, t'.pc = .probed n → r = .descriptor n ∧ ∃ pid, call = .fopen pid := by
  have final (n : Nat) : NewConsole.finalClose s.console n = s.console.pipeChildToParent.1 ∨
      NewConsole.finalClose s.console n = s.console.pipeChildToParent.2 ∨
      NewConsole.finalClose s.console n = s.console.pipeParentToChild.1 ∨
      NewConsole.finalClose s.console n = s.console.pipeParentToChild.2 := by
    unfold NewConsole.finalClose
    split <;> simp
  have closed (n : Nat) (d : Int) (closes : Call.close (NewConsole.finalClose s.console n) = .close d ∨
      Call.close (NewConsole.finalClose s.console n) = .fclose d) : d = s.console.pipeChildToParent.1 ∨
      d = s.console.pipeChildToParent.2 ∨ d = s.console.pipeParentToChild.1 ∨ d = s.console.pipeParentToChild.2 := by
    rcases closes with same | other
    · rw [← Call.close.inj same]
      rcases final n with same | same | same | same <;> simp [same]
    · contradiction
  cases h with
  | @closeAgain n at_ more => exact ⟨rfl,rfl,fun d closes => by have := closed n d closes; tauto,by simp⟩
  | @closeLast n at_ last => exact ⟨rfl,rfl,fun d closes => by have := closed n d closes; tauto,by simp⟩
  | _ => simp_all

theorem pipesConsole {host maxClients i k r call} {s s' : SlotState} {table table' : DescriptorTable}
    (pipes : PipesOpened s) (zero : table 0 = some .other) (h : SlotStep host maxClients s (.console k r) call s')
    (handled : descriptorSystem.call table (.console i k) call r = some table') :
    PipesOpened s' ∧ ∀ d, call = .close d ∨ call = .fclose d → d ≠ 0 := by
  cases h with
  | @console _ _ thread _ next slot here step =>
    have mem : thread ∈ s.consoles := List.mem_of_getElem? here
    have ends := pipes.consoles (List.ne_nil_of_mem mem)
    obtain ⟨output,input,closes,probed⟩ := consoleCloses step
    refine ⟨⟨?_,?_,?_,?_⟩,fun d closed => ?_⟩
    · intro c found has
      simp only [output]
      exact ends.1
    · intro c found has
      simp only [input]
      exact ends.2
    · intro _
      simp only [output,input]
      exact ends
    · intro console found n at_
      rcases (memSet here).mp found with rfl | ⟨_,_,old⟩
      · obtain ⟨rfl,pid,rfl⟩ := probed n at_
        simp only [descriptorSystem] at handled
        split at handled <;> try contradiction
        rename_i fresh
        exact freshNonzero zero fresh
      · exact pipes.probing console (List.mem_of_getElem? old) n at_
    · obtain ⟨⟨outRead,outWrite⟩,inRead,inWrite⟩ := ends
      rcases closes d closed with rfl | rfl | rfl | rfl | ⟨n,at_,rfl⟩
      · simpa using outRead
      · simpa using outWrite
      · simpa using inRead
      · simpa using inWrite
      · simpa using pipes.probing thread mem n at_

structure SocketHeld (i : Nat) (s : SlotState) (due invalid : Prop) (table : DescriptorTable) : Prop where
  entry : ∀ n, table n = some (.connection i) → s.slot.client = n
  single : ∀ (t u : Nat) (thread other : NewClient.Thread), s.clients[t]? = some thread →
    s.clients[u]? = some other → thread.pc.holdsSlot = true → other.pc.holdsSlot = true → t = u
  waiting : due → s.slot.client ≠ 0 ∧ s.slot.client ≠ -1 ∧ ∀ thread ∈ s.clients, thread.pc.holdsSlot = false
  failed : invalid → s.slot.client = -1
  held : ∀ thread ∈ s.clients, thread.pc.holdsSlot = true → s.slot.client ≠ 0 ∧ s.slot.client ≠ -1
  served : ¬ due → s.slot.client ≠ 0 → s.slot.client ≠ -1 → ∃ thread ∈ s.clients, thread.pc.holdsSlot = true
  freeing : ∀ thread ∈ s.clients, thread.pc = .freeSlot → ∀ n, table n ≠ some (.connection i)

structure SocketsHeld (s : Server DescriptorTable) : Prop where
  zero : s.system 0 = some .other
  pipes : ∀ i, PipesOpened (s.slots i)
  turn : HandsInTurn s
  slots : ∀ i, SocketHeld i (s.slots i) (s.expects i) (s.listener = .invalid i) s.system

section
variable {host : Host} {maxClients i t : Nat} {s s' : SlotState} {due due' invalid invalid' : Prop}
  {table table' : DescriptorTable} {r : Result} {call : Call}

theorem socketFrame (held : SocketHeld i s due invalid table) (client : s'.slot.client = s.slot.client)
    (clients : s'.clients = s.clients) (sameDue : due' ↔ due) (stillInvalid : invalid' → invalid)
    (old : ∀ n, table' n = some (.connection i) → table n = some (.connection i)) :
    SocketHeld i s' due' invalid' table' := by
  obtain ⟨entry,single,waiting,failed,holds,served,freeing⟩ := held
  rw [← clients] at single waiting holds served freeing
  rw [← client] at entry waiting failed holds served
  exact ⟨fun n found => entry n (old n found),single,fun h => waiting (sameDue.mp h),fun h => failed (stillInvalid h),
    holds,fun h => served fun was => h (sameDue.mpr was),fun c mem at_ n found => freeing c mem at_ n (old n found)⟩

theorem unheldEntries (held : SocketHeld i s due invalid table) (zero : table 0 = some .other)
    (off : s.slot.client = 0 ∨ s.slot.client = -1) (n : Nat) : table n ≠ some (.connection i) := by
  intro found
  have named := held.entry n found
  have standard : n = 0 := by omega
  rw [standard,zero] at found
  exact Resource.noConfusion (Option.some.inj found)

theorem unheldThreads (held : SocketHeld i s due invalid table) (off : s.slot.client = 0 ∨ s.slot.client = -1)
    (thread : NewClient.Thread) (mem : thread ∈ s.clients) : thread.pc.holdsSlot = false := by
  by_contra holds
  obtain ⟨taken,valid⟩ := held.held thread mem (by simpa using holds)
  exact off.elim taken valid

theorem unheldDue (held : SocketHeld i s due invalid table) (off : s.slot.client = 0 ∨ s.slot.client = -1) : ¬ due :=
  fun h => off.elim (held.waiting h).1 (held.waiting h).2.1

theorem freeSlotHolds {thread : NewClient.Thread} (at_ : thread.pc = .freeSlot) : thread.pc.holdsSlot = true := by
  rw [at_]
  rfl

theorem socketListen {pc pc' current current'} {slot : Slot} (held : SocketHeld i s due invalid table)
    (zero : table 0 = some .other) (here : pc.slot = i) (wrong : pc = .invalid i → invalid)
    (h : SocketListen.Steps maxClients s.slot current pc r call pc' slot current')
    (handled : descriptorSystem.call table (.listener i) call r = some table')
    (isDue : due' ↔ due ∨ (pc = .scan i ∧ pc' = .reset i)) :
    SocketHeld i {s with slot} due' (pc' = .invalid i) table' := by
  cases h with
  | @accepted j n inside free =>
    obtain rfl : j = i := here
    have empty := unheldEntries held zero (.inl free)
    have idle := unheldThreads held (.inl free)
    simp only [descriptorSystem] at handled
    split at handled <;> try contradiction
    rename_i fresh
    cases Option.some.inj handled
    have nonzero := freshNonzero zero fresh
    have valid : (n : Int) ≠ -1 := by omega
    refine ⟨?_,?_,fun _ => ⟨by simpa using nonzero,valid,idle⟩,by simp,?_,?_,?_⟩
    · intro m found
      by_cases same : m = n
      · rw [same]
      · rw [DescriptorTable.opened,Function.update_of_ne same] at found
        exact (empty m found).elim
    · exact held.single
    · intro thread mem holds
      rw [idle thread mem] at holds
      contradiction
    · exact fun off => (off (isDue.mpr (.inr ⟨rfl,rfl⟩))).elim
    · intro thread mem at_
      have holds := freeSlotHolds at_
      rw [idle thread mem] at holds
      contradiction
  | @refused j inside free =>
    obtain rfl : j = i := here
    have idle := unheldThreads held (.inl free)
    have empty := unheldEntries held zero (.inl free)
    have off : ¬ due' := by simpa [isDue] using unheldDue held (.inl free)
    have same := Option.some.inj handled
    subst same
    refine ⟨fun n found => (empty n found).elim,held.single,fun h => (off h).elim,fun _ => rfl,?_,
      fun _ _ valid => (valid rfl).elim,fun _ _ _ => empty⟩
    intro thread mem holds
    rw [idle thread mem] at holds
    contradiction
  | @invalid j =>
    obtain rfl : j = i := here
    have failed := held.failed (wrong rfl)
    have idle := unheldThreads held (.inr failed)
    have empty := unheldEntries held zero (.inr failed)
    have off : ¬ due' := by simpa [isDue] using unheldDue held (.inr failed)
    have same := Option.some.inj handled
    subst same
    refine ⟨fun n found => (empty n found).elim,held.single,fun h => (off h).elim,by simp,?_,
      fun _ taken => (taken rfl).elim,fun _ _ _ => empty⟩
    intro thread mem holds
    rw [idle thread mem] at holds
    contradiction
  | _ =>
    exact socketFrame held rfl rfl (by simpa using isDue) (by simp) (fun n => connectionOld handled (by simp))

theorem socketStart {j : Nat} (held : SocketHeld i s due invalid table) (expected : due) (off : ¬ due')
    (stillInvalid : invalid' → invalid) :
    SocketHeld i {s with clients := s.clients ++ [NewClient.started j]} due' invalid' table := by
  obtain ⟨taken,valid,idle⟩ := held.waiting expected
  have only {t : Nat} {thread : NewClient.Thread} (found : (s.clients ++ [NewClient.started j])[t]? = some thread)
      (holds : thread.pc.holdsSlot = true) : t = s.clients.length := by
    rcases pushFound found with ⟨last,_⟩ | ⟨_,old⟩
    · exact last
    · rw [idle thread (List.mem_of_getElem? old)] at holds
      contradiction
  refine ⟨held.entry,?_,fun h => (off h).elim,fun h => held.failed (stillInvalid h),fun _ _ _ => ⟨taken,valid⟩,
    fun _ _ _ => ⟨NewClient.started j,by simp,rfl⟩,?_⟩
  · intro t u thread other here there holds holdsOther
    rw [only here holds,only there holdsOther]
  · intro thread mem at_
    rcases List.mem_append.mp mem with old | new
    · have holds := freeSlotHolds at_
      rw [idle thread old] at holds
      contradiction
    · rw [List.mem_singleton.mp new] at at_
      contradiction

theorem clientFreeing {t s r call t' s'} (h : NewClient.Steps host t s r call t' s') (at_ : t'.pc = .freeSlot) :
    s' = s ∧ t.pc.holdsSlot = true ∧ ((s.client = -1 ∧ t.pc = .leave) ∨ (t.pc = .leave ∧ r = .failed) ∨
      (t.pc = .closeSocket ∧ call = .close s.client)) := by
  cases h <;> simp_all [NewClient.Pc.holdsSlot]

theorem clientCloses {t s r call t' s'} (h : NewClient.Steps host t s r call t' s') (d : Int)
    (closes : call = .close d ∨ call = .fclose d) : t.pc = .closeSocket ∧ d = s.client := by
  cases h <;> simp_all

theorem connectedEntry {n : Nat} (found : table n = some (.connection i)) : table.connected n = true := by
  simp [DescriptorTable.connected,found]

theorem socketFreeing {thread next : NewClient.Thread} {slot : Slot} (held : SocketHeld i s due invalid table)
    (here : s.clients[t]? = some thread) (step : NewClient.Steps host thread s.slot r call next slot)
    (ok : r = .failed → thread.pc = .leave → table.connected s.slot.client = false)
    (handled : descriptorSystem.call table (.client i s.consoles.length) call r = some table')
    (at_ : next.pc = .freeSlot) (n : Nat) : table' n ≠ some (.connection i) := by
  intro found
  obtain ⟨-,holds,frees⟩ := clientFreeing step at_
  have old := connectionOld handled (by simp) found
  have named := held.entry n old
  rcases frees with ⟨wrong,-⟩ | ⟨leaving,failed⟩ | ⟨-,rfl⟩
  · exact (held.held thread (List.mem_of_getElem? here) holds).2 wrong
  · have connected := ok failed leaving
    rw [named,connectedEntry old] at connected
    contradiction
  · cases Option.some.inj handled
    simp [DescriptorTable.closed,named] at found

theorem socketKept {thread next : NewClient.Thread} {slot : Slot} {consoles : List NewConsole.Thread}
    (held : SocketHeld i s due invalid table) (here : s.clients[t]? = some thread)
    (old : ∀ n, table' n = some (.connection i) → table n = some (.connection i))
    (freeing : next.pc = .freeSlot → ∀ n, table' n ≠ some (.connection i))
    (same : next.pc.holdsSlot = thread.pc.holdsSlot) (client : slot.client = s.slot.client) :
    SocketHeld i ⟨slot,s.clients.set t next,consoles⟩ due invalid table' := by
  have before {u : Nat} {c : NewClient.Thread} (found : (s.clients.set t next)[u]? = some c) :
      ∃ c', s.clients[u]? = some c' ∧ c.pc.holdsSlot = c'.pc.holdsSlot := by
    rcases setFound here found with ⟨rfl,rfl⟩ | ⟨-,there⟩
    · exact ⟨thread,here,same⟩
    · exact ⟨c,there,rfl⟩
  have beforeMem {c : NewClient.Thread} (mem : c ∈ s.clients.set t next) :
      ∃ c' ∈ s.clients, c.pc.holdsSlot = c'.pc.holdsSlot := by
    obtain ⟨u,found⟩ := List.mem_iff_getElem?.mp mem
    obtain ⟨c',there,holds⟩ := before found
    exact ⟨c',List.mem_of_getElem? there,holds⟩
  refine ⟨fun n found => client.trans (held.entry n (old n found)),?_,fun expected => ?_,
    fun wrong => client.trans (held.failed wrong),?_,?_,?_⟩
  · intro u v one two foundOne foundTwo holdsOne holdsTwo
    obtain ⟨c,there,holds⟩ := before foundOne
    obtain ⟨c',there',holds'⟩ := before foundTwo
    exact held.single u v c c' there there' (holds ▸ holdsOne) (holds' ▸ holdsTwo)
  · obtain ⟨taken,valid,none⟩ := held.waiting expected
    simp only [client]
    refine ⟨taken,valid,fun c mem => ?_⟩
    obtain ⟨c',there,holds⟩ := beforeMem mem
    exact holds.trans (none c' there)
  · intro c mem holds
    obtain ⟨c',there,holds'⟩ := beforeMem mem
    simp only [client]
    exact held.held c' there (holds' ▸ holds)
  · intro started taken valid
    simp only [client] at taken valid
    obtain ⟨c,mem,holds⟩ := held.served started taken valid
    rcases memOld next here mem with rfl | still
    · exact ⟨next,(memSet here).mpr (.inl rfl),same.trans holds⟩
    · exact ⟨c,still,holds⟩
  · intro c mem at_ n found
    rcases (memSet here).mp mem with rfl | ⟨_,_,still⟩
    · exact freeing at_ n found
    · exact held.freeing c (List.mem_of_getElem? still) at_ n (old n found)

theorem socketFreed {thread next : NewClient.Thread} {slot : Slot} {consoles : List NewConsole.Thread}
    (held : SocketHeld i s due invalid table) (here : s.clients[t]? = some thread)
    (old : ∀ n, table' n = some (.connection i) → table n = some (.connection i)) (at_ : thread.pc = .freeSlot)
    (freed : next.pc.holdsSlot = false) (client : slot.client = 0) :
    SocketHeld i ⟨slot,s.clients.set t next,consoles⟩ due invalid table' := by
  have mem : thread ∈ s.clients := List.mem_of_getElem? here
  have holds := freeSlotHolds at_
  have idle (c : NewClient.Thread) (found : c ∈ s.clients.set t next) : c.pc.holdsSlot ≠ true := by
    intro holdsToo
    rcases (memSet here).mp found with rfl | ⟨u,other,there⟩
    · rw [freed] at holdsToo
      contradiction
    · exact other (held.single u t c thread there here holdsToo holds)
  have noConnection (n : Nat) : table' n ≠ some (.connection i) := fun found =>
    held.freeing thread mem at_ n (old n found)
  refine ⟨fun n found => (noConnection n found).elim,?_,fun expected => ?_,fun wrong => ?_,?_,
    fun _ taken => (taken client).elim,fun _ _ _ => noConnection⟩
  · exact fun u v one two foundOne _ holdsOne => (idle one (List.mem_of_getElem? foundOne) holdsOne).elim
  · have unheld := (held.waiting expected).2.2 thread mem
    rw [holds] at unheld
    contradiction
  · exact ((held.held thread mem holds).2 (held.failed wrong)).elim
  · exact fun c found holdsToo => (idle c found holdsToo).elim

theorem socketClient (held : SocketHeld i s due invalid table)
    (ok : r = .failed → ∀ thread ∈ s.clients[t]?, thread.pc = .leave → table.connected s.slot.client = false)
    (h : SlotStep host maxClients s (.client t r) call s')
    (handled : descriptorSystem.call table (.client i s.consoles.length) call r = some table') :
    SocketHeld i s' due invalid table' := by
  cases h with
  | @client _ _ thread _ next slot here step noThread joined =>
    have old : ∀ n, table' n = some (.connection i) → table n = some (.connection i) := fun n =>
      connectionOld handled (by simp)
    have moves : (next.pc.holdsSlot = thread.pc.holdsSlot ∧ slot.client = s.slot.client) ∨
        (thread.pc = .freeSlot ∧ next.pc.holdsSlot = false ∧ slot.client = 0) := by
      cases step <;> simp_all [NewClient.Pc.holdsSlot]
    rcases moves with ⟨same,client⟩ | ⟨at_,freed,client⟩
    · exact socketKept held here old (socketFreeing held here step (fun failed => ok failed thread here) handled) same
        client
    · exact socketFreed held here old at_ freed client
  | @created _ thread here at_ =>
    exact socketKept held here (fun n => connectionOld handled (by simp)) (by simp) (by rw [at_]; rfl) rfl

end

variable {host : Host} {maxClients : Nat} {s s' : Server DescriptorTable} {l : ServerLabel Empty} {call : Call}

theorem listenCloses {maxClients s current pc r call pc' s' current'}
    (h : SocketListen.Steps maxClients s current pc r call pc' s' current') (d : Int) :
    call ≠ .close d ∧ call ≠ .fclose d := by
  cases h <;> simp

theorem listenPipes {maxClients s current pc r call pc' s' current'}
    (h : SocketListen.Steps maxClients s current pc r call pc' s' current') :
    s'.console.pipeChildToParent = s.console.pipeChildToParent ∧
      s'.console.pipeParentToChild = s.console.pipeParentToChild := by
  cases h <;> exact ⟨rfl,rfl⟩

theorem pipesMemory {s : SlotState} {slot : Slot} (pipes : PipesOpened s)
    (output : slot.console.pipeChildToParent = s.slot.console.pipeChildToParent)
    (input : slot.console.pipeParentToChild = s.slot.console.pipeParentToChild) : PipesOpened {s with slot} := by
  obtain ⟨outputs,inputs,consoles,probing⟩ := pipes
  rw [← output] at outputs consoles
  rw [← input] at inputs consoles
  exact ⟨outputs,inputs,consoles,probing⟩

theorem heldSlots {i : Nat} (held : SocketsHeld s) (zero : s'.system 0 = some .other) (turn : HandsInTurn s')
    (others : ∀ j, j ≠ i → s'.slots j = s.slots j) (pipes : PipesOpened (s'.slots i))
    (acting : SocketHeld i (s'.slots i) (s'.expects i) (s'.listener = .invalid i) s'.system)
    (due : ∀ j, j ≠ i → (s'.expects j ↔ s.expects j))
    (invalid : ∀ j, j ≠ i → s'.listener = .invalid j → s.listener = .invalid j)
    (old : ∀ j, j ≠ i → ∀ n, s'.system n = some (.connection j) → s.system n = some (.connection j)) :
    SocketsHeld s' := by
  refine ⟨zero,fun j => ?_,turn,fun j => ?_⟩
  · by_cases here : j = i
    · exact here ▸ pipes
    · rw [others j here]
      exact held.pipes j
  · by_cases here : j = i
    · subst here
      exact acting
    · rw [others j here]
      exact socketFrame (held.slots j) rfl rfl (due j here) (invalid j here) (old j here)

theorem heldListen {r} (held : SocketsHeld s) (ok : ShutsDown s (.listen r))
    (h : ServerStep host maxClients descriptorSystem s (.listen r) call s') : SocketsHeld s' := by
  have apart : ∀ i, s.listener = .scan i → (s.slots i).slot.client = 0 → s.pending ≠ 0 → s.current ≠ i := by
    rintro i - free waiting rfl
    exact unheldDue (held.slots s.current) (.inl free) (.inr ⟨waiting,rfl⟩)
  obtain ⟨turn,isDue⟩ := turnListen held.turn (fun i at_ => by simpa [ShutsDown,at_] using ok)
    (fun i at_ => by simpa [ShutsDown,at_] using ok) apart h
  obtain ⟨-,others⟩ := slotOfServer h rfl
  cases h with
  | @listen _ _ pc slot current system step handled =>
    have zero : system 0 = some .other := zeroKept handled held.zero fun d closes =>
      (closes.elim (listenCloses step d).1 (listenCloses step d).2).elim
    obtain ⟨output,input⟩ := listenPipes step
    refine heldSlots held zero turn others ?_ ?_ ?_ ?_ ?_
    · simp only [Function.update_self]
      exact pipesMemory (held.pipes _) output input
    · simp only [Function.update_self]
      exact socketListen (held.slots _) held.zero rfl id step handled (isDue _)
    · intro j other
      rw [isDue j]
      refine or_iff_left ?_
      rintro ⟨at_,-⟩
      exact other (by rw [at_]; rfl)
    · exact fun j other wrong => (other (listenInvalid step wrong).symm).elim
    · exact fun j other n => connectionOld handled (by simpa using fun _ => Ne.symm other)

theorem heldStart (held : SocketsHeld s) (h : ServerStep host maxClients descriptorSystem s .start call s') :
    SocketsHeld s' := by
  obtain ⟨-,others⟩ := slotOfServer h rfl
  cases h with
  | start waiting =>
    have none : s.pending-1 = 0 := by have := held.turn.one; omega
    have apart := held.turn.other waiting
    refine heldSlots held held.zero ⟨by simp [none],?_,by simp [none]⟩ others ?_ ?_ ?_ (fun _ _ => id)
      (fun _ _ _ => id)
    · exact fun i creating => (waiting (held.turn.told i creating).2).elim
    · obtain ⟨output,input,consoles,probing⟩ := held.pipes s.current
      simp only [Function.update_self]
      have old (c : NewClient.Thread) (mem : c ∈ (s.slots s.current).clients ++ [NewClient.started s.current])
          (later : c.pc ≠ .enter) : c ∈ (s.slots s.current).clients := by
        rcases List.mem_append.mp mem with found | new
        · exact found
        · exact (later (by rw [List.mem_singleton.mp new]; rfl)).elim
      exact ⟨fun c mem has => output c (old c mem (fun new => by simp [new,NewClient.Pc.hasOutput] at has)) has,
        fun c mem has => input c (old c mem (fun new => by simp [new,NewClient.Pc.hasInput] at has)) has,consoles,
        probing⟩
    · simp only [Function.update_self]
      exact socketStart (held.slots s.current) (.inr ⟨waiting,rfl⟩) (by simp [Server.expects,none,apart]) id
    · intro j other
      simp [Server.expects,none,Ne.symm other]

theorem heldClient {i t r} (held : SocketsHeld s) (ok : ShutsDown s (.client i t r))
    (h : ServerStep host maxClients descriptorSystem s (.client i t r) call s') : SocketsHeld s' := by
  obtain ⟨-,others⟩ := slotOfServer h rfl
  cases h with
  | @client _ _ _ call slot system step handled =>
    have zero : system 0 = some .other := by
      refine zeroKept handled held.zero fun d closes => ?_
      cases step with
      | client here step noThread joined =>
        obtain ⟨at_,rfl⟩ := clientCloses step d closes
        exact ((held.slots i).held _ (List.mem_of_getElem? here) (by rw [at_]; rfl)).1
      | created here at_ => simp at closes
    refine heldSlots held zero ⟨held.turn.one,held.turn.told,held.turn.other⟩ others ?_ ?_ (fun _ _ => Iff.rfl)
      (fun _ _ => id) (fun j _ n => connectionOld handled (by simp))
    · simp only [Function.update_self]
      exact pipesClient (held.pipes i) held.zero step handled
    · simp only [Function.update_self]
      exact socketClient (held.slots i) ok step handled

theorem heldConsole {i k r} (held : SocketsHeld s)
    (h : ServerStep host maxClients descriptorSystem s (.console i k r) call s') : SocketsHeld s' := by
  obtain ⟨-,others⟩ := slotOfServer h rfl
  cases h with
  | @console _ _ _ call slot system step handled =>
    obtain ⟨pipes,nonzero⟩ := pipesConsole (held.pipes i) held.zero step handled
    have zero : system 0 = some .other := zeroKept handled held.zero nonzero
    refine heldSlots held zero ⟨held.turn.one,held.turn.told,held.turn.other⟩ others ?_ ?_ (fun _ _ => Iff.rfl)
      (fun _ _ => id) (fun j _ n => connectionOld handled (by simp))
    · simp only [Function.update_self]
      exact pipes
    · simp only [Function.update_self]
      cases step with
      | console here step =>
        exact socketFrame (held.slots i) (consoleClient step) rfl Iff.rfl id fun n =>
          connectionOld handled (by simp)

theorem heldStep (held : SocketsHeld s) (ok : ShutsDown s l)
    (h : ServerStep host maxClients descriptorSystem s l call s') : SocketsHeld s' := by
  cases l with
  | listen r => exact heldListen held ok h
  | start => exact heldStart held h
  | client i t r => exact heldClient held ok h
  | console i k r => exact heldConsole held h
  | system e => nomatch e

theorem unstartedHeld (unstarted : Unstarted s) (zero : s.system 0 = some .other)
    (fresh : ∀ n i, s.system n ≠ some (.connection i)) : SocketsHeld s := by
  obtain ⟨listener,pending,clients,threads⟩ := unstarted
  refine ⟨zero,fun i => ⟨?_,?_,?_,?_⟩,⟨by simp [pending],by simp [listener],by simp [pending]⟩,fun i => ?_⟩
  · simp [(threads i).clients]
  · simp [(threads i).clients]
  · simp [(threads i).consoles]
  · simp [(threads i).consoles]
  · have free : ¬ s.expects i := by simp [Server.expects,listener,pending,SocketListen.Pc.handles]
    refine ⟨fun n found => (fresh n i found).elim,?_,fun due => (free due).elim,by simp [listener],?_,
      fun _ taken => (taken (clients i)).elim,?_⟩
    · simp [(threads i).clients]
    · simp [(threads i).clients]
    · simp [(threads i).clients]

theorem heldClosed (held : SocketsHeld s) (i : Nat) (idle : ¬ s.inSession i) (n : Nat) :
    s.system n ≠ some (.connection i) := by
  intro found
  have named := (held.slots i).entry n found
  have taken : (s.slots i).slot.client ≠ 0 := by
    intro off
    exact unheldEntries (held.slots i) held.zero (.inl off) n found
  have serving := (held.slots i).served (fun due => idle (.inl due)) taken (by omega)
  exact idle (.inr serving)

end RemoteTerminal
