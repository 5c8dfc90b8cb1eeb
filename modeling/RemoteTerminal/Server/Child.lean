import RemoteTerminal.Library.FileTable
import RemoteTerminal.Server.Descriptors

/-! The child of `fork`, up to `execlp`. It has a copy of the server's descriptors, puts its
two ends of the pipes where the shell expects input and output, and closes the rest of the
pipes. Nothing else is closed in it. -/
namespace RemoteTerminal
open ByteStrings LabelledRuns EntryTable FileTable

def NewConsole.childFiles {α : Type} (files : Files α) (pipeParentToChild pipeChildToParent : Nat × Nat) :
    Option (Files α) := do
  let files ← move files pipeParentToChild.1 0
  let files ← close files pipeParentToChild.2
  let files ← move files pipeChildToParent.2 1
  close files pipeChildToParent.1
open NewConsole

def fourEnds (pipeParentToChild pipeChildToParent : Nat × Nat) : List Nat :=
  [pipeParentToChild.1,pipeParentToChild.2,pipeChildToParent.1,pipeChildToParent.2]

structure Wired {α : Type} (files : Files α) (pipeParentToChild pipeChildToParent : Nat × Nat) (after : Files α) :
    Prop where
  input : after 0 = files pipeParentToChild.1
  output : after 1 = files pipeChildToParent.2
  closed : ∀ n ∈ fourEnds pipeParentToChild pipeChildToParent, n ≠ 0 → n ≠ 1 → after n = none
  inherited : ∀ n, n ∉ fourEnds pipeParentToChild pipeChildToParent → n ≠ 0 → n ≠ 1 → after n = files n

section
variable {α : Type} {files after : Files α} {p c : Nat × Nat}

theorem childSteps : childFiles files p c = some after ↔ ∃ first second third, move files p.1 0 = some first ∧
    close first p.2 = some second ∧ move second c.2 1 = some third ∧ close third c.1 = some after := by
  simp only [childFiles,bind,Option.bind_eq_some_iff]
  constructor
  · intro ⟨first,one,second,two,third,three,four⟩
    exact ⟨first,second,third,one,two,three,four⟩
  · intro ⟨first,second,third,one,two,three,four⟩
    exact ⟨first,one,second,two,third,three,four⟩

theorem childWired (open_ : ∀ n ∈ fourEnds p c, files n ≠ none) (apart : (fourEnds p c).Nodup)
    (standard : 0 ∉ fourEnds p c) (output : 1 ≠ c.1 ∧ 1 ≠ c.2) :
    ∃ after, childFiles files p c = some after ∧ Wired files p c after := by
  have readable := Option.ne_none_iff_exists'.mp (open_ p.1 (by simp [fourEnds]))
  have writable := Option.ne_none_iff_exists'.mp (open_ p.2 (by simp [fourEnds]))
  have readable' := Option.ne_none_iff_exists'.mp (open_ c.1 (by simp [fourEnds]))
  have writable' := Option.ne_none_iff_exists'.mp (open_ c.2 (by simp [fourEnds]))
  simp only [fourEnds,List.nodup_cons,List.mem_cons,List.not_mem_nil,or_false,not_or] at apart standard
  obtain ⟨⟨p12,p1c1,p1c2⟩,⟨p2c1,p2c2⟩,c12,-⟩ := apart
  obtain ⟨p1,p2,c1,c2⟩ := standard
  obtain ⟨_,has⟩ := readable
  obtain ⟨first,one⟩ : ∃ first, move files p.1 0 = some first := ⟨_,moveSome has⟩
  obtain ⟨input,same⟩ := moved one (Ne.symm p1)
  obtain ⟨_,has⟩ := writable
  obtain ⟨second,two⟩ : ∃ second, close first p.2 = some second :=
    ⟨_,closeSome ((same p.2 (Ne.symm p12) (Ne.symm p2)).trans has)⟩
  -- in `second` the child has its input
  have kept (n : Nat) (n1 : n ≠ p.1) (n2 : n ≠ p.2) (n0 : n ≠ 0) : second n = files n :=
    (closedAtOther two n2).trans (same n n1 n0)
  obtain ⟨_,has⟩ := writable'
  obtain ⟨third,three⟩ : ∃ third, move second c.2 1 = some third :=
    ⟨_,moveSome ((kept c.2 (Ne.symm p1c2) (Ne.symm p2c2) (Ne.symm c2)).trans has)⟩
  obtain ⟨result,same'⟩ := moved three (Ne.symm output.2)
  obtain ⟨_,has⟩ := readable'
  have left : third c.1 = files c.1 :=
    (same' c.1 c12 (Ne.symm output.1)).trans (kept c.1 (Ne.symm p1c1) (Ne.symm p2c1) (Ne.symm c1))
  obtain ⟨after,four⟩ : ∃ after, close third c.1 = some after := ⟨_,closeSome (left.trans has)⟩
  refine ⟨after,childSteps.mpr ⟨first,second,third,one,two,three,four⟩,?_,?_,?_,?_⟩
  · rw [closedAtOther four c1,same' 0 c2 (by decide),closedAtOther two p2,input]
  · rw [closedAtOther four output.1,result,kept c.2 (Ne.symm p1c2) (Ne.symm p2c2) (Ne.symm c2)]
  · intro n mem n0 n1
    simp only [fourEnds,List.mem_cons,List.not_mem_nil,or_false] at mem
    obtain rfl | rfl | rfl | rfl := mem
    · have gone := closeKeepsFree two (movedAway one)
      exact closeKeepsFree four (moveKeepsFree three gone n1)
    · exact closeKeepsFree four (moveKeepsFree three (closedAt two) n1)
    · exact closedAt four
    · exact closeKeepsFree four (movedAway three)
  · intro n other n0 n1
    simp only [fourEnds,List.mem_cons,List.not_mem_nil,or_false,not_or] at other
    obtain ⟨notP1,notP2,notC1,notC2⟩ := other
    rw [closedAtOther four notC1,same' n notC2 n1,kept n notP1 notP2 n0]

/-- The child gets its pipes exactly where none of their ends is the standard input and no
end of the second pipe is the standard output. -/
theorem childWiredIff (open_ : ∀ n ∈ fourEnds p c, files n ≠ none) (apart : (fourEnds p c).Nodup) :
    (∃ after, childFiles files p c = some after ∧ Wired files p c after) ↔
      0 ∉ fourEnds p c ∧ 1 ≠ c.1 ∧ 1 ≠ c.2 := by
  constructor
  · intro ⟨after,runs,wired⟩
    obtain ⟨first,second,third,one,two,three,four⟩ := childSteps.mp runs
    have input : after 0 ≠ none := by
      rw [wired.input]
      exact open_ p.1 (by simp [fourEnds])
    have output : after 1 ≠ none := by
      rw [wired.output]
      exact open_ c.2 (by simp [fourEnds])
    -- what is free at some step stays free
    have zeroThird (free : second 0 = none) : False :=
      input (closeKeepsFree four (moveKeepsFree three free (by decide)))
    refine ⟨fun mem => ?_,fun same => ?_,fun same => ?_⟩
    · simp only [fourEnds,List.mem_cons,List.not_mem_nil,or_false] at mem
      obtain at_ | at_ | at_ | at_ := mem
      · exact zeroThird (closeKeepsFree two (at_ ▸ movedAway one))
      · exact zeroThird (at_ ▸ closedAt two)
      · exact input (at_ ▸ closedAt four)
      · exact input (closeKeepsFree four (at_ ▸ movedAway three))
    · exact output (same ▸ closedAt four)
    · exact output (closeKeepsFree four (same ▸ movedAway three))
  · intro ⟨standard,output⟩
    exact childWired open_ apart standard output

end

def sevenFiles : Files Nat := fun n => if n < 7 then some n else none

theorem pipeOnInputLost : (∃ after, childFiles sevenFiles (5,6) (3,4) = some after ∧ Wired sevenFiles (5,6) (3,4) after) ∧
    ¬ ∃ after, childFiles sevenFiles (0,4) (3,5) = some after ∧ Wired sevenFiles (0,4) (3,5) after := by
  constructor
  · exact (childWiredIff (by decide) (by decide)).mpr (by decide)
  · intro wired
    exact ((childWiredIff (by decide) (by decide)).mp wired).1 (by decide)

def Call.closes : Call → Option Int
  | .close d | .fclose d => some d
  | _ => none

def ServerLabel.owns {Event : Type} : ServerLabel Event → Resource → Bool
  | .client i _ _,.connection j => i = j
  | .console i k _,.pipeEnd j m | .console i k _,.file j m => i = j && k = m
  | _,_ => false

/- One thread after the other serves a slot, and no `close` takes away what another thread
has open. -/
def OwnCloses (host : Host) (maxClients : Nat) (s : Server DescriptorTable) (l : ServerLabel Empty) : Prop :=
  StartsAlone s l ∧ match (serverMachine host maxClients descriptorSystem).act s l with
    | none => True
    | some (call,_) => ∀ d ∈ call.closes, 0 ≤ d → ∀ what ∈ s.system d.toNat, l.owns what = true
instance (host : Host) (maxClients : Nat) (s : Server DescriptorTable) (l : ServerLabel Empty) :
    Decidable (OwnCloses host maxClients s l) := by
  unfold OwnCloses
  refine @instDecidableAnd _ _ inferInstance ?_
  split <;> infer_instance

def NewConsole.Pc.forking : NewConsole.Pc → Bool
  | .prompt | .returnDirectory | .assemble | .fork _ => true
  | _ => false

structure OwnPipe (table : DescriptorTable) (i k : Nat) (pipe : Nat × Nat) : Prop where
  readable : table pipe.1 = some (.pipeEnd i k)
  writable : table pipe.2 = some (.pipeEnd i k)
  apart : pipe.1 ≠ pipe.2

structure OwnPipes (table : DescriptorTable) (i k : Nat) (d : ThreadData) : Prop where
  output : OwnPipe table i k d.pipeChildToParent
  input : OwnPipe table i k d.pipeParentToChild
  apart : d.pipeParentToChild.1 ≠ d.pipeChildToParent.1 ∧ d.pipeParentToChild.1 ≠ d.pipeChildToParent.2 ∧
    d.pipeParentToChild.2 ≠ d.pipeChildToParent.1 ∧ d.pipeParentToChild.2 ≠ d.pipeChildToParent.2

structure Piped (i : Nat) (s : SlotState) (table : DescriptorTable) : Prop where
  lock : SlotLock s
  output : ∀ c ∈ s.clients, c.pc.hasOutput = true →
    OwnPipe table i s.consoles.length s.slot.console.pipeChildToParent
  input : ∀ c ∈ s.clients, c.pc.hasInput = true → OwnPipes table i s.consoles.length s.slot.console
  forking : ∀ (k : Nat) (console : NewConsole.Thread), s.consoles[k]? = some console → console.pc.forking = true →
    OwnPipes table i k s.slot.console

section
variable {table table' : DescriptorTable} {i k : Nat} {s : SlotState}

def KeepsPipe (i k : Nat) (table table' : DescriptorTable) : Prop :=
  ∀ n, table n = some (.pipeEnd i k) → table' n = some (.pipeEnd i k)

theorem ownPipeKept {pipe : Nat × Nat} (own : OwnPipe table i k pipe) (kept : KeepsPipe i k table table') :
    OwnPipe table' i k pipe :=
  ⟨kept _ own.readable,kept _ own.writable,own.apart⟩

theorem ownPipesKept {d : ThreadData} (own : OwnPipes table i k d) (kept : KeepsPipe i k table table') :
    OwnPipes table' i k d :=
  ⟨ownPipeKept own.output kept,ownPipeKept own.input kept,own.apart⟩

theorem ownPipesSame {d d' : ThreadData} (own : OwnPipes table i k d)
    (input : d'.pipeParentToChild = d.pipeParentToChild) (output : d'.pipeChildToParent = d.pipeChildToParent) :
    OwnPipes table i k d' := by
  obtain ⟨first,second,apart⟩ := own
  refine ⟨?_,?_,?_⟩
  · rw [output]; exact first
  · rw [input]; exact second
  · rw [input,output]; exact apart

theorem pipedFrame (piped : Piped i s table) (kept : ∀ k, KeepsPipe i k table table') : Piped i s table' :=
  ⟨piped.lock,fun c mem has => ownPipeKept (piped.output c mem has) (kept _),
    fun c mem has => ownPipesKept (piped.input c mem has) (kept _),
    fun k console found at_ => ownPipesKept (piped.forking k console found at_) (kept k)⟩

theorem forkingActive {pc : NewConsole.Pc} (forking : pc.forking = true) : pc.active = true := by
  cases pc <;> simp_all [NewConsole.Pc.forking,NewConsole.Pc.active]

theorem consoleForking {t s r call t' s'} (h : NewConsole.Steps t s r call t' s') :
    (t'.pc.forking = true → t.pc.forking = true ∧ call.closes = none) ∧
      s'.console.pipeParentToChild = s.console.pipeParentToChild ∧
      s'.console.pipeChildToParent = s.console.pipeChildToParent := by
  cases h <;> simp_all [NewConsole.Pc.forking,Call.closes]

theorem closesCall {actor : Actor} {call : Call} {r : Result} {d : Int} (closes : call.closes = some d)
    (h : descriptorSystem.call table actor call r = some table') : table' = table.closed d := by
  cases call with
  | close _ | fclose _ =>
    cases closes
    cases actor <;> exact (Option.some.inj h).symm
  | _ => cases closes

theorem callKeeps {actor : Actor} {call : Call} {r : Result} (h : descriptorSystem.call table actor call r = some table')
    {n : Nat} {what : Resource} (found : table n = some what) (stays : ∀ d ∈ call.closes, d ≠ n) :
    table' n = some what := by
  cases closes : call.closes with
  | some d =>
    rw [closesCall closes h]
    exact closedKeeps found fun same => stays d closes same.symm
  | none => exact callExtends h (by rintro d rfl; cases closes) (by rintro d rfl; cases closes) n what found

end

section
variable {host : Host} {maxClients i : Nat} {s : SlotState} {table table' : DescriptorTable}

theorem pipedListen {current current' : Nat} {pc pc' : SocketListen.Pc} {r : Result} {call : Call} {slot : Slot}
    (piped : Piped i s table) (h : SocketListen.Steps maxClients s.slot current pc r call pc' slot current')
    (lock : SlotLock {s with slot}) : Piped i {s with slot} table := by
  have same : slot.console.pipeParentToChild = s.slot.console.pipeParentToChild ∧
      slot.console.pipeChildToParent = s.slot.console.pipeChildToParent := by cases h <;> exact ⟨rfl,rfl⟩
  refine ⟨lock,fun c mem has => ?_,fun c mem has => ?_,fun k console found at_ => ?_⟩
  · dsimp only
    rw [same.2]
    exact piped.output c mem has
  · exact ownPipesSame (piped.input c mem has) same.1 same.2
  · exact ownPipesSame (piped.forking k console found at_) same.1 same.2

theorem pipedStart {j : Nat} (piped : Piped i s table)
    (lock : SlotLock {s with clients := s.clients ++ [NewClient.started j]}) :
    Piped i {s with clients := s.clients ++ [NewClient.started j]} table := by
  refine ⟨lock,fun c mem has => ?_,fun c mem has => ?_,piped.forking⟩
  all_goals rcases List.mem_append.mp mem with old | new
  · exact piped.output c old has
  · rw [List.mem_singleton.mp new] at has
    cases has
  · exact piped.input c old has
  · rw [List.mem_singleton.mp new] at has
    cases has

theorem preparingNoFork {t k : Nat} {thread : NewClient.Thread} {console : NewConsole.Thread} (lock : SlotLock s)
    (here : s.clients[t]? = some thread) (preparing : thread.pc.preparing = true) (found : s.consoles[k]? = some console) :
    console.pc.forking = false := by
  cases forking : console.pc.forking with
  | false => rfl
  | true =>
    cases (lock.alone t thread k console here preparing found).symm.trans (forkingActive forking)

theorem pipedClient {t : Nat} {r : Result} {call : Call} {thread next : NewClient.Thread} {slot : Slot}
    (piped : Piped i s table) (kept : ∀ k, KeepsPipe i k table table') (here : s.clients[t]? = some thread)
    (step : NewClient.Steps host thread s.slot r call next slot)
    (handled : descriptorSystem.call table (.client i s.consoles.length) call r = some table')
    (lock : SlotLock ⟨slot,s.clients.set t next,s.consoles⟩) :
    Piped i ⟨slot,s.clients.set t next,s.consoles⟩ table' := by
  have live := clientNotDone step
  have mem : thread ∈ s.clients := List.mem_of_getElem? here
  have sole (c : NewClient.Thread) (found : c ∈ s.clients.set t next) (has : c.pc.hasOutput = true) : c = next :=
    onlyLiveNext piped.lock here live found fun stopped => by simp [stopped,NewClient.Pc.hasOutput] at has
  have fewer (preparing : thread.pc.preparing = true) (k : Nat) (console : NewConsole.Thread)
      (found : s.consoles[k]? = some console) (forking : console.pc.forking = true) : False := by
    cases (preparingNoFork piped.lock here preparing found).symm.trans forking
  have same (input : slot.console.pipeParentToChild = s.slot.console.pipeParentToChild)
      (output : slot.console.pipeChildToParent = s.slot.console.pipeChildToParent)
      (hasOutput : next.pc.hasOutput = true → thread.pc.hasOutput = true)
      (hasInput : next.pc.hasInput = true → thread.pc.hasInput = true) :
      Piped i ⟨slot,s.clients.set t next,s.consoles⟩ table' := by
    refine ⟨lock,fun c found has => ?_,fun c found has => ?_,fun k console found at_ => ?_⟩
    · obtain rfl := sole c found has
      dsimp only
      rw [output]
      exact ownPipeKept (piped.output thread mem (hasOutput has)) (kept _)
    · obtain rfl := sole c found (inputOutput has)
      exact ownPipesSame (ownPipesKept (piped.input thread mem (hasInput has)) (kept _)) input output
    · exact ownPipesSame (ownPipesKept (piped.forking k console found at_) (kept k)) input output
  rcases clientDescriptors step with ⟨a,b,at_,then_,rfl,rfl,rfl⟩ | ⟨a,b,at_,then_,rfl,rfl,rfl⟩ |
      ⟨at_,then_,rfl,rfl,rfl⟩ | ⟨at_,then_,rfl,rfl⟩ | ⟨at_,then_,rfl,rfl⟩ |
      ⟨off,noClose,hasOutput,hasInput,client,output,input,noClosing,noFclose⟩
  · simp only [descriptorSystem] at handled
    split at handled <;> try contradiction
    rename_i fresh
    cases Option.some.inj handled
    refine ⟨lock,fun c found has => ?_,fun c found has => ?_,fun k console found forking => ?_⟩
    · have differ : a ≠ b := fun equal => by
        have free := fresh.2.1
        rw [← equal] at free
        simp [DescriptorTable.opened] at free
      exact ⟨by simp [DescriptorTable.opened,differ],by simp [DescriptorTable.opened],differ⟩
    · obtain rfl := sole c found (inputOutput has)
      rw [then_] at has
      cases has
    · exact (fewer (by rw [at_]; rfl) k console found forking).elim
  · have first := piped.output thread mem (by rw [at_]; rfl)
    simp only [descriptorSystem] at handled
    split at handled <;> try contradiction
    rename_i fresh
    cases Option.some.inj handled
    have differ : a ≠ b := fun equal => by
      have free := fresh.2.1
      rw [← equal] at free
      simp [DescriptorTable.opened] at free
    have other (n : Nat) (taken : table n ≠ none) : a ≠ n ∧ b ≠ n := by
      refine ⟨fun equal => taken (equal ▸ fresh.1.1),fun equal => taken ?_⟩
      have free := fresh.2.1
      rw [equal] at free
      by_cases same : n = a
      · rw [same]
        exact fresh.1.1
      · rwa [DescriptorTable.opened,Function.update_of_ne same] at free
    have readable := other _ (by rw [first.readable]; simp)
    have writable := other _ (by rw [first.writable]; simp)
    have both : OwnPipes ((table.opened a (.pipeEnd i s.consoles.length)).opened b (.pipeEnd i s.consoles.length)) i
        s.consoles.length {s.slot.console with pipeParentToChild := (a,b)} :=
      ⟨ownPipeKept first (kept _),⟨by simp [DescriptorTable.opened,differ],by simp [DescriptorTable.opened],differ⟩,
        readable.1,writable.1,readable.2,writable.2⟩
    refine ⟨lock,fun c found has => both.output,fun c found has => both,fun k console found forking => ?_⟩
    exact (fewer (by rw [at_]; rfl) k console found forking).elim
  · exact same rfl rfl (by simp [then_,NewClient.Pc.hasOutput]) (by simp [then_,NewClient.Pc.hasInput])
  · exact same rfl rfl (by simp [then_,NewClient.Pc.hasOutput]) (by simp [then_,NewClient.Pc.hasInput])
  · exact same rfl rfl (by simp [then_,NewClient.Pc.hasOutput]) (by simp [then_,NewClient.Pc.hasInput])
  · exact same input output hasOutput hasInput

theorem pipedCreated {t : Nat} {thread next : NewClient.Thread} (piped : Piped i s table)
    (here : s.clients[t]? = some thread) (at_ : thread.pc = .create) (then_ : next.pc = .receive)
    (lock : SlotLock ⟨s.slot,s.clients.set t next,s.consoles ++ [NewConsole.created thread.socketID]⟩) :
    Piped i ⟨s.slot,s.clients.set t next,s.consoles ++ [NewConsole.created thread.socketID]⟩ table := by
  have own := piped.input thread (List.mem_of_getElem? here) (by rw [at_]; rfl)
  have none (c : NewClient.Thread) (found : c ∈ s.clients.set t next) (has : c.pc.hasOutput = true) : False := by
    have only := onlyLiveNext piped.lock here (by simp [at_]) found fun stopped => by
      simp [stopped,NewClient.Pc.hasOutput] at has
    rw [only,then_] at has
    cases has
  refine ⟨lock,fun c found has => (none c found has).elim,fun c found has => (none c found (inputOutput has)).elim,
    fun k console found forking => ?_⟩
  rcases pushFound found with ⟨rfl,-⟩ | ⟨-,old⟩
  · exact own
  · have quiet := preparingNoFork piped.lock here (by rw [at_]; rfl) old
    cases quiet.symm.trans forking

theorem pipedConsole {k : Nat} {r : Result} {call : Call} {thread next : NewConsole.Thread} {slot : Slot}
    (piped : Piped i s table) (kept : ∀ j, j ≠ k → KeepsPipe i j table table') (here : s.consoles[k]? = some thread)
    (step : NewConsole.Steps thread s.slot r call next slot)
    (handled : descriptorSystem.call table (.console i k) call r = some table')
    (lock : SlotLock ⟨slot,s.clients,s.consoles.set k next⟩) :
    Piped i ⟨slot,s.clients,s.consoles.set k next⟩ table' := by
  obtain ⟨forking,input,output⟩ := consoleForking step
  have older : k < s.consoles.length := (List.getElem?_eq_some_iff.mp here).1
  refine ⟨lock,fun c mem has => ?_,fun c mem has => ?_,fun j console found at_ => ?_⟩
  · dsimp only
    rw [output,List.length_set]
    exact ownPipeKept (piped.output c mem has) (kept _ (by omega))
  · dsimp only
    rw [List.length_set]
    exact ownPipesSame (ownPipesKept (piped.input c mem has) (kept _ (by omega))) input output
  · rcases setFound here found with ⟨rfl,rfl⟩ | ⟨differ,old⟩
    · obtain ⟨before,none⟩ := forking at_
      refine ownPipesSame (ownPipesKept (piped.forking j thread here before) fun n there => ?_) input output
      exact callKeeps handled there (by simp [none])
    · exact ownPipesSame (ownPipesKept (piped.forking j console old at_) (kept j differ)) input output

end

structure ForksOwn (s : Server DescriptorTable) : Prop where
  standard : s.system 0 = some .other ∧ s.system 1 = some .other
  slots : ∀ i, Piped i (s.slots i) s.system

section
variable {host : Host} {maxClients : Nat} {s s' : Server DescriptorTable} {l : ServerLabel Empty} {call : Call}

theorem serverKeeps (h : ServerStep host maxClients descriptorSystem s l call s')
    (own : ∀ d ∈ call.closes, 0 ≤ d → ∀ what ∈ s.system d.toNat, l.owns what = true) {n : Nat} {what : Resource}
    (found : s.system n = some what) (other : l.owns what = false) : s'.system n = some what := by
  have stays : ∀ d ∈ call.closes, d ≠ n := by
    intro d closes same
    have owns := own d closes (by omega) what (by rw [same]; exact found)
    cases other.symm.trans owns
  cases h with
  | listen step handled | client step handled | console step handled => exact callKeeps handled found stays
  | start waiting => exact found
  | @system e system happened => nomatch e

theorem pipesElsewhere {i : Nat} (forks : ForksOwn s) (others : ∀ j, j ≠ i → s'.slots j = s.slots j)
    (kept : ∀ j, j ≠ i → ∀ k, KeepsPipe j k s.system s'.system) (acting : Piped i (s'.slots i) s'.system) (j : Nat) :
    Piped j (s'.slots j) s'.system := by
  by_cases here : j = i
  · rw [here]
    exact acting
  · rw [others j here]
    exact pipedFrame (forks.slots j) (kept j here)

theorem forksStep (forks : ForksOwn s) (ok : OwnCloses host maxClients s l)
    (act : (serverMachine host maxClients descriptorSystem).act s l = some (call,s')) : ForksOwn s' := by
  have h := serverStep act
  obtain ⟨alone,own⟩ := ok
  rw [act] at own
  have locked := serverLock (fun i => (forks.slots i).lock) alone h
  have keeps {n : Nat} {what : Resource} : s.system n = some what → l.owns what = false → s'.system n = some what :=
    serverKeeps h own
  have standard : s'.system 0 = some .other ∧ s'.system 1 = some .other := by
    have nobody : l.owns .other = false := by cases l <;> rfl
    exact ⟨keeps forks.standard.1 nobody,keeps forks.standard.2 nobody⟩
  refine ⟨standard,?_⟩
  cases l with
  | system e => nomatch e
  | listen r =>
    obtain ⟨_,others⟩ := slotOfServer h rfl
    have kept (j k : Nat) : KeepsPipe j k s.system s'.system := fun n found => keeps found rfl
    refine pipesElsewhere forks others (fun j _ => kept j) ?_
    have lock := locked s.listener.slot
    cases h with
    | listen step handled =>
      simp only [Function.update_self] at lock ⊢
      exact pipedFrame (pipedListen (forks.slots _) step lock) (kept _)
  | start =>
    obtain ⟨_,others⟩ := slotOfServer h rfl
    have kept (j k : Nat) : KeepsPipe j k s.system s'.system := fun n found => keeps found rfl
    refine pipesElsewhere forks others (fun j _ => kept j) ?_
    have lock := locked s.current
    cases h with
    | start waiting =>
      simp only [Function.update_self] at lock ⊢
      exact pipedStart (forks.slots _) lock
  | client i t r =>
    obtain ⟨_,others⟩ := slotOfServer h rfl
    have kept (j k : Nat) : KeepsPipe j k s.system s'.system := fun n found => keeps found rfl
    refine pipesElsewhere forks others (fun j _ => kept j) ?_
    have lock := locked i
    cases h with
    | client step handled =>
      simp only [Function.update_self] at lock ⊢
      cases step with
      | client here step noThread joined => exact pipedClient (forks.slots i) (kept i) here step handled lock
      | created here at_ =>
        exact pipedFrame (pipedCreated (forks.slots i) here at_ rfl lock) (kept i)
  | console i k r =>
    obtain ⟨_,others⟩ := slotOfServer h rfl
    have kept (j m : Nat) (other : j ≠ i ∨ m ≠ k) : KeepsPipe j m s.system s'.system := by
      intro n found
      refine keeps found ?_
      rcases other with slot | console
      · simp [ServerLabel.owns,Ne.symm slot]
      · simp [ServerLabel.owns,Ne.symm console]
    refine pipesElsewhere forks others (fun j other m => kept j m (.inl other)) ?_
    have lock := locked i
    cases h with
    | console step handled =>
      simp only [Function.update_self] at lock ⊢
      cases step with
      | console here step =>
        exact pipedConsole (forks.slots i) (fun j other => kept i j (.inr other)) here step handled lock

theorem forkForks {thread next : NewConsole.Thread} {slot slot' : Slot} {r : Result} {command : Bytes}
    (step : NewConsole.Steps thread slot r (.fork command) next slot') : thread.pc.forking = true := by
  cases step with
  | forked at_ | notForked at_ =>
    rw [at_]
    rfl

theorem unstartedForks (unstarted : Unstarted s) (standard : s.system 0 = some .other ∧ s.system 1 = some .other) :
    ForksOwn s := by
  refine ⟨standard,fun i => ?_⟩
  have none := unstarted.threads i
  refine ⟨noThreadsLock none,?_,?_,?_⟩ <;> simp [none.clients,none.consoles]

def ForkedWell (s : Server DescriptorTable) (i k : Nat) : Prop :=
  let d := (s.slots i).slot.console
  ∃ after, childFiles s.system d.pipeParentToChild d.pipeChildToParent = some after ∧
    Wired s.system d.pipeParentToChild d.pipeChildToParent after ∧
    after 0 = some (.pipeEnd i k) ∧ after 1 = some (.pipeEnd i k)

theorem forkWired {i k : Nat} {thread : NewConsole.Thread} (forks : ForksOwn s)
    (here : (s.slots i).consoles[k]? = some thread) (forking : thread.pc.forking = true) : ForkedWell s i k := by
  obtain ⟨output,input,apart⟩ := (forks.slots i).forking k thread here forking
  have taken (n : Nat) (mem : n ∈ fourEnds (s.slots i).slot.console.pipeParentToChild
      (s.slots i).slot.console.pipeChildToParent) : s.system n = some (.pipeEnd i k) := by
    simp only [fourEnds,List.mem_cons,List.not_mem_nil,or_false] at mem
    obtain rfl | rfl | rfl | rfl := mem
    · exact input.readable
    · exact input.writable
    · exact output.readable
    · exact output.writable
  have notStandard (n : Nat) (mem : n ∈ fourEnds (s.slots i).slot.console.pipeParentToChild
      (s.slots i).slot.console.pipeChildToParent) : n ≠ 0 ∧ n ≠ 1 := by
    have own := taken n mem
    refine ⟨fun same => ?_,fun same => ?_⟩
    · rw [same,forks.standard.1] at own
      cases own
    · rw [same,forks.standard.2] at own
      cases own
  have distinct : (fourEnds (s.slots i).slot.console.pipeParentToChild
      (s.slots i).slot.console.pipeChildToParent).Nodup := by simp [fourEnds,input.apart,output.apart,apart]
  have readable : 1 ≠ (s.slots i).slot.console.pipeChildToParent.1 :=
    (notStandard _ (by simp [fourEnds])).2.symm
  have writable : 1 ≠ (s.slots i).slot.console.pipeChildToParent.2 :=
    (notStandard _ (by simp [fourEnds])).2.symm
  have open_ (n : Nat) (mem : n ∈ fourEnds (s.slots i).slot.console.pipeParentToChild
      (s.slots i).slot.console.pipeChildToParent) : s.system n ≠ none := by
    rw [taken n mem]
    simp
  obtain ⟨after,runs,wired⟩ := childWired open_ distinct
    (fun mem => (notStandard 0 mem).1 rfl) ⟨readable,writable⟩
  exact ⟨after,runs,wired,wired.input.trans input.readable,wired.output.trans output.writable⟩

end

/-- Whatever the sessions do at the same time: while one thread after the other serves a slot
and no `close` takes another thread's descriptor, every child that is forked comes to `execlp`, and there it reads from and writes
to the pipes of its own session and has no other end of them. -/
theorem childrenWired {host : Host} {maxClients i k : Nat} {s t u : Server DescriptorTable} {pid : Nat}
    {command : Bytes} (unstarted : Unstarted s) (standard : s.system 0 = some .other ∧ s.system 1 = some .other)
    (run : Reaches (serverMachine host maxClients descriptorSystem) (OwnCloses host maxClients) s t)
    (act : (serverMachine host maxClients descriptorSystem).act t (.console i k (.process pid)) =
      some (.fork command,u)) : ForkedWell t i k := by
  have forks : ForksOwn t := invariantOfStep (fun forks ok act => forksStep forks ok act) run
    (unstartedForks unstarted standard)
  have step := serverStep act
  cases step with
  | console step handled =>
    cases step with
    | console here step =>
      exact forkWired forks here (forkForks step)

def catForks : List (ServerLabel Empty) :=
  [.listen .done] ++ accepts 4 ++ [.start] ++
    ([SlotLabel.client 0 (.path (ascii "/"))] ++ launches 0 0 "Mcat" ++
      consoleDoes 0 [.done,.done,.done]).map (SlotLabel.onServer 0)

theorem catWired : ∃ t u, run (serverMachine plainHost 19 descriptorSystem) (OwnCloses plainHost 19)
      (booted standardTable) catForks = some t ∧
    (serverMachine plainHost 19 descriptorSystem).act t (.console 0 0 (.process 100)) =
      some (.fork (ascii "cat 2>&1"),u) ∧
    ForkedWell t 0 0 := by
  have ends : ((run (serverMachine plainHost 19 descriptorSystem) (OwnCloses plainHost 19)
      (booted standardTable) catForks).bind fun t =>
        ((serverMachine plainHost 19 descriptorSystem).act t (.console 0 0 (.process 100))).map Prod.fst) =
      some (.fork (ascii "cat 2>&1")) := by decide +kernel
  obtain ⟨t,ran,last⟩ := Option.bind_eq_some_iff.mp ends
  obtain ⟨⟨call,u⟩,act,rfl⟩ := Option.map_eq_some_iff.mp last
  exact ⟨t,u,ran,act,childrenWired (bootedUnstarted standardTable) ⟨rfl,rfl⟩ (runReaches ran) act⟩

end RemoteTerminal
