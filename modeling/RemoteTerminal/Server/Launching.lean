import RemoteTerminal.Server.Descriptors

/-! What starting a process leaves behind when a system call fails. `NewClient` opens two
pipes, sets `pipeActive` and creates the console thread, and undoes nothing. -/
namespace RemoteTerminal
open ByteStrings LabelledRuns EntryTable

structure Launch where
  failed : Bool
  ends : Nat
  deriving DecidableEq, Repr

def Call.opens : Call → Bool
  | .pipe | .createConsole => true
  | _ => false

def Call.ends : Call → Nat
  | .send _ .endOfTransmission => 1
  | _ => 0

def noteLaunch (t : Nat) (memo : Launch) (_ : SlotState) (l : SlotLabel) (call : Call) (_ : SlotState) : Launch where
  failed := memo.failed || (decide (l = .client t .failed) && call.opens)
  ends := memo.ends+call.ends

def Result.receives : Result → Bool
  | .received _ => true
  | _ => false

def Alone (t : Nat) (s : SlotState × Launch) : SlotLabel → Prop
  | .client u r => u = t ∧ r.receives = false
  | .console k _ => ∀ console ∈ s.1.consoles[k]?, console.pc.active = false
  | .listen _ _ | .start _ => True
instance (t : Nat) (s : SlotState × Launch) : (l : SlotLabel) → Decidable (Alone t s l)
  | .client _ _ | .console _ _ => by dsimp only [Alone]; infer_instance
  | .listen _ _ | .start _ => isTrue trivial

def NewClient.Pc.settled : NewClient.Pc → Bool
  | .receive | .leave | .closeSocket | .freeSlot | .exit | .done => true
  | _ => false

def LaunchStage (host : Host) (k : Nat) (s : SlotState) (memo : Launch) : NewClient.Pc → Prop
  | .message p => s.slot.console.exitCode = 0 ∧ NewClient.refused host p = false ∧
      NewClient.changesDirectory p = false ∧
      s.slot.console.pipeActive = false ∧ memo = ⟨false,0⟩ ∧ s.consoles.length = k
  | .route _ | .launch _ | .openOutput | .openInput | .activate =>
    s.slot.console.pipeActive = false ∧ memo = ⟨false,0⟩ ∧ s.consoles.length = k
  | .create => s.slot.console.pipeActive = true ∧ memo = ⟨false,0⟩ ∧ s.consoles.length = k
  | .receive =>
    (memo.failed = false ∧ s.slot.console.pipeActive = true ∧
      ∃ console, s.consoles[k]? = some console ∧ console.pc.active = true) ∨
    (memo = ⟨true,0⟩ ∧ s.slot.console.pipeActive = false ∧ s.consoles.length = k)
  | .createFailed | .finish false | .leave | .closeSocket | .freeSlot | .exit | .done =>
    memo.failed = true ∧ s.slot.console.pipeActive = true ∧ s.consoles.length = k
  | _ => False

theorem stageFrame {host k s s' memo pc} (stage : LaunchStage host k s memo pc)
    (exitCode : s.slot.console.exitCode = 0 → s'.slot.console.exitCode = 0)
    (pipeActive : s'.slot.console.pipeActive = s.slot.console.pipeActive)
    (size : s'.consoles.length = s.consoles.length)
    (working : ∀ console, s.consoles[k]? = some console → console.pc.active = true →
      s'.consoles[k]? = some console) : LaunchStage host k s' memo pc := by
  cases pc with
  | receive =>
    rcases stage with ⟨well,active,console,found,works⟩ | ⟨failed,inactive,short⟩
    · exact .inl ⟨well,pipeActive.trans active,console,working console found works,works⟩
    · exact .inr ⟨failed,pipeActive.trans inactive,size.trans short⟩
  | finish again => cases again <;> simp_all [LaunchStage]
  | _ => simp_all [LaunchStage]

theorem listenExitCode {maxClients s current pc r call pc' s' current'}
    (h : SocketListen.Steps maxClients s current pc r call pc' s' current') (zero : s.console.exitCode = 0) :
    s'.console.exitCode = 0 := by
  cases h <;> simp_all

theorem listenEnds {maxClients s current pc r call pc' s' current'}
    (h : SocketListen.Steps maxClients s current pc r call pc' s' current') : call.ends = 0 := by
  cases h <;> rfl

theorem inactiveConsole {t s r call t' s'} (h : NewConsole.Steps t s r call t' s') (inactive : t.pc.active = false) :
    s' = s ∧ call.ends = 0 := by
  cases h <;> simp_all [NewConsole.Pc.active,Call.ends]

theorem stageClient {host t k s thread r call next slot memo} (stage : LaunchStage host k s memo thread.pc)
    (step : NewClient.Steps host thread s.slot r call next slot) (quiet : r.receives = false)
    (noThread : ∀ j, r ≠ .thread j) : LaunchStage host k ⟨slot,s.clients.set t next,s.consoles⟩
      (noteLaunch t memo s (.client t r) call ⟨slot,s.clients.set t next,s.consoles⟩) next.pc := by
  cases step <;> simp_all [LaunchStage,noteLaunch,Call.opens,Call.ends,Result.receives]

theorem stageStep {host maxClients t k s thread l call s' memo} (here : s.clients[t]? = some thread)
    (stage : LaunchStage host k s memo thread.pc) (alone : Alone t (s,memo) l)
    (step : SlotStep host maxClients s l call s') : ∃ thread', s'.clients[t]? = some thread' ∧
      LaunchStage host k s' (noteLaunch t memo s l call s') thread'.pc := by
  cases step with
  | @listen pc r _ _ slot _ step =>
    have noted : noteLaunch t memo s (.listen pc r) call {s with slot} = memo := by
      simp [noteLaunch,listenEnds step]
    rw [noted]
    exact ⟨thread,here,stageFrame stage (listenExitCode step) (listenPipeActive step) rfl (fun _ found _ => found)⟩
  | @start j =>
    have noted : noteLaunch t memo s (.start j) .memory
        {s with clients := s.clients ++ [NewClient.started j]} = memo := by simp [noteLaunch,Call.ends]
    rw [noted]
    exact ⟨thread,pushKeeps here,stageFrame stage id rfl rfl (fun _ found _ => found)⟩
  | @client u r _ call next slot found step noThread =>
    obtain ⟨rfl,quiet⟩ := alone
    cases Option.some.inj (found.symm.trans here)
    exact ⟨next,by simp [setAt here],stageClient stage step quiet noThread⟩
  | @created u _ found at_ =>
    obtain ⟨rfl,-⟩ := alone
    cases Option.some.inj (found.symm.trans here)
    rw [at_] at stage
    obtain ⟨active,rfl,size⟩ := stage
    refine ⟨{thread with pc := .receive,newConsoleThread := some s.consoles.length},by simp [setAt here],
      Or.inl ⟨by simp [noteLaunch],active,NewConsole.created thread.socketID,?_,rfl⟩⟩
    simp [← size]
  | @console j r other call next slot found step =>
    obtain ⟨rfl,quiet⟩ := inactiveConsole step (alone other found)
    have noted : noteLaunch t memo s (.console j r) call ⟨s.slot,s.clients,s.consoles.set j next⟩ = memo := by
      simp [noteLaunch,quiet]
    refine ⟨thread,here,?_⟩
    rw [noted]
    refine stageFrame stage id rfl (by simp) (fun console there works => ?_)
    have differ : k ≠ j := by
      rintro rfl
      have idle := alone other found
      rw [Option.some.inj (found.symm.trans there),works] at idle
      contradiction
    simp [setAt found,differ,there]

theorem stageRun {host maxClients t k s s' thread memo memo'} (here : s.clients[t]? = some thread)
    (stage : LaunchStage host k s memo thread.pc)
    (run : Reaches (watch (slotMachine host maxClients) (noteLaunch t)) (Alone t) (s,memo) (s',memo')) :
    ∃ thread', s'.clients[t]? = some thread' ∧ LaunchStage host k s' memo' thread'.pc := by
  refine invariantOfStep (I := fun u : SlotState × Launch => ∃ thread, u.1.clients[t]? = some thread ∧
    LaunchStage host k u.1 u.2 thread.pc) ?_ run ⟨thread,here,stage⟩
  rintro ⟨u,memo⟩ l call ⟨v,memo'⟩ ⟨thread,here,stage⟩ alone act
  obtain ⟨act,noted⟩ := watchAct act
  obtain ⟨thread',there,after⟩ := stageStep here stage alone (slotStep act)
  exact ⟨thread',there,by rw [noted]; exact after⟩

theorem stageWell {host k s memo pc} (stage : LaunchStage host k s memo pc) (settled : pc.settled = true)
    (well : memo.failed = false) :
    s.slot.console.pipeActive = true ∧ ∃ console, s.consoles[k]? = some console ∧ console.pc.active = true := by
  cases pc with
  | receive =>
    rcases stage with ⟨-,working⟩ | ⟨failed,-⟩
    · exact working
    · rw [failed] at well
      contradiction
  | _ => simp_all [LaunchStage,NewClient.Pc.settled]

theorem stageShort {host k s memo pc} (stage : LaunchStage host k s memo pc) (settled : pc.settled = true)
    (failed : ¬ memo.failed = false) : s.consoles.length = k := by
  cases pc with
  | receive =>
    rcases stage with ⟨well,-⟩ | ⟨-,-,short⟩
    · exact (failed well).elim
    · exact short
  | _ => simp_all [LaunchStage,NewClient.Pc.settled]

/- A pipe that fails is not followed by an end code. -/
theorem stageInactive {host k s memo pc} (stage : LaunchStage host k s memo pc) (settled : pc.settled = true)
    (inactive : s.slot.console.pipeActive = false) (once : memo.ends = 1) : memo.failed = false := by
  cases pc with
  | receive =>
    rcases stage with ⟨well,-⟩ | ⟨failed,-⟩
    · exact well
    · rw [failed] at once
      contradiction
  | _ => simp_all [LaunchStage,NewClient.Pc.settled]

def LaunchedOrUndone (i : Nat) (before after : Server DescriptorTable) (memo : Launch) : Prop :=
  let k := (before.slots i).consoles.length
  ((after.slots i).slot.console.pipeActive = true ∧
    ∃ console, (after.slots i).consoles[k]? = some console ∧ console.pc.active = true) ∨
  ((after.slots i).slot.console.pipeActive = false ∧
    (∀ n, after.system n = some (.pipeEnd i k) → before.system n = some (.pipeEnd i k)) ∧ memo.ends = 1)

structure RoutedToNew (host : Host) (i t : Nat) (s : Server DescriptorTable) (p : Bytes) : Prop where
  message : ∃ thread, (s.slots i).clients[t]? = some thread ∧ thread.pc = .message p
  exitCode : (s.slots i).slot.console.exitCode = 0
  pipeActive : (s.slots i).slot.console.pipeActive = false
  allowed : NewClient.refused host p = false
  other : NewClient.changesDirectory p = false

/-- Starting a process is all-or-nothing exactly where neither pipe nor the thread failed,
whatever the other sessions do meanwhile. -/
theorem launchAllOrNothingIff {host maxClients i t p} {before after : Server DescriptorTable} {memo : Launch}
    {thread : NewClient.Thread} (routed : RoutedToNew host i t before p)
    (run : Reaches (watch (serverMachine host maxClients descriptorSystem) (noteOfSlot i (noteLaunch t)))
      (AllowedOnSlot i (Alone t)) (before,⟨false,0⟩) (after,memo))
    (found : (after.slots i).clients[t]? = some thread) (settled : thread.pc.settled = true) :
    LaunchedOrUndone i before after memo ↔ memo.failed = false := by
  obtain ⟨⟨first,here,at_⟩,exitCode,pipeActive,allowed,other⟩ := routed
  have stage : LaunchStage host (before.slots i).consoles.length (before.slots i) ⟨false,0⟩ first.pc := by
    rw [at_]
    exact ⟨exitCode,allowed,other,pipeActive,rfl,rfl⟩
  obtain ⟨last,there,ends⟩ := stageRun here stage (slotRun run)
  cases Option.some.inj (there.symm.trans found)
  unfold LaunchedOrUndone
  constructor
  · rintro (⟨active,console,works,-⟩ | ⟨inactive,-,once⟩)
    · by_contra failed
      have short : (after.slots i).consoles.length = (before.slots i).consoles.length := stageShort ends settled failed
      rw [List.getElem?_eq_none (by omega)] at works
      contradiction
    · exact stageInactive ends settled inactive once
  · intro well
    exact .inl (stageWell ends settled well)

def listingAsked : Option (Server DescriptorTable) :=
  run (serverMachine plainHost 19 descriptorSystem) free (booted standardTable) ([.listen .done] ++ accepts 4 ++
    [.start] ++ [SlotLabel.client 0 (.path (ascii "/")),.client 0 (heard "Mls")].map (SlotLabel.onServer 0))

def attempted (results : List Result) : Option (Server DescriptorTable × Server DescriptorTable × Launch) := do
  let before ← listingAsked
  let (after,memo) ← run (watch (serverMachine plainHost 19 descriptorSystem) (noteOfSlot 0 (noteLaunch 0)))
    (AllowedOnSlot 0 (Alone 0)) (before,⟨false,0⟩) ((clientDoes 0 results).map (SlotLabel.onServer 0))
  some (before,after,memo)

structure Attempt (before after : Server DescriptorTable) (memo : Launch) : Prop where
  opened : Reaches (serverMachine plainHost 19 descriptorSystem) free (booted standardTable) before
  routed : RoutedToNew plainHost 0 0 before (ascii "ls")
  run : Reaches (watch (serverMachine plainHost 19 descriptorSystem) (noteOfSlot 0 (noteLaunch 0)))
    (AllowedOnSlot 0 (Alone 0)) (before,⟨false,0⟩) (after,memo)

theorem attempts {results before after memo} (h : attempted results = some (before,after,memo)) :
    Attempt before after memo := by
  simp only [attempted,bind,Option.bind_eq_some_iff] at h
  obtain ⟨start,listed,⟨last,memo'⟩,ran,same⟩ := h
  cases Option.some.inj same
  have pcs : (listingAsked.bind fun s => (s.slots 0).clients[0]?.map fun c => c.pc) = some (.message (ascii "ls")) := by
    decide +kernel
  have idle : (listingAsked.map fun s => ((s.slots 0).slot.console.exitCode,(s.slots 0).slot.console.pipeActive)) =
      some (0,false) := by decide +kernel
  rw [listed] at pcs idle
  obtain ⟨thread,here,at_⟩ := Option.map_eq_some_iff.mp pcs
  have idle := Option.some.inj idle
  exact ⟨runReaches listed,⟨⟨thread,here,at_⟩,congrArg Prod.fst idle,congrArg Prod.snd idle,by decide +kernel,
    by decide +kernel⟩,runReaches ran⟩

def seenOf (attempt : Server DescriptorTable × Server DescriptorTable × Launch) :
    Option NewClient.Pc × Bool × Launch × Option Resource × Option Resource :=
  let (before,after,memo) := attempt
  ((after.slots 0).clients[0]?.map fun c => c.pc,(after.slots 0).slot.console.pipeActive,memo,before.system 5,
    after.system 5)

theorem launchSucceeds : ∃ before after memo, Attempt before after memo ∧ LaunchedOrUndone 0 before after memo := by
  have seen : (attempted [.done,.done,.done,.descriptors 5 6,.descriptors 7 8,.done,.thread 0]).map seenOf =
      some (some .receive,true,⟨false,0⟩,none,some (.pipeEnd 0 0)) := by decide +kernel
  obtain ⟨⟨before,after,memo⟩,ran,observed⟩ := Option.map_eq_some_iff.mp seen
  simp only [seenOf,Prod.mk.injEq] at observed
  obtain ⟨pc,-,rfl,-⟩ := observed
  obtain ⟨thread,here,at_⟩ := Option.map_eq_some_iff.mp pc
  have attempt := attempts ran
  exact ⟨before,after,_,attempt,
    (launchAllOrNothingIff attempt.routed attempt.run here (by rw [at_]; rfl)).mpr rfl⟩

theorem launchLeaksPipe : ∃ before after memo, Attempt before after memo ∧
    (∃ thread, (after.slots 0).clients[0]? = some thread ∧ thread.pc.settled = true) ∧
    ¬ LaunchedOrUndone 0 before after memo := by
  have seen : (attempted [.done,.done,.done,.descriptors 5 6,.failed]).map seenOf =
      some (some .receive,false,⟨true,0⟩,none,some (.pipeEnd 0 0)) := by decide +kernel
  obtain ⟨⟨before,after,memo⟩,ran,observed⟩ := Option.map_eq_some_iff.mp seen
  simp only [seenOf,Prod.mk.injEq] at observed
  obtain ⟨pc,inactive,rfl,closed,open_⟩ := observed
  obtain ⟨thread,here,at_⟩ := Option.map_eq_some_iff.mp pc
  refine ⟨before,after,_,attempts ran,⟨thread,here,by rw [at_]; rfl⟩,?_⟩
  rintro (⟨active,-⟩ | ⟨-,undone,-⟩)
  · rw [inactive] at active
    contradiction
  · have size : (before.slots 0).consoles.length = 0 := by
      have none : listingAsked.map (fun s => (s.slots 0).consoles.length) = some 0 := by decide +kernel
      simp only [attempted,bind,Option.bind_eq_some_iff] at ran
      obtain ⟨start,listed,⟨last,memo'⟩,-,same⟩ := ran
      cases Option.some.inj same
      rw [listed] at none
      exact Option.some.inj none
    rw [size] at undone
    rw [undone 5 open_] at closed
    contradiction

end RemoteTerminal
