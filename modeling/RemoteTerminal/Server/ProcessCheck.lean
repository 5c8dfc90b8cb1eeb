import RemoteTerminal.Library.Erasure
import RemoteTerminal.Server.Directories
import RemoteTerminal.Server.Processes

/-! `HandleClientPipe` looks, after a second, whether `/proc/<pid>/status` can be opened,
and keeps the answer in `processOpen`. Nothing but the next look depends on it. Without the
looks the server has the same runs. -/
namespace RemoteTerminal
open ByteStrings LabelledRuns EntryTable

def NewConsole.Pc.unprobed : NewConsole.Pc → NewConsole.Pc
  | .probe | .probed _ => .testExit
  | pc => pc

def NewConsole.Thread.unprobed (t : NewConsole.Thread) : NewConsole.Thread :=
  {t with pc := t.pc.unprobed,processOpen := true}

def SlotState.unprobed (s : SlotState) : SlotState := {s with consoles := s.consoles.map NewConsole.Thread.unprobed}

/- An empty pipe counts as read within the first second. -/
def Result.early : Result → Result
  | .again _ => .again false
  | r => r

def Call.probes : Call → Bool
  | .fopen _ | .fclose _ => true
  | _ => false

theorem earlyTwice (r : Result) : r.early.early = r.early := by cases r <;> rfl

theorem consoleUnprobed {t t' : NewConsole.Thread} {s s' : Slot} {r : Result} {call : Call}
    (h : NewConsole.Steps t s r call t' s') :
    (call.probes = true ∧ t.unprobed ≠ t ∧ s' = s ∧ t'.unprobed = t.unprobed) ∨
      (call.probes = false ∧ NewConsole.step t.unprobed s r.early = some (call,t'.unprobed,s')) := by
  cases h with
  | gone at_ | probe at_ | probed at_ =>
    left
    refine ⟨rfl,fun same => ?_,rfl,by simp [NewConsole.Thread.unprobed,NewConsole.Pc.unprobed,at_]⟩
    have pc := congrArg NewConsole.Thread.pc same
    simp [NewConsole.Thread.unprobed,NewConsole.Pc.unprobed,at_] at pc
  | ended at_ outcome | returnDirectory at_ outcome | kill at_ outcome | killNext at_ outcome =>
    right
    rcases outcome with rfl | rfl <;>
      exact ⟨rfl,by simp [NewConsole.step,NewConsole.Thread.unprobed,NewConsole.Pc.unprobed,Result.early,at_]⟩
  | _ =>
    right
    refine ⟨rfl,?_⟩
    simp_all [NewConsole.step,NewConsole.Thread.unprobed,NewConsole.Pc.unprobed,Result.early]

def SlotLabel.early : SlotLabel → SlotLabel
  | .console k r => .console k r.early
  | l => l

theorem consolesUnprobed (s : SlotState) (k : Nat) :
    s.unprobed.consoles[k]? = (s.consoles[k]?).map NewConsole.Thread.unprobed := List.getElem?_map

theorem exitedUnprobed (consoles : List NewConsole.Thread) (thread : Option Nat) :
    exited (consoles.map NewConsole.Thread.unprobed) thread = exited consoles thread := by
  cases thread with
  | none => rfl
  | some k =>
    simp only [exited,List.getElem?_map]
    cases consoles[k]? with
    | none => rfl
    | some c => cases at_ : c.pc <;> simp [NewConsole.Thread.unprobed,NewConsole.Pc.unprobed,at_]

section
variable {host : Host} {maxClients : Nat} {s s' : SlotState} {l : SlotLabel} {call : Call}

theorem listenQuiet {current current' : Nat} {pc pc' : SocketListen.Pc} {slot slot' : Slot} {r : Result}
    (h : SocketListen.Steps maxClients slot current pc r call pc' slot' current') : call.probes = false := by
  cases h <;> rfl

theorem clientUnprobed {t : Nat} {r : Result} (act : (slotMachine host maxClients).act s (.client t r) = some (call,s')) :
    call.probes = false ∧ (slotMachine host maxClients).act s.unprobed (.client t r) = some (call,s'.unprobed) := by
  have quiet : call.probes = false := by
    cases slotStep act with
    | client here step noThread joined => cases step <;> rfl
    | created here at_ => rfl
  refine ⟨quiet,?_⟩
  simp only [slotMachine,bind,Option.bind_eq_some_iff] at act
  obtain ⟨thread,here,⟨call,next,slot⟩,step,last⟩ := act
  simp only [slotMachine,SlotState.unprobed,here,step,bind,Option.bind_some,List.length_map,exitedUnprobed]
  split at last
  · rename_i creates
    split at last <;> try contradiction
    rename_i fresh
    cases Option.some.inj last
    obtain rfl : call = .createConsole := creates
    simp [fresh,NewConsole.created,NewConsole.Thread.unprobed,NewConsole.Pc.unprobed]
  · rename_i joins
    split at last <;> try contradiction
    rename_i finished
    cases Option.some.inj last
    obtain rfl := joins
    simp [finished]
  · cases Option.some.inj last
    rfl

theorem slotUnprobed (act : (slotMachine host maxClients).act s l = some (call,s')) :
    (call.probes = true ∧ s.unprobed ≠ s ∧ s'.unprobed = s.unprobed) ∨
      (call.probes = false ∧ (slotMachine host maxClients).act s.unprobed l.early = some (call,s'.unprobed)) := by
  cases l with
  | listen pc r =>
    right
    simp only [slotMachine,bind,Option.bind_eq_some_iff] at act
    obtain ⟨⟨call,pc',slot,current⟩,step,last⟩ := act
    have quiet := listenQuiet (SocketListen.steps step)
    cases Option.some.inj last
    exact ⟨quiet,by simp [slotMachine,SlotState.unprobed,SlotLabel.early,step]⟩
  | start i =>
    right
    cases Option.some.inj act
    exact ⟨rfl,rfl⟩
  | client t r => exact .inr (clientUnprobed act)
  | console k r =>
    simp only [slotMachine,bind,Option.bind_eq_some_iff] at act
    obtain ⟨thread,here,⟨call,next,slot⟩,step,last⟩ := act
    cases Option.some.inj last
    have there : s.unprobed.consoles[k]? = some thread.unprobed := by rw [consolesUnprobed,here]; rfl
    rcases consoleUnprobed (NewConsole.steps step) with ⟨probes,marked,rfl,same⟩ | ⟨quiet,step'⟩
    · left
      refine ⟨probes,fun clean => marked ?_,?_⟩
      · rw [clean,here] at there
        exact (Option.some.inj there).symm
      · simp only [SlotState.unprobed,List.map_set,same]
        exact congrArg (SlotState.mk s.slot s.clients) (setSame there)
    · right
      refine ⟨quiet,?_⟩
      simp only [slotMachine,SlotLabel.early,there,bind,Option.bind_some]
      rw [show s.unprobed.slot = s.slot from rfl,step']
      simp [SlotState.unprobed]

end

variable {State Event : Type}

def Server.unprobed (s : Server State) : Server State := {s with slots := fun i => (s.slots i).unprobed}

def ServerLabel.early : ServerLabel Event → ServerLabel Event
  | .console i k r => .console i k r.early
  | l => l

/- A look at `/proc` leaves the rest of the system as it is, and the rest does not know
the time. -/
structure IgnoresCheck (os : OperatingSystem State Event) : Prop where
  looks : ∀ system actor call r system', call.probes = true → os.call system actor call r = some system' →
    system' = system
  timeless : ∀ system actor call r, os.call system actor call r.early = os.call system actor call r

section
variable {host : Host} {maxClients : Nat} {os : OperatingSystem State Event}

theorem updateUnprobed (slots : Nat → SlotState) (i : Nat) (slot : SlotState) :
    (fun j => (Function.update slots i slot j).unprobed) =
      Function.update (fun j => (slots j).unprobed) i slot.unprobed :=
  Function.comp_update SlotState.unprobed slots i slot

theorem serverUnprobed (ignores : IgnoresCheck os) {s s' : Server State} {l : ServerLabel Event} {call : Call}
    (act : (serverMachine host maxClients os).act s l = some (call,s')) :
    (call.probes = true ∧ s.unprobed ≠ s ∧ s'.unprobed = s.unprobed) ∨
      (call.probes = false ∧
        (serverMachine host maxClients os).act s.unprobed l.early = some (call,s'.unprobed)) := by
  cases l with
  | listen r =>
    right
    simp only [serverMachine,bind,Option.bind_eq_some_iff] at act
    obtain ⟨⟨call,listener,slot,current⟩,step,system,handled,last⟩ := act
    have quiet := listenQuiet (SocketListen.steps step)
    cases Option.some.inj last
    refine ⟨quiet,?_⟩
    simp only [serverMachine,ServerLabel.early,Server.unprobed,bind,updateUnprobed]
    simp [SlotState.unprobed,step,handled]
  | start =>
    right
    simp only [serverMachine] at act
    split at act <;> try contradiction
    rename_i waiting
    cases Option.some.inj act
    refine ⟨rfl,?_⟩
    simp only [serverMachine,ServerLabel.early,Server.unprobed,updateUnprobed,if_neg waiting]
    rfl
  | client i t r =>
    right
    simp only [serverMachine,bind,Option.bind_eq_some_iff] at act
    obtain ⟨⟨call,slot⟩,step,system,handled,last⟩ := act
    cases Option.some.inj last
    obtain ⟨quiet,step'⟩ := clientUnprobed step
    refine ⟨quiet,?_⟩
    simp only [serverMachine,ServerLabel.early,Server.unprobed,bind,updateUnprobed,step',Option.bind_some]
    simp [SlotState.unprobed,handled]
  | console i k r =>
    simp only [serverMachine,bind,Option.bind_eq_some_iff] at act
    obtain ⟨⟨call,slot⟩,step,system,handled,last⟩ := act
    cases Option.some.inj last
    rcases slotUnprobed step with ⟨probes,marked,same⟩ | ⟨quiet,step'⟩
    · left
      refine ⟨probes,fun clean => marked (congrFun (congrArg Server.slots clean) i),?_⟩
      simp only [Server.unprobed,updateUnprobed,same,ignores.looks _ _ _ _ _ probes handled]
      rw [Function.update_eq_self i fun j => (s.slots j).unprobed]
    · right
      refine ⟨quiet,?_⟩
      simp only [SlotLabel.early] at step'
      simp only [serverMachine,ServerLabel.early,Server.unprobed,bind,updateUnprobed,step',Option.bind_some]
      simp [ignores.timeless,handled]
  | system e =>
    right
    simp only [serverMachine,bind,Option.bind_eq_some_iff] at act
    obtain ⟨system,happened,last⟩ := act
    cases Option.some.inj last
    exact ⟨rfl,by simp [serverMachine,ServerLabel.early,Server.unprobed,happened]⟩

theorem checkErases (ignores : IgnoresCheck os) :
    Erases (serverMachine host maxClients os) Server.unprobed ServerLabel.early Call.probes where
  hides act probes := by
    rcases serverUnprobed ignores act with ⟨-,-,same⟩ | ⟨quiet,-⟩
    · exact same
    · cases probes.symm.trans quiet
  keeps act quiet := by
    rcases serverUnprobed ignores act with ⟨probes,-⟩ | ⟨-,act'⟩
    · cases probes.symm.trans quiet
    · exact act'
  twice l := by cases l <;> simp [ServerLabel.early,earlyTwice]
  never same act := by
    rcases serverUnprobed ignores act with ⟨-,marked,-⟩ | ⟨quiet,-⟩
    · exact absurd same marked
    · exact quiet

theorem noThreadsUnprobed {s : SlotState} (none : NoThreads s) : s.unprobed = s := by
  rw [SlotState.unprobed,none.consoles,List.map_nil,← none.consoles]

theorem unstartedUnprobed {s : Server State} (unstarted : Unstarted s) : s.unprobed = s := by
  simp only [Server.unprobed,noThreadsUnprobed (unstarted.threads _)]

/-- Whatever the threads do, and as far as the system takes no notice of the looks: the server
that looks at `/proc` and the one that never does reach the same states and show the same
calls with the same results, but for the looks. -/
theorem processCheckIdle {s last : Server State} {trace : List (ServerLabel Event × Call)}
    (ignores : IgnoresCheck os) (unstarted : Unstarted s) :
    (∃ t, Reaches (watch (serverMachine host maxClients os) (noteShown ServerLabel.early Call.probes)) free
        (s,[]) (t,trace) ∧ t.unprobed = last) ↔
      Reaches (watch (serverMachine host maxClients os) (noteShown ServerLabel.early Call.probes))
        (Erased ServerLabel.early) (s,[]) (last,trace) :=
  sameTraces (checkErases ignores) (unstartedUnprobed unstarted)

end

theorem directoriesIgnoreCheck (fs : FileSystem) : IgnoresCheck (directorySystem fs) where
  looks system actor call r system' probes handled := by
    cases call with
    | fopen _ | fclose _ => exact (Option.some.inj handled).symm
    | _ => cases probes
  timeless system actor call r := by cases call <;> cases r <;> rfl

theorem processesIgnoreCheck : IgnoresCheck processSystem where
  looks system actor call r system' probes handled := by
    cases call with
    | fopen _ | fclose _ =>
      cases actor <;> exact (Option.some.inj handled).symm
    | _ => cases probes
  timeless system actor call r := by cases actor <;> cases call <;> cases r <;> rfl

def catLookedFor : List (ServerLabel ProcessEvent) :=
  [.listen .done] ++ accepts 4 ++ [.start] ++
    ([SlotLabel.client 0 (.path (ascii "/"))] ++ launches 0 0 "Mcat" ++ consoleStarts 0 100 ++
      consoleDoes 0 [.again true,.descriptor 9,.done,.done,.done,.again true,.failed,.done,.done,
        .again true,.done]).map (SlotLabel.onServer 0)

theorem catUnlooked : ∃ t trace,
    run (watch (serverMachine plainHost 19 processSystem) (noteShown ServerLabel.early Call.probes)) free
      (booted (fun _ => none),[]) catLookedFor = some (t,trace) ∧
    Reaches (watch (serverMachine plainHost 19 processSystem) (noteShown ServerLabel.early Call.probes))
      (Erased ServerLabel.early) (booted (fun _ => none),[]) (t.unprobed,trace) := by
  have ends : (run (watch (serverMachine plainHost 19 processSystem) (noteShown ServerLabel.early Call.probes)) free
      (booted (fun _ => none),[]) catLookedFor).isSome = true := by decide +kernel
  obtain ⟨⟨t,trace⟩,ran⟩ := Option.isSome_iff_exists.mp ends
  have reached := (processCheckIdle processesIgnoreCheck (bootedUnstarted _)).mp ⟨t,runReaches ran,rfl⟩
  exact ⟨t,trace,ran,reached⟩

end RemoteTerminal
