import RemoteTerminal.Server.Ledger

/-! That a slot comes to rest. Every step of its threads takes one from the steps they have
left to do; only a message, the start of a thread and a read that does not end the relay loop
give them more. Where none of them can step, none has anything left to do. -/
namespace RemoteTerminal
open ByteStrings LabelledRuns EntryTable

def NewConsole.Pc.remaining : NewConsole.Pc → Nat
  | .prompt => 19
  | .returnDirectory => 18
  | .assemble => 17
  | .fork _ => 16
  | .closeInput => 15
  | .closeOutput => 14
  | .enter => 13
  | .read => 12
  | .probe => 19
  | .probed _ => 18
  | .testExit | .relay _ => 17
  | .mailbox => 16
  | .write => 15
  | .clearFlag => 14
  | .clearText => 13
  | .kill => 11
  | .killNext => 10
  | .report => 9
  | .finish => 8
  | .clearExit => 7
  | .deactivate => 6
  | .wait => 5
  | .closeAgain n => 3-n+1
  | .done => 0

def NewClient.Pc.remaining : NewClient.Pc → Nat
  | .message _ => 26
  | .route _ => 25
  | .launch _ => 24
  | .openOutput => 23
  | .openInput => 22
  | .activate => 21
  | .create => 20
  | .changeDirectory _ => 10
  | .readDirectory _ => 9
  | .setCommand _ => 8
  | .prompt => 7
  | .returnDirectory | .refuse | .createFailed => 6
  | .finish _ => 5
  | .leave => 4
  | .closeSocket => 3
  | .freeSlot | .cancel | .deposit _ => 2
  | .enter | .exit | .join | .flag => 1
  | .start | .receive | .done => 0

def Result.allowance : Result → Nat
  | .received _ => 27
  | .again _ | .output _ => 8
  | _ => 0

def SlotLabel.allowance : SlotLabel → Nat
  | .listen _ _ => 1
  | .start _ => 2
  | .client _ r | .console _ r => r.allowance

theorem clientRemaining {host t s r call t' s'} (h : NewClient.Steps host t s r call t' s')
    (noThread : ∀ k, r ≠ .thread k) : t'.pc.remaining + 1 ≤ t.pc.remaining + r.allowance := by
  cases h with
  | readEnd at_ ends => simp [NewClient.Pc.remaining,Result.allowance,at_]
  | _ => simp_all [NewClient.Pc.remaining,Result.allowance]

theorem consoleRemaining {t s r call t' s'} (h : NewConsole.Steps t s r call t' s') :
    t'.pc.remaining + 1 ≤ t.pc.remaining + r.allowance := by
  cases h with
  | closeAgain at_ more =>
    simp only [NewConsole.Pc.remaining,Result.allowance,at_]
    omega
  | closeLast at_ last => simp [NewConsole.Pc.remaining,Result.allowance,at_]
  | _ => simp_all [NewConsole.Pc.remaining,Result.allowance]

def remaining (s : SlotState) : Nat :=
  tally (fun t : NewClient.Thread => t.pc.remaining) s.clients +
    tally (fun c : NewConsole.Thread => c.pc.remaining) s.consoles

section
variable {host : Host} {maxClients : Nat} {s s' : SlotState} {l : SlotLabel} {call : Call}

theorem remainingCreated {t : Nat} {thread next : NewClient.Thread} {console : NewConsole.Thread} {slot : Slot}
    (here : s.clients[t]? = some thread) (at_ : thread.pc = .create) (then_ : next.pc = .receive)
    (begins : console.pc = .prompt) :
    remaining ⟨slot,s.clients.set t next,s.consoles ++ [console]⟩ + 1 ≤ remaining s + 0 := by
  have moved := tallySet (b := next) (fun t => t.pc.remaining) here
  have pushed := tallyPush (l := s.consoles) (a := console) fun c => c.pc.remaining
  have before : thread.pc.remaining = 20 := by rw [at_]; rfl
  have after : next.pc.remaining = 0 := by rw [then_]; rfl
  have whole : console.pc.remaining = 19 := by rw [begins]; rfl
  simp only [remaining]
  omega

theorem remainingStep (step : SlotStep host maxClients s l call s') :
    remaining s' + 1 ≤ remaining s + l.allowance := by
  cases step with
  | listen step => exact Nat.le_refl _
  | @start i =>
    have pushed := tallyPush (l := s.clients) (a := NewClient.started i) fun t => t.pc.remaining
    have one : (NewClient.started i).pc.remaining = 1 := rfl
    simp only [remaining,SlotLabel.allowance]
    omega
  | @client t r thread call next slot here step noThread joined =>
    have less := clientRemaining step noThread
    have moved := tallySet (b := next) (fun t => t.pc.remaining) here
    simp only [remaining,SlotLabel.allowance]
    omega
  | created here at_ => exact remainingCreated here at_ rfl rfl
  | @console k r thread call next slot here step =>
    have less := consoleRemaining step
    have moved := tallySet (b := next) (fun c => c.pc.remaining) here
    simp only [remaining,SlotLabel.allowance]
    omega

structure Effort where
  steps : Nat
  allowed : Nat
  deriving DecidableEq, Repr

def noteEffort (memo : Effort) (_ : SlotState) (l : SlotLabel) (_ : Call) (_ : SlotState) : Effort :=
  ⟨memo.steps+1,memo.allowed+l.allowance⟩

end

/-- Whatever the threads do in whatever order: a slot takes at most 27 steps for a message
received, 8 for a read that finds output or nothing yet, 2 for a thread started and one
for a step of the accept loop. -/
theorem effortBounded {State Event : Type} {os : OperatingSystem State Event} {host : Host} {maxClients i : Nat}
    {s : Server State} {t : Server State × Effort}
    (run : Reaches (watch (serverMachine host maxClients os) (noteOfSlot i noteEffort)) free (s,⟨0,0⟩) t) :
    t.2.steps + remaining (t.1.slots i) ≤ remaining (s.slots i) + t.2.allowed := by
  have inSlot : Reaches (watch (slotMachine host maxClients) noteEffort) free (s.slots i,⟨0,0⟩) (t.1.slots i,t.2) :=
    slotRun (reachesWeaken (fun _ _ _ => trivial) run)
  refine invariantOfStep (I := fun u : SlotState × Effort =>
    u.2.steps + remaining u.1 ≤ remaining (s.slots i) + u.2.allowed) ?_ inSlot (by simp)
  intro u l call v bounded _ noted
  obtain ⟨act,noted⟩ := watchAct noted
  have less := remainingStep (slotStep act)
  simp only [noted,noteEffort]
  omega

theorem catThenRootEffort : ∃ t, run (watch (serverMachine plainHost 19 noSystem) (noteOfSlot 0 noteEffort)) free
      (booted (),⟨0,0⟩) (firstSession catThenRoot) = some t ∧ t.2 = ⟨47,88⟩ ∧
    t.2.steps + remaining (t.1.slots 0) ≤ remaining ((booted ()).slots 0) + t.2.allowed := by
  have ends : (run (watch (serverMachine plainHost 19 noSystem) (noteOfSlot 0 noteEffort)) free
      (booted (),⟨0,0⟩) (firstSession catThenRoot)).map Prod.snd = some ⟨47,88⟩ := by decide +kernel
  obtain ⟨t,ran,counted⟩ := Option.map_eq_some_iff.mp ends
  exact ⟨t,ran,counted,effortBounded (runReaches ran)⟩

def Stuck (host : Host) (maxClients : Nat) (s : SlotState) : Prop :=
  (∀ t r, (∀ got, r ≠ .received got) → (slotMachine host maxClients).act s (.client t r) = none) ∧
    ∀ k r, (slotMachine host maxClients).act s (.console k r) = none

/- The third kind of client thread waits for a console thread though it never created one. -/
def NewClient.Thread.rests (t : NewClient.Thread) : Bool :=
  t.pc = .receive || t.pc = .done || (t.pc = .join && t.newConsoleThread.isNone)

structure Rests (s : SlotState) : Prop where
  clients : ∀ thread ∈ s.clients, thread.rests = true
  consoles : ∀ console ∈ s.consoles, console.pc = .done

structure Begun (s : SlotState) : Prop where
  entered : ∀ thread ∈ s.clients, thread.pc ≠ .start
  created : ∀ thread ∈ s.clients, ∀ k ∈ thread.newConsoleThread, k < s.consoles.length

theorem clientBegun {host t s r call t' s'} (h : NewClient.Steps host t s r call t' s') (noThread : ∀ k, r ≠ .thread k) :
    t'.pc ≠ .start ∧ t'.newConsoleThread = t.newConsoleThread := by
  cases h with
  | created at_ => exact (noThread _ rfl).elim
  | _ => exact ⟨by simp,rfl⟩

theorem consoleCanStep {t : NewConsole.Thread} (s : Slot) (running : t.pc ≠ .done) :
    ∃ r next, NewConsole.step t s r = some next := by
  cases at_ : t.pc with
  | done => exact (running at_).elim
  | fork sPacket => exact ⟨.failed,_,by rw [NewConsole.step,at_]⟩
  | read => exact ⟨.endOfFile,_,by rw [NewConsole.step,at_]⟩
  | probe => exact ⟨.failed,_,by rw [NewConsole.step,at_]⟩
  | wait => exact ⟨.failed,_,by rw [NewConsole.step,at_]⟩
  | _ => exact ⟨.done,_,by rw [NewConsole.step,at_]⟩

theorem clientCanStep (host : Host) {t : NewClient.Thread} (s : Slot) (begun : t.pc ≠ .start) (working : t.pc ≠ .receive)
    (running : t.pc ≠ .done) : ∃ r call next slot, NewClient.step host t s r = some (call,next,slot) ∧
      (∀ got, r ≠ .received got) ∧ (∀ k, r ≠ .thread k) ∧ (t.pc ≠ .join → ∀ j, call ≠ .join j) := by
  cases at_ : t.pc with
  | start => exact (begun at_).elim
  | receive => exact (working at_).elim
  | done => exact (running at_).elim
  | enter => exact ⟨.path [],_,_,_,by rw [NewClient.step,at_],by simp,by simp,by simp⟩
  | readDirectory p => exact ⟨.path [],_,_,_,by rw [NewClient.step,at_],by simp,by simp,by simp⟩
  | openOutput => exact ⟨.failed,_,_,_,by rw [NewClient.step,at_],by simp,by simp,by simp⟩
  | openInput => exact ⟨.failed,_,_,_,by rw [NewClient.step,at_],by simp,by simp,by simp⟩
  | create => exact ⟨.failed,_,_,_,by rw [NewClient.step,at_],by simp,by simp,by simp⟩
  | leave =>
    by_cases invalid : s.client = -1
    · exact ⟨.done,.memory,{t with pc := .freeSlot},s,by simp [NewClient.step,at_,invalid],by simp,by simp,by simp⟩
    · exact ⟨.done,.shutdown s.client,{t with pc := .closeSocket},s,by simp [NewClient.step,at_,invalid],by simp,
        by simp,by simp⟩
  | join => exact ⟨.done,_,_,_,by rw [NewClient.step,at_],by simp,by simp,fun other => (other rfl).elim⟩
  | _ => exact ⟨.done,_,_,_,by rw [NewClient.step,at_],by simp,by simp,by simp⟩

section
variable {host : Host} {maxClients : Nat} {s s' : SlotState} {l : SlotLabel} {call : Call}

theorem begunStep (begun : Begun s) (step : SlotStep host maxClients s l call s') : Begun s' := by
  obtain ⟨entered,created⟩ := begun
  cases step with
  | listen step => exact ⟨entered,created⟩
  | start =>
    refine ⟨fun thread mem => ?_,fun thread mem => ?_⟩
    all_goals rcases List.mem_append.mp mem with old | new
    · exact entered thread old
    · rw [List.mem_singleton.mp new]
      simp [NewClient.started]
    · exact created thread old
    · rw [List.mem_singleton.mp new]
      simp [NewClient.started]
  | client here step noThread joined =>
    obtain ⟨notStart,same⟩ := clientBegun step noThread
    have mem := List.mem_of_getElem? here
    refine ⟨fun thread found => ?_,fun thread found => ?_⟩
    all_goals rcases List.mem_or_eq_of_mem_set found with old | rfl
    · exact entered thread old
    · exact notStart
    · exact created thread old
    · rw [same]
      exact created _ mem
  | created here at_ =>
    refine ⟨fun thread found => ?_,fun thread found k known => ?_⟩
    all_goals rcases List.mem_or_eq_of_mem_set found with old | rfl
    · exact entered thread old
    · simp
    · have bound := created thread old k known
      rw [List.length_append]
      omega
    · cases known
      simp
  | console here step =>
    refine ⟨entered,fun thread found k known => ?_⟩
    rw [List.length_set]
    exact created thread found k known

theorem clientActs (maxClients : Nat) {t : Nat} {r : Result} {thread next : NewClient.Thread} {slot : Slot}
    (here : s.clients[t]? = some thread) (moved : NewClient.step host thread s.slot r = some (call,next,slot))
    (noThread : ∀ k, r ≠ .thread k) (joined : ∀ j, call = .join j → exited s.consoles j = true) :
    (slotMachine host maxClients).act s (.client t r) = some (call,⟨slot,s.clients.set t next,s.consoles⟩) := by
  simp only [slotMachine,here,moved,bind,Option.bind_some]
  split
  · exact (noThread _ rfl).elim
  · rw [if_pos (joined _ rfl)]
  · rfl

theorem stuckConsoles (stuck : Stuck host maxClients s) : ∀ console ∈ s.consoles, console.pc = .done := by
  intro console mem
  obtain ⟨k,here⟩ := List.mem_iff_getElem?.mp mem
  by_cases running : console.pc = .done
  · exact running
  · obtain ⟨r,next,moved⟩ := consoleCanStep s.slot running
    have none := stuck.2 k r
    simp [slotMachine,here,moved] at none

theorem stuckRests (begun : Begun s) (stuck : Stuck host maxClients s) : Rests s := by
  have consoles := stuckConsoles stuck
  refine ⟨fun thread mem => ?_,consoles⟩
  obtain ⟨t,here⟩ := List.mem_iff_getElem?.mp mem
  by_cases working : thread.pc = .receive
  · simp [NewClient.Thread.rests,working]
  by_cases running : thread.pc = .done
  · simp [NewClient.Thread.rests,running]
  obtain ⟨r,call,next,slot,moved,silent,noThread,noJoin⟩ :=
    clientCanStep host s.slot (begun.entered thread mem) working running
  by_cases joining : thread.pc = .join
  · cases handle : thread.newConsoleThread with
    | none => simp [NewClient.Thread.rests,joining,handle]
    | some k =>
      have bound := begun.created thread mem k handle
      have finished : exited s.consoles (some k) = true := by
        simp [exited,bound,consoles _ (List.getElem_mem bound)]
      have moved : NewClient.step host thread s.slot .done = some (.join (some k),{thread with pc := .receive},s.slot) := by
        simp [NewClient.step,joining,handle]
      have acts := clientActs maxClients here moved (by simp) fun j named => by
        cases named
        exact finished
      rw [stuck.1 t .done (by simp)] at acts
      cases acts
  · have acts := clientActs maxClients here moved noThread fun j named => (noJoin joining j named).elim
    rw [stuck.1 t r silent] at acts
    cases acts

theorem restsStuck (rests : Rests s) : Stuck host maxClients s := by
  constructor
  · intro t r silent
    cases here : s.clients[t]? with
    | none => simp [slotMachine,here]
    | some thread =>
      have resting := rests.clients thread (List.mem_of_getElem? here)
      simp only [NewClient.Thread.rests,Bool.or_eq_true,Bool.and_eq_true,decide_eq_true_eq,Option.isNone_iff_eq_none]
        at resting
      rcases resting with (waits | done) | ⟨joins,never⟩
      · have noStep : NewClient.step host thread s.slot r = none := by
          cases r <;> first | exact (silent _ rfl).elim | simp only [NewClient.step,waits]
        simp only [slotMachine,here,noStep,bind,Option.bind_some,Option.bind_none]
      · have noStep : NewClient.step host thread s.slot r = none := by simp only [NewClient.step,done]
        simp only [slotMachine,here,noStep,bind,Option.bind_some,Option.bind_none]
      · by_cases joined : r = .done
        · have step : NewClient.step host thread s.slot r =
              some (.join none,{thread with pc := .receive},s.slot) := by
            simp only [NewClient.step,joins,joined,never]
          simp only [slotMachine,here,step,bind,Option.bind_some,exited,Bool.false_eq_true,if_false]
        · have noStep : NewClient.step host thread s.slot r = none := by
            cases r <;> first | exact (joined rfl).elim | simp only [NewClient.step,joins]
          simp only [slotMachine,here,noStep,bind,Option.bind_some,Option.bind_none]
  · intro k r
    cases here : s.consoles[k]? with
    | none => simp [slotMachine,here]
    | some console =>
      have done := rests.consoles console (List.mem_of_getElem? here)
      have noStep : NewConsole.step console s.slot r = none := by simp only [NewConsole.step,done]
      simp only [slotMachine,here,noStep,bind,Option.bind_some,Option.bind_none]

theorem restsHandled {pc : NewClient.Pc} {handle : Option Nat} {socketID : Nat} {cwd : Bytes}
    (rests : (NewClient.Thread.mk pc socketID cwd handle).rests = true) : pc.handling = 0 := by
  cases pc <;> simp_all [NewClient.Thread.rests,NewClient.Pc.handling]

end

structure Balanced (s : SlotState × Ledger) : Prop where
  answers : s.2.read = s.2.dropped + s.2.answered + s.2.closed
  processes : s.2.forked = s.2.closed

end RemoteTerminal
