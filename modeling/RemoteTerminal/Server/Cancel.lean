import RemoteTerminal.Server.Machine

/-! The cancel message. `exitCode` is set by `NewClient` and cleared by the console thread
at the end of its loop. A cancel that is set while the client's own console thread has not
come to that point brings the session back to idle; any other leaves the flag set, and
messages are ignored as long as it is. -/
namespace RemoteTerminal
open ByteStrings LabelledRuns EntryTable

/- `exitCode = 0` at the end of `HandleClientPipe` is still to come. -/
def NewConsole.Pc.clears : NewConsole.Pc → Bool
  | .deactivate | .wait | .closeAgain _ | .done => false
  | _ => true

def NewClient.Pc.looping : NewClient.Pc → Bool
  | .create | .createFailed | .finish false | .leave | .closeSocket | .freeSlot | .exit | .done => false
  | _ => true

def noteJoin (joined : List Nat) (_ : SlotState) (_ : SlotLabel) (call : Call) (_ : SlotState) : List Nat :=
  match call with
  | .join (some k) => k::joined
  | _ => joined

def SlotState.clears (s : SlotState) (k : Nat) : Bool := s.consoles[k]?.any fun console => console.pc.clears

/- `exitCode = 1` meets a console thread of this client that will clear it. -/
def CancelsRunning (s : SlotState × List Nat) : SlotLabel → Prop
  | .start _ => ∀ t ∈ s.1.clients, t.pc = .done
  | .client t _ => s.1.clients[t]?.all fun thread =>
      thread.pc ≠ .cancel || thread.newConsoleThread.any fun k => s.1.clears k
  | _ => True
instance (s) : (l : SlotLabel) → Decidable (CancelsRunning s l)
  | .start _ => by dsimp only [CancelsRunning]; infer_instance
  | .client _ _ => by dsimp only [CancelsRunning]; infer_instance
  | .listen _ _ | .console _ _ => isTrue trivial

structure ReturnsIdle (s : SlotState) (joined : List Nat) : Prop where
  joins : ∀ (t : Nat) (thread : NewClient.Thread), s.clients[t]? = some thread → thread.pc = .join →
    ∃ k, thread.newConsoleThread = some k ∧ k < s.consoles.length ∧ k ∉ joined
  idle : ∀ (t : Nat) (thread : NewClient.Thread), s.clients[t]? = some thread → thread.pc = .join →
    exited s.consoles thread.newConsoleThread = true →
    s.slot.console.exitCode = 0 ∧ s.slot.console.pipeActive = false
  running : s.slot.console.exitCode ≠ 0 → ∃ (k : Nat) (console : NewConsole.Thread),
    s.consoles[k]? = some console ∧ console.pc.clears = true

structure Cancelling (s : SlotState) (joined : List Nat) : Prop where
  lock : SlotLock s
  flag : s.slot.console.exitCode = 0 ∨ s.slot.console.exitCode = 1 ∧
    ∃ (k : Nat) (console : NewConsole.Thread), s.consoles[k]? = some console ∧ console.pc.clears = true
  owned : ∀ (t : Nat) (thread : NewClient.Thread) (k : Nat), s.clients[t]? = some thread →
    thread.pc ≠ .done → thread.newConsoleThread = some k → k+1 = s.consoles.length
  exited_ : ∀ k ∈ joined, ∃ console : NewConsole.Thread, s.consoles[k]? = some console ∧ console.pc = .done
  active : ∀ (t : Nat) (thread : NewClient.Thread) (k : Nat) (console : NewConsole.Thread),
    s.clients[t]? = some thread → thread.pc.looping = true → thread.newConsoleThread = some k →
    s.consoles[k]? = some console → s.slot.console.pipeActive = true → console.pc.active = true
  joining : ∀ (t : Nat) (thread : NewClient.Thread), s.clients[t]? = some thread → thread.pc = .join →
    ∃ k, thread.newConsoleThread = some k ∧ k ∉ joined

theorem clearsActive {pc : NewConsole.Pc} (clears : pc.clears = true) : pc.active = true := by
  cases pc <;> first | rfl | nomatch clears

theorem loopingNotDone {pc : NewClient.Pc} (looping : pc.looping = true) : pc ≠ .done := by
  rintro rfl; nomatch looping

theorem cancellingReturns {s : SlotState} {joined : List Nat} (c : Cancelling s joined) : ReturnsIdle s joined := by
  refine ⟨?_,?_,?_⟩
  · intro t thread here at_
    obtain ⟨k,names,fresh⟩ := c.joining t thread here at_
    have last := c.owned t thread k here (by simp [at_]) names
    exact ⟨k,names,by omega,fresh⟩
  · intro t thread here at_ finished
    obtain ⟨k,names,-⟩ := c.joining t thread here at_
    have last := c.owned t thread k here (by simp [at_]) names
    simp only [names,exited,Option.any_eq_true,decide_eq_true_eq] at finished
    obtain ⟨console,found,done⟩ := finished
    have inactive : console.pc.active = false := by rw [done]; rfl
    constructor
    · refine c.flag.resolve_right ?_
      rintro ⟨-,j,other,there,clears⟩
      have lastOther := (c.lock.active j other there (clearsActive clears)).2
      have same : j = k := by omega
      subst same
      cases Option.some.inj (found.symm.trans there)
      rw [done] at clears
      nomatch clears
    · cases held : s.slot.console.pipeActive with
      | false => rfl
      | true =>
        have busy := c.active t thread k console here (by rw [at_]; rfl) names found held
        nomatch inactive.symm.trans busy
  · intro set
    exact (c.flag.resolve_left set).2

theorem clientCancel {host t s r call t' s'} (h : NewClient.Steps host t s r call t' s')
    (noThread : ∀ k, r ≠ .thread k) :
    t'.newConsoleThread = t.newConsoleThread ∧
    (t'.pc.looping = true → t.pc.looping = true ∧ s'.console.pipeActive = s.console.pipeActive) ∧
    (s'.console.exitCode = s.console.exitCode ∨ t.pc = .cancel ∧ s'.console.exitCode = 1) ∧
    (t'.pc = .join → t.pc = .cancel) ∧
    (∀ j, call = .join j → t.pc = .join ∧ j = t.newConsoleThread) := by
  cases h <;> simp_all [NewClient.Pc.looping]

theorem consoleCancel {t s r call t' s'} (h : NewConsole.Steps t s r call t' s') :
    t.pc ≠ .done ∧ (∀ j, call ≠ .join j) ∧
    (s'.console.exitCode = 0 ∨ s'.console.exitCode = s.console.exitCode ∧ t'.pc.clears = t.pc.clears) ∧
    (t'.pc.active = t.pc.active ∧ s'.console.pipeActive = s.console.pipeActive ∨
      s'.console.pipeActive = false) := by
  cases h <;> simp_all [NewConsole.Pc.clears,NewConsole.Pc.active]

theorem listenCancel {maxClients s current pc r call pc' s' current'}
    (h : SocketListen.Steps maxClients s current pc r call pc' s' current') :
    (s'.console.exitCode = 0 ∨ s'.console.exitCode = s.console.exitCode) ∧ ∀ j, call ≠ .join j := by
  cases h <;> simp

theorem noteOther {joined : List Nat} {s s' : SlotState} {l : SlotLabel} {call : Call}
    (other : ∀ j, call ≠ .join j) : noteJoin joined s l call s' = joined := by
  cases call <;> first | rfl | exact (other _ rfl).elim

theorem noteMember {joined : List Nat} {k : Nat} {s s' : SlotState} {l : SlotLabel} {call : Call}
    (mem : k ∈ noteJoin joined s l call s') : call = .join (some k) ∨ k ∈ joined := by
  by_cases joins : ∃ j, call = .join j
  · obtain ⟨j,rfl⟩ := joins
    cases j with
    | none => exact .inr mem
    | some j =>
      rcases List.mem_cons.mp mem with rfl | mem
      · exact .inl rfl
      · exact .inr mem
  · rw [noteOther fun j same => joins ⟨j,same⟩] at mem
    exact .inr mem

theorem cancellingListen {host : Host} {maxClients : Nat} {s : SlotState} {joined : List Nat} {pc r call s'}
    (c : Cancelling s joined) (lock : SlotLock s')
    (h : SlotStep host maxClients s (.listen pc r) call s') :
    Cancelling s' (noteJoin joined s (.listen pc r) call s') := by
  cases h with
  | listen step =>
    obtain ⟨flag,other⟩ := listenCancel step
    rw [noteOther other]
    refine ⟨lock,?_,c.owned,c.exited_,?_,c.joining⟩
    · rcases flag with zero | same
      · exact .inl zero
      · exact same ▸ c.flag
    · exact fun t thread k console here looping names found held =>
        c.active t thread k console here looping names found (listenPipeActive step ▸ held)

theorem cancellingStart {host : Host} {maxClients : Nat} {s : SlotState} {joined : List Nat} {i call s'}
    (c : Cancelling s joined) (lock : SlotLock s') (ok : CancelsRunning (s,joined) (.start i))
    (h : SlotStep host maxClients s (.start i) call s') :
    Cancelling s' (noteJoin joined s (.start i) call s') := by
  have returned : ∀ (t : Nat) (thread : NewClient.Thread), s.clients[t]? = some thread → thread.pc = .done :=
    fun t thread here => ok thread (List.mem_of_getElem? here)
  cases h with
  | start =>
    refine ⟨lock,c.flag,?_,c.exited_,?_,?_⟩
    · intro t thread k here live names
      rcases pushFound here with ⟨-,rfl⟩ | ⟨-,old⟩
      · nomatch names
      · exact (live (returned t thread old)).elim
    · intro t thread k console here looping names
      rcases pushFound here with ⟨-,rfl⟩ | ⟨-,old⟩
      · nomatch names
      · exact (loopingNotDone looping (returned t thread old)).elim
    · intro t thread here at_
      rcases pushFound here with ⟨-,rfl⟩ | ⟨-,old⟩
      · nomatch at_
      · nomatch at_.symm.trans (returned t thread old)

theorem cancelMeets {s : SlotState} {joined : List Nat} {t : Nat} {r : Result} {thread : NewClient.Thread}
    (ok : CancelsRunning (s,joined) (.client t r)) (here : s.clients[t]? = some thread)
    (at_ : thread.pc = .cancel) : ∃ (k : Nat) (console : NewConsole.Thread),
      thread.newConsoleThread = some k ∧ s.consoles[k]? = some console ∧ console.pc.clears = true := by
  simp only [CancelsRunning,here,Option.all_some,at_,Option.any_eq_true,SlotState.clears,Bool.or_eq_true,
    ne_eq,not_true_eq_false,decide_false,Bool.false_eq_true,false_or] at ok
  obtain ⟨k,names,console,found,clears⟩ := ok
  exact ⟨k,console,names,found,clears⟩

theorem cancellingMoved {host : Host} {s : SlotState} {joined : List Nat} {t : Nat} {r : Result} {call : Call}
    {thread next : NewClient.Thread} {slot : Slot} (c : Cancelling s joined)
    (ok : CancelsRunning (s,joined) (.client t r)) (here : s.clients[t]? = some thread)
    (step : NewClient.Steps host thread s.slot r call next slot) (noThread : ∀ k, r ≠ .thread k)
    (finished : ∀ j, call = .join j → exited s.consoles j = true)
    (lock : SlotLock ⟨slot,s.clients.set t next,s.consoles⟩) :
    Cancelling ⟨slot,s.clients.set t next,s.consoles⟩
      (noteJoin joined s (.client t r) call ⟨slot,s.clients.set t next,s.consoles⟩) := by
  have live := clientNotDone step
  obtain ⟨names',looping',exit',join',joins'⟩ := clientCancel step noThread
  refine ⟨lock,?_,?_,?_,?_,?_⟩
  · rcases exit' with same | ⟨at_,set⟩
    · exact same ▸ c.flag
    · obtain ⟨k,console,-,found,clears⟩ := cancelMeets ok here at_
      exact .inr ⟨set,k,console,found,clears⟩
  · intro u other k found running names
    obtain ⟨rfl,rfl⟩ := liveAt c.lock here live found running
    exact c.owned u thread k here live (names'.symm.trans names)
  · intro k mem
    rcases noteMember mem with joins | mem
    · have done := finished (some k) joins
      simp only [exited,Option.any_eq_true,decide_eq_true_eq] at done
      exact done
    · exact c.exited_ k mem
  · intro u other k console found looping names inTable held
    obtain ⟨rfl,rfl⟩ := liveAt c.lock here live found (loopingNotDone looping)
    obtain ⟨before,same⟩ := looping' looping
    exact c.active u thread k console here before (names'.symm.trans names) inTable (same ▸ held)
  · intro u other found at_
    obtain ⟨rfl,rfl⟩ := liveAt c.lock here live found (by simp [at_])
    have was := join' at_
    obtain ⟨k,console,names,inTable,clears⟩ := cancelMeets ok here was
    refine ⟨k,names'.trans names,fun mem => ?_⟩
    rcases noteMember mem with joins | mem
    · nomatch was.symm.trans (joins' (some k) joins).1
    · obtain ⟨same,there,done⟩ := c.exited_ k mem
      cases Option.some.inj (inTable.symm.trans there)
      rw [done] at clears
      nomatch clears

theorem cancellingCreated {s : SlotState} {joined : List Nat} {t : Nat} {thread next : NewClient.Thread}
    (c : Cancelling s joined) (here : s.clients[t]? = some thread) (at_ : thread.pc = .create)
    (then_ : next.pc = .receive) (names : next.newConsoleThread = some s.consoles.length)
    (lock : SlotLock ⟨s.slot,s.clients.set t next,s.consoles ++ [NewConsole.created thread.socketID]⟩) :
    Cancelling ⟨s.slot,s.clients.set t next,s.consoles ++ [NewConsole.created thread.socketID]⟩ joined := by
  have live : thread.pc ≠ .done := by simp [at_]
  refine ⟨lock,?_,?_,?_,?_,?_⟩
  · rcases c.flag with zero | ⟨set,k,console,found,clears⟩
    · exact .inl zero
    · exact .inr ⟨set,k,console,pushKeeps found,clears⟩
  · intro u other k found running names'
    obtain ⟨rfl,rfl⟩ := liveAt c.lock here live found running
    cases Option.some.inj (names.symm.trans names')
    simp
  · intro k mem
    obtain ⟨console,found,done⟩ := c.exited_ k mem
    exact ⟨console,pushKeeps found,done⟩
  · intro u other k console found looping names' inTable held
    obtain ⟨rfl,rfl⟩ := liveAt c.lock here live found (loopingNotDone looping)
    cases Option.some.inj (names.symm.trans names')
    rw [pushAt,if_pos rfl] at inTable
    cases Option.some.inj inTable
    rfl
  · intro u other found waits
    obtain ⟨rfl,rfl⟩ := liveAt c.lock here live found (by simp [waits])
    nomatch then_.symm.trans waits

theorem cancellingClient {host : Host} {maxClients : Nat} {s : SlotState} {joined : List Nat} {t r call s'}
    (c : Cancelling s joined) (lock : SlotLock s') (ok : CancelsRunning (s,joined) (.client t r))
    (h : SlotStep host maxClients s (.client t r) call s') :
    Cancelling s' (noteJoin joined s (.client t r) call s') := by
  cases h with
  | client here step noThread finished => exact cancellingMoved c ok here step noThread finished lock
  | created here at_ => exact cancellingCreated c here at_ rfl rfl lock

theorem cancellingConsole {host : Host} {maxClients : Nat} {s : SlotState} {joined : List Nat} {k r call s'}
    (c : Cancelling s joined) (lock : SlotLock s') (h : SlotStep host maxClients s (.console k r) call s') :
    Cancelling s' (noteJoin joined s (.console k r) call s') := by
  cases h with
  | @console _ _ thread _ next slot here step =>
    obtain ⟨running,other,flag,active⟩ := consoleCancel step
    rw [noteOther other]
    refine ⟨lock,?_,?_,?_,?_,c.joining⟩
    · rcases flag with zero | ⟨same,sameClears⟩
      · exact .inl zero
      · rcases c.flag with zero | ⟨set,j,console,found,clears⟩
        · exact .inl (same.trans zero)
        · refine .inr ⟨same.trans set,j,?_⟩
          by_cases mine : j = k
          · subst mine
            cases Option.some.inj (here.symm.trans found)
            exact ⟨next,by simp [setAt here],sameClears.trans clears⟩
          · exact ⟨console,by rw [setAt here,if_neg mine]; exact found,clears⟩
    · intro t client j found live names
      simpa using c.owned t client j found live names
    · intro j mem
      obtain ⟨console,found,done⟩ := c.exited_ j mem
      refine ⟨console,?_,done⟩
      rw [setAt here,if_neg]
      · exact found
      · rintro rfl
        cases Option.some.inj (here.symm.trans found)
        exact running done
    · intro t client j console found looping names inTable held
      rcases active with ⟨sameActive,same⟩ | freed
      · rcases setFound here inTable with ⟨rfl,rfl⟩ | ⟨-,old⟩
        · exact sameActive.trans (c.active t client j thread found looping names here (same ▸ held))
        · exact c.active t client j console found looping names old (same ▸ held)
      · nomatch freed.symm.trans held

theorem cancelsOneClient {s : SlotState × List Nat} {l : SlotLabel} (ok : CancelsRunning s l) : OneClient s.1 l := by
  cases l with
  | start i => exact ok
  | _ => trivial

theorem cancellingStep {host : Host} {maxClients : Nat} {s s' : SlotState × List Nat} {l : SlotLabel} {call : Call}
    (c : Cancelling s.1 s.2) (ok : CancelsRunning s l)
    (act : (watch (slotMachine host maxClients) noteJoin).act s l = some (call,s')) : Cancelling s'.1 s'.2 := by
  obtain ⟨act,noted⟩ := watchAct act
  have step := slotStep act
  have lock := lockStep c.lock (cancelsOneClient ok) step
  rw [noted]
  cases l with
  | listen pc r => exact cancellingListen c lock step
  | start i => exact cancellingStart c lock ok step
  | client t r => exact cancellingClient c lock ok step
  | console k r => exact cancellingConsole c lock step

theorem freshCancelling {s : SlotState} (none : NoThreads s) (reset : s.slot.console.exitCode = 0) :
    Cancelling s [] := by
  refine ⟨noThreadsLock none,.inl reset,?_,nofun,?_,?_⟩ <;> simp [none.clients]

section
variable {State Event : Type} {host : Host} {maxClients : Nat} {os : OperatingSystem State Event}

/- The accept loop sets `exitCode` of a slot before a thread can start there. -/
structure CancelsIn (i : Nat) (s : Server State) (joined : List Nat) : Prop where
  started : (s.slots i).clients ≠ [] → Cancelling (s.slots i) joined
  empty : (s.slots i).clients = [] → NoThreads (s.slots i) ∧ joined = []
  published : s.listener = .publish i → Cancelling (s.slots i) joined
  creating : ∀ j, s.listener = .create j → s.current = j
  current : s.listener = .create i ∨ s.pending ≠ 0 → s.current = i → Cancelling (s.slots i) joined

theorem cancelsKept {i : Nat} {s s' : Server State × List Nat} {l : ServerLabel Event} {call : Call}
    (c : Cancelling (s.1.slots i) s.2) (ok : AllowedOnSlot i CancelsRunning s l)
    (act : (watch (serverMachine host maxClients os) (noteOfSlot i noteJoin)).act s l = some (call,s')) :
    Cancelling (s'.1.slots i) s'.2 := by
  have one := slotRun (.step .refl ok act)
  exact invariantOfStep (I := fun u => Cancelling u.1 u.2) cancellingStep one c

theorem listenHandover {current pc r call pc' slot current'} {s : Slot}
    (h : SocketListen.Steps maxClients s current pc r call pc' slot current') :
    (∀ j, pc' = .publish j → pc = .reset j ∧ slot.console.exitCode = 0) ∧
    (∀ j, pc' = .create j → pc = .publish j ∧ current' = j) ∧
    (current' = current ∨ ∃ j, pc' = .create j) ∧
    (∀ pending, pendingAfter pending call r ≠ 0 → pending ≠ 0 ∨ ∃ j, pc = .create j ∧ current' = current) ∧
    ∀ j, call ≠ .join j := by
  cases h <;> simp_all [pendingAfter]

theorem cancelsInListen {i : Nat} {s s' : Server State} {joined joined' : List Nat} {r : Result} {call : Call}
    (c : CancelsIn i s joined) (kept : Cancelling (s.slots i) joined → Cancelling (s'.slots i) joined')
    (noted : joined' = noteOfSlot i noteJoin joined s (.listen r : ServerLabel Event) call s')
    (h : ServerStep host maxClients os s (.listen r) call s') : CancelsIn i s' joined' := by
  cases h with
  | @listen _ _ listener slot current system step handled =>
    obtain ⟨published,creating,currents,pending,other⟩ := listenHandover step
    have same : joined' = joined := by
      rw [noted]
      simp only [noteOfSlot,ServerLabel.onSlot,noteOther other,ite_self]
    subst same
    have threads : (Function.update s.slots s.listener.slot {s.slots s.listener.slot with slot} i).clients =
        (s.slots i).clients ∧
        (Function.update s.slots s.listener.slot {s.slots s.listener.slot with slot} i).consoles =
        (s.slots i).consoles := by
      by_cases here : i = s.listener.slot
      · subst here; simp
      · simp [Function.update_of_ne here]
    refine ⟨?_,?_,?_,fun j at_ => (creating j at_).2,?_⟩
    · exact fun some => kept (c.started (threads.1 ▸ some))
    · intro none
      obtain ⟨⟨-,consoles⟩,empty⟩ := c.empty (threads.1.symm.trans none)
      exact ⟨⟨none,threads.2.trans consoles⟩,empty⟩
    · intro at_
      obtain ⟨was,reset⟩ := published i at_
      by_cases some : (s.slots i).clients = []
      · obtain ⟨⟨-,consoles⟩,rfl⟩ := c.empty some
        refine freshCancelling ⟨threads.1.trans some,threads.2.trans consoles⟩ ?_
        simpa [was,SocketListen.Pc.slot] using reset
      · exact kept (c.started some)
    · intro ready same
      refine kept ?_
      by_cases at_ : listener = .create i
      · exact c.published (creating i at_).1
      · rcases pending s.pending (ready.resolve_left at_) with waiting | ⟨j,was,unmoved⟩
        · rcases currents with unmoved | ⟨j,at'⟩
          · exact c.current (.inr waiting) (unmoved.symm.trans same)
          · have := (creating j at').2
            subst this
            exact (at_ (same ▸ at')).elim
        · have mine : s.current = i := unmoved.symm.trans same
          have named := c.creating j was
          exact c.current (.inl (by rw [was,← named,mine])) mine

theorem cancelsInApart {i : Nat} {s s' : Server State} {joined : List Nat} (c : CancelsIn i s joined)
    (slots : s'.slots i = s.slots i) (listener : s'.listener = s.listener) (current : s'.current = s.current)
    (pending : s'.pending ≠ 0 → s.pending ≠ 0) : CancelsIn i s' joined := by
  refine ⟨slots ▸ c.started,slots ▸ c.empty,?_,?_,?_⟩
  · exact fun at_ => slots ▸ c.published (listener ▸ at_)
  · exact fun j at_ => current ▸ c.creating j (listener ▸ at_)
  · intro ready same
    refine slots ▸ c.current (ready.imp (fun at_ => listener ▸ at_) pending) (current ▸ same)

theorem cancelsInSession {i : Nat} {s s' : Server State} {joined joined' : List Nat} (c : CancelsIn i s joined)
    (kept : Cancelling (s'.slots i) joined') (some : (s'.slots i).clients ≠ [])
    (listener : s'.listener = s.listener) (current : s'.current = s.current) : CancelsIn i s' joined' :=
  ⟨fun _ => kept,fun none => (some none).elim,fun _ => kept,
    fun j at_ => current ▸ c.creating j (listener ▸ at_),fun _ _ => kept⟩

theorem clientsRemain {s s' : SlotState} {t : Nat} {r : Result} {call : Call}
    (h : SlotStep host maxClients s (.client t r) call s') : s.clients ≠ [] ∧ s'.clients ≠ [] := by
  cases h with
  | client here | created here =>
    have inside := (List.getElem?_eq_some_iff.mp here).1
    constructor
    · rintro none
      simp [none] at inside
    · rintro none
      have size := congrArg List.length none
      simp at size
      simp [size] at inside

theorem noteOtherSlot {i j : Nat} {s : Server State} {joined : List Nat} {l : ServerLabel Event} {label : SlotLabel}
    {call : Call} {s' : Server State} (on : l.onSlot s = some (j,label)) (other : j ≠ i) :
    noteOfSlot i noteJoin joined s l call s' = joined := by
  simp only [noteOfSlot,on,if_neg other]

theorem cancelsInStep {i : Nat} {s s' : Server State × List Nat} {l : ServerLabel Event} {call : Call}
    (c : CancelsIn i s.1 s.2) (ok : AllowedOnSlot i CancelsRunning s l)
    (act : (watch (serverMachine host maxClients os) (noteOfSlot i noteJoin)).act s l = some (call,s')) :
    CancelsIn i s'.1 s'.2 := by
  have kept := fun c => cancelsKept c ok act
  obtain ⟨act,noted⟩ := watchAct act
  have step := serverStep act
  obtain ⟨s,joined⟩ := s
  obtain ⟨s',joined'⟩ := s'
  dsimp only at noted step kept c ⊢
  cases l with
  | listen r => exact cancelsInListen c kept noted step
  | start =>
    cases step with
    | start waiting =>
      by_cases mine : s.current = i
      · exact cancelsInSession c (kept (c.current (.inr waiting) mine)) (by simp [mine]) rfl rfl
      · rw [noteOtherSlot rfl mine] at noted
        subst noted
        exact cancelsInApart c (Function.update_of_ne (Ne.symm mine) _ _) rfl rfl (by dsimp only; omega)
  | client j t r =>
    cases step with
    | @client _ _ _ _ slot _ inSlot handled =>
      by_cases mine : j = i
      · subst mine
        have some := clientsRemain inSlot
        exact cancelsInSession c (kept (c.started some.1)) (by simpa using some.2) rfl rfl
      · rw [noteOtherSlot rfl mine] at noted
        subst noted
        exact cancelsInApart c (Function.update_of_ne (Ne.symm mine) _ _) rfl rfl id
  | console j k r =>
    cases step with
    | @console _ _ _ _ slot _ inSlot handled =>
      by_cases mine : j = i
      · subst mine
        cases inSlot with
        | console here step =>
          have some : (s.slots j).clients ≠ [] := by
            intro none
            simp [(c.empty none).1.consoles] at here
          exact cancelsInSession c (kept (c.started some)) (by simpa using some) rfl rfl
      · rw [noteOtherSlot rfl mine] at noted
        subst noted
        exact cancelsInApart c (Function.update_of_ne (Ne.symm mine) _ _) rfl rfl id
  | system e =>
    cases step with
    | system happened =>
      subst noted
      exact cancelsInApart c rfl rfl rfl id

theorem cancelReturnsIdle {i : Nat} {s : Server State} {t : Server State × List Nat} (unstarted : Unstarted s)
    (run : Reaches (watch (serverMachine host maxClients os) (noteOfSlot i noteJoin))
      (AllowedOnSlot i CancelsRunning) (s,[]) t)
    (session : (t.1.slots i).clients ≠ []) : ReturnsIdle (t.1.slots i) t.2 := by
  have start : CancelsIn i s [] := by
    refine ⟨fun some => (some (unstarted.threads i).clients).elim,fun _ => ⟨unstarted.threads i,rfl⟩,?_,?_,?_⟩
    · intro at_
      nomatch unstarted.listener.symm.trans at_
    · intro j at_
      nomatch unstarted.listener.symm.trans at_
    · rintro (at_ | waiting) -
      · nomatch unstarted.listener.symm.trans at_
      · exact (waiting unstarted.pending).elim
  have kept : CancelsIn i t.1 t.2 := invariantOfStep (I := fun u => CancelsIn i u.1 u.2) cancelsInStep run start
  exact cancellingReturns (kept.started session)

end

def firstSession (labels : List SlotLabel) : List (ServerLabel Empty) :=
  [.listen .done] ++ accepts 4 ++ [.start] ++
    (SlotLabel.client 0 (.path (ascii "/"))::labels).map (SlotLabel.onServer 0)

def catCancelled : List SlotLabel :=
  launches 0 0 "Mcat" ++ consoleStarts 0 100 ++ clientDoes 0 [heard "X",.done] ++ consoleDoes 0
    [.again false,.done,.done,.done,.done,.done,.done,.done,.process 100,.done,.done,.done,.done]

theorem catCancelledIdle : ∃ t, run (watch (serverMachine plainHost 19 noSystem) (noteOfSlot 0 noteJoin))
      (AllowedOnSlot 0 CancelsRunning) (booted (),[]) (firstSession catCancelled) = some t ∧
    (t.1.slots 0).clients.map (fun thread => thread.pc) = [.join] ∧ ReturnsIdle (t.1.slots 0) t.2 := by
  have ends : (run (watch (serverMachine plainHost 19 noSystem) (noteOfSlot 0 noteJoin))
      (AllowedOnSlot 0 CancelsRunning) (booted (),[]) (firstSession catCancelled)).map
      (fun t => (t.1.slots 0).clients.map fun thread => thread.pc) = some [.join] := by decide +kernel
  obtain ⟨t,ran,waits⟩ := Option.map_eq_some_iff.mp ends
  refine ⟨t,ran,waits,cancelReturnsIdle (bootedUnstarted ()) (runReaches ran) ?_⟩
  rintro none
  simp [none] at waits

def cancelTooLate : List SlotLabel :=
  launches 0 0 "Mls" ++ consoleStarts 0 100 ++ consoleReturns 0 100 ++ clientDoes 0 [heard "X",.done,.done]

theorem lateCancelStays : ∃ t, Reaches (watch (serverMachine plainHost 19 noSystem) (noteOfSlot 0 noteJoin)) free
      (booted (),[]) t ∧ (t.1.slots 0).slot.console.exitCode = 1 ∧
    run (slotMachine plainHost 19) free (t.1.slots 0) (clientDoes 0 [heard "Mpwd",.done]) = some (t.1.slots 0) ∧
    ¬ ReturnsIdle (t.1.slots 0) t.2 := by
  have ends : (run (watch (serverMachine plainHost 19 noSystem) (noteOfSlot 0 noteJoin)) free
      (booted (),[]) (firstSession cancelTooLate)).map (fun t => ((t.1.slots 0).slot.console.exitCode,
        (t.1.slots 0).consoles,decide (run (slotMachine plainHost 19) free (t.1.slots 0)
          (clientDoes 0 [heard "Mpwd",.done]) = some (t.1.slots 0)))) =
      some (1,[⟨.done,0,100,true⟩],true) := by decide +kernel
  obtain ⟨t,ran,same⟩ := Option.map_eq_some_iff.mp ends
  obtain ⟨set,same⟩ := Prod.mk.inj same
  obtain ⟨consoles,ignored⟩ := Prod.mk.inj same
  refine ⟨t,runReaches ran,set,of_decide_eq_true ignored,fun idle => ?_⟩
  obtain ⟨k,console,found,clears⟩ := idle.running (by simp [set])
  rw [consoles] at found
  have done := List.mem_singleton.mp (List.mem_of_getElem? found)
  subst done
  nomatch clears

end RemoteTerminal
