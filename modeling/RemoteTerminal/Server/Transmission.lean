import RemoteTerminal.Server.Lock

/-! "EOT" closes a response. Beside a slot stand the running processes of its commands,
which start others and exit by themselves, and whether the last thing sent was "EOT" with
no 'M' message read after it. -/
namespace RemoteTerminal
open ByteStrings LabelledRuns EntryTable

structure Session where
  slot : SlotState
  running : List Nat
  closed : Bool
  deriving DecidableEq, Repr

inductive SessionLabel where
  | slot (l : SlotLabel)
  | spawn (parent child : Nat)
  | exit (pid : Nat)
  deriving DecidableEq, Repr

def SlotLabel.result : SlotLabel → Result
  | .listen _ r | .client _ r | .console _ r => r
  | .start _ => .done

/- SIGKILL ends the process it reaches. -/
def runningAfter (running : List Nat) (l : SlotLabel) : Call → List Nat
  | .fork _ => match l.result with
    | .process pid => pid::running
    | _ => running
  | .kill pid => match l.result with
    | .done => running.filter fun p => (p : Int) ≠ pid
    | _ => running
  | _ => running

def readsMessage : Result → Bool
  | .received r => r.bytesReceived ≠ 0 && match branch r.sPacket with
    | .message _ => true
    | _ => false
  | _ => false

def closedAfter (closed : Bool) (l : SlotLabel) : Call → Bool
  | .send _ .endOfTransmission => true
  | .recv _ => closed && !readsMessage l.result
  | .accept => false
  | _ => closed

def sessionMachine (host : Host) (maxClients : Nat) : Machine Session SessionLabel Call where
  act s
    | .slot l => do
      let (call,slot) ← (slotMachine host maxClients).act s.slot l
      some (call,⟨slot,runningAfter s.running l call,closedAfter s.closed l call⟩)
    | .spawn parent child =>
      if parent ∈ s.running then some (.memory,{s with running := child::s.running}) else none
    | .exit pid => some (.memory,{s with running := s.running.filter (· ≠ pid)})

def NewClient.Pc.owesFrame : NewClient.Pc → Bool
  | .message _ | .refuse | .changeDirectory _ | .readDirectory _ | .setCommand _ | .prompt
  | .route _ | .launch _ | .openOutput | .openInput | .activate | .create | .createFailed => true
  | _ => false

def NewConsole.Pc.owesFrame : NewConsole.Pc → Bool
  | .finish | .clearExit | .deactivate | .wait | .closeAgain _ | .done => false
  | _ => true

def NewConsole.Pc.holdsProcess : NewConsole.Pc → Bool
  | .closeInput | .closeOutput | .enter | .read | .probe | .probed _ | .testExit | .relay _
  | .mailbox | .write | .clearFlag | .clearText | .kill | .killNext => true
  | _ => false

def NewClient.Pc.finishing : NewClient.Pc → Bool
  | .finish _ => true
  | _ => false

/- A thread sends "EOT" only while the other one owes no frame, and the second `kill`
reaches whatever still runs. -/
def InTurn (s : Session) : SessionLabel → Prop
  | .slot (.start i) => OneClient s.slot (.start i)
  | .slot (.client t _) => ∀ thread ∈ s.slot.clients[t]?, thread.pc.finishing = true →
      ∀ console ∈ s.slot.consoles, console.pc.owesFrame = false
  | .slot (.console k r) => ∀ console ∈ s.slot.consoles[k]?,
      (console.pc = .finish → ∀ thread ∈ s.slot.clients, thread.pc.owesFrame = false) ∧
      (console.pc = .killNext → ∀ pid ∈ s.running, (pid : Int) = console.pipeProcessID+1 ∧ r = .done)
  | _ => True
instance (s) : (l : SessionLabel) → Decidable (InTurn s l)
  | .slot (.start _) | .slot (.client _ _) | .slot (.console _ _) => by dsimp only [InTurn]; infer_instance
  | .slot (.listen _ _) | .spawn _ _ | .exit _ => isTrue trivial

structure ClosesResponse (s : Session) (call : Call) : Prop where
  alone : ∀ socket, call = .send socket .endOfTransmission → s.running = []
  silent : ∀ socket text, call = .send socket (.frame text) → s.closed = false

structure Responding (s : Session) : Prop where
  lock : SlotLock s.slot
  held : (∀ console ∈ s.slot.consoles, console.pc.holdsProcess = false) → s.running = []
  answered : s.closed = true → ∀ thread ∈ s.slot.clients, thread.pc.owesFrame = false
  silent : s.closed = true → ∀ console ∈ s.slot.consoles, console.pc.owesFrame = false

theorem clientTransmission {host t s r call t' s'} (h : NewClient.Steps host t s r call t' s') :
    (∀ running l, runningAfter running l call = running) ∧
    ((∃ socket, call = .send socket .endOfTransmission ∧ t.pc.finishing = true ∧ t'.pc.owesFrame = false) ∨
     (∃ socket text, call = .send socket (.frame text) ∧ t.pc.owesFrame = true) ∨
     (∃ socket, call = .recv socket ∧ (t'.pc.owesFrame = true → readsMessage r = true)) ∨
     ((∀ socket message, call ≠ .send socket message) ∧ (∀ socket, call ≠ .recv socket) ∧ call ≠ .accept ∧
       (t'.pc.owesFrame = true → t.pc.owesFrame = true))) := by
  cases h <;> simp_all [NewClient.Pc.owesFrame,NewClient.Pc.finishing,runningAfter,readsMessage]

theorem consoleTransmission {t s r call t' s'} (h : NewConsole.Steps t s r call t' s') :
    (∃ socket, call = .send socket .endOfTransmission ∧ t.pc = .finish ∧ t'.pc.owesFrame = false ∧
      t'.pc.holdsProcess = false) ∨
    (∃ command, call = .fork command ∧ t.pc.owesFrame = true ∧ t'.pc.holdsProcess = true) ∨
    (call = .kill (t.pipeProcessID+1) ∧ t.pc = .killNext ∧ t'.pc.holdsProcess = false) ∨
    (t.pc.holdsProcess = true ∧ t'.pc.holdsProcess = true ∧ (∀ socket, call ≠ .recv socket) ∧ call ≠ .accept ∧
      ∀ socket, call ≠ .send socket .endOfTransmission) ∨
    (t'.pc.holdsProcess = t.pc.holdsProcess ∧ (t'.pc.owesFrame = true → t.pc.owesFrame = true) ∧
      (∀ running l, runningAfter running l call = running) ∧
      (∀ socket text, call = .send socket (.frame text) → t.pc.owesFrame = true) ∧
      (∀ socket, call ≠ .send socket .endOfTransmission) ∧ (∀ socket, call ≠ .recv socket) ∧ call ≠ .accept) := by
  cases h <;> simp_all [NewConsole.Pc.owesFrame,NewConsole.Pc.holdsProcess,runningAfter]

theorem doneOwesNothing {pc : NewClient.Pc} (stopped : pc = .done) : pc.owesFrame = false := by
  rw [stopped]; rfl

theorem heldOwes {pc : NewConsole.Pc} (holds : pc.holdsProcess = true) : pc.owesFrame = true := by
  cases pc <;> simp_all [NewConsole.Pc.holdsProcess,NewConsole.Pc.owesFrame]

theorem owingActive {pc : NewConsole.Pc} (owes : pc.owesFrame = true) : pc.active = true := by
  cases pc <;> simp_all [NewConsole.Pc.owesFrame,NewConsole.Pc.active]

theorem freeOfDebt {pc : NewConsole.Pc} (free : pc.owesFrame = false) : pc.holdsProcess = false := by
  cases holds : pc.holdsProcess with
  | false => rfl
  | true => rw [heldOwes holds] at free; contradiction

theorem othersSilent {s t thread next} (lock : SlotLock s) (here : s.clients[t]? = some thread)
    (live : thread.pc ≠ .done) (silent : next.pc.owesFrame = false) :
    ∀ client ∈ s.clients.set t next, client.pc.owesFrame = false := by
  intro client mem
  by_cases stopped : client.pc = .done
  · exact doneOwesNothing stopped
  · exact onlyLiveNext lock here live mem stopped ▸ silent

theorem onlyHolder {s k thread} (next : NewConsole.Thread) (lock : SlotLock s) (here : s.consoles[k]? = some thread)
    (active : thread.pc.active = true) (p : NewConsole.Pc → Bool) (works : ∀ pc, p pc = true → pc.active = true)
    (off : p next.pc = false) : ∀ console ∈ s.consoles.set k next, p console.pc = false := by
  intro console mem
  rcases (memSet here).mp mem with rfl | ⟨j,differ,found⟩
  · exact off
  · cases on : p console.pc with
    | false => rfl
    | true =>
      have idle := othersInactive lock here active differ found
      rw [works _ on] at idle
      contradiction

theorem openResponding {slot : SlotState} {running : List Nat} {closed : Bool} (lock : SlotLock slot)
    (held : (∀ console ∈ slot.consoles, console.pc.holdsProcess = false) → running = []) (open_ : closed = false) :
    Responding ⟨slot,running,closed⟩ :=
  ⟨lock,held,fun wrong => Bool.noConfusion (open_.symm.trans wrong),
    fun wrong => Bool.noConfusion (open_.symm.trans wrong)⟩

theorem openWhileOwed {s : Session} (responding : Responding s) :
    (∀ thread ∈ s.slot.clients, thread.pc.owesFrame = true → s.closed = false) ∧
    ∀ console ∈ s.slot.consoles, console.pc.owesFrame = true → s.closed = false := by
  constructor
  · intro thread mem owes
    by_contra closed
    rw [responding.answered (by simpa using closed) thread mem] at owes
    contradiction
  · intro console mem owes
    by_contra closed
    rw [responding.silent (by simpa using closed) console mem] at owes
    contradiction

theorem respondingListen {host maxClients s pc r call slot} (responding : Responding s)
    (h : SlotStep host maxClients s.slot (.listen pc r) call slot) (lock : SlotLock slot) :
    Responding ⟨slot,runningAfter s.running (.listen pc r) call,closedAfter s.closed (.listen pc r) call⟩ ∧
      ClosesResponse s call := by
  obtain ⟨_,held,answered,silent⟩ := responding
  cases h with
  | listen step =>
    cases step <;> exact ⟨⟨lock,held,by first | exact answered | exact Bool.noConfusion,
      by first | exact silent | exact Bool.noConfusion⟩,⟨by simp,by simp⟩⟩

theorem respondingClient {host maxClients s t r call slot} (responding : Responding s)
    (ok : InTurn s (.slot (.client t r))) (h : SlotStep host maxClients s.slot (.client t r) call slot)
    (lock : SlotLock slot) :
    Responding ⟨slot,runningAfter s.running (.client t r) call,closedAfter s.closed (.client t r) call⟩ ∧
      ClosesResponse s call := by
  have owed := (openWhileOwed responding).1
  obtain ⟨before,held,answered,silent⟩ := responding
  cases h with
  | @client _ _ thread _ next memory here step noThread joined =>
    have mem : thread ∈ s.slot.clients := List.mem_of_getElem? here
    have live := clientNotDone step
    obtain ⟨sameRunning,moves⟩ := clientTransmission step
    rw [sameRunning]
    rcases moves with ⟨socket,rfl,finishing,after⟩ | ⟨socket,text,rfl,owes⟩ | ⟨socket,rfl,reads⟩ |
        ⟨noSend,noRecv,noAccept,owing⟩
    · have quiet := ok thread here finishing
      refine ⟨⟨lock,held,fun _ => othersSilent before here live after,fun _ => quiet⟩,?_,by simp⟩
      exact fun _ _ => held fun console found => freeOfDebt (quiet console found)
    · have opened := owed thread mem owes
      exact ⟨openResponding lock held (by simp [closedAfter,opened]),by simp,fun _ _ _ => opened⟩
    · refine ⟨⟨lock,held,?_,?_⟩,by simp,by simp⟩
      · intro closed
        simp only [closedAfter,SlotLabel.result,Bool.and_eq_true,Bool.not_eq_true'] at closed
        refine othersSilent before here live (eq_false_of_ne_true fun owes => ?_)
        rw [reads owes] at closed
        exact Bool.noConfusion closed.2
      · intro closed
        simp only [closedAfter,Bool.and_eq_true] at closed
        exact silent closed.1
    · have same : closedAfter s.closed (.client t r) call = s.closed := by
        cases call <;> simp_all [closedAfter]
      rw [same]
      refine ⟨⟨lock,held,?_,silent⟩,fun socket sent => (noSend _ _ sent).elim,
        fun socket text sent => (noSend _ _ sent).elim⟩
      intro closed
      refine othersSilent before here live (eq_false_of_ne_true fun owes => ?_)
      rw [owed thread mem (owing owes)] at closed
      contradiction
  | @created _ thread here at_ =>
    have mem : thread ∈ s.slot.clients := List.mem_of_getElem? here
    have opened := owed thread mem (by rw [at_]; rfl)
    refine ⟨openResponding lock ?_ (by simp [closedAfter,opened]),by simp,by simp⟩
    exact fun none => held fun console found => none console (List.mem_append_left _ found)

theorem respondingConsole {host maxClients s k r call slot} (responding : Responding s)
    (ok : InTurn s (.slot (.console k r))) (h : SlotStep host maxClients s.slot (.console k r) call slot)
    (lock : SlotLock slot) :
    Responding ⟨slot,runningAfter s.running (.console k r) call,closedAfter s.closed (.console k r) call⟩ ∧
      ClosesResponse s call := by
  have owed := (openWhileOwed responding).2
  obtain ⟨before,held,answered,silent⟩ := responding
  cases h with
  | @console _ _ thread _ next memory here step =>
    have mem : thread ∈ s.slot.consoles := List.mem_of_getElem? here
    have opened : thread.pc.owesFrame = true → s.closed = false := owed thread mem
    have stays (owes : thread.pc.owesFrame = true) (noEnd : ∀ socket, call ≠ .send socket .endOfTransmission) :
        closedAfter s.closed (.console k r) call = false := by
      rw [opened owes]
      cases call with
      | send socket message => cases message <;> simp_all [closedAfter]
      | _ => rfl
    rcases consoleTransmission step with ⟨socket,rfl,at_,quietNext,freeNext⟩ | ⟨command,rfl,owes,holds⟩ |
        ⟨rfl,at_,freeNext⟩ | ⟨holds,holdsNext,_,_,noEnd⟩ | ⟨same,owing,sameRunning,frame,noEnd,noRecv,noAccept⟩
    · have working : thread.pc.active = true := by rw [at_]; rfl
      have nothing : s.running = [] := by
        refine held fun console found => ?_
        rw [← setSame here] at found
        refine onlyHolder thread before here working _ ?_ (by rw [at_]; rfl) console found
        exact fun pc holds => owingActive (heldOwes holds)
      refine ⟨⟨lock,fun _ => nothing,fun _ => (ok thread here).1 at_,fun _ => ?_⟩,fun _ _ => nothing,by simp⟩
      exact onlyHolder next before here working _ (fun pc owes => owingActive owes) quietNext
    · refine ⟨openResponding lock (fun none => ?_) (stays owes (by simp)),by simp,by simp⟩
      rw [none next ((memSet here).mpr (.inl rfl))] at holds
      contradiction
    · have open_ := stays (by rw [at_]; rfl) (by simp)
      have nothing : runningAfter s.running (.console k r) (.kill (thread.pipeProcessID+1)) = [] := by
        have reached := (ok thread here).2 at_
        cases running : s.running with
        | nil => cases r <;> rfl
        | cons first rest =>
          have done : r = .done := (reached first (by simp [running])).2
          rw [done]
          refine List.filter_eq_nil_iff.mpr fun pid present => ?_
          simp [(reached pid (running ▸ present)).1]
      exact ⟨openResponding lock (fun _ => nothing) open_,by simp,by simp⟩
    · refine ⟨openResponding lock (fun none => ?_) (stays (heldOwes holds) noEnd),
        fun socket sent => (noEnd socket sent).elim,fun _ _ _ => opened (heldOwes holds)⟩
      rw [none next ((memSet here).mpr (.inl rfl))] at holdsNext
      contradiction
    · have sameClosed : closedAfter s.closed (.console k r) call = s.closed := by
        cases call with
        | send socket message => cases message <;> simp_all [closedAfter]
        | _ => simp_all [closedAfter]
      rw [sameRunning,sameClosed]
      refine ⟨⟨lock,?_,answered,?_⟩,fun socket sent => (noEnd socket sent).elim,
        fun socket text sent => opened (frame socket text sent)⟩
      · intro none
        refine held fun console found => ?_
        rcases memOld next here found with rfl | still
        · exact same ▸ none next ((memSet here).mpr (.inl rfl))
        · exact none console still
      · intro closed console found
        rcases (memSet here).mp found with rfl | ⟨j,_,there⟩
        · refine eq_false_of_ne_true fun owes => ?_
          rw [opened (owing owes)] at closed
          contradiction
        · exact silent closed console (List.mem_of_getElem? there)

theorem respondingStep {host maxClients s l call u} (responding : Responding s) (ok : InTurn s l)
    (h : (sessionMachine host maxClients).act s l = some (call,u)) : Responding u ∧ ClosesResponse s call := by
  cases l with
  | slot l =>
    obtain ⟨⟨called,slot⟩,act,last⟩ := Option.bind_eq_some_iff.mp h
    cases Option.some.inj last
    have step := slotStep act
    have one : OneClient s.slot l := by
      cases l with
      | start i => exact ok
      | _ => trivial
    have lock := lockStep responding.lock one step
    cases l with
    | listen pc r => exact respondingListen responding step lock
    | client t r => exact respondingClient responding ok step lock
    | console k r => exact respondingConsole responding ok step lock
    | start i =>
      obtain ⟨_,held,answered,silent⟩ := responding
      cases step
      refine ⟨⟨lock,held,fun closed thread mem => ?_,silent⟩,by simp,by simp⟩
      rcases List.mem_append.mp mem with old | new
      · exact answered closed thread old
      · rw [List.mem_singleton.mp new]
        rfl
  | spawn parent child =>
    simp only [sessionMachine] at h
    split at h <;> try contradiction
    rename_i present
    cases Option.some.inj h
    refine ⟨⟨responding.lock,fun none => ?_,responding.answered,responding.silent⟩,by simp,by simp⟩
    rw [responding.held none] at present
    contradiction
  | exit pid =>
    cases Option.some.inj h
    refine ⟨⟨responding.lock,fun none => ?_,responding.answered,responding.silent⟩,by simp,by simp⟩
    simp [responding.held none]

def quietSession : Session := ⟨vacant false false,[],false⟩

def killsAll (k : Nat) : List SlotLabel := consoleDoes k [.endOfFile,.done,.done,.done]

def catEnded : List SlotLabel :=
  sessionOpens 4 (ascii "/") ++ launches 0 0 "Mcat" ++ consoleStarts 0 100 ++ killsAll 0

def changesRoot : List SlotLabel :=
  sessionOpens 4 (ascii "/") ++ launches 0 0 "Mcat" ++ consoleStarts 0 100 ++
    clientDoes 0 [heard "Mcd /",.done,.done,.path (ascii "/"),.done,.done,.done]

end RemoteTerminal
