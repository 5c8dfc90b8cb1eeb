import RemoteTerminal.Server.Ledger
import RemoteTerminal.Server.Authorship

/-! What a client sees that waits for "EOT" before it sends the next command. Beside a slot
stands the list of its exchanges, the latest first: the text of the message, what the
console thread then read from the process, and what was sent. -/
namespace RemoteTerminal
open ByteStrings LabelledRuns EntryTable

structure Exchange where
  text : Bytes
  chunks : List Bytes
  sends : List Sent
  deriving DecidableEq, Repr

def asked (p : Bytes) : Exchange := ⟨p,[],[]⟩

def Exchange.adds (e : Exchange) (message : Sent) : Exchange := {e with sends := e.sends ++ [message]}
def Exchange.reads (e : Exchange) (b : Bytes) : Exchange := {e with chunks := e.chunks ++ [b]}

def outputFrame (b : Bytes) : Sent := .frame (cString b)

/- A whole answer: a refusal, the prompt in the directory that was asked for, or the prompt,
every chunk of output cut at its first zero and the report of the end. -/
inductive Answer (host : Host) (p : Bytes) : List Bytes → List Sent → Prop where
  | refusal (denied : NewClient.refused host p = true) :
      Answer host p [] [.frame refusalText,.endOfTransmission]
  | directory {d : ThreadData} (allowed : NewClient.refused host p = false)
      (change : NewClient.changesDirectory p = true) (echoes : d.command = p) :
      Answer host p [] [.frame (promptText d),.endOfTransmission]
  | process {d : ThreadData} {chunks : List Bytes} {pid : Int} (allowed : NewClient.refused host p = false)
      (other : NewClient.changesDirectory p = false) (echoes : d.command = p) :
      Answer host p chunks
        (.frame (promptText d)::chunks.map outputFrame ++ [.frame (killedText pid),.endOfTransmission])
  | failed (allowed : NewClient.refused host p = false) (other : NewClient.changesDirectory p = false) :
      Answer host p [] [.frame createFailedText,.endOfTransmission]

def Exchange.Whole (host : Host) (e : Exchange) : Prop := Answer host e.text e.chunks e.sends

def Exchange.Silent (e : Exchange) : Prop := e.chunks = [] ∧ e.sends = []

def Exchange.Part (host : Host) (e : Exchange) : Prop :=
  ∃ chunks rest, Answer host e.text (e.chunks ++ chunks) (e.sends ++ rest)

def Exchange.ended (e : Exchange) : Bool := e.sends.getLast? = some .endOfTransmission

def Exchange.after (e : Exchange) : Result → Call → Exchange
  | .output b,_ => e.reads b
  | _,.send _ message => e.adds message
  | _,_ => e

def noteExchange (memo : List Exchange) (_ : SlotState) (l : SlotLabel) (call : Call) (_ : SlotState) :
    List Exchange :=
  match l with
  | .client _ (.received r) => (heardText r).toList.map asked ++ memo
  | .client _ r | .console _ r => memo.modifyHead fun e => e.after r call
  | _ => memo

/- The client sends a command only when it has the "EOT" of the one before. -/
def Patient (s : SlotState × List Exchange) : SlotLabel → Prop
  | .client _ (.received r) => (heardText r).isSome = true → ∀ e ∈ s.2.head?, e.ended = true
  | _ => True
instance (s : SlotState × List Exchange) : (l : SlotLabel) → Decidable (Patient s l)
  | .client _ (.received _) => by dsimp only [Patient]; infer_instance
  | .client _ .done | .client _ .failed | .client _ (.thread _) | .client _ (.descriptor _)
  | .client _ (.descriptors _ _) | .client _ (.process _) | .client _ (.path _) | .client _ (.output _)
  | .client _ (.again _) | .client _ .endOfFile | .listen _ _ | .start _ | .console _ _ => isTrue trivial

structure Prompted (d : ThreadData) (e : Exchange) (chunks : List Bytes) : Prop where
  echoes : d.command = e.text
  sent : e.sends = .frame (promptText d)::chunks.map outputFrame

def ClientStage (host : Host) (pc : NewClient.Pc) (command : Bytes) (e : Exchange) : Prop :=
  match pc with
  | .message p => e = asked p
  | .refuse => e.Silent ∧ NewClient.refused host e.text = true
  | .changeDirectory p | .readDirectory p | .setCommand p =>
    e = asked p ∧ NewClient.refused host p = false ∧ NewClient.changesDirectory p = true
  | .prompt => e.Silent ∧ command = e.text ∧ NewClient.refused host e.text = false ∧
      NewClient.changesDirectory e.text = true
  | .returnDirectory => e.chunks = [] ∧ (∃ d, Prompted d e []) ∧ NewClient.refused host e.text = false ∧
      NewClient.changesDirectory e.text = true
  | .finish _ => (∃ text, e.sends = [.frame text]) ∧ Answer host e.text e.chunks (e.sends ++ [.endOfTransmission])
  | .route p | .launch p =>
    e = asked p ∧ NewClient.refused host p = false ∧ NewClient.changesDirectory p = false
  | .openOutput | .openInput | .activate | .create => e.Silent ∧ command = e.text ∧
      NewClient.refused host e.text = false ∧ NewClient.changesDirectory e.text = false
  | .createFailed => e.Silent ∧ NewClient.refused host e.text = false ∧ NewClient.changesDirectory e.text = false
  | _ => True

structure ConsoleStage (host : Host) (pc : NewConsole.Pc) (command : Bytes) (e : Exchange) : Prop where
  allowed : NewClient.refused host e.text = false
  other : NewClient.changesDirectory e.text = false
  reached : match pc with
    | .prompt => e.Silent ∧ command = e.text
    | .relay b => ∃ d chunks, e.chunks = chunks ++ [b] ∧ Prompted d e chunks
    | .finish => ∃ d pid, d.command = e.text ∧
        e.sends = .frame (promptText d)::e.chunks.map outputFrame ++ [.frame (killedText pid)]
    | _ => ∃ d, Prompted d e e.chunks

structure Answering (host : Host) (s : SlotState × List Exchange) : Prop where
  one : handled s.1 + unended s.1 ≤ 1
  past : ∀ e ∈ s.2.tail, e.Whole host
  client : ∀ thread ∈ s.1.clients, thread.pc.handling = 1 →
    ∃ e, s.2.head? = some e ∧ ClientStage host thread.pc s.1.slot.console.command e
  console : ∀ thread ∈ s.1.consoles, thread.pc.unended = 1 →
    ∃ e, s.2.head? = some e ∧ ConsoleStage host thread.pc s.1.slot.console.command e
  rest : handled s.1 + unended s.1 = 0 → ∀ e ∈ s.2.head?, e.Silent ∨ e.Whole host

section
variable (e : Exchange) (p b : Bytes) (message : Sent)

@[simp] theorem askedText : (asked p).text = p := rfl
@[simp] theorem askedSilent : (asked p).Silent := ⟨rfl,rfl⟩
@[simp] theorem addsText : (e.adds message).text = e.text := rfl
@[simp] theorem addsChunks : (e.adds message).chunks = e.chunks := rfl
@[simp] theorem addsSends : (e.adds message).sends = e.sends ++ [message] := rfl
@[simp] theorem readsText : (e.reads b).text = e.text := rfl
@[simp] theorem readsChunks : (e.reads b).chunks = e.chunks ++ [b] := rfl
@[simp] theorem readsSends : (e.reads b).sends = e.sends := rfl

end

section
variable {host : Host} {e : Exchange}

theorem refusedFinish (silent : e.Silent) (denied : NewClient.refused host e.text = true) :
    ClientStage host (.finish true) [] (e.adds (.frame refusalText)) := by
  obtain ⟨chunks,sends⟩ := silent
  refine ⟨⟨_,by simp [sends]; rfl⟩,?_⟩
  simpa [sends,chunks] using Answer.refusal denied

theorem promptedFinish (chunks : e.chunks = []) (prompted : ∃ d, Prompted d e [])
    (allowed : NewClient.refused host e.text = false) (change : NewClient.changesDirectory e.text = true) :
    ClientStage host (.finish true) [] e := by
  obtain ⟨d,echoes,sends⟩ := prompted
  refine ⟨⟨_,sends⟩,?_⟩
  rw [sends,chunks]
  exact Answer.directory allowed change echoes

theorem failedFinish (silent : e.Silent) (allowed : NewClient.refused host e.text = false)
    (other : NewClient.changesDirectory e.text = false) :
    ClientStage host (.finish false) [] (e.adds (.frame createFailedText)) := by
  obtain ⟨chunks,sends⟩ := silent
  refine ⟨⟨_,by simp [sends]; rfl⟩,?_⟩
  simpa [sends,chunks] using Answer.failed allowed other

theorem clientPrompted {d : ThreadData} (silent : e.Silent) (echoes : d.command = e.text) :
    Prompted d (e.adds (.frame (promptText d))) [] :=
  ⟨echoes,by simp [silent.2]⟩

end

theorem clientStage {host t s r call t' s' e} (h : NewClient.Steps host t s r call t' s')
    (handling : t.pc.handling = 1) (stage : ClientStage host t.pc s.console.command e) :
    (t'.pc.handling = 1 → ClientStage host t'.pc s'.console.command (e.after r call)) ∧
      (t'.pc.handling = 0 → (e.after r call).Silent ∨ (e.after r call).Whole host) := by
  cases h with
  | refuse at_ =>
    rw [at_] at stage
    exact ⟨fun _ => refusedFinish stage.1 stage.2,nofun⟩
  | prompt at_ =>
    rw [at_] at stage
    obtain ⟨silent,echoes,allowed,change⟩ := stage
    exact ⟨fun _ => ⟨silent.1,⟨_,clientPrompted silent echoes⟩,allowed,change⟩,nofun⟩
  | returnDirectory at_ outcome =>
    rw [at_] at stage
    obtain ⟨chunks,prompted,allowed,change⟩ := stage
    rcases outcome with rfl | rfl <;> exact ⟨fun _ => promptedFinish chunks prompted allowed change,nofun⟩
  | answered at_ | abandoned at_ =>
    rw [at_] at stage
    exact ⟨nofun,fun _ => .inr stage.2⟩
  | createFailed at_ =>
    rw [at_] at stage
    exact ⟨fun _ => failedFinish stage.1 stage.2.1 stage.2.2,nofun⟩
  | _ => simp_all [NewClient.Pc.handling,ClientStage,Exchange.after]

theorem consolePrompted {d : ThreadData} {e : Exchange} (silent : e.Silent) (echoes : d.command = e.text) :
    Prompted d (e.adds (.frame (promptText d))) (e.adds (.frame (promptText d))).chunks :=
  ⟨echoes,by simp [silent.1,silent.2]⟩

theorem consoleStage {host t s r call t' s' e} (h : NewConsole.Steps t s r call t' s') (unended : t.pc.unended = 1)
    (stage : ConsoleStage host t.pc s.console.command e) :
    (t'.pc.unended = 1 → ConsoleStage host t'.pc s'.console.command (e.after r call)) ∧
      (t'.pc.unended = 0 → (e.after r call).Whole host) := by
  obtain ⟨allowed,other,reached⟩ := stage
  cases h with
  | prompt at_ =>
    rw [at_] at reached
    exact ⟨fun _ => ⟨allowed,other,_,consolePrompted reached.1 reached.2⟩,nofun⟩
  | output at_ =>
    rw [at_] at reached
    obtain ⟨d,echoes,sent⟩ := reached
    exact ⟨fun _ => ⟨allowed,other,d,e.chunks,rfl,echoes,sent⟩,nofun⟩
  | relay at_ =>
    rw [at_] at reached
    obtain ⟨d,chunks,same,echoes,sent⟩ := reached
    refine ⟨fun _ => ⟨allowed,other,d,echoes,?_⟩,nofun⟩
    simp [Exchange.after,sent,same,outputFrame]
  | report at_ =>
    rw [at_] at reached
    obtain ⟨d,echoes,sent⟩ := reached
    refine ⟨fun _ => ⟨allowed,other,d,t.pipeProcessID,echoes,?_⟩,nofun⟩
    simp [Exchange.after,sent]
  | finish at_ =>
    rw [at_] at reached
    obtain ⟨d,pid,echoes,sent⟩ := reached
    refine ⟨nofun,fun _ => ?_⟩
    have whole : Answer host e.text e.chunks
        (.frame (promptText d)::e.chunks.map outputFrame ++ [.frame (killedText pid),.endOfTransmission]) :=
      .process allowed other echoes
    simpa [Exchange.Whole,Exchange.after,sent] using whole
  | returnDirectory at_ outcome | ended at_ outcome | kill at_ outcome | killNext at_ outcome =>
    rw [at_] at reached
    rcases outcome with rfl | rfl <;> exact ⟨fun _ => ⟨allowed,other,reached⟩,nofun⟩
  | clearExit at_ | deactivate at_ | reaped at_ | noChild at_ | closeAgain at_ | closeLast at_ =>
    rw [at_] at unended
    cases unended
  | _ at_ =>
    rw [at_] at reached
    exact ⟨fun _ => ⟨allowed,other,reached⟩,nofun⟩

theorem clientHandling (pc : NewClient.Pc) : pc.handling = 0 ∨ pc.handling = 1 := by
  cases pc <;> simp [NewClient.Pc.handling]

theorem consoleUnended (pc : NewConsole.Pc) : pc.unended = 0 ∨ pc.unended = 1 := by
  cases pc <;> simp [NewConsole.Pc.unended]

theorem silentNotEnded {e : Exchange} (silent : e.Silent) : e.ended = false := by
  simp [Exchange.ended,silent.2]

theorem promptedNotEnded {d : ThreadData} {e : Exchange} {chunks : List Bytes} (prompted : Prompted d e chunks) :
    e.ended = false := by
  rw [Exchange.ended,prompted.sent,decide_eq_false_iff_not]
  intro last
  have mem := List.mem_of_getLast? last
  simp [outputFrame] at mem

theorem clientNotEnded {host pc command e} (handling : NewClient.Pc.handling pc = 1)
    (stage : ClientStage host pc command e) : e.ended = false := by
  cases pc with
  | message p =>
    cases stage
    exact silentNotEnded (askedSilent p)
  | changeDirectory p | readDirectory p | setCommand p | route p | launch p =>
    cases stage.1
    exact silentNotEnded (askedSilent p)
  | refuse | prompt | openOutput | openInput | activate | create | createFailed => exact silentNotEnded stage.1
  | returnDirectory =>
    obtain ⟨-,⟨d,prompted⟩,-⟩ := stage
    exact promptedNotEnded prompted
  | finish again =>
    obtain ⟨⟨text,sends⟩,-⟩ := stage
    simp [Exchange.ended,sends]
  | start | enter | receive | deposit _ | flag | cancel | join | leave | closeSocket | freeSlot | exit | done =>
    cases handling

theorem consoleNotEnded {host pc command e} (unended : NewConsole.Pc.unended pc = 1)
    (stage : ConsoleStage host pc command e) : e.ended = false := by
  have reached := stage.reached
  cases pc with
  | prompt => exact silentNotEnded reached.1
  | relay b =>
    obtain ⟨d,chunks,-,prompted⟩ := reached
    exact promptedNotEnded prompted
  | finish =>
    obtain ⟨d,pid,-,sends⟩ := reached
    rw [Exchange.ended,sends,List.getLast?_concat]
    rfl
  | clearExit | deactivate | wait | closeAgain _ | done => cases unended
  | _ =>
    obtain ⟨d,prompted⟩ := reached
    exact promptedNotEnded prompted

structure ClientRests (t : NewClient.Thread) (d : ThreadData) (r : Result) (call : Call) (t' : NewClient.Thread)
    (d' : ThreadData) : Prop where
  command : d'.command = d.command
  after : ∀ e : Exchange, e.after r call = e
  next : (t'.pc.handling = 0 ∧ ∀ got, r = .received got → heardText got = none) ∨ ∃ got p, r = .received got ∧ heardText got = some p ∧ t'.pc = .message p

theorem clientRests {host t s r call t' s'} (h : NewClient.Steps host t s r call t' s') (free : t.pc.handling = 0) :
    ClientRests t s.console r call t' s'.console := by
  constructor
  · cases h <;> simp_all [NewClient.Pc.handling]
  · cases h <;> simp_all [NewClient.Pc.handling,Exchange.after]
  · cases h with
    | readEnd at_ ends =>
      refine .inl ⟨rfl,fun got same => ?_⟩
      cases same
      rcases ends with none | closes | rejected <;> simp_all [heardText]
    | _ => simp_all [NewClient.Pc.handling,heardText]

theorem handlingHearsNot {host t s r call t' s'} (h : NewClient.Steps host t s r call t' s')
    (busy : t.pc.handling = 1) : ∀ got, r ≠ .received got := by
  cases h with
  | returnDirectory at_ outcome => rcases outcome with rfl | rfl <;> exact nofun
  | _ => simp_all [NewClient.Pc.handling]

theorem consoleRests {t s r call t' s'} (h : NewConsole.Steps t s r call t' s') (free : t.pc.unended = 0) :
    s'.console.command = s.console.command ∧ (∀ e : Exchange, e.after r call = e) ∧ t'.pc.unended = 0 := by
  cases h <;> simp_all [NewConsole.Pc.unended,Exchange.after]

section
variable {host : Host} {s : SlotState} {memo : List Exchange}

theorem endedAlone (answering : Answering host (s,memo)) (ended : ∀ e ∈ memo.head?, e.ended = true) :
    handled s + unended s = 0 := by
  have clients : ∀ thread ∈ s.clients, thread.pc.handling = 0 := by
    intro thread mem
    rcases clientHandling thread.pc with free | busy
    · exact free
    · obtain ⟨e,first,stage⟩ := answering.client thread mem busy
      cases (ended e first).symm.trans (clientNotEnded busy stage)
  have consoles : ∀ thread ∈ s.consoles, thread.pc.unended = 0 := by
    intro thread mem
    rcases consoleUnended thread.pc with free | busy
    · exact free
    · obtain ⟨e,first,stage⟩ := answering.console thread mem busy
      cases (ended e first).symm.trans (consoleNotEnded busy stage)
  have none : handled s = 0 := (tallyZero _).mpr clients
  have none' : unended s = 0 := (tallyZero _).mpr consoles
  omega

theorem everyWhole (answering : Answering host (s,memo)) (ended : ∀ e ∈ memo.head?, e.ended = true) :
    ∀ e ∈ memo, e.Whole host := by
  intro e mem
  cases memo with
  | nil => cases mem
  | cons first past =>
    rcases List.mem_cons.mp mem with rfl | old
    · rcases answering.rest (endedAlone answering ended) e rfl with silent | whole
      · cases (ended e rfl).symm.trans (silentNotEnded silent)
      · exact whole
    · exact answering.past e old

theorem answeringHandled {t : Nat} {thread next : NewClient.Thread} {r call} {slot : Slot}
    (answering : Answering host (s,memo)) (here : s.clients[t]? = some thread) (busy : thread.pc.handling = 1)
    (step : NewClient.Steps host thread s.slot r call next slot) :
    Answering host (⟨slot,s.clients.set t next,s.consoles⟩,memo.modifyHead fun e => e.after r call) := by
  obtain ⟨e,first,stage⟩ := answering.client thread (List.mem_of_getElem? here) busy
  obtain ⟨past,rfl⟩ : ∃ past, memo = e::past := by
    cases memo with
    | nil => cases first
    | cons head past => cases first; exact ⟨past,rfl⟩
  obtain ⟨one,old,-,-,-⟩ := answering
  obtain ⟨goesOn,stops⟩ := clientStage step busy stage
  have moved := tallySet (b := next) (fun t => t.pc.handling) here
  have own := tallyEntry (fun t => t.pc.handling) here
  have count := clientHandling next.pc
  simp only [handled,unended] at one
  have room : tally (fun t : NewClient.Thread => t.pc.handling) s.clients ≤ 1 := by omega
  have silent : unended s = 0 := by simp only [unended]; omega
  refine ⟨by simp only [handled,unended]; omega,old,?_,?_,?_⟩
  · intro other found works
    rcases tallyOthers _ room here busy found with rfl | free
    · exact ⟨_,rfl,goesOn works⟩
    · cases free.symm.trans works
  · intro other found works
    have free : other.pc.unended = 0 := (tallyZero fun c : NewConsole.Thread => c.pc.unended).mp silent other found
    cases free.symm.trans works
  · intro none e' same
    cases same
    refine stops ?_
    simp only [handled] at none
    omega

theorem answeringRests {t : Nat} {thread next : NewClient.Thread} {slot : Slot}
    (answering : Answering host (s,memo)) (here : s.clients[t]? = some thread) (free : thread.pc.handling = 0)
    (command : slot.console.command = s.slot.console.command) (stays : next.pc.handling = 0) :
    Answering host (⟨slot,s.clients.set t next,s.consoles⟩,memo) := by
  obtain ⟨one,old,client,console,rest⟩ := answering
  have moved := tallySet (b := next) (fun t => t.pc.handling) here
  have same : handled ⟨slot,s.clients.set t next,s.consoles⟩ = handled s := by
    simp only [handled]
    omega
  refine ⟨by rw [same]; exact one,old,?_,?_,by rw [same]; exact rest⟩
  · intro other found works
    dsimp only
    rw [command]
    rcases (memSet here).mp found with rfl | ⟨j,-,there⟩
    · cases stays.symm.trans works
    · exact client other (List.mem_of_getElem? there) works
  · intro other found works
    dsimp only
    rw [command]
    exact console other found works

theorem answeringAsked {t : Nat} {thread next : NewClient.Thread} {p : Bytes} {slot : Slot}
    (answering : Answering host (s,memo)) (here : s.clients[t]? = some thread) (free : thread.pc.handling = 0)
    (ended : ∀ e ∈ memo.head?, e.ended = true) (then_ : next.pc = .message p) :
    Answering host (⟨slot,s.clients.set t next,s.consoles⟩,asked p::memo) := by
  have alone := endedAlone answering ended
  have moved := tallySet (b := next) (fun t => t.pc.handling) here
  have busy : next.pc.handling = 1 := by rw [then_]; rfl
  have nobody : ∀ other ∈ s.clients, other.pc.handling = 0 := (tallyZero _).mp (by simp only [handled] at alone; omega)
  have silent : ∀ other ∈ s.consoles, other.pc.unended = 0 := (tallyZero _).mp (by simp only [unended] at alone; omega)
  refine ⟨?_,everyWhole answering ended,?_,?_,?_⟩
  · simp only [handled,unended] at alone ⊢
    omega
  · intro other found works
    rcases (memSet here).mp found with rfl | ⟨j,-,there⟩
    · exact ⟨asked p,rfl,by rw [then_]; rfl⟩
    · cases (nobody other (List.mem_of_getElem? there)).symm.trans works
  · intro other found works
    cases (silent other found).symm.trans works
  · intro none
    simp only [handled,unended] at none
    omega

theorem answeringCreated {t : Nat} {thread next : NewClient.Thread} (answering : Answering host (s,memo))
    (here : s.clients[t]? = some thread) (at_ : thread.pc = .create) (then_ : next.pc = .receive) :
    Answering host (⟨s.slot,s.clients.set t next,s.consoles ++ [NewConsole.created thread.socketID]⟩,memo) := by
  have busy : thread.pc.handling = 1 := by rw [at_]; rfl
  have stops : next.pc.handling = 0 := by rw [then_]; rfl
  obtain ⟨e,first,stage⟩ := answering.client thread (List.mem_of_getElem? here) busy
  rw [at_] at stage
  obtain ⟨silent,echoes,allowed,other⟩ := stage
  obtain ⟨one,old,-,-,-⟩ := answering
  have moved := tallySet (b := next) (fun t => t.pc.handling) here
  have own := tallyEntry (fun t => t.pc.handling) here
  have pushed := tallyPush (l := s.consoles) (a := NewConsole.created thread.socketID) fun c => c.pc.unended
  have starts : (NewConsole.created thread.socketID).pc.unended = 1 := rfl
  simp only [handled,unended] at one
  have room : tally (fun t : NewClient.Thread => t.pc.handling) s.clients ≤ 1 := by omega
  have nobody : ∀ console ∈ s.consoles, console.pc.unended = 0 := (tallyZero _).mp (by omega)
  refine ⟨by simp only [handled,unended]; omega,old,?_,?_,?_⟩
  · intro client found works
    rcases tallyOthers _ room here busy found with rfl | free
    · cases stops.symm.trans works
    · cases free.symm.trans works
  · intro console found works
    rcases List.mem_append.mp found with before | new
    · cases (nobody console before).symm.trans works
    · rw [List.mem_singleton.mp new]
      exact ⟨e,first,allowed,other,silent,echoes⟩
  · intro none
    simp only [handled,unended] at none
    omega

theorem answeringConsole {k : Nat} {thread next : NewConsole.Thread} {r call} {slot : Slot}
    (answering : Answering host (s,memo)) (here : s.consoles[k]? = some thread) (busy : thread.pc.unended = 1)
    (step : NewConsole.Steps thread s.slot r call next slot) :
    Answering host (⟨slot,s.clients,s.consoles.set k next⟩,memo.modifyHead fun e => e.after r call) := by
  obtain ⟨e,first,stage⟩ := answering.console thread (List.mem_of_getElem? here) busy
  obtain ⟨past,rfl⟩ : ∃ past, memo = e::past := by
    cases memo with
    | nil => cases first
    | cons head past => cases first; exact ⟨past,rfl⟩
  obtain ⟨one,old,-,-,-⟩ := answering
  obtain ⟨goesOn,stops⟩ := consoleStage step busy stage
  have moved := tallySet (b := next) (fun c => c.pc.unended) here
  have own := tallyEntry (fun c => c.pc.unended) here
  have count := consoleUnended next.pc
  simp only [handled,unended] at one
  have room : tally (fun c : NewConsole.Thread => c.pc.unended) s.consoles ≤ 1 := by omega
  have nobody : handled s = 0 := by simp only [handled]; omega
  refine ⟨by simp only [handled,unended]; omega,old,?_,?_,?_⟩
  · intro other found works
    have free : other.pc.handling = 0 := (tallyZero fun t : NewClient.Thread => t.pc.handling).mp nobody other found
    cases free.symm.trans works
  · intro other found works
    rcases tallyOthers _ room here busy found with rfl | free
    · exact ⟨_,rfl,goesOn works⟩
    · cases free.symm.trans works
  · intro none e' same
    cases same
    refine .inr (stops ?_)
    simp only [unended] at none
    omega

theorem answeringEnded {k : Nat} {thread next : NewConsole.Thread} {slot : Slot}
    (answering : Answering host (s,memo)) (here : s.consoles[k]? = some thread) (free : thread.pc.unended = 0)
    (command : slot.console.command = s.slot.console.command) (stays : next.pc.unended = 0) :
    Answering host (⟨slot,s.clients,s.consoles.set k next⟩,memo) := by
  obtain ⟨one,old,client,console,rest⟩ := answering
  have moved := tallySet (b := next) (fun c => c.pc.unended) here
  have same : unended ⟨slot,s.clients,s.consoles.set k next⟩ = unended s := by
    simp only [unended]
    omega
  refine ⟨by rw [same]; exact one,old,?_,?_,by rw [same]; exact rest⟩
  · intro other found works
    dsimp only
    rw [command]
    exact client other found works
  · intro other found works
    dsimp only
    rw [command]
    rcases (memSet here).mp found with rfl | ⟨j,-,there⟩
    · cases stays.symm.trans works
    · exact console other (List.mem_of_getElem? there) works

theorem headSame {r : Result} {call : Call} (same : ∀ e : Exchange, e.after r call = e) :
    (memo.modifyHead fun e => e.after r call) = memo := by
  cases memo with
  | nil => rfl
  | cons e past => simp [same]

theorem noteUnread {r : Result} {t : Nat} {call : Call} {s' : SlotState}
    (unread : ∀ got, r = .received got → heardText got = none) (same : ∀ got (e : Exchange), r = .received got → e.after r call = e) :
    noteExchange memo s (.client t r) call s' = memo.modifyHead fun e => e.after r call := by
  cases r with
  | received got =>
    rw [headSame fun e => same got e rfl]
    simp [noteExchange,unread got rfl]
  | _ => rfl

theorem answeringClient {t : Nat} {thread next : NewClient.Thread} {r : Result} {call : Call} {slot : Slot}
    {s' : SlotState} (answering : Answering host (s,memo)) (patient : Patient (s,memo) (.client t r))
    (here : s.clients[t]? = some thread) (step : NewClient.Steps host thread s.slot r call next slot) :
    Answering host (⟨slot,s.clients.set t next,s.consoles⟩,noteExchange memo s (.client t r) call s') := by
  rcases clientHandling thread.pc with free | busy
  · obtain ⟨command,after,⟨stays,unread⟩ | ⟨got,p,rfl,text,then_⟩⟩ := clientRests step free
    · rw [noteUnread unread fun got e _ => after e,headSame after]
      exact answeringRests answering here free command stays
    · have ended := patient (by simp [text])
      simp only [noteExchange,text]
      exact answeringAsked answering here free ended then_
  · have hears := handlingHearsNot step busy
    rw [noteUnread (fun got same => (hears got same).elim) fun got e same => (hears got same).elim]
    exact answeringHandled answering here busy step

theorem answeringStep {maxClients : Nat} {l : SlotLabel} {call : Call} {s' : SlotState} (answering : Answering host (s,memo))
    (patient : Patient (s,memo) l) (h : SlotStep host maxClients s l call s') :
    Answering host (s',noteExchange memo s l call s') := by
  cases h with
  | listen step =>
    have command := (listenKeepsTexts step).1
    obtain ⟨one,past,client,console,rest⟩ := answering
    exact ⟨one,past,command ▸ client,command ▸ console,rest⟩
  | @start i =>
    obtain ⟨one,past,client,console,rest⟩ := answering
    have pushed := tallyPush (l := s.clients) (a := NewClient.started i) fun t => t.pc.handling
    have none : (NewClient.started i).pc.handling = 0 := rfl
    have same : handled {s with clients := s.clients ++ [NewClient.started i]} = handled s := by
      simp only [handled]
      omega
    refine ⟨same ▸ one,past,fun thread found works => ?_,console,same ▸ rest⟩
    rcases List.mem_append.mp found with old | new
    · exact client thread old works
    · rw [List.mem_singleton.mp new] at works
      cases works
  | client here step noThread joined => exact answeringClient answering patient here step
  | created here at_ =>
    have same : (memo.modifyHead fun e => e.after (.thread s.consoles.length) .createConsole) = memo :=
      headSame fun _ => rfl
    simp only [noteExchange,same]
    exact answeringCreated answering here at_ rfl
  | @console k r thread call next slot here step =>
    rcases consoleUnended thread.pc with free | busy
    · obtain ⟨command,after,stays⟩ := consoleRests step free
      have same : (memo.modifyHead fun e => e.after r call) = memo := headSame after
      simp only [noteExchange,same]
      exact answeringEnded answering here free command stays
    · exact answeringConsole answering here busy step

theorem noThreadsAnswering (none : NoThreads s) : Answering host (s,[]) := by
  constructor <;> simp [handled,unended,tally,none.clients,none.consoles]

theorem processPart {e : Exchange} {d : ThreadData} {chunks : List Bytes} (more : List Bytes)
    (allowed : NewClient.refused host e.text = false) (other : NewClient.changesDirectory e.text = false)
    (same : e.chunks = chunks ++ more) (prompted : Prompted d e chunks) : e.Part host := by
  have whole : Answer host e.text (chunks ++ more) (.frame (promptText d)::(chunks ++ more).map outputFrame ++
      [.frame (killedText 0),.endOfTransmission]) := .process allowed other prompted.echoes
  refine ⟨[],more.map outputFrame ++ [.frame (killedText 0),.endOfTransmission],?_⟩
  simpa [same,prompted.sent] using whole

theorem silentPart {e : Exchange} (silent : e.Silent) : e.Part host := by
  obtain ⟨chunks,sends⟩ := silent
  cases denied : NewClient.refused host e.text with
  | true => exact ⟨[],_,by rw [chunks,sends]; exact Answer.refusal denied⟩
  | false =>
    cases change : NewClient.changesDirectory e.text with
    | true =>
      have echoes : {freshConsole false false with command := e.text}.command = e.text := rfl
      exact ⟨[],_,by rw [chunks,sends]; exact Answer.directory denied change echoes⟩
    | false => exact ⟨[],_,by rw [chunks,sends]; exact Answer.failed denied change⟩

theorem wholePart {e : Exchange} (whole : e.Whole host) : e.Part host :=
  ⟨[],[],by simpa [Exchange.Whole] using whole⟩

theorem clientPart {pc command} {e : Exchange} (busy : NewClient.Pc.handling pc = 1)
    (stage : ClientStage host pc command e) : e.Part host := by
  cases pc with
  | message p =>
    cases stage
    exact silentPart (askedSilent p)
  | changeDirectory p | readDirectory p | setCommand p | route p | launch p =>
    cases stage.1
    exact silentPart (askedSilent p)
  | refuse | prompt | openOutput | openInput | activate | create | createFailed => exact silentPart stage.1
  | returnDirectory =>
    obtain ⟨chunks,⟨d,echoes,sends⟩,allowed,change⟩ := stage
    exact ⟨[],[.endOfTransmission],by rw [chunks,sends]; exact Answer.directory allowed change echoes⟩
  | finish again => exact ⟨[],_,by rw [List.append_nil]; exact stage.2⟩
  | start | enter | receive | deposit _ | flag | cancel | join | leave | closeSocket | freeSlot | exit | done =>
    cases busy

theorem consolePart {pc command} {e : Exchange} (busy : NewConsole.Pc.unended pc = 1)
    (stage : ConsoleStage host pc command e) : e.Part host := by
  obtain ⟨allowed,other,reached⟩ := stage
  cases pc with
  | prompt => exact silentPart reached.1
  | relay b =>
    obtain ⟨d,chunks,same,prompted⟩ := reached
    exact processPart [b] allowed other same prompted
  | finish =>
    obtain ⟨d,pid,echoes,sends⟩ := reached
    have whole : Answer host e.text e.chunks (.frame (promptText d)::e.chunks.map outputFrame ++
        [.frame (killedText pid),.endOfTransmission]) := .process allowed other echoes
    exact ⟨[],[.endOfTransmission],by simpa [sends] using whole⟩
  | clearExit | deactivate | wait | closeAgain _ | done => cases busy
  | _ =>
    obtain ⟨d,prompted⟩ := reached
    exact processPart [] allowed other (List.append_nil _).symm prompted

structure Responded (host : Host) (memo : List Exchange) : Prop where
  past : ∀ e ∈ memo.tail, e.Whole host
  latest : ∀ e ∈ memo.head?, e.Part host

theorem answeringResponded (answering : Answering host (s,memo)) : Responded host memo := by
  refine ⟨answering.past,fun e first => ?_⟩
  by_cases nobody : handled s + unended s = 0
  · rcases answering.rest nobody e first with silent | whole
    · exact silentPart silent
    · exact wholePart whole
  · by_cases clients : ∀ thread ∈ s.clients, thread.pc.handling = 0
    · have none : handled s = 0 := (tallyZero _).mpr clients
      have some : ¬ ∀ console ∈ s.consoles, console.pc.unended = 0 :=
        fun consoles => nobody (by rw [none,Nat.zero_add]; exact (tallyZero _).mpr consoles)
      simp only [not_forall] at some
      obtain ⟨console,mem,busy⟩ := some
      have works := (consoleUnended console.pc).resolve_left busy
      obtain ⟨e',same,stage⟩ := answering.console console mem works
      cases Option.some.inj (same.symm.trans first)
      exact consolePart works stage
    · simp only [not_forall] at clients
      obtain ⟨thread,mem,busy⟩ := clients
      have works := (clientHandling thread.pc).resolve_left busy
      obtain ⟨e',same,stage⟩ := answering.client thread mem works
      cases Option.some.inj (same.symm.trans first)
      exact clientPart works stage

end

def catThenPrompt : List SlotLabel :=
  launches 0 0 "Mcat" ++ consoleStarts 0 100 ++
    consoleDoes 0 [.output (ascii "a"),.done,.done,.again false,.done,.done,.output (ascii "b"),.done,.done] ++
    consoleReturns 0 100 ++ clientDoes 0 [heard "Mcd /",.done,.done,.path (ascii "/"),.done,.done]

end RemoteTerminal
