import RemoteTerminal.Server.Machine

/-! `nextCommand` with its flag `hasNextCommand` is a mailbox for one message, filled by
`NewClient` and emptied by the loop of `HandleClientPipe`. The memo beside a slot keeps,
for every console thread, what was accepted for it and what was written to its process. -/
namespace RemoteTerminal
open ByteStrings LabelledRuns EntryTable

structure Inputs where
  accepted : Nat → List Bytes
  written : Nat → Bytes
  stdin : Nat → Nat
  addressee : Nat

def noInputs : Inputs := ⟨fun _ => [],fun _ => [],fun _ => 0,0⟩

def delivered (messages : List Bytes) : Bytes := messages.flatMap (· ++ [10])

theorem deliveredPush (messages : List Bytes) (p : Bytes) :
    delivered (messages ++ [p]) = delivered messages ++ (p ++ [10]) := by simp [delivered]

def NewClient.Pc.deposited : NewClient.Pc → Option Bytes
  | .deposit p => some p
  | _ => none

def SlotState.deposited (s : SlotState) (t : Nat) : Option Bytes :=
  s.clients[t]?.bind fun thread => thread.pc.deposited

/- A message counts as accepted for the latest console thread when `nextCommand` is assigned. -/
def noteInput (memo : Inputs) (s : SlotState) : SlotLabel → Call → SlotState → Inputs
  | .console k _,.write _ text,_ =>
    {memo with written := Function.update memo.written k (memo.written k ++ text)}
  | .client _ _,.createConsole,_ =>
    {memo with stdin := Function.update memo.stdin s.consoles.length s.slot.console.pipeParentToChild.2}
  | .client t _,.memory,_ => match s.deposited t with
    | some p =>
      let k := s.consoles.length-1
      {memo with accepted := Function.update memo.accepted k (memo.accepted k ++ [p]),addressee := k}
    | none => memo
  | _,_,_ => memo

def NewConsole.Pc.serving : NewConsole.Pc → Bool
  | .prompt | .returnDirectory | .assemble | .fork _ | .closeInput | .closeOutput | .enter
  | .read | .probe | .probed _ | .testExit | .relay _ | .mailbox | .write | .clearFlag | .clearText => true
  | _ => false

def NewConsole.Pc.ready (pc : NewConsole.Pc) : Bool :=
  pc.serving && pc ≠ .write && pc ≠ .clearFlag && pc ≠ .clearText

def SlotState.flagging (s : SlotState) : Bool := s.clients.any fun thread => thread.pc = .flag

def SlotState.leavesLoop (s : SlotState) (k : Nat) (r : Result) : Bool :=
  s.consoles[k]?.any fun console =>
    (console.pc = .read ∧ (r = .endOfFile ∨ r = .failed)) ∨
    (console.pc = .testExit ∧ s.slot.console.exitCode = 1)

def Orderly (s : SlotState × Inputs) : SlotLabel → Prop
  | .start i => OneClient s.1 (.start i)
  | .client t _ => ∀ p ∈ s.1.deposited t, 0 ∉ p ∧ s.1.slot.console.hasNextCommand = false ∧
      ∃ console ∈ s.1.consoles, console.pc.ready = true
  | .console k r => s.1.leavesLoop k r = true →
      (s.1.slot.console.hasNextCommand = false ∨ s.1.slot.console.nextCommand = []) ∧ s.1.flagging = false
  | .listen _ _ => True
instance (s) : (l : SlotLabel) → Decidable (Orderly s l)
  | .start _ | .client _ _ | .console _ _ => by dsimp only [Orderly]; infer_instance
  | .listen _ _ => isTrue trivial

structure DeliveredOnce (s : SlotState × Inputs) : Prop where
  ordered : ∀ k, s.2.written k <+: delivered (s.2.accepted k)
  kept : ∀ k, s.2.written k = delivered (s.2.accepted k) ∨
    s.2.written k ++ s.1.slot.console.nextCommand = delivered (s.2.accepted k)
  complete : ∀ k, (∀ console, s.1.consoles[k]? = some console → console.pc.serving = false) →
    s.2.written k = delivered (s.2.accepted k)
  addressed : ∀ (k : Nat) (console : NewConsole.Thread), s.1.consoles[k]? = some console →
    console.pc = .write → s.1.slot.console.pipeParentToChild.2 = s.2.stdin k ∧
      (s.1.slot.console.nextCommand = [] ∨ s.2.addressee = k)

structure Owed (text written : Bytes) (accepted : List Bytes) (addressee k : Nat) : Prop where
  rest : written ++ text = delivered accepted
  clean : 0 ∉ text
  named : text = [] ∨ addressee = k

def Balance (pc : NewConsole.Pc) (full flagging : Bool) (text written : Bytes) (accepted : List Bytes)
    (addressee k : Nat) : Prop := match pc with
  | .write => full = true ∧ flagging = false ∧ Owed text written accepted addressee k
  | .clearFlag => flagging = false ∧ written = delivered accepted
  | .clearText => full = false ∧ flagging = false ∧ written = delivered accepted
  | _ => (flagging = true → full = false) ∧
      if full || flagging then Owed text written accepted addressee k else written = delivered accepted

structure Mail (s : SlotState × Inputs) : Prop where
  lock : SlotLock s.1
  settled : ∀ k, (∀ console, s.1.consoles[k]? = some console → console.pc.serving = false) →
    s.2.written k = delivered (s.2.accepted k)
  idle : (∀ (k : Nat) (console : NewConsole.Thread), s.1.consoles[k]? = some console →
      console.pc.serving = false) →
    (s.1.slot.console.hasNextCommand = false ∨ s.1.slot.console.nextCommand = []) ∧ s.1.flagging = false
  busy : ∀ (k : Nat) (console : NewConsole.Thread), s.1.consoles[k]? = some console →
    console.pc.serving = true →
      s.1.slot.console.pipeParentToChild.2 = s.2.stdin k ∧
      Balance console.pc s.1.slot.console.hasNextCommand s.1.flagging s.1.slot.console.nextCommand
        (s.2.written k) (s.2.accepted k) s.2.addressee k

theorem servingActive {pc : NewConsole.Pc} (serving : pc.serving = true) : pc.active = true := by
  cases pc <;> simp_all [NewConsole.Pc.serving,NewConsole.Pc.active]

theorem mailDelivered {s} (mail : Mail s) : DeliveredOnce s := by
  have kept : ∀ k, s.2.written k = delivered (s.2.accepted k) ∨
      s.2.written k ++ s.1.slot.console.nextCommand = delivered (s.2.accepted k) := by
    intro k
    by_cases off : ∀ console, s.1.consoles[k]? = some console → console.pc.serving = false
    · exact .inl (mail.settled k off)
    · simp only [not_forall,Bool.not_eq_false] at off
      obtain ⟨console,here,serving⟩ := off
      have balance := (mail.busy k console here serving).2
      unfold Balance at balance
      split at balance
      · exact .inr balance.2.2.rest
      · exact .inl balance.2
      · exact .inl balance.2.2
      · obtain ⟨_,rest⟩ := balance
        split at rest
        · exact .inr rest.rest
        · exact .inl rest
  refine ⟨?_,kept,mail.settled,?_⟩
  · intro k
    rcases kept k with same | more
    · exact same ▸ List.prefix_refl _
    · exact more ▸ List.prefix_append _ _
  · intro k console here writes
    obtain ⟨target,balance⟩ := mail.busy k console here (by rw [writes]; rfl)
    rw [writes] at balance
    exact ⟨target,balance.2.2.named⟩

theorem listenMail {maxClients s current pc r call pc' s' current'}
    (h : SocketListen.Steps maxClients s current pc r call pc' s' current') :
    s'.console.hasNextCommand = s.console.hasNextCommand ∧ s'.console.nextCommand = s.console.nextCommand ∧
      s'.console.pipeParentToChild = s.console.pipeParentToChild := by
  cases h <;> exact ⟨rfl,rfl,rfl⟩

theorem clientMail {host t s r call t' s'} (h : NewClient.Steps host t s r call t' s') :
    (∃ p, t.pc = .deposit p ∧ t'.pc = .flag ∧ call = .memory ∧
      s' = {s with console.nextCommand := p ++ [10]}) ∨
    (t.pc = .flag ∧ t'.pc ≠ .flag ∧ call = .memory ∧ s' = {s with console.hasNextCommand := true}) ∨
    (t.pc.deposited = none ∧ t.pc ≠ .flag ∧ t'.pc ≠ .flag ∧
      s'.console.hasNextCommand = s.console.hasNextCommand ∧
      s'.console.nextCommand = s.console.nextCommand ∧
      (s'.console.pipeParentToChild = s.console.pipeParentToChild ∨ t.pc.preparing = true)) := by
  cases h <;> simp_all [NewClient.Pc.deposited,NewClient.Pc.preparing]

theorem consoleMail {t s r call t' s'} (h : NewConsole.Steps t s r call t' s') :
    (t.pc = .write ∧ t'.pc = .clearFlag ∧ s' = s ∧
      call = .write s.console.pipeParentToChild.2 (cString s.console.nextCommand)) ∨
    (t.pc = .clearFlag ∧ t'.pc = .clearText ∧ call = .memory ∧ s' = {s with console.hasNextCommand := false}) ∨
    (t.pc = .clearText ∧ t'.pc = .read ∧ call = .memory ∧ s' = {s with console.nextCommand := []}) ∨
    (t.pc = .mailbox ∧ t'.pc = .write ∧ call = .memory ∧ s.console.hasNextCommand = true ∧ s' = s) ∨
    (t.pc.ready = true ∧ t'.pc.serving = false ∧ (∀ d b, call ≠ .write d b) ∧ s' = s ∧
      ((t.pc = .read ∧ (r = .endOfFile ∨ r = .failed)) ∨ (t.pc = .testExit ∧ s.console.exitCode = 1))) ∨
    (t'.pc.ready = t.pc.ready ∧ t'.pc.serving = t.pc.ready ∧ t.pc.serving = t.pc.ready ∧
      (∀ d b, call ≠ .write d b) ∧
      s'.console.hasNextCommand = s.console.hasNextCommand ∧
      s'.console.nextCommand = s.console.nextCommand ∧
      s'.console.pipeParentToChild = s.console.pipeParentToChild) := by
  cases h <;> simp_all [NewConsole.Pc.ready,NewConsole.Pc.serving]

theorem balanceReady {pc full flagging text written accepted addressee k} (ready : NewConsole.Pc.ready pc = true) :
    Balance pc full flagging text written accepted addressee k ↔ (flagging = true → full = false) ∧
      if full || flagging then Owed text written accepted addressee k else written = delivered accepted := by
  unfold Balance
  split
  · simp [NewConsole.Pc.ready] at ready
  · simp [NewConsole.Pc.ready] at ready
  · simp [NewConsole.Pc.ready] at ready
  · rfl

theorem servingLast {s k console} (lock : SlotLock s) (here : s.consoles[k]? = some console)
    (serving : console.pc.serving = true) : k+1 = s.consoles.length :=
  (lock.active k console here (servingActive serving)).2

theorem mailFrame {s memo s'} (mail : Mail (s,memo)) (lock : SlotLock s')
    (consoles : s'.consoles = s.consoles) (flagging : s'.flagging = s.flagging)
    (flag : s'.slot.console.hasNextCommand = s.slot.console.hasNextCommand)
    (text : s'.slot.console.nextCommand = s.slot.console.nextCommand)
    (target : s'.slot.console.pipeParentToChild = s.slot.console.pipeParentToChild) : Mail (s',memo) := by
  obtain ⟨_,settled,idle,busy⟩ := mail
  refine ⟨lock,?_,?_,?_⟩
  · simpa only [consoles] using settled
  · simpa only [consoles,flag,text,flagging] using idle
  · simpa only [consoles,flag,text,flagging,target] using busy

theorem mailListen {host maxClients s memo pc r call s'} (mail : Mail (s,memo))
    (h : SlotStep host maxClients s (.listen pc r) call s') (lock : SlotLock s') : Mail (s',memo) := by
  cases h with
  | listen step =>
    obtain ⟨flag,text,target⟩ := listenMail step
    exact mailFrame mail lock rfl rfl flag text target

theorem mailStart {host maxClients s memo i call s'} (mail : Mail (s,memo))
    (h : SlotStep host maxClients s (.start i) call s') (lock : SlotLock s') : Mail (s',memo) := by
  cases h
  refine mailFrame mail lock rfl ?_ rfl rfl rfl
  simp [SlotState.flagging,NewClient.started]

theorem flaggingSet {s t thread} (next : NewClient.Thread) (slot : Slot) (consoles : List NewConsole.Thread)
    (lock : SlotLock s) (here : s.clients[t]? = some thread) (live : thread.pc ≠ .done) :
    s.flagging = decide (thread.pc = .flag) ∧
      (SlotState.mk slot (s.clients.set t next) consoles).flagging = decide (next.pc = .flag) :=
  soleLive next (fun pc => decide (pc = .flag)) rfl lock here live

theorem mailDeposit {s memo t thread p next slot call s'} (mail : Mail (s,memo))
    (ok : Orderly (s,memo) (.client t .done)) (here : s.clients[t]? = some thread)
    (at_ : thread.pc = .deposit p) (then_ : next.pc = .flag) (memory : call = .memory)
    (stored : slot = {s.slot with console.nextCommand := p ++ [10]})
    (lock : SlotLock ⟨slot,s.clients.set t next,s.consoles⟩) :
    Mail (⟨slot,s.clients.set t next,s.consoles⟩,noteInput memo s (.client t .done) call s') := by
  have deposits : s.deposited t = some p := by simp [SlotState.deposited,here,NewClient.Pc.deposited,at_]
  obtain ⟨clean,empty,console,mem,ready⟩ := ok p deposits
  obtain ⟨k,found⟩ := List.mem_iff_getElem?.mp mem
  have serving : console.pc.serving = true := by
    simp only [NewConsole.Pc.ready,Bool.and_eq_true] at ready
    exact ready.1.1.1
  have last : k+1 = s.consoles.length := servingLast mail.lock found serving
  have empty : s.slot.console.hasNextCommand = false := empty
  obtain ⟨before,after⟩ := flaggingSet next slot s.consoles mail.lock here (by simp [at_])
  obtain ⟨target,balance⟩ := mail.busy k console found serving
  rw [balanceReady ready] at balance
  have even : memo.written k = delivered (memo.accepted k) := by simpa [empty,before,at_] using balance.2
  have latest : s.consoles.length - 1 = k := by omega
  subst memory
  subst stored
  simp only [noteInput,deposits,latest]
  have sole (j : Nat) (other : NewConsole.Thread) (there : s.consoles[j]? = some other)
      (servingOther : other.pc.serving = true) : j = k := by
    have lastOther : j+1 = s.consoles.length := servingLast mail.lock there servingOther
    omega
  refine ⟨lock,?_,?_,?_⟩
  · intro j off
    have other : j ≠ k := by
      intro same
      subst same
      rw [off console found] at serving
      contradiction
    simpa [Function.update_of_ne other] using mail.settled j off
  · intro off
    rw [off k console found] at serving
    contradiction
  · intro j other there servingOther
    obtain rfl := sole j other there servingOther
    cases Option.some.inj (found.symm.trans there)
    refine ⟨target,(balanceReady ready).mpr ⟨fun _ => empty,?_⟩⟩
    simp only [after,then_,decide_true,Bool.or_true,if_true]
    refine ⟨?_,by simpa using clean,.inr rfl⟩
    rw [Function.update_self,deliveredPush,even]

theorem mailFlag {s memo t thread next slot call s'} (mail : Mail (s,memo))
    (here : s.clients[t]? = some thread) (at_ : thread.pc = .flag) (then_ : next.pc ≠ .flag)
    (memory : call = .memory) (set_ : slot = {s.slot with console.hasNextCommand := true})
    (lock : SlotLock ⟨slot,s.clients.set t next,s.consoles⟩) :
    Mail (⟨slot,s.clients.set t next,s.consoles⟩,noteInput memo s (.client t .done) call s') := by
  obtain ⟨before,after⟩ := flaggingSet next slot s.consoles mail.lock here (by simp [at_])
  have flagging : s.flagging = true := by simp [before,at_]
  have nothing : s.deposited t = none := by simp [SlotState.deposited,here,NewClient.Pc.deposited,at_]
  subst memory
  subst set_
  simp only [noteInput,nothing]
  refine ⟨lock,mail.settled,?_,?_⟩
  · intro off
    have clear := (mail.idle off).2
    rw [flagging] at clear
    contradiction
  · intro k console found serving
    obtain ⟨target,balance⟩ := mail.busy k console found serving
    refine ⟨target,?_⟩
    rw [flagging] at balance
    simp only [after,then_,decide_false]
    cases ready : console.pc.ready with
    | true =>
      rw [balanceReady ready] at balance ⊢
      exact ⟨by simp,by simpa using balance.2⟩
    | false =>
      have three : console.pc = .write ∨ console.pc = .clearFlag ∨ console.pc = .clearText := by
        simpa [NewConsole.Pc.ready,serving,or_iff_not_imp_left] using ready
      rcases three with at_ | at_ | at_ <;> rw [at_] at balance
      · exact Bool.noConfusion balance.2.1
      · exact Bool.noConfusion balance.1
      · exact Bool.noConfusion balance.2.1

theorem noteQuiet {s t} (memo : Inputs) (r : Result) (call : Call) (s' : SlotState) (quiet : s.deposited t = none) :
    (noteInput memo s (.client t r) call s').accepted = memo.accepted ∧
    (noteInput memo s (.client t r) call s').written = memo.written ∧
    (noteInput memo s (.client t r) call s').addressee = memo.addressee ∧
    ∀ k, k ≠ s.consoles.length → (noteInput memo s (.client t r) call s').stdin k = memo.stdin k := by
  cases call <;> simp_all [noteInput]

theorem notServing {s : SlotState} {t k : Nat} {thread : NewClient.Thread} {console : NewConsole.Thread}
    (lock : SlotLock s) (here : s.clients[t]? = some thread) (preparing : thread.pc.preparing = true)
    (found : s.consoles[k]? = some console) : console.pc.serving = false := by
  have inactive := lock.alone t thread k console here preparing found
  cases serving : console.pc.serving with
  | false => rfl
  | true =>
    rw [servingActive serving] at inactive
    contradiction

theorem mailQuiet {s : SlotState} {memo t r call slot} {thread next : NewClient.Thread} (mail : Mail (s,memo))
    (here : s.clients[t]? = some thread) (live : thread.pc ≠ .done)
    (lock : SlotLock ⟨slot,s.clients.set t next,s.consoles⟩) (nothing : thread.pc.deposited = none)
    (off : thread.pc ≠ .flag) (offNext : next.pc ≠ .flag)
    (flag : slot.console.hasNextCommand = s.slot.console.hasNextCommand)
    (text : slot.console.nextCommand = s.slot.console.nextCommand)
    (target : slot.console.pipeParentToChild = s.slot.console.pipeParentToChild ∨ thread.pc.preparing = true) :
    Mail (⟨slot,s.clients.set t next,s.consoles⟩,
      noteInput memo s (.client t r) call ⟨slot,s.clients.set t next,s.consoles⟩) := by
  have quiet : s.deposited t = none := by simp [SlotState.deposited,here,nothing]
  obtain ⟨before,after⟩ := flaggingSet next slot s.consoles mail.lock here live
  have same : (SlotState.mk slot (s.clients.set t next) s.consoles).flagging = s.flagging := by
    rw [before,after]; simp [off,offNext]
  obtain ⟨accepted,written,addressee,stdin⟩ :=
    noteQuiet memo r call ⟨slot,s.clients.set t next,s.consoles⟩ quiet
  refine ⟨lock,?_,?_,?_⟩
  · simpa only [accepted,written] using mail.settled
  · simpa only [flag,text,same] using mail.idle
  · intro k console found serving
    have inside : k ≠ s.consoles.length := Nat.ne_of_lt (List.getElem?_eq_some_iff.mp found).1
    obtain ⟨pointed,balance⟩ := mail.busy k console found serving
    simp only [accepted,written,addressee,stdin k inside,flag,text,same]
    refine ⟨?_,balance⟩
    rcases target with unmoved | preparing
    · rw [unmoved]; exact pointed
    · rw [notServing mail.lock here preparing found] at serving
      contradiction

theorem mailCreated {s : SlotState} {memo t} {thread : NewClient.Thread} (mail : Mail (s,memo))
    (here : s.clients[t]? = some thread) (at_ : thread.pc = .create)
    (lock : SlotLock ⟨s.slot,s.clients.set t {thread with pc := .receive,newConsoleThread := some s.consoles.length},
      s.consoles ++ [NewConsole.created thread.socketID]⟩) :
    Mail (⟨s.slot,s.clients.set t {thread with pc := .receive,newConsoleThread := some s.consoles.length},
      s.consoles ++ [NewConsole.created thread.socketID]⟩,
      noteInput memo s (.client t (.thread s.consoles.length)) .createConsole
        ⟨s.slot,s.clients.set t {thread with pc := .receive,newConsoleThread := some s.consoles.length},
          s.consoles ++ [NewConsole.created thread.socketID]⟩) := by
  have preparing : thread.pc.preparing = true := by rw [at_]; rfl
  have stopped (k : Nat) (console : NewConsole.Thread) (found : s.consoles[k]? = some console) :
    console.pc.serving = false := notServing mail.lock here preparing found
  obtain ⟨before,after⟩ := flaggingSet {thread with pc := .receive,newConsoleThread := some s.consoles.length}
    s.slot (s.consoles ++ [NewConsole.created thread.socketID]) mail.lock here (by simp [at_])
  have unflagged := after.trans (decide_eq_false (by simp))
  have even (k : Nat) : memo.written k = delivered (memo.accepted k) :=
    mail.settled k fun console found => stopped k console found
  have newest : (s.consoles ++ [NewConsole.created thread.socketID])[s.consoles.length]? =
      some (NewConsole.created thread.socketID) := by simp
  refine ⟨lock,fun k _ => even k,?_,?_⟩
  · intro off
    exact Bool.noConfusion (off _ _ newest)
  · intro k console found serving
    rcases pushFound found with ⟨rfl,rfl⟩ | ⟨_,old⟩
    · refine ⟨by simp [noteInput],?_⟩
      rw [unflagged]
      refine ⟨by simp,?_⟩
      cases full : s.slot.console.hasNextCommand with
      | false => exact even _
      | true =>
        have blank : s.slot.console.nextCommand = [] := by
          simpa [full] using (mail.idle stopped).1
        exact ⟨by simp [blank,noteInput,even],by simp [blank],.inl blank⟩
    · rw [stopped k console old] at serving
      contradiction

theorem mailClient {host maxClients s memo t r call s'} (mail : Mail (s,memo))
    (ok : Orderly (s,memo) (.client t r)) (h : SlotStep host maxClients s (.client t r) call s')
    (lock : SlotLock s') : Mail (s',noteInput memo s (.client t r) call s') := by
  cases h with
  | created here at_ => exact mailCreated mail here at_ lock
  | @client _ _ thread _ next slot here step noThread joined =>
    have result : r = .done ∨ thread.pc.deposited = none ∧ thread.pc ≠ .flag := by
      cases step <;> simp_all [NewClient.Pc.deposited]
    rcases clientMail step with ⟨p,at_,then_,memory,stored⟩ | ⟨at_,then_,memory,set_⟩ |
        ⟨nothing,off,offNext,flag,text,target⟩
    · obtain rfl : r = .done := by simpa [at_,NewClient.Pc.deposited] using result
      exact mailDeposit mail ok here at_ then_ memory stored lock
    · obtain rfl : r = .done := by simpa [at_] using result
      exact mailFlag mail here at_ then_ memory set_ lock
    · exact mailQuiet mail here (clientNotDone step) lock nothing off offNext flag text target

theorem noteSilent {s k} (memo : Inputs) (r : Result) (call : Call) (s' : SlotState)
    (silent : ∀ d b, call ≠ .write d b) : noteInput memo s (.console k r) call s' = memo := by
  cases call <;> simp_all [noteInput]

theorem mailServed {s memo memo' k thread next slot} (mail : Mail (s,memo)) (here : s.consoles[k]? = some thread)
    (serving : thread.pc.serving = true) (lock : SlotLock ⟨slot,s.clients,s.consoles.set k next⟩)
    (others : ∀ j, j ≠ k → memo'.written j = memo.written j) (accepted : memo'.accepted = memo.accepted)
    (goesOn : next.pc.serving = true → slot.console.pipeParentToChild.2 = memo'.stdin k ∧
      Balance next.pc slot.console.hasNextCommand s.flagging slot.console.nextCommand (memo'.written k)
        (memo'.accepted k) memo'.addressee k)
    (stops : next.pc.serving = false → memo'.written k = delivered (memo'.accepted k) ∧
      (slot.console.hasNextCommand = false ∨ slot.console.nextCommand = []) ∧ s.flagging = false) :
    Mail (⟨slot,s.clients,s.consoles.set k next⟩,memo') := by
  have updated : (s.consoles.set k next)[k]? = some next := by rw [setAt here]; simp
  refine ⟨lock,?_,fun off => (stops (off k next updated)).2,?_⟩
  · intro j off
    by_cases same : j = k
    · subst same
      exact (stops (off next updated)).1
    · have kept := off
      simp only [setAt here,same,if_false] at kept
      rw [others j same,accepted]
      exact mail.settled j kept
  · intro j console found servingOther
    rcases setFound here found with ⟨rfl,rfl⟩ | ⟨differ,old⟩
    · exact goesOn servingOther
    · have last : k+1 = s.consoles.length := servingLast mail.lock here serving
      have lastOther : j+1 = s.consoles.length := servingLast mail.lock old servingOther
      exact (differ (by omega)).elim

theorem mailServing {s memo memo' k thread next slot} (mail : Mail (s,memo)) (here : s.consoles[k]? = some thread)
    (serving : thread.pc.serving = true) (stays : next.pc.serving = true)
    (lock : SlotLock ⟨slot,s.clients,s.consoles.set k next⟩)
    (others : ∀ j, j ≠ k → memo'.written j = memo.written j) (accepted : memo'.accepted = memo.accepted)
    (goesOn : slot.console.pipeParentToChild.2 = memo'.stdin k ∧
      Balance next.pc slot.console.hasNextCommand s.flagging slot.console.nextCommand (memo'.written k)
        (memo'.accepted k) memo'.addressee k) :
    Mail (⟨slot,s.clients,s.consoles.set k next⟩,memo') :=
  mailServed mail here serving lock others accepted (fun _ => goesOn)
    fun off => Bool.noConfusion (stays.symm.trans off)

theorem mailLeaves {s memo k r thread next} (mail : Mail (s,memo)) (ok : Orderly (s,memo) (.console k r))
    (here : s.consoles[k]? = some thread) (ready : thread.pc.ready = true) (stopped : next.pc.serving = false)
    (leaves : s.leavesLoop k r = true) (lock : SlotLock ⟨s.slot,s.clients,s.consoles.set k next⟩) :
    Mail (⟨s.slot,s.clients,s.consoles.set k next⟩,memo) := by
  have serving : thread.pc.serving = true := by
    simp only [NewConsole.Pc.ready,Bool.and_eq_true] at ready
    exact ready.1.1.1
  obtain ⟨empty,unflagged⟩ := ok leaves
  obtain ⟨_,balance⟩ := mail.busy k thread here serving
  rw [balanceReady ready] at balance
  refine mailServed mail here serving lock (fun _ _ => rfl) rfl ?_ ?_
  · intro on
    rw [stopped] at on
    contradiction
  · refine fun _ => ⟨?_,empty,unflagged⟩
    cases full : s.slot.console.hasNextCommand with
    | false => simpa [full,show s.flagging = false from unflagged] using balance.2
    | true =>
      have blank : s.slot.console.nextCommand = [] := by simpa [full] using empty
      have owed := balance.2
      simp only [full,Bool.true_or,if_true] at owed
      simpa [blank] using owed.rest

theorem mailBeside {s memo k thread next slot} (mail : Mail (s,memo)) (here : s.consoles[k]? = some thread)
    (off : thread.pc.serving = false) (offNext : next.pc.serving = false)
    (flag : slot.console.hasNextCommand = s.slot.console.hasNextCommand)
    (text : slot.console.nextCommand = s.slot.console.nextCommand)
    (target : slot.console.pipeParentToChild = s.slot.console.pipeParentToChild)
    (lock : SlotLock ⟨slot,s.clients,s.consoles.set k next⟩) :
    Mail (⟨slot,s.clients,s.consoles.set k next⟩,memo) := by
  have same (j : Nat) : (∀ console, (s.consoles.set k next)[j]? = some console →
      console.pc.serving = false) → ∀ console, s.consoles[j]? = some console →
      console.pc.serving = false := by
    intro quiet console found
    by_cases here_ : j = k
    · subst here_
      cases Option.some.inj (here.symm.trans found)
      exact off
    · exact quiet console (by rw [setAt here,if_neg here_]; exact found)
  refine ⟨lock,fun j quiet => mail.settled j (same j quiet),?_,?_⟩
  · intro quiet
    obtain ⟨empty,unflagged⟩ := mail.idle fun j => same j (quiet j)
    rw [flag,text]
    exact ⟨empty,unflagged⟩
  · intro j console found serving
    rcases setFound here found with ⟨rfl,rfl⟩ | ⟨_,old⟩
    · rw [offNext] at serving
      contradiction
    · rw [flag,text,target]
      exact mail.busy j console old serving

theorem mailConsole {host maxClients s memo k r call s'} (mail : Mail (s,memo))
    (ok : Orderly (s,memo) (.console k r)) (h : SlotStep host maxClients s (.console k r) call s')
    (lock : SlotLock s') : Mail (s',noteInput memo s (.console k r) call s') := by
  cases h with
  | @console _ _ thread _ next slot here step =>
    rcases consoleMail step with ⟨at_,then_,rfl,rfl⟩ | ⟨at_,then_,rfl,rfl⟩ | ⟨at_,then_,rfl,rfl⟩ |
        ⟨at_,then_,rfl,full,rfl⟩ | ⟨ready,stopped,silent,rfl,exit⟩ | ⟨sameReady,sameServing,serves,silent,flag,text,target⟩
    · obtain ⟨target,balance⟩ := mail.busy k thread here (by rw [at_]; rfl)
      rw [at_] at balance
      obtain ⟨_,unflagged,owed⟩ := balance
      refine mailServing mail here (by rw [at_]; rfl) (by rw [then_]; rfl) lock ?_ rfl ⟨target,?_⟩
      · exact fun j other => Function.update_of_ne other _ _
      · rw [then_]
        refine ⟨unflagged,?_⟩
        simp only [noteInput,Function.update_self,cStringOfNoZero owed.clean]
        exact owed.rest
    · obtain ⟨target,balance⟩ := mail.busy k thread here (by rw [at_]; rfl)
      rw [at_] at balance
      refine mailServing mail here (by rw [at_]; rfl) (by rw [then_]; rfl) lock (fun _ _ => rfl) rfl ⟨target,?_⟩
      rw [then_]
      exact ⟨rfl,balance⟩
    · obtain ⟨target,balance⟩ := mail.busy k thread here (by rw [at_]; rfl)
      rw [at_] at balance
      obtain ⟨empty,unflagged,even⟩ := balance
      have empty : s.slot.console.hasNextCommand = false := empty
      have unflagged : s.flagging = false := unflagged
      rw [noteSilent _ _ _ _ (by simp)]
      refine mailServing mail here (by rw [at_]; rfl) (by rw [then_]; rfl) lock (fun _ _ => rfl) rfl ⟨target,?_⟩
      rw [then_]
      exact ⟨fun _ => empty,by simpa [empty,unflagged] using even⟩
    · obtain ⟨target,balance⟩ := mail.busy k thread here (by rw [at_]; rfl)
      rw [at_] at balance
      obtain ⟨apart,owed⟩ := balance
      rw [noteSilent _ _ _ _ (by simp)]
      refine mailServing mail here (by rw [at_]; rfl) (by rw [then_]; rfl) lock (fun _ _ => rfl) rfl ⟨target,?_⟩
      rw [then_]
      refine ⟨full,?_,by simpa [full] using owed⟩
      cases flagged : s.flagging with
      | false => rfl
      | true => rw [apart flagged] at full; contradiction
    · rw [noteSilent _ _ _ _ silent]
      exact mailLeaves mail ok here ready stopped (by simp [SlotState.leavesLoop,here,exit]) lock
    · rw [noteSilent _ _ _ _ silent]
      cases ready : thread.pc.ready with
      | true =>
        obtain ⟨pointed,balance⟩ := mail.busy k thread here (serves.trans ready)
        rw [balanceReady ready] at balance
        refine mailServing mail here (serves.trans ready) (sameServing.trans ready) lock (fun _ _ => rfl) rfl ?_
        rw [target,balanceReady (sameReady.trans ready),flag,text]
        exact ⟨pointed,balance⟩
      | false =>
        exact mailBeside mail here (serves.trans ready) (sameServing.trans ready) flag text target lock

theorem mailStep {host maxClients} {s s' : SlotState × Inputs} {l call} (mail : Mail s) (ok : Orderly s l)
    (h : (watch (slotMachine host maxClients) noteInput).act s l = some (call,s')) : Mail s' := by
  obtain ⟨act,noted⟩ := watchAct h
  have step := slotStep act
  obtain ⟨s,memo⟩ := s
  obtain ⟨next,memo'⟩ := s'
  obtain rfl : memo' = noteInput memo s l call next := noted
  have one : OneClient s l := by
    cases l with
    | start i => exact ok
    | _ => trivial
  have lock := lockStep mail.lock one step
  cases l with
  | listen pc r =>
    have silent : noteInput memo s (.listen pc r) call next = memo := by cases call <;> rfl
    exact silent ▸ mailListen mail step lock
  | start i =>
    have silent : noteInput memo s (.start i) call next = memo := by cases call <;> rfl
    exact silent ▸ mailStart mail step lock
  | client t r => exact mailClient mail ok step lock
  | console k r => exact mailConsole mail ok step lock

/- The flags are as `new ThreadData[]` left them, the string `nextCommand` is constructed empty. -/
structure Untouched (s : SlotState) : Prop extends NoThreads s where
  nextCommand : s.slot.console.nextCommand = []

theorem untouchedMail {s} (untouched : Untouched s) : Mail (s,noInputs) := by
  refine ⟨noThreadsLock untouched.toNoThreads,fun _ _ => rfl,fun _ => ⟨.inr untouched.nextCommand,?_⟩,?_⟩
  · simp [SlotState.flagging,untouched.clients]
  · simp [untouched.consoles]

theorem followUpsDelivered {host maxClients s t} (untouched : Untouched s)
    (run : Reaches (watch (slotMachine host maxClients) noteInput) Orderly (s,noInputs) t) :
    DeliveredOnce t :=
  mailDelivered (invariantOfStep mailStep run (untouchedMail untouched))

theorem mailboxesDeliver {State Event : Type} {os : OperatingSystem State Event} {host maxClients i}
    {s : Server State} {t : Server State × Inputs} (untouched : Untouched (s.slots i))
    (run : Reaches (watch (serverMachine host maxClients os) (noteOfSlot i noteInput)) (AllowedOnSlot i Orderly)
      (s,noInputs) t) : DeliveredOnce (t.1.slots i,t.2) :=
  mailDelivered (invariantOfStep mailStep (slotRun run) (untouchedMail untouched))

def catRunning : List SlotLabel :=
  sessionOpens 4 (ascii "/") ++ launches 0 0 "Mcat" ++ consoleStarts 0 100

def followUp (message : String) : List SlotLabel := clientDoes 0 [heard message,.done,.done,.done,.done]

def mailTaken : List SlotLabel := consoleDoes 0 [.again false,.done,.done,.done,.done,.done]

theorem helloDelivered : ∃ t, run (watch (slotMachine plainHost 19) noteInput) Orderly (vacant false false,noInputs)
      (catRunning ++ followUp "Mhello" ++ mailTaken) = some t ∧
    t.2.written 0 = ascii "hello\n" ∧ DeliveredOnce t := by
  have ends : (run (watch (slotMachine plainHost 19) noteInput) Orderly (vacant false false,noInputs)
      (catRunning ++ followUp "Mhello" ++ mailTaken)).map (fun t => t.2.written 0) = some (ascii "hello\n") := by
    decide +kernel
  obtain ⟨t,ran,written⟩ := Option.map_eq_some_iff.mp ends
  exact ⟨t,ran,written,followUpsDelivered ⟨⟨rfl,rfl⟩,rfl⟩ (runReaches ran)⟩

theorem secondFollowUpOverwrites : ∃ t,
    Reaches (watch (slotMachine plainHost 19) noteInput) free (vacant false false,noInputs) t ∧
    t.2.accepted 0 = [ascii "a",ascii "b"] ∧ t.2.written 0 = ascii "b\n" ∧ ¬ DeliveredOnce t := by
  have ends : (run (watch (slotMachine plainHost 19) noteInput) free (vacant false false,noInputs)
      (catRunning ++ followUp "Ma" ++ followUp "Mb" ++ mailTaken)).map
        (fun t => (t.2.accepted 0,t.2.written 0)) = some ([ascii "a",ascii "b"],ascii "b\n") := by
    decide +kernel
  obtain ⟨t,ran,same⟩ := Option.map_eq_some_iff.mp ends
  obtain ⟨accepted,written⟩ := Prod.mk.inj same
  refine ⟨t,runReaches ran,accepted,written,fun once => ?_⟩
  have ordered := once.ordered 0
  rw [accepted,written] at ordered
  revert ordered
  decide +kernel

end RemoteTerminal
