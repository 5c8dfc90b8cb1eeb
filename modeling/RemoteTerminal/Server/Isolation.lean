import RemoteTerminal.Server.Mailbox
import RemoteTerminal.Server.Handoff

/-! Sessions that use one slot after another. The memo counts the sessions accepted into
each slot and keeps, for every console thread, the session it was created in and the pipe
ends it was given. -/
namespace RemoteTerminal
open ByteStrings LabelledRuns EntryTable

structure Sessions where
  session : Nat
  socket : Nat → Int
  startedIn : Nat → Nat
  stdin : Nat → Nat
  stdout : Nat → Nat
  mailFrom : Nat

def noSessions : Sessions := ⟨0,fun _ => 0,fun _ => 0,fun _ => 0,fun _ => 0,0⟩

def noteSlot (memo : Sessions) (s : SlotState) : SlotLabel → Call → Sessions
  | .listen _ (.descriptor n),.accept =>
    {memo with session := memo.session+1,socket := Function.update memo.socket (memo.session+1) n}
  | .client _ _,.createConsole => {memo with
      startedIn := Function.update memo.startedIn s.consoles.length memo.session
      stdin := Function.update memo.stdin s.consoles.length s.slot.console.pipeParentToChild.2
      stdout := Function.update memo.stdout s.consoles.length s.slot.console.pipeChildToParent.1}
  | .client t _,.memory => match s.deposited t with
    | some _ => {memo with mailFrom := memo.session}
    | none => memo
  | _,_ => memo

variable {State Event : Type} {host : Host} {maxClients : Nat} {os : OperatingSystem State Event}

def noteSessions (memo : Nat → Sessions) (s : Server State) (l : ServerLabel Event) (call : Call)
    (_ : Server State) : Nat → Sessions :=
  match l.onSlot s with
  | some (i,label) => Function.update memo i (noteSlot (memo i) (s.slots i) label call)
  | none => memo

def SlotState.vacated (s : SlotState) : Prop :=
  s.slot.console.pipeActive = false ∧ s.slot.console.hasNextCommand = false ∧
    ∀ console ∈ s.consoles, console.pc = .done
instance (s : SlotState) : Decidable s.vacated := by unfold SlotState.vacated; infer_instance

/- A slot is marked free only when its console threads have returned and both flags are
false. Its next thread starts for an accepted socket and after the last one has returned. -/
def Vacates (s : Server State × (Nat → Sessions)) : ServerLabel Event → Prop
  | .listen r => r ≠ .descriptor 0
  | .start => StartsAlone s.1 (.start : ServerLabel Event) ∧
      (s.1.slots s.1.current).slot.client ≠ 0 ∧ (s.1.slots s.1.current).slot.client ≠ -1
  | .client i t _ => ∀ thread ∈ (s.1.slots i).clients[t]?, thread.pc = .freeSlot → (s.1.slots i).vacated
  | _ => True
instance (s : Server State × (Nat → Sessions)) : (l : ServerLabel Event) → Decidable (Vacates s l)
  | .listen _ | .start | .client _ _ _ => by dsimp only [Vacates]; infer_instance
  | .console _ _ _ | .system _ => isTrue trivial

structure Isolated (s : SlotState) (memo : Sessions) (l : SlotLabel) (call : Call) : Prop where
  starts : (call = .accept ∨ ∃ i, l = .start i) → s.vacated
  output : ∀ k r socket message, l = .console k r → call = .send socket message →
    memo.startedIn k = memo.session ∧ socket = memo.socket memo.session
  source : ∀ k r d, l = .console k r → call = .read d → d = memo.stdout k
  input : ∀ k r d text, l = .console k r → call = .write d text →
    d = memo.stdin k ∧ memo.mailFrom = memo.startedIn k

structure SlotApart (s : SlotState) (memo : Sessions) (invalid : Prop) : Prop where
  lock : SlotLock s
  failed : invalid → s.slot.client = -1
  empty : s.slot.client = 0 ∨ s.slot.client = -1 → ∀ thread ∈ s.clients, thread.pc.holdsSlot = false
  vacated : (∀ thread ∈ s.clients, thread.pc.holdsSlot = false) → s.vacated
  current : ∀ (k : Nat) (console : NewConsole.Thread), s.consoles[k]? = some console →
    console.pc ≠ .done → memo.startedIn k = memo.session
  socket : s.slot.client ≠ 0 → s.slot.client ≠ -1 → s.slot.client = memo.socket memo.session
  mail : s.slot.console.hasNextCommand = true ∨ s.flagging = true → memo.mailFrom = memo.session
  writing : ∀ console ∈ s.consoles, console.pc = .write → memo.mailFrom = memo.session
  pipes : ∀ (k : Nat) (console : NewConsole.Thread), s.consoles[k]? = some console →
    console.pc.active = true → s.slot.console.pipeParentToChild.2 = memo.stdin k ∧
      s.slot.console.pipeChildToParent.1 = memo.stdout k

theorem clientLeaves {t s r call t' s'} (h : NewClient.Steps host t s r call t' s') :
    (t.pc.holdsSlot = true ∧ t'.pc.holdsSlot = true ∧ s'.client = s.client) ∨
    (t.pc = .freeSlot ∧ t'.pc = .exit ∧ call = .memory ∧ s' = {s with client := 0}) ∨
    (t.pc = .exit ∧ t'.pc = .done ∧ call = .memory ∧ s' = s) := by
  cases h <;> simp_all [NewClient.Pc.holdsSlot]

theorem clientPipes {t s r call t' s'} (h : NewClient.Steps host t s r call t' s') :
    (s'.console.pipeParentToChild = s.console.pipeParentToChild ∧
      s'.console.pipeChildToParent = s.console.pipeChildToParent) ∨ t.pc.preparing = true := by
  cases h <;> simp_all [NewClient.Pc.preparing]

theorem consoleIsolation {t s r call t' s'} (h : NewConsole.Steps t s r call t' s') :
    t.pc ≠ .done ∧ s'.client = s.client ∧ (t'.pc.active = true → t.pc.active = true) ∧
    s'.console.pipeParentToChild = s.console.pipeParentToChild ∧
    s'.console.pipeChildToParent = s.console.pipeChildToParent ∧
    (s'.console.hasNextCommand = true → s.console.hasNextCommand = true) ∧
    (t'.pc = .write → s.console.hasNextCommand = true) ∧
    (∀ socket message, call = .send socket message → socket = s.client) ∧
    (∀ d, call = .read d → t.pc.active = true ∧ d = s.console.pipeChildToParent.1) ∧
    (∀ d text, call = .write d text → t.pc = .write ∧ d = s.console.pipeParentToChild.2) ∧ call ≠ .accept := by
  cases h <;> simp_all [NewConsole.Pc.active]

theorem flagHolds {s : SlotState} (idle : ∀ thread ∈ s.clients, thread.pc.holdsSlot = false) :
    s.flagging = false := by
  cases flagged : s.flagging with
  | false => rfl
  | true =>
    obtain ⟨thread,mem,at_⟩ := List.any_eq_true.mp flagged
    have holds := idle thread mem
    rw [of_decide_eq_true at_] at holds
    contradiction

theorem apartListen {s : SlotState} {memo pc r call slot pc' current current'} {invalid' : Prop}
    (apart : SlotApart s memo (∃ i, pc = .invalid i)) (ok : r ≠ .descriptor 0)
    (h : SocketListen.Steps maxClients s.slot current pc r call pc' slot current')
    (lock : SlotLock {s with slot}) (now : invalid' → ∃ i, pc' = .invalid i) :
    SlotApart {s with slot} (noteSlot memo s (.listen pc r) call) invalid' ∧
      Isolated s memo (.listen pc r) call := by
  have vacant (free : s.slot.client = 0) : s.vacated := apart.vacated (apart.empty (.inl free))
  have law : Isolated s memo (.listen pc r) call := by
    refine ⟨?_,by simp,by simp,by simp⟩
    intro starts
    cases h with
    | accepted inside free => exact vacant free
    | refused inside free => exact vacant free
    | _ => simp at starts
  refine ⟨?_,law⟩
  obtain ⟨_,failed,empty,vacated,same,socket,mail,writing,pipes⟩ := apart
  cases h with
  | @accepted i n inside free =>
    have idle := empty (.inl free)
    obtain ⟨pipeIdle,unread,returned⟩ := vacant free
    have ended (console : NewConsole.Thread) (mem : console ∈ s.consoles) (live : console.pc ≠ .done) : False :=
      live (returned console mem)
    refine ⟨lock,fun wrong => by simpa using now wrong,?_,fun _ => ⟨pipeIdle,unread,returned⟩,?_,?_,?_,?_,?_⟩
    · intro off
      have zero : n ≠ 0 := fun none => ok (by rw [none])
      simp only at off
      omega
    · exact fun k console found live => (ended console (List.mem_of_getElem? found) live).elim
    · intro _ _
      simp [noteSlot]
    · intro left
      rcases left with full | flagged
      · exact Bool.noConfusion (unread.symm.trans full)
      · exact Bool.noConfusion ((flagHolds idle).symm.trans flagged)
    · intro console mem writes
      exact (ended console mem (by simp [writes])).elim
    · intro k console found active
      refine (ended console (List.mem_of_getElem? found) fun stopped => ?_).elim
      rw [stopped] at active
      contradiction
  | @refused i inside free =>
    refine ⟨lock,fun _ => rfl,fun _ => empty (.inl free),vacated,same,fun _ valid => (valid rfl).elim,mail,writing,pipes⟩
  | invalid =>
    exact ⟨lock,fun wrong => by simpa using now wrong,fun _ => empty (.inr (failed ⟨_,rfl⟩)),vacated,same,
      fun taken => (taken rfl).elim,mail,writing,pipes⟩
  | _ =>
    exact ⟨lock,fun wrong => by simpa using now wrong,empty,vacated,same,socket,mail,writing,pipes⟩

theorem apartStart {s : SlotState} {memo i invalid} (apart : SlotApart s memo invalid)
    (returned : ∀ thread ∈ s.clients, thread.pc = .done) (taken : s.slot.client ≠ 0) (valid : s.slot.client ≠ -1)
    (lock : SlotLock {s with clients := s.clients ++ [NewClient.started i]}) :
    SlotApart {s with clients := s.clients ++ [NewClient.started i]} memo invalid ∧
      Isolated s memo (.start i) .memory := by
  have idle (thread : NewClient.Thread) (mem : thread ∈ s.clients) : thread.pc.holdsSlot = false := by
    rw [returned thread mem]; rfl
  refine ⟨⟨lock,apart.failed,fun off => (off.elim taken valid).elim,?_,apart.current,apart.socket,?_,apart.writing,
    apart.pipes⟩,fun _ => apart.vacated idle,by simp,by simp,by simp⟩
  · intro none
    exact Bool.noConfusion (none (NewClient.started i) (by simp))
  · simpa [SlotState.flagging,NewClient.started] using apart.mail

theorem clientNeverAccepts {t s r call t' s'} (h : NewClient.Steps host t s r call t' s') : call ≠ .accept := by
  cases h <;> simp

theorem noteClient (s : SlotState) (memo : Sessions) (t : Nat) (r : Result) (call : Call) :
    (noteSlot memo s (.client t r) call).session = memo.session ∧
    (noteSlot memo s (.client t r) call).socket = memo.socket ∧
    (∀ k, k ≠ s.consoles.length → (noteSlot memo s (.client t r) call).startedIn k = memo.startedIn k ∧
      (noteSlot memo s (.client t r) call).stdin k = memo.stdin k ∧
      (noteSlot memo s (.client t r) call).stdout k = memo.stdout k) ∧
    (memo.mailFrom = memo.session → (noteSlot memo s (.client t r) call).mailFrom = memo.session) ∧
    (call = .memory → s.deposited t ≠ none → (noteSlot memo s (.client t r) call).mailFrom = memo.session) := by
  cases call with
  | memory =>
    cases found : s.deposited t <;> simp [noteSlot,found]
  | createConsole =>
    refine ⟨rfl,rfl,fun k other => ⟨?_,?_,?_⟩,id,by simp⟩
    · exact Function.update_of_ne other _ _
    · exact Function.update_of_ne other _ _
    · exact Function.update_of_ne other _ _
  | _ => simp [noteSlot]

section
variable {s : SlotState} {memo : Sessions} {invalid : Prop} {t : Nat} {r : Result} {call : Call} {memory : Slot}
  {thread next : NewClient.Thread}

theorem emptyAfter (apart : SlotApart s memo invalid) (here : s.clients[t]? = some thread)
    (step : NewClient.Steps host thread s.slot r call next memory)
    (off : memory.client = 0 ∨ memory.client = -1) (c : NewClient.Thread) (found : c ∈ s.clients.set t next) :
    c.pc.holdsSlot = false := by
  have live := clientNotDone step
  have before (differ : c ≠ next) : c.pc = .done :=
    Classical.byContradiction fun working => differ (onlyLiveNext apart.lock here live found working)
  rcases clientLeaves step with ⟨holds,_,same⟩ | ⟨_,then_,_,_⟩ | ⟨_,then_,_,_⟩
  · simp only [same] at off
    exact Bool.noConfusion ((apart.empty off thread (List.mem_of_getElem? here)).symm.trans holds)
  all_goals
    by_cases moved : c = next
    · rw [moved,then_]
      rfl
    · rw [before moved]
      rfl

theorem vacatedAfter (apart : SlotApart s memo invalid) (ok : thread.pc = .freeSlot → s.vacated)
    (here : s.clients[t]? = some thread) (step : NewClient.Steps host thread s.slot r call next memory)
    (none : ∀ c ∈ s.clients.set t next, c.pc.holdsSlot = false) :
    (SlotState.mk memory (s.clients.set t next) s.consoles).vacated := by
  rcases clientLeaves step with ⟨_,holds,_⟩ | ⟨at_,_,_,rfl⟩ | ⟨at_,_,_,rfl⟩
  · exact Bool.noConfusion ((none next ((memSet here).mpr (.inl rfl))).symm.trans holds)
  · exact ok at_
  · refine apart.vacated fun c found => ?_
    rcases memOld next here found with rfl | still
    · rw [at_]
      rfl
    · exact none c still

theorem mailAfter (apart : SlotApart s memo invalid) (here : s.clients[t]? = some thread)
    (step : NewClient.Steps host thread s.slot r call next memory)
    (left : memory.console.hasNextCommand = true ∨
      (SlotState.mk memory (s.clients.set t next) s.consoles).flagging = true) :
    (noteSlot memo s (.client t r) call).mailFrom = memo.session := by
  obtain ⟨-,-,-,keepsMail,deposits⟩ := noteClient s memo t r call
  obtain ⟨flagged,flaggedNext⟩ := flaggingSet next memory s.consoles apart.lock here (clientNotDone step)
  rcases clientMail step with ⟨p,at_,_,memory,_⟩ | ⟨at_,_,_,_⟩ | ⟨_,_,offNext,flag,_,_⟩
  · exact deposits memory (by simp [SlotState.deposited,here,NewClient.Pc.deposited,at_])
  · exact keepsMail (apart.mail (.inr (by rw [flagged,at_]; rfl)))
  · rcases left with full | raised
    · exact keepsMail (apart.mail (.inl (flag.symm.trans full)))
    · rw [flaggedNext] at raised
      exact (offNext (of_decide_eq_true raised)).elim

theorem apartMove (apart : SlotApart s memo invalid) (ok : thread.pc = .freeSlot → s.vacated)
    (here : s.clients[t]? = some thread) (step : NewClient.Steps host thread s.slot r call next memory)
    (lock : SlotLock ⟨memory,s.clients.set t next,s.consoles⟩) :
    SlotApart ⟨memory,s.clients.set t next,s.consoles⟩ (noteSlot memo s (.client t r) call) invalid := by
  obtain ⟨sameSession,sameSocket,sameConsole,keepsMail,-⟩ := noteClient s memo t r call
  refine ⟨lock,?_,emptyAfter apart here step,vacatedAfter apart ok here step,?_,?_,?_,?_,?_⟩
  · intro wrong
    have off := apart.failed wrong
    have idle := apart.empty (.inr off) thread (List.mem_of_getElem? here)
    rcases clientLeaves step with ⟨holds,_,_⟩ | ⟨at_,_,_,_⟩ | ⟨_,_,_,rfl⟩
    · exact Bool.noConfusion (idle.symm.trans holds)
    · rw [at_] at idle
      contradiction
    · exact off
  · intro k console found running
    have inside : k ≠ s.consoles.length := Nat.ne_of_lt (List.getElem?_eq_some_iff.mp found).1
    rw [(sameConsole k inside).1,sameSession]
    exact apart.current k console found running
  · intro taken valid
    rw [sameSession,sameSocket]
    rcases clientLeaves step with ⟨_,_,same⟩ | ⟨_,_,_,rfl⟩ | ⟨_,_,_,rfl⟩
    · simp only [same] at taken valid ⊢
      exact apart.socket taken valid
    · exact (taken rfl).elim
    · exact apart.socket taken valid
  · intro left
    rw [sameSession]
    exact mailAfter apart here step left
  · intro console found writes
    rw [sameSession]
    exact keepsMail (apart.writing console found writes)
  · intro k console found active
    have inside : k ≠ s.consoles.length := Nat.ne_of_lt (List.getElem?_eq_some_iff.mp found).1
    rw [(sameConsole k inside).2.1,(sameConsole k inside).2.2]
    rcases clientPipes step with ⟨input,output⟩ | preparing
    · simp only [input,output]
      exact apart.pipes k console found active
    · exact Bool.noConfusion ((apart.lock.alone t thread k console here preparing found).symm.trans active)

end

theorem apartClient {s s' : SlotState} {memo invalid t r call} (apart : SlotApart s memo invalid)
    (ok : ∀ thread ∈ s.clients[t]?, thread.pc = .freeSlot → s.vacated)
    (h : SlotStep host maxClients s (.client t r) call s') (lock : SlotLock s') :
    SlotApart s' (noteSlot memo s (.client t r) call) invalid ∧ Isolated s memo (.client t r) call := by
  cases h with
  | client here step noThread joined =>
    exact ⟨apartMove apart (ok _ here) here step lock,by simp [clientNeverAccepts step],by simp,by simp,by simp⟩
  | @created _ thread here at_ =>
    refine ⟨?_,by simp,by simp,by simp,by simp⟩
    obtain ⟨sameSession,sameSocket,sameConsole,keepsMail,_⟩ :=
      noteClient s memo t (.thread s.consoles.length) .createConsole
    have taken : ¬ (s.slot.client = 0 ∨ s.slot.client = -1) := by
      intro off
      have idle := apart.empty off thread (List.mem_of_getElem? here)
      rw [at_] at idle
      contradiction
    obtain ⟨flagged,flaggedNext⟩ := flaggingSet {thread with pc := .receive,newConsoleThread := some s.consoles.length}
      s.slot (s.consoles ++ [NewConsole.created thread.socketID]) apart.lock here (by simp [at_])
    refine ⟨lock,apart.failed,fun off => (taken off).elim,?_,?_,apart.socket,?_,?_,?_⟩
    · intro none
      exact Bool.noConfusion (none _ ((memSet here).mpr (.inl rfl)))
    · intro k console found running
      rcases pushFound found with ⟨rfl,_⟩ | ⟨inside,old⟩
      · simp [noteSlot]
      · rw [(sameConsole k (Nat.ne_of_lt inside)).1]
        exact apart.current k console old running
    · intro left
      rcases left with full | raised
      · exact keepsMail (apart.mail (.inl full))
      · rw [flaggedNext] at raised
        contradiction
    · intro console found writes
      rcases List.mem_append.mp found with old | new
      · exact keepsMail (apart.writing console old writes)
      · rw [List.mem_singleton.mp new] at writes
        contradiction
    · intro k console found active
      rcases pushFound found with ⟨rfl,_⟩ | ⟨inside,old⟩
      · simp [noteSlot]
      · rw [(sameConsole k (Nat.ne_of_lt inside)).2.1,(sameConsole k (Nat.ne_of_lt inside)).2.2]
        exact apart.pipes k console old active

theorem apartConsole {s s' : SlotState} {memo invalid k r call} (apart : SlotApart s memo invalid)
    (h : SlotStep host maxClients s (.console k r) call s') (lock : SlotLock s') :
    SlotApart s' memo invalid ∧ Isolated s memo (.console k r) call := by
  cases h with
  | @console _ _ thread _ next memory here step =>
    have mem : thread ∈ s.consoles := List.mem_of_getElem? here
    obtain ⟨live,sameClient,active,input,output,flag,writes,sent,got,put,noAccept⟩ := consoleIsolation step
    have inSession : ¬ ∀ c ∈ s.clients, c.pc.holdsSlot = false :=
      fun idle => live ((apart.vacated idle).2.2 thread mem)
    have taken : ¬ (s.slot.client = 0 ∨ s.slot.client = -1) := fun off => inSession (apart.empty off)
    have current := apart.current k thread here live
    refine ⟨⟨lock,?_,?_,fun idle => (inSession idle).elim,?_,?_,?_,?_,?_⟩,?_⟩
    · exact fun wrong => sameClient.trans (apart.failed wrong)
    · exact fun off => (taken (by simpa only [sameClient] using off)).elim
    · intro j console found running
      rcases setFound here found with ⟨rfl,_⟩ | ⟨_,old⟩
      · exact current
      · exact apart.current j console old running
    · simpa only [sameClient] using apart.socket
    · intro left
      rcases left with full | raised
      · exact apart.mail (.inl (flag full))
      · exact apart.mail (.inr raised)
    · intro console found at_
      rcases (memSet here).mp found with rfl | ⟨_,_,old⟩
      · exact apart.mail (.inl (writes at_))
      · exact apart.writing console (List.mem_of_getElem? old) at_
    · intro j console found works
      simp only [input,output]
      rcases setFound here found with ⟨rfl,rfl⟩ | ⟨_,old⟩
      · exact apart.pipes j thread here (active works)
      · exact apart.pipes j console old works
    · refine ⟨fun starts => ?_,?_,?_,?_⟩
      · simp [noAccept] at starts
      · intro j _ socket message same send
        cases same
        rw [sent socket message send]
        exact ⟨current,apart.socket (fun none => taken (.inl none)) (fun wrong => taken (.inr wrong))⟩
      · intro j _ d same read
        cases same
        obtain ⟨works,rfl⟩ := got d read
        exact congrArg Nat.cast (apart.pipes k thread here works).2
      · intro j _ d text same write
        cases same
        obtain ⟨at_,rfl⟩ := put d text write
        refine ⟨congrArg Nat.cast (apart.pipes k thread here (by rw [at_]; rfl)).1,?_⟩
        exact (apart.writing thread mem at_).trans current.symm

def Apart (s : Server State × (Nat → Sessions)) : Prop :=
  ∀ i, SlotApart (s.1.slots i) (s.2 i) (s.1.listener = .invalid i)

def SessionsIsolated (s : Server State × (Nat → Sessions)) (l : ServerLabel Event) (call : Call) : Prop :=
  ∀ i label, l.onSlot s.1 = some (i,label) → Isolated (s.1.slots i) (s.2 i) label call

theorem apartFrame {s memo invalid invalid'} (apart : SlotApart s memo invalid) (still : invalid' → invalid) :
    SlotApart s memo invalid' :=
  {apart with failed := fun wrong => apart.failed (still wrong)}

theorem apartOnSlot {s next : Server State} {memo l i label call} (apart : Apart (s,memo))
    (step : ServerStep host maxClients os s l call next) (on : l.onSlot s = some (i,label))
    (still : ∀ j, j ≠ i → next.listener = .invalid j → s.listener = .invalid j)
    (acting : SlotApart (next.slots i) (noteSlot (memo i) (s.slots i) label call) (next.listener = .invalid i) ∧
      Isolated (s.slots i) (memo i) label call) :
    Apart (next,noteSessions memo s l call next) ∧ SessionsIsolated (s,memo) l call := by
  obtain ⟨_,others⟩ := slotOfServer step on
  simp only [noteSessions,on]
  refine ⟨fun j => ?_,fun j other found => ?_⟩
  · by_cases here : j = i
    · subst here
      simpa only [Function.update_self] using acting.1
    · simp only [Function.update_of_ne here,others j here]
      exact apartFrame (apart j) (still j here)
  · cases Option.some.inj (on.symm.trans found)
    exact acting.2

theorem apartStep {s s' : Server State × (Nat → Sessions)} {l : ServerLabel Event} {call} (apart : Apart s)
    (ok : Vacates s l) (h : (watch (serverMachine host maxClients os) noteSessions).act s l = some (call,s')) :
    Apart s' ∧ SessionsIsolated s l call := by
  obtain ⟨act,noted⟩ := watchAct h
  have step := serverStep act
  obtain ⟨s,memo⟩ := s
  obtain ⟨next,memo'⟩ := s'
  obtain rfl : memo' = noteSessions memo s l call next := noted
  have alone : StartsAlone s l := by
    cases l with
    | start => exact ok.1
    | _ => trivial
  have locked := serverLock (fun i => (apart i).lock) alone step
  cases l with
  | system e =>
    cases step
    exact ⟨apart,by simp [SessionsIsolated,ServerLabel.onSlot]⟩
  | listen r =>
    have lock := locked s.listener.slot
    have whole := step
    cases step with
    | @listen _ _ pc slot current system step handled =>
      have invalidHere (j : Nat) (wrong : pc = .invalid j) : j = s.listener.slot := by
        generalize s.listener = here at step
        cases step <;> simp_all [SocketListen.Pc.slot]
      refine apartOnSlot apart whole rfl (fun j other wrong => (other (invalidHere j wrong)).elim) ?_
      simp only [Function.update_self] at lock ⊢
      refine apartListen (apartFrame (apart _) ?_) ok step lock fun wrong => ⟨_,wrong⟩
      rintro ⟨j,wrong⟩
      rw [wrong]
      rfl
  | start =>
    have lock := locked s.current
    have whole := step
    cases step with
    | start waiting =>
      refine apartOnSlot apart whole rfl (fun _ _ => id) ?_
      simp only [Function.update_self] at lock ⊢
      exact apartStart (apart _) alone ok.2.1 ok.2.2 lock
  | client i t r =>
    have lock := locked i
    have whole := step
    cases step with
    | client step handled =>
      refine apartOnSlot apart whole rfl (fun _ _ => id) ?_
      simp only [Function.update_self] at lock ⊢
      exact apartClient (apart i) ok step lock
  | console i k r =>
    have lock := locked i
    have whole := step
    cases step with
    | console step handled =>
      refine apartOnSlot apart whole rfl (fun _ _ => id) ?_
      simp only [Function.update_self] at lock ⊢
      have silent : noteSlot (memo i) (s.slots i) (.console k r) call = memo i := by cases call <;> rfl
      rw [silent]
      exact apartConsole (apart i) step lock

theorem sessionsIsolated {s : Server State} {t u : Server State × (Nat → Sessions)} {l : ServerLabel Event} {call}
    (unstarted : Unstarted s) (clear : ∀ i, (s.slots i).slot.console.pipeActive = false ∧
      (s.slots i).slot.console.hasNextCommand = false)
    (run : Reaches (watch (serverMachine host maxClients os) noteSessions) Vacates (s,fun _ => noSessions) t)
    (ok : Vacates t l) (act : (watch (serverMachine host maxClients os) noteSessions).act t l = some (call,u)) :
    SessionsIsolated t l call := by
  have start : Apart (s,fun _ => noSessions) := by
    intro i
    have none := unstarted.threads i
    have vacant : (s.slots i).vacated := ⟨(clear i).1,(clear i).2,by simp [none.consoles]⟩
    refine ⟨noThreadsLock none,by simp [unstarted.listener],by simp [none.clients],fun _ => vacant,?_,?_,?_,?_,?_⟩
    · simp [none.consoles]
    · exact fun taken => (taken (unstarted.clients i)).elim
    · simp [(clear i).2,SlotState.flagging,none.clients]
    · simp [none.consoles]
    · simp [none.consoles]
  have now := invariantOfStep (fun apart ok act => (apartStep apart ok act).1) run start
  exact (apartStep now ok act).2

def firstCat : List (ServerLabel Empty) :=
  [.listen .done] ++ accepts 4 ++ [.start] ++
    ([SlotLabel.client 0 (.path (ascii "/"))] ++ launches 0 0 "Mcat" ++ consoleStarts 0 100).map (SlotLabel.onServer 0)

def catThenNext : List (ServerLabel Empty) :=
  firstCat ++ (consoleReturns 0 100 ++ disconnects 0).map (SlotLabel.onServer 0) ++ comesRound

theorem nextSessionIsolated : ∃ t u,
    run (watch (serverMachine plainHost 19 noSystem) noteSessions) Vacates (booted (),fun _ => noSessions)
      catThenNext = some t ∧
    (watch (serverMachine plainHost 19 noSystem) noteSessions).act t (.listen (.descriptor 4)) = some (.accept,u) ∧
    SessionsIsolated t (.listen (.descriptor 4) : ServerLabel Empty) .accept := by
  have ends : ((run (watch (serverMachine plainHost 19 noSystem) noteSessions) Vacates (booted (),fun _ => noSessions)
      catThenNext).bind fun t => ((watch (serverMachine plainHost 19 noSystem) noteSessions).act t
        (.listen (.descriptor 4))).map Prod.fst) = some .accept := by decide +kernel
  obtain ⟨t,ran,last⟩ := Option.bind_eq_some_iff.mp ends
  obtain ⟨⟨call,u⟩,act,rfl⟩ := Option.map_eq_some_iff.mp last
  refine ⟨t,u,ran,act,?_⟩
  exact sessionsIsolated (bootedUnstarted ()) (fun _ => ⟨rfl,rfl⟩) (runReaches ran) (by simp [Vacates]) act

def leavesCatRunning : List (ServerLabel Empty) :=
  firstCat ++ (disconnects 0).map (SlotLabel.onServer 0) ++ comesRound ++ accepts 4 ++ [.start,.console 0 0 (.output (ascii "text"))]

theorem oldOutputReachesNextSession : ∃ t u,
    Reaches (watch (serverMachine plainHost 19 noSystem) noteSessions) free (booted (),fun _ => noSessions) t ∧
    (watch (serverMachine plainHost 19 noSystem) noteSessions).act t (.console 0 0 .done) =
      some (.send 4 (.frame (ascii "text")),u) ∧
    (t.1.slots 0).slot.console.pipeActive = true ∧ (t.2 0).startedIn 0 = 1 ∧ (t.2 0).session = 2 ∧
    ¬ SessionsIsolated t (.console 0 0 .done : ServerLabel Empty) (.send 4 (.frame (ascii "text"))) := by
  have ends : ((run (watch (serverMachine plainHost 19 noSystem) noteSessions) free (booted (),fun _ => noSessions)
      leavesCatRunning).bind fun t => ((watch (serverMachine plainHost 19 noSystem) noteSessions).act t
        (.console 0 0 .done)).map fun r =>
          (r.1,(t.1.slots 0).slot.console.pipeActive,(t.2 0).startedIn 0,(t.2 0).session)) =
      some (.send 4 (.frame (ascii "text")),true,1,2) := by decide +kernel
  obtain ⟨t,ran,last⟩ := Option.bind_eq_some_iff.mp ends
  obtain ⟨⟨call,u⟩,act,same⟩ := Option.map_eq_some_iff.mp last
  simp only [Prod.mk.injEq] at same
  obtain ⟨rfl,active,old,new⟩ := same
  refine ⟨t,u,runReaches ran,act,active,old,new,fun isolated => ?_⟩
  have crossed := ((isolated 0 _ rfl).output 0 .done 4 _ rfl rfl).1
  rw [old,new] at crossed
  exact absurd crossed (by decide)

end RemoteTerminal
