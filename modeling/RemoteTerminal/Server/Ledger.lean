import RemoteTerminal.Server.Cancel
import RemoteTerminal.Server.Launching
import RemoteTerminal.Server.Transmission

/-! The account of one slot: what became of every 'M' message its threads have read. The
threads of all its sessions write to the same account, in whatever order they take turns. -/
namespace RemoteTerminal
open ByteStrings LabelledRuns EntryTable

/- `answered` and `closed` count the end codes of `NewClient` and of `HandleClientPipe`.
`dropped`: read while `exitCode` was set, left for the process that runs, or given up for
want of a pipe. -/
structure Ledger where
  read : Nat
  dropped : Nat
  answered : Nat
  closed : Nat
  forked : Nat
  deriving DecidableEq, Repr

def noLedger : Ledger := ⟨0,0,0,0,0⟩

def NewClient.Pc.handling : NewClient.Pc → Nat
  | .start | .enter | .receive | .deposit _ | .flag | .cancel | .join | .leave | .closeSocket
  | .freeSlot | .exit | .done => 0
  | _ => 1

def NewConsole.Pc.unended : NewConsole.Pc → Nat
  | .clearExit | .deactivate | .wait | .closeAgain _ | .done => 0
  | _ => 1

def NewConsole.Pc.unforked : NewConsole.Pc → Nat
  | .prompt | .returnDirectory | .assemble | .fork _ => 1
  | _ => 0

def drops (d : ThreadData) (pc : NewClient.Pc) (r : Result) : Bool :=
  match pc with
  | .message _ => d.exitCode ≠ 0
  | .route _ => d.pipeActive
  | .openOutput | .openInput => r = .failed
  | _ => false

def Call.forks : Call → Nat
  | .fork _ => 1
  | _ => 0

def noteLedger (memo : Ledger) (s : SlotState) (l : SlotLabel) (call : Call) (_ : SlotState) : Ledger :=
  match l with
  | .client t r => match s.clients[t]? with
    | some thread => {memo with
        read := memo.read + (readsMessage r).toNat
        dropped := memo.dropped + (drops s.slot.console thread.pc r).toNat
        answered := memo.answered + call.ends}
    | none => memo
  | .console _ _ => {memo with closed := memo.closed + call.ends,forked := memo.forked + call.forks}
  | _ => memo

def handled (s : SlotState) : Nat := tally (fun t : NewClient.Thread => t.pc.handling) s.clients
def unended (s : SlotState) : Nat := tally (fun c : NewConsole.Thread => c.pc.unended) s.consoles
def unforked (s : SlotState) : Nat := tally (fun c : NewConsole.Thread => c.pc.unforked) s.consoles

structure Accounted (s : SlotState × Ledger) : Prop where
  messages : s.2.read = s.2.dropped + s.2.answered + s.1.consoles.length + handled s.1
  responses : s.1.consoles.length = s.2.closed + unended s.1
  processes : s.1.consoles.length = s.2.forked + unforked s.1

theorem clientAccount {host t s r call t' s'} (h : NewClient.Steps host t s r call t' s')
    (noThread : ∀ k, r ≠ .thread k) : (readsMessage r).toNat + t.pc.handling =
      (drops s.console t.pc r).toNat + call.ends + t'.pc.handling := by
  cases h with
  | readEnd at_ ends =>
    rcases ends with none | closes | rejected <;>
      simp_all [drops,readsMessage,NewClient.Pc.handling,Call.ends]
  | returnDirectory at_ outcome =>
    rcases outcome with rfl | rfl <;> simp_all [drops,readsMessage,NewClient.Pc.handling,Call.ends]
  | _ => simp_all [drops,readsMessage,NewClient.Pc.handling,Call.ends]

theorem consoleAccount {t s r call t' s'} (h : NewConsole.Steps t s r call t' s') :
    t.pc.unended = call.ends + t'.pc.unended ∧ t.pc.unforked = call.forks + t'.pc.unforked := by
  cases h <;> simp_all [NewConsole.Pc.unended,NewConsole.Pc.unforked,Call.ends,Call.forks]

section
variable {host : Host} {s : SlotState} {memo : Ledger}

theorem accountedStart (i : Nat) (accounted : Accounted (s,memo)) :
    Accounted ({s with clients := s.clients ++ [NewClient.started i]},memo) := by
  obtain ⟨messages,responses,processes⟩ := accounted
  have same := tallyPush (l := s.clients) (a := NewClient.started i) fun t => t.pc.handling
  have none : (NewClient.started i).pc.handling = 0 := rfl
  refine ⟨?_,responses,processes⟩
  simp only [handled] at messages ⊢
  omega

theorem accountedClient {t : Nat} {thread next : NewClient.Thread} {r call} {slot : Slot} {s' : SlotState}
    (accounted : Accounted (s,memo)) (here : s.clients[t]? = some thread)
    (step : NewClient.Steps host thread s.slot r call next slot) (noThread : ∀ k, r ≠ .thread k) :
    Accounted (⟨slot,s.clients.set t next,s.consoles⟩,noteLedger memo s (.client t r) call s') := by
  obtain ⟨messages,responses,processes⟩ := accounted
  have account := clientAccount step noThread
  have after := tallySet (b := next) (fun t => t.pc.handling) here
  simp only [noteLedger,here]
  refine ⟨?_,responses,processes⟩
  simp only [handled] at messages ⊢
  omega

theorem accountedCreated {t : Nat} {thread next : NewClient.Thread} {slot : Slot}
    {s' : SlotState} (accounted : Accounted (s,memo))
    (here : s.clients[t]? = some thread) (at_ : thread.pc = .create) (then_ : next.pc = .receive) :
    Accounted (⟨slot,s.clients.set t next,s.consoles ++ [NewConsole.created thread.socketID]⟩,
      noteLedger memo s (.client t (.thread s.consoles.length)) .createConsole s') := by
  obtain ⟨messages,responses,processes⟩ := accounted
  have before : thread.pc.handling = 1 := by rw [at_]; rfl
  have after : next.pc.handling = 0 := by rw [then_]; rfl
  have moved := tallySet (b := next) (fun t => t.pc.handling) here
  have drop : drops s.slot.console thread.pc (.thread s.consoles.length) = false := by rw [at_]; rfl
  have closing := tallyPush (l := s.consoles) (a := NewConsole.created thread.socketID) fun c => c.pc.unended
  have forking := tallyPush (l := s.consoles) (a := NewConsole.created thread.socketID) fun c => c.pc.unforked
  have one : (NewConsole.created thread.socketID).pc.unended = 1 ∧
      (NewConsole.created thread.socketID).pc.unforked = 1 := ⟨rfl,rfl⟩
  simp only [noteLedger,here,drop,readsMessage,Call.ends]
  refine ⟨?_,?_,?_⟩
  · simp only [handled,List.length_append,List.length_singleton,Bool.toNat_false] at messages ⊢
    omega
  · simp only [unended,List.length_append,List.length_singleton] at responses ⊢
    omega
  · simp only [unforked,List.length_append,List.length_singleton] at processes ⊢
    omega

theorem accountedConsole {k : Nat} {thread next : NewConsole.Thread} {r call} {slot : Slot} {s' : SlotState}
    (accounted : Accounted (s,memo)) (here : s.consoles[k]? = some thread)
    (step : NewConsole.Steps thread s.slot r call next slot) :
    Accounted (⟨slot,s.clients,s.consoles.set k next⟩,noteLedger memo s (.console k r) call s') := by
  obtain ⟨messages,responses,processes⟩ := accounted
  obtain ⟨closes,forks⟩ := consoleAccount step
  have closing := tallySet (b := next) (fun c => c.pc.unended) here
  have forking := tallySet (b := next) (fun c => c.pc.unforked) here
  simp only [noteLedger]
  refine ⟨?_,?_,?_⟩
  · simp only [handled,List.length_set] at messages ⊢
    exact messages
  · simp only [unended,List.length_set] at responses ⊢
    omega
  · simp only [unforked,List.length_set] at processes ⊢
    omega

end

theorem accountedStep {host maxClients l call} {s t : SlotState × Ledger} (accounted : Accounted s)
    (noted : (watch (slotMachine host maxClients) noteLedger).act s l = some (call,t)) : Accounted t := by
  obtain ⟨act,note⟩ := watchAct noted
  obtain ⟨s,memo⟩ := s
  obtain ⟨s',memo'⟩ := t
  dsimp only at act note
  subst note
  cases slotStep act with
  | listen step => exact ⟨accounted.messages,accounted.responses,accounted.processes⟩
  | @start i => exact accountedStart i accounted
  | client here step noThread joined => exact accountedClient accounted here step noThread
  | created here at_ => exact accountedCreated accounted here at_ rfl
  | console here step => exact accountedConsole accounted here step

theorem noThreadsAccounted {s : SlotState} (none : NoThreads s) : Accounted (s,noLedger) := by
  constructor <;> simp [noLedger,handled,unended,unforked,tally,none.clients,none.consoles]

/- Of counts, not of single messages: an end code does not say which message it is for. -/
structure AnsweredOnce (s : SlotState × Ledger) : Prop where
  ends : s.2.dropped + s.2.answered + s.2.closed ≤ s.2.read
  forks : s.2.dropped + s.2.answered + s.2.forked ≤ s.2.read
  settled : (∀ thread ∈ s.1.clients, thread.pc.handling = 0) → (∀ console ∈ s.1.consoles, console.pc.unended = 0) →
    s.2.read = s.2.dropped + s.2.answered + s.2.closed ∧ s.2.forked = s.2.closed

theorem endedForked {pc : NewConsole.Pc} (closed : pc.unended = 0) : pc.unforked = 0 := by
  cases pc <;> simp_all [NewConsole.Pc.unended,NewConsole.Pc.unforked]

theorem accountedOnce {s : SlotState × Ledger} (accounted : Accounted s) : AnsweredOnce s := by
  obtain ⟨messages,responses,processes⟩ := accounted
  refine ⟨by omega,by omega,fun clients consoles => ?_⟩
  have handledNone : handled s.1 = 0 := (tallyZero _).mpr clients
  have unendedNone : unended s.1 = 0 := (tallyZero _).mpr consoles
  have unforkedNone : unforked s.1 = 0 :=
    (tallyZero _).mpr fun console mem => endedForked (consoles console mem)
  omega

def catThenRoot : List SlotLabel :=
  launches 0 0 "Mcat" ++ consoleStarts 0 100 ++ clientDoes 0 [heard "Mhello",.done,.done,.done,.done] ++
    consoleReturns 0 100 ++ clientDoes 0 [heard "Mcd /",.done,.done,.path (ascii "/"),.done,.done,.done,.done]

end RemoteTerminal
