import RemoteTerminal.Server.Lock
import RemoteTerminal.Library.Behaviours

/-! The end of the relay loop after a cancel. `exitCode` is looked at only when a `read`
finds nothing, so the loop stops exactly if some `read` after the cancel returns no data;
from there the thread needs finitely many steps to its exit, which the join waits for. -/
namespace RemoteTerminal
open ByteStrings LabelledRuns EntryTable

def NewConsole.Pc.inLoop : NewConsole.Pc → Bool
  | .read | .probe | .probed _ | .testExit | .relay _ | .mailbox | .write | .clearFlag | .clearText => true
  | _ => false

def NewConsole.Pc.relaying : NewConsole.Pc → Bool
  | .read | .relay _ | .mailbox | .write | .clearFlag | .clearText => true
  | _ => false

def NewConsole.Pc.stopping : NewConsole.Pc → Bool
  | .probe | .probed _ | .testExit | .kill | .killNext | .report | .finish | .clearExit | .deactivate
  | .wait | .closeAgain _ => true
  | _ => false

def NewConsole.Pc.rank : NewConsole.Pc → Nat
  | .probe => 15
  | .probed _ => 14
  | .testExit => 13
  | .kill => 12
  | .killNext => 11
  | .report => 10
  | .finish => 9
  | .clearExit => 8
  | .deactivate => 7
  | .wait => 6
  | .closeAgain n => 5-n
  | _ => 0

theorem relayingInLoop {pc : NewConsole.Pc} (relaying : pc.relaying = true) : pc.inLoop = true := by
  cases pc <;> first | rfl | nomatch relaying

theorem relayingStep {t s r call t' s'} (h : NewConsole.Steps t s r call t' s') (relaying : t.pc.relaying = true)
    (data : t.pc = .read → ∃ b, r = .output b) : t'.pc.relaying = true := by
  cases h with
  | again at_ skip | againLate at_ due => obtain ⟨b,no⟩ := data at_; nomatch no
  | ended at_ outcome =>
    obtain ⟨b,rfl⟩ := data at_
    simp at outcome
  | mail at_ | noMail at_ | write at_ | clearFlag at_ | clearText at_ | relay at_ | output at_ => rfl
  | _ at_ => rw [at_] at relaying; nomatch relaying

theorem otherRead {t s r call t' s'} (h : NewConsole.Steps t s r call t' s') (at_ : t.pc = .read)
    (other : ∀ b, r ≠ .output b) : t'.pc.stopping = true := by
  cases h with
  | again | againLate | ended => rfl
  | output => exact (other _ rfl).elim
  | _ here => nomatch at_.symm.trans here

theorem stoppingStep {t s r call t' s'} (h : NewConsole.Steps t s r call t' s') (stopping : t.pc.stopping = true)
    (cancelled : t.pc.inLoop = true → s.console.exitCode = 1) :
    t'.pc = .done ∨ t'.pc.stopping = true ∧ t'.pc.rank < t.pc.rank := by
  cases h with
  | goesOn at_ stay => exact (stay (cancelled (by rw [at_]; rfl))).elim
  | closeLast => exact .inl rfl
  | closeAgain at_ more =>
    refine .inr ⟨rfl,?_⟩
    rw [at_]
    simp only [NewConsole.Pc.rank]
    omega
  | gone at_ | probe at_ | probed at_ | cancelled at_ | kill at_ | killNext at_ | report at_ | finish at_
  | clearExit at_ | deactivate at_ | reaped at_ | noChild at_ =>
    refine .inr ⟨rfl,?_⟩
    rw [at_]
    simp [NewConsole.Pc.rank]
  | _ at_ => rw [at_] at stopping; nomatch stopping

theorem consoleFrame {host maxClients s l call s'} {k : Nat} {thread : NewConsole.Thread}
    (h : SlotStep host maxClients s l call s') (here : s.consoles[k]? = some thread)
    (other : ∀ r, l ≠ .console k r) : s'.consoles[k]? = some thread := by
  cases h with
  | listen | start | client => exact here
  | created =>
    have inside := (List.getElem?_eq_some_iff.mp here).1
    rw [pushAt,if_neg (by omega)]
    exact here
  | @console j r mover call next slot there step =>
    have differ : k ≠ j := fun same => other r (same ▸ rfl)
    rw [setAt there,if_neg differ]
    exact here

theorem consoleMoves {host maxClients s r call s'} {k : Nat} {thread : NewConsole.Thread}
    (h : SlotStep host maxClients s (.console k r) call s') (here : s.consoles[k]? = some thread) :
    ∃ next, s'.consoles[k]? = some next ∧ NewConsole.Steps thread s.slot r call next s'.slot := by
  cases h with
  | @console _ _ mover _ next slot there step =>
    cases Option.some.inj (here.symm.trans there)
    exact ⟨next,by simp [setAt there],step⟩

section
variable (host : Host) (maxClients : Nat) (trace : Nat → SlotState) (labels : Nat → Option SlotLabel) (k : Nat)

/- As long as it has not exited the thread is scheduled and its calls return. -/
def Scheduled : Prop := ∀ (n : Nat) (thread : NewConsole.Thread), (trace n).consoles[k]? = some thread →
  thread.pc ≠ .done → Eventually n fun j => ∃ r, labels j = some (.console k r)

def CancelledFrom (n : Nat) : Prop := ∀ (j : Nat) (thread : NewConsole.Thread), n ≤ j →
  (trace j).consoles[k]? = some thread → thread.pc.inLoop = true → (trace j).slot.console.exitCode = 1

def Reading (n : Nat) : Prop := ∃ thread : NewConsole.Thread, (trace n).consoles[k]? = some thread ∧ thread.pc = .read

def ReadsNoData (j : Nat) : Prop :=
  Reading trace k j ∧ ∃ r, labels j = some (.console k r) ∧ ∀ b, r ≠ .output b

def JoinCompletes (s : SlotState) : Prop := exited s.consoles (some k) = true ∧
  ∀ (t : Nat) (client : NewClient.Thread), s.clients[t]? = some client → client.pc = .join →
    client.newConsoleThread = some k →
    ∃ u, (slotMachine host maxClients).act s (.client t .done) = some (.join (some k),u)

structure Stops (n : Nat) : Prop where
  loop : Eventually n fun j => ∃ thread : NewConsole.Thread, (trace j).consoles[k]? = some thread ∧
    thread.pc.inLoop = false
  join : Eventually n fun j => JoinCompletes host maxClients k (trace j)

end

section
variable {host : Host} {maxClients : Nat} {trace : Nat → SlotState} {labels : Nat → Option SlotLabel} {k n : Nat}

theorem exitedJoins {s : SlotState} {thread : NewConsole.Thread} (here : s.consoles[k]? = some thread)
    (done : thread.pc = .done) : JoinCompletes host maxClients k s := by
  have finished : exited s.consoles (some k) = true := by simp [exited,here,done]
  refine ⟨finished,fun t client found at_ names => ?_⟩
  simp [slotMachine,found,NewClient.step,at_,names,finished]

theorem behaviourMoves (behaviour : Behaviour (slotMachine host maxClients) trace labels) {j : Nat}
    {thread : NewConsole.Thread} {r : Result} (here : (trace j).consoles[k]? = some thread)
    (moves : labels j = some (.console k r)) : ∃ call next, (trace (j+1)).consoles[k]? = some next ∧
      NewConsole.Steps thread (trace j).slot r call next (trace (j+1)).slot := by
  obtain ⟨call,act⟩ := behaviour.moves j _ moves
  obtain ⟨next,found,step⟩ := consoleMoves (slotStep act) here
  exact ⟨call,next,found,step⟩

theorem behaviourWaits (behaviour : Behaviour (slotMachine host maxClients) trace labels) {j : Nat}
    {thread : NewConsole.Thread} (here : (trace j).consoles[k]? = some thread)
    (waits : ¬ ∃ r, labels j = some (.console k r)) : (trace (j+1)).consoles[k]? = some thread := by
  cases at_ : labels j with
  | none => rw [behaviour.rests j at_]; exact here
  | some l =>
    obtain ⟨call,act⟩ := behaviour.moves j l at_
    exact consoleFrame (slotStep act) here fun r same => waits ⟨r,same ▸ at_⟩

theorem relayingOn (behaviour : Behaviour (slotMachine host maxClients) trace labels) (start : Reading trace k n)
    (data : ∀ j, n ≤ j → ¬ ReadsNoData trace labels k j) {j : Nat} (after : n ≤ j) :
    ∃ thread : NewConsole.Thread, (trace j).consoles[k]? = some thread ∧ thread.pc.relaying = true := by
  induction j, after using Nat.le_induction with
  | base =>
    obtain ⟨thread,here,at_⟩ := start
    exact ⟨thread,here,by rw [at_]; rfl⟩
  | succ j after ih =>
    obtain ⟨thread,here,relaying⟩ := ih
    by_cases moves : ∃ r, labels j = some (.console k r)
    · obtain ⟨r,moves⟩ := moves
      obtain ⟨call,next,found,step⟩ := behaviourMoves behaviour here moves
      refine ⟨next,found,relayingStep step relaying fun at_ => ?_⟩
      by_contra none
      exact data j after ⟨⟨thread,here,at_⟩,r,moves,fun b same => none ⟨b,same⟩⟩
    · exact ⟨thread,behaviourWaits behaviour here moves,relaying⟩

def rankAt (trace : Nat → SlotState) (k j : Nat) : Nat :=
  match (trace j).consoles[k]? with
  | some thread => thread.pc.rank
  | none => 0

theorem rankAtFound {j : Nat} {thread : NewConsole.Thread} (here : (trace j).consoles[k]? = some thread) :
    rankAt trace k j = thread.pc.rank := by simp [rankAt,here]

theorem stoppingExits (behaviour : Behaviour (slotMachine host maxClients) trace labels)
    (scheduled : Scheduled trace labels k) (cancelled : CancelledFrom trace k n) {j : Nat} (after : n ≤ j)
    {thread : NewConsole.Thread} (here : (trace j).consoles[k]? = some thread)
    (stopping : thread.pc.stopping = true) :
    Eventually j fun i => ∃ thread : NewConsole.Thread, (trace i).consoles[k]? = some thread ∧ thread.pc = .done := by
  refine rankLeadsTo (fun i => n ≤ i ∧ ∃ thread : NewConsole.Thread, (trace i).consoles[k]? = some thread ∧
    thread.pc.stopping = true) _ (fun i => ∃ r, labels i = some (.console k r)) (rankAt trace k) ?_ ?_ ?_
    ⟨after,thread,here,stopping⟩
  · rintro i ⟨-,thread,here,stopping⟩
    refine scheduled i thread here fun done => ?_
    rw [done] at stopping
    nomatch stopping
  · rintro i ⟨after,thread,here,stopping⟩ waits
    have still := behaviourWaits behaviour here waits
    refine .inr ⟨⟨Nat.le_succ_of_le after,thread,still,stopping⟩,?_⟩
    rw [rankAtFound still,rankAtFound here]
  · rintro i ⟨after,thread,here,stopping⟩ ⟨r,moves⟩
    obtain ⟨call,next,found,step⟩ := behaviourMoves behaviour here moves
    rcases stoppingStep step stopping (cancelled i thread after here) with done | ⟨still,less⟩
    · exact .inl ⟨next,found,done⟩
    · refine .inr ⟨⟨Nat.le_succ_of_le after,next,found,still⟩,?_⟩
      rwa [rankAtFound found,rankAtFound here]

/-- A cancelled loop stops exactly if one of its further reads returns no data. -/
theorem relayStopsIff (behaviour : Behaviour (slotMachine host maxClients) trace labels)
    (scheduled : Scheduled trace labels k) (cancelled : CancelledFrom trace k n) (start : Reading trace k n) :
    Stops host maxClients trace k n ↔ Eventually n (ReadsNoData trace labels k) := by
  constructor
  · rintro ⟨⟨j,after,thread,here,left⟩,-⟩
    by_contra none
    obtain ⟨same,found,relaying⟩ := relayingOn behaviour start (fun i later no => none ⟨i,later,no⟩) after
    cases Option.some.inj (here.symm.trans found)
    exact absurd (relayingInLoop relaying) (by simp [left])
  · rintro ⟨j,after,⟨thread,here,at_⟩,r,moves,other⟩
    obtain ⟨call,next,found,step⟩ := behaviourMoves behaviour here moves
    obtain ⟨i,later,last,there,done⟩ := stoppingExits behaviour scheduled cancelled
      (Nat.le_succ_of_le after) found (otherRead step at_ other)
    have reached : n ≤ i := by omega
    exact ⟨⟨i,reached,last,there,by rw [done]; rfl⟩,⟨i,reached,exitedJoins there done⟩⟩

end

theorem finiteScheduled {host : Host} {maxClients k : Nat} {s t : SlotState} {labels : List SlotLabel}
    (ran : run (slotMachine host maxClients) free s labels = some t)
    (mine : ∀ l ∈ labels, ∃ r, l = .console k r)
    (done : ∀ thread : NewConsole.Thread, t.consoles[k]? = some thread → thread.pc = .done) :
    Scheduled (traceOf (slotMachine host maxClients) s labels) (fun n => labels[n]?) k := by
  intro n thread here working
  by_cases before : n < labels.length
  · obtain ⟨r,same⟩ := mine labels[n] (List.getElem_mem before)
    exact ⟨n,Nat.le_refl n,r,by simp [before,same]⟩
  · rw [traceEnd ran (Nat.le_of_not_lt before)] at here
    exact (working (done thread here)).elim

def yesCancelled : List SlotLabel :=
  sessionOpens 4 (ascii "/") ++ launches 0 0 "Myes" ++ consoleStarts 0 100 ++ clientDoes 0 [heard "X",.done]

def cancelledSlot : SlotState :=
  (run (slotMachine plainHost 19) free (vacant false false) yesCancelled).getD (vacant false false)

def quietEnd : List SlotLabel := consoleDoes 0
  [.again false,.done,.done,.done,.done,.done,.done,.done,.process 100,.done,.done,.done,.done]

def endedSlot : SlotState := (run (slotMachine plainHost 19) free cancelledSlot quietEnd).getD cancelledSlot

def cancelKept (s : SlotState) : Bool :=
  match s.consoles[0]? with
  | some thread => !thread.pc.inLoop || s.slot.console.exitCode = 1
  | none => true

theorem cancelKeptAt {s : SlotState} {thread : NewConsole.Thread} (kept : cancelKept s = true)
    (here : s.consoles[0]? = some thread) (inside : thread.pc.inLoop = true) : s.slot.console.exitCode = 1 := by
  simpa [cancelKept,here,inside] using kept

theorem quietYesStops : Stops plainHost 19 (traceOf (slotMachine plainHost 19) cancelledSlot quietEnd) 0 0 := by
  have ran : run (slotMachine plainHost 19) free cancelledSlot quietEnd = some endedSlot := by decide +kernel
  have reads : cancelledSlot.consoles[0]? = some ⟨.read,0,100,true⟩ := by decide +kernel
  have exits : endedSlot.consoles[0]? = some ⟨.done,0,100,true⟩ := by decide +kernel
  refine (relayStopsIff (finiteBehaviour ran) (finiteScheduled ran ?_ ?_) ?_ ?_).mpr ?_
  · intro l mem
    obtain ⟨r,-,rfl⟩ := List.mem_map.mp mem
    exact ⟨r,rfl⟩
  · intro thread here
    cases exits.symm.trans here
    rfl
  · intro j thread _ here inside
    refine cancelKeptAt ?_ here inside
    by_cases before : j < quietEnd.length
    · have each : ∀ j < quietEnd.length,
          cancelKept (traceOf (slotMachine plainHost 19) cancelledSlot quietEnd j) = true := by decide +kernel
      exact each j before
    · rw [traceEnd ran (Nat.le_of_not_lt before)]
      decide +kernel
  · exact ⟨_,by rw [traceStart]; exact reads,rfl⟩
  · exact ⟨0,Nat.le_refl 0,⟨_,by rw [traceStart]; exact reads,rfl⟩,.again false,rfl,nofun⟩

def yesResult (r : Nat) : Result := if r = 0 then .output (ascii "y\n") else .done

def yesLabels (n : Nat) : Option SlotLabel := some (.console 0 (yesResult (n % 3)))

def yesTrace (n : Nat) : SlotState :=
  traceOf (slotMachine plainHost 19) cancelledSlot (consoleDoes 0 [yesResult 0,yesResult 1,yesResult 2]) (n % 3)

structure YesGoesOn (r : Nat) : Prop where
  inside : (yesTrace r).consoles[0]?.any (fun thread => thread.pc.inLoop) = true
  kept : cancelKept (yesTrace r) = true
  moves : ((slotMachine plainHost 19).act (yesTrace r) (.console 0 (yesResult (r % 3)))).map Prod.snd =
    some (yesTrace (r+1))

theorem yesGoesOn (n : Nat) : YesGoesOn n := by
  have each : ∀ r < 3, (yesTrace r).consoles[0]?.any (fun thread => thread.pc.inLoop) = true ∧
      cancelKept (yesTrace r) = true ∧
      ((slotMachine plainHost 19).act (yesTrace r) (.console 0 (yesResult r))).map Prod.snd =
        some (yesTrace (r+1)) := by decide +kernel
  obtain ⟨inside,kept,moves⟩ := each (n % 3) (Nat.mod_lt n (by decide))
  have same : yesTrace (n % 3) = yesTrace n := by simp only [yesTrace,Nat.mod_mod]
  have next : yesTrace (n % 3+1) = yesTrace (n+1) := by
    simp only [yesTrace]
    congr 1
    omega
  rw [same] at inside kept moves
  rw [next] at moves
  exact ⟨inside,kept,moves⟩

theorem yesNeverStops :
    run (slotMachine plainHost 19) free (vacant false false) yesCancelled = some (yesTrace 0) ∧
      Behaviour (slotMachine plainHost 19) yesTrace yesLabels ∧ Scheduled yesTrace yesLabels 0 ∧
      CancelledFrom yesTrace 0 0 ∧ Reading yesTrace 0 0 ∧ ¬ Stops plainHost 19 yesTrace 0 0 := by
  refine ⟨by decide +kernel,⟨?_,nofun⟩,?_,?_,⟨⟨.read,0,100,true⟩,by decide +kernel,rfl⟩,?_⟩
  · intro n l here
    cases here
    obtain ⟨⟨call,next⟩,act,same⟩ := Option.map_eq_some_iff.mp (yesGoesOn n).moves
    exact ⟨call,same ▸ act⟩
  · exact fun n _ _ _ => ⟨n,Nat.le_refl n,_,rfl⟩
  · exact fun j thread _ here inside => cancelKeptAt (yesGoesOn j).kept here inside
  · rintro ⟨⟨j,-,thread,here,left⟩,-⟩
    have inside := (yesGoesOn j).inside
    rw [here,Option.any_some,left] at inside
    nomatch inside

end RemoteTerminal
