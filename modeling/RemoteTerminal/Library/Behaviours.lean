import RemoteTerminal.Library.Runs

/-! Infinite behaviours of a machine: at each moment it takes a step or rests. A rank that
never grows and falls at certain moments, which come as often as they are needed, is used
up after finitely many of them. -/
namespace LabelledRuns

variable {State Label Seen : Type}

structure Behaviour (m : Machine State Label Seen) (trace : Nat → State) (labels : Nat → Option Label) : Prop where
  moves : ∀ n l, labels n = some l → ∃ seen, m.act (trace n) l = some (seen,trace (n+1))
  rests : ∀ n, labels n = none → trace (n+1) = trace n

def Eventually (n : Nat) (P : Nat → Prop) : Prop := ∃ k, n ≤ k ∧ P k

theorem eventuallyLater {n k : Nat} {P : Nat → Prop} (later : n ≤ k) (h : Eventually k P) : Eventually n P := by
  obtain ⟨j,after,holds⟩ := h
  exact ⟨j,later.trans after,holds⟩

section
variable (P Q mine : Nat → Prop) (rank : Nat → Nat)

theorem rankFalls (waits : ∀ n, P n → ¬ mine n → Q (n+1) ∨ P (n+1) ∧ rank (n+1) ≤ rank n)
    (falls : ∀ n, P n → mine n → Q (n+1) ∨ P (n+1) ∧ rank (n+1) < rank n) {n d : Nat}
    (start : P n) (next : mine (n+d)) :
    Eventually n Q ∨ ∃ k, n ≤ k ∧ P k ∧ rank k < rank n := by
  induction d generalizing n with
  | zero =>
    rcases falls n start next with goal | ⟨still,less⟩
    · exact .inl ⟨n+1,by omega,goal⟩
    · exact .inr ⟨n+1,by omega,still,less⟩
  | succ d ih =>
    by_cases now : mine n
    · rcases falls n start now with goal | ⟨still,less⟩
      · exact .inl ⟨n+1,by omega,goal⟩
      · exact .inr ⟨n+1,by omega,still,less⟩
    · rcases waits n start now with goal | ⟨still,most⟩
      · exact .inl ⟨n+1,by omega,goal⟩
      · have shifted : mine (n+1+d) := by rwa [Nat.add_right_comm]
        rcases ih still shifted with goal | ⟨k,after,holds,less⟩
        · exact .inl (eventuallyLater (Nat.le_succ n) goal)
        · exact .inr ⟨k,by omega,holds,by omega⟩

theorem rankLeadsTo (fair : ∀ n, P n → Eventually n mine)
    (waits : ∀ n, P n → ¬ mine n → Q (n+1) ∨ P (n+1) ∧ rank (n+1) ≤ rank n)
    (falls : ∀ n, P n → mine n → Q (n+1) ∨ P (n+1) ∧ rank (n+1) < rank n) {n : Nat} (start : P n) :
    Eventually n Q := by
  induction bound : rank n using Nat.strongRecOn generalizing n with
  | ind r ih =>
    obtain ⟨k,after,next⟩ := fair n start
    obtain ⟨d,rfl⟩ := Nat.exists_eq_add_of_le after
    rcases rankFalls P Q mine rank waits falls start next with goal | ⟨j,later,holds,less⟩
    · exact goal
    · exact eventuallyLater later (ih (rank j) (bound ▸ less) holds rfl)

end

def traceOf (m : Machine State Label Seen) : State → List Label → Nat → State
  | s,l::rest,n+1 =>
    match m.act s l with
    | some (_,t) => traceOf m t rest n
    | none => s
  | s,_,_ => s

theorem traceStart {m : Machine State Label Seen} (s : State) (labels : List Label) : traceOf m s labels 0 = s := by
  cases labels <;> rfl

theorem runCons {m : Machine State Label Seen} {s t : State} {l : Label} {rest : List Label}
    (ran : run m free s (l::rest) = some t) :
    ∃ seen u, m.act s l = some (seen,u) ∧ run m free u rest = some t := by
  rw [run,if_pos (show free s l from trivial)] at ran
  split at ran <;> try contradiction
  exact ⟨_,_,by assumption,ran⟩

theorem traceEnd {m : Machine State Label Seen} {s t : State} {labels : List Label} {n : Nat}
    (ran : run m free s labels = some t) (after : labels.length ≤ n) : traceOf m s labels n = t := by
  induction labels generalizing s n with
  | nil => cases ran; rfl
  | cons l rest ih =>
    obtain ⟨seen,u,act,ran⟩ := runCons ran
    obtain ⟨n,rfl⟩ := Nat.exists_eq_add_of_le' (Nat.le_trans (Nat.le_add_left 1 _) after)
    simp only [traceOf,act]
    exact ih ran (Nat.le_of_succ_le_succ after)

theorem finiteBehaviour {m : Machine State Label Seen} {s t : State} {labels : List Label}
    (ran : run m free s labels = some t) : Behaviour m (traceOf m s labels) (fun n => labels[n]?) := by
  induction labels generalizing s with
  | nil => exact ⟨nofun,fun _ _ => rfl⟩
  | cons l rest ih =>
    obtain ⟨seen,u,act,ran⟩ := runCons ran
    have tail := ih ran
    constructor
    · intro n l' here
      cases n with
      | zero =>
        cases here
        exact ⟨seen,by simp [traceOf,act,traceStart]⟩
      | succ n => simpa [traceOf,act] using tail.moves n l' here
    · intro n none
      cases n with
      | zero => nomatch none
      | succ n => simpa [traceOf,act] using tail.rests n none

end LabelledRuns
