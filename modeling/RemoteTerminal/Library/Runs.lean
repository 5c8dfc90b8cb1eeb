import Mathlib

/-! Machines whose steps are chosen by labels. A step shows what it did; a run is
any finite sequence of steps that all meet a condition on the state before them. -/
namespace LabelledRuns

structure Machine (State Label Seen : Type) where
  act : State → Label → Option (Seen × State)

variable {State Label Seen Memo : Type} (m : Machine State Label Seen)

inductive Reaches (allowed : State → Label → Prop) (s : State) : State → Prop where
  | refl : Reaches allowed s s
  | step {t l seen u} (before : Reaches allowed s t) (ok : allowed t l)
      (act : m.act t l = some (seen,u)) : Reaches allowed s u

def free (_ : State) (_ : Label) : Prop := True
instance (s : State) (l : Label) : Decidable (free s l) := inferInstanceAs (Decidable True)

variable {m} {allowed : State → Label → Prop} {s t u : State}

theorem invariantOfStep {I : State → Prop}
    (keeps : ∀ {t l seen u}, I t → allowed t l → m.act t l = some (seen,u) → I u)
    (run : Reaches m allowed s t) (start : I s) : I t := by
  induction run with
  | refl => exact start
  | step before ok act ih => exact keeps ih ok act

theorem reachesTrans (first : Reaches m allowed s t) (second : Reaches m allowed t u) :
    Reaches m allowed s u := by
  induction second with
  | refl => exact first
  | step before ok act ih => exact .step ih ok act

theorem reachesWeaken {allowed' : State → Label → Prop} (weaker : ∀ {t l}, allowed t l → allowed' t l)
    (run : Reaches m allowed s t) : Reaches m allowed' s t := by
  induction run with
  | refl => exact .refl
  | step before ok act ih => exact .step ih (weaker ok) act

/-- Executes labels in order; `none` when a step is not possible or not allowed. -/
def run (m : Machine State Label Seen) (allowed : State → Label → Prop)
    [∀ s l, Decidable (allowed s l)] : State → List Label → Option State
  | s,[] => some s
  | s,l::rest => if allowed s l then
      match m.act s l with
      | some (_,t) => run m allowed t rest
      | none => none
    else none

theorem runReaches [∀ s l, Decidable (allowed s l)] {labels : List Label}
    (ok : run m allowed s labels = some t) : Reaches m allowed s t := by
  induction labels generalizing s with
  | nil => simp only [run,Option.some.injEq] at ok; subst ok; exact .refl
  | cons l rest ih =>
    simp only [run] at ok
    split at ok <;> try contradiction
    rename_i meets
    split at ok <;> try contradiction
    rename_i seen next act
    exact reachesTrans (.step .refl meets act) (ih ok)

theorem reachesProject {State' Label' Seen' : Type} {m' : Machine State' Label' Seen'}
    {allowed' : State' → Label' → Prop} (f : State → State')
    (project : ∀ {t l seen u}, allowed t l → m.act t l = some (seen,u) → f u = f t ∨
      ∃ l' seen', allowed' (f t) l' ∧ m'.act (f t) l' = some (seen',f u))
    (run : Reaches m allowed s t) : Reaches m' allowed' (f s) (f t) := by
  induction run with
  | refl => exact .refl
  | step before ok act ih =>
    rcases project ok act with same | ⟨l',seen',ok',act'⟩
    · exact same ▸ ih
    · exact .step ih ok' act'

theorem runOrRefused {asked : State → Label → Prop} (allowed : State → Label → Prop)
    [∀ s l, Decidable (asked s l)] [∀ s l, Decidable (allowed s l)] {labels : List Label}
    (ran : run m asked s labels = some t) : run m allowed s labels = some t ∨
      ∃ u l seen v, Reaches m allowed s u ∧ ¬ allowed u l ∧ asked u l ∧ m.act u l = some (seen,v) ∧
        Reaches m asked v t := by
  induction labels generalizing s with
  | nil => exact .inl ran
  | cons l rest ih =>
    rw [run] at ran
    split at ran <;> try contradiction
    rename_i ok
    split at ran <;> try contradiction
    rename_i seen next act
    by_cases meets : allowed s l
    · rcases ih ran with done | ⟨u,l',seen',v,before,refused,ok',act',after⟩
      · exact .inl (by simp only [run,if_pos meets,act,done])
      · exact .inr ⟨u,l',seen',v,reachesTrans (.step .refl meets act) before,refused,ok',act',after⟩
    · exact .inr ⟨s,l,seen,next,.refl,meets,ok,act,runReaches ran⟩

theorem keepsEvery {step : State → Label → Option State} {I : State → Prop}
    (keeps : ∀ {s} l, I s → ∃ t, step s l = some t ∧ I t) (labels : List Label) (start : I s) :
    ∃ t, labels.foldlM step s = some t ∧ I t := by
  induction labels generalizing s with
  | nil => exact ⟨s,rfl,start⟩
  | cons l rest ih =>
    obtain ⟨next,taken,kept⟩ := keeps l start
    obtain ⟨last,ran,after⟩ := ih kept
    exact ⟨last,by rw [List.foldlM_cons,taken]; exact ran,after⟩

def HoldsAlong (m : Machine State Label Seen) (holds : State → Prop) : State → List Label → Prop
  | s,[] => holds s
  | s,l::rest => holds s ∧ ∀ seen t, m.act s l = some (seen,t) → HoldsAlong m holds t rest

def MeetsAlong (m : Machine State Label Seen) (allowed : State → Label → Prop) : State → List Label → Prop
  | _,[] => True
  | s,l::rest => ∀ seen t, m.act s l = some (seen,t) → allowed s l ∧ MeetsAlong m allowed t rest

theorem runMeets [∀ s l, Decidable (allowed s l)] {labels : List Label}
    (ran : run m allowed s labels = some t) : MeetsAlong m allowed s labels := by
  induction labels generalizing s with
  | nil => trivial
  | cons l rest ih =>
    simp only [run] at ran
    split at ran <;> try contradiction
    rename_i meets
    split at ran <;> try contradiction
    rename_i seen next act
    intro seen' next' act'
    cases Option.some.inj (act.symm.trans act')
    exact ⟨meets,ih ran⟩

theorem holdsAlongIff {shape holds : State → Prop} {fits : Label → Prop}
    (exact_ : ∀ {s l seen t}, shape s → holds s → fits l → m.act s l = some (seen,t) →
      shape t ∧ (holds t ↔ allowed s l))
    {labels : List Label} (fit : ∀ l ∈ labels, fits l) (shaped : shape s) (start : holds s) :
    HoldsAlong m holds s labels ↔ MeetsAlong m allowed s labels := by
  induction labels generalizing s with
  | nil => exact iff_of_true start trivial
  | cons l rest ih =>
    have later : ∀ seen t, m.act s l = some (seen,t) →
        (HoldsAlong m holds t rest ↔ allowed s l ∧ MeetsAlong m allowed t rest) := by
      intro seen t act
      obtain ⟨shaped',right⟩ := exact_ shaped start (fit l List.mem_cons_self) act
      have others := @ih t (fun l mem => fit l (List.mem_cons_of_mem _ mem)) shaped'
      constructor
      · intro along
        have now : holds t := by
          cases rest with
          | nil => exact along
          | cons _ _ => exact along.1
        exact ⟨right.mp now,(others now).mp along⟩
      · rintro ⟨ok,meets⟩
        exact (others (right.mpr ok)).mpr meets
    constructor
    · exact fun along seen t act => (later seen t act).mp (along.2 seen t act)
    · exact fun meets => ⟨start,fun seen t act => (later seen t act).mpr (meets seen t act)⟩

theorem runsEvery {I : State → Prop} (keeps : ∀ {s} l, I s → ∃ seen t, m.act s l = some (seen,t) ∧ I t)
    (labels : List Label) (start : I s) : ∃ t, run m free s labels = some t ∧ I t := by
  induction labels generalizing s with
  | nil => exact ⟨s,rfl,start⟩
  | cons l rest ih =>
    obtain ⟨seen,next,taken,kept⟩ := keeps l start
    obtain ⟨last,ran,after⟩ := ih kept
    exact ⟨last,by rw [run,if_pos (show free s l from trivial),taken]; exact ran,after⟩

/-- The machine with a memo beside its state that never influences a step. -/
def watch (m : Machine State Label Seen) (note : Memo → State → Label → Seen → State → Memo) :
    Machine (State × Memo) Label Seen where
  act s l := (m.act s.1 l).map fun r => (r.1,r.2,note s.2 s.1 l r.1 r.2)

variable {note : Memo → State → Label → Seen → State → Memo}

theorem watchAct {s t : State × Memo} {l : Label} {seen : Seen}
    (h : (watch m note).act s l = some (seen,t)) :
    m.act s.1 l = some (seen,t.1) ∧ t.2 = note s.2 s.1 l seen t.1 := by
  obtain ⟨r,hr,same⟩ := Option.map_eq_some_iff.mp h
  cases same
  exact ⟨hr,rfl⟩

end LabelledRuns
