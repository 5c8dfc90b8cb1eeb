import Mathlib

/-! A list as a table of entries numbered in order of arrival: what is found after one
entry is replaced and after one is added. -/
namespace EntryTable
variable {α : Type} {l : List α} {k j : Nat} {a b c : α}

theorem setAt (here : l[k]? = some a) :
    (l.set k b)[j]? = if j = k then some b else l[j]? := by
  have inside : k < l.length := (List.getElem?_eq_some_iff.mp here).1
  rw [List.getElem?_set]
  by_cases same : k = j
  · subst same; simp [inside]
  · simp [same,Ne.symm same]

theorem pushAt : (l ++ [a])[j]? = if j = l.length then some a else l[j]? := by
  rw [List.getElem?_append]
  by_cases last : j = l.length
  · subst last; simp
  · by_cases inside : j < l.length
    · simp [inside,last]
    · have gap : j-l.length ≠ 0 := by omega
      simp [inside,last,gap]

theorem setFound (here : l[k]? = some a) (found : (l.set k b)[j]? = some c) :
    (j = k ∧ c = b) ∨ (j ≠ k ∧ l[j]? = some c) := by
  rw [setAt here] at found
  split at found
  · exact .inl ⟨by assumption,(Option.some.inj found).symm⟩
  · exact .inr ⟨by assumption,found⟩

theorem pushFound (found : (l ++ [a])[j]? = some c) :
    (j = l.length ∧ c = a) ∨ (j < l.length ∧ l[j]? = some c) := by
  rw [pushAt] at found
  split at found
  · exact .inl ⟨by assumption,(Option.some.inj found).symm⟩
  · exact .inr ⟨(List.getElem?_eq_some_iff.mp found).1,found⟩

theorem pushKeeps (here : l[k]? = some a) : (l ++ [b])[k]? = some a := by
  have inside := (List.getElem?_eq_some_iff.mp here).1
  rw [pushAt,if_neg (by omega)]
  exact here

theorem memSet (here : l[k]? = some a) : c ∈ l.set k b ↔ c = b ∨ ∃ j, j ≠ k ∧ l[j]? = some c := by
  constructor
  · intro mem
    obtain ⟨j,found⟩ := List.mem_iff_getElem?.mp mem
    rcases setFound here found with ⟨_,same⟩ | ⟨other,old⟩
    · exact .inl same
    · exact .inr ⟨j,other,old⟩
  · intro cases
    rcases cases with rfl | ⟨j,other,old⟩
    · exact List.mem_iff_getElem?.mpr ⟨k,by rw [setAt here]; simp⟩
    · exact List.mem_iff_getElem?.mpr ⟨j,by rw [setAt here]; simp [other,old]⟩

theorem memOld (b : α) (here : l[k]? = some a) (mem : c ∈ l) : c = a ∨ c ∈ l.set k b := by
  obtain ⟨j,found⟩ := List.mem_iff_getElem?.mp mem
  by_cases same : j = k
  · subst same
    exact .inl (Option.some.inj (found.symm.trans here))
  · exact .inr ((memSet here).mpr (.inr ⟨j,same,found⟩))

theorem setSame (here : l[k]? = some a) : l.set k a = l := by
  refine List.ext_getElem? fun j => ?_
  rw [setAt here]
  split
  · rename_i same
    exact same ▸ here.symm
  · rfl

def tally (weight : α → Nat) (l : List α) : Nat := (l.map weight).sum

variable (weight : α → Nat)

theorem tallySet (here : l[k]? = some a) :
    tally weight (l.set k b) + weight a = tally weight l + weight b := by
  induction l generalizing k with
  | nil => simp at here
  | cons first rest ih =>
    cases k with
    | zero =>
      cases Option.some.inj here
      simp only [tally,List.set_cons_zero,List.map_cons,List.sum_cons]
      omega
    | succ k =>
      have tail := ih (k := k) (by simpa using here)
      simp only [tally,List.set_cons_succ,List.map_cons,List.sum_cons] at tail ⊢
      omega

theorem tallyPush : tally weight (l ++ [a]) = tally weight l + weight a := by
  simp [tally]

theorem tallyEntry (here : l[k]? = some a) : weight a ≤ tally weight l :=
  List.single_le_sum (fun _ _ => Nat.zero_le _) _ (List.mem_map_of_mem (List.mem_of_getElem? here))

theorem tallyTwo (here : l[k]? = some a) (there : l[j]? = some b) (differ : j ≠ k) :
    weight a + weight b ≤ tally weight l := by
  induction l generalizing k j with
  | nil => simp at here
  | cons first rest ih =>
    have split : tally weight (first::rest) = weight first + tally weight rest := by simp [tally]
    rw [split]
    cases k with
    | zero =>
      cases Option.some.inj here
      cases j with
      | zero => exact (differ rfl).elim
      | succ j =>
        have tail := tallyEntry weight (k := j) (l := rest) (by simpa using there)
        omega
    | succ k =>
      cases j with
      | zero =>
        cases Option.some.inj there
        have tail := tallyEntry weight (k := k) (l := rest) (by simpa using here)
        omega
      | succ j =>
        have tail := ih (k := k) (j := j) (by simpa using here) (by simpa using there) (by omega)
        omega

/- Where there is room for one, the others count for nothing. -/
theorem tallyOthers (one : tally weight l ≤ 1) (here : l[k]? = some a) (heavy : weight a = 1)
    (mem : c ∈ l.set k b) : c = b ∨ weight c = 0 := by
  rcases (memSet here).mp mem with same | ⟨j,differ,there⟩
  · exact .inl same
  · have both := tallyTwo weight here there differ
    exact .inr (by omega)

theorem tallyZero : tally weight l = 0 ↔ ∀ a ∈ l, weight a = 0 := by
  simp [tally,List.sum_eq_zero_iff]

end EntryTable
