import Mathlib

/-! A list that is edited at a selected entry. After a deletion the entry before it is
selected, or the first; where the last entry was deleted, the next that is appended. -/

structure ListEditor (α : Type) where
  entries : List α
  position : Option Nat
  inRange : ∀ i ∈ position, i < entries.length ∨ entries = [] ∧ i = 0

namespace ListEditor
variable {α : Type} (e : ListEditor α) {i : Nat}

def selected : Option Nat := e.position.filter fun i => i < e.entries.length

def opened (entries : List α) : ListEditor α where
  entries := entries
  position := if entries = [] then none else some 0
  inRange := by
    rintro i mem
    split at mem
    · nomatch mem
    · rename_i some
      cases mem
      exact .inl (List.length_pos_iff.mpr some)

def append (a : α) : ListEditor α where
  entries := e.entries ++ [a]
  position := e.position
  inRange := by
    rintro i mem
    rw [List.length_append]
    rcases e.inRange i mem with inside | ⟨-,rfl⟩
    · exact .inl (by omega)
    · exact .inl (Nat.succ_pos _)

def select (i : Nat) : ListEditor α :=
  if inside : i < e.entries.length then
    {e with position := some i,inRange := fun _ mem => .inl (Option.some.inj mem ▸ inside)}
  else e

def deleteAt (i : Nat) (inside : i < e.entries.length) : ListEditor α where
  entries := e.entries.eraseIdx i
  position := some (i-1)
  inRange := by
    rintro j mem
    cases mem
    have size := List.length_eraseIdx_of_lt inside
    by_cases last : e.entries.length = 1
    · exact .inr ⟨List.length_eq_zero_iff.mp (by omega),by omega⟩
    · exact .inl (by omega)

def replaceAt (i : Nat) (f : α → α) : ListEditor α where
  entries := e.entries.modify i f
  position := e.position
  inRange := by
    intro j mem
    rw [List.length_modify]
    rcases e.inRange j mem with inside | ⟨none,rfl⟩
    · exact .inl inside
    · exact .inr ⟨by simp [none],rfl⟩

theorem selectedIff : e.selected = some i ↔ e.position = some i ∧ i < e.entries.length := by
  simp [selected,Option.filter_eq_some_iff]

def delete : ListEditor α :=
  match shown : e.selected with
  | none => e
  | some i => e.deleteAt i (e.selectedIff.mp shown).2

def replace (f : α → α) : ListEditor α :=
  match e.selected with
  | none => e
  | some i => e.replaceAt i f

variable {e}

theorem deleteSelected (selected : e.selected = some i) : e.delete = e.deleteAt i (e.selectedIff.mp selected).2 := by
  unfold delete
  split
  · rename_i unselected
    nomatch unselected.symm.trans selected
  · rename_i j shown
    cases Option.some.inj (shown.symm.trans selected)
    rfl

theorem deleteUnselected (unselected : e.selected = none) : e.delete = e := by
  unfold delete
  split
  · rfl
  · rename_i shown
    nomatch unselected.symm.trans shown

theorem replaceSelected (f : α → α) (selected : e.selected = some i) : e.replace f = e.replaceAt i f := by
  simp only [replace,selected]

theorem replaceUnselected (f : α → α) (unselected : e.selected = none) : e.replace f = e := by
  simp only [replace,unselected]

theorem appendInside (a : α) (position : e.position = some i) : i < (e.append a).entries.length := by
  rcases (e.append a).inRange i position with inside | ⟨empty,-⟩
  · exact inside
  · simp [append] at empty

end ListEditor
