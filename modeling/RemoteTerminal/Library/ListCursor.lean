import Mathlib

/-! A cursor on a list that grows at its end: at an entry, or after the last one. -/

structure ListCursor (α : Type) where
  entries : List α
  position : Nat
  inRange : position ≤ entries.length

namespace ListCursor
variable {α : Type} (k : ListCursor α)

def empty : ListCursor α := ⟨[],0,Nat.le_refl 0⟩

def current : Option α := k.entries[k.position]?

def push (a : α) : ListCursor α := ⟨k.entries ++ [a],(k.entries ++ [a]).length,Nat.le_refl _⟩

def older : ListCursor α := ⟨k.entries,k.position-1,(Nat.sub_le _ _).trans k.inRange⟩

def newer : ListCursor α where
  entries := k.entries
  position := min (k.position+1) (k.entries.length-1)
  inRange := by omega

variable {k}

theorem pushCurrent (a : α) : (k.push a).current = none := List.getElem?_eq_none (Nat.le_refl _)

theorem newerInside (inside : k.position+1 < k.entries.length) :
    k.newer.position = k.position+1 ∧ k.newer.current = k.entries[k.position+1]? := by
  have same : min (k.position+1) (k.entries.length-1) = k.position+1 := by omega
  exact ⟨same,congrArg (fun i => k.entries[i]?) same⟩

theorem newerLast (last : k.entries.length ≤ k.position+1) : k.newer.position = k.entries.length-1 ∧
    k.newer.current = k.entries.getLast? := by
  have same : min (k.position+1) (k.entries.length-1) = k.entries.length-1 := by omega
  exact ⟨same,by rw [List.getLast?_eq_getElem?]; exact congrArg (fun i => k.entries[i]?) same⟩

end ListCursor
