import Mathlib

/-! A box of entries of which one can be the current one, and the slot that runs whenever
the current index has changed. The first entry of an empty box becomes the current one. -/

structure ComboBox (α : Type) where
  items : List α
  currentIndex : Int
  deriving DecidableEq, Repr

namespace ComboBox
variable {α σ : Type} (slot : List α → Int → σ → Option σ)

def moveTo (index : Int) (box : ComboBox α) (s : σ) : Option (ComboBox α × σ) :=
  if index = box.currentIndex then some (box,s)
  else (slot box.items index s).map fun s => ({box with currentIndex := index},s)

def clear (box : ComboBox α) (s : σ) : Option (ComboBox α × σ) := moveTo slot (-1) {box with items := []} s

def addItem [DecidableEq α] (a : α) (box : ComboBox α) (s : σ) : Option (ComboBox α × σ) :=
  let grown := {box with items := box.items ++ [a]}
  if box.items = [] then moveTo slot 0 grown s else some (grown,s)

def setCurrentIndex (index : Int) (box : ComboBox α) (s : σ) : Option (ComboBox α × σ) :=
  moveTo slot (if 0 ≤ index ∧ index < box.items.length then index else -1) box s

variable {slot} {box : ComboBox α} {s t : σ} {index : Int}

theorem moveRuns (other : index ≠ box.currentIndex) (ran : slot box.items index s = some t) :
    moveTo slot index box s = some ({box with currentIndex := index},t) := by
  rw [moveTo,if_neg other,ran]
  rfl

theorem moveEnds {box' : ComboBox α} (moved : moveTo slot index box s = some (box',t)) :
    box' = {box with currentIndex := index} := by
  unfold moveTo at moved
  split at moved
  · rename_i same
    cases moved
    rw [same]
  · obtain ⟨after,-,ended⟩ := Option.map_eq_some_iff.mp moved
    exact (Prod.mk.inj ended).1.symm

/- A slot that does nothing where there is no current entry. -/
theorem clearQuiet (quiet : ∀ items, slot items (-1) s = some s) : clear slot box s = some (⟨[],-1⟩,s) := by
  by_cases none : box.currentIndex = -1
  · rw [clear,moveTo,if_pos none.symm,none]
  · exact moveRuns (fun same => none same.symm) (quiet [])

variable [DecidableEq α] {a : α} {items : List α}

theorem addFirst (ran : slot [a] 0 s = some t) : addItem slot a ⟨[],-1⟩ s = some (⟨[a],0⟩,t) := by
  rw [addItem,if_pos rfl]
  exact moveRuns (show (0 : Int) ≠ -1 by decide) ran

theorem addLater (filled : items ≠ []) : addItem slot a ⟨items,index⟩ s = some (⟨items ++ [a],index⟩,s) := by
  rw [addItem,if_neg filled]

end ComboBox
