import Mathlib

/-! A code with a symbol of its own, the mark, once in it. A stream is made of blocks that
are the code or have no mark in them; they may share every other symbol with it. Wherever
the code is found in the stream, it is one of the blocks. -/
namespace MarkedCode

structure Code (α : Type) where
  front : List α
  mark : α
  back : List α
  markOnce : mark ∉ front ∧ mark ∉ back

variable {α : Type} {code : Code α} {blocks : List (List α)} {before after x y : List α}

def Code.word (code : Code α) : List α := code.front ++ code.mark::code.back

def Code.Block (code : Code α) (b : List α) : Prop := b = code.word ∨ code.mark ∉ b

theorem markInBlock (block : code.Block (x ++ code.mark::y)) : x = code.front ∧ y = code.back := by
  rcases block with same | plain
  · obtain ⟨front,-,back⟩ := (List.append_cons_inj_of_notMem code.markOnce.1 code.markOnce.2).mp same.symm
    exact ⟨front.symm,back.symm⟩
  · exact absurd (List.mem_append_right x List.mem_cons_self) plain

/- The induction is on the blocks: the mark is in the first of them or behind it. -/
theorem markInStream (all : ∀ b ∈ blocks, code.Block b) (found : blocks.flatten = x ++ code.mark::y) :
    ∃ earlier later, blocks = earlier ++ code.word::later ∧
      x = earlier.flatten ++ code.front ∧ y = code.back ++ later.flatten := by
  induction blocks generalizing x with
  | nil => simp at found
  | cons b rest ih =>
    have behind : ∀ x', rest.flatten = x' ++ code.mark::y → x = b ++ x' →
        ∃ earlier later, b::rest = earlier ++ code.word::later ∧
          x = earlier.flatten ++ code.front ∧ y = code.back ++ later.flatten := by
      intro x' found' same
      obtain ⟨earlier,later,split,left,right⟩ :=
        ih (fun b' mem => all b' (List.mem_cons_of_mem _ mem)) found'
      exact ⟨b::earlier,later,by rw [split]; rfl,by rw [same,left]; simp,right⟩
    rw [List.flatten_cons] at found
    rcases List.append_eq_append_iff.mp found with ⟨x',same,tail⟩ | ⟨rest',first,tail⟩
    · exact behind x' tail same
    · cases rest' with
      | nil => exact behind [] tail.symm (by simpa using first.symm)
      | cons m back =>
        obtain ⟨rfl,rfl⟩ := List.cons.inj tail
        obtain ⟨rfl,rfl⟩ := markInBlock (first ▸ all b List.mem_cons_self)
        exact ⟨[],rest,by rw [first]; rfl,rfl,rfl⟩

theorem wordInStream (all : ∀ b ∈ blocks, code.Block b)
    (found : blocks.flatten = before ++ code.word ++ after) :
    ∃ earlier later, blocks = earlier ++ code.word::later ∧ earlier.flatten = before ∧ later.flatten = after := by
  have aligned : blocks.flatten = (before ++ code.front) ++ code.mark::(code.back ++ after) := by
    rw [found]
    simp [Code.word]
  obtain ⟨earlier,later,split,left,right⟩ := markInStream all aligned
  exact ⟨earlier,later,split,(List.append_cancel_right left).symm,(List.append_cancel_left right).symm⟩

end MarkedCode
