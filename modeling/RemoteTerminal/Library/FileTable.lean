import Mathlib

/-! A table of open files by number, with `dup2` and `close`. Both fail on a number that
names nothing; `dup2` onto a number that is in use closes what was there, and onto itself
does nothing. -/
namespace FileTable

abbrev Files (α : Type) := Nat → Option α

variable {α : Type} {files after : Files α} {old new d n : Nat}

def dup2 (files : Files α) (old new : Nat) : Option (Files α) :=
  (files old).map fun what => Function.update files new (some what)

def close (files : Files α) (d : Nat) : Option (Files α) :=
  (files d).map fun _ => Function.update files d none

theorem dup2Some {what : α} (open_ : files old = some what) :
    dup2 files old new = some (Function.update files new (some what)) := by
  rw [dup2,open_]
  rfl

theorem closeSome {what : α} (open_ : files d = some what) : close files d = some (Function.update files d none) := by
  rw [close,open_]
  rfl

theorem closedAt (closed : close files d = some after) : after d = none := by
  obtain ⟨what,-,rfl⟩ := Option.map_eq_some_iff.mp closed
  exact Function.update_self d none files

theorem closedAtOther (closed : close files d = some after) (other : n ≠ d) : after n = files n := by
  obtain ⟨what,-,rfl⟩ := Option.map_eq_some_iff.mp closed
  exact Function.update_of_ne other none files

def move (files : Files α) (old new : Nat) : Option (Files α) := do close (← dup2 files old new) old

theorem moveSome {what : α} (open_ : files old = some what) :
    move files old new = some (Function.update (Function.update files new (some what)) old none) := by
  have still : Function.update files new (some what) old = some what := by
    by_cases same : old = new
    · rw [same,Function.update_self]
    · rw [Function.update_of_ne same,open_]
  rw [move,dup2Some open_]
  exact closeSome still

theorem moveOpens (moves : move files old new = some after) : ∃ what, files old = some what := by
  cases open_ : files old with
  | none => simp [move,dup2,open_] at moves
  | some what => exact ⟨what,rfl⟩

theorem moved (moves : move files old new = some after) (differ : old ≠ new) :
    after new = files old ∧ ∀ n, n ≠ old → n ≠ new → after n = files n := by
  obtain ⟨what,open_⟩ := moveOpens moves
  rw [moveSome open_] at moves
  cases moves
  refine ⟨?_,fun n notOld notNew => ?_⟩
  · rw [Function.update_of_ne differ.symm,Function.update_self,open_]
  · rw [Function.update_of_ne notOld,Function.update_of_ne notNew]

theorem movedAway (moves : move files old new = some after) : after old = none := by
  obtain ⟨what,open_⟩ := moveOpens moves
  rw [moveSome open_] at moves
  cases moves
  exact Function.update_self _ _ _

theorem closeKeepsFree (closed : close files d = some after) (free : files n = none) : after n = none := by
  by_cases same : n = d
  · rw [same]
    exact closedAt closed
  · rw [closedAtOther closed same,free]

theorem moveKeepsFree (moves : move files old new = some after) (free : files n = none) (other : n ≠ new) :
    after n = none := by
  by_cases same : n = old
  · rw [same]
    exact movedAway moves
  · by_cases onto : old = new
    · obtain ⟨what,open_⟩ := moveOpens moves
      rw [moveSome open_] at moves
      cases moves
      rw [Function.update_of_ne same,Function.update_of_ne other,free]
    · rw [(moved moves onto).2 n same other,free]

end FileTable
