import Mathlib

/-! A place in a list that is remembered by its number alone. It is right as long as the
entry there is the one it was put at, or there is none where that one is gone. -/
namespace Bookmark

variable {α : Type}

def entryAt (entries : List α) (place : Int) : Option α := if 0 ≤ place then entries[place.toNat]? else none

variable {entries : List α} {place : Int} {a : α} {r : Nat}

theorem entryOf (entries : List α) (i : Nat) : entryAt entries i = entries[i]? := by
  simp [entryAt]

theorem entryNegative (negative : place < 0) : entryAt entries place = none := if_neg (by omega)

theorem entryAfter (after : entries.length ≤ place) : entryAt entries place = none := by
  unfold entryAt
  split
  · exact List.getElem?_eq_none (by omega)
  · rfl

theorem entryMem (found : entryAt entries place = some a) : a ∈ entries := by
  unfold entryAt at found
  split at found
  · exact List.mem_of_getElem? found
  · nomatch found

theorem entryPushed (other : place ≠ entries.length) : entryAt (entries ++ [a]) place = entryAt entries place := by
  unfold entryAt
  split
  · by_cases before : place.toNat < entries.length
    · rw [List.getElem?_append_left before]
    · rw [List.getElem?_eq_none (by simp; omega),List.getElem?_eq_none (by omega)]
  · rfl

theorem entryErased : entryAt (entries.eraseIdx r) place =
    if place < r then entryAt entries place else entryAt entries (place+1) := by
  unfold entryAt
  by_cases valid : 0 ≤ place
  · have next : (place+1).toNat = place.toNat+1 := by omega
    have before : place.toNat < r ↔ place < r := by omega
    rw [if_pos valid,if_pos (by omega : 0 ≤ place+1),next,List.getElem?_eraseIdx]
    simp only [valid,if_true,before]
  · have negative : place < r := by omega
    simp [valid,negative]

theorem erasedMem {i : Nat} (apart : entries.Nodup) (here : i < entries.length) :
    entries[i] ∈ entries.eraseIdx r ↔ i ≠ r := by
  rw [List.mem_eraseIdx_iff_getElem?]
  constructor
  · rintro ⟨j,other,same⟩
    have equal : i = j := (List.getElem?_inj here apart).mp ((List.getElem?_eq_getElem here).trans same.symm)
    exact equal ▸ other
  · exact fun other => ⟨i,other,List.getElem?_eq_getElem here⟩

section
variable [DecidableEq α]

def Fits (entries : List α) (place : Int) (marked : Option α) : Prop :=
  entryAt entries place = marked.filter fun a => a ∈ entries
instance (entries place marked) : Decidable (Fits (α := α) entries place marked) := by unfold Fits; infer_instance

variable {marked : Option α}

theorem fitsHere (entries : List α) (place : Int) : Fits entries place (entryAt entries place) := by
  unfold Fits
  cases found : entryAt entries place with
  | none => rfl
  | some a => simp [Option.filter,entryMem found]

theorem fitsPush (fits : Fits entries place marked) (other : marked ≠ some a) :
    Fits (entries ++ [a]) place marked ↔ place ≠ entries.length := by
  have same : marked.filter (fun b => b ∈ entries ++ [a]) = marked.filter fun b => b ∈ entries := by
    cases marked with
    | none => rfl
    | some b =>
      have different : b ≠ a := fun same => other (congrArg some same)
      simp [Option.filter,different]
  unfold Fits at fits ⊢
  rw [same,← fits]
  by_cases last : place = entries.length
  · have after : entryAt entries place = none := entryAfter (by omega)
    subst last
    simp [entryOf]
  · exact iff_of_true (entryPushed last) last

theorem fitsGone (fits : Fits entries place marked) (none_ : entryAt entries place = none)
    (after : entryAt (entries.eraseIdx r) place = none) : Fits (entries.eraseIdx r) place marked := by
  unfold Fits at fits ⊢
  rw [none_] at fits
  rw [after]
  cases marked with
  | none => rfl
  | some b =>
    have missing : b ∉ entries := by
      intro mem
      simp [Option.filter,mem] at fits
    have still : b ∉ entries.eraseIdx r := fun mem => missing (List.mem_of_mem_eraseIdx mem)
    simp [Option.filter,still]

theorem fitsErasedEntry {i : Nat} (apart : entries.Nodup) (here : i < entries.length) (inside : r < entries.length) :
    Fits (entries.eraseIdx r) i (some entries[i]) ↔
      (i : Int) < r ∨ entries.length ≤ (i : Int) ∨ ((i : Int) = r ∧ r+1 = entries.length) := by
  have next : entryAt entries ((i : Int)+1) = entries[i+1]? := by
    have shift : ((i : Int)+1) = ((i+1 : Nat) : Int) := by omega
    rw [shift,entryOf]
  unfold Fits
  rw [entryErased,next]
  simp only [Option.filter,erasedMem apart here]
  rcases Nat.lt_trichotomy i r with before | rfl | after
  · rw [if_pos (by omega),entryOf,List.getElem?_eq_getElem here]
    exact iff_of_true (by simp; omega) (.inl (by omega))
  · rw [if_neg (by omega)]
    simp
    omega
  · rw [if_neg (by omega)]
    have other : i ≠ r := by omega
    refine iff_of_false (fun same => ?_) (by omega)
    rw [decide_eq_true other,if_pos rfl] at same
    have equal := (List.getElem?_inj here apart).mp ((List.getElem?_eq_getElem here).trans same.symm)
    omega

theorem fitsErase (fits : Fits entries place marked) (apart : entries.Nodup) (inside : r < entries.length) :
    Fits (entries.eraseIdx r) place marked ↔
      place < r ∨ entries.length ≤ place ∨ (place = r ∧ r+1 = entries.length) := by
  by_cases outside : place < 0 ∨ entries.length ≤ place
  · have after : entryAt (entries.eraseIdx r) place = none := by
      rcases outside with negative | large
      · exact entryNegative negative
      · exact entryAfter (by rw [List.length_eraseIdx_of_lt inside]; omega)
    have before : entryAt entries place = none := outside.elim entryNegative entryAfter
    exact iff_of_true (fitsGone fits before after) (by omega)
  · obtain ⟨i,rfl⟩ := Int.eq_ofNat_of_zero_le (by omega : 0 ≤ place)
    have here : i < entries.length := by omega
    have found : entryAt entries i = some entries[i] := by rw [entryOf,List.getElem?_eq_getElem here]
    have marks : marked = some entries[i] := by
      unfold Fits at fits
      rw [found] at fits
      exact (Option.filter_eq_some_iff.mp fits.symm).1
    subst marks
    exact fitsErasedEntry apart here inside

end
end Bookmark
