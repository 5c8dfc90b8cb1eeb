import Mathlib

/-! Byte strings with the operations of a C++ program on them: zero-terminated
reading, substring search and erasure of a character. -/
namespace ByteStrings

abbrev Bytes := List UInt8

def ascii (s : String) : Bytes := s.toList.map fun c => UInt8.ofNat c.toNat

/-- What a `char *` denotes: the bytes before the first zero. -/
def cString (s : Bytes) : Bytes := s.takeWhile (· ≠ 0)

theorem cStringSame {s : Bytes} : cString s = s ↔ 0 ∉ s := by
  refine List.takeWhile_eq_self_iff.trans ⟨fun nonzero mem => ?_,fun clean b mem => ?_⟩
  · exact of_decide_eq_true (nonzero 0 mem) rfl
  · exact decide_eq_true fun zero => clean (zero ▸ mem)

theorem cStringOfNoZero {s : Bytes} (clean : 0 ∉ s) : cString s = s := cStringSame.mpr clean

theorem cStringPadded {s : Bytes} (n : Nat) (clean : 0 ∉ s) :
    cString (s ++ List.replicate n 0) = s := by
  have nonzero : ∀ b ∈ s, decide (b ≠ 0) = true :=
    fun b mem => decide_eq_true fun zero => clean (zero ▸ mem)
  unfold cString
  rw [List.takeWhile_append_of_pos nonzero]
  simp

theorem cStringLength (s : Bytes) : (cString s).length ≤ s.length :=
  (List.takeWhile_prefix _).length_le

theorem cStringsLength (l : List Bytes) : (l.flatMap cString).length ≤ l.flatten.length := by
  induction l with
  | nil => exact Nat.le_refl _
  | cons s rest ih =>
    have first := cStringLength s
    rw [List.flatMap_cons,List.flatten_cons,List.length_append,List.length_append]
    omega

theorem cStringsSame {l : List Bytes} : l.flatMap cString = l.flatten ↔ 0 ∉ l.flatten := by
  induction l with
  | nil => simp
  | cons s rest ih =>
    rw [List.flatMap_cons,List.flatten_cons,List.mem_append,not_or,← ih,← cStringSame]
    constructor
    · intro same
      have sizes := congrArg List.length same
      rw [List.length_append,List.length_append] at sizes
      have first := cStringLength s
      have others := cStringsLength rest
      exact List.append_inj same (by omega)
    · rintro ⟨first,others⟩
      rw [first,others]

def contains (s pattern : Bytes) : Bool := decide (pattern <:+: s)

/-- `s.erase(std::remove(s.begin(), s.end(), c), s.end())`. -/
def erase (c : UInt8) (s : Bytes) : Bytes := s.filter (· ≠ c)

end ByteStrings
