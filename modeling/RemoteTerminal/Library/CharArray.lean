import RemoteTerminal.Library.Bytes

/-! A `char` array that a call fills from the front, that `memset` clears, and that is
read back up to its first zero. -/
namespace CharArray
open ByteStrings

def overwrite (array r : Bytes) : Bytes := r ++ array.drop r.length

def clear (array : Bytes) : Bytes := List.replicate array.length 0

def zeros (size : Nat) : Bytes := List.replicate size 0

variable {size : Nat} {array r : Bytes}

@[simp] theorem zerosLength : (zeros size).length = size := List.length_replicate

theorem clearLength : (clear array).length = array.length := List.length_replicate

theorem clearSized (same : array.length = size) : clear array = zeros size := by rw [clear,same,zeros]

theorem overwriteZeros : overwrite (zeros size) r = r ++ List.replicate (size-r.length) 0 := by
  rw [overwrite,zeros,List.drop_replicate]

theorem overwriteLength (fits : r.length ≤ array.length) : (overwrite array r).length = array.length := by
  rw [overwrite,List.length_append,List.length_drop]
  omega

theorem zeroInOverwrite : 0 ∈ overwrite (zeros size) r ↔ 0 ∈ r ∨ r.length < size := by
  rw [overwriteZeros,List.mem_append,List.mem_replicate]
  constructor
  · rintro (inside | ⟨gap,-⟩)
    · exact .inl inside
    · exact .inr (by omega)
  · rintro (inside | short)
    · exact .inl inside
    · exact .inr ⟨by omega,rfl⟩

theorem cStringOverwrite : cString (overwrite (zeros size) r) = cString r := by
  rw [overwriteZeros,cString,cString,List.takeWhile_append]
  split
  · rename_i whole
    have same := List.IsPrefix.eq_of_length (List.takeWhile_prefix _) whole
    simpa using same.symm
  · rfl

end CharArray
