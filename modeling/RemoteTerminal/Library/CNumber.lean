import RemoteTerminal.Library.Bytes

/-! Numbers as a C program reads and stores them: the decimal number at the front of a
string, and an unsigned 16-bit number in network byte order. -/
namespace CNumber
open ByteStrings

def isSpace (b : UInt8) : Bool := b = 32 ∨ 9 ≤ b ∧ b ≤ 13
def isDigit (b : UInt8) : Bool := 48 ≤ b ∧ b ≤ 57

def digitsValue (s : Bytes) : Nat := (s.takeWhile isDigit).foldl (fun n b => 10*n+(b.toNat-48)) 0

def signedValue : Bytes → Int
  | 45::rest => -digitsValue rest
  | 43::rest => digitsValue rest
  | s => digitsValue s

def decimalValue (s : Bytes) : Int := signedValue (s.dropWhile isSpace)

def FitsInt (n : Int) : Prop := -2147483648 ≤ n ∧ n ≤ 2147483647
instance (n) : Decidable (FitsInt n) := by unfold FitsInt; infer_instance

/-- What the C standard says of `atoi`; of a number that is no `int` it says nothing. -/
structure AtoiLibrary where
  atoi : Bytes → Int32
  atoiValue : ∀ s, FitsInt (decimalValue s) → (atoi s).toInt = decimalValue s

/- `strtol` stops at the bounds of a `long`, the cast keeps the low 32 bits. -/
def longAtoi : AtoiLibrary where
  atoi s := Int32.ofInt (max (-9223372036854775808) (min (decimalValue s) 9223372036854775807))
  atoiValue s fits := by
    have inside : max (-9223372036854775808) (min (decimalValue s) 9223372036854775807) = decimalValue s := by
      unfold FitsInt at fits
      omega
    rw [inside]
    exact Int32.toInt_ofInt_of_le fits.1 (by have := fits.2; omega)

def decimal (n : Nat) : Bytes := (Nat.toDigits 10 n).map fun c => UInt8.ofNat c.toNat

theorem digitByte {n : Nat} {c : Char} (mem : c ∈ Nat.toDigits 10 n) :
    48 ≤ c.toNat ∧ c.toNat ≤ 57 ∧ (UInt8.ofNat c.toNat).toNat = c.toNat := by
  have digit := Nat.isDigit_of_mem_toDigits (by decide) (by decide) mem
  have bounds : 48 ≤ c.toNat ∧ c.toNat ≤ 57 := by
    simp only [Char.isDigit,Bool.and_eq_true,decide_eq_true_eq,ge_iff_le,UInt32.le_iff_toNat_le] at digit
    exact digit
  exact ⟨bounds.1,bounds.2,by rw [UInt8.toNat_ofNat']; omega⟩

theorem decimalDigits {n : Nat} {b : UInt8} (mem : b ∈ decimal n) : 48 ≤ b.toNat ∧ b.toNat ≤ 57 := by
  obtain ⟨c,inside,rfl⟩ := List.mem_map.mp mem
  obtain ⟨lower,upper,same⟩ := digitByte inside
  rw [same]
  exact ⟨lower,upper⟩

theorem digitsValueDecimal (n : Nat) : digitsValue (decimal n) = n := by
  have digits : ∀ b ∈ decimal n, isDigit b = true := by
    intro b mem
    have bounds := decimalDigits mem
    simp only [isDigit,UInt8.le_iff_toNat_le]
    exact decide_eq_true bounds
  calc digitsValue (decimal n)
      = (decimal n).foldl (fun n b => 10*n+(b.toNat-48)) 0 := by
        rw [digitsValue,List.takeWhile_eq_self_iff.mpr digits]
    _ = (Nat.toDigits 10 n).foldl (fun n c => 10*n+(c.toNat-48)) 0 := by
        rw [decimal,List.foldl_map]
        refine List.foldl_ext _ _ _ fun n c mem => ?_
        rw [(digitByte mem).2.2]
    _ = n := Nat.ofDigitChars_ten_toDigits

theorem decimalValueDecimal (n : Nat) : decimalValue (decimal n) = n := by
  have value := digitsValueDecimal n
  cases shown : decimal n with
  | nil =>
    rw [shown] at value
    rw [← value]
    rfl
  | cons b rest =>
    have bounds : 48 ≤ b.toNat ∧ b.toNat ≤ 57 := decimalDigits (shown ▸ List.mem_cons_self)
    have noSpace : ¬ isSpace b = true := by
      simp only [isSpace,decide_eq_true_eq,UInt8.le_iff_toNat_le,← UInt8.toNat_inj,UInt8.toNat_ofNat]
      omega
    rw [decimalValue,List.dropWhile_cons_of_neg noSpace,signedValue]
    · rw [← shown,value]
    · rintro tail same
      cases same
      exact absurd bounds (by decide)
    · rintro tail same
      cases same
      exact absurd bounds (by decide)

def htons (port : UInt16) : UInt8 × UInt8 := (UInt8.ofNat (port.toNat / 256),UInt8.ofNat port.toNat)

def ntohs (bytes : UInt8 × UInt8) : UInt16 := UInt16.ofNat (256*bytes.1.toNat+bytes.2.toNat)

theorem ntohsHtons (port : UInt16) : ntohs (htons port) = port := by
  have size := port.toNat_lt
  apply UInt16.toNat_inj.mp
  simp only [ntohs,htons,UInt16.toNat_ofNat',UInt8.toNat_ofNat']
  omega

theorem portKept (n : Nat) : (UInt16.ofNat n).toNat = n ↔ n < 65536 := by
  rw [UInt16.toNat_ofNat']
  omega

end CNumber
