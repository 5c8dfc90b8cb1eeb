import RemoteTerminal.Library.Bytes

/-! Hexadecimal text of bytes. The encoder writes two upper-case digits a byte; the
decoder reads digits of either case in pairs, passes over every other character and
drops a last digit without a partner. -/
namespace HexCodec
open ByteStrings

def digit (n : Nat) : UInt8 := UInt8.ofNat (if n < 10 then 48+n else 55+n)

def hexEncode (s : Bytes) : Bytes := s.flatMap fun b => [digit (b.toNat / 16),digit (b.toNat % 16)]

def value (c : UInt8) : Option Nat :=
  let n := c.toNat
  if 48 ≤ n ∧ n ≤ 57 then some (n-48)
  else if 65 ≤ n ∧ n ≤ 70 then some (n-55)
  else if 97 ≤ n ∧ n ≤ 102 then some (n-87)
  else none

def pairs : List Nat → Bytes
  | high::low::rest => UInt8.ofNat (16*high+low) :: pairs rest
  | _ => []

def hexDecode (s : Bytes) : Bytes := pairs (s.filterMap value)

theorem valueDigit {n : Nat} (small : n < 16) : value (digit n) = some n := by
  have digits : ∀ n : Fin 16, value (digit n.val) = some n.val := by decide
  exact digits ⟨n,small⟩

theorem pairsLength (ds : List Nat) : (pairs ds).length = ds.length / 2 := by
  induction ds using pairs.induct with
  | case1 high low rest ih => simp only [pairs,List.length_cons,ih]; omega
  | case2 ds short =>
    cases ds with
    | nil => rfl
    | cons a rest => cases rest with
      | nil => simp [pairs]
      | cons b rest => exact (short a b rest rfl).elim

theorem hexDecodeLength (s : Bytes) : (hexDecode s).length = (s.filterMap value).length / 2 :=
  pairsLength _

theorem hexEncodeLength (s : Bytes) : (hexEncode s).length = 2 * s.length := by
  induction s with
  | nil => rfl
  | cons b rest ih =>
    simp only [hexEncode,List.flatMap_cons,List.length_append,List.length_cons,List.length_nil] at ih ⊢
    omega

theorem byteHalves (b : UInt8) : b.toNat / 16 < 16 ∧ b.toNat % 16 < 16 := by
  have := b.toNat_lt
  omega

theorem hexEncodeDigits {s : Bytes} {c : UInt8} (mem : c ∈ hexEncode s) :
    ∃ n < 16, c = digit n := by
  obtain ⟨b,_,hc⟩ := List.mem_flatMap.mp mem
  have halves := byteHalves b
  rcases List.mem_cons.mp hc with rfl | hc
  · exact ⟨_,halves.1,rfl⟩
  · exact ⟨_,halves.2,by simpa using hc⟩

theorem hexDecodeEncode (s : Bytes) : hexDecode (hexEncode s) = s := by
  induction s with
  | nil => rfl
  | cons b rest ih =>
    have halves := byteHalves b
    have whole : 16*(b.toNat / 16)+b.toNat % 16 = b.toNat := by omega
    simp only [hexDecode,hexEncode] at ih
    simp [hexDecode,hexEncode,pairs,valueDigit halves.1,valueDigit halves.2,whole,ih]

theorem hexDecodeTake (s : Bytes) (n : Nat) : hexDecode ((hexEncode s).take n) = s.take (n / 2) := by
  induction s generalizing n with
  | nil => simp [hexEncode,hexDecode,pairs]
  | cons b rest ih =>
    have halves := byteHalves b
    have whole : 16*(b.toNat / 16)+b.toNat % 16 = b.toNat := by omega
    match n with
    | 0 => simp [hexDecode,pairs]
    | 1 => simp [hexEncode,hexDecode,pairs,valueDigit halves.1]
    | n+2 =>
      have half : (n+2) / 2 = n / 2+1 := by omega
      have others := ih n
      simp only [hexDecode,hexEncode] at others
      simp [hexDecode,hexEncode,pairs,valueDigit halves.1,valueDigit halves.2,whole,half,others]

theorem valueOfDigits {s : Bytes} (digits : ∀ c ∈ s, ∃ n < 16, c = digit n) :
    (s.filterMap value).length = s.length := by
  induction s with
  | nil => rfl
  | cons c rest ih =>
    obtain ⟨n,small,rfl⟩ := digits c List.mem_cons_self
    have tail := ih fun c mem => digits c (List.mem_cons_of_mem _ mem)
    simp [valueDigit small,tail]

def halves (s : Bytes) : List Nat := s.flatMap fun b => [b.toNat / 16,b.toNat % 16]

theorem valuesEncode (s : Bytes) : (hexEncode s).filterMap value = halves s := by
  induction s with
  | nil => rfl
  | cons b rest ih =>
    have small := byteHalves b
    simp only [hexEncode,halves] at ih
    simp [hexEncode,halves,valueDigit small.1,valueDigit small.2,ih]

theorem byteOfHalves {h : Nat} {b : UInt8} (small : h < 16) :
    UInt8.ofNat (16*h+b.toNat / 16) = b ↔ b = UInt8.ofNat (17*h) ∧ b.toNat % 16 = h := by
  have bound := b.toNat_lt
  have left : (16*h+b.toNat / 16) % 2^8 = 16*h+b.toNat / 16 := Nat.mod_eq_of_lt (by omega)
  have right : 17*h % 2^8 = 17*h := Nat.mod_eq_of_lt (by omega)
  rw [← UInt8.toNat_inj,← UInt8.toNat_inj,UInt8.toNat_ofNat',UInt8.toNat_ofNat',left,right]
  omega

theorem pairsShifted {h : Nat} (small : h < 16) (body rest : Bytes) :
    (pairs (h::halves (body ++ rest))).take body.length = body ↔ ∀ b ∈ body, b = UInt8.ofNat (17*h) := by
  induction body generalizing h with
  | nil => simp
  | cons b tail ih =>
    have low := (byteHalves b).2
    have first : pairs (h::halves ((b::tail) ++ rest)) =
        UInt8.ofNat (16*h+b.toNat / 16) :: pairs ((b.toNat % 16)::halves (tail ++ rest)) := by
      simp [halves,pairs]
    rw [first,List.length_cons,List.take_succ_cons,List.cons.injEq,byteOfHalves small,List.forall_mem_cons,
      ih low]
    constructor
    · rintro ⟨⟨same,rfl⟩,others⟩
      exact ⟨same,others⟩
    · rintro ⟨same,others⟩
      have again : b.toNat % 16 = h := by
        rw [same,UInt8.toNat_ofNat']
        omega
      exact ⟨⟨same,again⟩,again ▸ others⟩

end HexCodec
