import RemoteTerminal.Library.HexCodec

/-! The `Crypto` class, the same on both sides. SHA-512, the AES-GCM keystream and
the AES-GCM tag are parameters. The decryption filter hands bytes to its sink while
they arrive and compares the tag at the end of the message. -/
namespace RemoteTerminal
open ByteStrings HexCodec

structure CryptoLibrary where
  sha512 : Bytes → Bytes
  keystream : (key iv : Bytes) → Nat → UInt8
  tag : (key iv body : Bytes) → Bytes
  tagLength : ∀ key iv body, (tag key iv body).length = 16

structure Crypto where
  library : CryptoLibrary
  cryptoKey : Bytes

def mask (stream : Nat → UInt8) : Nat → Bytes → Bytes
  | _,[] => []
  | n,b::rest => (b ^^^ stream n) :: mask stream (n+1) rest

namespace Crypto

def iv : Bytes := List.replicate 16 0

def key (c : Crypto) : Bytes := (c.library.sha512 (cString c.cryptoKey)).take 32

def stream (c : Crypto) : Nat → UInt8 := c.library.keystream c.key iv

def tag (c : Crypto) (body : Bytes) : Bytes := c.library.tag c.key iv body

/-- What the sink of the filter has received when the message ends, and whether the
tag agreed. Without agreement the filter throws. -/
def authenticatedDecryption (c : Crypto) (message : Bytes) : Bytes × Bool :=
  let body := message.take (message.length-16)
  (mask c.stream 0 body,decide (message.drop (message.length-16) = c.tag body))

def decryptString (c : Crypto) (encryptedText : Bytes) : Bytes :=
  if encryptedText.length = 0 then []
  else match c.authenticatedDecryption (hexDecode encryptedText) with
    | (plainText,true) => plainText
    -- The exception is caught, and the string the sink filled is returned all the same.
    | (plainText,false) => plainText

def encryptString (c : Crypto) (plainText : Bytes) : Bytes :=
  if plainText.length = 0 then []
  else
    let body := mask c.stream 0 plainText
    hexEncode (body ++ c.tag body)

end Crypto

theorem maskLength (stream : Nat → UInt8) (n : Nat) (s : Bytes) : (mask stream n s).length = s.length := by
  induction s generalizing n with
  | nil => rfl
  | cons b rest ih => simp [mask,ih]

theorem maskMask (stream : Nat → UInt8) (n : Nat) (s : Bytes) : mask stream n (mask stream n s) = s := by
  induction s generalizing n with
  | nil => rfl
  | cons b rest ih => simp only [mask,ih,UInt8.xor_assoc,UInt8.xor_self,UInt8.xor_zero]

theorem maskTake (stream : Nat → UInt8) (n k : Nat) (s : Bytes) : mask stream n (s.take k) = (mask stream n s).take k := by
  induction s generalizing n k with
  | nil => simp [mask]
  | cons b rest ih =>
    cases k with
    | zero => rfl
    | succ k => simp [mask,ih]

namespace Crypto

theorem decryptStringSink (c : Crypto) (s : Bytes) :
    c.decryptString s = mask c.stream 0 ((hexDecode s).take ((hexDecode s).length-16)) := by
  unfold decryptString
  split
  · rename_i empty
    cases List.eq_nil_of_length_eq_zero empty
    rfl
  · cases verdict : c.authenticatedDecryption (hexDecode s) with
    | mk plainText verified =>
      have sink := congrArg Prod.fst verdict
      cases verified <;> exact sink.symm

theorem decryptStringLength (c : Crypto) (s : Bytes) :
    (c.decryptString s).length = (hexDecode s).length-16 := by
  rw [decryptStringSink,maskLength,List.length_take]
  omega

theorem encryptStringLength (c : Crypto) {s : Bytes} (nonempty : s ≠ []) :
    (c.encryptString s).length = 2*(s.length+16) := by
  have size := List.length_pos_iff.mpr nonempty
  simp only [encryptString,if_neg (by omega : ¬ s.length = 0),hexEncodeLength,List.length_append,
    maskLength,tag,c.library.tagLength]

theorem encryptStringNil (c : Crypto) : c.encryptString [] = [] := rfl

theorem decryptEncrypt (c : Crypto) (s : Bytes) : c.decryptString (c.encryptString s) = s := by
  by_cases empty : s.length = 0
  · cases List.eq_nil_of_length_eq_zero empty
    rfl
  · have tagLength : (c.tag (mask c.stream 0 s)).length = 16 := c.library.tagLength _ _ _
    rw [decryptStringSink]
    simp only [encryptString,if_neg empty,hexDecodeEncode,List.length_append,tagLength,
      Nat.add_sub_cancel,List.take_left,maskMask]

/- The last sixteen bytes of what is left are taken for the tag. -/
theorem decryptEncryptedTake (c : Crypto) (s : Bytes) (n : Nat) :
    c.decryptString ((c.encryptString s).take n) = s.take (n / 2-16) := by
  by_cases empty : s.length = 0
  · cases List.eq_nil_of_length_eq_zero empty
    simp [encryptString,decryptString]
  · have tagLength : (c.tag (mask c.stream 0 s)).length = 16 := c.library.tagLength _ _ _
    have size : (mask c.stream 0 s).length = s.length := maskLength _ _ _
    have decoded : hexDecode ((c.encryptString s).take n) =
        (mask c.stream 0 s ++ c.tag (mask c.stream 0 s)).take (n / 2) := by
      simp only [encryptString,if_neg empty,hexDecodeTake]
    have body : (min (n / 2) (s.length+16))-16 ≤ (mask c.stream 0 s).length := by omega
    rw [decryptStringSink,decoded,List.length_take,List.length_append,tagLength,size,List.take_take,
      List.take_append_of_le_length (by omega),maskTake,maskMask]
    by_cases whole : n / 2-16 ≤ s.length
    · congr 1
      omega
    · rw [List.take_of_length_le (by omega : s.length ≤ _),List.take_of_length_le (by omega : s.length ≤ _)]

theorem encryptStringDigits (c : Crypto) {s : Bytes} {b : UInt8} (mem : b ∈ c.encryptString s) :
    ∃ n < 16, b = digit n := by
  unfold encryptString at mem
  split at mem
  · simp at mem
  · exact hexEncodeDigits mem

end Crypto
end RemoteTerminal
