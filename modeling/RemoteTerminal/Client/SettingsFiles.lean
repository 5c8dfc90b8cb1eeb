import RemoteTerminal.Crypto
import RemoteTerminal.Client.Qt

/-! The client's encrypted files. A `Crypto` object remembers in `invalidKey` that one of
its decryptions failed and never forgets it. -/
namespace RemoteTerminal
open ByteStrings HexCodec PlainText

def Crypto.verifies (c : Crypto) (s : Bytes) : Bool :=
  decide (s.length = 0) || (c.authenticatedDecryption (hexDecode s)).2

namespace CryptoObject

def encryptString (qt : Qt) (c : Crypto) (plainText : Text) : Text :=
  qt.fromStdString (c.encryptString (qt.toStdString plainText))

def decryptString (qt : Qt) (c : Crypto) (invalidKey : Bool) (encryptedText : Text) : Text × Bool :=
  let encrypted := qt.toStdString encryptedText
  (qt.fromStdString (c.decryptString encrypted),invalidKey || !c.verifies encrypted)

/- `readLine` leaves out the end of the line. -/
def readLines (content : Text) : Text :=
  (content.splitOn '\n').flatMap fun line => if line.getLast? = some '\r' then line.dropLast else line

def decryptSettingsFile (qt : Qt) (c : Crypto) (invalidKey : Bool) : Option Text → Text × Bool
  | none => ([],invalidKey)
  | some content => decryptString qt c invalidKey (readLines content)

/- How `remove`, `open` and the writing end; `written` bounds what reaches the file. -/
structure SaveOutcome where
  removed : Bool
  opened : Bool
  written : Option Nat
  deriving DecidableEq, Repr

def SaveOutcome.success : SaveOutcome := ⟨true,true,none⟩

def encryptSettingsFile (qt : Qt) (c : Crypto) (outcome : SaveOutcome) (file : Option Text) (xmlContent : Text) :
    Bool × Option Text :=
  let file := if file.isSome ∧ outcome.removed then none else file
  if outcome.opened then
    let content := encryptString qt c xmlContent
    (true,some (content.take (outcome.written.getD content.length)))
  else (false,file)

end CryptoObject

theorem verifiesEncrypted (c : Crypto) (s : Bytes) : c.verifies (c.encryptString s) = true := by
  unfold Crypto.verifies
  by_cases empty : s.length = 0
  · cases List.eq_nil_of_length_eq_zero empty
    rfl
  · have tagLength : (c.tag (mask c.stream 0 s)).length = 16 := c.library.tagLength _ _ _
    simp [Crypto.encryptString,empty,hexDecodeEncode,Crypto.authenticatedDecryption,tagLength]

namespace CryptoObject
variable (qt : Qt) (c : Crypto) (invalidKey : Bool)

theorem cipherAscii (t : Text) : encryptString qt c t = asciiText (c.encryptString (qt.toStdString t)) ∧
    qt.toStdString (encryptString qt c t) = c.encryptString (qt.toStdString t) := by
  have small : ∀ b ∈ c.encryptString (qt.toStdString t), b < 128 := by
    intro b mem
    obtain ⟨n,under,rfl⟩ := c.encryptStringDigits mem
    have digits : ∀ n : Fin 16, digit n.val < 128 := by decide
    exact digits ⟨n,under⟩
  have written := qt.toStdStringAscii _ small
  have read : encryptString qt c t = asciiText (c.encryptString (qt.toStdString t)) := by
    have back := qt.fromToStdString (asciiText (c.encryptString (qt.toStdString t)))
    rwa [written] at back
  exact ⟨read,by rw [read,written]⟩

theorem cipherPlain (t : Text) : PlainValue (encryptString qt c t) := by
  rw [(cipherAscii qt c t).1]
  intro ch mem
  obtain ⟨b,here,rfl⟩ := List.mem_map.mp mem
  obtain ⟨n,under,rfl⟩ := c.encryptStringDigits here
  have digits : ∀ n : Fin 16, (Char.ofNat (digit n.val).toNat).isAlphanum = true := by decide
  exact .inl (digits ⟨n,under⟩)

theorem decryptEncrypted (t : Text) :
    decryptString qt c invalidKey (encryptString qt c t) = (t,invalidKey) := by
  simp only [decryptString,(cipherAscii qt c t).2,c.decryptEncrypt,qt.fromToStdString,verifiesEncrypted,
    Bool.not_true,Bool.or_false]

theorem readLinesPlain {content : Text} (plain : PlainValue content) : readLines content = content := by
  have noEnd : '\n' ∉ content := plainValueNo plain (by decide) (by decide)
  have noReturn : '\r' ∉ content := plainValueNo plain (by decide) (by decide)
  have last : content.getLast? ≠ some '\r' := fun same => noReturn (List.mem_of_getLast? same)
  simp [readLines,List.splitOn_eq_singleton noEnd,last]

theorem decryptSaved (file : Option Text) (xmlContent : Text) :
    decryptSettingsFile qt c invalidKey (encryptSettingsFile qt c .success file xmlContent).2 =
      (xmlContent,invalidKey) := by
  simp only [encryptSettingsFile,SaveOutcome.success,if_true,Option.getD_none,List.take_length,
    decryptSettingsFile,readLinesPlain (cipherPlain qt c xmlContent),decryptEncrypted]

end CryptoObject
end RemoteTerminal
