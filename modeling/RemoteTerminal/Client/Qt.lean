import RemoteTerminal.Library.Bytes
import RemoteTerminal.Library.PlainText
import RemoteTerminal.Library.Utf8

/-! What the client uses of Qt, as a parameter with what Qt documents of it. Texts are
`QString`s. -/
namespace RemoteTerminal
open ByteStrings PlainText

def asciiText (s : Bytes) : Text := s.map fun b => Char.ofNat b.toNat

/- The reader may meet the attributes of an element in another order. -/
structure SameElement (e e' : XmlElement) : Prop where
  name : e.name = e'.name
  value : ∀ name, e.value? name = e'.value? name

structure Qt where
  toStdString : Text → Bytes
  fromStdString : Bytes → Text
  toInt : Text → Int32
  toByteArray : XmlDocument → Text
  xmlStreamReader : Text → XmlReading
  fromToStdString : ∀ t, fromStdString (toStdString t) = t
  toStdStringAscii : ∀ s : Bytes, (∀ b ∈ s, b < 128) → toStdString (asciiText s) = s
  toIntNumber : ∀ n : Int32, toInt (number n.toInt) = n
  readsBack : ∀ doc : XmlDocument, doc.root.Plain → (∀ e ∈ doc.children, e.Plain) →
    (xmlStreamReader (toByteArray doc)).hasError = false ∧
    List.Forall₂ SameElement (startElements (xmlStreamReader (toByteArray doc)).tokens) (doc.root::doc.children)

/- `QString::fromStdString` reads UTF-8; each byte that belongs to no character becomes U+FFFD,
and a byte order mark is a character like any other. -/
def Qt.ReadsUtf8 (qt : Qt) : Prop := ∀ s, qt.fromStdString s = Utf8.decode s

def plainQt : Qt where
  toStdString := Utf8.encode
  fromStdString := Utf8.decode
  toInt t := Int32.ofInt (toNumber t)
  toByteArray := write
  xmlStreamReader := read
  fromToStdString := Utf8.decodeEncode
  toStdStringAscii s small := by
    have single : ∀ n : Fin 128, String.utf8EncodeChar (Char.ofNat n.val) = [UInt8.ofNat n.val] := by decide
    induction s with
    | nil => rfl
    | cons b rest ih =>
      have first := single ⟨b.toNat,small b List.mem_cons_self⟩
      rw [UInt8.ofNat_toNat] at first
      have others := ih fun b mem => small b (List.mem_cons_of_mem _ mem)
      simp only [asciiText,Utf8.encode,List.map_cons,List.flatMap_cons,first,List.singleton_append] at others ⊢
      rw [others]
  toIntNumber n := by rw [toNumberNumber,Int32.ofInt_toInt]
  readsBack doc root children := ⟨rfl,by
    rw [readWrite root children]
    exact List.forall₂_same.mpr fun e _ => ⟨rfl,fun _ => rfl⟩⟩

theorem plainReadsUtf8 : plainQt.ReadsUtf8 := fun _ => rfl

end RemoteTerminal
