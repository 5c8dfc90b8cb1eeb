import Mathlib

/-! Two text formats. A whole number in base ten, and as XML an element with its children,
one line each. A reader that knows no escapes finds again what was written where the names
are letters and the values letters, digits and '-'. -/
namespace PlainText

abbrev Text := List Char

def text (s : String) : Text := s.toList

def number : Int → Text
  | .ofNat n => Nat.toDigits 10 n
  | .negSucc n => '-'::Nat.toDigits 10 (n+1)

def toNumber : Text → Int
  | '-'::digits => -Nat.ofDigitChars 10 digits 0
  | digits => Nat.ofDigitChars 10 digits 0

theorem digitOfNumber {n : Nat} {c : Char} (mem : c ∈ Nat.toDigits 10 n) : c.isDigit = true :=
  Nat.isDigit_of_mem_toDigits (by decide) (by decide) mem

theorem toNumberNumber (n : Int) : toNumber (number n) = n := by
  cases n with
  | ofNat n =>
    have digits : Nat.ofDigitChars 10 (Nat.toDigits 10 n) 0 = n := Nat.ofDigitChars_ten_toDigits
    cases shown : Nat.toDigits 10 n with
    | nil => exact (Nat.toDigits_ne_nil shown).elim
    | cons c rest =>
      have digit : c.isDigit = true := digitOfNumber (shown ▸ List.mem_cons_self)
      have noMinus : c ≠ '-' := by rintro rfl; revert digit; decide
      rw [shown] at digits
      simp only [number,shown,toNumber]
      split
      · rename_i same
        exact (noMinus (List.cons.inj same).1).elim
      · rw [digits]; rfl
  | negSucc n =>
    simp only [number,toNumber,Nat.ofDigitChars_ten_toDigits]
    rfl

structure XmlElement where
  name : Text
  attributes : List (Text × Text)
  deriving DecidableEq, Repr

structure XmlDocument where
  root : XmlElement
  children : List XmlElement
  deriving DecidableEq, Repr

inductive XmlToken where
  | startElement (e : XmlElement)
  | other
  deriving DecidableEq, Repr

/- Everything up to the end of the text or to its first error. -/
structure XmlReading where
  tokens : List XmlToken
  hasError : Bool
  deriving DecidableEq, Repr

def XmlElement.value? (e : XmlElement) (name : Text) : Option Text :=
  (e.attributes.find? fun a => a.1 = name).map fun a => a.2

def startElements (tokens : List XmlToken) : List XmlElement :=
  tokens.filterMap fun
    | .startElement e => some e
    | .other => none

def PlainValue (value : Text) : Prop := ∀ c ∈ value, c.isAlphanum = true ∨ c = '-'

structure XmlElement.Plain (e : XmlElement) : Prop where
  named : e.name ≠ []
  name : ∀ c ∈ e.name, c.isAlpha = true
  attributes : ∀ a ∈ e.attributes, (∀ c ∈ a.1, c.isAlpha = true) ∧ PlainValue a.2

theorem numberPlain (n : Int) : PlainValue (number n) := by
  intro c mem
  have digits : ∀ {m : Nat}, c ∈ Nat.toDigits 10 m → c.isAlphanum = true :=
    fun mem => by simp [Char.isAlphanum,digitOfNumber mem]
  cases n with
  | ofNat n => exact .inl (digits mem)
  | negSucc n =>
    rcases List.mem_cons.mp mem with rfl | mem
    · exact .inr rfl
    · exact .inl (digits mem)

def writeAttribute (a : Text × Text) : Text := ' '::a.1 ++ ['=','"'] ++ a.2 ++ ['"']

def writeTag (e : XmlElement) : Text := e.name ++ e.attributes.flatMap writeAttribute

def writeChild (e : XmlElement) : Text := [' ','<'] ++ writeTag e ++ ['/','>','\n']

def write (doc : XmlDocument) : Text :=
  if doc.children = [] then '<'::writeTag doc.root ++ ['/','>','\n']
  else '<'::writeTag doc.root ++ ['>','\n'] ++ doc.children.flatMap writeChild ++ '<':: '/'::doc.root.name ++
    ['>','\n']

def readAttributes : List Text → List (Text × Text)
  | name::value::rest => (name.filter Char.isAlpha,value)::readAttributes rest
  | _ => []

def readTag (tag : Text) : XmlToken :=
  if tag.head? = some '/' then .other
  else .startElement ⟨tag.takeWhile Char.isAlpha,readAttributes ((tag.dropWhile Char.isAlpha).splitOn '"')⟩

def read (t : Text) : XmlReading := ⟨((t.splitOn '<').drop 1).map readTag,false⟩

theorem plainValueNo {value : Text} (plain : PlainValue value) {d : Char} (other : d.isAlphanum = false)
    (noMinus : d ≠ '-') : d ∉ value := by
  intro mem
  rcases plain d mem with letter | same
  · exact Bool.noConfusion (letter.symm.trans other)
  · exact noMinus same

theorem alphaNo {name : Text} (letters : ∀ c ∈ name, c.isAlpha = true) {d : Char} (other : d.isAlpha = false) :
    d ∉ name :=
  fun mem => Bool.noConfusion ((letters d mem).symm.trans other)

theorem splitAfter {α : Type} [DecidableEq α] {a b : List α} {d : α} (plain : d ∉ a) :
    (a ++ d::b).splitOn d = a::b.splitOn d := by
  rw [List.splitOn_append_cons_self,List.splitOn_eq_singleton plain,List.singleton_append]

theorem readWritten {attributes : List (Text × Text)} {tail : Text}
    (plain : ∀ a ∈ attributes, (∀ c ∈ a.1, c.isAlpha = true) ∧ PlainValue a.2) (noQuote : '"' ∉ tail) :
    readAttributes ((attributes.flatMap writeAttribute ++ tail).splitOn '"') = attributes := by
  induction attributes with
  | nil =>
    rw [List.flatMap_nil,List.nil_append,List.splitOn_eq_singleton noQuote]
    rfl
  | cons a rest ih =>
    obtain ⟨letters,value⟩ := plain a List.mem_cons_self
    have others := ih fun b mem => plain b (List.mem_cons_of_mem _ mem)
    have shape : (a::rest).flatMap writeAttribute ++ tail =
        (' '::a.1 ++ ['=']) ++ '"'::(a.2 ++ '"'::(rest.flatMap writeAttribute ++ tail)) := by
      simp [writeAttribute]
    have noQuoteName : '"' ∉ ' '::a.1 ++ ['='] := by
      simp [alphaNo letters (show '"'.isAlpha = false by decide)]
    have name : (' '::a.1 ++ ['=']).filter Char.isAlpha = a.1 := by
      simp [List.filter_eq_self.mpr letters,show ' '.isAlpha = false by decide,show '='.isAlpha = false by decide]
    rw [shape,splitAfter noQuoteName,splitAfter (plainValueNo value (by decide) (by decide)),readAttributes,name,
      others]

theorem lettersThen {name rest : Text} (letters : ∀ c ∈ name, c.isAlpha = true)
    (stops : rest.head?.all (fun c => !c.isAlpha) = true) :
    (name ++ rest).takeWhile Char.isAlpha = name ∧ (name ++ rest).dropWhile Char.isAlpha = rest := by
  rw [List.takeWhile_append_of_pos letters,List.dropWhile_append_of_pos letters]
  cases rest with
  | nil => simp
  | cons c others =>
    have other : c.isAlpha = false := by simpa using stops
    simp [other]

theorem readTagWritten {e : XmlElement} {tail : Text} (plain : e.Plain) (noQuote : '"' ∉ tail)
    (stops : tail.head?.all (fun c => !c.isAlpha) = true) : readTag (writeTag e ++ tail) = .startElement e := by
  obtain ⟨name,attributes⟩ := e
  obtain ⟨named,letters,values⟩ := plain
  obtain ⟨first,others,rfl⟩ := List.exists_cons_of_ne_nil named
  have after : (attributes.flatMap writeAttribute ++ tail).head?.all (fun c => !c.isAlpha) = true := by
    cases attributes with
    | nil => exact stops
    | cons a rest => rfl
  obtain ⟨takes,drops⟩ := lettersThen letters after
  have noEnd : first ≠ '/' := by
    rintro rfl
    exact alphaNo letters (by decide) List.mem_cons_self
  rw [writeTag,List.append_assoc,readTag,takes,drops,readWritten values noQuote]
  simp [noEnd]

theorem writeTagNo {e : XmlElement} (plain : e.Plain) : '<' ∉ writeTag e := by
  rw [writeTag,List.mem_append,List.mem_flatMap]
  rintro (mem | ⟨a,here,mem⟩)
  · exact alphaNo plain.name (by decide) mem
  · obtain ⟨letters,value⟩ := plain.attributes a here
    have name := alphaNo letters (show '<'.isAlpha = false by decide)
    have noValue := plainValueNo value (show '<'.isAlphanum = false by decide) (by decide)
    simp [writeAttribute,name,noValue] at mem

theorem readChildren {e : XmlElement} {tail close : Text} {children : List XmlElement} (plain : e.Plain)
    (plains : ∀ e ∈ children, e.Plain) (noQuote : '"' ∉ tail) (noOpen : '<' ∉ tail)
    (stops : tail.head?.all (fun c => !c.isAlpha) = true) (noOpenClose : '<' ∉ close) :
    ((writeTag e ++ tail ++ children.flatMap writeChild ++ '<':: '/'::close).splitOn '<').map readTag =
      .startElement e::children.map .startElement ++ [.other] := by
  induction children generalizing e tail with
  | nil =>
    have closing : ('/'::close).splitOn '<' = ['/'::close] :=
      List.splitOn_eq_singleton (by simp [noOpenClose])
    rw [List.flatMap_nil,List.append_nil,splitAfter (by simp [writeTagNo plain,noOpen]),closing,List.map_cons,
      readTagWritten plain noQuote stops]
    rfl
  | cons child rest ih =>
    have others := @ih child ['/','>','\n'] (plains child List.mem_cons_self)
      (fun e mem => plains e (List.mem_cons_of_mem _ mem)) (by decide) (by decide) (by decide)
    have shape : writeTag e ++ tail ++ (child::rest).flatMap writeChild ++ '<':: '/'::close =
        (writeTag e ++ (tail ++ [' '])) ++ '<'::(writeTag child ++ ['/','>','\n'] ++ rest.flatMap writeChild ++
          '<':: '/'::close) := by
      simp [writeChild]
    have stopsToo : (tail ++ [' ']).head?.all (fun c => !c.isAlpha) = true := by
      cases tail with
      | nil => rfl
      | cons c rest => exact stops
    rw [shape,splitAfter (by simp [writeTagNo plain,noOpen]),List.map_cons,
      readTagWritten plain (by simp [noQuote]) stopsToo,others]
    rfl

theorem readWrite {doc : XmlDocument} (root : doc.root.Plain) (children : ∀ e ∈ doc.children, e.Plain) :
    startElements (read (write doc)).tokens = doc.root::doc.children := by
  have front : ∀ t : Text, (('<'::t).splitOn '<').drop 1 = t.splitOn '<' := by
    intro t
    rw [show '<'::t = [] ++ '<'::t from rfl,splitAfter List.not_mem_nil]
    rfl
  unfold write
  split
  · rename_i none
    have tag : '<' ∉ writeTag doc.root ++ ['/','>','\n'] := by
      rw [List.mem_append,not_or]
      exact ⟨writeTagNo root,by decide⟩
    rw [read,List.cons_append,front,List.splitOn_eq_singleton tag,List.map_singleton,
      readTagWritten root (by decide) (by decide),none]
    rfl
  · have close : '<' ∉ doc.root.name ++ ['>','\n'] := by
      rw [List.mem_append,not_or]
      exact ⟨alphaNo root.name (by decide),by decide⟩
    have shape : '<'::writeTag doc.root ++ ['>','\n'] ++ doc.children.flatMap writeChild ++ '<':: '/'::
        doc.root.name ++ ['>','\n'] = '<'::(writeTag doc.root ++ ['>','\n'] ++ doc.children.flatMap writeChild ++
          '<':: '/'::(doc.root.name ++ ['>','\n'])) := by
      simp
    rw [read,shape,front,readChildren root children (by decide) (by decide) (by decide) close]
    simp [startElements,List.filterMap_map]

end PlainText
