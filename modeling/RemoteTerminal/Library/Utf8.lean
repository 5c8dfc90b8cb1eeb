import Mathlib

/-! UTF-8, and a reader that loses what is none: it finds the characters, and for a byte with
which none begins it puts the replacement character. A text that comes in parts, each read on
its own, is the text read whole exactly if no character is cut between two parts. -/
namespace Utf8
open String

def encode (t : List Char) : List UInt8 := t.flatMap utf8EncodeChar

def replacement : Char := Char.ofNat 0xFFFD

def front (s : List UInt8) : Option Char := (s.take 4).toByteArray.utf8DecodeChar? 0

/- `inside` counts the bytes that are left of a character already found. -/
def decodeFrom : Nat → List UInt8 → List Char
  | _,[] => []
  | inside+1,_::rest => decodeFrom inside rest
  | 0,b::rest => match front (b::rest) with
    | some ch => ch::decodeFrom (ch.utf8Size-1) rest
    | none => replacement::decodeFrom 0 rest

def decode (s : List UInt8) : List Char := decodeFrom 0 s

@[simp] theorem decodeNil : decode [] = [] := rfl

variable {s x y : List UInt8} {b : UInt8} {ch : Char}

theorem frontIff : front s = some ch ↔ utf8EncodeChar ch <+: s := by
  unfold front
  constructor
  · intro found
    obtain ⟨rest,same⟩ := ByteArray.exists_of_utf8DecodeChar?_eq_some found
    have bytes := congrArg (fun bytes : ByteArray => bytes.data.toList) same
    simp only [List.data_toByteArray,ByteArray.data_append,Array.toList_append] at bytes
    exact (List.prefix_append _ _).trans (bytes ▸ List.take_prefix 4 s)
  · rintro ⟨rest,rfl⟩
    have small : (utf8EncodeChar ch).length ≤ 4 := by
      rw [length_utf8EncodeChar]
      exact ch.utf8Size_le_four
    rw [List.take_append,List.take_of_length_le small,List.toByteArray_append]
    exact ByteArray.utf8DecodeChar?_utf8EncodeChar_append

theorem encodeCons (ch : Char) : ∃ b tail, utf8EncodeChar ch = b::tail ∧ tail.length = ch.utf8Size-1 := by
  have size := length_utf8EncodeChar ch
  have positive := ch.utf8Size_pos
  cases shape : utf8EncodeChar ch with
  | nil =>
    rw [shape,List.length_nil] at size
    omega
  | cons b tail =>
    rw [shape,List.length_cons] at size
    exact ⟨b,tail,rfl,by omega⟩

theorem decodeFromDrop (n : Nat) (s : List UInt8) : decodeFrom n s = decode (s.drop n) := by
  induction s generalizing n with
  | nil => cases n <;> rfl
  | cons b rest ih =>
    cases n with
    | zero => rfl
    | succ n => exact ih n

theorem decodeCharacter (ch : Char) (s : List UInt8) : decode (utf8EncodeChar ch ++ s) = ch::decode s := by
  obtain ⟨b,tail,shape,size⟩ := encodeCons ch
  have found : front (b::(tail ++ s)) = some ch := frontIff.mpr ⟨s,by rw [shape]; rfl⟩
  rw [shape,List.cons_append,decode,decodeFrom,found]
  dsimp only
  rw [decodeFromDrop,← size,List.drop_left]

theorem decodeOther (other : front (b::s) = none) : decode (b::s) = replacement::decode s := by
  rw [decode,decodeFrom,other]
  rfl

theorem readInduction {motive : List UInt8 → Prop} (nil : motive [])
    (character : ∀ ch s, motive s → motive (utf8EncodeChar ch ++ s))
    (other : ∀ b s, front (b::s) = none → motive s → motive (b::s)) (s : List UInt8) : motive s := by
  induction size : s.length using Nat.strong_induction_on generalizing s with
  | _ n ih =>
    cases s with
    | nil => exact nil
    | cons b rest =>
      cases found : front (b::rest) with
      | none => exact other b rest found (ih rest.length (by rw [← size,List.length_cons]; omega) rest rfl)
      | some ch =>
        obtain ⟨after,same⟩ := frontIff.mp found
        rw [← same]
        refine character ch after (ih after.length ?_ after rfl)
        have positive := ch.utf8Size_pos
        rw [← size,← same,List.length_append,length_utf8EncodeChar]
        omega

theorem decodeEncode (t : List Char) : decode (encode t) = t := by
  induction t with
  | nil => rfl
  | cons ch rest ih => rw [encode,List.flatMap_cons,decodeCharacter,← encode,ih]

theorem decodeSome (some : s ≠ []) : 0 < (decode s).length := by
  cases s with
  | nil => exact (some rfl).elim
  | cons b rest =>
    cases found : front (b::rest) with
    | none => simp [decodeOther found]
    | some ch =>
      obtain ⟨after,same⟩ := frontIff.mp found
      simp [← same,decodeCharacter]

theorem insideNotFirst {u v : List UInt8} (split : utf8EncodeChar ch = u ++ v) (begun : u ≠ []) :
    ∀ b ∈ v, ¬ b.IsUTF8FirstByte := by
  intro b mem first
  obtain ⟨i,inside,rfl⟩ := List.mem_iff_getElem.mp mem
  have there : u.length+i < (utf8EncodeChar ch).length := by rw [split,List.length_append]; omega
  have same : (utf8EncodeChar ch)[u.length+i] = v[i] := by
    simp [split]
  rw [← same,UInt8.isUTF8FirstByte_getElem_utf8EncodeChar] at first
  have positive := List.length_pos_iff.mpr begun
  omega

theorem frontFirst (found : front (b::s) = some ch) : b.IsUTF8FirstByte := by
  obtain ⟨rest,same⟩ := frontIff.mp found
  have positive : 0 < (utf8EncodeChar ch).length := by
    rw [length_utf8EncodeChar]
    exact ch.utf8Size_pos
  have head : (utf8EncodeChar ch)[0] = b := by
    have at_ : (utf8EncodeChar ch ++ rest)[0]? = some b := by rw [same]; rfl
    rw [List.getElem?_append_left positive,List.getElem?_eq_getElem positive] at at_
    exact Option.some.inj at_
  rw [← head]
  exact UInt8.isUTF8FirstByte_getElem_zero_utf8EncodeChar

theorem decodeInside (inside : ∀ b ∈ x, ¬ b.IsUTF8FirstByte) :
    decode (x ++ y) = List.replicate x.length replacement ++ decode y := by
  induction x with
  | nil => rfl
  | cons b rest ih =>
    have other : front (b::(rest ++ y)) = none := by
      by_contra found
      obtain ⟨ch,found⟩ := Option.ne_none_iff_exists'.mp found
      exact inside b List.mem_cons_self (frontFirst found)
    rw [List.cons_append,decodeOther other,ih fun b mem => inside b (List.mem_cons_of_mem _ mem)]
    rfl

theorem decodePart {u v : List UInt8} (split : utf8EncodeChar ch = u ++ v) (left : v ≠ []) :
    decode u = List.replicate u.length replacement := by
  cases u with
  | nil => rfl
  | cons b tail =>
    have other : front (b::tail) = none := by
      by_contra found
      obtain ⟨ch',found⟩ := Option.ne_none_iff_exists'.mp found
      have bytes := frontIff.mp found
      have here : front (utf8EncodeChar ch) = some ch' := frontIff.mpr (bytes.trans ⟨v,split.symm⟩)
      obtain rfl := Option.some.inj (here.symm.trans (frontIff.mpr List.prefix_rfl))
      have size := bytes.length_le
      rw [split,List.length_append] at size
      have more := List.length_pos_iff.mpr left
      omega
    have inside := insideNotFirst (u := [b]) (v := tail ++ v) split (List.cons_ne_nil b [])
    have others := decodeInside (x := tail) (y := []) fun a mem => inside a (List.mem_append_left v mem)
    rw [List.append_nil] at others
    rw [decodeOther other,others]
    exact (congrArg _ (List.append_nil _)).trans List.replicate_succ.symm

/- What lacks its last bytes reads as another text, unless that ends with the replacement
character. -/
theorem decodeShort {t : List Char} {n : Nat} (short : n < (encode t).length)
    (same : decode ((encode t).take n) = t) : t.getLast? = some replacement := by
  induction t generalizing n with
  | nil => cases short
  | cons ch rest ih =>
    rw [encode,List.flatMap_cons,← encode] at short same
    by_cases beyond : (utf8EncodeChar ch).length ≤ n
    · rw [List.take_append,List.take_of_length_le beyond,decodeCharacter] at same
      rw [List.length_append] at short
      have last := ih (by omega) (List.cons.inj same).2
      rw [List.getLast?_cons,last]
      rfl
    · rw [List.take_append_of_le_length (by omega)] at same
      have left : (utf8EncodeChar ch).drop n ≠ [] := List.length_pos_iff.mp (by rw [List.length_drop]; omega)
      rw [decodePart (List.take_append_drop n _).symm left] at same
      rw [← same,List.getLast?_replicate,if_neg]
      intro nothing
      rw [nothing] at same
      cases same

def CutsCharacter (x y : List UInt8) : Prop :=
  ∃ u v ch, utf8EncodeChar ch = u ++ v ∧ u ≠ [] ∧ v ≠ [] ∧ u <:+ x ∧ v <+: y

theorem cutsCharacterIff : CutsCharacter x y ↔
    ∃ n ∈ [1,2,3], n ≤ x.length ∧ (front (x.drop (x.length-n) ++ y)).any (fun ch => n < ch.utf8Size) = true := by
  simp only [Option.any_eq_true,decide_eq_true_eq]
  constructor
  · rintro ⟨u,v,ch,split,begun,left,last,w,rfl⟩
    have size : u.length + v.length = ch.utf8Size := by
      rw [← List.length_append,← split,length_utf8EncodeChar]
    have few := ch.utf8Size_le_four
    have one := List.length_pos_iff.mpr begun
    have more := List.length_pos_iff.mpr left
    refine ⟨u.length,?_,last.length_le,ch,?_,by omega⟩
    · have three : u.length = 1 ∨ u.length = 2 ∨ u.length = 3 := by omega
      simpa using three
    · rw [← List.suffix_iff_eq_drop.mp last]
      exact frontIff.mpr ⟨w,by rw [split,List.append_assoc]⟩
  · rintro ⟨n,few,inside,ch,found,longer⟩
    have behind : (x.drop (x.length-n)).length = n := by
      rw [List.length_drop]
      omega
    have positive : 0 < n := by
      revert few
      simp only [List.mem_cons,List.not_mem_nil,or_false]
      omega
    have bytes := frontIff.mp found
    have begins : x.drop (x.length-n) <+: utf8EncodeChar ch :=
      List.prefix_of_prefix_length_le (List.prefix_append _ _) bytes (by rw [behind,length_utf8EncodeChar]; omega)
    obtain ⟨v,split⟩ := begins
    refine ⟨x.drop (x.length-n),v,ch,split.symm,?_,?_,List.drop_suffix _ _,?_⟩
    · exact List.length_pos_iff.mp (by omega)
    · rintro rfl
      have size := congrArg List.length split
      rw [List.append_nil,behind,length_utf8EncodeChar] at size
      omega
    · rw [← split] at bytes
      exact (List.prefix_append_right_inj _).mp bytes

instance (x y : List UInt8) : Decidable (CutsCharacter x y) := decidable_of_iff _ cutsCharacterIff.symm

theorem cutsFront (cuts : CutsCharacter x y) : CutsCharacter (b::x) y := by
  obtain ⟨u,v,ch,split,begun,left,last,first⟩ := cuts
  exact ⟨u,v,ch,split,begun,left,last.trans (List.suffix_cons b x),first⟩

theorem cutsBehind (cuts : CutsCharacter (utf8EncodeChar ch ++ x) y) : CutsCharacter x y := by
  obtain ⟨u,v,ch',split,begun,left,⟨p,joined⟩,first⟩ := cuts
  rcases List.append_eq_append_iff.mp joined with ⟨w,whole,rfl⟩ | ⟨q,-,within⟩
  · cases w with
    | nil => exact ⟨x,v,ch',split,begun,left,List.suffix_rfl,first⟩
    | cons b tail =>
      cases p with
      | nil =>
        -- both characters begin here
        have here : front (utf8EncodeChar ch') = some ch := by
          refine frontIff.mpr ⟨x ++ v,?_⟩
          rw [split,whole,List.nil_append,List.append_assoc]
        obtain rfl := Option.some.inj (here.symm.trans (frontIff.mpr List.prefix_rfl))
        have nothing : x ++ v = [] := by
          rw [split,List.nil_append] at whole
          simpa using whole
        exact (left (List.append_eq_nil_iff.mp nothing).2).elim
      | cons a p =>
        have later := insideNotFirst whole (List.cons_ne_nil a p) b List.mem_cons_self
        have begins : front (b::(tail ++ x ++ v)) = some ch' :=
          frontIff.mpr (by rw [split]; exact List.prefix_rfl)
        exact (later (frontFirst begins)).elim
  · exact ⟨u,v,ch',split,begun,left,⟨q,within.symm⟩,first⟩

theorem frontAcross (other : front s = none) (found : front (s ++ y) = some ch) :
    ∃ v w, utf8EncodeChar ch = s ++ v ∧ v ≠ [] ∧ y = v ++ w := by
  obtain ⟨rest,same⟩ := frontIff.mp found
  have notWhole : ¬ utf8EncodeChar ch <+: s := by
    rw [← frontIff,other]
    exact nofun
  rcases List.append_eq_append_iff.mp same with ⟨v,rfl,-⟩ | ⟨v,longer,after⟩
  · exact (notWhole (List.prefix_append _ _)).elim
  · refine ⟨v,rest,longer,?_,after⟩
    rintro rfl
    rw [List.append_nil] at longer
    exact notWhole (longer ▸ List.prefix_rfl)

theorem decodeAppend (whole : ¬ CutsCharacter x y) : decode (x ++ y) = decode x ++ decode y := by
  induction x using readInduction with
  | nil => rfl
  | character ch s ih =>
    rw [List.append_assoc,decodeCharacter,decodeCharacter,List.cons_append]
    rw [ih fun ⟨u,v,ch',split,begun,left,last,first⟩ =>
      whole ⟨u,v,ch',split,begun,left,last.trans (List.suffix_append _ _),first⟩]
  | other b s other ih =>
    cases found : front (b::(s ++ y)) with
    | none => rw [decodeOther other,List.cons_append,decodeOther found,ih (mt cutsFront whole),List.cons_append]
    | some ch =>
      obtain ⟨v,w,split,left,rfl⟩ := frontAcross other found
      exact (whole ⟨b::s,v,ch,split,List.cons_ne_nil b s,left,List.suffix_rfl,List.prefix_append _ _⟩).elim

theorem decodeCut (cuts : CutsCharacter x y) : (decode (x ++ y)).length < (decode x).length + (decode y).length := by
  induction x using readInduction with
  | nil =>
    obtain ⟨u,v,ch,split,begun,left,last,first⟩ := cuts
    exact (begun (List.suffix_nil.mp last)).elim
  | character ch s ih =>
    have shorter := ih (cutsBehind cuts)
    rw [List.append_assoc,decodeCharacter,decodeCharacter,List.length_cons,List.length_cons]
    omega
  | other b s other ih =>
    cases found : front (b::(s ++ y)) with
    | none =>
      have later : CutsCharacter s y := by
        obtain ⟨u,v,ch,split,begun,left,last,⟨w,first⟩⟩ := cuts
        refine ⟨u,v,ch,split,begun,left,(List.suffix_cons_iff.mp last).resolve_left ?_,⟨w,first⟩⟩
        rintro rfl
        have here : front (b::(s ++ y)) = some ch := frontIff.mpr ⟨w,by rw [split,← first]; simp⟩
        cases found.symm.trans here
      have shorter := ih later
      rw [decodeOther other,List.cons_append,decodeOther found,List.length_cons,List.length_cons]
      omega
    | some ch =>
      obtain ⟨v,w,split,left,rfl⟩ := frontAcross other found
      have one := decodeSome (List.cons_ne_nil b s)
      have more := List.length_pos_iff.mpr left
      rw [← List.append_assoc,← split,decodeCharacter,
        decodeInside (insideNotFirst split (List.cons_ne_nil b s)),List.length_append,List.length_replicate,
        List.length_cons]
      omega

theorem decodeAppendLength (x y : List UInt8) : (decode (x ++ y)).length ≤ (decode x).length + (decode y).length := by
  by_cases cuts : CutsCharacter x y
  · exact (decodeCut cuts).le
  · rw [decodeAppend cuts,List.length_append]

def announced (b : UInt8) : Nat := if first : b.IsUTF8FirstByte then b.utf8ByteSize first else 0

def Opens : List UInt8 → Prop
  | [] => False
  | b::tail => tail.length+1 < announced b ∧ ∀ a ∈ tail, ¬ a.IsUTF8FirstByte
instance : (u : List UInt8) → Decidable (Opens u)
  | [] => isFalse id
  | _::_ => by dsimp only [Opens]; infer_instance

/- The last bytes have the form of a character that is not complete. -/
def EndsInside (x : List UInt8) : Prop := ∃ n ∈ [1,2,3], Opens (x.drop (x.length-n))
instance (x : List UInt8) : Decidable (EndsInside x) := by unfold EndsInside; infer_instance

theorem announcedSize {tail : List UInt8} (shape : utf8EncodeChar ch = b::tail) : announced b = ch.utf8Size := by
  have found : (b::tail).toByteArray.utf8DecodeChar? 0 = some ch := by
    have whole := ByteArray.utf8DecodeChar?_utf8EncodeChar_append (b := ByteArray.empty) (c := ch)
    rwa [ByteArray.append_empty,shape] at whole
  have present : ((b::tail).toByteArray.utf8DecodeChar? 0).isSome := by rw [found]; rfl
  have read : (b::tail).toByteArray.utf8DecodeChar 0 present = ch := by simp [ByteArray.utf8DecodeChar,found]
  have first : b.IsUTF8FirstByte := frontFirst (s := tail) (frontIff.mpr (by rw [shape]))
  have size := ByteArray.utf8Size_utf8DecodeChar (h := present)
  have nonempty := ByteArray.lt_size_of_isSome_utf8DecodeChar? present
  have byte : (b::tail).toByteArray[0] = b :=
    (List.getElem_eq_getElem_toByteArray (l := b::tail) (i := 0) (h := Nat.zero_lt_succ _)).symm
  simp only [read,byte] at size
  rw [announced,dif_pos first,size]

theorem cutsEndsInside (cuts : CutsCharacter x y) : EndsInside x := by
  obtain ⟨u,v,ch,split,begun,left,last,-⟩ := cuts
  have size : u.length + v.length = ch.utf8Size := by
    rw [← List.length_append,← split,length_utf8EncodeChar]
  have few := ch.utf8Size_le_four
  have more := List.length_pos_iff.mpr left
  obtain ⟨b,tail,rfl⟩ := List.exists_cons_of_ne_nil begun
  rw [List.length_cons] at size
  refine ⟨(b::tail).length,?_,?_⟩
  · rw [List.length_cons]
    have three : tail.length = 0 ∨ tail.length = 1 ∨ tail.length = 2 := by omega
    rcases three with none | one | two
    · simp [none]
    · simp [one]
    · simp [two]
  · rw [← List.suffix_iff_eq_drop.mp last]
    refine ⟨by rw [announcedSize split]; omega,fun a mem => ?_⟩
    exact insideNotFirst (u := [b]) (v := tail ++ v) split (List.cons_ne_nil b []) a (List.mem_append_left v mem)

theorem decodeEnded (whole : ¬ EndsInside x) (y : List UInt8) : decode (x ++ y) = decode x ++ decode y :=
  decodeAppend (mt cutsEndsInside whole)

end Utf8
