import Mathlib

/-! Text in pieces that end in a delimiter. Cutting the text anywhere and splitting the
two halves on their own finds the same pieces exactly where no piece is cut in two. -/
namespace Delimited

variable {α : Type} {d : α} {a b l p : List α} {value : List α → Nat}

def worth (value : List α → Nat) (ps : List (List α)) : Nat := (ps.map value).sum

theorem worthAppend (ps qs : List (List α)) :
    worth value (ps ++ qs) = worth value ps + worth value qs := by simp [worth]

theorem worthCons (qs : List (List α)) : worth value (p::qs) = value p + worth value qs := by
  simp [worth]

/-- Every part that is cut off costs the piece some of its value. -/
structure Indivisible (value : List α → Nat) (p : List α) : Prop where
  positive : 0 < value p
  loses : ∀ x y, p = x ++ y → x ≠ [] → y ≠ [] → value x + value y < value p

variable [DecidableEq α]

def pieces (d : α) (l : List α) : List (List α) := (l.splitOn d).filter (· ≠ [])

theorem piecesNil : pieces d [] = [] := by simp [pieces]

theorem piecesAppend : pieces d (a ++ d::b) = pieces d a ++ pieces d b := by
  simp [pieces,List.splitOn_append_cons_self]

theorem piecesDelimiter : pieces d (d::l) = pieces d l := by
  simpa [piecesNil] using piecesAppend (d := d) (a := []) (b := l)

theorem piecesPlain (plain : d ∉ a) (nonempty : a ≠ []) : pieces d a = [a] := by
  simp [pieces,List.splitOn_eq_singleton plain,nonempty]

theorem splitMem {x : α} (piece : p ∈ l.splitOn d) (mem : x ∈ p) : x ∈ l := by
  induction l generalizing p with
  | nil =>
    cases List.mem_singleton.mp (List.splitOn_nil d ▸ piece)
    exact mem
  | cons y rest ih =>
    obtain ⟨first,others,split⟩ := List.exists_cons_of_ne_nil (List.splitOn_ne_nil d rest)
    rw [List.splitOn_cons_eq_if_modifyHead,split] at piece
    rw [split] at ih
    split at piece
    · rcases List.mem_cons.mp piece with rfl | piece
      · cases mem
      · exact List.mem_cons_of_mem _ (ih piece mem)
    · rcases List.mem_cons.mp piece with rfl | piece
      · rcases List.mem_cons.mp mem with rfl | mem
        · exact List.mem_cons_self
        · exact List.mem_cons_of_mem _ (ih List.mem_cons_self mem)
      · exact List.mem_cons_of_mem _ (ih (List.mem_cons_of_mem _ piece) mem)

theorem piecesOfDelimiters (all : ∀ x ∈ l, x = d) : pieces d l = [] := by
  induction l with
  | nil => exact piecesNil
  | cons x rest ih =>
    rw [all x List.mem_cons_self,piecesDelimiter]
    exact ih fun y mem => all y (List.mem_cons_of_mem _ mem)

def CleanCut (d : α) (a b : List α) : Prop := ∀ x ∈ a.getLast?, ∀ y ∈ b.head?, x = d ∨ y = d

instance : Decidable (CleanCut d a b) := by unfold CleanCut; infer_instance

theorem piecesCleanCut (clean : CleanCut d a b) : pieces d (a ++ b) = pieces d a ++ pieces d b := by
  rcases List.eq_nil_or_concat' a with rfl | ⟨front,x,rfl⟩
  · simp [piecesNil]
  · cases b with
    | nil => simp [piecesNil]
    | cons y back =>
      rcases clean x (by simp) y (by simp) with rfl | rfl
      · have front' : pieces x (front ++ [x]) = pieces x front := by
          simpa [piecesNil] using piecesAppend (d := x) (a := front) (b := [])
        rw [List.append_assoc,List.singleton_append,piecesAppend,front']
      · rw [piecesAppend,piecesDelimiter]

theorem lastPiece (d : α) (a : List α) :
    ∃ front x, d ∉ x ∧ (a = x ∧ front = [] ∨ a = front ++ d::x) := by
  by_cases mem : d ∈ a
  · obtain ⟨x,front,same,plain⟩ := List.eq_append_cons_of_mem (List.mem_reverse.mpr mem)
    refine ⟨front.reverse,x.reverse,by simpa using plain,.inr ?_⟩
    simpa using congrArg List.reverse same
  · exact ⟨[],a,mem,.inl ⟨rfl,rfl⟩⟩

theorem firstPiece (d : α) (b : List α) :
    ∃ y back, d ∉ y ∧ (b = y ∧ back = [] ∨ b = y ++ d::back) := by
  by_cases mem : d ∈ b
  · obtain ⟨y,back,same,plain⟩ := List.eq_append_cons_of_mem mem
    exact ⟨y,back,plain,.inr same⟩
  · exact ⟨b,[],mem,.inl ⟨rfl,rfl⟩⟩

theorem piecesBehind {front x : List α} (split : a = x ∧ front = [] ∨ a = front ++ d::x) :
    ∀ c, pieces d (a ++ c) = pieces d front ++ pieces d (x ++ c) := by
  intro c
  rcases split with ⟨rfl,rfl⟩ | rfl
  · simp [piecesNil]
  · rw [List.append_assoc,List.cons_append,piecesAppend]

theorem piecesBefore {y back : List α} (plain : d ∉ y) (nonempty : y ≠ [])
    (split : b = y ∧ back = [] ∨ b = y ++ d::back) : pieces d b = y::pieces d back := by
  rcases split with ⟨rfl,rfl⟩ | rfl
  · rw [piecesPlain plain nonempty,piecesNil]
  · rw [piecesAppend,piecesPlain plain nonempty,List.singleton_append]

theorem piecesOtherCut (cut : ¬ CleanCut d a b) : ∃ before x y after, x ≠ [] ∧ y ≠ [] ∧
    pieces d a = before ++ [x] ∧ pieces d b = y::after ∧
    pieces d (a ++ b) = before ++ (x ++ y)::after := by
  obtain ⟨front,x,plainX,splitA⟩ := lastPiece d a
  obtain ⟨y,back,plainY,splitB⟩ := firstPiece d b
  have someX : x ≠ [] := by
    rintro rfl
    rcases splitA with ⟨rfl,-⟩ | rfl <;> simp [CleanCut] at cut
  have someY : y ≠ [] := by
    rintro rfl
    rcases splitB with ⟨rfl,-⟩ | rfl <;> simp [CleanCut] at cut
  have behind := piecesBehind splitA
  refine ⟨pieces d front,x,y,pieces d back,someX,someY,?_,piecesBefore plainY someY splitB,?_⟩
  · simpa [piecesPlain plainX someX] using behind []
  · have plain : d ∉ x ++ y := by simp [plainX,plainY]
    have joined : x ++ b = (x ++ y) ∧ back = [] ∨ x ++ b = (x ++ y) ++ d::back := by
      rcases splitB with ⟨rfl,empty⟩ | rfl
      · exact .inl ⟨rfl,empty⟩
      · exact .inr (List.append_assoc _ _ _).symm
    rw [behind,piecesBefore plain (by simp [someX]) joined]

theorem worthCut (additive : ∀ x y, value x + value y ≤ value (x ++ y)) (a b : List α) :
    worth value (pieces d a) + worth value (pieces d b) ≤ worth value (pieces d (a ++ b)) := by
  by_cases clean : CleanCut d a b
  · exact Nat.le_of_eq (by rw [piecesCleanCut clean,worthAppend])
  · obtain ⟨before,x,y,after,-,-,left,right,whole⟩ := piecesOtherCut clean
    have once := additive x y
    simp only [left,right,whole,worthAppend,worthCons]
    simp only [worth,List.map_nil,List.sum_nil]
    omega

theorem worthOtherCut (all : ∀ p ∈ pieces d (a ++ b), Indivisible value p) (cut : ¬ CleanCut d a b) :
    worth value (pieces d a) + worth value (pieces d b) < worth value (pieces d (a ++ b)) := by
  obtain ⟨before,x,y,after,someX,someY,left,right,whole⟩ := piecesOtherCut cut
  have once := (all (x ++ y) (by rw [whole]; simp)).loses x y rfl someX someY
  simp only [left,right,whole,worthAppend,worthCons]
  simp only [worth,List.map_nil,List.sum_nil]
  omega

theorem piecesEmptyIff : pieces d l = [] ↔ ∀ x ∈ l, x = d := by
  constructor
  · intro empty x mem
    by_contra other
    obtain ⟨front,back,rfl⟩ := List.append_of_mem mem
    by_cases clean : CleanCut d front (x::back)
    · rw [piecesCleanCut clean] at empty
      obtain ⟨y,tail,plain,split⟩ := firstPiece d (x::back)
      have nonempty : y ≠ [] := by
        rintro rfl
        rcases split with ⟨no,-⟩ | same
        · cases no
        · exact other (List.cons.inj same).1
      rw [piecesBefore plain nonempty split] at empty
      simp at empty
    · obtain ⟨before,u,v,after,-,-,-,-,whole⟩ := piecesOtherCut clean
      rw [whole] at empty
      simp at empty
  · exact piecesOfDelimiters

theorem worthDropped (all : ∀ p ∈ pieces d (a ++ b), Indivisible value p)
    (some : ¬ ∀ x ∈ a, x = d) :
    worth value (pieces d b) < worth value (pieces d (a ++ b)) := by
  by_cases clean : CleanCut d a b
  · obtain ⟨p,rest,cons⟩ := List.exists_cons_of_ne_nil (mt piecesEmptyIff.mp some)
    have whole := piecesCleanCut clean
    have positive := (all p (by rw [whole,cons]; simp)).positive
    rw [whole,worthAppend,cons,worthCons]
    omega
  · exact Nat.lt_of_le_of_lt (Nat.le_add_left _ _) (worthOtherCut all clean)

theorem piecesDropped (all : ∀ x ∈ a, x = d) : pieces d (a ++ b) = pieces d b := by
  induction a with
  | nil => rfl
  | cons x rest ih =>
    rw [all x List.mem_cons_self,List.cons_append,piecesDelimiter]
    exact ih fun y mem => all y (List.mem_cons_of_mem _ mem)

end Delimited
