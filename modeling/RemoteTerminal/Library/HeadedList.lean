import Mathlib

/-! A list cut in front of each of its heads, and lists in which each of several items is
repeated some number of times. -/
namespace HeadedList

variable {α β γ : Type}

structure Headed (α : Type) where
  head : α
  body : List α
  deriving DecidableEq, Repr

def Headed.list (h : Headed α) : List α := h.head::h.body

def cut (isHead : α → Bool) : List α → List α × List (Headed α)
  | [] => ([],[])
  | a::rest =>
    let later := cut isHead rest
    if isHead a then ([],⟨a,later.1⟩::later.2) else (a::later.1,later.2)

theorem cutJoined (isHead : α → Bool) (l : List α) :
    (cut isHead l).1 ++ (cut isHead l).2.flatMap Headed.list = l := by
  induction l with
  | nil => rfl
  | cons a rest ih =>
    unfold cut
    split
    · rw [List.nil_append,List.flatMap_cons]
      exact congrArg (List.cons a) ih
    · exact congrArg (List.cons a) ih

structure CutAt (isHead : α → Bool) (lead : List α) (headed : List (Headed α)) : Prop where
  lead : ∀ a ∈ lead, isHead a = false
  heads : ∀ h ∈ headed, isHead h.head = true
  bodies : ∀ h ∈ headed, ∀ a ∈ h.body, isHead a = false

theorem cutAt (isHead : α → Bool) (l : List α) : CutAt isHead (cut isHead l).1 (cut isHead l).2 := by
  induction l with
  | nil => exact ⟨by simp [cut],by simp [cut],by simp [cut]⟩
  | cons a rest ih =>
    unfold cut
    split
    · rename_i head
      exact ⟨by simp,List.forall_mem_cons.mpr ⟨head,ih.heads⟩,List.forall_mem_cons.mpr ⟨ih.lead,ih.bodies⟩⟩
    · rename_i other
      exact ⟨List.forall_mem_cons.mpr ⟨Bool.eq_false_of_not_eq_true other,ih.lead⟩,ih.heads,ih.bodies⟩

theorem cutFilter {isHead keep : α → Bool} (only : ∀ a, keep a = true → isHead a = true) (l : List α) :
    l.filter keep = ((cut isHead l).2.map Headed.head).filter keep := by
  induction l with
  | nil => rfl
  | cons a rest ih =>
    unfold cut
    split
    · rw [List.map_cons,List.filter_cons,List.filter_cons,ih]
    · rename_i other
      rw [List.filter_cons_of_neg (mt (only a) other),ih]

theorem cutHeads {isHead : α → Bool} {l : List α} (all : ∀ a ∈ l, isHead a = true) :
    cut isHead l = ([],l.map fun a => ⟨a,[]⟩) := by
  induction l with
  | nil => rfl
  | cons a rest ih =>
    rw [cut,if_pos (all a List.mem_cons_self),ih fun b mem => all b (List.mem_cons_of_mem _ mem)]
    rfl

def repeated (count : γ → Nat) (item : γ → β) (gs : List γ) : List β :=
  gs.flatMap fun g => List.replicate (count g) (item g)

variable {count : γ → Nat} {item : γ → β} {wanted : γ → Option β}

theorem repeatedCons (g : γ) (rest : List γ) :
    repeated count item (g::rest) = List.replicate (count g) (item g) ++ repeated count item rest := rfl

theorem repeatedMap (f : β → α) (gs : List γ) :
    (repeated count item gs).map f = repeated count (fun g => f (item g)) gs := by
  simp only [repeated,List.map_flatMap,List.map_replicate]

theorem repeatedCongr {item' : γ → β} {gs : List γ} (same : ∀ g ∈ gs, item g = item' g) :
    repeated count item gs = repeated count item' gs :=
  List.flatMap_congr fun g mem => by rw [same g mem]

theorem repeatedLonger {gs : List γ} (enough : ∀ g ∈ gs, (wanted g).isSome → 1 ≤ count g) :
    (gs.filterMap wanted).length ≤ (repeated count item gs).length := by
  induction gs with
  | nil => exact Nat.le_refl _
  | cons g rest ih =>
    have later := ih fun g' mem => enough g' (List.mem_cons_of_mem _ mem)
    have first := enough g List.mem_cons_self
    rw [repeatedCons,List.length_append,List.length_replicate]
    cases want : wanted g with
    | none =>
      rw [List.filterMap_cons_none want]
      omega
    | some b =>
      have once := first (by rw [want]; rfl)
      rw [List.filterMap_cons_some want,List.length_cons]
      omega

theorem repeatedIff {gs : List γ} (enough : ∀ g ∈ gs, (wanted g).isSome → 1 ≤ count g) :
    repeated count item gs = gs.filterMap wanted ↔
      ∀ g ∈ gs, List.replicate (count g) (item g) = (wanted g).toList := by
  induction gs with
  | nil => simp [repeated]
  | cons g rest ih =>
    have later : ∀ g' ∈ rest, (wanted g').isSome → 1 ≤ count g' :=
      fun g' mem => enough g' (List.mem_cons_of_mem _ mem)
    have meant : (g::rest).filterMap wanted = (wanted g).toList ++ rest.filterMap wanted := by
      cases want : wanted g with
      | none => rw [List.filterMap_cons_none want]; rfl
      | some b => rw [List.filterMap_cons_some want]; rfl
    rw [repeatedCons,meant,List.forall_mem_cons,← ih later]
    constructor
    · intro same
      -- neither part is shorter than it should be, so neither is longer
      have sizes := congrArg List.length same
      have others : (rest.filterMap wanted).length ≤ (repeated count item rest).length := repeatedLonger later
      have first : (wanted g).toList.length ≤ (List.replicate (count g) (item g)).length := by
        have once := enough g List.mem_cons_self
        cases want : wanted g with
        | none => exact Nat.zero_le _
        | some b => simpa [want] using once
      rw [List.length_append,List.length_append] at sizes
      exact List.append_inj same (by omega)
    · rintro ⟨first,others⟩
      rw [first,others]

theorem repeatedNodup {place : γ → Nat} {gs : List γ} (different : (gs.map place).Nodup)
    (once : ∀ g ∈ gs, count g ≤ 1) : (repeated count place gs).Nodup := by
  refine List.Nodup.sublist ?_ different
  induction gs with
  | nil => exact List.Sublist.slnil
  | cons g rest ih =>
    have later := ih (List.nodup_cons.mp different).2 fun g' mem => once g' (List.mem_cons_of_mem _ mem)
    rw [repeatedCons,List.map_cons]
    rcases Nat.le_one_iff_eq_zero_or_eq_one.mp (once g List.mem_cons_self) with never | one
    · rw [never]
      exact later.cons _
    · rw [one]
      exact later.cons_cons _

end HeadedList
