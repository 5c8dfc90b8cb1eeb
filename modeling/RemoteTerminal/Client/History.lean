import RemoteTerminal.Library.ListCursor
import RemoteTerminal.Library.PlainText
import RemoteTerminal.Library.Runs

/-! The command history of the window. `keyPressEvent` changes `commandIndex` before it uses
it for Down and after it for Up, so the index is that of the entry shown after a Down and
one less after an Up or a send. -/
namespace RemoteTerminal
open PlainText LabelledRuns

namespace FrmMain

structure CommandHistory where
  commands : List Text
  commandIndex : Int
  txtCommand : Text
  deriving DecidableEq, Repr

inductive HistoryLabel where
  | send (command : Text)
  | down
  | up
  deriving DecidableEq, Repr

/- `Connect` leaves the command field alone. -/
def newHistory (txtCommand : Text) : CommandHistory := ⟨[],-1,txtCommand⟩

def commandAt (commands : List Text) (index : Int) : Option Text :=
  if 0 ≤ index then commands[index.toNat]? else none

def recordCommand (h : CommandHistory) (command : Text) : CommandHistory :=
  let commands := h.commands ++ [command]
  ⟨commands,commands.length-1,[]⟩

def keyDown (h : CommandHistory) : Option CommandHistory :=
  let commandIndex := h.commandIndex+1
  if h.commands.length > commandIndex then
    (commandAt h.commands commandIndex).map fun txtCommand => ⟨h.commands,commandIndex,txtCommand⟩
  else some {h with commandIndex := h.commands.length-1}

def keyUp (h : CommandHistory) : Option CommandHistory :=
  if h.commandIndex ≥ 0 ∧ h.commands.length > h.commandIndex then
    (commandAt h.commands h.commandIndex).map fun txtCommand => ⟨h.commands,h.commandIndex-1,txtCommand⟩
  else some {h with commandIndex := 0}

def historyMachine : Machine CommandHistory HistoryLabel Unit where
  act h
    | .send command => some ((),recordCommand h command)
    | .down => (keyDown h).map fun next => ((),next)
    | .up => (keyUp h).map fun next => ((),next)

def moveCursor (k : ListCursor Text) (_ : CommandHistory) (l : HistoryLabel) (_ : Unit) (_ : CommandHistory) :
    ListCursor Text :=
  match l with
  | .send command => k.push command
  | .down => k.newer
  | .up => k.older

def ShowsEntry (s : CommandHistory × ListCursor Text) : Prop := ∀ a ∈ s.2.current, s.1.txtCommand = a

/- A key that changes the direction shows the same entry again, so the neighbour has to be
the same; the first Down after a send shows nothing new. -/
def KeyFits (s : CommandHistory × ListCursor Text) : HistoryLabel → Prop
  | .send _ => True
  | .up => s.1.commandIndex = s.2.position →
    s.2.position = 0 ∨ s.2.entries[s.2.position]? = s.2.entries[s.2.position-1]?
  | .down =>
    if s.2.position = s.2.entries.length then ∀ a ∈ s.2.entries.getLast?, s.1.txtCommand = a
    else s.1.commandIndex = s.2.position ∨ s.2.position+1 = s.2.entries.length ∨
      s.2.entries[s.2.position]? = s.2.entries[s.2.position+1]?
instance : (s : CommandHistory × ListCursor Text) → (l : HistoryLabel) → Decidable (KeyFits s l)
  | _,.send _ => isTrue trivial
  | _,.up => by unfold KeyFits; infer_instance
  | _,.down => by unfold KeyFits; infer_instance

structure Tracks (h : CommandHistory) (k : ListCursor Text) : Prop where
  after : k.position = k.entries.length → 0 < k.entries.length → h.commandIndex = k.position-1
  here : k.position < k.entries.length → h.commandIndex = k.position-1 ∨ h.commandIndex = k.position

structure HistoryShape (s : CommandHistory × ListCursor Text) : Prop where
  entries : s.2.entries = s.1.commands
  lower : -1 ≤ s.1.commandIndex
  tracks : ShowsEntry s → Tracks s.1 s.2

variable {h h' : CommandHistory} {k : ListCursor Text}

theorem commandInside {i : Nat} (inside : i < h.commands.length) :
    commandAt h.commands i = some h.commands[i] := by
  simp [commandAt,inside]

theorem upInside {i : Nat} (inside : i < h.commands.length) (index : h.commandIndex = i) :
    keyUp h = some ⟨h.commands,h.commandIndex-1,h.commands[i]⟩ := by
  have taken : h.commandIndex ≥ 0 ∧ (h.commands.length : Int) > h.commandIndex := by omega
  rw [keyUp,if_pos taken,index,commandInside inside]
  rfl

theorem upOutside (outside : h.commandIndex < 0 ∨ h.commands.length ≤ h.commandIndex) :
    keyUp h = some {h with commandIndex := 0} := if_neg (by omega)

theorem downInside {i : Nat} (inside : i < h.commands.length) (index : h.commandIndex+1 = i) :
    keyDown h = some ⟨h.commands,i,h.commands[i]⟩ := by
  have taken : (h.commands.length : Int) > h.commandIndex+1 := by omega
  simp only [keyDown,if_pos taken]
  rw [index,commandInside inside]
  rfl

theorem downOutside (outside : h.commands.length ≤ h.commandIndex+1) :
    keyDown h = some {h with commandIndex := h.commands.length-1} := if_neg (by omega)

theorem showsAt {commands : List Text} {index : Int} {txtCommand : Text} {p : Nat} {inRange : p ≤ commands.length}
    (inside : p < commands.length) :
    ShowsEntry (⟨commands,index,txtCommand⟩,⟨commands,p,inRange⟩) ↔ txtCommand = commands[p] := by
  simp [ShowsEntry,ListCursor.current,inside]

theorem showsNothing {commands : List Text} {index : Int} {txtCommand : Text} {p : Nat} {inRange : p ≤ commands.length}
    (outside : commands.length ≤ p) : ShowsEntry (⟨commands,index,txtCommand⟩,⟨commands,p,inRange⟩) := by
  simp [ShowsEntry,ListCursor.current,outside]

theorem shapeAt (entries : k.entries = h.commands) (inside : k.position < h.commands.length)
    (index : h.commandIndex = k.position-1 ∨ h.commandIndex = k.position) : HistoryShape (h,k) := by
  refine ⟨entries,by simp only; omega,fun _ => ⟨fun last => ?_,fun _ => index⟩⟩
  rw [entries] at last
  exact absurd last (Nat.ne_of_lt inside)

theorem upStep (shape : HistoryShape (h,k)) (shows : ShowsEntry (h,k)) (act : keyUp h = some h') :
    HistoryShape (h',k.older) ∧ (ShowsEntry (h',k.older) ↔ KeyFits (h,k) .up) := by
  obtain ⟨commands,index,txtCommand⟩ := h
  obtain ⟨entries,p,inRange⟩ := k
  obtain ⟨same,lower,tracks⟩ := shape
  obtain ⟨after,here⟩ := tracks shows
  dsimp only at same lower after here
  subst same
  by_cases filled : 0 < entries.length
  · by_cases valid : 0 ≤ index
    · obtain ⟨i,rfl⟩ := Int.eq_ofNat_of_zero_le valid
      have inside : i < entries.length := by omega
      cases act.symm.trans (upInside inside rfl)
      refine ⟨shapeAt rfl (by simp only [ListCursor.older]; omega) (by simp only [ListCursor.older]; omega),?_⟩
      have left : p-1 < entries.length := by omega
      rw [ListCursor.older,showsAt left]
      simp only [KeyFits,List.getElem?_eq_getElem left]
      by_cases behind : i = p
      · subst behind
        simp only [List.getElem?_eq_getElem inside,Option.some.injEq,true_implies]
        constructor
        · exact .inr
        · rintro (rfl | same)
          · rfl
          · exact same
      · have same : i = p-1 := by omega
        subst same
        exact iff_of_true rfl fun behind => by omega
    · cases act.symm.trans (upOutside (.inl (by simpa using valid)))
      have first : p = 0 := by omega
      subst first
      have shown := (showsAt filled).mp shows
      exact ⟨shapeAt rfl filled (.inr rfl),iff_of_true ((showsAt filled).mpr shown) fun _ => .inl rfl⟩
  · have empty : entries.length ≤ 0 := by omega
    have start : p = 0 := by omega
    subst start
    cases act.symm.trans (upOutside (by simp only; omega))
    exact ⟨⟨rfl,show (-1 : Int) ≤ 0 by decide,
        fun _ => ⟨fun _ some_ => (filled some_).elim,fun some_ => (filled some_).elim⟩⟩,
      iff_of_true (showsNothing empty) fun _ => .inl rfl⟩

theorem downStep (shape : HistoryShape (h,k)) (shows : ShowsEntry (h,k)) (act : keyDown h = some h') :
    HistoryShape (h',k.newer) ∧ (ShowsEntry (h',k.newer) ↔ KeyFits (h,k) .down) := by
  obtain ⟨commands,index,txtCommand⟩ := h
  obtain ⟨entries,p,inRange⟩ := k
  obtain ⟨same,lower,tracks⟩ := shape
  obtain ⟨after,here⟩ := tracks shows
  dsimp only at same lower after here
  subst same
  by_cases last : p = entries.length
  · -- after a send, or before the first
    subst last
    have outside : entries.length ≤ index+1 := by omega
    cases act.symm.trans (downOutside outside)
    obtain ⟨place,entry⟩ := ListCursor.newerLast (k := ⟨entries,entries.length,inRange⟩) (Nat.le_succ _)
    refine ⟨?_,by simp only [ShowsEntry,entry,KeyFits,if_true]⟩
    by_cases filled : 0 < entries.length
    · exact shapeAt rfl (by rw [place]; simp only; omega) (.inr (by rw [place]; simp only; omega))
    · have empty : entries.length = 0 := by omega
      refine ⟨rfl,by simp only; omega,fun _ => ⟨fun _ some_ => (filled some_).elim,fun some_ => ?_⟩⟩
      exact absurd some_ (by rw [place]; simp only [ListCursor.newer]; omega)
  · have inside : p < entries.length := by omega
    have shown := (showsAt inside).mp shows
    by_cases newest : p+1 = entries.length
    · -- either way the newest entry is shown
      have next : h' = ⟨entries,p,txtCommand⟩ := by
        rcases here inside with before | at_
        · cases act.symm.trans (downInside inside (by simp only; omega))
          rw [shown]
        · cases act.symm.trans (downOutside (by simp only; omega))
          simp only [CommandHistory.mk.injEq,true_and,and_true]
          omega
      subst next
      obtain ⟨place,entry⟩ := ListCursor.newerLast (k := ⟨entries,p,inRange⟩) (by simp only; omega)
      have index : entries.length-1 = p := by omega
      have current : entries.getLast? = some entries[p] := by
        rw [List.getLast?_eq_getElem?,index,List.getElem?_eq_getElem inside]
      refine ⟨shapeAt rfl (by rw [place]; simp only; omega) (.inr (by rw [place]; simp only; omega)),?_⟩
      simp only [ShowsEntry,entry,current,KeyFits,if_neg last]
      exact iff_of_true (fun _ same => shown.trans (Option.some.inj same)) (.inr (.inl newest))
    · have more : p+1 < entries.length := by omega
      obtain ⟨place,entry⟩ := ListCursor.newerInside (k := ⟨entries,p,inRange⟩) more
      rcases here inside with before | at_
      · cases act.symm.trans (downInside inside (by simp only; omega))
        refine ⟨shapeAt rfl (by rw [place]; exact more) (.inl (by rw [place]; simp only; omega)),?_⟩
        have differ : index ≠ p := by omega
        simp [ShowsEntry,entry,KeyFits,last,newest,differ,inside,more]
      · cases act.symm.trans (downInside more (by simp only; omega))
        refine ⟨shapeAt rfl (by rw [place]; exact more) (.inr (by rw [place])),?_⟩
        simp [ShowsEntry,entry,KeyFits,last,at_,more]

theorem sendStep (shape : HistoryShape (h,k)) (command : Text) :
    HistoryShape (recordCommand h command,k.push command) ∧ ShowsEntry (recordCommand h command,k.push command) := by
  have entries : (k.push command).entries = (recordCommand h command).commands :=
    congrArg (fun l => l ++ [command]) shape.entries
  refine ⟨⟨entries,?_,fun _ => ⟨fun _ _ => ?_,fun inside => absurd inside (Nat.lt_irrefl _)⟩⟩,?_⟩
  · simp only [recordCommand,List.length_append,List.length_singleton]
    omega
  · simp only [recordCommand,ListCursor.push]
    rw [show k.entries = h.commands from shape.entries]
  · simp [ShowsEntry,ListCursor.pushCurrent]

theorem historyStep {s s' : CommandHistory × ListCursor Text} {l : HistoryLabel} {seen : Unit}
    (shape : HistoryShape s) (shows : ShowsEntry s)
    (act : (watch historyMachine moveCursor).act s l = some (seen,s')) :
    HistoryShape s' ∧ (ShowsEntry s' ↔ KeyFits s l) := by
  obtain ⟨made,moved⟩ := watchAct act
  obtain ⟨h,k⟩ := s
  obtain ⟨h',k'⟩ := s'
  cases moved
  cases l with
  | send command =>
    cases made
    obtain ⟨after,shown⟩ := sendStep shape command
    exact ⟨after,iff_of_true shown trivial⟩
  | down =>
    obtain ⟨next,key,same⟩ := Option.map_eq_some_iff.mp made
    cases same
    exact downStep shape shows key
  | up =>
    obtain ⟨next,key,same⟩ := Option.map_eq_some_iff.mp made
    cases same
    exact upStep shape shows key

theorem historyMoves {s : CommandHistory × ListCursor Text} (l : HistoryLabel) (lower : -1 ≤ s.1.commandIndex) :
    ∃ seen t, (watch historyMachine moveCursor).act s l = some (seen,t) ∧ -1 ≤ t.1.commandIndex := by
  obtain ⟨h,k⟩ := s
  dsimp only at lower
  cases l with
  | send command => exact ⟨(),_,rfl,by simp only [recordCommand]; omega⟩
  | down =>
    by_cases inside : h.commandIndex+1 < h.commands.length
    · obtain ⟨i,index⟩ := Int.eq_ofNat_of_zero_le (show 0 ≤ h.commandIndex+1 by omega)
      have key := downInside (show i < h.commands.length by omega) index
      exact ⟨(),_,by simp only [watch,historyMachine,key]; rfl,by simp only; omega⟩
    · have key := downOutside (show h.commands.length ≤ h.commandIndex+1 by omega)
      exact ⟨(),_,by simp only [watch,historyMachine,key]; rfl,by simp only; omega⟩
  | up =>
    by_cases inside : 0 ≤ h.commandIndex ∧ h.commandIndex < h.commands.length
    · obtain ⟨i,index⟩ := Int.eq_ofNat_of_zero_le inside.1
      have key := upInside (show i < h.commands.length by omega) index
      exact ⟨(),_,by simp only [watch,historyMachine,key]; rfl,by simp only; omega⟩
    · have key := upOutside (show h.commandIndex < 0 ∨ h.commands.length ≤ h.commandIndex by omega)
      exact ⟨(),_,by simp only [watch,historyMachine,key]; rfl,show (-1 : Int) ≤ 0 by decide⟩

/-- Over any sequence of sends and keys the field shows what the cursor model prescribes
exactly if no key changes the direction between two different entries and no Down follows a
send that was not empty. -/
theorem historyFollowsCursorIff (txtCommand : Text) (labels : List HistoryLabel) :
    (∃ t, run (watch historyMachine moveCursor) free (newHistory txtCommand,ListCursor.empty) labels = some t) ∧
    (HoldsAlong (watch historyMachine moveCursor) ShowsEntry (newHistory txtCommand,ListCursor.empty) labels ↔
      MeetsAlong (watch historyMachine moveCursor) KeyFits (newHistory txtCommand,ListCursor.empty) labels) := by
  have lower : -1 ≤ (newHistory txtCommand).commandIndex := Int.le_refl _
  have shape : HistoryShape (newHistory txtCommand,ListCursor.empty) :=
    ⟨rfl,lower,fun _ => ⟨fun _ some_ => (Nat.lt_irrefl 0 some_).elim,fun some_ => (Nat.lt_irrefl 0 some_).elim⟩⟩
  have shows : ShowsEntry (newHistory txtCommand,ListCursor.empty) := nofun
  let valid (s : CommandHistory × ListCursor Text) : Prop := -1 ≤ s.1.commandIndex
  have start : valid (newHistory txtCommand,ListCursor.empty) := lower
  obtain ⟨t,ran,-⟩ := runsEvery historyMoves labels start
  exact ⟨⟨t,ran⟩,holdsAlongIff (fun shape shows _ act => historyStep shape shows act)
    (fun _ _ => trivial) shape shows⟩

theorem downAfterUp : ∃ t, run (watch historyMachine moveCursor) free (newHistory [],ListCursor.empty)
    [.send (text "a"),.send (text "b"),.send (text "c"),.up,.up,.down] = some t ∧
    t.2.current = some (text "c") ∧ t.1.txtCommand = text "b" ∧ ¬ ShowsEntry t := by
  refine ⟨_,rfl,rfl,rfl,fun shows => ?_⟩
  have same := shows (text "c") rfl
  revert same
  decide

end FrmMain
end RemoteTerminal
