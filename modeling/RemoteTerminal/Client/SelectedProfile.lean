import RemoteTerminal.Client.ProfileForm
import RemoteTerminal.Library.ComboBox

/-! The selected profile in the window `frmMain`. `LoadSelectedProfile` is the slot of the
box `cboSelectedProfile`: it runs while `LoadStoredProfiles` fills the box and when it sets
the index. -/
namespace RemoteTerminal
open PlainText FrmProfileManager ComboBox

namespace FrmMain

structure ConnectFields where
  txtIPHost : Text
  txtPassword : Text
  txtPort : Text
  deriving DecidableEq, Repr

structure ProfileBox where
  storedProfiles : List Profile
  cboSelectedProfile : ComboBox Text
  fields : ConnectFields
  deriving DecidableEq, Repr

def itemText (items : List Text) (index : Int) : Text := (item items index).getD []

def profileAt (storedProfiles : List Profile) (index : Int) : Option Profile :=
  if 0 ≤ index then storedProfiles[index.toNat]? else none

def clearSelectedProfile : ConnectFields := ⟨[],[],[]⟩

def portText (p : Profile) : Text := if p.profileTCPPort ≠ 0 then number p.profileTCPPort.toInt else []

/- The port field takes five characters. -/
def setFields (p : Profile) : ConnectFields := ⟨p.profileIPAddress,p.profilePassword,(portText p).take 5⟩

def loadSelectedProfile (storedProfiles : List Profile) (items : List Text) (index : Int) (fields : ConnectFields) :
    Option ConnectFields :=
  if index ≠ -1 then
    if itemText items index ≠ text "None" then (profileAt storedProfiles index).map setFields
    else some clearSelectedProfile
  else some fields

def addProfiles (slot : List Text → Int → ConnectFields → Option ConnectFields) :
    List Profile → Nat → Int → ComboBox Text → ConnectFields → Option (Int × ComboBox Text × ConnectFields)
  | [],_,defaultIndex,box,fields => some (defaultIndex,box,fields)
  | p::rest,i,defaultIndex,box,fields => do
    let (box,fields) ← addItem slot (rowText p) box fields
    addProfiles slot rest (i+1) (if p.profileAsDefault then i else defaultIndex) box fields

/- `storedProfiles` is what `GetProfiles` returned. -/
def loadStoredProfiles (storedProfiles : List Profile) (lastProfileIndex : Int) (form : ProfileBox) :
    Option ProfileBox := do
  let slot := loadSelectedProfile storedProfiles
  let (box,fields) ← clear slot form.cboSelectedProfile form.fields
  let (defaultIndex,box,fields) ← addProfiles slot storedProfiles 0 (-1) box fields
  let (box,fields) ← addItem slot (text "None") box fields
  let (box,fields) ← setCurrentIndex slot (if defaultIndex ≠ -1 then defaultIndex else lastProfileIndex) box fields
  let fields ← if itemText box.items box.currentIndex ≠ text "None" then slot box.items defaultIndex fields
    else some fields
  some ⟨storedProfiles,box,fields⟩

def defaultIndex (storedProfiles : List Profile) : Option Nat :=
  match storedProfiles with
  | [] => none
  | p::rest => match defaultIndex rest with
    | some i => some (i+1)
    | none => if p.profileAsDefault then some 0 else none

def wantedIndex (storedProfiles : List Profile) (lastProfileIndex : Int) : Int :=
  ((defaultIndex storedProfiles).map Int.ofNat).getD lastProfileIndex

def offers (storedProfiles : List Profile) (index : Int) : Prop := 0 ≤ index ∧ index ≤ storedProfiles.length
instance (storedProfiles index) : Decidable (offers storedProfiles index) := by unfold offers; infer_instance

def boxItems (storedProfiles : List Profile) : List Text := storedProfiles.map rowText ++ [text "None"]

def entryFields (storedProfiles : List Profile) (index : Int) : ConnectFields :=
  match profileAt storedProfiles index with
  | some p => if rowText p ≠ text "None" then setFields p else clearSelectedProfile
  | none => clearSelectedProfile

def NoneNamedNone (storedProfiles : List Profile) : Prop := ∀ p ∈ storedProfiles, p.profileName ≠ text "None"
instance (storedProfiles) : Decidable (NoneNamedNone storedProfiles) := by unfold NoneNamedNone; infer_instance

variable {storedProfiles : List Profile} {index lastProfileIndex : Int} {fields : ConnectFields} {p : Profile}

theorem rowOther (unnamed : p.profileName ≠ text "None") : rowText p ≠ text "None" := by
  unfold rowText
  split
  · intro same
    have long := congrArg List.length same
    have lengths : (text " (Default)").length = 10 ∧ (text "None").length = 4 := by decide
    rw [List.length_append] at long
    omega
  · exact unnamed

theorem profileMem (found : profileAt storedProfiles index = some p) : p ∈ storedProfiles := by
  unfold profileAt at found
  split at found
  · exact List.mem_of_getElem? found
  · nomatch found

theorem profileInside {i : Nat} (inside : i < storedProfiles.length) :
    profileAt storedProfiles i = some storedProfiles[i] := by
  simp [profileAt,inside]

theorem loadUnselected (items : List Text) : loadSelectedProfile storedProfiles items (-1) fields = some fields := rfl

theorem rowOf {i : Nat} (inside : i < storedProfiles.length) :
    itemText (boxItems storedProfiles) i = rowText storedProfiles[i] := by
  have row : (boxItems storedProfiles)[i]? = some (rowText storedProfiles[i]) := by
    rw [boxItems,List.getElem?_append_left (by simpa using inside)]
    simp [inside]
  simp [itemText,item,row]

theorem noneAfter : itemText (boxItems storedProfiles) storedProfiles.length = text "None" := by
  simp [itemText,item,boxItems]

theorem loadEntry (offered : offers storedProfiles index) :
    loadSelectedProfile storedProfiles (boxItems storedProfiles) index fields =
      some (entryFields storedProfiles index) := by
  obtain ⟨i,rfl⟩ := Int.eq_ofNat_of_zero_le offered.1
  have selected : (i : Int) ≠ -1 := by omega
  rw [loadSelectedProfile,if_pos selected,entryFields]
  by_cases inside : i < storedProfiles.length
  · rw [rowOf inside,profileInside inside]
    exact (apply_ite some _ _ _).symm
  · have last : i = storedProfiles.length := by
      have bound := offered.2
      omega
    subst last
    rw [noneAfter,if_neg (not_not_intro rfl)]
    simp [profileAt]

theorem loadFirst (p : Profile) (rest : List Profile) :
    loadSelectedProfile (p::rest) [rowText p] 0 fields = some (entryFields (p::rest) 0) := by
  have row : itemText [rowText p] 0 = rowText p := rfl
  rw [loadSelectedProfile,if_pos (by decide),row]
  exact (apply_ite some _ _ _).symm

theorem addMore {slot : List Text → Int → ConnectFields → Option ConnectFields} {items : List Text} (filled : items ≠ [])
    (i : Nat) (default_ : Int) : addProfiles slot storedProfiles i default_ ⟨items,index⟩ fields =
      some (((defaultIndex storedProfiles).map fun j => ((i+j : Nat) : Int)).getD default_,
        ⟨items ++ storedProfiles.map rowText,index⟩,fields) := by
  induction storedProfiles generalizing items i default_ with
  | nil => simp [addProfiles,defaultIndex]
  | cons p rest ih =>
    have grown : items ++ [rowText p] ≠ [] := by simp
    simp only [addProfiles,addLater filled,bind,Option.bind,ih grown,defaultIndex]
    cases later : defaultIndex rest with
    | some j => simp [Nat.add_comm,Nat.add_left_comm]
    | none => by_cases isDefault : p.profileAsDefault = true <;> simp [isDefault]

theorem defaultInside {i : Nat} (found : defaultIndex storedProfiles = some i) : i < storedProfiles.length := by
  induction storedProfiles generalizing i with
  | nil => nomatch found
  | cons p rest ih =>
    rw [List.length_cons]
    unfold defaultIndex at found
    split at found
    · rename_i j later
      cases found
      exact Nat.succ_lt_succ (ih later)
    · split at found <;> cases found
      exact Nat.succ_pos _

/- When the box is filled the slot has run once, for the first entry. -/
theorem boxFilled (storedProfiles : List Profile) (fields : ConnectFields) : ∃ box later,
    addProfiles (loadSelectedProfile storedProfiles) storedProfiles 0 (-1) ⟨[],-1⟩ fields =
      some (((defaultIndex storedProfiles).map Int.ofNat).getD (-1),box,later) ∧
    addItem (loadSelectedProfile storedProfiles) (text "None") box later =
      some (⟨boxItems storedProfiles,0⟩,entryFields storedProfiles 0) := by
  cases storedProfiles with
  | nil => exact ⟨_,_,rfl,rfl⟩
  | cons p rest =>
    have first : loadSelectedProfile (p::rest) [rowText p] 0 fields = _ := loadFirst p rest
    have grown : rowText p::rest.map rowText ≠ [] := List.cons_ne_nil _ _
    refine ⟨⟨rowText p::rest.map rowText,0⟩,entryFields (p::rest) 0,?_,addLater grown⟩
    simp only [addProfiles,addFirst first,bind,Option.bind,
      addMore (List.cons_ne_nil (rowText p) []),defaultIndex]
    cases later : defaultIndex rest with
    | some j => simp [Nat.add_comm]
    | none => by_cases isDefault : p.profileAsDefault = true <;> simp [isDefault]

def selectedIndex (storedProfiles : List Profile) (lastProfileIndex : Int) : Int :=
  let wanted := wantedIndex storedProfiles lastProfileIndex
  if offers storedProfiles wanted then wanted else -1

def filledIndex (storedProfiles : List Profile) (lastProfileIndex : Int) : Int :=
  let wanted := wantedIndex storedProfiles lastProfileIndex
  if offers storedProfiles wanted then wanted else 0

theorem entrySet (storedProfiles : List Profile) (lastProfileIndex : Int) :
    setCurrentIndex (loadSelectedProfile storedProfiles) (wantedIndex storedProfiles lastProfileIndex)
        ⟨boxItems storedProfiles,0⟩ (entryFields storedProfiles 0) =
      some (⟨boxItems storedProfiles,selectedIndex storedProfiles lastProfileIndex⟩,
        entryFields storedProfiles (filledIndex storedProfiles lastProfileIndex)) := by
  have range : (0 ≤ wantedIndex storedProfiles lastProfileIndex ∧
      wantedIndex storedProfiles lastProfileIndex < (boxItems storedProfiles).length) ↔
      offers storedProfiles (wantedIndex storedProfiles lastProfileIndex) := by
    simp only [offers,boxItems,List.length_append,List.length_map,List.length_singleton]
    omega
  unfold setCurrentIndex selectedIndex filledIndex
  simp only [range]
  by_cases offered : offers storedProfiles (wantedIndex storedProfiles lastProfileIndex)
  · simp only [if_pos offered]
    by_cases first : wantedIndex storedProfiles lastProfileIndex = 0
    · rw [first]
      rfl
    · exact moveRuns first (loadEntry offered)
  · simp only [if_neg offered]
    exact moveRuns (show (-1 : Int) ≠ 0 by decide) (loadUnselected _)

theorem loadAgain (storedProfiles : List Profile) (lastProfileIndex : Int) :
    loadSelectedProfile storedProfiles (boxItems storedProfiles)
        (((defaultIndex storedProfiles).map Int.ofNat).getD (-1))
        (entryFields storedProfiles (filledIndex storedProfiles lastProfileIndex)) =
      some (entryFields storedProfiles (filledIndex storedProfiles lastProfileIndex)) := by
  cases found : defaultIndex storedProfiles with
  | none => rfl
  | some i =>
    have offered : offers storedProfiles i := ⟨by omega,by have := defaultInside found; omega⟩
    have filled : filledIndex storedProfiles lastProfileIndex = i := by
      simp [filledIndex,wantedIndex,found,offered]
    rw [filled]
    exact loadEntry offered

theorem storedProfilesLoaded (storedProfiles : List Profile) (lastProfileIndex : Int) (form : ProfileBox) :
    loadStoredProfiles storedProfiles lastProfileIndex form =
      some ⟨storedProfiles,⟨boxItems storedProfiles,selectedIndex storedProfiles lastProfileIndex⟩,
        entryFields storedProfiles (filledIndex storedProfiles lastProfileIndex)⟩ := by
  have quiet : ∀ items, loadSelectedProfile storedProfiles items (-1) form.fields = some form.fields :=
    fun _ => loadUnselected _
  have cleared : clear (loadSelectedProfile storedProfiles) form.cboSelectedProfile form.fields = _ :=
    clearQuiet quiet
  obtain ⟨box,later,added,filled⟩ := boxFilled storedProfiles form.fields
  have wanted : (if ((defaultIndex storedProfiles).map Int.ofNat).getD (-1) ≠ -1 then
      ((defaultIndex storedProfiles).map Int.ofNat).getD (-1) else lastProfileIndex) =
      wantedIndex storedProfiles lastProfileIndex := by
    unfold wantedIndex
    cases defaultIndex storedProfiles <;> simp
  simp only [loadStoredProfiles,cleared,added,filled,wanted,entrySet,loadAgain,bind,Option.bind,ite_self]

def profileData (p : Profile) : ConnectFields := ⟨p.profileIPAddress,p.profilePassword,portText p⟩

def currentData (form : ProfileBox) : ConnectFields :=
  ((profileAt form.storedProfiles form.cboSelectedProfile.currentIndex).map profileData).getD clearSelectedProfile

def FieldsMatch (form : ProfileBox) : Prop := form.fields = currentData form
instance (form) : Decidable (FieldsMatch form) := by unfold FieldsMatch; infer_instance

def chosenProfile (storedProfiles : List Profile) (lastProfileIndex : Int) : Option Profile :=
  (storedProfiles.reverse.find? fun p => p.profileAsDefault).or (profileAt storedProfiles lastProfileIndex)

/- An entry is selected, or the first profile is blank. The second part is about ports that
are no TCP ports. -/
structure SelectsEntry (storedProfiles : List Profile) (lastProfileIndex : Int) : Prop where
  selects : (∃ p ∈ storedProfiles, p.profileAsDefault = true) ∨ offers storedProfiles lastProfileIndex ∨
    ∀ p ∈ storedProfiles.head?, profileData p = clearSelectedProfile
  fits : ∀ p ∈ chosenProfile storedProfiles lastProfileIndex, (portText p).length ≤ 5

theorem defaultFound (storedProfiles : List Profile) : storedProfiles.reverse.find? (fun p => p.profileAsDefault) =
    (defaultIndex storedProfiles).bind fun i => storedProfiles[i]? := by
  induction storedProfiles with
  | nil => rfl
  | cons p rest ih =>
    rw [List.reverse_cons,List.find?_append,ih,defaultIndex]
    cases later : defaultIndex rest with
    | some i =>
      have inside := defaultInside later
      simp [inside]
    | none => by_cases isDefault : p.profileAsDefault = true <;> simp [isDefault]

theorem defaultExists : (∃ p ∈ storedProfiles, p.profileAsDefault = true) ↔ (defaultIndex storedProfiles).isSome := by
  have found := defaultFound storedProfiles
  cases index : defaultIndex storedProfiles with
  | none =>
    rw [index,Option.bind_none,List.find?_eq_none] at found
    simpa using found
  | some i =>
    rw [index,Option.bind_some,List.getElem?_eq_getElem (defaultInside index)] at found
    have mem := List.mem_of_find?_eq_some found
    exact iff_of_true ⟨_,List.mem_reverse.mp mem,List.find?_some found⟩ rfl

theorem chosenWanted : chosenProfile storedProfiles lastProfileIndex =
    profileAt storedProfiles (wantedIndex storedProfiles lastProfileIndex) := by
  unfold chosenProfile wantedIndex
  rw [defaultFound]
  cases found : defaultIndex storedProfiles with
  | none => rfl
  | some i =>
    have inside := defaultInside found
    simp [profileAt,inside]

theorem wantedOffered : offers storedProfiles (wantedIndex storedProfiles lastProfileIndex) ↔
    (∃ p ∈ storedProfiles, p.profileAsDefault = true) ∨ offers storedProfiles lastProfileIndex := by
  rw [defaultExists]
  unfold wantedIndex
  cases found : defaultIndex storedProfiles with
  | none => simp
  | some i =>
    have inside := defaultInside found
    exact iff_of_true ⟨by simp,by simp; omega⟩ (.inl rfl)

theorem fieldsFit : setFields p = profileData p ↔ (portText p).length ≤ 5 := by
  simp [setFields,profileData,List.take_eq_self_iff]

theorem fieldsBlank : setFields p = clearSelectedProfile ↔ profileData p = clearSelectedProfile := by
  simp [setFields,profileData,clearSelectedProfile]

theorem profileOutside (outside : ¬ offers storedProfiles index) : profileAt storedProfiles index = none := by
  unfold profileAt
  split
  · rename_i valid
    refine List.getElem?_eq_none (Nat.le_of_not_lt fun inside => outside ⟨valid,?_⟩)
    omega
  · rfl

/-- The fields match the current entry exactly if an entry was selected or the first profile
is blank, and the port of the selected profile fits its field. -/
theorem fieldsMatchIff (unnamed : NoneNamedNone storedProfiles) (lastProfileIndex : Int) (form : ProfileBox) :
    ∃ after, loadStoredProfiles storedProfiles lastProfileIndex form = some after ∧
      (FieldsMatch after ↔ SelectsEntry storedProfiles lastProfileIndex) := by
  refine ⟨_,storedProfilesLoaded storedProfiles lastProfileIndex form,?_⟩
  have entry : ∀ index, entryFields storedProfiles index =
      ((profileAt storedProfiles index).map setFields).getD clearSelectedProfile := by
    intro index
    unfold entryFields
    split
    · rename_i p found
      rw [found,if_pos (rowOther (unnamed p (profileMem found)))]
      rfl
    · rename_i missing
      rw [missing]
      rfl
  unfold FieldsMatch currentData selectedIndex filledIndex
  rw [entry]
  by_cases offered : offers storedProfiles (wantedIndex storedProfiles lastProfileIndex)
  · have selects := wantedOffered.mp offered
    simp only [if_pos offered]
    have fits : SelectsEntry storedProfiles lastProfileIndex ↔
        ∀ p ∈ profileAt storedProfiles (wantedIndex storedProfiles lastProfileIndex), (portText p).length ≤ 5 := by
      rw [← chosenWanted]
      exact ⟨fun condition => condition.fits,fun fits => ⟨or_assoc.mp (.inl selects),fits⟩⟩
    rw [fits]
    cases found : profileAt storedProfiles (wantedIndex storedProfiles lastProfileIndex) with
    | none => simp
    | some p => simp [fieldsFit]
  · have unselected : ¬ offers storedProfiles (-1) := fun range => absurd range.1 (by decide)
    have first : profileAt storedProfiles 0 = storedProfiles.head? := List.head?_eq_getElem?.symm
    have blank : SelectsEntry storedProfiles lastProfileIndex ↔
        ∀ p ∈ storedProfiles.head?, profileData p = clearSelectedProfile := by
      constructor
      · rintro ⟨isDefault | range | blank,-⟩
        · exact (offered (wantedOffered.mpr (.inl isDefault))).elim
        · exact (offered (wantedOffered.mpr (.inr range))).elim
        · exact blank
      · intro blank
        refine ⟨.inr (.inr blank),?_⟩
        rw [chosenWanted,profileOutside offered]
        exact nofun
    simp only [if_neg offered,profileOutside unselected,first,blank]
    cases storedProfiles.head? with
    | none => simp
    | some p => simp [fieldsBlank]

def officeProfile : Profile := ⟨text "Office",text "10.0.0.2",text "pw",22,false⟩

def setupBox : ProfileBox := ⟨[],⟨[],-1⟩,⟨text "127.0.0.1",[],text "6001"⟩⟩

theorem defaultSelected : ∃ after, loadStoredProfiles [officeProfile,homeProfile] (-1) setupBox = some after ∧
    FieldsMatch after := by
  have unnamed : NoneNamedNone [officeProfile,homeProfile] := by decide
  obtain ⟨after,loads,shown⟩ := fieldsMatchIff unnamed (-1) setupBox
  exact ⟨after,loads,shown.mpr ⟨by decide,by decide⟩⟩

theorem firstProfileStays : ∃ after, loadStoredProfiles [officeProfile] (-1) setupBox = some after ∧
    after.cboSelectedProfile.currentIndex = -1 ∧ after.fields = profileData officeProfile ∧ ¬ FieldsMatch after :=
  ⟨_,rfl,by decide,by decide,by decide⟩

end FrmMain
end RemoteTerminal
