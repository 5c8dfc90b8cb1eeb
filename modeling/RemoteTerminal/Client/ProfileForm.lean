import RemoteTerminal.Client.Profiles
import RemoteTerminal.Server.Receive
import RemoteTerminal.Library.ListEditor

/-! The profile manager `frmProfileManager`. It keeps the vector of profiles, the rows of its
list and `Profiles.xml` in step by reading everything again after each change, and moves
`selectedProfileIndex` by hand. An access out of range has no result. -/
namespace RemoteTerminal
open PlainText CryptoObject ProfileManager

namespace FrmProfileManager

structure Fields where
  txtProfileName : Text
  txtProfileIPAddress : Text
  txtProfilePassword : Text
  txtProfilePort : Text
  chkSetDefaultProfile : Bool
  deriving DecidableEq, Repr

/- `enabled` is what the text fields and the buttons Save and Delete share. -/
structure Form where
  storedProfiles : StoredProfiles
  lstStoredProfiles : List Text
  selectedProfileIndex : Int
  fields : Fields
  enabled : Bool
  chkSetDefaultProfileEnabled : Bool
  file : Option Text
  invalidKey : Bool
  deriving DecidableEq, Repr

inductive Input where
  | addNewProfile
  | deleteProfile
  | saveProfile (fields : Fields)
  | selectRow (row : Nat)
  deriving DecidableEq, Repr

def pointerAt (s : StoredProfiles) (index : Int) : Option Nat :=
  if 0 ≤ index then s.pointers[index.toNat]? else none

def item (rows : List Text) (index : Int) : Option Text := if 0 ≤ index then rows[index.toNat]? else none

def rowText (p : Profile) : Text :=
  if p.profileAsDefault then p.profileName ++ text " (Default)" else p.profileName

def isDefaultProfileSelected (s : StoredProfiles) : Bool := s.values.any fun p => p.profileAsDefault

/- The name field takes 25 characters. -/
def loadedFields (p : Profile) : Fields where
  txtProfileName := p.profileName.take 25
  txtProfileIPAddress := p.profileIPAddress
  txtProfilePassword := p.profilePassword
  txtProfilePort := if p.profileTCPPort ≠ 0 then number p.profileTCPPort.toInt else []
  chkSetDefaultProfile := p.profileAsDefault

def emptyFields : Fields := ⟨[],[],[],[],false⟩

def disableProfileFields (form : Form) : Form :=
  {form with fields := emptyFields,enabled := false,chkSetDefaultProfileEnabled := false}

def loadProfile (index : Int) (form : Form) : Option Form := do
  let pointer ← pointerAt form.storedProfiles index
  let currentProfile ← form.storedProfiles.heap[pointer]?
  some {form with
    fields := loadedFields currentProfile
    enabled := true
    chkSetDefaultProfileEnabled :=
      currentProfile.profileAsDefault || !isDefaultProfileSelected form.storedProfiles
    selectedProfileIndex := index}

def newProfileName (count : Nat) : Text := text "New Profile " ++ number (count+1)

section
variable (qt : Qt) (c : Crypto) (memory : Nat → Int32 × Bool)

def loadProfiles (form : Form) : Form :=
  let loaded := getProfiles qt c memory form.invalidKey form.file
  {form with
    storedProfiles := loaded.1
    lstStoredProfiles := loaded.1.values.map rowText
    invalidKey := loaded.2}

def saveStored (form : Form) : Form :=
  {form with file := (saveProfiles qt c .success form.file form.storedProfiles.values).2}

def addNewProfile (form : Form) : Option Form := do
  let name := newProfileName form.lstStoredProfiles.length
  let stored := form.storedProfiles
  let form := {form with storedProfiles :=
    ⟨stored.heap ++ [⟨name,[],[],0,false⟩],stored.pointers ++ [stored.heap.length]⟩}
  let form := loadProfiles qt c memory (saveStored qt c form)
  if form.selectedProfileIndex ≠ -1 then
    let _ ← item form.lstStoredProfiles form.selectedProfileIndex
    loadProfile form.selectedProfileIndex form
  else some form

def deleteProfile (form : Form) : Option Form := do
  let _ ← pointerAt form.storedProfiles form.selectedProfileIndex
  let form := {form with storedProfiles.pointers :=
    form.storedProfiles.pointers.eraseIdx form.selectedProfileIndex.toNat}
  let form := loadProfiles qt c memory (disableProfileFields (saveStored qt c form))
  if form.lstStoredProfiles.length > 0 then
    let index := if form.selectedProfileIndex ≠ 0 then form.selectedProfileIndex-1 else 0
    let _ ← item form.lstStoredProfiles index
    loadProfile index form
  else some form

def saveProfile (form : Form) : Option Form := do
  let pointer ← pointerAt form.storedProfiles form.selectedProfileIndex
  let currentProfile ← form.storedProfiles.heap[pointer]?
  let name := form.fields.txtProfileName
  let saved := {currentProfile with
    profileName := if name ≠ text "None" then name else currentProfile.profileName
    profileIPAddress := form.fields.txtProfileIPAddress
    profilePassword := form.fields.txtProfilePassword
    profileTCPPort := qt.toInt form.fields.txtProfilePort
    profileAsDefault := form.fields.chkSetDefaultProfile}
  let form := {form with storedProfiles.heap := form.storedProfiles.heap.set pointer saved}
  let form := loadProfiles qt c memory (disableProfileFields (saveStored qt c form))
  let form ← loadProfile form.selectedProfileIndex form
  let _ ← item form.lstStoredProfiles form.selectedProfileIndex
  some form

def frmProfileManager (invalidKey : Bool) (file : Option Text) : Option Form := do
  let form := loadProfiles qt c memory ⟨⟨[],[]⟩,[],-1,emptyFields,false,false,file,invalidKey⟩
  if form.lstStoredProfiles.length > 0 then
    let _ ← item form.lstStoredProfiles 0
    loadProfile 0 form
  else some form

/- Disabled buttons and rows that are not there do nothing. -/
def input (form : Form) : Input → Option Form
  | .addNewProfile => addNewProfile qt c memory form
  | .deleteProfile => if form.enabled then deleteProfile qt c memory form else some form
  | .saveProfile fields => if form.enabled then saveProfile qt c memory {form with fields} else some form
  | .selectRow row => if row < form.lstStoredProfiles.length then loadProfile row form else some form

end

theorem pointerFresh {profiles : List Profile} {i : Nat} (inside : i < profiles.length) :
    pointerAt (.fresh profiles) i = some i := by
  simp [pointerAt,StoredProfiles.fresh,inside]

theorem itemInside {rows : List Text} {i : Nat} (inside : i < rows.length) : item rows i = some rows[i] := by
  simp [item,inside]

theorem loadFresh {form : Form} {profiles : List Profile} {i : Nat} (inside : i < profiles.length)
    (stored : form.storedProfiles = .fresh profiles) : loadProfile i form =
      some {form with
        fields := loadedFields profiles[i]
        enabled := true
        chkSetDefaultProfileEnabled :=
          profiles[i].profileAsDefault || !isDefaultProfileSelected form.storedProfiles
        selectedProfileIndex := i} := by
  have found : form.storedProfiles.heap[i]? = some profiles[i] := by
    rw [stored]
    exact List.getElem?_eq_getElem inside
  have at_ : pointerAt form.storedProfiles i = some i := stored ▸ pointerFresh inside
  simp only [loadProfile,at_,found,bind,Option.bind]

structure Shows (qt : Qt) (c : Crypto) (form : Form) (e : ListEditor Profile) : Prop where
  stored : form.storedProfiles = .fresh e.entries
  rows : form.lstStoredProfiles.length = e.entries.length
  index : form.selectedProfileIndex = (e.position.map Int.ofNat).getD (-1)
  enabled : form.enabled = e.selected.isSome
  file : form.file = (saveProfiles qt c .success none e.entries).2
  valid : form.invalidKey = false

section
variable {qt : Qt} {c : Crypto} {memory : Nat → Int32 × Bool} {form : Form}

theorem saveValues {profiles : List Profile} (values : form.storedProfiles.values = profiles) :
    saveStored qt c form = {form with file := (saveProfiles qt c .success none profiles).2} := by
  rw [← values]
  rfl

theorem loadSaved {profiles : List Profile} (file : form.file = (saveProfiles qt c .success none profiles).2)
    (valid : form.invalidKey = false) : loadProfiles qt c memory form =
      {form with storedProfiles := .fresh profiles,lstStoredProfiles := profiles.map rowText} := by
  have loaded := getSaved qt c memory false none profiles
  simp only [Bool.false_eq_true,if_false] at loaded
  simp only [loadProfiles,file,valid,loaded,freshValues]

theorem showsLoaded {e : ListEditor Profile} {i : Nat} (position : e.position = some i) (inside : i < e.entries.length)
    (stored : form.storedProfiles = .fresh e.entries) (rows : form.lstStoredProfiles.length = e.entries.length)
    (file : form.file = (saveProfiles qt c .success none e.entries).2) (valid : form.invalidKey = false) :
    ∃ next, loadProfile i form = some next ∧ Shows qt c next e := by
  have selected : e.selected = some i := e.selectedIff.mpr ⟨position,inside⟩
  exact ⟨_,loadFresh inside stored,stored,rows,by simp [position],by simp [selected],file,valid⟩

theorem enabledSelected {e : ListEditor Profile} (shows : Shows qt c form e) (enabled : form.enabled = true) :
    ∃ i, e.selected = some i ∧ i < e.entries.length ∧ form.selectedProfileIndex = i := by
  obtain ⟨i,selected⟩ := Option.isSome_iff_exists.mp (shows.enabled.symm.trans enabled)
  obtain ⟨position,inside⟩ := e.selectedIff.mp selected
  exact ⟨i,selected,inside,by simp [shows.index,position]⟩

def newEntry (e : ListEditor Profile) : Profile := ⟨newProfileName e.entries.length,[],[],0,false⟩

theorem reread {profiles : List Profile} (values : form.storedProfiles.values = profiles)
    (valid : form.invalidKey = false) : loadProfiles qt c memory (saveStored qt c form) =
      {form with
        file := (saveProfiles qt c .success none profiles).2
        storedProfiles := .fresh profiles
        lstStoredProfiles := profiles.map rowText} := by
  rw [saveValues values]
  exact loadSaved rfl valid

theorem rereadDisabled {profiles : List Profile} {storedProfiles : StoredProfiles}
    (values : storedProfiles.values = profiles) (valid : form.invalidKey = false) :
    loadProfiles qt c memory (disableProfileFields (saveStored qt c {form with storedProfiles})) =
      {form with
        fields := emptyFields
        enabled := false
        chkSetDefaultProfileEnabled := false
        file := (saveProfiles qt c .success none profiles).2
        storedProfiles := .fresh profiles
        lstStoredProfiles := profiles.map rowText} := by
  have loaded : loadProfiles qt c memory (saveStored qt c (disableProfileFields {form with storedProfiles})) = _ :=
    reread values valid
  exact loaded

theorem addShows {e : ListEditor Profile} (shows : Shows qt c form e) :
    ∃ next, addNewProfile qt c memory form = some next ∧ Shows qt c next (e.append (newEntry e)) := by
  obtain ⟨stored,rows,index,enabled,file,valid⟩ := shows
  have pushed : StoredProfiles.mk
      (form.storedProfiles.heap ++ [⟨newProfileName form.lstStoredProfiles.length,[],[],0,false⟩])
      (form.storedProfiles.pointers ++ [form.storedProfiles.heap.length]) =
      .fresh (e.append (newEntry e)).entries := by
    rw [stored,rows]
    exact freshPush e.entries (newEntry e)
  have loaded : loadProfiles qt c memory
      (saveStored qt c {form with storedProfiles := .fresh (e.append (newEntry e)).entries}) = _ :=
    reread (freshValues _) valid
  unfold addNewProfile
  simp only [pushed,loaded]
  cases position : e.position with
  | none =>
    have unselected : form.selectedProfileIndex = -1 := by simp [index,position]
    rw [if_neg (by simp [unselected])]
    refine ⟨_,rfl,rfl,by simp,by simp [unselected,ListEditor.append,position],?_,rfl,valid⟩
    simp [enabled,ListEditor.selected,ListEditor.append,position]
  | some i =>
    have here : form.selectedProfileIndex = i := by simp [index,position]
    have inside := ListEditor.appendInside (newEntry e) position
    have row : item ((e.append (newEntry e)).entries.map rowText) i = _ := itemInside (by simpa using inside)
    rw [if_pos (by rw [here]; omega)]
    simp only [here,row,bind,Option.bind]
    exact showsLoaded position inside rfl (by simp) rfl valid

theorem deleteShows {e : ListEditor Profile} (shows : Shows qt c form e) (enabled : form.enabled = true) :
    ∃ next, deleteProfile qt c memory form = some next ∧ Shows qt c next e.delete := by
  obtain ⟨i,selected,inside,index⟩ := enabledSelected shows enabled
  obtain ⟨stored,-,-,-,-,valid⟩ := shows
  rw [ListEditor.deleteSelected selected]
  have pointer : pointerAt form.storedProfiles form.selectedProfileIndex = some i := by
    rw [stored,index]
    exact pointerFresh inside
  have erased : (StoredProfiles.mk form.storedProfiles.heap
      (form.storedProfiles.pointers.eraseIdx form.selectedProfileIndex.toNat)).values = e.entries.eraseIdx i := by
    rw [stored,index]
    exact erasedValues e.entries i
  have loaded : loadProfiles qt c memory (disableProfileFields (saveStored qt c {form with storedProfiles :=
      ⟨form.storedProfiles.heap,form.storedProfiles.pointers.eraseIdx form.selectedProfileIndex.toNat⟩})) = _ :=
    rereadDisabled erased valid
  unfold deleteProfile
  simp only [pointer,loaded,bind,Option.bind]
  have size := List.length_eraseIdx_of_lt inside
  split
  · rename_i remaining
    rw [List.length_map] at remaining
    have before : (if form.selectedProfileIndex ≠ 0 then form.selectedProfileIndex-1 else 0) =
        ((i-1 : Nat) : Int) := by
      rw [index]
      split <;> omega
    have left : i-1 < (e.entries.eraseIdx i).length := by omega
    have row : item ((e.entries.eraseIdx i).map rowText) (i-1 : Nat) = _ := itemInside (by simpa using left)
    simp only [before,row]
    exact showsLoaded (show (e.deleteAt i inside).position = some (i-1) from rfl) left rfl
      (by simp [ListEditor.deleteAt]) rfl valid
  · rename_i emptied
    rw [List.length_map] at emptied
    have only : e.entries.length = 1 ∧ i = 0 := by omega
    obtain ⟨one,rfl⟩ := only
    refine ⟨_,rfl,rfl,?_,index,?_,rfl,valid⟩
    · simp [ListEditor.deleteAt]
    · simp [ListEditor.deleteAt,ListEditor.selected,one]

/- The fields as a profile; the name "None" is not taken. -/
def Fields.saved (qt : Qt) (fields : Fields) (p : Profile) : Profile where
  profileName := if fields.txtProfileName = text "None" then p.profileName else fields.txtProfileName
  profileIPAddress := fields.txtProfileIPAddress
  profilePassword := fields.txtProfilePassword
  profileTCPPort := qt.toInt fields.txtProfilePort
  profileAsDefault := fields.chkSetDefaultProfile

theorem loadedShows {e : ListEditor Profile} {i : Nat} (position : e.position = some i) (inside : i < e.entries.length)
    (valid : form.invalidKey = false) : ∃ next, loadProfile i {form with
      fields := emptyFields
      enabled := false
      chkSetDefaultProfileEnabled := false
      file := (saveProfiles qt c .success none e.entries).2
      storedProfiles := .fresh e.entries
      lstStoredProfiles := e.entries.map rowText} = some next ∧ Shows qt c next e :=
  showsLoaded position inside rfl (by simp) rfl valid

theorem saveProfileSaves {i : Nat} {p : Profile}
    (pointer : pointerAt form.storedProfiles form.selectedProfileIndex = some i)
    (found : form.storedProfiles.heap[i]? = some p) : saveProfile qt c memory form = (do
      let loaded := loadProfiles qt c memory (disableProfileFields (saveStored qt c {form with storedProfiles :=
        ⟨form.storedProfiles.heap.set i (form.fields.saved qt p),form.storedProfiles.pointers⟩}))
      let next ← loadProfile form.selectedProfileIndex loaded
      let _ ← item next.lstStoredProfiles next.selectedProfileIndex
      some next) := by
  simp only [saveProfile,pointer,found,bind,Option.bind,ne_eq,ite_not]
  rfl

theorem saveShows {e : ListEditor Profile} (shows : Shows qt c form e) (enabled : form.enabled = true) :
    ∃ next, saveProfile qt c memory form = some next ∧ Shows qt c next (e.replace (form.fields.saved qt)) := by
  obtain ⟨i,selected,inside,index⟩ := enabledSelected shows enabled
  obtain ⟨stored,-,-,-,-,valid⟩ := shows
  have replaced := ListEditor.replaceSelected (form.fields.saved qt) selected
  have pointer : pointerAt form.storedProfiles form.selectedProfileIndex = some i := by
    rw [stored,index]
    exact pointerFresh inside
  have found : form.storedProfiles.heap[i]? = some e.entries[i] := by
    rw [stored]
    exact List.getElem?_eq_getElem inside
  have entries : (e.replaceAt i (form.fields.saved qt)).entries = e.entries.set i (form.fields.saved qt e.entries[i]) :=
    List.modify_eq_set_get _ inside
  have left : i < (e.replaceAt i (form.fields.saved qt)).entries.length := by
    rw [entries,List.length_set]
    exact inside
  have set : StoredProfiles.mk (form.storedProfiles.heap.set i (form.fields.saved qt e.entries[i]))
      form.storedProfiles.pointers = .fresh (e.replaceAt i (form.fields.saved qt)).entries := by
    rw [stored,entries]
    simp [StoredProfiles.fresh]
  have loaded : loadProfiles qt c memory (disableProfileFields (saveStored qt c {form with
      storedProfiles := .fresh (e.replaceAt i (form.fields.saved qt)).entries})) = _ :=
    rereadDisabled (freshValues _) valid
  have position : (e.replaceAt i (form.fields.saved qt)).position = some i := (e.selectedIff.mp selected).1
  rw [replaced,saveProfileSaves pointer found,set]
  obtain ⟨next,loads,shown⟩ : ∃ next, _ = some next ∧ Shows qt c next _ := loadedShows position left valid
  rw [← index] at loads
  have again : next.selectedProfileIndex = i := by simp [shown.index,position]
  have row : item next.lstStoredProfiles i = _ := itemInside (by rw [shown.rows]; exact left)
  simp only [loaded,loads,again,row,bind,Option.bind]
  exact ⟨next,rfl,shown⟩

theorem selectShows {e : ListEditor Profile} {row : Nat} (shows : Shows qt c form e)
    (inside : row < form.lstStoredProfiles.length) :
    ∃ next, loadProfile row form = some next ∧ Shows qt c next (e.select row) := by
  obtain ⟨stored,rows,-,-,file,valid⟩ := shows
  have there : row < e.entries.length := rows ▸ inside
  have selects : (e.select row).position = some row ∧ (e.select row).entries = e.entries := by
    simp [ListEditor.select,there]
  exact showsLoaded selects.1 (by rw [selects.2]; exact there) (by rw [selects.2]; exact stored)
    (by rw [selects.2]; exact rows) (by rw [selects.2]; exact file) valid

def edit (qt : Qt) (e : ListEditor Profile) : Input → ListEditor Profile
  | .addNewProfile => e.append (newEntry e)
  | .deleteProfile => e.delete
  | .saveProfile fields => e.replace (fields.saved qt)
  | .selectRow row => e.select row

theorem disabledSelected {e : ListEditor Profile} (shows : Shows qt c form e) (disabled : ¬ form.enabled = true) :
    e.selected = none := by
  cases selected : e.selected with
  | none => rfl
  | some i => exact (disabled (by rw [shows.enabled,selected]; rfl)).elim

theorem inputShows (memory : Nat → Int32 × Bool) {e : ListEditor Profile} (shows : Shows qt c form e) (i : Input) :
    ∃ next, input qt c memory form i = some next ∧ Shows qt c next (edit qt e i) := by
  cases i with
  | addNewProfile => exact addShows shows
  | deleteProfile =>
    by_cases enabled : form.enabled = true
    · rw [input,if_pos enabled]
      exact deleteShows shows enabled
    · simp only [input,if_neg enabled,edit,ListEditor.deleteUnselected (disabledSelected shows enabled)]
      exact ⟨form,rfl,shows⟩
  | saveProfile fields =>
    by_cases enabled : form.enabled = true
    · rw [input,if_pos enabled]
      have typed : Shows qt c {form with fields} e :=
        ⟨shows.stored,shows.rows,shows.index,shows.enabled,shows.file,shows.valid⟩
      exact saveShows typed enabled
    · simp only [input,if_neg enabled,edit,ListEditor.replaceUnselected _ (disabledSelected shows enabled)]
      exact ⟨form,rfl,shows⟩
  | selectRow row =>
    by_cases inside : row < form.lstStoredProfiles.length
    · rw [input,if_pos inside]
      exact selectShows shows inside
    · have same : e.select row = e := by
        rw [ListEditor.select,dif_neg (shows.rows ▸ inside)]
      simp only [input,if_neg inside,edit,same]
      exact ⟨form,rfl,shows⟩

theorem inputsShow (memory : Nat → Int32 × Bool) {e : ListEditor Profile} (shows : Shows qt c form e)
    (inputs : List Input) : ∃ next, inputs.foldlM (input qt c memory) form = some next ∧
      Shows qt c next (inputs.foldl (edit qt) e) := by
  induction inputs generalizing form e with
  | nil => exact ⟨form,rfl,shows⟩
  | cons i rest ih =>
    obtain ⟨next,taken,shown⟩ := inputShows memory shows i
    obtain ⟨last,ran,after⟩ := ih shown
    exact ⟨last,by rw [List.foldlM_cons,taken]; exact ran,after⟩

theorem openedShows (qt : Qt) (c : Crypto) (memory : Nat → Int32 × Bool) (file : Option Text)
    (profiles : List Profile) : ∃ form,
    frmProfileManager qt c memory false (saveProfiles qt c .success file profiles).2 = some form ∧
    Shows qt c form (.opened profiles) := by
  have loaded : loadProfiles qt c memory ⟨⟨[],[]⟩,[],-1,emptyFields,false,false,
      (saveProfiles qt c .success file profiles).2,false⟩ = _ := loadSaved rfl rfl
  unfold frmProfileManager
  simp only [loaded,List.length_map,bind,Option.bind]
  by_cases filled : profiles.length > 0
  · have position : (ListEditor.opened profiles).position = some 0 :=
      if_neg (List.length_pos_iff.mp filled)
    have row : item (profiles.map rowText) (0 : Nat) = _ := itemInside (by simpa using filled)
    rw [if_pos filled]
    simp only [Nat.cast_zero] at row
    simp only [row]
    exact showsLoaded position filled rfl (by simp [ListEditor.opened]) rfl rfl
  · have empty : profiles = [] := List.length_eq_zero_iff.mp (by omega)
    subst empty
    exact ⟨_,rfl,rfl,rfl,rfl,rfl,rfl,rfl⟩

end

/-- Every sequence of operations leaves the list in `Profiles.xml` that the operations make
of a list, and no index is ever out of range. -/
theorem profileFormRefinesList (qt : Qt) (c : Crypto) (memory : Nat → Int32 × Bool) (file : Option Text)
    (profiles : List Profile) (inputs : List Input) : ∃ opened form,
    frmProfileManager qt c memory false (saveProfiles qt c .success file profiles).2 = some opened ∧
    inputs.foldlM (input qt c memory) opened = some form ∧
    (getProfiles qt c memory form.invalidKey form.file).1.values = (inputs.foldl (edit qt) (.opened profiles)).entries ∧
    form.enabled = (inputs.foldl (edit qt) (.opened profiles)).selected.isSome := by
  obtain ⟨opened,opens,shows⟩ := openedShows qt c memory file profiles
  obtain ⟨form,ran,shown⟩ := inputsShow memory shows inputs
  have read := getSaved qt c memory false none (inputs.foldl (edit qt) (.opened profiles)).entries
  simp only [Bool.false_eq_true,if_false] at read
  exact ⟨opened,form,opens,ran,by rw [shown.valid,shown.file,read,freshValues],shown.enabled⟩

def homeProfile : Profile := ⟨text "Home",text "10.0.0.1",text "pw",6001,true⟩
def homeSaved : Option Text := (saveProfiles plainQt secretCrypto .success none [homeProfile]).2
def cleared (_ : Nat) : Int32 × Bool := (0,false)

theorem emptiedFormRefilled : ∃ opened form,
    frmProfileManager plainQt secretCrypto cleared false homeSaved = some opened ∧
    [.deleteProfile,.addNewProfile,.saveProfile ⟨text "Office",[],[],text "22",false⟩].foldlM
      (input plainQt secretCrypto cleared) opened = some form ∧
    (getProfiles plainQt secretCrypto cleared form.invalidKey form.file).1.values =
      [⟨text "Office",[],[],22,false⟩] := by
  obtain ⟨opened,form,opens,ran,read,-⟩ := profileFormRefinesList plainQt secretCrypto cleared none [homeProfile]
    [.deleteProfile,.addNewProfile,.saveProfile ⟨text "Office",[],[],text "22",false⟩]
  refine ⟨opened,form,opens,ran,read.trans ?_⟩
  decide +kernel

end FrmProfileManager
end RemoteTerminal
