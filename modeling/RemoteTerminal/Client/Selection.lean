import RemoteTerminal.Client.SelectedProfile
import RemoteTerminal.Client.Settings
import RemoteTerminal.Library.Bookmark
import RemoteTerminal.Library.Runs

/-! The selection from one start of the client to the next. The box shows the list as it
was when `LoadStoredProfiles` read it; the profile manager changes the list behind it, and
the program that is started again finds the number of the entry and the list as it is. -/
namespace RemoteTerminal
open PlainText CryptoObject ProfileManager FrmProfileManager FrmMain ComboBox Bookmark LabelledRuns

structure Program where
  lastProfileIndex : Int32
  settingsFile : Option Text
  profilesFile : Option Text
  invalidKey : Bool
  main : ProfileBox
  profileManagerForm : Option Form
  deriving DecidableEq, Repr

inductive ProgramLabel where
  | press
  | select (index : Nat)
  | viewProfileManager
  | manage (i : Input)
  | restart
  deriving DecidableEq, Repr

/- A vector counts its entries in an `int`, and "None" comes after them. -/
def vectorRoom : Nat := 2^31-1

section
variable (qt : Qt) (xml : SettingsXml) (c : Crypto) (memory : Nat → Int32 × Bool)

def loadStored (s : Program) : Option Program :=
  let profiles := getProfiles qt c memory s.invalidKey s.profilesFile
  (loadStoredProfiles profiles.1.values s.lastProfileIndex.toInt s.main).map fun main =>
    {s with main,invalidKey := profiles.2}

def frmMain (settingsFile profilesFile : Option Text) : Option Program :=
  let settings := Settings.getSettings qt xml c (Settings.settings qt xml c settingsFile)
  loadStored qt c memory
    ⟨settings.lastProfileIndex,settings.settingsFile,profilesFile,settings.invalidKey,setupBox,none⟩

def closed (s : Program) : Option Text :=
  let index := s.main.cboSelectedProfile.currentIndex
  if index ≠ -1 then Settings.saveSettings qt xml c s.settingsFile (Int32.ofInt index) else s.settingsFile

def restart (s : Program) : Option Program := frmMain qt xml c memory (closed qt xml c s) s.profilesFile

def select (s : Program) (index : Nat) : Option Program :=
  let box := s.main.cboSelectedProfile
  if index < box.items.length then
    (setCurrentIndex (loadSelectedProfile s.main.storedProfiles) index box s.main.fields).map fun next =>
      {s with main.cboSelectedProfile := next.1,main.fields := next.2}
  else some s

/- The two windows share the file and the `Crypto` object. -/
def manage (s : Program) (i : Input) : Option Program :=
  match s.profileManagerForm with
  | none => some s
  | some form =>
    (input qt c memory {form with file := s.profilesFile,invalidKey := s.invalidKey} i).bind fun next =>
      if next.storedProfiles.pointers.length < vectorRoom then
        some {s with profileManagerForm := some next,profilesFile := next.file,invalidKey := next.invalidKey}
      else none

def programAct (s : Program) : ProgramLabel → Option Program
  | .press => loadStored qt c memory s
  | .select index => select s index
  | .viewProfileManager => (frmProfileManager qt c memory s.invalidKey s.profilesFile).map fun form =>
      {s with profileManagerForm := some form,invalidKey := form.invalidKey}
  | .manage i => manage qt c memory s i
  | .restart => restart qt xml c memory s

def programMachine : Machine Program ProgramLabel Unit where
  act s l := (programAct qt xml c memory s l).map fun t => ((),t)

end

/- Which profile is which: the numbers of those in the file and of those in the box. A New
takes the next number. -/
structure Identities where
  stored : List Nat
  shown : List Nat
  next : Nat
  deriving DecidableEq, Repr

def noteProfiles (memo : Identities) (s : Program) (l : ProgramLabel) (_ : Unit) (_ : Program) : Identities :=
  match l,s.profileManagerForm with
  | .press,_ | .restart,_ => {memo with shown := memo.stored}
  | .manage .addNewProfile,some _ => {memo with stored := memo.stored ++ [memo.next],next := memo.next+1}
  | .manage .deleteProfile,some form =>
    if form.enabled then {memo with stored := memo.stored.eraseIdx form.selectedProfileIndex.toNat} else memo
  | _,_ => memo

def selectedIdentity (s : Program) (identities : List Nat) : Option Nat :=
  entryAt identities s.main.cboSelectedProfile.currentIndex

def Restores (qt : Qt) (xml : SettingsXml) (c : Crypto) (memory : Nat → Int32 × Bool) (s : Program × Identities) :
    Prop :=
  ∃ t, restart qt xml c memory s.1 = some t ∧
    selectedIdentity t s.2.stored = (selectedIdentity s.1 s.2.shown).filter fun id => id ∈ s.2.stored

def restoredPlace (s : Program) : Int :=
  let index := s.main.cboSelectedProfile.currentIndex
  if index ≠ -1 then index else s.lastProfileIndex.toInt

/- Nothing is added at the remembered place, nothing deleted before it or, unless it is the
last profile, at it, and what is chosen stands at its place in the file too. -/
def KeepsSelection (s : Program × Identities) (l : ProgramLabel) : Prop :=
  match l,s.1.profileManagerForm with
  | .select index,_ => index < s.1.main.cboSelectedProfile.items.length →
    Fits s.2.stored index (entryAt s.2.shown index)
  | .manage .addNewProfile,some _ => restoredPlace s.1 ≠ s.2.stored.length
  | .manage .deleteProfile,some form => form.enabled = true →
    restoredPlace s.1 < form.selectedProfileIndex ∨ s.2.stored.length ≤ restoredPlace s.1 ∨
      (restoredPlace s.1 = form.selectedProfileIndex ∧ form.selectedProfileIndex+1 = s.2.stored.length)
  | _,_ => True
instance : (s : Program × Identities) → (l : ProgramLabel) → Decidable (KeepsSelection s l) := by
  intro s l
  unfold KeepsSelection
  split <;> infer_instance

def StoredList (qt : Qt) (c : Crypto) (profilesFile : Option Text) (profiles : List Profile) : Prop :=
  profilesFile = (saveProfiles qt c .success none profiles).2 ∨ (profilesFile = none ∧ profiles = [])

def Qt.ReadsNothing (qt : Qt) : Prop := startElements (qt.xmlStreamReader []).tokens = []

def NoDefault (profiles : List Profile) : Prop := ∀ p ∈ profiles, p.profileAsDefault = false

def Manages (qt : Qt) (c : Crypto) (form : Form) (e : ListEditor Profile) : Prop :=
  Shows qt c {form with file := (saveProfiles qt c .success none e.entries).2,invalidKey := false} e

structure Numbered (memo : Identities) (profiles : List Profile) : Prop where
  counted : profiles.length = memo.stored.length
  apart : memo.stored.Nodup
  old : ∀ id ∈ memo.stored ++ memo.shown, id < memo.next

structure BoxFilled (main : ProfileBox) (shown : List Nat) : Prop where
  items : main.cboSelectedProfile.items = boxItems main.storedProfiles
  counted : main.storedProfiles.length = shown.length
  room : shown.length < vectorRoom
  index : main.cboSelectedProfile.currentIndex = -1 ∨
    offers main.storedProfiles main.cboSelectedProfile.currentIndex

structure Shape (qt : Qt) (xml : SettingsXml) (c : Crypto) (s : Program) (memo : Identities)
    (profiles : List Profile) : Prop where
  settings : s.settingsFile = Settings.saveSettings qt xml c none s.lastProfileIndex
  stored : StoredList qt c s.profilesFile profiles
  valid : s.invalidKey = false
  plain : NoDefault profiles
  room : profiles.length < vectorRoom
  numbered : Numbered memo profiles
  box : BoxFilled s.main memo.shown
  managed : ∀ form ∈ s.profileManagerForm, ∃ e, Manages qt c form e ∧ e.entries = profiles

variable {qt : Qt} {xml : SettingsXml} {c : Crypto} {memory : Nat → Int32 × Bool} {s t : Program} {memo : Identities}
  {profiles : List Profile} {profilesFile settingsFile : Option Text} {form : Form} {e : ListEditor Profile}

theorem getStoredList (nothing : qt.ReadsNothing) (stored : StoredList qt c profilesFile profiles) :
    getProfiles qt c memory false profilesFile = (.fresh profiles,false) := by
  rcases stored with rfl | ⟨rfl,rfl⟩
  · exact getSaved qt c memory false none profiles
  · simp only [getProfiles,decryptSettingsFile,Bool.false_eq_true,if_false,outerElements,
      show startElements (qt.xmlStreamReader []).tokens = [] from nothing]
    split <;> rfl

theorem noDefaultIndex (plain : NoDefault profiles) : defaultIndex profiles = none := by
  cases found : defaultIndex profiles with
  | none => rfl
  | some i =>
    obtain ⟨p,mem,isDefault⟩ := defaultExists.mpr (by rw [found]; rfl : (defaultIndex profiles).isSome)
    exact Bool.noConfusion ((plain p mem).symm.trans isDefault)

def placed (profiles : List Profile) (place : Int) : Int := if offers profiles place then place else -1

theorem loadStoredList (nothing : qt.ReadsNothing) (stored : StoredList qt c s.profilesFile profiles)
    (valid : s.invalidKey = false) (plain : NoDefault profiles) : ∃ fields,
    loadStored qt c memory s = some {s with
      main := ⟨profiles,⟨boxItems profiles,placed profiles s.lastProfileIndex.toInt⟩,fields⟩} := by
  have wanted : selectedIndex profiles s.lastProfileIndex.toInt = placed profiles s.lastProfileIndex.toInt := by
    simp only [selectedIndex,wantedIndex,noDefaultIndex plain]
    rfl
  have read : getProfiles qt c memory s.invalidKey s.profilesFile = (.fresh profiles,false) := by
    rw [valid]
    exact getStoredList nothing stored
  simp only [loadStored,read,freshValues,storedProfilesLoaded,wanted,Option.map_some,← valid]
  exact ⟨_,rfl⟩

theorem startedList {n : Int32} (memory : Nat → Int32 × Bool) (nothing : qt.ReadsNothing)
    (index : Settings.StoredIndex qt xml c settingsFile n) (stored : StoredList qt c profilesFile profiles)
    (plain : NoDefault profiles) : ∃ fields,
    frmMain qt xml c memory settingsFile profilesFile = some ⟨n,Settings.saveSettings qt xml c none n,profilesFile,
      false,⟨profiles,⟨boxItems profiles,placed profiles n.toInt⟩,fields⟩,none⟩ := by
  unfold frmMain
  rw [Settings.settingsRead index]
  exact loadStoredList nothing stored rfl plain

theorem placeRead {k : Int} (lower : 0 ≤ k) (upper : k < vectorRoom) : (Int32.ofInt k).toInt = k := by
  unfold vectorRoom at upper
  exact Int32.toInt_ofInt_of_le (by omega) (by omega)

theorem restartList (memory : Nat → Int32 × Bool) (nothing : qt.ReadsNothing)
    (shape : Shape qt xml c s memo profiles) : ∃ n fields,
    n.toInt = restoredPlace s ∧
    restart qt xml c memory s = some ⟨n,Settings.saveSettings qt xml c none n,s.profilesFile,false,
      ⟨profiles,⟨boxItems profiles,placed profiles n.toInt⟩,fields⟩,none⟩ := by
  unfold restart closed restoredPlace
  rcases shape.box.index with unselected | offered
  · obtain ⟨fields,starts⟩ := startedList memory nothing (.inl shape.settings) shape.stored shape.plain
    refine ⟨s.lastProfileIndex,fields,?_,?_⟩
    · rw [if_neg (not_not_intro unselected)]
    · rw [if_neg (not_not_intro unselected)]
      exact starts
  · have selected : s.main.cboSelectedProfile.currentIndex ≠ -1 := by
      have valid := offered.1
      omega
    have room : s.main.cboSelectedProfile.currentIndex < vectorRoom := by
      have bound := offered.2
      have shown := shape.box.counted
      have shownRoom := shape.box.room
      omega
    rw [if_pos selected,if_pos selected]
    have saved : Settings.StoredIndex qt xml c (Settings.saveSettings qt xml c s.settingsFile
        (Int32.ofInt s.main.cboSelectedProfile.currentIndex)) _ := .inl rfl
    obtain ⟨fields,starts⟩ := startedList memory nothing saved shape.stored shape.plain
    exact ⟨_,fields,placeRead offered.1 room,starts⟩

theorem entryPlaced {entries : List Nat} (counted : profiles.length = entries.length) (place : Int) :
    entryAt entries (placed profiles place) = entryAt entries place := by
  unfold placed
  split
  · rfl
  · rename_i outside
    rw [entryNegative (by decide)]
    by_cases negative : place < 0
    · exact (entryNegative negative).symm
    · refine (entryAfter ?_).symm
      unfold offers at outside
      omega

theorem restoresIff (nothing : qt.ReadsNothing) (shape : Shape qt xml c s memo profiles) :
    Restores qt xml c memory (s,memo) ↔
      Fits memo.stored (restoredPlace s) (selectedIdentity s memo.shown) := by
  obtain ⟨n,fields,same,starts⟩ := restartList memory nothing shape
  simp only [Restores,starts,Option.some.injEq,exists_eq_left',selectedIdentity,entryPlaced shape.numbered.counted,same]
  rfl

theorem showsManages (shows : Shows qt c form e) : Manages qt c form e :=
  ⟨shows.stored,shows.rows,shows.index,shows.enabled,rfl,rfl⟩

theorem inputSaved (memory : Nat → Int32 × Bool) (manages : Manages qt c form e) (i : Input) : ∃ next,
    input qt c memory {form with file := (saveProfiles qt c .success none e.entries).2,invalidKey := false} i =
      some next ∧
    Manages qt c next (edit qt e i) ∧ StoredList qt c next.file (edit qt e i).entries ∧ next.invalidKey = false := by
  obtain ⟨next,taken,shows⟩ := inputShows memory manages i
  exact ⟨next,taken,showsManages shows,.inl shows.file,shows.valid⟩

theorem inputManaged (memory : Nat → Int32 × Bool) (stored : StoredList qt c profilesFile e.entries)
    (manages : Manages qt c form e) (i : Input) : ∃ next,
    input qt c memory {form with file := profilesFile,invalidKey := false} i = some next ∧
    Manages qt c next (edit qt e i) ∧ StoredList qt c next.file (edit qt e i).entries ∧ next.invalidKey = false := by
  have saved := inputSaved memory manages i
  rcases stored with rfl | ⟨rfl,empty⟩
  · exact saved
  · have unselected : e.selected = none := by simp [ListEditor.selected,empty]
    have disabled : ¬ form.enabled = true := by
      have enabled : form.enabled = _ := manages.enabled
      simp [enabled,unselected]
    have still : Manages qt c {form with file := none,invalidKey := false} e ∧
        StoredList qt c none e.entries ∧ false = false := ⟨manages,.inr ⟨rfl,empty⟩,rfl⟩
    cases i with
    | addNewProfile => exact saved
    | deleteProfile =>
      rw [input,if_neg disabled,edit,ListEditor.deleteUnselected unselected]
      exact ⟨_,rfl,still⟩
    | saveProfile fields =>
      rw [input,if_neg disabled,edit,ListEditor.replaceUnselected _ unselected]
      exact ⟨_,rfl,still⟩
    | selectRow row =>
      have rows : form.lstStoredProfiles.length = e.entries.length := manages.rows
      have outside : ¬ row < e.entries.length := by simp [empty]
      rw [input,if_neg (rows ▸ outside),edit,ListEditor.select,dif_neg outside]
      exact ⟨_,rfl,still⟩

theorem openedManaged (memory : Nat → Int32 × Bool) (nothing : qt.ReadsNothing)
    (stored : StoredList qt c profilesFile profiles) : ∃ form,
    frmProfileManager qt c memory false profilesFile = some form ∧ Manages qt c form (.opened profiles) ∧
      form.invalidKey = false := by
  rcases stored with rfl | ⟨rfl,rfl⟩
  · obtain ⟨form,opens,shows⟩ := openedShows qt c memory none profiles
    exact ⟨form,opens,showsManages shows,shows.valid⟩
  · have read : getProfiles qt c memory false none = (.fresh [],false) := getStoredList nothing (.inr ⟨rfl,rfl⟩)
    refine ⟨⟨.fresh [],[],-1,emptyFields,false,false,none,false⟩,?_,⟨rfl,rfl,rfl,rfl,rfl,rfl⟩,rfl⟩
    simp only [frmProfileManager,loadProfiles,read,freshValues]
    rfl

def Unchecked : ProgramLabel → Prop
  | .manage (.saveProfile fields) => fields.chkSetDefaultProfile = false
  | _ => True

theorem selectEntries (e : ListEditor Profile) (row : Nat) : (e.select row).entries = e.entries := by
  unfold ListEditor.select
  split <;> rfl

theorem editPlain {i : Input} (plain : NoDefault e.entries) (unchecked : Unchecked (.manage i)) :
    NoDefault (edit qt e i).entries := by
  cases i with
  | addNewProfile =>
    intro p mem
    rcases List.mem_append.mp mem with old | new
    · exact plain p old
    · rw [List.mem_singleton.mp new]
      rfl
  | deleteProfile =>
    cases selected : e.selected with
    | none =>
      rw [edit,ListEditor.deleteUnselected selected]
      exact plain
    | some r =>
      rw [edit,ListEditor.deleteSelected selected]
      exact fun p mem => plain p (List.mem_of_mem_eraseIdx mem)
  | saveProfile fields =>
    cases selected : e.selected with
    | none =>
      rw [edit,ListEditor.replaceUnselected _ selected]
      exact plain
    | some r =>
      have inside := (e.selectedIff.mp selected).2
      have entries : (e.replace (fields.saved qt)).entries = e.entries.set r (fields.saved qt e.entries[r]) := by
        rw [ListEditor.replaceSelected _ selected]
        exact List.modify_eq_set_get _ inside
      rw [edit,entries]
      intro p mem
      rcases List.mem_or_eq_of_mem_set mem with old | rfl
      · exact plain p old
      · exact unchecked
  | selectRow row =>
    rw [edit,selectEntries]
    exact plain

theorem numberedPush (numbered : Numbered memo profiles) (p : Profile) :
    Numbered {memo with stored := memo.stored ++ [memo.next],next := memo.next+1} (profiles ++ [p]) := by
  obtain ⟨counted,apart,old⟩ := numbered
  have fresh : memo.next ∉ memo.stored := fun mem => Nat.lt_irrefl _ (old _ (List.mem_append_left _ mem))
  refine ⟨by simp [counted],?_,?_⟩
  · simpa using List.Nodup.concat fresh apart
  · intro id mem
    have known : id ∈ memo.stored ++ memo.shown ∨ id = memo.next := by
      simp only [List.mem_append,List.mem_singleton] at mem ⊢
      tauto
    rcases known with before | rfl
    · exact Nat.lt_succ_of_lt (old id before)
    · exact Nat.lt_succ_self _

theorem numberedErase (numbered : Numbered memo profiles) {r : Nat} (inside : r < profiles.length) :
    Numbered {memo with stored := memo.stored.eraseIdx r} (profiles.eraseIdx r) := by
  obtain ⟨counted,apart,old⟩ := numbered
  refine ⟨?_,apart.sublist (List.eraseIdx_sublist _ _),?_⟩
  · rw [List.length_eraseIdx_of_lt inside,List.length_eraseIdx_of_lt (counted ▸ inside),counted]
  · intro id mem
    refine old id ?_
    rcases List.mem_append.mp mem with kept | shown
    · exact List.mem_append_left _ (List.mem_of_mem_eraseIdx kept)
    · exact List.mem_append_right _ shown

theorem managedNumbers {i : Input} {marked : Option Nat} (numbered : Numbered memo e.entries)
    (manages : Manages qt c form e) (shown : s.profileManagerForm = some form) (known : ∀ id ∈ marked, id ∈ memo.shown)
    (fits : Fits memo.stored (restoredPlace s) marked) :
    Numbered (noteProfiles memo s (.manage i) () t) (edit qt e i).entries ∧
    (noteProfiles memo s (.manage i) () t).shown = memo.shown ∧
    (Fits (noteProfiles memo s (.manage i) () t).stored (restoredPlace s) marked ↔
      KeepsSelection (s,memo) (.manage i)) := by
  cases i with
  | addNewProfile =>
    have noted : noteProfiles memo s (.manage .addNewProfile) () t =
        {memo with stored := memo.stored ++ [memo.next],next := memo.next+1} := by simp [noteProfiles,shown]
    have other : marked ≠ some memo.next := fun same =>
      Nat.lt_irrefl _ (numbered.old _ (List.mem_append_right _ (known _ same)))
    rw [noted]
    refine ⟨numberedPush numbered _,rfl,?_⟩
    simp only [fitsPush fits other,KeepsSelection,shown]
  | deleteProfile =>
    by_cases enabled : form.enabled = true
    · obtain ⟨r,selected,inside,index⟩ := enabledSelected manages enabled
      have index : form.selectedProfileIndex = r := index
      have noted : noteProfiles memo s (.manage .deleteProfile) () t =
          {memo with stored := memo.stored.eraseIdx r} := by simp [noteProfiles,shown,enabled,index]
      have stored : r < memo.stored.length := numbered.counted ▸ inside
      rw [noted,edit,ListEditor.deleteSelected selected]
      refine ⟨numberedErase numbered inside,rfl,?_⟩
      simp only [fitsErase fits numbered.apart stored,KeepsSelection,shown,enabled,index,true_implies]
      norm_cast
    · have noted : noteProfiles memo s (.manage .deleteProfile) () t = memo := by simp [noteProfiles,shown,enabled]
      have unselected : e.selected = none := disabledSelected manages enabled
      rw [noted,edit,ListEditor.deleteUnselected unselected]
      refine ⟨numbered,rfl,iff_of_true fits ?_⟩
      simp [KeepsSelection,shown,enabled]
  | saveProfile fields =>
    have noted : noteProfiles memo s (.manage (.saveProfile fields)) () t = memo := rfl
    have size : (edit qt e (.saveProfile fields)).entries.length = e.entries.length := by
      cases selected : e.selected with
      | none => rw [edit,ListEditor.replaceUnselected _ selected]
      | some r => rw [edit,ListEditor.replaceSelected _ selected,ListEditor.replaceAt,List.length_modify]
    rw [noted]
    exact ⟨⟨size.trans numbered.counted,numbered.apart,numbered.old⟩,rfl,iff_of_true fits trivial⟩
  | selectRow row =>
    have noted : noteProfiles memo s (.manage (.selectRow row)) () t = memo := rfl
    rw [noted,edit,selectEntries]
    exact ⟨numbered,rfl,iff_of_true fits trivial⟩

theorem loadedShape {n : Int32} {fields : ConnectFields} {managers : Option Form}
    (stored : StoredList qt c profilesFile profiles) (plain : NoDefault profiles) (room : profiles.length < vectorRoom)
    (numbered : Numbered memo profiles)
    (managed : ∀ form ∈ managers, ∃ e, Manages qt c form e ∧ e.entries = profiles)
    (loaded : t = ⟨n,Settings.saveSettings qt xml c none n,profilesFile,false,
      ⟨profiles,⟨boxItems profiles,placed profiles n.toInt⟩,fields⟩,managers⟩) :
    Shape qt xml c t {memo with shown := memo.stored} profiles ∧
    Fits memo.stored (restoredPlace t) (selectedIdentity t memo.stored) := by
  have index : placed profiles n.toInt = -1 ∨ offers profiles (placed profiles n.toInt) := by
    unfold placed
    split
    · rename_i offered
      exact .inr offered
    · exact .inl rfl
  have place : restoredPlace t = n.toInt := by
    rw [loaded]
    unfold restoredPlace placed
    split <;> simp
  obtain ⟨counted,apart,old⟩ := numbered
  have known : ∀ id ∈ memo.stored, id < memo.next := fun id mem => old id (List.mem_append_left _ mem)
  rw [place]
  subst loaded
  constructor
  · exact ⟨rfl,stored,rfl,plain,room,⟨counted,apart,by simpa using known⟩,
      ⟨rfl,counted,counted ▸ room,index⟩,managed⟩
  · rw [selectedIdentity,entryPlaced counted]
    exact fitsHere _ _

theorem pressStep (nothing : qt.ReadsNothing) (shape : Shape qt xml c s memo profiles)
    (act : loadStored qt c memory s = some t) :
    Shape qt xml c t {memo with shown := memo.stored} profiles ∧
    Restores qt xml c memory (t,{memo with shown := memo.stored}) := by
  obtain ⟨fields,loads⟩ := loadStoredList nothing shape.stored shape.valid shape.plain
  have loaded := Option.some.inj (act.symm.trans loads)
  rw [shape.settings,shape.valid] at loaded
  obtain ⟨after,fits⟩ := loadedShape shape.stored shape.plain shape.room shape.numbered
    shape.managed loaded
  exact ⟨after,(restoresIff nothing after).mpr fits⟩

theorem restartStep (nothing : qt.ReadsNothing) (shape : Shape qt xml c s memo profiles)
    (act : restart qt xml c memory s = some t) :
    Shape qt xml c t {memo with shown := memo.stored} profiles ∧
    Restores qt xml c memory (t,{memo with shown := memo.stored}) := by
  obtain ⟨n,fields,-,starts⟩ := restartList memory nothing shape
  have unopened : ∀ form ∈ (none : Option Form), ∃ e, Manages qt c form e ∧ e.entries = profiles := by simp
  obtain ⟨after,fits⟩ := loadedShape shape.stored shape.plain shape.room shape.numbered
    unopened (Option.some.inj (act.symm.trans starts))
  exact ⟨after,(restoresIff nothing after).mpr fits⟩

theorem selectStep {index : Nat} (nothing : qt.ReadsNothing) (shape : Shape qt xml c s memo profiles)
    (restores : Restores qt xml c memory (s,memo)) (act : select s index = some t) :
    Shape qt xml c t memo profiles ∧
    (Restores qt xml c memory (t,memo) ↔ KeepsSelection (s,memo) (.select index)) := by
  unfold select at act
  by_cases inside : index < s.main.cboSelectedProfile.items.length
  · rw [if_pos inside] at act
    obtain ⟨⟨box,fields⟩,moved,same⟩ := Option.map_eq_some_iff.mp act
    have range : 0 ≤ (index : Int) ∧ (index : Int) < s.main.cboSelectedProfile.items.length := by omega
    have ended := moveEnds moved
    rw [if_pos range] at ended
    have offered : offers s.main.storedProfiles index := by
      have size := congrArg List.length shape.box.items
      simp only [boxItems,List.length_append,List.length_map,List.length_singleton] at size
      exact ⟨range.1,by omega⟩
    have here : t.main.cboSelectedProfile.currentIndex = index := by
      rw [← same]
      exact congrArg ComboBox.currentIndex ended
    have after : Shape qt xml c t memo profiles := by
      subst same
      exact ⟨shape.settings,shape.stored,shape.valid,shape.plain,shape.room,shape.numbered,
        ⟨by rw [ended]; exact shape.box.items,shape.box.counted,shape.box.room,.inr (by rw [here]; exact offered)⟩,
        shape.managed⟩
    have place : restoredPlace t = index := by
      unfold restoredPlace
      rw [here]
      exact if_pos (by omega)
    refine ⟨after,(restoresIff nothing after).trans ?_⟩
    simp only [place,selectedIdentity,here,KeepsSelection,inside,true_implies]
  · rw [if_neg inside] at act
    cases Option.some.inj act
    exact ⟨shape,iff_of_true restores fun offered => (inside offered).elim⟩

theorem manageStep {i : Input} (nothing : qt.ReadsNothing) (shape : Shape qt xml c s memo profiles)
    (restores : Restores qt xml c memory (s,memo)) (unchecked : Unchecked (.manage i))
    (act : manage qt c memory s i = some t) :
    (∃ profiles, Shape qt xml c t (noteProfiles memo s (.manage i) () t) profiles) ∧
    (Restores qt xml c memory (t,noteProfiles memo s (.manage i) () t) ↔ KeepsSelection (s,memo) (.manage i)) := by
  unfold manage at act
  split at act
  · rename_i unopened
    cases Option.some.inj act
    have noted : noteProfiles memo s (.manage i) () s = memo := by cases i <;> simp [noteProfiles,unopened]
    have free : KeepsSelection (s,memo) (.manage i) := by cases i <;> simp [KeepsSelection,unopened]
    rw [noted]
    exact ⟨⟨profiles,shape⟩,iff_of_true restores free⟩
  · rename_i form opened
    obtain ⟨e,manages,rfl⟩ := shape.managed form opened
    obtain ⟨next,taken,after,stored,valid⟩ := inputManaged memory shape.stored manages i
    rw [shape.valid,taken,Option.bind_some] at act
    split at act <;> try contradiction
    rename_i room
    have made := Option.some.inj act
    have fits := (restoresIff nothing shape).mp restores
    have known : ∀ id ∈ selectedIdentity s memo.shown, id ∈ memo.shown := fun id found => entryMem found
    obtain ⟨numbered,shown,right⟩ := managedNumbers (t := t) shape.numbered manages opened known fits
    have kept : Shape qt xml c t (noteProfiles memo s (.manage i) () t) (edit qt e i).entries := by
      have size : next.storedProfiles.pointers.length = (edit qt e i).entries.length := by
        have fresh : next.storedProfiles = .fresh (edit qt e i).entries := after.stored
        simp [fresh,StoredProfiles.fresh]
      have box : BoxFilled s.main (noteProfiles memo s (.manage i) () t).shown := by
        rw [shown]
        exact shape.box
      have managed : ∀ form ∈ some next, ∃ e', Manages qt c form e' ∧ e'.entries = (edit qt e i).entries := by
        rintro _ ⟨⟩
        exact ⟨_,after,rfl⟩
      have plain : NoDefault (edit qt e i).entries := editPlain shape.plain unchecked
      subst made
      exact ⟨shape.settings,stored,valid,plain,size ▸ room,numbered,box,managed⟩
    refine ⟨⟨_,kept⟩,(restoresIff nothing kept).trans ?_⟩
    have same : restoredPlace t = restoredPlace s ∧ selectedIdentity t memo.shown = selectedIdentity s memo.shown := by
      rw [← made]
      exact ⟨rfl,rfl⟩
    rw [shown,same.1,same.2]
    exact right

theorem viewStep (nothing : qt.ReadsNothing) (shape : Shape qt xml c s memo profiles)
    (restores : Restores qt xml c memory (s,memo))
    (act : programAct qt xml c memory s .viewProfileManager = some t) :
    Shape qt xml c t memo profiles ∧ Restores qt xml c memory (t,memo) := by
  obtain ⟨form,opens,manages,valid⟩ := openedManaged memory nothing shape.stored
  simp only [programAct,shape.valid,opens,Option.map_some,Option.some.injEq] at act
  have managed : ∀ other ∈ some form, ∃ e, Manages qt c other e ∧ e.entries = profiles := by
    rintro _ ⟨⟩
    exact ⟨_,manages,rfl⟩
  have after : Shape qt xml c t memo profiles := by
    subst act
    exact ⟨shape.settings,shape.stored,valid,shape.plain,shape.room,shape.numbered,shape.box,managed⟩
  refine ⟨after,(restoresIff nothing after).mpr ?_⟩
  have fits := (restoresIff nothing shape).mp restores
  subst act
  exact fits

def Shaped (qt : Qt) (xml : SettingsXml) (c : Crypto) (s : Program × Identities) : Prop :=
  ∃ profiles, Shape qt xml c s.1 s.2 profiles

/- Where the selection would be restored before a step, it would be after it exactly if the
step leaves the remembered place right. -/
theorem selectionStep {s s' : Program × Identities} {l : ProgramLabel} {seen : Unit} (nothing : qt.ReadsNothing)
    (shaped : Shaped qt xml c s) (restores : Restores qt xml c memory s) (unchecked : Unchecked l)
    (act : (watch (programMachine qt xml c memory) noteProfiles).act s l = some (seen,s')) :
    Shaped qt xml c s' ∧ (Restores qt xml c memory s' ↔ KeepsSelection s l) := by
  obtain ⟨acted,noted⟩ := watchAct act
  obtain ⟨t,made,same⟩ := Option.map_eq_some_iff.mp acted
  obtain ⟨s,memo⟩ := s
  obtain ⟨s',memo'⟩ := s'
  obtain ⟨profiles,shape⟩ := shaped
  cases same
  cases noted
  cases l with
  | press =>
    obtain ⟨after,right⟩ := pressStep nothing shape made
    exact ⟨⟨_,after⟩,iff_of_true right trivial⟩
  | restart =>
    obtain ⟨after,right⟩ := restartStep nothing shape made
    exact ⟨⟨_,after⟩,iff_of_true right trivial⟩
  | select index =>
    obtain ⟨after,right⟩ := selectStep nothing shape restores made
    exact ⟨⟨_,after⟩,right⟩
  | viewProfileManager =>
    obtain ⟨after,right⟩ := viewStep nothing shape restores made
    exact ⟨⟨_,after⟩,iff_of_true right trivial⟩
  | manage i => exact manageStep nothing shape restores unchecked made

theorem programMoves (memory : Nat → Int32 × Bool) (nothing : qt.ReadsNothing) (shape : Shape qt xml c s memo profiles)
    (l : ProgramLabel) : (∃ t, programAct qt xml c memory s l = some t) ∨ ∃ i form next, l = .manage i ∧
      s.profileManagerForm = some form ∧
      input qt c memory {form with file := s.profilesFile,invalidKey := s.invalidKey} i = some next ∧
      vectorRoom ≤ next.storedProfiles.pointers.length := by
  cases l with
  | press =>
    obtain ⟨fields,loads⟩ := loadStoredList nothing shape.stored shape.valid shape.plain
    exact .inl ⟨_,loads⟩
  | select index =>
    refine .inl ?_
    simp only [programAct,select]
    split
    · rename_i inside
      have size := congrArg List.length shape.box.items
      simp only [boxItems,List.length_append,List.length_map,List.length_singleton] at size
      have range : 0 ≤ (index : Int) ∧ (index : Int) < s.main.cboSelectedProfile.items.length := by omega
      have offered : offers s.main.storedProfiles index := ⟨range.1,by omega⟩
      have loads : loadSelectedProfile s.main.storedProfiles (boxItems s.main.storedProfiles) index s.main.fields =
          some (entryFields s.main.storedProfiles index) := loadEntry offered
      rw [← shape.box.items] at loads
      rw [setCurrentIndex,if_pos range,moveTo]
      split
      · exact ⟨_,rfl⟩
      · rw [loads]
        exact ⟨_,rfl⟩
    · exact ⟨s,rfl⟩
  | viewProfileManager =>
    obtain ⟨form,opens,-,-⟩ := openedManaged memory nothing shape.stored
    rw [programAct,shape.valid,opens]
    exact .inl ⟨_,rfl⟩
  | manage i =>
    simp only [programAct,manage]
    split
    · exact .inl ⟨s,rfl⟩
    · rename_i form opened
      obtain ⟨e,manages,rfl⟩ := shape.managed form opened
      obtain ⟨next,taken,-⟩ := inputManaged memory shape.stored manages i
      rw [← shape.valid] at taken
      rw [taken,Option.bind_some]
      by_cases room : next.storedProfiles.pointers.length < vectorRoom
      · exact .inl ⟨_,if_pos room⟩
      · exact .inr ⟨i,form,next,rfl,opened,taken,Nat.le_of_not_lt room⟩
  | restart =>
    obtain ⟨n,fields,-,starts⟩ := restartList memory nothing shape
    exact .inl ⟨_,starts⟩

def firstIdentities (count : Nat) : Identities := ⟨List.range count,List.range count,count⟩

theorem firstShape {n : Int32} (memory : Nat → Int32 × Bool) (nothing : qt.ReadsNothing)
    (index : Settings.StoredIndex qt xml c settingsFile n) (stored : StoredList qt c profilesFile profiles)
    (plain : NoDefault profiles) (room : profiles.length < vectorRoom) : ∃ s,
    frmMain qt xml c memory settingsFile profilesFile = some s ∧
    Shape qt xml c s (firstIdentities profiles.length) profiles ∧
    Restores qt xml c memory (s,firstIdentities profiles.length) := by
  obtain ⟨fields,starts⟩ := startedList memory nothing index stored plain
  have numbered : Numbered (firstIdentities profiles.length) profiles :=
    ⟨List.length_range.symm,List.nodup_range,by simp [firstIdentities]⟩
  have unopened : ∀ form ∈ (none : Option Form), ∃ e, Manages qt c form e ∧ e.entries = profiles := by simp
  obtain ⟨shape,fits⟩ := loadedShape stored plain room numbered unopened rfl
  exact ⟨_,starts,shape,(restoresIff nothing shape).mpr fits⟩

/-- Over a run of the client in which no profile is the default the next start would restore
the selection all along exactly if every step leaves the remembered place right. -/
theorem selectionRestoredIff {n : Int32} (nothing : qt.ReadsNothing)
    (index : Settings.StoredIndex qt xml c settingsFile n) (stored : StoredList qt c profilesFile profiles)
    (plain : NoDefault profiles) (room : profiles.length < vectorRoom) (memory : Nat → Int32 × Bool)
    {labels : List ProgramLabel} (unchecked : ∀ l ∈ labels, Unchecked l) : ∃ s,
    frmMain qt xml c memory settingsFile profilesFile = some s ∧
    (HoldsAlong (watch (programMachine qt xml c memory) noteProfiles) (Restores qt xml c memory)
        (s,firstIdentities profiles.length) labels ↔
      MeetsAlong (watch (programMachine qt xml c memory) noteProfiles) KeepsSelection
        (s,firstIdentities profiles.length) labels) := by
  obtain ⟨s,starts,shape,restores⟩ := firstShape memory nothing index stored plain room
  exact ⟨s,starts,holdsAlongIff (selectionStep nothing) unchecked ⟨profiles,shape⟩ restores⟩

def labProfile : Profile := ⟨text "Lab",text "10.0.0.3",text "pw",22,false⟩
def twoSaved : Option Text := (saveProfiles plainQt secretCrypto .success none [officeProfile,labProfile]).2

def selecting : Machine (Program × Identities) ProgramLabel Unit :=
  watch (programMachine plainQt plainSettings secretCrypto cleared) noteProfiles

theorem selectingActs {l : ProgramLabel} (made : programAct plainQt plainSettings secretCrypto cleared s l = some t) :
    selecting.act (s,memo) l = some ((),t,noteProfiles memo s l () t) := by
  simp [selecting,watch,programMachine,made]

theorem plainNothing : plainQt.ReadsNothing := rfl
theorem noIndex : Settings.StoredIndex plainQt plainSettings secretCrypto none (-1) := .inr ⟨rfl,rfl⟩
theorem twoStored : StoredList plainQt secretCrypto twoSaved [officeProfile,labProfile] := .inl rfl
theorem twoPlain : NoDefault [officeProfile,labProfile] := by simp [NoDefault,officeProfile,labProfile]

theorem selectionRestored : ∃ s, frmMain plainQt plainSettings secretCrypto cleared none twoSaved = some s ∧
    HoldsAlong selecting (Restores plainQt plainSettings secretCrypto cleared) (s,firstIdentities 2)
      [.press,.select 1,.viewProfileManager,.restart] := by
  have unchecked : ∀ l ∈ [.press,.select 1,.viewProfileManager,.restart], Unchecked l := by simp [Unchecked]
  obtain ⟨s,starts,right⟩ :=
    selectionRestoredIff plainNothing noIndex twoStored twoPlain (by decide) cleared unchecked
  refine ⟨s,starts,right.mpr ?_⟩
  intro _ t pressed
  obtain ⟨-,memo⟩ := watchAct pressed
  refine ⟨trivial,fun _ u selected => ⟨fun _ => ?_,fun _ v viewed => ⟨trivial,fun _ w ended => ⟨trivial,trivial⟩⟩⟩⟩
  rw [memo]
  exact fitsHere _ _

theorem openedFirst (p : Profile) (rest : List Profile) : (ListEditor.opened (p::rest)).selected = some 0 := by
  simp [ListEditor.selected,ListEditor.opened]

theorem openedDelete (qt : Qt) (p : Profile) (rest : List Profile) :
    (edit qt (.opened (p::rest)) .deleteProfile).entries = rest := by
  rw [edit,ListEditor.deleteSelected (openedFirst p rest)]
  rfl

theorem otherProfileSelected : ∃ s t u, frmMain plainQt plainSettings secretCrypto cleared none twoSaved = some s ∧
    Reaches selecting free (s,firstIdentities 2) t ∧ selectedIdentity t.1 t.2.shown = some 0 ∧ t.2.stored = [1] ∧
    restart plainQt plainSettings secretCrypto cleared t.1 = some u ∧ selectedIdentity u t.2.stored = some 1 := by
  obtain ⟨fields,starts⟩ := startedList cleared plainNothing noIndex twoStored twoPlain
  obtain ⟨form,opens,manages,valid⟩ := openedManaged cleared plainNothing twoStored
  obtain ⟨next,taken,after,stored,still⟩ := inputManaged (e := .opened _) cleared twoStored manages .deleteProfile
  have left := openedDelete plainQt officeProfile [labProfile]
  have one : NoDefault [labProfile] := by simp [NoDefault,labProfile]
  have saved : Settings.StoredIndex plainQt plainSettings secretCrypto
    (Settings.saveSettings plainQt plainSettings secretCrypto none 0) 0 := .inl rfl
  rw [left] at stored
  obtain ⟨fields',again⟩ := startedList cleared plainNothing saved stored one
  have offered : offers [officeProfile,labProfile] 0 := by decide
  have range : 0 ≤ ((0 : Nat) : Int) ∧ ((0 : Nat) : Int) < (boxItems [officeProfile,labProfile]).length := by decide
  have chosen : setCurrentIndex (loadSelectedProfile [officeProfile,labProfile]) (0 : Nat)
      ⟨boxItems [officeProfile,labProfile],-1⟩ fields = some (⟨boxItems [officeProfile,labProfile],0⟩,
        entryFields [officeProfile,labProfile] 0) := by
    rw [setCurrentIndex,if_pos range]
    exact moveRuns (show (0 : Int) ≠ -1 by decide) (loadEntry offered)
  have enabled : form.enabled = true := by
    have shown : form.enabled = _ := manages.enabled
    rw [shown,openedFirst]
    rfl
  have row : form.selectedProfileIndex = 0 := manages.index
  have room : next.storedProfiles.pointers.length < vectorRoom := by
    have fresh : next.storedProfiles = .fresh _ := after.stored
    rw [fresh,left]
    decide
  let stay : Option Text := Settings.saveSettings plainQt plainSettings secretCrypto none (-1)
  let main : ProfileBox := ⟨[officeProfile,labProfile],⟨boxItems [officeProfile,labProfile],0⟩,
    entryFields [officeProfile,labProfile] 0⟩
  have first : selecting.act (⟨-1,stay,twoSaved,false,⟨[officeProfile,labProfile],
      ⟨boxItems [officeProfile,labProfile],-1⟩,fields⟩,none⟩,firstIdentities 2) (.select 0) =
      some ((),⟨-1,stay,twoSaved,false,main,none⟩,firstIdentities 2) := by
    refine selectingActs ?_
    simp only [programAct,select,chosen]
    rfl
  have second : selecting.act (⟨-1,stay,twoSaved,false,main,none⟩,firstIdentities 2) .viewProfileManager =
      some ((),⟨-1,stay,twoSaved,false,main,some form⟩,firstIdentities 2) := by
    refine selectingActs ?_
    simp only [programAct,opens,Option.map_some,valid]
  have third : selecting.act (⟨-1,stay,twoSaved,false,main,some form⟩,firstIdentities 2) (.manage .deleteProfile) =
      some ((),⟨-1,stay,next.file,false,main,some next⟩,⟨[1],[0,1],2⟩) := by
    have made : programAct plainQt plainSettings secretCrypto cleared ⟨-1,stay,twoSaved,false,main,some form⟩
        (.manage .deleteProfile) = some ⟨-1,stay,next.file,false,main,some next⟩ := by
      simp only [programAct,manage,taken,Option.bind_some,if_pos room,still]
    rw [selectingActs made]
    simp only [noteProfiles,enabled,if_true,row]
    rfl
  exact ⟨_,_,_,starts,.step (.step (.step .refl trivial first) trivial second) trivial third,rfl,rfl,again,rfl⟩

end RemoteTerminal
