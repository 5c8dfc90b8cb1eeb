import RemoteTerminal.Client.InvalidKey
import RemoteTerminal.Library.Runs

/-! The default profile. Nothing in the store keeps a second profile from being one: it is
the check box of the profile manager that can be set only where no other profile is. -/
namespace RemoteTerminal
open ByteStrings PlainText CryptoObject ProfileManager LabelledRuns

namespace FrmProfileManager

inductive Move where
  | addNewProfile
  | deleteProfile
  | saveProfile
  | selectRow (row : Nat)
  | enter (fields : Fields)
  | toggleDefault
  | reopen
  deriving DecidableEq, Repr

def enter (form : Form) (fields : Fields) : Form :=
  if form.enabled then {form with fields := {fields with chkSetDefaultProfile := form.fields.chkSetDefaultProfile}}
  else form

def toggleDefault (form : Form) : Form :=
  if form.chkSetDefaultProfileEnabled then
    {form with fields.chkSetDefaultProfile := !form.fields.chkSetDefaultProfile}
  else form

def move (qt : Qt) (c : Crypto) (memory : Nat → Int32 × Bool) (form : Form) : Move → Option Form
  | .addNewProfile => input qt c memory form .addNewProfile
  | .deleteProfile => input qt c memory form .deleteProfile
  | .saveProfile => input qt c memory form (.saveProfile form.fields)
  | .selectRow row => input qt c memory form (.selectRow row)
  | .enter fields => some (enter form fields)
  | .toggleDefault => some (toggleDefault form)
  | .reopen => frmProfileManager qt c memory form.invalidKey form.file

def defaults (profiles : List Profile) : Nat := profiles.countP fun p => p.profileAsDefault

def Form.boxOpen (form : Form) : Prop :=
  form.fields.chkSetDefaultProfile = true ∨ form.chkSetDefaultProfileEnabled = true

def BoxFits (form : Form) (e : ListEditor Profile) : Prop :=
  form.boxOpen → ∃ i p, e.selected = some i ∧ e.entries[i]? = some p ∧
    (p.profileAsDefault = true ∨ defaults e.entries = 0)

structure Kept (qt : Qt) (c : Crypto) (form : Form) (e : ListEditor Profile) : Prop where
  shows : Shows qt c form e
  fits : BoxFits form e
  one : defaults e.entries ≤ 1

def Blank (qt : Qt) (c : Crypto) (form : Form) : Prop :=
  ∃ profiles, defaults profiles ≤ 1 ∧ form = emptyForm (saveProfiles qt c .success none profiles).2

section
variable {qt : Qt} {c : Crypto} {memory : Nat → Int32 × Bool} {form next : Form} {e : ListEditor Profile}

theorem defaultsSet {profiles : List Profile} {i : Nat} (inside : i < profiles.length) (p : Profile)
    (one : defaults profiles ≤ 1)
    (fits : p.profileAsDefault = true → profiles[i].profileAsDefault = true ∨ defaults profiles = 0) :
    defaults (profiles.set i p) ≤ 1 := by
  unfold defaults at one fits ⊢
  rw [List.countP_set inside]
  cases checked : p.profileAsDefault with
  | false => simp only [Bool.false_eq_true,if_false]; omega
  | true =>
    rcases fits checked with already | none
    · have present : 0 < profiles.countP fun p => p.profileAsDefault :=
        List.countP_pos_iff.mpr ⟨profiles[i],List.getElem_mem inside,already⟩
      simp only [already,if_true]
      omega
    · simp only [if_true,none]
      omega

theorem selectedDefault (profiles : List Profile) :
    isDefaultProfileSelected (.fresh profiles) = decide (0 < defaults profiles) := by
  unfold isDefaultProfileSelected
  rw [freshValues,defaults,Bool.eq_iff_iff,List.any_eq_true,decide_eq_true_iff,List.countP_pos_iff]

theorem loadedFits {before : Form} {index : Int} (loads : loadProfile index before = some next)
    (shows : Shows qt c next e) : BoxFits next e := by
  unfold loadProfile at loads
  simp only [bind,Option.bind_eq_some_iff] at loads
  obtain ⟨pointer,at_,p,found,loaded⟩ := loads
  cases Option.some.inj loaded
  obtain ⟨stored,-,position,-,-,-⟩ := shows
  have stored : before.storedProfiles = .fresh e.entries := stored
  have position : index = (e.position.map Int.ofNat).getD (-1) := position
  rw [stored] at at_ found
  cases here : e.position with
  | none => simp [position,here,pointerAt] at at_
  | some i =>
    simp only [position,here,Option.map_some,Option.getD_some] at at_
    have pointed : (List.range e.entries.length)[i]? = some pointer := by
      simpa [pointerAt,StoredProfiles.fresh] using at_
    obtain ⟨inside,same⟩ := List.getElem?_eq_some_iff.mp pointed
    rw [List.length_range] at inside
    rw [List.getElem_range] at same
    subst same
    intro box
    refine ⟨i,p,e.selectedIff.mpr ⟨here,inside⟩,found,?_⟩
    have box : p.profileAsDefault = true ∨
        (p.profileAsDefault || !isDefaultProfileSelected before.storedProfiles) = true := box
    rw [stored,selectedDefault] at box
    by_cases default_ : p.profileAsDefault = true
    · exact .inl default_
    · refine .inr ?_
      simpa [default_] using box

theorem closedFits (closed : ¬ form.boxOpen) : BoxFits form e := fun box => (closed box).elim

theorem addLoads (shows : Shows qt c form e) (fits : BoxFits form e)
    (added : addNewProfile qt c memory form = some next) :
    (∃ before index, loadProfile index before = some next) ∨ ¬ next.boxOpen := by
  unfold addNewProfile at added
  simp only at added
  split at added
  · simp only [bind,Option.bind_eq_some_iff] at added
    obtain ⟨-,-,loads⟩ := added
    exact .inl ⟨_,_,loads⟩
  · rename_i none
    cases Option.some.inj added
    refine .inr fun box => ?_
    obtain ⟨i,-,selected,-⟩ := fits box
    have index := shows.index
    have none : ¬ form.selectedProfileIndex ≠ -1 := none
    rw [(e.selectedIff.mp selected).1,Option.map_some,Option.getD_some] at index
    have here : form.selectedProfileIndex = i := index
    omega

theorem deleteLoads (deleted : deleteProfile qt c memory form = some next) :
    (∃ before index, loadProfile index before = some next) ∨ ¬ next.boxOpen := by
  unfold deleteProfile at deleted
  simp only [bind,Option.bind_eq_some_iff] at deleted
  obtain ⟨-,-,deleted⟩ := deleted
  split at deleted
  · obtain ⟨-,-,loads⟩ := Option.bind_eq_some_iff.mp deleted
    exact .inl ⟨_,_,loads⟩
  · cases Option.some.inj deleted
    refine .inr ?_
    rintro (checked | enabled)
    · exact Bool.noConfusion checked
    · exact Bool.noConfusion enabled

theorem saveLoads (saved : saveProfile qt c memory form = some next) :
    ∃ before index, loadProfile index before = some next := by
  unfold saveProfile at saved
  simp only [bind,Option.bind_eq_some_iff] at saved
  obtain ⟨_,_,_,_,loaded,loads,_,_,same⟩ := saved
  cases Option.some.inj same
  exact ⟨_,_,loads⟩

theorem addKept (memory : Nat → Int32 × Bool) (kept : Kept qt c form e) :
    ∃ next, addNewProfile qt c memory form = some next ∧ Kept qt c next (e.append (newEntry e)) := by
  obtain ⟨next,added,shows⟩ := inputShows memory kept.shows .addNewProfile
  have one : defaults (e.append (newEntry e)).entries ≤ 1 := by
    simpa [defaults,ListEditor.append,newEntry] using kept.one
  refine ⟨next,added,shows,?_,one⟩
  rcases addLoads kept.shows kept.fits added with ⟨_,_,loads⟩ | closed
  · exact loadedFits loads shows
  · exact closedFits closed

theorem deleteKept (memory : Nat → Int32 × Bool) (kept : Kept qt c form e) (enabled : form.enabled = true) :
    ∃ next, deleteProfile qt c memory form = some next ∧ Kept qt c next e.delete := by
  obtain ⟨next,deleted,shows⟩ := deleteShows kept.shows enabled
  obtain ⟨i,selected,-,-⟩ := enabledSelected kept.shows enabled
  have fewer : defaults e.delete.entries ≤ defaults e.entries := by
    rw [ListEditor.deleteSelected selected]
    exact (List.eraseIdx_sublist e.entries i).countP_le
  refine ⟨next,deleted,shows,?_,fewer.trans kept.one⟩
  rcases deleteLoads deleted with ⟨_,_,loads⟩ | closed
  · exact loadedFits loads shows
  · exact closedFits closed

theorem saveKept (memory : Nat → Int32 × Bool) (kept : Kept qt c form e) (enabled : form.enabled = true) :
    ∃ next, saveProfile qt c memory form = some next ∧ Kept qt c next (e.replace (form.fields.saved qt)) := by
  obtain ⟨next,saved,shows⟩ := saveShows kept.shows enabled
  obtain ⟨i,selected,inside,-⟩ := enabledSelected kept.shows enabled
  have fits : (form.fields.saved qt e.entries[i]).profileAsDefault = true →
      e.entries[i].profileAsDefault = true ∨ defaults e.entries = 0 := by
    intro checked
    obtain ⟨j,p,selected',found,fits⟩ := kept.fits (.inl checked)
    cases Option.some.inj (selected'.symm.trans selected)
    rw [List.getElem?_eq_getElem inside] at found
    cases Option.some.inj found
    exact fits
  have one : defaults (e.replace (form.fields.saved qt)).entries ≤ 1 := by
    have entries : (e.replace (form.fields.saved qt)).entries = e.entries.set i (form.fields.saved qt e.entries[i]) := by
      rw [ListEditor.replaceSelected _ selected]
      exact List.modify_eq_set_get _ inside
    rw [entries]
    exact defaultsSet inside _ kept.one fits
  obtain ⟨_,_,loads⟩ := saveLoads saved
  exact ⟨next,saved,shows,loadedFits loads shows,one⟩

theorem selectKept {row : Nat} (kept : Kept qt c form e) (inside : row < form.lstStoredProfiles.length) :
    ∃ next, loadProfile row form = some next ∧ Kept qt c next (e.select row) := by
  obtain ⟨next,loads,shows⟩ := selectShows kept.shows inside
  have same : (e.select row).entries = e.entries := by
    unfold ListEditor.select
    split <;> rfl
  exact ⟨next,loads,shows,loadedFits loads shows,by rw [same]; exact kept.one⟩

theorem enterKept (kept : Kept qt c form e) (fields : Fields) : Kept qt c (enter form fields) e := by
  unfold enter
  split
  · exact ⟨⟨kept.shows.stored,kept.shows.rows,kept.shows.index,kept.shows.enabled,kept.shows.file,kept.shows.valid⟩,
      kept.fits,kept.one⟩
  · exact kept

theorem toggleKept (kept : Kept qt c form e) : Kept qt c (toggleDefault form) e := by
  unfold toggleDefault
  split
  · rename_i enabled
    exact ⟨⟨kept.shows.stored,kept.shows.rows,kept.shows.index,kept.shows.enabled,kept.shows.file,kept.shows.valid⟩,
      fun _ => kept.fits (.inr enabled),kept.one⟩
  · exact kept

theorem openedKept (qt : Qt) (c : Crypto) (memory : Nat → Int32 × Bool) (file : Option Text)
    {profiles : List Profile} (one : defaults profiles ≤ 1) : ∃ form,
    frmProfileManager qt c memory false (saveProfiles qt c .success file profiles).2 = some form ∧
    Kept qt c form (.opened profiles) := by
  obtain ⟨form,opens,shows⟩ := openedShows qt c memory file profiles
  refine ⟨form,opens,shows,?_,one⟩
  unfold frmProfileManager at opens
  simp only [bind] at opens
  split at opens
  · obtain ⟨-,-,loads⟩ := Option.bind_eq_some_iff.mp opens
    exact loadedFits loads shows
  · cases Option.some.inj opens
    exact closedFits (by rintro (checked | enabled) <;> contradiction)

theorem moveKept (memory : Nat → Int32 × Bool) (kept : Kept qt c form e) (m : Move) :
    ∃ next, move qt c memory form m = some next ∧ ∃ e', Kept qt c next e' := by
  cases m with
  | addNewProfile =>
    obtain ⟨next,added,after⟩ := addKept memory kept
    exact ⟨next,added,_,after⟩
  | deleteProfile =>
    by_cases enabled : form.enabled = true
    · obtain ⟨next,deleted,after⟩ := deleteKept memory kept enabled
      exact ⟨next,by rw [move,input,if_pos enabled,deleted],_,after⟩
    · exact ⟨form,by rw [move,input,if_neg enabled],e,kept⟩
  | saveProfile =>
    by_cases enabled : form.enabled = true
    · obtain ⟨next,saved,after⟩ := saveKept memory kept enabled
      exact ⟨next,by rw [move,input,if_pos enabled]; exact saved,_,after⟩
    · exact ⟨form,by rw [move,input,if_neg enabled],e,kept⟩
  | selectRow row =>
    by_cases inside : row < form.lstStoredProfiles.length
    · obtain ⟨next,loads,after⟩ := selectKept kept inside
      exact ⟨next,by rw [move,input,if_pos inside,loads],_,after⟩
    · exact ⟨form,by rw [move,input,if_neg inside],e,kept⟩
  | enter fields => exact ⟨_,rfl,e,enterKept kept fields⟩
  | toggleDefault => exact ⟨_,rfl,e,toggleKept kept⟩
  | reopen =>
    obtain ⟨next,opens,after⟩ := openedKept qt c memory none kept.one
    exact ⟨next,by rw [move,kept.shows.valid,kept.shows.file,opens],_,after⟩

theorem moveBlank (memory : Nat → Int32 × Bool) (blank : Blank qt c form) (m : Move) :
    ∃ next, move qt c memory form m = some next ∧ Blank qt c next := by
  obtain ⟨profiles,one,rfl⟩ := blank
  cases m with
  | addNewProfile =>
    exact ⟨_,addsOnly qt c memory _,[⟨newProfileName 0,[],[],0,false⟩],by simp [defaults],rfl⟩
  | reopen =>
    have opens : frmProfileManager qt c memory true _ = some _ :=
      opensEmpty qt c memory (saveProfiles qt c .success none profiles).2
    exact ⟨_,opens,profiles,one,rfl⟩
  | deleteProfile | saveProfile | selectRow row | enter fields | toggleDefault =>
    exact ⟨_,rfl,profiles,one,rfl⟩

end

/-- From a stored list with at most one default profile no sequence of operations makes one
with two, whether or not the key fits. -/
theorem atMostOneDefault (qt : Qt) (c : Crypto) (memory : Nat → Int32 × Bool) (invalidKey : Bool) (file : Option Text)
    (profiles : List Profile) (one : defaults profiles ≤ 1) (moves : List Move) : ∃ opened form,
    frmProfileManager qt c memory invalidKey (saveProfiles qt c .success file profiles).2 = some opened ∧
    moves.foldlM (move qt c memory) opened = some form ∧
    defaults (getProfiles qt c memory false form.file).1.values ≤ 1 := by
  have read : ∀ more, (getProfiles qt c memory false (saveProfiles qt c .success none more).2).1.values = more := by
    intro more
    rw [getSaved]
    exact freshValues more
  cases invalidKey with
  | false =>
    obtain ⟨opened,opens,kept⟩ := openedKept qt c memory file one
    obtain ⟨form,ran,e,after⟩ := keepsEvery (I := fun form => ∃ e, Kept qt c form e)
      (fun m ⟨_,kept⟩ => moveKept memory kept m) moves ⟨_,kept⟩
    exact ⟨opened,form,opens,ran,by rw [after.shows.file,read]; exact after.one⟩
  | true =>
    obtain ⟨form,ran,more,fewer,same⟩ := keepsEvery (I := Blank qt c)
      (fun m blank => moveBlank memory blank m) moves ⟨profiles,one,rfl⟩
    exact ⟨_,form,opensEmpty qt c memory _,ran,by rw [same,emptyForm,read]; exact fewer⟩

theorem secondDefaultRefused : ∃ opened form,
    frmProfileManager plainQt secretCrypto cleared false homeSaved = some opened ∧
    [.addNewProfile,.selectRow 1,.toggleDefault,.saveProfile].foldlM (move plainQt secretCrypto cleared) opened =
      some form ∧
    defaults (getProfiles plainQt secretCrypto cleared false form.file).1.values ≤ 1 :=
  atMostOneDefault plainQt secretCrypto cleared false none [homeProfile] (by decide)
    [.addNewProfile,.selectRow 1,.toggleDefault,.saveProfile]

end FrmProfileManager
end RemoteTerminal
