import RemoteTerminal.Client.ProfileForm

/-! One `Crypto` object serves the settings and the profiles. Once a decryption has failed
`GetProfiles` finds no profiles, and the profile manager saves what it found. -/
namespace RemoteTerminal
open ByteStrings PlainText CryptoObject ProfileManager FrmProfileManager

inductive CryptoCall where
  | decryptString (encryptedText : Text)
  | decryptSettingsFile (file : Option Text)
  deriving DecidableEq, Repr

def invalidAfter (qt : Qt) (c : Crypto) (invalidKey : Bool) : CryptoCall → Bool
  | .decryptString encryptedText => (decryptString qt c invalidKey encryptedText).2
  | .decryptSettingsFile file => (decryptSettingsFile qt c invalidKey file).2

def CryptoCall.fails (qt : Qt) (c : Crypto) : CryptoCall → Bool
  | .decryptString encryptedText => !c.verifies (qt.toStdString encryptedText)
  | .decryptSettingsFile none => false
  | .decryptSettingsFile (some content) => !c.verifies (qt.toStdString (readLines content))

def settingsCalls (settingsFile : Option Text) : List CryptoCall :=
  match settingsFile with
  | none | some [] => []
  | some content => [.decryptSettingsFile (some content)]

theorem invalidAfterCall (qt : Qt) (c : Crypto) (invalidKey : Bool) (call : CryptoCall) :
    invalidAfter qt c invalidKey call = (invalidKey || call.fails qt c) := by
  cases call with
  | decryptString encryptedText => rfl
  | decryptSettingsFile file =>
    cases file with
    | none => exact (Bool.or_false _).symm
    | some content => rfl

theorem invalidAfterCalls (qt : Qt) (c : Crypto) (invalidKey : Bool) (calls : List CryptoCall) :
    calls.foldl (invalidAfter qt c) invalidKey = (invalidKey || calls.any (CryptoCall.fails qt c)) := by
  induction calls generalizing invalidKey with
  | nil => exact (Bool.or_false _).symm
  | cons call rest ih => rw [List.foldl_cons,ih,invalidAfterCall,List.any_cons,Bool.or_assoc]

/- `kept` is what a New in the profile manager leaves for a program that is started again. -/
structure LoadsSaved (qt : Qt) (c : Crypto) (memory : Nat → Int32 × Bool) (invalidKey : Bool) (file : Option Text)
    (profiles : List Profile) : Prop where
  loaded : (getProfiles qt c memory invalidKey file).1.values = profiles
  kept : ∃ opened form, frmProfileManager qt c memory invalidKey file = some opened ∧
    addNewProfile qt c memory opened = some form ∧
    profiles <+: (getProfiles qt c memory false form.file).1.values

theorem getInvalid (qt : Qt) (c : Crypto) (memory : Nat → Int32 × Bool) (file : Option Text) :
    getProfiles qt c memory true file = (⟨[],[]⟩,true) := by
  cases file <;> rfl

def emptyForm (file : Option Text) : Form := ⟨⟨[],[]⟩,[],-1,emptyFields,false,false,file,true⟩

theorem opensEmpty (qt : Qt) (c : Crypto) (memory : Nat → Int32 × Bool) (file : Option Text) :
    frmProfileManager qt c memory true file = some (emptyForm file) := by
  simp only [frmProfileManager,loadProfiles,getInvalid]
  rfl

theorem addsOnly (qt : Qt) (c : Crypto) (memory : Nat → Int32 × Bool) (file : Option Text) :
    addNewProfile qt c memory (emptyForm file) =
      some (emptyForm (saveProfiles qt c .success file [⟨newProfileName 0,[],[],0,false⟩]).2) := by
  simp only [addNewProfile,emptyForm,loadProfiles,saveStored,getInvalid]
  rfl

theorem keptValid (qt : Qt) (c : Crypto) (memory : Nat → Int32 × Bool) (file : Option Text)
    (profiles : List Profile) :
    LoadsSaved qt c memory false (saveProfiles qt c .success file profiles).2 profiles := by
  have read : ∀ more, (getProfiles qt c memory false (saveProfiles qt c .success none more).2).1.values = more := by
    intro more
    rw [getSaved]
    exact freshValues more
  obtain ⟨opened,opens,shows⟩ := openedShows qt c memory file profiles
  obtain ⟨form,added,shown⟩ := inputShows memory shows .addNewProfile
  refine ⟨read profiles,opened,form,opens,added,?_⟩
  rw [shown.file,read]
  exact List.prefix_append _ _

/-- `GetProfiles` returns what was saved exactly if no decryption before it failed, or
nothing was saved. -/
theorem loadsSavedIff (qt : Qt) (c : Crypto) (memory : Nat → Int32 × Bool) (calls : List CryptoCall)
    (file : Option Text) (profiles : List Profile) :
    LoadsSaved qt c memory (calls.foldl (invalidAfter qt c) false)
        (saveProfiles qt c .success file profiles).2 profiles ↔
      (∀ call ∈ calls, call.fails qt c = false) ∨ profiles = [] := by
  rw [invalidAfterCalls,Bool.false_or]
  cases failed : calls.any (CryptoCall.fails qt c) with
  | false =>
    have none : ∀ call ∈ calls, call.fails qt c = false := by simpa using failed
    exact iff_of_true (keptValid qt c memory file profiles) (.inl none)
  | true =>
    obtain ⟨call,mem,fails⟩ := List.any_eq_true.mp failed
    constructor
    · rintro ⟨loaded,-⟩
      rw [getInvalid] at loaded
      exact .inr loaded.symm
    · rintro (none | rfl)
      · nomatch fails.symm.trans (none call mem)
      · exact ⟨by rw [getInvalid]; rfl,_,_,opensEmpty qt c memory _,addsOnly qt c memory _,List.nil_prefix⟩

def damagedSettings : Text := text "00"

def afterDamagedSettings : Bool :=
  (settingsCalls (some damagedSettings)).foldl (invalidAfter plainQt secretCrypto) false

theorem damagedSettingsLoseProfiles :
    ¬ LoadsSaved plainQt secretCrypto cleared afterDamagedSettings homeSaved [homeProfile] ∧
    ∃ opened form, frmProfileManager plainQt secretCrypto cleared afterDamagedSettings homeSaved = some opened ∧
      addNewProfile plainQt secretCrypto cleared opened = some form ∧
      (getProfiles plainQt secretCrypto cleared false form.file).1.values =
        [⟨text "New Profile 1",[],[],0,false⟩] := by
  have invalid : afterDamagedSettings = true := by decide +kernel
  rw [invalid]
  constructor
  · rintro ⟨loaded,-⟩
    rw [getInvalid] at loaded
    nomatch loaded
  · refine ⟨_,_,opensEmpty _ _ _ _,addsOnly _ _ _ _,?_⟩
    rw [emptyForm,getSaved]
    exact freshValues _

end RemoteTerminal
