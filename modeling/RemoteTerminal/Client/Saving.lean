import RemoteTerminal.Client.ProfileForm

/-! What `EncryptSettingsFile` leaves behind when a file operation fails. The old file is
removed before the new one is opened, and nobody asks whether the writing succeeded. -/
namespace RemoteTerminal
open ByteStrings HexCodec PlainText CryptoObject ProfileManager

def replacementCharacter : Char := Char.ofNat 0xFFFD

/- Without some of its last bytes a text reads as another one, unless its last character is
the one that stands for lost bytes. -/
def Qt.CutsShow (qt : Qt) : Prop :=
  ∀ (t : Text) (n : Nat), t.getLast? ≠ some replacementCharacter → n < (qt.toStdString t).length →
    qt.fromStdString ((qt.toStdString t).take n) ≠ t

theorem plainCutsShow : plainQt.CutsShow := fun _ _ last short same => last (Utf8.decodeShort short same)

namespace CryptoObject

def Complete (qt : Qt) (c : Crypto) (outcome : SaveOutcome) (xmlContent : Text) : Prop :=
  ∀ n ∈ outcome.written, (encryptString qt c xmlContent).length ≤ n

def AllOrNothing (qt : Qt) (c : Crypto) (outcome : SaveOutcome) (file : Option Text) (xmlContent : Text) : Prop :=
  let saved := encryptSettingsFile qt c outcome file xmlContent
  (saved.1 = true ∧ ∀ invalidKey, decryptSettingsFile qt c invalidKey saved.2 = (xmlContent,invalidKey)) ∨
  (saved.1 = false ∧ saved.2 = file)

/- What has to be so before: the file can be opened and takes everything, or it cannot be
opened and was not removed either. -/
def Spares (qt : Qt) (c : Crypto) (outcome : SaveOutcome) (file : Option Text) (xmlContent : Text) : Prop :=
  (outcome.opened = true ∧ Complete qt c outcome xmlContent) ∨
  (outcome.opened = false ∧ (file = none ∨ outcome.removed = false))

variable {qt : Qt} {c : Crypto} {outcome : SaveOutcome} {file : Option Text} {xmlContent : Text}

theorem encryptOpened (opened : outcome.opened = true) : encryptSettingsFile qt c outcome file xmlContent =
    (true,some ((encryptString qt c xmlContent).take
      (outcome.written.getD (encryptString qt c xmlContent).length))) := by
  simp only [encryptSettingsFile,opened,if_true]

theorem encryptUnopened (unopened : outcome.opened = false) : encryptSettingsFile qt c outcome file xmlContent =
    (false,if file.isSome ∧ outcome.removed then none else file) := by
  simp only [encryptSettingsFile,unopened,Bool.false_eq_true,if_false]

theorem encryptComplete (opened : outcome.opened = true) (complete : Complete qt c outcome xmlContent) :
    encryptSettingsFile qt c outcome file xmlContent = encryptSettingsFile qt c .success none xmlContent := by
  rw [encryptOpened opened,encryptOpened (rfl : SaveOutcome.success.opened = true)]
  cases written : outcome.written with
  | none => rfl
  | some n =>
    have long := complete n written
    simp only [SaveOutcome.success,Option.getD_some,Option.getD_none,List.take_of_length_le long,List.take_length]

theorem cipherLength (t : Text) : (encryptString qt c t).length = (c.encryptString (qt.toStdString t)).length := by
  rw [(cipherAscii qt c t).1,asciiText,List.length_map]

theorem decryptCut (invalidKey : Bool) (t : Text) (n : Nat) :
    (decryptSettingsFile qt c invalidKey (some ((encryptString qt c t).take n))).1 =
      qt.fromStdString ((qt.toStdString t).take (n / 2-16)) := by
  have plain : PlainValue ((encryptString qt c t).take n) :=
    fun ch mem => cipherPlain qt c t ch (List.mem_of_mem_take mem)
  have small : ∀ b ∈ (c.encryptString (qt.toStdString t)).take n, b < 128 := by
    intro b mem
    obtain ⟨k,under,rfl⟩ := c.encryptStringDigits (List.mem_of_mem_take mem)
    have digits : ∀ n : Fin 16, digit n.val < 128 := by decide
    exact digits ⟨k,under⟩
  have bytes : qt.toStdString ((encryptString qt c t).take n) = (c.encryptString (qt.toStdString t)).take n := by
    rw [(cipherAscii qt c t).1,asciiText,← List.map_take]
    exact qt.toStdStringAscii _ small
  simp only [decryptSettingsFile,readLinesPlain plain,decryptString,bytes,c.decryptEncryptedTake]

theorem tornShows (cutsShow : qt.CutsShow) (last : xmlContent.getLast? ≠ some replacementCharacter) {n : Nat}
    (torn : n < (encryptString qt c xmlContent).length) (invalidKey : Bool) :
    decryptSettingsFile qt c invalidKey (some ((encryptString qt c xmlContent).take n)) ≠ (xmlContent,invalidKey) := by
  have filled : qt.toStdString xmlContent ≠ [] := by
    intro empty
    rw [cipherLength,empty,c.encryptStringNil] at torn
    exact Nat.not_lt_zero n torn
  have some_ := List.length_pos_iff.mpr filled
  rw [cipherLength,c.encryptStringLength filled] at torn
  have shown : _ = qt.fromStdString _ := decryptCut (c := c) invalidKey xmlContent n
  intro same
  rw [same] at shown
  exact cutsShow xmlContent (n / 2-16) last (by omega) shown.symm

theorem sparesWhole (spares : Spares qt c outcome file xmlContent) : AllOrNothing qt c outcome file xmlContent := by
  unfold AllOrNothing
  rcases spares with ⟨opened,complete⟩ | ⟨unopened,kept⟩
  · rw [encryptComplete opened complete]
    exact .inl ⟨rfl,fun invalidKey => decryptSaved qt c invalidKey none xmlContent⟩
  · rw [encryptUnopened unopened]
    refine .inr ⟨rfl,if_neg ?_⟩
    rintro ⟨stored,removed⟩
    rcases kept with rfl | still
    · exact Bool.noConfusion stored
    · exact Bool.noConfusion (still.symm.trans removed)

theorem wholeSpares (cutsShow : qt.CutsShow) (last : xmlContent.getLast? ≠ some replacementCharacter)
    (whole : AllOrNothing qt c outcome file xmlContent) : Spares qt c outcome file xmlContent := by
  unfold AllOrNothing at whole
  cases opened : outcome.opened with
  | true =>
    rw [encryptOpened opened] at whole
    obtain ⟨-,reads⟩ | ⟨fails,-⟩ := whole
    · refine .inl ⟨opened,fun n written => Nat.le_of_not_lt fun torn => ?_⟩
      rw [Option.mem_def.mp written,Option.getD_some] at reads
      exact tornShows cutsShow last torn false (reads false)
    · exact Bool.noConfusion fails
  | false =>
    rw [encryptUnopened opened] at whole
    obtain ⟨fails,-⟩ | ⟨-,kept⟩ := whole
    · exact Bool.noConfusion fails
    · cases file with
      | none => exact .inr ⟨opened,.inl rfl⟩
      | some content =>
        refine .inr ⟨opened,.inr (Bool.eq_false_iff.mpr fun removed => ?_)⟩
        simp [removed] at kept

end CryptoObject

/-- Saving is all-or-nothing where the file was opened and took everything, or was neither
opened nor removed. With the content of an XML document it is so nowhere else. -/
theorem settingsFileSavedOrKept (qt : Qt) (c : Crypto) (outcome : SaveOutcome) (file : Option Text) (xmlContent : Text) :
    (Spares qt c outcome file xmlContent → AllOrNothing qt c outcome file xmlContent) ∧
    (qt.CutsShow → xmlContent.getLast? ≠ some replacementCharacter →
      AllOrNothing qt c outcome file xmlContent → Spares qt c outcome file xmlContent) :=
  ⟨sparesWhole,wholeSpares⟩

theorem settingsFileTorn : ¬ AllOrNothing plainQt secretCrypto ⟨true,true,some 8⟩ none (text "<Profiles/>") := by
  intro whole
  obtain ⟨-,complete⟩ | ⟨unopened,-⟩ := (settingsFileSavedOrKept plainQt secretCrypto ⟨true,true,some 8⟩ none
    (text "<Profiles/>")).2 plainCutsShow (by decide) whole
  · have short := complete 8 rfl
    rw [cipherLength] at short
    revert short
    decide +kernel
  · exact Bool.noConfusion unopened

theorem profilesLost :
    saveProfiles plainQt secretCrypto ⟨true,false,none⟩ FrmProfileManager.homeSaved
      [FrmProfileManager.homeProfile] = (false,none) ∧
    ¬ AllOrNothing plainQt secretCrypto ⟨true,false,none⟩ FrmProfileManager.homeSaved (text "<Profiles/>") := by
  refine ⟨rfl,?_⟩
  rintro (⟨saved,-⟩ | ⟨-,kept⟩)
  · exact Bool.noConfusion saved
  · have lost : none = FrmProfileManager.homeSaved := kept
    have stored : FrmProfileManager.homeSaved.isSome = true := rfl
    rw [← lost] at stored
    exact Bool.noConfusion stored

namespace ProfileManager

def profilesContent (qt : Qt) (c : Crypto) (selectedProfiles : List Profile) : Text :=
  qt.toByteArray ⟨⟨text "Profiles",[]⟩,selectedProfiles.map (profileElement qt c)⟩

/-- `GetProfiles` returns the profiles that `SaveProfiles` wrote, in their order. -/
theorem savedProfilesReturned (qt : Qt) (c : Crypto) (memory : Nat → Int32 × Bool) (outcome : SaveOutcome)
    (file : Option Text) (profiles : List Profile)
    (saved : (saveProfiles qt c outcome file profiles).1 = true)
    (written : Complete qt c outcome (profilesContent qt c profiles)) :
    getProfiles qt c memory false (saveProfiles qt c outcome file profiles).2 = (.fresh profiles,false) ∧
    (StoredProfiles.fresh profiles).values = profiles := by
  have opened : outcome.opened = true := by
    by_contra unopened
    have result : (encryptSettingsFile qt c outcome file (profilesContent qt c profiles)).1 = true := saved
    rw [encryptUnopened (Bool.eq_false_iff.mpr unopened)] at result
    exact Bool.noConfusion result
  have same : saveProfiles qt c outcome file profiles = saveProfiles qt c .success none profiles :=
    encryptComplete opened written
  refine ⟨?_,freshValues profiles⟩
  rw [same,getSaved]
  rfl

def markupProfile : Profile := ⟨text "<a href=\"x\"> & b",[],text "p&amp;w",-1,false⟩

theorem markupReturned :
    getProfiles plainQt secretCrypto FrmProfileManager.cleared false
      (saveProfiles plainQt secretCrypto ⟨false,true,none⟩ FrmProfileManager.homeSaved
        [markupProfile,FrmProfileManager.homeProfile]).2 =
      (.fresh [markupProfile,FrmProfileManager.homeProfile],false) ∧
    (StoredProfiles.fresh [markupProfile,FrmProfileManager.homeProfile]).values =
      [markupProfile,FrmProfileManager.homeProfile] :=
  savedProfilesReturned plainQt secretCrypto FrmProfileManager.cleared ⟨false,true,none⟩ FrmProfileManager.homeSaved
    [markupProfile,FrmProfileManager.homeProfile] rfl nofun

end ProfileManager
end RemoteTerminal
