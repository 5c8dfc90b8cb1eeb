import RemoteTerminal.Client.SettingsFiles

/-! `Settings`: the index of the last selected profile, in memory and in `Settings.xml`. The
constructor replaces a file it cannot use by one without a selection. -/
namespace RemoteTerminal
open ByteStrings PlainText CryptoObject

structure SettingsXml where
  document : Text → Text
  elements : Text → List (Text × Text)
  readsBack : ∀ n : Int, ∃ content, elements (document (number n)) =
    [(text "Settings",content),(text "LastProfileIndex",number n)]
  filled : ∀ t, document t ≠ []

def settingsHead : Text := text "?xml version=\"1.0\"?>\n"

def readStart (tag : Text) : Option (Text × Text) :=
  if tag.head? = some '/' ∨ tag.head? = some '?' then none
  else some (tag.takeWhile Char.isAlpha,(tag.dropWhile Char.isAlpha).drop 1)

def settingsDocument (t : Text) : Text :=
  '<'::settingsHead ++ '<'::text "Settings>\n    " ++ '<'::text "LastProfileIndex>" ++ t ++
    '<'::text "/LastProfileIndex>\n" ++ '<'::text "/Settings>\n"

def plainSettings : SettingsXml where
  document := settingsDocument
  elements t := ((t.splitOn '<').drop 1).filterMap readStart
  readsBack n := by
    have noOpen : '<' ∉ text "LastProfileIndex>" ++ number n := by
      rw [List.mem_append,not_or]
      exact ⟨by decide,plainValueNo (numberPlain n) (by decide) (by decide)⟩
    have shape : settingsDocument (number n) = [] ++ '<'::(settingsHead ++ '<'::(text "Settings>\n    " ++
        '<'::((text "LastProfileIndex>" ++ number n) ++ '<'::(text "/LastProfileIndex>\n" ++
          '<'::text "/Settings>\n")))) := by
      simp [settingsDocument]
    have last : readStart (text "LastProfileIndex>" ++ number n) = some (text "LastProfileIndex",number n) := rfl
    refine ⟨text "\n    ",?_⟩
    rw [shape,splitAfter List.not_mem_nil,splitAfter (by decide),splitAfter (by decide),splitAfter noOpen,
      splitAfter (by decide),List.splitOn_eq_singleton (by decide)]
    simp only [List.drop_succ_cons,List.drop_zero,List.filterMap_cons,last]
    rfl
  filled _ := List.cons_ne_nil _ _

namespace Settings

structure State where
  lastProfileIndex : Int32
  settingsFile : Option Text
  invalidKey : Bool
  deriving DecidableEq, Repr

section
variable (qt : Qt) (xml : SettingsXml) (c : Crypto)

def saveSettings (settingsFile : Option Text) (lastProfileIndex : Int32) : Option Text :=
  (encryptSettingsFile qt c .success settingsFile (xml.document (number lastProfileIndex.toInt))).2

def readElement (lastProfileIndex : Int32) (element : Text × Text) : Int32 :=
  if element.1 = text "LastProfileIndex" then qt.toInt element.2 else lastProfileIndex

def getSettings (s : State) : State :=
  let decrypted := decryptSettingsFile qt c s.invalidKey s.settingsFile
  if decrypted.2 then {s with invalidKey := decrypted.2}
  else {s with
    lastProfileIndex := (xml.elements decrypted.1).foldl (readElement qt) s.lastProfileIndex
    invalidKey := decrypted.2}

def setDefaultSettings (s : State) : State :=
  {s with lastProfileIndex := -1,settingsFile := saveSettings qt xml c s.settingsFile (-1)}

def checkSettings (settingsFile : Option Text) : Bool := settingsFile.any fun content => content.length ≠ 0

def settings (settingsFile : Option Text) : State :=
  let s := ⟨-1,settingsFile,false⟩
  if checkSettings settingsFile then
    let s := getSettings qt xml c s
    if s.invalidKey then setDefaultSettings qt xml c s else s
  else setDefaultSettings qt xml c s

end

def StoredIndex (qt : Qt) (xml : SettingsXml) (c : Crypto) (settingsFile : Option Text) (n : Int32) : Prop :=
  settingsFile = saveSettings qt xml c none n ∨ (n = -1 ∧ checkSettings settingsFile = false)

variable {qt : Qt} {xml : SettingsXml} {c : Crypto} {settingsFile : Option Text}

theorem encryptFilled {t : Text} (filled : t ≠ []) : encryptString qt c t ≠ [] := by
  intro empty
  have none_ : qt.toStdString [] = [] := qt.toStdStringAscii [] nofun
  have blank : encryptString qt c [] = [] := by
    rw [(cipherAscii qt c []).1,none_,c.encryptStringNil]
    rfl
  have read := decryptEncrypted qt c false t
  rw [empty,← blank,decryptEncrypted] at read
  exact filled (Prod.mk.inj read).1.symm

theorem storedChecks (n : Int32) : checkSettings (saveSettings qt xml c none n) = true := by
  have content : saveSettings qt xml c none n = some (encryptString qt c (xml.document (number n.toInt))) := by
    simp [saveSettings,encryptSettingsFile,SaveOutcome.success]
  have filled : encryptString qt c _ ≠ [] := encryptFilled (xml.filled (number n.toInt))
  rw [content]
  simp [checkSettings,filled]

theorem getStored (n m : Int32) : getSettings qt xml c ⟨m,saveSettings qt xml c none n,false⟩ =
    ⟨n,saveSettings qt xml c none n,false⟩ := by
  have decrypted : decryptSettingsFile qt c false (saveSettings qt xml c none n) =
      (xml.document (number n.toInt),false) := decryptSaved qt c false none _
  obtain ⟨content,elements⟩ := xml.readsBack n.toInt
  have other : text "Settings" ≠ text "LastProfileIndex" := by decide
  simp only [getSettings,decrypted,elements,Bool.false_eq_true,if_false,List.foldl_cons,List.foldl_nil,readElement,
    other,if_true,qt.toIntNumber]

theorem settingsRead {n : Int32} (stored : StoredIndex qt xml c settingsFile n) :
    getSettings qt xml c (settings qt xml c settingsFile) = ⟨n,saveSettings qt xml c none n,false⟩ := by
  have replaced : setDefaultSettings qt xml c ⟨-1,settingsFile,false⟩ =
      ⟨-1,saveSettings qt xml c none (-1),false⟩ := rfl
  unfold settings
  rcases stored with rfl | ⟨rfl,unused⟩
  · simp only [storedChecks,if_true,getStored,Bool.false_eq_true,if_false]
  · simp only [unused,Bool.false_eq_true,if_false,replaced]
    exact getStored (-1) (-1)

end Settings
end RemoteTerminal
