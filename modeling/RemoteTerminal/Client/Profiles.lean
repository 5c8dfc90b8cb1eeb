import RemoteTerminal.Client.SettingsFiles
import RemoteTerminal.Library.Table

/-! `ProfileManager`: the vector of profiles written to `Profiles.xml` and read from it. A
vector holds pointers, and `GetProfiles` goes on setting the object it made last. -/
namespace RemoteTerminal
open ByteStrings PlainText CryptoObject EntryTable

structure Profile where
  profileName : Text
  profileIPAddress : Text
  profilePassword : Text
  profileTCPPort : Int32
  profileAsDefault : Bool
  deriving DecidableEq, Repr

structure StoredProfiles where
  heap : List Profile
  pointers : List Nat
  deriving DecidableEq, Repr

def StoredProfiles.values (s : StoredProfiles) : List Profile := s.pointers.filterMap fun p => s.heap[p]?

def StoredProfiles.fresh (profiles : List Profile) : StoredProfiles := ⟨profiles,List.range profiles.length⟩

namespace ProfileManager

def profileElement (qt : Qt) (c : Crypto) (p : Profile) : XmlElement where
  name := text "Profile"
  attributes :=
    [(text "ProfileName",encryptString qt c p.profileName),
      (text "ProfileIPAddress",encryptString qt c p.profileIPAddress),
      (text "ProfilePassword",encryptString qt c p.profilePassword),
      (text "ProfileTCPPort",number p.profileTCPPort.toInt),
      (text "ProfileIsDefault",if p.profileAsDefault then text "1" else text "0")]

def saveProfiles (qt : Qt) (c : Crypto) (outcome : SaveOutcome) (file : Option Text)
    (selectedProfiles : List Profile) : Bool × Option Text :=
  encryptSettingsFile qt c outcome file
    (qt.toByteArray ⟨⟨text "Profiles",[]⟩,selectedProfiles.map (profileElement qt c)⟩)

structure Reading where
  storedProfiles : StoredProfiles
  currentProfile : Option Nat
  invalidKey : Bool
  deriving DecidableEq, Repr

def Reading.set (s : Reading) (p : Nat) (f : Profile → Profile) : Reading :=
  {s with storedProfiles.heap := s.storedProfiles.heap.modify p f}

def setDecrypted (qt : Qt) (c : Crypto) (p : Nat) (set : Text → Profile → Profile) (value? : Option Text)
    (s : Reading) : Reading :=
  match value? with
  | none => s
  | some value =>
    let decrypted := decryptString qt c s.invalidKey value
    {s.set p (set decrypted.1) with invalidKey := decrypted.2}

/- `Profile()` leaves the port and the flag as the memory was. -/
def newProfile (qt : Qt) (c : Crypto) (memory : Nat → Int32 × Bool) (value? : Option Text) (s : Reading) : Reading :=
  match value? with
  | none => s
  | some value =>
    let p := s.storedProfiles.heap.length
    let decrypted := decryptString qt c s.invalidKey value
    {s with
      storedProfiles.heap := s.storedProfiles.heap ++ [⟨decrypted.1,[],[],(memory p).1,(memory p).2⟩]
      currentProfile := some p
      invalidKey := decrypted.2}

def readProfile (qt : Qt) (c : Crypto) (memory : Nat → Int32 × Bool) (e : XmlElement) (s : Reading) : Reading :=
  let s := newProfile qt c memory (e.value? (text "ProfileName")) s
  match s.currentProfile with
  | none => s
  | some p =>
    let s := setDecrypted qt c p (fun t profile => {profile with profileIPAddress := t})
      (e.value? (text "ProfileIPAddress")) s
    let s := setDecrypted qt c p (fun t profile => {profile with profilePassword := t})
      (e.value? (text "ProfilePassword")) s
    let s := match e.value? (text "ProfileTCPPort") with
      | none => s
      | some value => s.set p fun profile => {profile with profileTCPPort := qt.toInt value}
    match e.value? (text "ProfileIsDefault") with
    | none => s
    | some value =>
      let s := s.set p fun profile => {profile with profileAsDefault := qt.toInt value ≠ 0}
      {s with storedProfiles.pointers := s.storedProfiles.pointers ++ [p]}

def readElement (qt : Qt) (c : Crypto) (memory : Nat → Int32 × Bool) (s : Reading) (e : XmlElement) : Reading :=
  if e.name = text "Profile" then readProfile qt c memory e s else s

/- The inner loop runs to the end of the text. -/
def readInner (qt : Qt) (c : Crypto) (memory : Nat → Int32 × Bool) : List XmlToken → Reading → Reading
  | [],s => s
  | .startElement e::rest,s => readInner qt c memory rest (readElement qt c memory s e)
  | .other::rest,s => readInner qt c memory rest s

def readOuter (qt : Qt) (c : Crypto) (memory : Nat → Int32 × Bool) : List XmlToken → Reading → Reading
  | [],s => s
  | .startElement _::rest,s => readInner qt c memory rest s
  | .other::rest,s => readOuter qt c memory rest s

def getProfiles (qt : Qt) (c : Crypto) (memory : Nat → Int32 × Bool) (invalidKey : Bool) (file : Option Text) :
    StoredProfiles × Bool :=
  let decrypted := decryptSettingsFile qt c invalidKey file
  if decrypted.2 then (⟨[],[]⟩,decrypted.2)
  else
    let reader := qt.xmlStreamReader decrypted.1
    let s := readOuter qt c memory reader.tokens ⟨⟨[],[]⟩,none,decrypted.2⟩
    (if reader.hasError then {s.storedProfiles with pointers := []} else s.storedProfiles,s.invalidKey)

end ProfileManager

theorem valuesOf {s : StoredProfiles} {profiles : List Profile}
    (found : s.pointers.map (fun p => s.heap[p]?) = profiles.map some) : s.values = profiles := by
  have values := congrArg (List.filterMap id) found
  simpa [StoredProfiles.values,List.filterMap_map,Function.comp_def] using values

theorem freshFound (profiles : List Profile) :
    (List.range profiles.length).map (fun p => profiles[p]?) = profiles.map some :=
  List.ext_getElem (by simp) (by simp)

theorem freshValues (profiles : List Profile) : (StoredProfiles.fresh profiles).values = profiles :=
  valuesOf (freshFound profiles)

theorem freshPush (profiles : List Profile) (p : Profile) :
    StoredProfiles.mk (profiles ++ [p]) (List.range profiles.length ++ [profiles.length]) =
      .fresh (profiles ++ [p]) := by
  simp [StoredProfiles.fresh,List.range_succ]

theorem erasedValues (profiles : List Profile) (i : Nat) :
    (StoredProfiles.mk profiles ((List.range profiles.length).eraseIdx i)).values = profiles.eraseIdx i := by
  refine valuesOf ?_
  have found := congrArg (fun l => l.eraseIdx i) (freshFound profiles)
  simpa [List.eraseIdx_map] using found

namespace ProfileManager
variable {qt : Qt} {c : Crypto} {memory : Nat → Int32 × Bool}

theorem profileElementPlain (p : Profile) : (profileElement qt c p).Plain := by
  have port := numberPlain p.profileTCPPort.toInt
  have flag : PlainValue (if p.profileAsDefault then text "1" else text "0") := by
    cases p.profileAsDefault
    · exact numberPlain 0
    · exact numberPlain 1
  refine ⟨List.cons_ne_nil _ _,List.all_eq_true.mp rfl,?_⟩
  simp only [profileElement,List.forall_mem_cons,cipherPlain,port,flag,and_true]
  exact ⟨List.all_eq_true.mp rfl,List.all_eq_true.mp rfl,List.all_eq_true.mp rfl,List.all_eq_true.mp rfl,
    List.all_eq_true.mp rfl,nofun⟩

theorem innerElements (tokens : List XmlToken) (s : Reading) :
    readInner qt c memory tokens s = (startElements tokens).foldl (readElement qt c memory) s := by
  induction tokens generalizing s with
  | nil => rfl
  | cons token rest ih =>
    cases token with
    | startElement e => exact ih _
    | other => exact ih s

theorem outerElements (tokens : List XmlToken) (s : Reading) :
    readOuter qt c memory tokens s = (startElements tokens).tail.foldl (readElement qt c memory) s := by
  induction tokens with
  | nil => rfl
  | cons token rest ih =>
    cases token with
    | startElement e => exact innerElements rest s
    | other => exact ih

theorem readSameElement {e e' : XmlElement} (same : SameElement e e') (s : Reading) :
    readElement qt c memory s e = readElement qt c memory s e' := by
  simp only [readElement,readProfile,same.name,same.value]

theorem readSameElements {es es' : List XmlElement} (same : List.Forall₂ SameElement es es') (s : Reading) :
    es.foldl (readElement qt c memory) s = es'.foldl (readElement qt c memory) s := by
  induction same generalizing s with
  | nil => rfl
  | cons first rest ih => rw [List.foldl_cons,List.foldl_cons,readSameElement first,ih]

theorem modifyLast {α : Type} (l : List α) (a : α) (f : α → α) : (l ++ [a]).modify l.length f = l ++ [f a] := by
  induction l with
  | nil => rfl
  | cons b rest ih => simp [ih]

theorem flagRead (qt : Qt) (flag : Bool) :
    decide (qt.toInt (if flag then text "1" else text "0") ≠ 0) = flag := by
  have one := qt.toIntNumber 1
  have zero := qt.toIntNumber 0
  rw [show number (1 : Int32).toInt = text "1" by decide] at one
  rw [show number (0 : Int32).toInt = text "0" by decide] at zero
  cases flag <;> simp [one,zero]

theorem readProfileElement (profiles : List Profile) (current : Option Nat) (p : Profile) :
    readElement qt c memory ⟨.fresh profiles,current,false⟩ (profileElement qt c p) =
      ⟨.fresh (profiles ++ [p]),some profiles.length,false⟩ := by
  have name : (profileElement qt c p).value? (text "ProfileName") = some (encryptString qt c p.profileName) := rfl
  have ip : (profileElement qt c p).value? (text "ProfileIPAddress") =
    some (encryptString qt c p.profileIPAddress) := rfl
  have password : (profileElement qt c p).value? (text "ProfilePassword") =
    some (encryptString qt c p.profilePassword) := rfl
  have port : (profileElement qt c p).value? (text "ProfileTCPPort") = some (number p.profileTCPPort.toInt) := rfl
  have isDefault : (profileElement qt c p).value? (text "ProfileIsDefault") =
    some (if p.profileAsDefault then text "1" else text "0") := rfl
  have element : (profileElement qt c p).name = text "Profile" := rfl
  simp only [readElement,element,if_true,readProfile,name,ip,password,port,isDefault,newProfile,setDecrypted,
    decryptEncrypted,Reading.set,StoredProfiles.fresh,modifyLast,qt.toIntNumber,flagRead]
  simp [List.range_succ]

theorem readProfileElements (qt : Qt) (c : Crypto) (memory : Nat → Int32 × Bool) (profiles more : List Profile)
    (current : Option Nat) :
    ((more.map (profileElement qt c)).foldl (readElement qt c memory) ⟨.fresh profiles,current,false⟩).storedProfiles =
      .fresh (profiles ++ more) ∧
    ((more.map (profileElement qt c)).foldl (readElement qt c memory) ⟨.fresh profiles,current,false⟩).invalidKey =
      false := by
  induction more generalizing profiles current with
  | nil => simp
  | cons p rest ih =>
    rw [List.map_cons,List.foldl_cons,readProfileElement]
    simpa using ih (profiles ++ [p]) (some profiles.length)

theorem getSaved (qt : Qt) (c : Crypto) (memory : Nat → Int32 × Bool) (invalidKey : Bool) (file : Option Text)
    (profiles : List Profile) :
    getProfiles qt c memory invalidKey (saveProfiles qt c .success file profiles).2 =
      if invalidKey then (⟨[],[]⟩,true) else (.fresh profiles,false) := by
  have root : (⟨text "Profiles",[]⟩ : XmlElement).Plain := ⟨List.cons_ne_nil _ _,List.all_eq_true.mp rfl,nofun⟩
  have children : ∀ e ∈ profiles.map (profileElement qt c), e.Plain := by
    intro e mem
    obtain ⟨p,-,rfl⟩ := List.mem_map.mp mem
    exact profileElementPlain p
  obtain ⟨noError,elements⟩ :=
    qt.readsBack ⟨⟨text "Profiles",[]⟩,profiles.map (profileElement qt c)⟩ root children
  unfold getProfiles saveProfiles
  rw [decryptSaved]
  cases invalidKey with
  | true => rfl
  | false =>
    obtain ⟨first,rest,-,others,shape⟩ := List.forall₂_cons_right_iff.mp elements
    have start : (⟨⟨[],[]⟩,none,false⟩ : Reading) = ⟨.fresh [],none,false⟩ := rfl
    obtain ⟨stored,valid⟩ := readProfileElements qt c memory [] profiles none
    simp only [Bool.false_eq_true,if_false,noError,outerElements,shape,List.tail_cons,readSameElements others,start,
      stored,valid,List.nil_append]

end ProfileManager
end RemoteTerminal
