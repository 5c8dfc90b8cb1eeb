import RemoteTerminal.Library.HeadedList
import RemoteTerminal.Client.Profiles
import RemoteTerminal.Server.Receive

/-! `GetProfiles` on any document. A `Profile` element with a `ProfileName` makes an object;
that object is also set and stored by every element behind it up to the next name. -/
namespace RemoteTerminal.ProfileManager
open ByteStrings PlainText CryptoObject HeadedList

def isProfile (e : XmlElement) : Bool := e.name = text "Profile"

def profileElements (qt : Qt) (xmlContent : Text) : List XmlElement :=
  (startElements (qt.xmlStreamReader xmlContent).tokens).tail.filter isProfile

def hasAttribute (name : String) (e : XmlElement) : Bool := (e.value? (text name)).isSome

def complete (e : XmlElement) : Bool := hasAttribute "ProfileName" e && hasAttribute "ProfileIsDefault" e

variable {α : Type}

def attributeOr (name : String) (decode : Text → α) (absent : α) (e : XmlElement) : α :=
  ((e.value? (text name)).map decode).getD absent

variable (qt : Qt) (c : Crypto)

def decoded (encryptedText : Text) : Text := qt.fromStdString (c.decryptString (qt.toStdString encryptedText))

def flag (value : Text) : Bool := qt.toInt value ≠ 0

/- The profile of an element's own attributes. A text without an attribute is empty, a
port is 0. -/
def ownProfile (e : XmlElement) : Profile where
  profileName := attributeOr "ProfileName" (decoded qt c) [] e
  profileIPAddress := attributeOr "ProfileIPAddress" (decoded qt c) [] e
  profilePassword := attributeOr "ProfilePassword" (decoded qt c) [] e
  profileTCPPort := attributeOr "ProfileTCPPort" qt.toInt 0 e
  profileAsDefault := attributeOr "ProfileIsDefault" (flag qt) false e

structure OwnProfiles (elements : List XmlElement) (stored : StoredProfiles) : Prop where
  values : stored.pointers.map (fun p => stored.heap[p]?) =
    ((elements.filter complete).map (ownProfile qt c)).map some
  separate : stored.pointers.Nodup

def lastSet (name : String) (decode : Text → α) (start : α) (elements : List XmlElement) : α :=
  (((elements.filterMap fun e => e.value? (text name)).getLast?).map decode).getD start

/- The elements up to the next name leave the profile of the element in front of them alone. `memory`
is what the new object finds in its place. -/
structure LeavesAlone (memory : Int32 × Bool) (h : Headed XmlElement) : Prop where
  notStored : ∀ e ∈ h.body, hasAttribute "ProfileIsDefault" e = false
  address : complete h.head = true →
    lastSet "ProfileIPAddress" (decoded qt c) (ownProfile qt c h.head).profileIPAddress h.body =
      (ownProfile qt c h.head).profileIPAddress
  password : complete h.head = true →
    lastSet "ProfilePassword" (decoded qt c) (ownProfile qt c h.head).profilePassword h.body =
      (ownProfile qt c h.head).profilePassword
  port : complete h.head = true → lastSet "ProfileTCPPort" qt.toInt memory.1 h.list =
    (ownProfile qt c h.head).profileTCPPort

def named (elements : List XmlElement) : List (Headed XmlElement) := (cut (hasAttribute "ProfileName") elements).2

def Separate (memory : Nat → Int32 × Bool) (elements : List XmlElement) : Prop :=
  ∀ h ∈ (named elements).zipIdx, LeavesAlone qt c (memory h.2) h.1

def setAttributes (e : XmlElement) (p : Profile) : Profile where
  profileName := p.profileName
  profileIPAddress := attributeOr "ProfileIPAddress" (decoded qt c) p.profileIPAddress e
  profilePassword := attributeOr "ProfilePassword" (decoded qt c) p.profilePassword e
  profileTCPPort := attributeOr "ProfileTCPPort" qt.toInt p.profileTCPPort e
  profileAsDefault := attributeOr "ProfileIsDefault" (flag qt) p.profileAsDefault e

def setAll (elements : List XmlElement) (p : Profile) : Profile :=
  elements.foldl (fun p e => setAttributes qt c e p) p

def readProfiles (memory : Nat → Int32 × Bool) (elements : List XmlElement) (s : Reading) : Reading :=
  elements.foldl (fun s e => readProfile qt c memory e s) s

def heldProfile (memory : Nat → Int32 × Bool) (h : Headed XmlElement × Nat) : Profile :=
  setAll qt c h.1.list ⟨attributeOr "ProfileName" (decoded qt c) [] h.1.head,[],[],(memory h.2).1,(memory h.2).2⟩

def storings (elements : List XmlElement) : Nat := elements.countP (hasAttribute "ProfileIsDefault")

def timesStored (h : Headed XmlElement × Nat) : Nat := storings h.1.list

variable {qt : Qt} {c : Crypto} {memory : Nat → Int32 × Bool}

theorem attributeAbsent {name : String} {e : XmlElement} :
    hasAttribute name e = false ↔ e.value? (text name) = none := by
  simp only [hasAttribute,Option.isSome_eq_false_iff,Option.isNone_iff_eq_none]

theorem lastSetCons (name : String) (decode : Text → α) (start : α) (e : XmlElement) (rest : List XmlElement) :
    lastSet name decode start (e::rest) = lastSet name decode (attributeOr name decode start e) rest := by
  unfold lastSet attributeOr
  cases found : e.value? (text name) with
  | none => simp only [List.filterMap_cons,found,Option.map_none,Option.getD_none]
  | some value =>
    simp only [List.filterMap_cons,found,List.getLast?_cons,Option.map_some,Option.getD_some]
    cases (rest.filterMap fun e => e.value? (text name)).getLast? <;> rfl

theorem setAllFields (elements : List XmlElement) (p : Profile) : setAll qt c elements p =
    ⟨p.profileName,lastSet "ProfileIPAddress" (decoded qt c) p.profileIPAddress elements,
      lastSet "ProfilePassword" (decoded qt c) p.profilePassword elements,
      lastSet "ProfileTCPPort" qt.toInt p.profileTCPPort elements,
      lastSet "ProfileIsDefault" (flag qt) p.profileAsDefault elements⟩ := by
  induction elements generalizing p with
  | nil => rfl
  | cons e rest ih =>
    have first : setAll qt c (e::rest) p = setAll qt c rest (setAttributes qt c e p) := rfl
    rw [first,ih]
    simp only [lastSetCons,setAttributes]

structure Open (s : Reading) (old : List Profile) (p : Profile) (pointers : List Nat) : Prop where
  heap : s.storedProfiles.heap = old ++ [p]
  pointers : s.storedProfiles.pointers = pointers
  current : s.currentProfile = some old.length

variable {s : Reading} {old : List Profile} {p : Profile} {pointers : List Nat}

theorem setOpen (opened : Open s old p pointers) (f : Profile → Profile) :
    Open (s.set old.length f) old (f p) pointers :=
  ⟨by rw [Reading.set,opened.heap,modifyLast],opened.pointers,opened.current⟩

theorem setTextOpen (qt : Qt) (c : Crypto) (opened : Open s old p pointers) (name : String)
    (set : Text → Profile → Profile) (get : Profile → Text) (same : set (get p) p = p) (e : XmlElement) :
    Open (setDecrypted qt c old.length set (e.value? (text name)) s) old
      (set (attributeOr name (decoded qt c) (get p) e) p) pointers := by
  unfold attributeOr
  cases e.value? (text name) with
  | none =>
    rw [Option.map_none,Option.getD_none,same]
    exact opened
  | some value =>
    have next := setOpen opened (set (decoded qt c value))
    exact ⟨next.heap,next.pointers,next.current⟩

theorem storeOpen (opened : Open s old p pointers) :
    Open {s with storedProfiles.pointers := s.storedProfiles.pointers ++ [old.length]} old p
      (pointers ++ [old.length]) :=
  ⟨opened.heap,by rw [opened.pointers],opened.current⟩

theorem readProfileOpen {e : XmlElement}
    (opened : Open (newProfile qt c memory (e.value? (text "ProfileName")) s) old p pointers) :
    Open (readProfile qt c memory e s) old (setAttributes qt c e p)
      (pointers ++ List.replicate (storings [e]) old.length) := by
  have address := setTextOpen qt c opened "ProfileIPAddress"
    (fun t profile => {profile with profileIPAddress := t}) Profile.profileIPAddress rfl e
  have texts := setTextOpen qt c address "ProfilePassword"
    (fun t profile => {profile with profilePassword := t}) Profile.profilePassword rfl e
  simp only [readProfile,opened.current]
  generalize setDecrypted qt c old.length _ (e.value? (text "ProfilePassword")) _ = s' at texts ⊢
  cases port : e.value? (text "ProfileTCPPort") with
  | none =>
    cases stored : e.value? (text "ProfileIsDefault") with
    | none => simpa [setAttributes,attributeOr,port,stored,storings,hasAttribute] using texts
    | some value =>
      have set := storeOpen (setOpen texts fun profile => {profile with profileAsDefault := qt.toInt value ≠ 0})
      simpa [setAttributes,attributeOr,port,stored,storings,hasAttribute,flag] using set
  | some number =>
    have set := setOpen texts fun profile => {profile with profileTCPPort := qt.toInt number}
    cases stored : e.value? (text "ProfileIsDefault") with
    | none => simpa [setAttributes,attributeOr,port,stored,storings,hasAttribute] using set
    | some value =>
      have set := storeOpen (setOpen set fun profile => {profile with profileAsDefault := qt.toInt value ≠ 0})
      simpa [setAttributes,attributeOr,port,stored,storings,hasAttribute,flag] using set

theorem namelessOpen {e : XmlElement} (opened : Open s old p pointers)
    (nameless : hasAttribute "ProfileName" e = false) :
    Open (readProfile qt c memory e s) old (setAttributes qt c e p)
      (pointers ++ List.replicate (storings [e]) old.length) := by
  exact readProfileOpen (by rwa [attributeAbsent.mp nameless])

theorem namedOpen {e : XmlElement} (name : hasAttribute "ProfileName" e = true) :
    Open (readProfile qt c memory e s) s.storedProfiles.heap
      (setAttributes qt c e ⟨attributeOr "ProfileName" (decoded qt c) [] e,[],[],
        (memory s.storedProfiles.heap.length).1,(memory s.storedProfiles.heap.length).2⟩)
      (s.storedProfiles.pointers ++
        List.replicate (storings [e]) s.storedProfiles.heap.length) := by
  obtain ⟨value,some⟩ := Option.isSome_iff_exists.mp name
  refine readProfileOpen ?_
  rw [attributeOr,some]
  exact ⟨rfl,rfl,rfl⟩

theorem readProfilesAppend (a b : List XmlElement) :
    readProfiles qt c memory (a ++ b) s = readProfiles qt c memory b (readProfiles qt c memory a s) :=
  List.foldl_append

theorem storingsCons (e : XmlElement) (rest : List XmlElement) :
    storings (e::rest) = storings [e] + storings rest := by
  rw [storings,storings,storings,← List.countP_append,List.singleton_append]

/- The induction is on the elements behind the name. -/
theorem bodyOpen {elements : List XmlElement} (opened : Open s old p pointers)
    (nameless : ∀ e ∈ elements, hasAttribute "ProfileName" e = false) :
    Open (readProfiles qt c memory elements s) old (setAll qt c elements p)
      (pointers ++ List.replicate (storings elements) old.length) := by
  induction elements generalizing s p pointers with
  | nil => simpa [readProfiles,setAll,storings] using opened
  | cons e rest ih =>
    rw [storingsCons,List.replicate_add,← List.append_assoc]
    exact ih (namelessOpen opened (nameless e List.mem_cons_self)) fun e mem =>
      nameless e (List.mem_cons_of_mem _ mem)

theorem headedOpen {h : Headed XmlElement} (name : hasAttribute "ProfileName" h.head = true)
    (nameless : ∀ e ∈ h.body, hasAttribute "ProfileName" e = false) :
    Open (readProfiles qt c memory h.list s) s.storedProfiles.heap
      (heldProfile qt c memory (h,s.storedProfiles.heap.length))
      (s.storedProfiles.pointers ++
        List.replicate (timesStored (h,s.storedProfiles.heap.length)) s.storedProfiles.heap.length) := by
  rw [timesStored,Headed.list,storingsCons,List.replicate_add,← List.append_assoc]
  exact bodyOpen (namedOpen name) nameless

theorem readHeaded {headed : List (Headed XmlElement)} (cutHere : CutAt (hasAttribute "ProfileName") [] headed) :
    (readProfiles qt c memory (headed.flatMap Headed.list) s).storedProfiles =
      ⟨s.storedProfiles.heap ++ (headed.zipIdx s.storedProfiles.heap.length).map (heldProfile qt c memory),
        s.storedProfiles.pointers ++ repeated timesStored Prod.snd (headed.zipIdx s.storedProfiles.heap.length)⟩ := by
  induction headed generalizing s with
  | nil => simp [readProfiles,repeated]
  | cons h rest ih =>
    have first : Open (readProfiles qt c memory h.list s) _ _ _ :=
      headedOpen (cutHere.heads h List.mem_cons_self) (cutHere.bodies h List.mem_cons_self)
    have later := @ih (readProfiles qt c memory h.list s) ⟨cutHere.lead,
      fun h mem => cutHere.heads h (List.mem_cons_of_mem _ mem),
      fun h mem => cutHere.bodies h (List.mem_cons_of_mem _ mem)⟩
    rw [List.flatMap_cons,readProfilesAppend,later,first.heap,first.pointers,List.zipIdx_cons,repeatedCons]
    simp

theorem namelessRead {elements : List XmlElement} (none : s.currentProfile = none)
    (nameless : ∀ e ∈ elements, hasAttribute "ProfileName" e = false) : readProfiles qt c memory elements s = s := by
  induction elements with
  | nil => rfl
  | cons e rest ih =>
    have absent := attributeAbsent.mp (nameless e List.mem_cons_self)
    have first : readProfile qt c memory e s = s := by
      simp only [readProfile,absent,newProfile,none]
    have later := ih fun e mem => nameless e (List.mem_cons_of_mem _ mem)
    exact (congrArg (readProfiles qt c memory rest) first).trans later

theorem readStored (elements : List XmlElement) (invalidKey : Bool) :
    (readProfiles qt c memory elements ⟨⟨[],[]⟩,none,invalidKey⟩).storedProfiles =
      ⟨(named elements).zipIdx.map (heldProfile qt c memory),
        repeated timesStored Prod.snd (named elements).zipIdx⟩ := by
  have cutHere := cutAt (hasAttribute "ProfileName") elements
  have cutNamed : CutAt (hasAttribute "ProfileName") [] (named elements) := ⟨by simp,cutHere.heads,cutHere.bodies⟩
  have joined : (cut (hasAttribute "ProfileName") elements).1 ++ (named elements).flatMap Headed.list = elements :=
    cutJoined _ elements
  calc (readProfiles qt c memory elements ⟨⟨[],[]⟩,none,invalidKey⟩).storedProfiles
      = (readProfiles qt c memory ((named elements).flatMap Headed.list)
          ⟨⟨[],[]⟩,none,invalidKey⟩).storedProfiles := by
        conv_lhs => rw [← joined,readProfilesAppend,namelessRead rfl cutHere.lead]
    _ = _ := by
        rw [readHeaded cutNamed]
        simp

theorem lastSetNone {name : String} {decode : Text → α} {start : α} {elements : List XmlElement}
    (none : ∀ e ∈ elements, hasAttribute name e = false) : lastSet name decode start elements = start := by
  have nothing : elements.filterMap (fun e => e.value? (text name)) = [] :=
    List.filterMap_eq_nil_iff.mpr fun e mem => attributeAbsent.mp (none e mem)
  rw [lastSet,nothing]
  rfl

theorem heldIsOwn {h : Headed XmlElement} {n : Nat} (whole : complete h.head = true)
    (notStored : ∀ e ∈ h.body, hasAttribute "ProfileIsDefault" e = false) :
    heldProfile qt c memory (h,n) = ownProfile qt c h.head ↔ LeavesAlone qt c (memory n) h := by
  have stored : (h.head.value? (text "ProfileIsDefault")).isSome = true := (Bool.and_eq_true_iff.mp whole).2
  obtain ⟨value,flagged⟩ := Option.isSome_iff_exists.mp stored
  have flag_ : lastSet "ProfileIsDefault" (flag qt) (memory n).2 h.list =
      (ownProfile qt c h.head).profileAsDefault := by
    rw [Headed.list,lastSetCons,lastSetNone notStored]
    simp only [ownProfile,attributeOr,flagged,Option.map_some,Option.getD_some]
  have fields : heldProfile qt c memory (h,n) =
      ⟨(ownProfile qt c h.head).profileName,
        lastSet "ProfileIPAddress" (decoded qt c) (ownProfile qt c h.head).profileIPAddress h.body,
        lastSet "ProfilePassword" (decoded qt c) (ownProfile qt c h.head).profilePassword h.body,
        lastSet "ProfileTCPPort" qt.toInt (memory n).1 h.list,(ownProfile qt c h.head).profileAsDefault⟩ := by
    rw [heldProfile,setAllFields,flag_,Headed.list,lastSetCons,lastSetCons]
    rfl
  rw [fields]
  constructor
  · intro same
    have address := congrArg Profile.profileIPAddress same
    have password := congrArg Profile.profilePassword same
    have port := congrArg Profile.profileTCPPort same
    exact ⟨notStored,fun _ => address,fun _ => password,fun _ => port⟩
  · intro alone
    rw [alone.address whole,alone.password whole,alone.port whole]

def wantedProfile (qt : Qt) (c : Crypto) (h : Headed XmlElement × Nat) : Option (Option Profile) :=
  if complete h.1.head then some (some (ownProfile qt c h.1.head)) else none

theorem neverStored {elements : List XmlElement} :
    storings elements = 0 ↔ ∀ e ∈ elements, hasAttribute "ProfileIsDefault" e = false := by
  simp only [storings,List.countP_eq_zero,Bool.not_eq_true]

theorem timesComplete {h : Headed XmlElement × Nat} (whole : complete h.1.head = true) :
    timesStored h = storings h.1.body+1 :=
  List.countP_cons_of_pos (Bool.and_eq_true_iff.mp whole).2

theorem storedIsWanted {h : Headed XmlElement × Nat} (name : hasAttribute "ProfileName" h.1.head = true) :
    List.replicate (timesStored h) (some (heldProfile qt c memory h)) = (wantedProfile qt c h).toList ↔
      LeavesAlone qt c (memory h.2) h.1 := by
  cases whole : complete h.1.head with
  | false =>
    have notStored : hasAttribute "ProfileIsDefault" h.1.head = false := by simpa [complete,name] using whole
    have times : timesStored h = storings h.1.body :=
      List.countP_cons_of_neg (by rw [notStored]; decide)
    rw [wantedProfile,whole,times]
    simp only [Bool.false_eq_true,if_false,Option.toList_none,List.replicate_eq_nil_iff,neverStored]
    exact ⟨fun none => ⟨none,by simp [whole],by simp [whole],by simp [whole]⟩,LeavesAlone.notStored⟩
  | true =>
    rw [wantedProfile,if_pos whole,timesComplete whole,List.replicate_succ,Option.toList_some,List.cons.injEq,
      Option.some.injEq,List.replicate_eq_nil_iff,neverStored]
    constructor
    · rintro ⟨same,none⟩
      exact (heldIsOwn whole none).mp same
    · intro alone
      exact ⟨(heldIsOwn whole alone.notStored).mpr alone,alone.notStored⟩

theorem wantedProfiles (headed : List (Headed XmlElement)) (n : Nat) :
    (((headed.map Headed.head).filter complete).map (ownProfile qt c)).map some =
      (headed.zipIdx n).filterMap (wantedProfile qt c) := by
  induction headed generalizing n with
  | nil => rfl
  | cons h rest ih =>
    rw [List.map_cons,List.zipIdx_cons,List.filterMap_cons,← ih (n+1)]
    cases whole : complete h.head with
    | false => simp [wantedProfile,whole]
    | true => simp [wantedProfile,whole]

theorem ownIffSeparate (elements : List XmlElement) (invalidKey : Bool) :
    OwnProfiles qt c elements (readProfiles qt c memory elements ⟨⟨[],[]⟩,none,invalidKey⟩).storedProfiles ↔
      Separate qt c memory elements := by
  have names : ∀ h ∈ (named elements).zipIdx, hasAttribute "ProfileName" h.1.head = true := by
    intro h mem
    exact (cutAt _ elements).heads h.1 (List.fst_mem_of_mem_zipIdx mem)
  have objects : (repeated timesStored Prod.snd (named elements).zipIdx).map
      (fun p => ((named elements).zipIdx.map (heldProfile qt c memory))[p]?) =
      repeated timesStored (fun h => some (heldProfile qt c memory h)) (named elements).zipIdx := by
    rw [repeatedMap]
    refine repeatedCongr fun h mem => ?_
    rw [List.getElem?_map,List.getElem?_zipIdx,(List.mem_zipIdx_iff_getElem?.mp mem)]
    simp
  have wanted : ((elements.filter complete).map (ownProfile qt c)).map some =
      (named elements).zipIdx.filterMap (wantedProfile qt c) := by
    have heads : elements.filter complete = ((named elements).map Headed.head).filter complete :=
      cutFilter (fun e whole => (Bool.and_eq_true_iff.mp whole).1) elements
    rw [heads,wantedProfiles]
  have enough : ∀ h ∈ (named elements).zipIdx, (wantedProfile qt c h).isSome → 1 ≤ timesStored h := by
    intro h _ some
    have whole : complete h.1.head = true := by
      by_contra other
      rw [wantedProfile,if_neg other] at some
      cases some
    rw [timesComplete whole]
    exact Nat.le_add_left 1 _
  have each : repeated timesStored (fun h => some (heldProfile qt c memory h)) (named elements).zipIdx =
      (named elements).zipIdx.filterMap (wantedProfile qt c) ↔ Separate qt c memory elements :=
    (repeatedIff enough).trans (forall₂_congr fun h mem => storedIsWanted (names h mem))
  rw [readStored]
  constructor
  · intro own
    have values := own.values
    rw [objects,wanted] at values
    exact each.mp values
  · intro separate
    refine ⟨by rw [objects,wanted]; exact each.mpr separate,repeatedNodup ?_ ?_⟩
    · rw [List.zipIdx_map_snd]
      exact List.nodup_range'
    · intro h mem
      have first : storings [h.1.head] ≤ 1 := List.countP_le_length
      rw [timesStored,Headed.list,storingsCons,neverStored.mpr (separate h mem).notStored]
      exact first

theorem portOfMemory {e : XmlElement} (whole : complete e = true) (noPort : hasAttribute "ProfileTCPPort" e = false)
    (invalidKey : Bool) :
    OwnProfiles qt c [e] (readProfiles qt c memory [e] ⟨⟨[],[]⟩,none,invalidKey⟩).storedProfiles ↔
      (memory 0).1 = 0 := by
  have alone : named [e] = [⟨e,[]⟩] := by
    rw [named,cutHeads (by simpa using (Bool.and_eq_true_iff.mp whole).1)]
    rfl
  have left : lastSet "ProfileTCPPort" qt.toInt (memory 0).1 [e] = (memory 0).1 := lastSetNone (by simpa using noPort)
  have own : (ownProfile qt c e).profileTCPPort = 0 := by
    simp only [ownProfile,attributeOr,attributeAbsent.mp noPort,Option.map_none,Option.getD_none]
  rw [ownIffSeparate,Separate,alone]
  constructor
  · intro separate
    have port := (separate (⟨e,[]⟩,0) (by simp)).port whole
    rwa [Headed.list,left,own] at port
  · intro zero h mem
    obtain rfl : h = (⟨e,[]⟩,0) := by simpa using mem
    exact ⟨by simp,fun _ => rfl,fun _ => rfl,fun _ => by rw [Headed.list,left,own,zero]⟩

theorem readFiltered (elements : List XmlElement) (s : Reading) :
    elements.foldl (readElement qt c memory) s = readProfiles qt c memory (elements.filter isProfile) s := by
  rw [readProfiles,List.foldl_filter]
  congr 1
  funext s e
  simp only [readElement,isProfile,decide_eq_true_eq]

theorem getProfilesRead {file : Option Text} {invalidKey : Bool} {xmlContent : Text}
    (decrypts : decryptSettingsFile qt c invalidKey file = (xmlContent,false))
    (wellFormed : (qt.xmlStreamReader xmlContent).hasError = false) : (getProfiles qt c memory invalidKey file).1 =
      (readProfiles qt c memory (profileElements qt xmlContent) ⟨⟨[],[]⟩,none,false⟩).storedProfiles := by
  simp only [getProfiles,decrypts,Bool.false_eq_true,if_false,wellFormed,outerElements,readFiltered]
  rfl

/-- The profiles of a document are those of its elements exactly if the elements behind a
name leave it alone. -/
theorem ownProfilesIff {qt : Qt} {c : Crypto} {file : Option Text} {invalidKey : Bool} {xmlContent : Text}
    (memory : Nat → Int32 × Bool) (decrypts : decryptSettingsFile qt c invalidKey file = (xmlContent,false))
    (wellFormed : (qt.xmlStreamReader xmlContent).hasError = false) :
    OwnProfiles qt c (profileElements qt xmlContent) (getProfiles qt c memory invalidKey file).1 ↔
      Separate qt c memory (profileElements qt xmlContent) := by
  rw [getProfilesRead decrypts wellFormed]
  exact ownIffSeparate _ _

theorem savedSeparate (profiles : List Profile) : Separate qt c memory (profiles.map (profileElement qt c)) := by
  have all : ∀ e ∈ profiles.map (profileElement qt c), hasAttribute "ProfileName" e = true := by
    intro e mem
    obtain ⟨p,-,rfl⟩ := List.mem_map.mp mem
    rfl
  intro h mem
  have inside := List.fst_mem_of_mem_zipIdx mem
  rw [named,cutHeads all] at inside
  obtain ⟨e,here,same⟩ := List.mem_map.mp inside
  obtain ⟨p,-,rfl⟩ := List.mem_map.mp here
  rw [← same]
  exact ⟨by simp,fun _ => rfl,fun _ => rfl,fun _ => rfl⟩

def mailProfile : Profile := ⟨text "mail",text "10.0.0.1",text "pw",6001,false⟩
def printProfile : Profile := ⟨text "print",text "10.0.0.2",text "",22,true⟩

def mailDocument : XmlDocument :=
  ⟨⟨text "Profiles",[]⟩,[mailProfile,printProfile].map (profileElement plainQt secretCrypto)⟩

def namelessElement : XmlElement where
  name := text "Profile"
  attributes := [(text "ProfileIPAddress",encryptString plainQt secretCrypto (text "10.0.0.9")),
    (text "ProfileIsDefault",text "0")]

def sharedDocument : XmlDocument :=
  ⟨⟨text "Profiles",[]⟩,[profileElement plainQt secretCrypto mailProfile,namelessElement]⟩

def savedDocument (doc : XmlDocument) : Option Text :=
  (encryptSettingsFile plainQt secretCrypto .success none (write doc)).2

theorem rootPlain : (⟨text "Profiles",[]⟩ : XmlElement).Plain :=
  ⟨List.cons_ne_nil _ _,List.all_eq_true.mp rfl,by simp⟩

theorem mailElements : profileElements plainQt (write mailDocument) = mailDocument.children := by
  have plain : ∀ e ∈ mailDocument.children, e.Plain := by
    intro e mem
    obtain ⟨p,-,rfl⟩ := List.mem_map.mp mem
    exact profileElementPlain p
  have profiles : ∀ e ∈ mailDocument.children, isProfile e = true := by
    intro e mem
    obtain ⟨p,-,rfl⟩ := List.mem_map.mp mem
    rfl
  have read : startElements (plainQt.xmlStreamReader (write mailDocument)).tokens =
    mailDocument.root::mailDocument.children := readWrite rootPlain plain
  rw [profileElements,read,List.tail_cons,List.filter_eq_self.mpr profiles]

theorem mailOwnProfiles : OwnProfiles plainQt secretCrypto (profileElements plainQt (write mailDocument))
    (getProfiles plainQt secretCrypto (fun _ => (0,false)) false (savedDocument mailDocument)).1 :=
  (ownProfilesIff _ (decryptSaved plainQt secretCrypto false none (write mailDocument)) rfl).mpr
    (mailElements ▸ savedSeparate _)

theorem namelessPlain : namelessElement.Plain := by
  refine ⟨List.cons_ne_nil _ _,List.all_eq_true.mp rfl,?_⟩
  simp only [namelessElement,List.forall_mem_cons,cipherPlain,and_true]
  exact ⟨List.all_eq_true.mp rfl,⟨List.all_eq_true.mp rfl,numberPlain 0⟩,by simp⟩

theorem sharedElements : startElements (plainQt.xmlStreamReader (write sharedDocument)).tokens =
    [⟨text "Profiles",[]⟩,profileElement plainQt secretCrypto mailProfile,namelessElement] := by
  refine readWrite rootPlain fun e mem => ?_
  rcases List.mem_cons.mp mem with rfl | mem
  · exact profileElementPlain mailProfile
  · rw [List.mem_singleton.mp mem]
    exact namelessPlain

theorem storedAgain (memory : Nat → Int32 × Bool) :
    readElement plainQt secretCrypto memory ⟨.fresh [mailProfile],some 0,false⟩ namelessElement =
      ⟨⟨[{mailProfile with profileIPAddress := text "10.0.0.9"}],[0,0]⟩,some 0,false⟩ := by
  have element : namelessElement.name = text "Profile" := rfl
  have name : namelessElement.value? (text "ProfileName") = none := rfl
  have ip : namelessElement.value? (text "ProfileIPAddress") =
    some (encryptString plainQt secretCrypto (text "10.0.0.9")) := rfl
  have password : namelessElement.value? (text "ProfilePassword") = none := rfl
  have port : namelessElement.value? (text "ProfileTCPPort") = none := rfl
  have isDefault : namelessElement.value? (text "ProfileIsDefault") = some (text "0") := rfl
  have zero : plainQt.toInt (text "0") = 0 := by decide
  simp only [readElement,element,if_true,readProfile,name,ip,password,port,isDefault,newProfile,setDecrypted,
    decryptEncrypted,Reading.set,StoredProfiles.fresh,zero]
  rfl

theorem objectStoredTwice :
    decryptSettingsFile plainQt secretCrypto false (savedDocument sharedDocument) = (write sharedDocument,false) ∧
    (plainQt.xmlStreamReader (write sharedDocument)).hasError = false ∧
    getProfiles plainQt secretCrypto (fun _ => (0,false)) false (savedDocument sharedDocument) =
      (⟨[{mailProfile with profileIPAddress := text "10.0.0.9"}],[0,0]⟩,false) ∧
    ¬ OwnProfiles plainQt secretCrypto (profileElements plainQt (write sharedDocument))
      (getProfiles plainQt secretCrypto (fun _ => (0,false)) false (savedDocument sharedDocument)).1 := by
  have decrypts : decryptSettingsFile plainQt secretCrypto false (savedDocument sharedDocument) =
    (write sharedDocument,false) := decryptSaved plainQt secretCrypto false none (write sharedDocument)
  have start : (⟨⟨[],[]⟩,none,false⟩ : Reading) = ⟨.fresh [],none,false⟩ := rfl
  have wellFormed : (plainQt.xmlStreamReader (write sharedDocument)).hasError = false := rfl
  have result : getProfiles plainQt secretCrypto (fun _ => (0,false)) false (savedDocument sharedDocument) =
      (⟨[{mailProfile with profileIPAddress := text "10.0.0.9"}],[0,0]⟩,false) := by
    simp only [getProfiles,decrypts,wellFormed,outerElements,sharedElements,List.tail_cons,List.foldl_cons,
      List.foldl_nil,start,readProfileElement,List.nil_append,List.length_nil,storedAgain,Bool.false_eq_true,if_false]
  refine ⟨decrypts,wellFormed,result,fun own => ?_⟩
  have separate := own.separate
  rw [result] at separate
  revert separate
  decide

end RemoteTerminal.ProfileManager
