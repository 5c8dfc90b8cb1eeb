import RemoteTerminal.Server.Machine

/-! The working directory. `chdir` and `getcwd` act on one directory of the whole process,
and `ClientConsole[i].directory` is meant to give each client its own. What a client should
see is said first, for a client alone; the memo beside the server then compares. -/
namespace RemoteTerminal
open ByteStrings LabelledRuns EntryTable

/- Directories that stay: what `chdir(path)` leads to from a directory. An absolute path
leads to the same place from everywhere, and a place is named by its canonical path. -/
structure FileSystem where
  resolve : Bytes → Bytes → Option Bytes
  absolute : ∀ d e path, path.head? = some 47 → resolve d path = resolve e path
  canonical : ∀ d path e, resolve d path = some e → e.head? = some 47 ∧ 0 ∉ e ∧ resolve e e = some e

inductive DirectoryCommand where
  | enter
  | change (p : Bytes)
  | start
  deriving DecidableEq, Repr

structure Place where
  directory : Bytes
  current : Bytes
  deriving DecidableEq, Repr

variable (fs : FileSystem) (host : Host) (launch : Bytes)

def Place.after (place : Place) : DirectoryCommand → Place
  | .enter => ⟨launch,launch⟩
  | .change p =>
    let target := changeTarget host place.current place.directory p
    ⟨(fs.resolve place.directory (cString target)).getD place.directory,target⟩
  | .start => place

def Place.afterAll (place : Place) (commands : List DirectoryCommand) : Place :=
  commands.foldl (Place.after fs host launch) place

def Place.directories (place : Place) : List DirectoryCommand → List Bytes
  | [] => []
  | command::rest =>
    let next := place.after fs host launch command
    next.directory::next.directories rest

theorem directoriesPush (place : Place) (commands : List DirectoryCommand) (command : DirectoryCommand) :
    place.directories fs host launch (commands ++ [command]) = place.directories fs host launch commands ++
      [((place.afterAll fs host launch commands).after fs host launch command).directory] := by
  induction commands generalizing place with
  | nil => rfl
  | cons first rest ih => simp [Place.directories,ih,Place.afterAll]

theorem afterAllPush (place : Place) (commands : List DirectoryCommand) (command : DirectoryCommand) :
    place.afterAll fs host launch (commands ++ [command]) =
      (place.afterAll fs host launch commands).after fs host launch command := by
  simp [Place.afterAll]

def Place.Canonical (place : Place) : Prop :=
  ∀ d, fs.resolve d (cString place.directory) = some place.directory

variable {fs host launch}

theorem canonicalEverywhere {d path e : Bytes} (found : fs.resolve d path = some e) (x : Bytes) :
    fs.resolve x (cString e) = some e := by
  obtain ⟨rooted,clean,fixed⟩ := fs.canonical d path e found
  rw [cStringOfNoZero clean,fs.absolute x e e rooted]
  exact fixed

theorem canonicalAfter {place : Place} {command : DirectoryCommand} (known : place.Canonical fs)
    (launched : ∀ d, fs.resolve d (cString launch) = some launch) :
    (place.after fs host launch command).Canonical fs := by
  cases command with
  | enter => exact launched
  | start => exact known
  | change p =>
    cases found : fs.resolve place.directory (cString (changeTarget host place.current place.directory p)) with
    | none => simpa [Place.Canonical,Place.after,found] using known
    | some e => simpa [Place.Canonical,Place.after,found] using canonicalEverywhere found

def directorySystem (fs : FileSystem) : OperatingSystem Bytes Empty where
  call cwd _
    | .chdir path,.done => fs.resolve cwd path
    | .chdir path,.failed => if fs.resolve cwd path = none then some cwd else none
    | .readlink,.path p | .getcwd,.path p => if p = cwd then some cwd else none
    | _,_ => some cwd
  event _ e := nomatch e

structure Trace where
  commands : List DirectoryCommand
  observed : List Bytes
  position : Bytes
  deriving DecidableEq, Repr

def NewClient.Pc.changing : NewClient.Pc → Option Bytes
  | .changeDirectory p => some p
  | _ => none

def NewClient.Pc.between : NewClient.Pc → Bool
  | .readDirectory _ => true
  | _ => false

def SlotState.changing (s : SlotState) (t : Nat) : Option Bytes := s.clients[t]?.bind fun c => c.pc.changing

def SlotState.settled (s : SlotState) : Prop := ∀ c ∈ s.clients, c.pc.between = false
instance (s : SlotState) : Decidable s.settled := by unfold SlotState.settled; infer_instance

def noteSlotTrace (memo : Trace) (s : SlotState) (cwd : Bytes) (after : SlotState) : SlotLabel → Call → Trace
  | .client _ _,.readlink =>
    ⟨memo.commands ++ [.enter],memo.observed ++ [after.slot.console.directory],cwd⟩
  | .client _ _,.getcwd => {memo with observed := memo.observed ++ [after.slot.console.directory]}
  | .client t .done,.chdir _ => match s.changing t with
    | some p => {memo with commands := memo.commands ++ [.change p],position := cwd}
    | none => {memo with position := cwd}
  | .client t .failed,.chdir _ => match s.changing t with
    | some p => {memo with
        commands := memo.commands ++ [.change p]
        observed := memo.observed ++ [after.slot.console.directory]}
    | none => memo
  | .console _ .done,.chdir _ => {memo with position := cwd}
  | .console _ (.process _),.fork _ =>
    {memo with commands := memo.commands ++ [.start],observed := memo.observed ++ [cwd]}
  | _,_ => memo

def noteTraces (memo : Nat → Trace) (s : Server Bytes) (l : ServerLabel Empty) (call : Call)
    (next : Server Bytes) : Nat → Trace :=
  match l.onSlot s with
  | some (i,label) =>
    Function.update memo i (noteSlotTrace (memo i) (s.slots i) next.system (next.slots i) label call)
  | none => memo

variable (fs host launch)

/- A session starts where the server was launched; a relative `cd`, the `getcwd` after a
`cd` and a fork find the working directory where the client's own threads left it; and the
console thread does not come between the `chdir` of a `cd` and its `getcwd`. -/
def NewClient.Thread.keepsPlace (thread : NewClient.Thread) (slot : Slot) (cwd position : Bytes) : Prop :=
  match thread.pc with
  | .enter => cwd = launch
  | .changeDirectory p => cwd = position ∨
      (cString (changeTarget host thread.currentDirectory slot.console.directory p)).head? = some 47
  | .readDirectory _ => cwd = position
  | _ => True
instance (thread : NewClient.Thread) (slot : Slot) (cwd position : Bytes) :
    Decidable (thread.keepsPlace host launch slot cwd position) := by
  unfold NewClient.Thread.keepsPlace; split <;> infer_instance

def NewConsole.Thread.keepsPlace (thread : NewConsole.Thread) (s : SlotState) (cwd position : Bytes) : Prop :=
  match thread.pc with
  | .returnDirectory => s.settled
  | .fork _ => cwd = position ∧ s.settled
  | _ => True
instance (thread : NewConsole.Thread) (s : SlotState) (cwd position : Bytes) :
    Decidable (thread.keepsPlace s cwd position) := by
  unfold NewConsole.Thread.keepsPlace; split <;> infer_instance

def KeepsPlace (s : Server Bytes × (Nat → Trace)) : ServerLabel Empty → Prop
  | .start => StartsAlone s.1 (.start : ServerLabel Empty)
  | .client i t _ => ∀ thread ∈ (s.1.slots i).clients[t]?,
      thread.keepsPlace host launch (s.1.slots i).slot s.1.system (s.2 i).position
  | .console i k _ => ∀ thread ∈ (s.1.slots i).consoles[k]?,
      thread.keepsPlace (s.1.slots i) s.1.system (s.2 i).position
  | _ => True
instance (s : Server Bytes × (Nat → Trace)) : (l : ServerLabel Empty) → Decidable (KeepsPlace host launch s l)
  | .start | .client _ _ _ | .console _ _ _ => by dsimp only [KeepsPlace]; infer_instance
  | .listen _ | .system _ => isTrue trivial

def placeOf (commands : List DirectoryCommand) : Place := Place.afterAll fs host launch ⟨launch,launch⟩ commands
def directoriesOf (commands : List DirectoryCommand) : List Bytes :=
  Place.directories fs host launch ⟨launch,launch⟩ commands

structure Undisturbed (s : SlotState) (memo : Trace) : Prop where
  ordered : memo.observed <+: directoriesOf fs host launch memo.commands
  complete : s.settled → memo.observed = directoriesOf fs host launch memo.commands
  shown : s.settled → memo.commands ≠ [] →
    s.slot.console.directory = (placeOf fs host launch memo.commands).directory

structure SlotPlaced (s : SlotState) (memo : Trace) : Prop where
  lock : SlotLock s
  settled : s.settled → memo.observed = directoriesOf fs host launch memo.commands ∧ (memo.commands ≠ [] →
    s.slot.console.directory = (placeOf fs host launch memo.commands).directory ∧
    memo.position = (placeOf fs host launch memo.commands).directory)
  between : ¬ s.settled → memo.position = (placeOf fs host launch memo.commands).directory ∧
    memo.observed ++ [memo.position] = directoriesOf fs host launch memo.commands
  current : ∀ c ∈ s.clients, c.pc ≠ .start → c.pc ≠ .enter → c.pc ≠ .done →
    c.currentDirectory = (placeOf fs host launch memo.commands).current ∧ memo.commands ≠ []
  consoles : s.consoles ≠ [] → memo.commands ≠ []

variable {fs host launch}

theorem placedUndisturbed {s memo} (placed : SlotPlaced fs host launch s memo) :
    Undisturbed fs host launch s memo := by
  refine ⟨?_,fun quiet => (placed.settled quiet).1,fun quiet entered => ((placed.settled quiet).2 entered).1⟩
  by_cases quiet : s.settled
  · exact (placed.settled quiet).1 ▸ List.prefix_refl _
  · exact (placed.between quiet).2 ▸ List.prefix_append _ _

theorem clientDirectories {t s r call t' s'} (h : NewClient.Steps host t s r call t' s') :
    (t.pc = .enter ∧ t'.pc = .receive ∧ call = .readlink ∧ ∃ cwd, r = .path cwd ∧ t'.currentDirectory = cwd ∧
      s'.console.directory = cwd) ∨
    (∃ p, t.pc = .changeDirectory p ∧
      call = .chdir (cString (changeTarget host t.currentDirectory s.console.directory p)) ∧
      t'.currentDirectory = changeTarget host t.currentDirectory s.console.directory p ∧ s' = s ∧
      ((r = .done ∧ t'.pc = .readDirectory p) ∨ (r = .failed ∧ t'.pc = .setCommand p))) ∨
    (∃ p cwd, t.pc = .readDirectory p ∧ t'.pc = .setCommand p ∧ call = .getcwd ∧ r = .path cwd ∧
      t'.currentDirectory = t.currentDirectory ∧ s'.console.directory = cwd) ∨
    (t.pc = .returnDirectory ∧ t'.pc = .finish true ∧ call = .chdir (cString s.console.directory) ∧ s' = s ∧
      t'.currentDirectory = t.currentDirectory ∧ (r = .done ∨ r = .failed)) ∨
    (t.pc ≠ .start ∧ t.pc ≠ .enter ∧ t.pc.between = false ∧ t'.pc.between = false ∧
      t'.currentDirectory = t.currentDirectory ∧ s'.console.directory = s.console.directory ∧
      call ≠ .readlink ∧ call ≠ .getcwd ∧ ∀ path, call ≠ .chdir path) := by
  cases h <;> simp_all [NewClient.Pc.between]

theorem consoleDirectories {t s r call t' s'} (h : NewConsole.Steps t s r call t' s') :
    s'.console.directory = s.console.directory ∧
    ((t.pc = .returnDirectory ∧ call = .chdir (cString s.console.directory) ∧ (r = .done ∨ r = .failed)) ∨
     (∃ command, t.pc = .fork command ∧ call = .fork command ∧ ((∃ pid, r = .process pid) ∨ r = .failed)) ∨
     ((∀ path, call ≠ .chdir path) ∧ ∀ command, call ≠ .fork command)) := by
  cases h <;> simp_all

theorem listenDirectory {maxClients s current pc r call pc' s' current'}
    (h : SocketListen.Steps maxClients s current pc r call pc' s' current') :
    s'.console.directory = s.console.directory := by cases h <;> rfl

theorem placeCanonical (host : Host) (launched : fs.resolve launch launch = some launch) (commands : List DirectoryCommand) :
    (placeOf fs host launch commands).Canonical fs := by
  induction commands using List.reverseRecOn with
  | nil => exact canonicalEverywhere launched
  | append_singleton rest last ih =>
    rw [placeOf,afterAllPush]
    exact canonicalAfter ih (canonicalEverywhere launched)

theorem placePush (commands : List DirectoryCommand) (command : DirectoryCommand) :
    placeOf fs host launch (commands ++ [command]) = (placeOf fs host launch commands).after fs host launch command :=
  afterAllPush fs host launch _ _ _

theorem directoriesOfPush (commands : List DirectoryCommand) (command : DirectoryCommand) :
    directoriesOf fs host launch (commands ++ [command]) = directoriesOf fs host launch commands ++
      [(placeOf fs host launch (commands ++ [command])).directory] := by
  rw [directoriesOf,directoriesPush,placePush]
  rfl

theorem betweenSet {s : SlotState} {t : Nat} {thread : NewClient.Thread} (next : NewClient.Thread) (slot : Slot)
    (consoles : List NewConsole.Thread) (lock : SlotLock s) (here : s.clients[t]? = some thread)
    (live : thread.pc ≠ .done) : (s.settled ↔ thread.pc.between = false) ∧
      ((SlotState.mk slot (s.clients.set t next) consoles).settled ↔ next.pc.between = false) := by
  obtain ⟨before,after⟩ := soleLive next NewClient.Pc.between rfl lock here live
  constructor
  · rw [← before]
    simp [SlotState.settled]
  · rw [← after]
    simp [SlotState.settled]

theorem placedMove {s : SlotState} {memo memo' : Trace} {t : Nat} {thread next : NewClient.Thread} {slot : Slot}
    (placed : SlotPlaced fs host launch s memo) (here : s.clients[t]? = some thread) (live : thread.pc ≠ .done)
    (lock : SlotLock ⟨slot,s.clients.set t next,s.consoles⟩)
    (settled : next.pc.between = false → memo'.observed = directoriesOf fs host launch memo'.commands ∧
      (memo'.commands ≠ [] → slot.console.directory = (placeOf fs host launch memo'.commands).directory ∧
        memo'.position = (placeOf fs host launch memo'.commands).directory))
    (between : next.pc.between = true → memo'.position = (placeOf fs host launch memo'.commands).directory ∧
      memo'.observed ++ [memo'.position] = directoriesOf fs host launch memo'.commands)
    (current : next.pc ≠ .enter → next.currentDirectory = (placeOf fs host launch memo'.commands).current ∧
      memo'.commands ≠ [])
    (grows : memo.commands ≠ [] → memo'.commands ≠ []) :
    SlotPlaced fs host launch ⟨slot,s.clients.set t next,s.consoles⟩ memo' := by
  obtain ⟨_,after⟩ := betweenSet next slot s.consoles placed.lock here live
  refine ⟨lock,fun quiet => settled (after.mp quiet),fun busy => between ?_,?_,fun some => grows (placed.consoles some)⟩
  · simpa [after] using busy
  · intro c found _ started running
    obtain rfl := onlyLiveNext placed.lock here live found running
    exact current started

theorem placedEnter {s : SlotState} {memo : Trace} {t : Nat} {thread next : NewClient.Thread} {slot : Slot}
    {cwd : Bytes} (placed : SlotPlaced fs host launch s memo)
    (here : s.clients[t]? = some thread) (live : thread.pc ≠ .done) (before : thread.pc.between = false)
    (lock : SlotLock ⟨slot,s.clients.set t next,s.consoles⟩) (then_ : next.pc = .receive)
    (home : cwd = launch) (current : next.currentDirectory = cwd) (shown : slot.console.directory = cwd) :
    SlotPlaced fs host launch ⟨slot,s.clients.set t next,s.consoles⟩
      ⟨memo.commands ++ [.enter],memo.observed ++ [slot.console.directory],cwd⟩ := by
  have quiet : s.settled := (betweenSet next slot s.consoles placed.lock here live).1.mpr before
  refine placedMove placed here live lock ?_ ?_ ?_ (by simp)
  · intro _
    refine ⟨?_,fun _ => ⟨?_,?_⟩⟩
    · rw [directoriesOfPush,placePush,(placed.settled quiet).1,shown,home]
      rfl
    · rw [placePush,shown,home]
      rfl
    · rw [placePush,home]
      rfl
  · intro on
    rw [then_] at on
    contradiction
  · intro _
    rw [placePush,current,home]
    exact ⟨rfl,by simp⟩

theorem resolvedFrom {cwd d path : Bytes} (same : cwd = d ∨ path.head? = some 47) :
    fs.resolve cwd path = fs.resolve d path := by
  rcases same with rfl | rooted
  · rfl
  · exact fs.absolute cwd d path rooted

theorem placedChange {s : SlotState} {memo t p thread next cwd cwd' r} (placed : SlotPlaced fs host launch s memo)
    (here : s.clients[t]? = some thread) (at_ : thread.pc = .changeDirectory p)
    (lock : SlotLock ⟨s.slot,s.clients.set t next,s.consoles⟩)
    (ok : cwd = memo.position ∨ (cString (changeTarget host thread.currentDirectory s.slot.console.directory p)).head? =
      some 47)
    (current : next.currentDirectory = changeTarget host thread.currentDirectory s.slot.console.directory p)
    (result : (r = .done ∧ next.pc = .readDirectory p) ∨ (r = .failed ∧ next.pc = .setCommand p)) {actor}
    (handled : (directorySystem fs).call cwd actor
      (.chdir (cString (changeTarget host thread.currentDirectory s.slot.console.directory p))) r = some cwd') :
    SlotPlaced fs host launch ⟨s.slot,s.clients.set t next,s.consoles⟩
      (noteSlotTrace memo s cwd' ⟨s.slot,s.clients.set t next,s.consoles⟩ (.client t r)
        (.chdir (cString (changeTarget host thread.currentDirectory s.slot.console.directory p)))) := by
  have live : thread.pc ≠ .done := by simp [at_]
  have quiet : s.settled := (betweenSet next s.slot s.consoles placed.lock here live).1.mpr (by rw [at_]; rfl)
  have changing : s.changing t = some p := by simp [SlotState.changing,here,at_,NewClient.Pc.changing]
  obtain ⟨own,entered⟩ := placed.current thread (List.mem_of_getElem? here) (by simp [at_]) (by simp [at_]) live
  obtain ⟨observed,inside⟩ := placed.settled quiet
  obtain ⟨shown,kept⟩ := inside entered
  rw [own,shown] at ok current handled ⊢
  have resolved : fs.resolve _ _ = fs.resolve _ _ := resolvedFrom (ok.imp_left fun there => there.trans kept)
  rcases result with ⟨rfl,then_⟩ | ⟨rfl,then_⟩
  · have moved := resolved.symm.trans handled
    have place : placeOf fs host launch (memo.commands ++ [.change p]) = ⟨cwd',next.currentDirectory⟩ := by
      rw [placePush,current]
      simp [Place.after,moved]
    simp only [noteSlotTrace,changing]
    refine placedMove placed here live lock ?_ ?_ ?_ (by simp)
    · intro off
      rw [then_] at off
      contradiction
    · intro _
      rw [directoriesOfPush,place,observed]
      exact ⟨rfl,rfl⟩
    · intro _
      rw [place]
      exact ⟨rfl,by simp⟩
  · simp only [directorySystem] at handled
    split at handled <;> try contradiction
    rename_i missing
    have stays := resolved.symm.trans missing
    have place : placeOf fs host launch (memo.commands ++ [.change p]) =
        ⟨(placeOf fs host launch memo.commands).directory,next.currentDirectory⟩ := by
      rw [placePush,current]
      simp [Place.after,stays]
    simp only [noteSlotTrace,changing]
    refine placedMove placed here live lock ?_ ?_ ?_ (by simp)
    · intro _
      rw [directoriesOfPush,place,observed,shown]
      exact ⟨rfl,fun _ => ⟨rfl,kept⟩⟩
    · intro on
      rw [then_] at on
      contradiction
    · intro _
      rw [place]
      exact ⟨rfl,by simp⟩

theorem noteElsewhere {s memo cwd s' t r call} (noLink : call ≠ .readlink) (noRead : call ≠ .getcwd)
    (noChange : ∀ path, call ≠ .chdir path) : noteSlotTrace memo s cwd s' (.client t r) call = memo := by
  cases call <;> simp_all [noteSlotTrace]

theorem placedArrive {s : SlotState} {memo t p thread next slot cwd} (placed : SlotPlaced fs host launch s memo)
    (here : s.clients[t]? = some thread) (at_ : thread.pc = .readDirectory p)
    (lock : SlotLock ⟨slot,s.clients.set t next,s.consoles⟩) (then_ : next.pc = .setCommand p)
    (met : cwd = memo.position) (current : next.currentDirectory = thread.currentDirectory)
    (shown : slot.console.directory = cwd) : SlotPlaced fs host launch ⟨slot,s.clients.set t next,s.consoles⟩
      {memo with observed := memo.observed ++ [slot.console.directory]} := by
  have live : thread.pc ≠ .done := by simp [at_]
  have busy : ¬ s.settled := by
    rw [(betweenSet next slot s.consoles placed.lock here live).1,at_]
    simp [NewClient.Pc.between]
  obtain ⟨own,known⟩ := placed.current thread (List.mem_of_getElem? here) (by simp [at_]) (by simp [at_]) live
  obtain ⟨kept,observed⟩ := placed.between busy
  refine placedMove placed here live lock ?_ ?_ (fun _ => ⟨current.trans own,known⟩) id
  · intro _
    rw [shown,met]
    exact ⟨observed,fun _ => ⟨kept,kept⟩⟩
  · intro on
    rw [then_] at on
    contradiction

theorem placedReturn {s : SlotState} {memo t thread next cwd cwd' r} (placed : SlotPlaced fs host launch s memo)
    (launched : fs.resolve launch launch = some launch) (here : s.clients[t]? = some thread)
    (at_ : thread.pc = .returnDirectory) (lock : SlotLock ⟨s.slot,s.clients.set t next,s.consoles⟩)
    (then_ : next.pc = .finish true) (current : next.currentDirectory = thread.currentDirectory)
    (result : r = .done ∨ r = .failed) {actor}
    (handled : (directorySystem fs).call cwd actor (.chdir (cString s.slot.console.directory)) r = some cwd') :
    SlotPlaced fs host launch ⟨s.slot,s.clients.set t next,s.consoles⟩
      (noteSlotTrace memo s cwd' ⟨s.slot,s.clients.set t next,s.consoles⟩ (.client t r)
        (.chdir (cString s.slot.console.directory))) := by
  have live : thread.pc ≠ .done := by simp [at_]
  have quiet : s.settled := (betweenSet next s.slot s.consoles placed.lock here live).1.mpr (by rw [at_]; rfl)
  obtain ⟨own,known⟩ := placed.current thread (List.mem_of_getElem? here) (by simp [at_]) (by simp [at_]) live
  obtain ⟨observed,inside⟩ := placed.settled quiet
  obtain ⟨shown,kept⟩ := inside known
  have stable := placeCanonical host launched memo.commands cwd
  have other : s.changing t = none := by simp [SlotState.changing,here,at_,NewClient.Pc.changing]
  rw [shown] at handled
  rcases result with rfl | rfl
  · have arrived : (placeOf fs host launch memo.commands).directory = cwd' :=
      Option.some.inj (stable.symm.trans handled)
    simp only [noteSlotTrace,other]
    refine placedMove placed here live lock ?_ ?_ (fun _ => ⟨current.trans own,known⟩) id
    · exact fun _ => ⟨observed,fun _ => ⟨shown,arrived.symm⟩⟩
    · intro on
      rw [then_] at on
      contradiction
  · simp [directorySystem,stable] at handled

theorem placedElsewhere {s : SlotState} {memo t thread next slot} (placed : SlotPlaced fs host launch s memo)
    (here : s.clients[t]? = some thread) (live : thread.pc ≠ .done)
    (lock : SlotLock ⟨slot,s.clients.set t next,s.consoles⟩) (begun : thread.pc ≠ .start)
    (entered : thread.pc ≠ .enter) (off : thread.pc.between = false) (offNext : next.pc.between = false)
    (current : next.currentDirectory = thread.currentDirectory)
    (shown : slot.console.directory = s.slot.console.directory) :
    SlotPlaced fs host launch ⟨slot,s.clients.set t next,s.consoles⟩ memo := by
  have quiet : s.settled := (betweenSet next slot s.consoles placed.lock here live).1.mpr off
  obtain ⟨observed,inside⟩ := placed.settled quiet
  obtain ⟨own,known⟩ := placed.current thread (List.mem_of_getElem? here) begun entered live
  refine placedMove placed here live lock ?_ ?_ (fun _ => ⟨current.trans own,known⟩) id
  · exact fun _ => ⟨observed,fun some => ⟨shown.trans (inside some).1,(inside some).2⟩⟩
  · intro on
    rw [offNext] at on
    contradiction

theorem placedCreated {s : SlotState} {memo t thread} (placed : SlotPlaced fs host launch s memo)
    (here : s.clients[t]? = some thread) (at_ : thread.pc = .create)
    (lock : SlotLock ⟨s.slot,s.clients.set t {thread with pc := .receive,newConsoleThread := some s.consoles.length},
      s.consoles ++ [NewConsole.created thread.socketID]⟩) : SlotPlaced fs host launch
        ⟨s.slot,s.clients.set t {thread with pc := .receive,newConsoleThread := some s.consoles.length},
          s.consoles ++ [NewConsole.created thread.socketID]⟩ memo := by
  have live : thread.pc ≠ .done := by simp [at_]
  obtain ⟨own,known⟩ := placed.current thread (List.mem_of_getElem? here) (by simp [at_]) (by simp [at_]) live
  have quiet : s.settled := (betweenSet thread s.slot s.consoles placed.lock here live).1.mpr (by rw [at_]; rfl)
  have quietNext := (betweenSet {thread with pc := .receive,newConsoleThread := some s.consoles.length}
    s.slot (s.consoles ++ [NewConsole.created thread.socketID]) placed.lock here live).2.mpr rfl
  refine ⟨lock,fun _ => placed.settled quiet,fun busy => (busy quietNext).elim,?_,fun _ => known⟩
  intro c found begun entered running
  rcases (memSet here).mp found with rfl | ⟨_,_,old⟩
  · exact ⟨own,known⟩
  · exact placed.current c (List.mem_of_getElem? old) begun entered running

theorem placedClient {maxClients s memo t r call s' cwd cwd' actor} (placed : SlotPlaced fs host launch s memo)
    (launched : fs.resolve launch launch = some launch)
    (ok : ∀ thread ∈ s.clients[t]?, thread.keepsPlace host launch s.slot cwd memo.position)
    (h : SlotStep host maxClients s (.client t r) call s')
    (handled : (directorySystem fs).call cwd actor call r = some cwd') (lock : SlotLock s') :
    SlotPlaced fs host launch s' (noteSlotTrace memo s cwd' s' (.client t r) call) := by
  cases h with
  | created here at_ => exact placedCreated placed here at_ lock
  | @client _ _ thread _ next slot here step noThread joined =>
    have live := clientNotDone step
    have met := ok thread here
    rcases clientDirectories step with ⟨at_,then_,rfl,p,rfl,current,shown⟩ | ⟨p,at_,rfl,current,rfl,result⟩ |
        ⟨p,d,at_,then_,rfl,rfl,current,shown⟩ | ⟨at_,then_,rfl,rfl,current,result⟩ |
        ⟨begun,entered,off,offNext,current,shown,noLink,noRead,noChange⟩
    · simp only [directorySystem] at handled
      split at handled <;> try contradiction
      rename_i same
      cases Option.some.inj handled
      simp only [NewClient.Thread.keepsPlace,at_] at met
      subst same
      exact placedEnter placed here live (by rw [at_]; rfl) lock then_ met current shown
    · simp only [NewClient.Thread.keepsPlace,at_] at met
      exact placedChange placed here at_ lock met current result handled
    · simp only [directorySystem] at handled
      split at handled <;> try contradiction
      rename_i same
      cases Option.some.inj handled
      simp only [NewClient.Thread.keepsPlace,at_] at met
      exact placedArrive placed here at_ lock then_ met current (shown.trans same)
    · exact placedReturn placed launched here at_ lock then_ current result handled
    · rw [noteElsewhere noLink noRead noChange]
      exact placedElsewhere placed here live lock begun entered off offNext current shown

theorem noteConsoleElsewhere {s after : SlotState} {memo : Trace} {cwd : Bytes} {k : Nat} {r : Result} {call : Call}
    (noChange : ∀ path, call ≠ .chdir path) (noFork : ∀ command, call ≠ .fork command) :
    noteSlotTrace memo s cwd after (.console k r) call = memo := by
  cases call with
  | chdir path => exact (noChange path rfl).elim
  | fork command => exact (noFork command rfl).elim
  | _ => cases r <;> rfl

theorem placedConsole {maxClients s memo k r call s' cwd cwd' actor} (placed : SlotPlaced fs host launch s memo)
    (launched : fs.resolve launch launch = some launch)
    (ok : ∀ thread ∈ s.consoles[k]?, thread.keepsPlace s cwd memo.position)
    (h : SlotStep host maxClients s (.console k r) call s')
    (handled : (directorySystem fs).call cwd actor call r = some cwd') (lock : SlotLock s') :
    SlotPlaced fs host launch s' (noteSlotTrace memo s cwd' s' (.console k r) call) := by
  cases h with
  | @console _ _ thread _ next slot here step =>
    have met := ok thread here
    have exists_ : s.consoles ≠ [] := List.ne_nil_of_mem (List.mem_of_getElem? here)
    have known := placed.consoles exists_
    obtain ⟨same,moves⟩ := consoleDirectories step
    rcases moves with ⟨at_,rfl,result⟩ | ⟨command,at_,rfl,result⟩ | ⟨noChange,noFork⟩
    · simp only [NewConsole.Thread.keepsPlace,at_] at met
      obtain ⟨observed,inside⟩ := placed.settled met
      obtain ⟨shown,kept⟩ := inside known
      have stable := placeCanonical host launched memo.commands cwd
      rw [shown] at handled
      rcases result with rfl | rfl
      · have arrived : (placeOf fs host launch memo.commands).directory = cwd' :=
          Option.some.inj (stable.symm.trans handled)
        exact ⟨lock,fun _ => ⟨observed,fun _ => ⟨same.trans shown,arrived.symm⟩⟩,fun busy => (busy met).elim,
          placed.current,fun _ => known⟩
      · simp [directorySystem,stable] at handled
    · simp only [NewConsole.Thread.keepsPlace,at_] at met
      obtain ⟨observed,inside⟩ := placed.settled met.2
      obtain ⟨shown,kept⟩ := inside known
      rcases result with ⟨pid,rfl⟩ | rfl
      · have started : cwd' = (placeOf fs host launch memo.commands).directory :=
          (Option.some.inj handled).symm.trans (met.1.trans kept)
        have place : placeOf fs host launch (memo.commands ++ [DirectoryCommand.start]) =
            placeOf fs host launch memo.commands :=
          placePush _ _
        refine ⟨lock,fun _ => ⟨?_,fun _ => ?_⟩,fun busy => (busy met.2).elim,?_,fun _ => by simp [noteSlotTrace]⟩
        · simp only [noteSlotTrace]
          rw [directoriesOfPush,place,observed,started]
        · simp only [noteSlotTrace,place]
          exact ⟨same.trans shown,kept⟩
        · simp only [noteSlotTrace,place]
          exact fun c found begun entered running => ⟨(placed.current c found begun entered running).1,by simp⟩
      · exact ⟨lock,fun _ => ⟨observed,fun _ => ⟨same.trans shown,kept⟩⟩,fun busy => (busy met.2).elim,
          placed.current,fun _ => known⟩
    · rw [noteConsoleElsewhere noChange noFork]
      refine ⟨lock,fun quiet => ?_,placed.between,placed.current,fun _ => known⟩
      obtain ⟨observed,inside⟩ := placed.settled quiet
      exact ⟨observed,fun some => ⟨same.trans (inside some).1,(inside some).2⟩⟩

theorem placedMemory {s : SlotState} {memo} {slot : Slot} (placed : SlotPlaced fs host launch s memo)
    (same : slot.console.directory = s.slot.console.directory) (lock : SlotLock {s with slot}) :
    SlotPlaced fs host launch {s with slot} memo := by
  refine ⟨lock,fun quiet => ?_,placed.between,placed.current,placed.consoles⟩
  obtain ⟨observed,inside⟩ := placed.settled quiet
  exact ⟨observed,fun some => ⟨same.trans (inside some).1,(inside some).2⟩⟩

theorem placedStart {s : SlotState} {memo i} (placed : SlotPlaced fs host launch s memo)
    (lock : SlotLock {s with clients := s.clients ++ [NewClient.started i]}) :
    SlotPlaced fs host launch {s with clients := s.clients ++ [NewClient.started i]} memo := by
  have same : SlotState.settled {s with clients := s.clients ++ [NewClient.started i]} ↔ s.settled := by
    simp [SlotState.settled,NewClient.started,NewClient.Pc.between,or_imp,forall_and]
  refine ⟨lock,fun quiet => placed.settled (same.mp quiet),fun busy => placed.between fun quiet => busy (same.mpr quiet),
    ?_,placed.consoles⟩
  intro c found begun entered running
  rcases List.mem_append.mp found with old | new
  · exact placed.current c old begun entered running
  · rw [List.mem_singleton.mp new] at entered
    exact (entered rfl).elim

def Placed (fs : FileSystem) (host : Host) (launch : Bytes) (s : Server Bytes × (Nat → Trace)) : Prop :=
  ∀ i, SlotPlaced fs host launch (s.1.slots i) (s.2 i)

theorem placedStep {maxClients} {s s' : Server Bytes × (Nat → Trace)} {l call} (placed : Placed fs host launch s)
    (launched : fs.resolve launch launch = some launch) (ok : KeepsPlace host launch s l)
    (h : (watch (serverMachine host maxClients (directorySystem fs)) noteTraces).act s l = some (call,s')) :
    Placed fs host launch s' := by
  obtain ⟨act,noted⟩ := watchAct h
  have step := serverStep act
  obtain ⟨s,memo⟩ := s
  obtain ⟨next,memo'⟩ := s'
  obtain rfl : memo' = noteTraces memo s l call next := noted
  have alone : StartsAlone s l := by
    cases l with
    | start => exact ok
    | _ => trivial
  have locked := serverLock (fun i => (placed i).lock) alone step
  cases on : l.onSlot s with
  | none =>
    intro j
    have same := slotsOfEvent step on
    simp only [noteTraces,on]
    rw [same]
    exact placed j
  | some pair =>
    obtain ⟨i,label⟩ := pair
    obtain ⟨_,others⟩ := slotOfServer step on
    intro j
    simp only [noteTraces,on]
    by_cases here : j = i
    · subst here
      simp only [Function.update_self]
      have lock := locked j
      cases step with
      | @listen r call _ _ _ system step handled =>
        cases Option.some.inj on
        simp only [Function.update_self] at lock ⊢
        have silent (after : SlotState) : noteSlotTrace (memo s.listener.slot) (s.slots s.listener.slot) system after
            (.listen s.listener r) call = memo s.listener.slot := by cases call <;> rfl
        rw [silent]
        exact placedMemory (placed _) (listenDirectory step) lock
      | start waiting =>
        cases Option.some.inj on
        simp only [Function.update_self] at lock ⊢
        exact placedStart (placed _) lock
      | client step handled =>
        cases Option.some.inj on
        simp only [Function.update_self] at lock ⊢
        exact placedClient (placed j) launched ok step handled lock
      | console step handled =>
        cases Option.some.inj on
        simp only [Function.update_self] at lock ⊢
        exact placedConsole (placed j) launched ok step handled lock
      | system => contradiction
    · rw [Function.update_of_ne here,others j here]
      exact placed j

theorem placedRun {maxClients} {s : Server Bytes} {t : Server Bytes × (Nat → Trace)}
    (launched : fs.resolve launch launch = some launch) (unstarted : Unstarted s)
    (run : Reaches (watch (serverMachine host maxClients (directorySystem fs)) noteTraces)
      (KeepsPlace host launch) (s,fun _ => ⟨[],[],launch⟩) t) : Placed fs host launch t := by
  have start : Placed fs host launch (s,fun _ => ⟨[],[],launch⟩) := by
    intro i
    have none := unstarted.threads i
    have quiet : (s.slots i).settled := by simp [SlotState.settled,none.clients]
    refine ⟨noThreadsLock none,fun _ => ⟨rfl,by simp⟩,fun busy => (busy quiet).elim,?_,?_⟩
    · simp [none.clients]
    · simp [none.consoles]
  exact invariantOfStep (fun placed ok act => placedStep placed launched ok act) run start

/- Two runs: with the same commands two clients see the same, whatever else goes on. -/
theorem sameCommandsSameDirectories {maxClients} {s s' : Server Bytes} {t t' : Server Bytes × (Nat → Trace)}
    (launched : fs.resolve launch launch = some launch) (unstarted : Unstarted s) (unstarted' : Unstarted s')
    (run : Reaches (watch (serverMachine host maxClients (directorySystem fs)) noteTraces)
      (KeepsPlace host launch) (s,fun _ => ⟨[],[],launch⟩) t)
    (run' : Reaches (watch (serverMachine host maxClients (directorySystem fs)) noteTraces)
      (KeepsPlace host launch) (s',fun _ => ⟨[],[],launch⟩) t') {i j : Nat}
    (settled : (t.1.slots i).settled) (settled' : (t'.1.slots j).settled)
    (same : (t.2 i).commands = (t'.2 j).commands) : (t.2 i).observed = (t'.2 j).observed := by
  have mine := (placedUndisturbed (placedRun launched unstarted run i)).complete settled
  have other := (placedUndisturbed (placedRun launched unstarted' run' j)).complete settled'
  rw [mine,other,same]

def rootPath : Bytes := ascii "/"
def temporaryPath : Bytes := ascii "/tmp"

def twoDirectories : FileSystem where
  resolve d path :=
    if path = rootPath then some rootPath
    else if path = temporaryPath ∨ (path = ascii "tmp" ∧ d = rootPath) then some temporaryPath
    else none
  absolute d e path rooted := by
    have named : path ≠ ascii "tmp" := fun same => by rw [same] at rooted; revert rooted; decide
    simp [named]
  canonical d path e found := by
    split at found
    · cases Option.some.inj found
      decide
    · split at found <;> try contradiction
      cases Option.some.inj found
      decide

def changesTo (t : Nat) (message : String) (directory : Bytes) : List SlotLabel :=
  clientDoes t [heard message,.done,.done,.path directory,.done,.done,.done,.done]

def twoEnter : List (ServerLabel Empty) :=
  [.listen .done] ++ accepts 4 ++ [.start] ++ accepts 5 ++ [.start] ++
    [.client 0 0 (.path rootPath),.client 1 0 (.path rootPath)]

def bothChange : List (ServerLabel Empty) := twoEnter ++
  (changesTo 0 "Mcd tmp" temporaryPath).map (SlotLabel.onServer 0) ++
  (changesTo 0 "Mcd /tmp" temporaryPath ++ launches 0 0 "Mpwd" ++ consoleStarts 0 100).map (SlotLabel.onServer 1)

def entersElsewhere : List (ServerLabel Empty) :=
  [.listen .done] ++ accepts 4 ++ [.start,.client 0 0 (.path rootPath)] ++
  (changesTo 0 "Mcd /tmp" temporaryPath).map (SlotLabel.onServer 0) ++
  accepts 5 ++ [.start,.client 1 0 (.path temporaryPath)]

end RemoteTerminal
