import RemoteTerminal.Server.Lock

/-! The whole server: the accept loop, the slot index it hands to each new thread in
`Service->currentClientSocket`, the slots, and the operating system. What the system keeps
and which results a call can have is a parameter. Each step of a server thread is a step
of one slot and leaves the other slots as they are. -/
namespace RemoteTerminal
open ByteStrings LabelledRuns EntryTable

/- A call of `NewClient` comes with the number its next console thread will have. -/
inductive Actor where
  | listener (i : Nat)
  | client (i next : Nat)
  | console (i k : Nat)
  deriving DecidableEq, Repr

structure OperatingSystem (State Event : Type) where
  call : State → Actor → Call → Result → Option State
  event : State → Event → Option State

structure Server (State : Type) where
  listener : SocketListen.Pc
  current : Nat
  pending : Nat
  slots : Nat → SlotState
  system : State

inductive ServerLabel (Event : Type) where
  | listen (r : Result)
  | start
  | client (i t : Nat) (r : Result)
  | console (i k : Nat) (r : Result)
  | system (e : Event)
  deriving DecidableEq, Repr

/- The threads that `pthread_create` has made and that have not read `currentClientSocket` yet. -/
def pendingAfter (pending : Nat) : Call → Result → Nat
  | .createClient,.done => pending+1
  | _,_ => pending

variable {State Event : Type}

def serverMachine (host : Host) (maxClients : Nat) (os : OperatingSystem State Event) :
    Machine (Server State) (ServerLabel Event) Call where
  act s
    | .listen r => do
      let i := s.listener.slot
      let (call,listener,slot,current) ← SocketListen.step maxClients s.listener (s.slots i).slot s.current r
      let system ← os.call s.system (.listener i) call r
      some (call,⟨listener,current,pendingAfter s.pending call r,
        Function.update s.slots i {s.slots i with slot},system⟩)
    | .start =>
      let i := s.current
      if s.pending = 0 then none
      else some (.memory,{s with
        pending := s.pending-1
        slots := Function.update s.slots i
          {s.slots i with clients := (s.slots i).clients ++ [NewClient.started i]}})
    | .client i t r => do
      let (call,slot) ← (slotMachine host maxClients).act (s.slots i) (.client t r)
      let system ← os.call s.system (.client i (s.slots i).consoles.length) call r
      some (call,{s with slots := Function.update s.slots i slot,system})
    | .console i k r => do
      let (call,slot) ← (slotMachine host maxClients).act (s.slots i) (.console k r)
      let system ← os.call s.system (.console i k) call r
      some (call,{s with slots := Function.update s.slots i slot,system})
    | .system e => do
      let system ← os.event s.system e
      some (.memory,{s with system})

inductive ServerStep (host : Host) (maxClients : Nat) (os : OperatingSystem State Event) (s : Server State) :
    ServerLabel Event → Call → Server State → Prop where
  | listen {r call listener slot current system}
      (step : SocketListen.Steps maxClients (s.slots s.listener.slot).slot s.current s.listener r call
        listener slot current)
      (handled : os.call s.system (.listener s.listener.slot) call r = some system) :
      ServerStep host maxClients os s (.listen r) call
        ⟨listener,current,pendingAfter s.pending call r,
          Function.update s.slots s.listener.slot {s.slots s.listener.slot with slot},system⟩
  | start (waiting : s.pending ≠ 0) : ServerStep host maxClients os s .start .memory
      {s with
        pending := s.pending-1
        slots := Function.update s.slots s.current {s.slots s.current with
          clients := (s.slots s.current).clients ++ [NewClient.started s.current]}}
  | client {i t r call slot system} (step : SlotStep host maxClients (s.slots i) (.client t r) call slot)
      (handled : os.call s.system (.client i (s.slots i).consoles.length) call r = some system) :
      ServerStep host maxClients os s (.client i t r) call
        {s with slots := Function.update s.slots i slot,system}
  | console {i k r call slot system} (step : SlotStep host maxClients (s.slots i) (.console k r) call slot)
      (handled : os.call s.system (.console i k) call r = some system) :
      ServerStep host maxClients os s (.console i k r) call
        {s with slots := Function.update s.slots i slot,system}
  | system {e system} (happened : os.event s.system e = some system) :
      ServerStep host maxClients os s (.system e) .memory {s with system}

variable {host : Host} {maxClients : Nat} {os : OperatingSystem State Event} {s s' : Server State}
  {l : ServerLabel Event} {call : Call}

theorem serverStep (h : (serverMachine host maxClients os).act s l = some (call,s')) :
    ServerStep host maxClients os s l call s' := by
  cases l with
  | listen r =>
    simp only [serverMachine,bind,Option.bind_eq_some_iff] at h
    obtain ⟨⟨call,listener,slot,current⟩,act,system,handled,last⟩ := h
    cases Option.some.inj last
    exact .listen (SocketListen.steps act) handled
  | start =>
    simp only [serverMachine] at h
    split at h <;> try contradiction
    rename_i waiting
    cases Option.some.inj h
    exact .start waiting
  | client i t r =>
    simp only [serverMachine,bind,Option.bind_eq_some_iff] at h
    obtain ⟨⟨call,slot⟩,act,system,handled,last⟩ := h
    cases Option.some.inj last
    exact .client (slotStep act) handled
  | console i k r =>
    simp only [serverMachine,bind,Option.bind_eq_some_iff] at h
    obtain ⟨⟨call,slot⟩,act,system,handled,last⟩ := h
    cases Option.some.inj last
    exact .console (slotStep act) handled
  | system e =>
    simp only [serverMachine,bind,Option.bind_eq_some_iff] at h
    obtain ⟨system,happened,last⟩ := h
    cases Option.some.inj last
    exact .system happened

def ServerLabel.onSlot (s : Server State) : ServerLabel Event → Option (Nat × SlotLabel)
  | .listen r => some (s.listener.slot,.listen s.listener r)
  | .start => some (s.current,.start s.current)
  | .client i t r => some (i,.client t r)
  | .console i k r => some (i,.console k r)
  | .system _ => none

theorem listenAnyCurrent {maxClients s current pc r call pc' s' current'}
    (h : SocketListen.Steps maxClients s current pc r call pc' s' current') :
    ∃ other, SocketListen.Steps maxClients s 0 pc r call pc' s' other := by
  cases h <;> exact ⟨_,by constructor <;> assumption⟩

theorem slotOfServer (h : ServerStep host maxClients os s l call s') {i : Nat} {label : SlotLabel}
    (on : l.onSlot s = some (i,label)) : SlotStep host maxClients (s.slots i) label call (s'.slots i) ∧
      ∀ j, j ≠ i → s'.slots j = s.slots j := by
  cases h with
  | listen step handled =>
    cases Option.some.inj on
    obtain ⟨_,step⟩ := listenAnyCurrent step
    refine ⟨?_,fun j other => Function.update_of_ne other _ _⟩
    simp only [Function.update_self]
    exact .listen step
  | start waiting =>
    cases Option.some.inj on
    refine ⟨?_,fun j other => Function.update_of_ne other _ _⟩
    simp only [Function.update_self]
    exact .start
  | client step handled =>
    cases Option.some.inj on
    refine ⟨?_,fun j other => Function.update_of_ne other _ _⟩
    simp only [Function.update_self]
    exact step
  | console step handled =>
    cases Option.some.inj on
    refine ⟨?_,fun j other => Function.update_of_ne other _ _⟩
    simp only [Function.update_self]
    exact step
  | system => contradiction

theorem slotsOfEvent (h : ServerStep host maxClients os s l call s') (off : l.onSlot s = none) :
    s'.slots = s.slots := by
  cases h with
  | system => rfl
  | _ => contradiction

theorem listenActAnyCurrent {maxClients pc slot current r call pc' slot' current'}
    (h : SocketListen.step maxClients pc slot current r = some (call,pc',slot',current')) :
    ∃ other, SocketListen.step maxClients pc slot 0 r = some (call,pc',slot',other) := by
  cases pc with
  | scan i =>
    by_cases beyond : maxClients < i
    · simp only [SocketListen.step,if_pos beyond] at h ⊢
      cases r <;> simp_all
    · by_cases free : slot.client = 0
      · simp only [SocketListen.step,if_neg beyond,if_pos free] at h ⊢
        cases r <;> simp_all
      · simp only [SocketListen.step,if_neg beyond,if_neg free] at h ⊢
        cases r <;> simp_all
  | publish i =>
    cases r with
    | done => cases h; exact ⟨_,rfl⟩
    | _ => cases h
  | _ => cases r <;> simp_all [SocketListen.step]

theorem slotActOfServer (h : (serverMachine host maxClients os).act s l = some (call,s')) {i : Nat}
    {label : SlotLabel} (on : l.onSlot s = some (i,label)) :
    (slotMachine host maxClients).act (s.slots i) label = some (call,s'.slots i) := by
  cases l with
  | listen r =>
    cases Option.some.inj on
    simp only [serverMachine,bind,Option.bind_eq_some_iff] at h
    obtain ⟨⟨call,listener,slot,current⟩,act,system,handled,last⟩ := h
    cases Option.some.inj last
    obtain ⟨other,act'⟩ := listenActAnyCurrent act
    simp [slotMachine,act']
  | start =>
    cases Option.some.inj on
    simp only [serverMachine] at h
    split at h <;> try contradiction
    cases Option.some.inj h
    simp [slotMachine]
  | client i t r =>
    cases Option.some.inj on
    simp only [serverMachine,bind,Option.bind_eq_some_iff] at h
    obtain ⟨⟨call,slot⟩,act,system,handled,last⟩ := h
    cases Option.some.inj last
    simpa using act
  | console i k r =>
    cases Option.some.inj on
    simp only [serverMachine,bind,Option.bind_eq_some_iff] at h
    obtain ⟨⟨call,slot⟩,act,system,handled,last⟩ := h
    cases Option.some.inj last
    simpa using act
  | system e => contradiction

def noteOfSlot {Memo : Type} (i : Nat) (note : Memo → SlotState → SlotLabel → Call → SlotState → Memo)
    (memo : Memo) (s : Server State) (l : ServerLabel Event) (call : Call) (s' : Server State) : Memo :=
  match l.onSlot s with
  | some (j,label) => if j = i then note memo (s.slots i) label call (s'.slots i) else memo
  | none => memo

def AllowedOnSlot {Memo : Type} (i : Nat) (allowed : SlotState × Memo → SlotLabel → Prop)
    (s : Server State × Memo) (l : ServerLabel Event) : Prop :=
  ∀ label, l.onSlot s.1 = some (i,label) → allowed (s.1.slots i,s.2) label

instance {Memo : Type} (i : Nat) (allowed : SlotState × Memo → SlotLabel → Prop) [∀ s l, Decidable (allowed s l)]
    (s : Server State × Memo) (l : ServerLabel Event) : Decidable (AllowedOnSlot i allowed s l) :=
  decidable_of_iff (∀ on ∈ l.onSlot s.1, on.1 = i → allowed (s.1.slots i,s.2) on.2)
    ⟨fun all label on => all (i,label) on rfl,fun all _ on here => all _ (here ▸ on)⟩

theorem slotRun {Memo : Type} {i : Nat} {note : Memo → SlotState → SlotLabel → Call → SlotState → Memo}
    {allowed : SlotState × Memo → SlotLabel → Prop} {s t : Server State × Memo}
    (run : Reaches (watch (serverMachine host maxClients os) (noteOfSlot i note)) (AllowedOnSlot i allowed) s t) :
    Reaches (watch (slotMachine host maxClients) note) allowed (s.1.slots i,s.2) (t.1.slots i,t.2) := by
  refine reachesProject (fun u : Server State × Memo => (u.1.slots i,u.2)) ?_ run
  intro u l call v ok watched
  obtain ⟨act,noted⟩ := watchAct watched
  cases on : l.onSlot u.1 with
  | none =>
    left
    simp only [noteOfSlot,on] at noted
    rw [noted,slotsOfEvent (serverStep act) on]
  | some pair =>
    obtain ⟨j,label⟩ := pair
    simp only [noteOfSlot,on] at noted
    by_cases here : j = i
    · subst here
      right
      rw [if_pos rfl] at noted
      have step := slotActOfServer act on
      refine ⟨label,call,ok label on,?_⟩
      simp [watch,step,noted]
    · left
      rw [if_neg here] at noted
      rw [noted,(slotOfServer (serverStep act) on).2 i (Ne.symm here)]

/- A thread reads its slot index only when every earlier thread of that slot has returned. -/
def StartsAlone (s : Server State) : ServerLabel Event → Prop
  | .start => ∀ t ∈ (s.slots s.current).clients, t.pc = .done
  | _ => True
instance (s : Server State) : (l : ServerLabel Event) → Decidable (StartsAlone s l)
  | .start => by dsimp only [StartsAlone]; infer_instance
  | .listen _ | .client _ _ _ | .console _ _ _ | .system _ => isTrue trivial

theorem startsAloneOnSlot (alone : StartsAlone s l) {i label} (on : l.onSlot s = some (i,label)) :
    OneClient (s.slots i) label := by
  cases l with
  | start => cases Option.some.inj on; exact alone
  | system e => contradiction
  | _ => cases Option.some.inj on; trivial

theorem serverLock (locked : ∀ i, SlotLock (s.slots i)) (alone : StartsAlone s l)
    (h : ServerStep host maxClients os s l call s') : ∀ i, SlotLock (s'.slots i) := by
  intro j
  cases on : l.onSlot s with
  | none => rw [slotsOfEvent h on]; exact locked j
  | some pair =>
    obtain ⟨i,label⟩ := pair
    obtain ⟨step,others⟩ := slotOfServer h on
    by_cases here : j = i
    · subst here
      exact lockStep (locked j) (startsAloneOnSlot alone on) step
    · rw [others j here]
      exact locked j

structure Unstarted (s : Server State) : Prop where
  listener : s.listener = .listen
  pending : s.pending = 0
  clients : ∀ i, (s.slots i).slot.client = 0
  threads : ∀ i, NoThreads (s.slots i)

def booted (system : State) : Server State := ⟨.listen,0,0,fun _ => vacant false false,system⟩

theorem bootedUnstarted (system : State) : Unstarted (booted system) :=
  ⟨rfl,rfl,fun _ => rfl,fun _ => ⟨rfl,rfl⟩⟩

def noSystem : OperatingSystem Unit Empty := ⟨fun _ _ _ _ => some (),fun _ e => nomatch e⟩

def accepts (descriptor : Nat) : List (ServerLabel Event) :=
  [.listen (.descriptor descriptor),.listen .done,.listen .done,.listen .done]

def comesRound : List (ServerLabel Event) := [.listen .failed,.listen .done,.listen .done]

def SlotLabel.onServer (i : Nat) : SlotLabel → ServerLabel Event
  | .listen _ r => .listen r
  | .start _ => .start
  | .client t r => .client i t r
  | .console k r => .console i k r

end RemoteTerminal
