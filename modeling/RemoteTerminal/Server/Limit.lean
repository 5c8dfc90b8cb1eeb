import RemoteTerminal.Server.Handoff

/-! The limit on the clients. `maxClients` is the number of the last slot: the arrays have
one entry more and the accept loop goes through all of them. The default of 19 is meant for
20 clients; the argument is taken as it is. -/
namespace RemoteTerminal
open ByteStrings LabelledRuns EntryTable

def maxClientsOf (argument : Option Int) : Nat :=
  match argument with
  | none => 19
  | some n => if n ≤ 40 ∧ n > 0 then n.toNat else 19

def arrayLength (maxClients : Nat) : Nat := maxClients+1

def resetSocket (clients : List Int) (i : Nat) : Option (List Int) :=
  if i < clients.length then some (clients.set i 0) else none

def resetSockets (maxClients : Nat) (clients : List Int) : Option (List Int) :=
  (List.range (maxClients+1)).foldlM resetSocket clients

theorem resetFirst {clients : List Int} {k : Nat} (room : k ≤ clients.length) :
    (List.range k).foldlM resetSocket clients = some (List.replicate k 0 ++ clients.drop k) := by
  induction k with
  | zero => rfl
  | succ k ih =>
    have inside : k < clients.length := room
    have next : clients.drop k = clients[k]::clients.drop (k+1) := List.drop_eq_getElem_cons inside
    have used : k < (List.replicate k (0 : Int) ++ clients.drop k).length := by simp; omega
    calc (List.range (k+1)).foldlM resetSocket clients
        = resetSocket (List.replicate k 0 ++ clients.drop k) k := by
          rw [List.range_succ,List.foldlM_append,ih (by omega)]
          simp
      _ = some (List.replicate k 0 ++ 0::clients.drop (k+1)) := by
          rw [resetSocket,if_pos used,next,List.set_append_right _ _ (by simp),List.length_replicate,Nat.sub_self,
            List.set_cons_zero]
      _ = some (List.replicate (k+1) 0 ++ clients.drop (k+1)) := by
          rw [List.replicate_succ']
          simp

theorem socketsReset {maxClients : Nat} {clients : List Int} (allocated : clients.length = arrayLength maxClients) :
    resetSockets maxClients clients = some (List.replicate (arrayLength maxClients) 0) := by
  have all : resetSockets maxClients clients = _ := resetFirst allocated.ge
  rw [all,List.drop_of_length_le (by rw [allocated]; rfl),List.append_nil]
  rfl

variable {State Event : Type}

def Server.occupied (s : Server State) (i : Nat) : Prop :=
  (s.slots i).slot.client ≠ 0 ∧ (s.slots i).slot.client ≠ -1
instance (s : Server State) (i : Nat) : Decidable (s.occupied i) := by unfold Server.occupied; infer_instance

def Server.occupiedSlots (s : Server State) (maxClients : Nat) : Finset Nat :=
  (Finset.range (arrayLength maxClients)).filter s.occupied

def OccupiedAtMost (count : Nat) (s : Server State) : Prop :=
  ∀ slots : Finset Nat, (∀ i ∈ slots, s.occupied i) → slots.card ≤ count

/- The entry of the two arrays that a step works on. Past the last slot the loop ends
without a look at them. -/
def ServerLabel.indexUsed (maxClients : Nat) (s : Server State) : ServerLabel Event → Option Nat
  | .listen _ => match s.listener with
    | .listen => none
    | .scan i => if i ≤ maxClients then some i else none
    | .invalid i | .reset i | .publish i | .create i => some i
  | .start => some s.current
  | .client i t _ => (s.slots i).clients[t]?.map fun thread => thread.socketID
  | .console i k _ => (s.slots i).consoles[k]?.map fun thread => thread.socketID
  | .system _ => none

def IndexesInside (host : Host) (maxClients : Nat) (os : OperatingSystem State Event) (s : Server State) : Prop :=
  ∀ l call s', (serverMachine host maxClients os).act s l = some (call,s') →
    ∀ i ∈ l.indexUsed maxClients s, i < arrayLength maxClients

def AcceptsBelow (maxClients : Nat) (s : Server State) : ServerLabel Event → Prop
  | .listen (.descriptor n) => n ≠ 0 → (s.occupiedSlots maxClients).card < maxClients
  | _ => True
instance (maxClients : Nat) (s : Server State) :
    (l : ServerLabel Event) → Decidable (AcceptsBelow maxClients s l)
  | .listen (.descriptor n) => inferInstanceAs (Decidable (n ≠ 0 → (s.occupiedSlots maxClients).card < maxClients))
  | .listen .done | .listen .failed | .listen (.thread _) | .listen (.descriptors _ _) | .listen (.process _)
  | .listen (.path _) | .listen (.received _) | .listen (.output _) | .listen (.again _) | .listen .endOfFile
  | .start | .client _ _ _ | .console _ _ _ | .system _ => isTrue trivial

structure SlotNamed (i : Nat) (s : SlotState) : Prop where
  clients : ∀ thread ∈ s.clients, thread.socketID = i
  consoles : ∀ thread ∈ s.consoles, thread.socketID = i

structure Bounded (maxClients : Nat) (s : Server State) : Prop where
  listener : s.listener.slot ≤ maxClients ∨ s.listener = .scan (maxClients+1)
  current : (s.pending ≠ 0 ∨ ∃ i, s.listener = .create i) → s.current ≤ maxClients
  named : ∀ i, SlotNamed i (s.slots i)
  untouched : ∀ i, maxClients < i → NoThreads (s.slots i) ∧ (s.slots i).slot.client = 0

variable {host : Host} {maxClients : Nat} {os : OperatingSystem State Event} {s s' : Server State}
  {l : ServerLabel Event} {call : Call} {r : Result}

theorem consoleName {t s r call t' s'} (h : NewConsole.Steps t s r call t' s') : t'.socketID = t.socketID := by
  cases h <;> rfl

theorem namedStep {i : Nat} {s s' : SlotState} {l : SlotLabel} (named : SlotNamed i s)
    (started : ∀ j, l = .start j → j = i) (h : SlotStep host maxClients s l call s') : SlotNamed i s' := by
  cases h with
  | listen step => exact ⟨named.clients,named.consoles⟩
  | start =>
    refine ⟨fun thread mem => ?_,named.consoles⟩
    rcases List.mem_append.mp mem with old | new
    · exact named.clients thread old
    · rw [List.mem_singleton.mp new]
      exact started _ rfl
  | client here step noThread joined =>
    refine ⟨fun thread mem => ?_,named.consoles⟩
    rcases (memSet here).mp mem with rfl | ⟨_,_,old⟩
    · exact (clientHolds step).1.trans (named.clients _ (List.mem_of_getElem? here))
    · exact named.clients thread (List.mem_of_getElem? old)
  | @created t thread here at_ =>
    have name := named.clients thread (List.mem_of_getElem? here)
    constructor
    · intro c mem
      rcases (memSet here).mp mem with rfl | ⟨_,_,old⟩
      · exact name
      · exact named.clients c (List.mem_of_getElem? old)
    · intro console mem
      rcases List.mem_append.mp mem with old | new
      · exact named.consoles console old
      · rw [List.mem_singleton.mp new]
        exact name
  | console here step =>
    refine ⟨named.clients,fun thread mem => ?_⟩
    rcases (memSet here).mp mem with rfl | ⟨_,_,old⟩
    · exact (consoleName step).trans (named.consoles _ (List.mem_of_getElem? here))
    · exact named.consoles thread (List.mem_of_getElem? old)

theorem listenInside {slot slot' : Slot} {pc pc' : SocketListen.Pc} {current current' : Nat}
    (bound : pc.slot ≤ maxClients ∨ pc = .scan (maxClients+1))
    (h : SocketListen.Steps maxClients slot current pc r call pc' slot' current') :
    (pc.slot ≤ maxClients ∨ slot' = slot) ∧ (pc'.slot ≤ maxClients ∨ pc' = .scan (maxClients+1)) ∧
    (current' ≤ maxClients ∨ current' = current ∧ ∀ i, pc' ≠ .create i) ∧
    (call = .createClient → ∃ i, pc = .create i) := by
  cases h <;> simp_all [SocketListen.Pc.slot] <;> omega

theorem boundedListen (bounded : Bounded maxClients s)
    (h : ServerStep host maxClients os s (.listen r) call s') : Bounded maxClients s' := by
  cases h with
  | @listen _ _ pc' slot current' _ step handled =>
    obtain ⟨inside,next,current,creates⟩ := listenInside bounded.listener step
    refine ⟨next,fun expected => ?_,fun i => ?_,fun i past => ?_⟩
    · rcases current with small | ⟨same,notCreating⟩
      · exact small
      · have waiting : pendingAfter s.pending call r ≠ 0 :=
          expected.resolve_right fun ⟨i,creating⟩ => notCreating i creating
        rw [same]
        refine bounded.current ?_
        unfold pendingAfter at waiting
        split at waiting
        · exact .inr (creates rfl)
        · exact .inl waiting
    · by_cases here : i = s.listener.slot
      · subst here
        simp only [Function.update_self]
        exact ⟨(bounded.named _).clients,(bounded.named _).consoles⟩
      · simp only [Function.update_of_ne here]
        exact bounded.named i
    · by_cases here : i = s.listener.slot
      · subst here
        simp only [Function.update_self,inside.resolve_left (Nat.not_le_of_lt past)]
        exact bounded.untouched _ past
      · simp only [Function.update_of_ne here]
        exact bounded.untouched i past

theorem boundedSlot {i : Nat} {label : SlotLabel} (bounded : Bounded maxClients s)
    (h : ServerStep host maxClients os s l call s') (on : l.onSlot s = some (i,label)) (inside : i ≤ maxClients)
    (started : ∀ j, label = .start j → j = i) (listener : s'.listener = s.listener) (current : s'.current = s.current)
    (pending : s'.pending ≠ 0 → s.pending ≠ 0) : Bounded maxClients s' := by
  obtain ⟨step,others⟩ := slotOfServer h on
  refine ⟨listener ▸ bounded.listener,fun expected => ?_,fun j => ?_,fun j past => ?_⟩
  · rw [current]
    rw [listener] at expected
    exact bounded.current (expected.imp_left pending)
  · by_cases here : j = i
    · subst here
      exact namedStep (bounded.named j) started step
    · rw [others j here]
      exact bounded.named j
  · rw [others j (by omega)]
    exact bounded.untouched j past

theorem threadInside {i : Nat} (bounded : Bounded maxClients s)
    (some_ : (s.slots i).clients ≠ [] ∨ (s.slots i).consoles ≠ []) : i ≤ maxClients := by
  by_contra past
  obtain ⟨none_,-⟩ := bounded.untouched i (by omega)
  rcases some_ with clients | consoles
  · exact clients none_.clients
  · exact consoles none_.consoles

theorem boundedStep (bounded : Bounded maxClients s) (h : ServerStep host maxClients os s l call s') :
    Bounded maxClients s' := by
  have step := h
  cases h with
  | listen _ _ => exact boundedListen bounded step
  | start waiting =>
    have inside := bounded.current (.inl waiting)
    exact boundedSlot bounded step rfl inside (fun j same => (SlotLabel.start.inj same).symm) rfl rfl fun _ => waiting
  | @client i t r call slot system slotStep handled =>
    have inside : i ≤ maxClients := by
      refine threadInside bounded (.inl fun none_ => ?_)
      cases slotStep <;> simp_all
    exact boundedSlot bounded step rfl inside nofun rfl rfl id
  | @console i k r call slot system slotStep handled =>
    have inside : i ≤ maxClients := by
      refine threadInside bounded (.inr fun none_ => ?_)
      cases slotStep
      simp_all
    exact boundedSlot bounded step rfl inside nofun rfl rfl id
  | system _ => exact ⟨bounded.listener,bounded.current,bounded.named,bounded.untouched⟩

theorem boundedIndexes (bounded : Bounded maxClients s) : IndexesInside host maxClients os s := by
  intro l call s' act i used
  refine Nat.lt_succ_of_le ?_
  cases l with
  | listen r =>
    simp only [ServerLabel.indexUsed] at used
    have listener := bounded.listener
    split at used
    · contradiction
    · split at used <;> cases used
      assumption
    all_goals
      cases used
      simp_all [SocketListen.Pc.slot]
  | start =>
    cases used
    cases serverStep act with
    | start waiting => exact bounded.current (.inl waiting)
  | client j t r =>
    obtain ⟨thread,here,rfl⟩ := Option.map_eq_some_iff.mp used
    rw [(bounded.named j).clients thread (List.mem_of_getElem? here)]
    exact threadInside bounded (.inl (List.ne_nil_of_mem (List.mem_of_getElem? here)))
  | console j k r =>
    obtain ⟨thread,here,rfl⟩ := Option.map_eq_some_iff.mp used
    rw [(bounded.named j).consoles thread (List.mem_of_getElem? here)]
    exact threadInside bounded (.inr (List.ne_nil_of_mem (List.mem_of_getElem? here)))
  | system e => contradiction

theorem occupiedInside (bounded : Bounded maxClients s) {i : Nat} (taken : s.occupied i) : i ≤ maxClients := by
  by_contra past
  exact taken.1 (bounded.untouched i (by omega)).2

theorem occupiedCount (bounded : Bounded maxClients s) (count : Nat) :
    OccupiedAtMost count s ↔ (s.occupiedSlots maxClients).card ≤ count := by
  constructor
  · exact fun most => most _ fun i mem => (Finset.mem_filter.mp mem).2
  · intro few slots taken
    refine (Finset.card_le_card fun i mem => ?_).trans few
    exact Finset.mem_filter.mpr
      ⟨Finset.mem_range.mpr (Nat.lt_succ_of_le (occupiedInside bounded (taken i mem))),taken i mem⟩

theorem slotOccupied {s s' : SlotState} {label : SlotLabel} (h : SlotStep host maxClients s label call s') :
    (∃ pc n, label = .listen pc (.descriptor n) ∧ s.slot.client = 0 ∧ s'.slot.client = (n : Int)) ∨
    ((∀ pc n, label ≠ .listen pc (.descriptor n)) ∧
      (s'.slot.client = s.slot.client ∨ s'.slot.client = 0 ∨ s'.slot.client = -1)) := by
  cases h with
  | listen step => cases step <;> simp_all
  | start => simp
  | client here step noThread joined =>
    rcases (clientHolds step).2 with ⟨-,same⟩ | ⟨-,-,freed⟩
    · exact .inr ⟨nofun,.inl same⟩
    · exact .inr ⟨nofun,.inr (.inl freed)⟩
  | created here at_ => simp
  | console here step => exact .inr ⟨nofun,.inl (consoleClient step)⟩

theorem mostFewer {count : Nat} (most : OccupiedAtMost count s) (fewer : ∀ i, s'.occupied i → s.occupied i) :
    OccupiedAtMost count s' := fun slots taken => most slots fun i mem => fewer i (taken i mem)

theorem acceptedCount {i n : Nat} (after : Bounded maxClients s')
    (free : (s.slots i).slot.client = 0) (taken : (s'.slots i).slot.client = (n : Int)) (nonzero : n ≠ 0)
    (others : ∀ j, j ≠ i → s'.slots j = s.slots j) :
    (s'.occupiedSlots maxClients).card = (s.occupiedSlots maxClients).card+1 := by
  have unoccupied : ¬ s.occupied i := fun occupied => occupied.1 free
  have occupied : s'.occupied i := ⟨by omega,by omega⟩
  have same : s'.occupiedSlots maxClients = insert i (s.occupiedSlots maxClients) := by
    ext j
    simp only [Server.occupiedSlots,Finset.mem_filter,Finset.mem_range,Finset.mem_insert]
    by_cases here : j = i
    · subst here
      have inside := occupiedInside after occupied
      simp [occupied,arrayLength,inside]
    · simp [here,Server.occupied,others j here]
  have fresh : i ∉ s.occupiedSlots maxClients := fun mem => unoccupied (Finset.mem_filter.mp mem).2
  rw [same,Finset.card_insert_of_notMem fresh]

theorem limitStep (bounded : Bounded maxClients s) (most : OccupiedAtMost maxClients s)
    (h : ServerStep host maxClients os s l call s') : OccupiedAtMost maxClients s' ↔ AcceptsBelow maxClients s l := by
  cases on : l.onSlot s with
  | none =>
    have same := slotsOfEvent h on
    have free : AcceptsBelow maxClients s l := by
      cases l with
      | system e => trivial
      | _ => contradiction
    exact iff_of_true (mostFewer most fun i taken => by rwa [Server.occupied,same] at taken) free
  | some pair =>
    obtain ⟨i,label⟩ := pair
    obtain ⟨step,others⟩ := slotOfServer h on
    have elsewhere (j : Nat) (other : j ≠ i) (taken : s'.occupied j) : s.occupied j := by
      rwa [Server.occupied,others j other] at taken
    rcases slotOccupied step with ⟨pc,n,rfl,free,taken⟩ | ⟨noConnection,kept⟩
    · have accepts : l = .listen (.descriptor n) := by
        cases l <;> cases on
        rfl
      subst accepts
      by_cases zero : n = 0
      · subst zero
        refine iff_of_true (mostFewer most fun j occupied => ?_) fun nonzero => (nonzero rfl).elim
        by_cases here : j = i
        · subst here
          exact (occupied.1 taken).elim
        · exact elsewhere j here occupied
      · have after := boundedStep bounded h
        rw [occupiedCount after,acceptedCount after free taken zero others]
        simp [AcceptsBelow,zero]
    · have free : AcceptsBelow maxClients s l := by
        cases l with
        | listen r =>
          cases on
          cases r with
          | descriptor n => exact (noConnection _ n rfl).elim
          | _ => trivial
        | _ => trivial
      refine iff_of_true (mostFewer most fun j occupied => ?_) free
      by_cases here : j = i
      · subst here
        rcases kept with same | freed | failed
        · rwa [Server.occupied,same] at occupied
        · exact (occupied.1 freed).elim
        · exact (occupied.2 failed).elim
      · exact elsewhere j here occupied

theorem unstartedBounded (unstarted : Unstarted s) : Bounded maxClients s := by
  obtain ⟨listener,pending,clients,threads⟩ := unstarted
  refine ⟨.inl (by rw [listener]; exact Nat.zero_le _),?_,fun i => ?_,fun i _ => ⟨threads i,clients i⟩⟩
  · rintro (waiting | ⟨i,creating⟩)
    · exact (waiting pending).elim
    · rw [listener] at creating
      contradiction
  · have none_ := threads i
    exact ⟨by simp [none_.clients],by simp [none_.consoles]⟩

theorem boundedRun (unstarted : Unstarted s) (run : Reaches (serverMachine host maxClients os) free s s') :
    Bounded maxClients s' :=
  invariantOfStep (fun bounded _ act => boundedStep bounded (serverStep act)) run (unstartedBounded unstarted)

theorem occupiedInArrays (unstarted : Unstarted s) (run : Reaches (serverMachine host maxClients os) free s s') :
    OccupiedAtMost (arrayLength maxClients) s' := by
  refine (occupiedCount (boundedRun unstarted run) _).mpr ?_
  calc (s'.occupiedSlots maxClients).card
      ≤ (Finset.range (arrayLength maxClients)).card := Finset.card_filter_le _ _
    _ = arrayLength maxClients := Finset.card_range _

/-- With the argument at `n` neither the first loops nor a step of the server use an index
outside the arrays, and at most `n` slots are occupied all along a run exactly if no
connection is accepted while `n` are. -/
theorem clientLimitIff {n : Int} (accepted : n ≤ 40 ∧ n > 0) (unstarted : Unstarted s) (host : Host)
    (os : OperatingSystem State Event) (labels : List (ServerLabel Event)) :
    (∀ clients, clients.length = arrayLength (maxClientsOf (some n)) →
      resetSockets (maxClientsOf (some n)) clients = some (List.replicate (arrayLength (maxClientsOf (some n))) 0)) ∧
    (∀ t, Reaches (serverMachine host (maxClientsOf (some n)) os) free s t →
      IndexesInside host (maxClientsOf (some n)) os t) ∧
    (HoldsAlong (serverMachine host (maxClientsOf (some n)) os) (OccupiedAtMost n.toNat) s labels ↔
      MeetsAlong (serverMachine host (maxClientsOf (some n)) os) (AcceptsBelow n.toNat) s labels) := by
  have limit : maxClientsOf (some n) = n.toNat := if_pos accepted
  rw [limit]
  have start : Bounded n.toNat s := unstartedBounded unstarted
  refine ⟨fun clients => socketsReset,fun t run => boundedIndexes (boundedRun unstarted run),?_⟩
  have empty : OccupiedAtMost n.toNat s := by
    intro slots taken
    have none_ : slots = ∅ := Finset.eq_empty_of_forall_notMem fun i mem => (taken i mem).1 (unstarted.clients i)
    simp [none_]
  exact holdsAlongIff (fun bounded most _ act =>
      ⟨boundedStep bounded (serverStep act),limitStep bounded most (serverStep act)⟩)
    (fun _ _ => trivial) start empty

def oneAfterOther : List (ServerLabel Empty) :=
  [.listen .done] ++ accepts 4 ++ [.start] ++
    ([SlotLabel.client 0 (.path (ascii "/"))] ++ disconnects 0).map (SlotLabel.onServer 0) ++ comesRound ++
    accepts 5 ++ [.start]

theorem oneClientAdmitted : ∃ t, run (serverMachine plainHost 1 noSystem) free (booted ()) oneAfterOther = some t ∧
    (t.slots 0).slot.client = 5 ∧
    HoldsAlong (serverMachine plainHost (maxClientsOf (some 1)) noSystem) (OccupiedAtMost 1) (booted ())
      oneAfterOther := by
  have ends : (run (serverMachine plainHost 1 noSystem) free (booted ()) oneAfterOther).map
      (fun t => (t.slots 0).slot.client) = some 5 := by decide +kernel
  have accepted : (run (serverMachine plainHost 1 noSystem) (AcceptsBelow 1) (booted ()) oneAfterOther).isSome =
      true := by decide +kernel
  obtain ⟨t,ran,client⟩ := Option.map_eq_some_iff.mp ends
  obtain ⟨u,meets⟩ := Option.isSome_iff_exists.mp accepted
  exact ⟨t,ran,client,
    (clientLimitIff (by decide) (bootedUnstarted ()) plainHost noSystem oneAfterOther).2.2.mpr (runMeets meets)⟩

theorem secondClientAdmitted : ∃ t, Reaches (serverMachine plainHost (maxClientsOf (some 1)) noSystem) free
    (booted ()) t ∧ t.occupied 0 ∧ t.occupied 1 ∧ ¬ OccupiedAtMost 1 t := by
  have ends : (run (serverMachine plainHost 1 noSystem) free (booted ()) twoClientsHandsInTurn).map
      (fun t => ((t.slots 0).slot.client,(t.slots 1).slot.client)) = some (4,5) := by decide +kernel
  obtain ⟨t,ran,same⟩ := Option.map_eq_some_iff.mp ends
  obtain ⟨first,second⟩ := Prod.mk.inj same
  have inFirst : t.occupied 0 := by simp [Server.occupied,first]
  have inSecond : t.occupied 1 := by simp [Server.occupied,second]
  refine ⟨t,runReaches ran,inFirst,inSecond,fun most => ?_⟩
  have count : ({0,1} : Finset Nat).card ≤ 1 := most _ (by simp [inFirst,inSecond])
  revert count
  decide

end RemoteTerminal
