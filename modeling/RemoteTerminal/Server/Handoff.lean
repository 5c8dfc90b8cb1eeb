import RemoteTerminal.Server.Machine

/-! The slot hand-off. `SocketListen` accepts into a slot, stores its index in the one
field `currentClientSocket` and creates a thread that reads the field at some later time. -/
namespace RemoteTerminal
open LabelledRuns EntryTable

def SocketListen.Pc.handles (i : Nat) : SocketListen.Pc → Bool
  | .reset j | .publish j | .create j => j = i
  | _ => false

def Server.expects {State} (s : Server State) (i : Nat) : Prop :=
  s.listener.handles i = true ∨ (s.pending ≠ 0 ∧ s.current = i)

def NewClient.Pc.holdsSlot : NewClient.Pc → Bool
  | .exit | .done => false
  | _ => true

variable {State Event : Type} {host : Host} {maxClients : Nat} {os : OperatingSystem State Event}
  {s s' : Server State} {l : ServerLabel Event} {call : Call}

/- The accept loop stores a slot index only when the last one was read, its threads are
created, and it takes a slot again only when the thread that freed it has returned. An
accepted descriptor 0 would leave the slot marked free. -/
def HandsOver (s : Server State) : ServerLabel Event → Prop
  | .listen r => match s.listener with
    | .publish _ => s.pending = 0
    | .create _ => r = .done
    | .scan i => match r with
      | .descriptor n => n ≠ 0 ∧ ∀ t ∈ (s.slots i).clients, t.pc = .done
      | _ => True
    | _ => True
  | _ => True
instance : (s : Server State) → (l : ServerLabel Event) → Decidable (HandsOver s l)
  | ⟨.publish _,_,_,_,_⟩,.listen _ | ⟨.create _,_,_,_,_⟩,.listen _
  | ⟨.scan _,_,_,_,_⟩,.listen (.descriptor _) => by dsimp only [HandsOver]; infer_instance
  | ⟨.scan _,_,_,_,_⟩,.listen r => by dsimp only [HandsOver]; cases r <;> infer_instance
  | ⟨.listen,_,_,_,_⟩,.listen _ | ⟨.invalid _,_,_,_,_⟩,.listen _ | ⟨.reset _,_,_,_,_⟩,.listen _ => isTrue trivial
  | _,.start | _,.client _ _ _ | _,.console _ _ _ | _,.system _ => isTrue trivial

def SlotState.live (s : SlotState) (t : Nat) : Prop :=
  ∃ thread, s.clients[t]? = some thread ∧ thread.pc ≠ .done

structure HandedOff (s : Server State) : Prop where
  served : s.pending = 0 → ∀ i, (s.slots i).slot.client ≠ 0 → (s.slots i).slot.client ≠ -1 →
    s.listener.handles i = false → ∃! t, (s.slots i).live t
  apart : ∀ (i j t u : Nat) (thread other : NewClient.Thread),
    (s.slots i).clients[t]? = some thread → thread.pc ≠ .done →
    (s.slots j).clients[u]? = some other → other.pc ≠ .done →
    thread.socketID = other.socketID → i = j ∧ t = u

structure SlotHanded (i : Nat) (slot : SlotState) (due invalid : Prop) : Prop where
  named : ∀ thread ∈ slot.clients, thread.socketID = i
  waiting : due → slot.slot.client ≠ 0 ∧ slot.slot.client ≠ -1 ∧ ∀ thread ∈ slot.clients, thread.pc = .done
  failed : invalid → slot.slot.client = -1
  held : ∀ thread ∈ slot.clients, thread.pc.holdsSlot = true → slot.slot.client ≠ 0 ∧ slot.slot.client ≠ -1
  served : ¬ due → slot.slot.client ≠ 0 → slot.slot.client ≠ -1 →
    ∃ thread ∈ slot.clients, thread.pc.holdsSlot = true

structure Handed (s : Server State) : Prop where
  locked : ∀ i, SlotLock (s.slots i)
  one : s.pending ≤ 1
  told : ∀ i, s.listener = .create i → s.current = i ∧ s.pending = 0
  other : s.pending ≠ 0 → s.listener.handles s.current = false
  slots : ∀ i, SlotHanded i (s.slots i) (s.expects i) (s.listener = .invalid i)

theorem handedOff (handed : Handed s) : HandedOff s := by
  refine ⟨?_,?_⟩
  · intro none i taken valid free
    have started : ¬ s.expects i := by simp [Server.expects,none,free]
    obtain ⟨thread,mem,holds⟩ := (handed.slots i).served started taken valid
    obtain ⟨t,here⟩ := List.mem_iff_getElem?.mp mem
    have live : thread.pc ≠ .done := fun stopped => by simp [stopped,NewClient.Pc.holdsSlot] at holds
    refine ⟨t,⟨thread,here,live⟩,fun u running => ?_⟩
    obtain ⟨other,found,liveOther⟩ := running
    exact (handed.locked i).single u t other thread found here liveOther live
  · intro i j t u thread other here live there liveOther same
    rw [(handed.slots i).named thread (List.mem_of_getElem? here),
      (handed.slots j).named other (List.mem_of_getElem? there)] at same
    subst same
    exact ⟨rfl,(handed.locked i).single t u thread other here there live liveOther⟩

theorem clientHolds {host t s r call t' s'} (h : NewClient.Steps host t s r call t' s') :
    t'.socketID = t.socketID ∧
    ((t'.pc.holdsSlot = t.pc.holdsSlot ∧ s'.client = s.client) ∨
     (t.pc.holdsSlot = true ∧ t'.pc.holdsSlot = false ∧ s'.client = 0)) := by
  cases h <;> simp_all [NewClient.Pc.holdsSlot]

theorem handedMove {i t slot due invalid memory consoles} {thread next : NewClient.Thread}
    (handed : SlotHanded i slot due invalid) (lock : SlotLock slot) (here : slot.clients[t]? = some thread)
    (live : thread.pc ≠ .done) (sameName : next.socketID = thread.socketID)
    (moves : (next.pc.holdsSlot = thread.pc.holdsSlot ∧ memory.client = slot.slot.client) ∨
      (thread.pc.holdsSlot = true ∧ next.pc.holdsSlot = false ∧ memory.client = 0)) :
    SlotHanded i ⟨memory,slot.clients.set t next,consoles⟩ due invalid := by
  have mem : thread ∈ slot.clients := List.mem_of_getElem? here
  have sole (c : NewClient.Thread) (found : c ∈ slot.clients.set t next) (holds : c.pc.holdsSlot = true) :
      c = next := by
    refine onlyLiveNext lock here live found fun stopped => ?_
    rw [stopped] at holds
    contradiction
  refine ⟨?_,?_,?_,?_,?_⟩
  · intro c found
    rcases (memSet here).mp found with rfl | ⟨_,_,old⟩
    · exact sameName.trans (handed.named thread mem)
    · exact handed.named c (List.mem_of_getElem? old)
  · exact fun due => (live ((handed.waiting due).2.2 thread mem)).elim
  · intro wrong
    rcases moves with ⟨_,same⟩ | ⟨holds,_,_⟩
    · exact same.trans (handed.failed wrong)
    · exact ((handed.held thread mem holds).2 (handed.failed wrong)).elim
  · intro c found holds
    obtain rfl := sole c found holds
    rcases moves with ⟨same,unchanged⟩ | ⟨_,freed,_⟩
    · simp only [unchanged]
      exact handed.held thread mem (same ▸ holds)
    · rw [freed] at holds
      contradiction
  · intro started taken valid
    rcases moves with ⟨same,unchanged⟩ | ⟨_,_,freed⟩
    · simp only [unchanged] at taken valid
      obtain ⟨c,found,holds⟩ := handed.served started taken valid
      have working : c.pc ≠ .done := fun stopped => by simp [stopped,NewClient.Pc.holdsSlot] at holds
      obtain rfl := onlyLive lock here live found working
      exact ⟨next,(memSet here).mpr (.inl rfl),same.trans holds⟩
    · exact (taken freed).elim

theorem handedClient {i t r slot slot' due invalid} (handed : SlotHanded i slot due invalid) (lock : SlotLock slot)
    (h : SlotStep host maxClients slot (.client t r) call slot') : SlotHanded i slot' due invalid := by
  cases h with
  | client here step noThread joined =>
    obtain ⟨named,moves⟩ := clientHolds step
    exact handedMove handed lock here (clientNotDone step) named moves
  | created here at_ =>
    exact handedMove handed lock here (by simp [at_]) rfl (.inl ⟨by rw [at_]; rfl,rfl⟩)

theorem handedConsole {i k r slot slot' due invalid} (handed : SlotHanded i slot due invalid)
    (h : SlotStep host maxClients slot (.console k r) call slot') : SlotHanded i slot' due invalid := by
  cases h with
  | console here step =>
    have same := consoleClient step
    obtain ⟨named,waiting,failed,held,served⟩ := handed
    exact ⟨named,by simpa only [same] using waiting,by simpa only [same] using failed,
      by simpa only [same] using held,by simpa only [same] using served⟩

theorem handedFrame {i slot due due' invalid invalid'} (handed : SlotHanded i slot due invalid)
    (sameDue : due' ↔ due) (stillInvalid : invalid' → invalid) : SlotHanded i slot due' invalid' :=
  ⟨handed.named,fun h => handed.waiting (sameDue.mp h),fun h => handed.failed (stillInvalid h),handed.held,
    fun h => handed.served fun old => h (sameDue.mpr old)⟩

theorem handedMemory {i slot due due' invalid invalid'} {memory : Slot} (handed : SlotHanded i slot due invalid)
    (sameDue : due' ↔ due) (stillInvalid : invalid' → invalid) (same : memory.client = slot.slot.client) :
    SlotHanded i {slot with slot := memory} due' invalid' := by
  obtain ⟨named,waiting,failed,held,served⟩ := handedFrame handed sameDue stillInvalid
  exact ⟨named,by simpa only [same] using waiting,by simpa only [same] using failed,
    by simpa only [same] using held,by simpa only [same] using served⟩

structure HandsInTurn (s : Server State) : Prop where
  one : s.pending ≤ 1
  told : ∀ i, s.listener = .create i → s.current = i ∧ s.pending = 0
  other : s.pending ≠ 0 → s.listener.handles s.current = false

theorem turnListen {r} (turn : HandsInTurn s) (published : ∀ i, s.listener = .publish i → s.pending = 0)
    (created : ∀ i, s.listener = .create i → r = .done)
    (apart : ∀ i, s.listener = .scan i → (s.slots i).slot.client = 0 → s.pending ≠ 0 → s.current ≠ i)
    (h : ServerStep host maxClients os s (.listen r) call s') :
    HandsInTurn s' ∧ ∀ j, s'.expects j ↔ s.expects j ∨ (s.listener = .scan j ∧ s'.listener = .reset j) := by
  cases h with
  | @listen _ _ pc slot current system step handled =>
    generalize at_ : s.listener = here at *
    cases step with
    | listen | full | occupied | refused | invalid =>
      exact ⟨⟨turn.one,by simp,fun _ => rfl⟩,
        fun j => by simp [Server.expects,at_,SocketListen.Pc.handles,pendingAfter]⟩
    | @accepted i n inside free =>
      refine ⟨⟨turn.one,by simp,fun waiting => ?_⟩,fun j => ?_⟩
      · simpa [SocketListen.Pc.handles,eq_comm] using apart i rfl free waiting
      · simp [Server.expects,at_,SocketListen.Pc.handles,pendingAfter,eq_comm,or_comm]
    | @reset i =>
      refine ⟨⟨turn.one,by simp,fun waiting => ?_⟩,fun j => ?_⟩
      · simpa [at_,SocketListen.Pc.handles] using turn.other waiting
      · simp [Server.expects,at_,SocketListen.Pc.handles,pendingAfter]
    | @publish i =>
      have none := published _ rfl
      refine ⟨⟨turn.one,fun k creating => ?_,fun waiting => (waiting none).elim⟩,fun j => ?_⟩
      · cases creating
        exact ⟨rfl,none⟩
      · simp [Server.expects,at_,SocketListen.Pc.handles,pendingAfter,none]
    | @created i =>
      obtain ⟨told,none⟩ := turn.told i at_
      refine ⟨⟨by simp [pendingAfter,none],by simp,fun _ => rfl⟩,fun j => ?_⟩
      simp [Server.expects,at_,SocketListen.Pc.handles,pendingAfter,none,told]
    | createFailed => nomatch created _ rfl

theorem handedStart (handed : Handed s) (waiting : s.pending ≠ 0) (locked : ∀ i, SlotLock (s'.slots i))
    (h : ServerStep host maxClients os s .start call s') : Handed s' := by
  obtain ⟨taken,valid,idle⟩ := (handed.slots s.current).waiting (.inr ⟨waiting,rfl⟩)
  have apart := handed.other waiting
  have none : s.pending-1 = 0 := by have := handed.one; omega
  cases h with
  | start _ =>
    refine ⟨locked,by simp [none],?_,by simp [none],fun j => ?_⟩
    · exact fun i creating => (waiting (handed.told i creating).2).elim
    · by_cases here : j = s.current
      · subst here
        simp only [Function.update_self]
        refine ⟨?_,?_,?_,fun _ _ _ => ⟨taken,valid⟩,fun _ _ _ => ⟨NewClient.started s.current,by simp,rfl⟩⟩
        · intro thread mem
          rcases List.mem_append.mp mem with old | new
          · exact (handed.slots _).named thread old
          · rw [List.mem_singleton.mp new]
            rfl
        · intro due
          simp [Server.expects,none,apart] at due
        · exact fun wrong => (valid ((handed.slots _).failed wrong)).elim
      · simp only [Function.update_of_ne here]
        exact handedFrame (handed.slots j) (by simp [Server.expects,none,Ne.symm here]) id

theorem listenInvalid {maxClients s current pc r call pc' s' current' j}
    (h : SocketListen.Steps maxClients s current pc r call pc' s' current') (wrong : pc' = .invalid j) :
    pc.slot = j := by
  cases h <;> simp_all [SocketListen.Pc.slot]

theorem handedAccept {i pc pc' r current current'} {slot : SlotState} {memory : Slot} {due due' invalid : Prop}
    (handed : SlotHanded i slot due invalid) (here : pc.slot = i) (wrong : pc = .invalid i → invalid)
    (idle : ∀ n, pc = .scan i → r = .descriptor n → n ≠ 0 ∧ ∀ t ∈ slot.clients, t.pc = .done)
    (h : SocketListen.Steps maxClients slot.slot current pc r call pc' memory current')
    (isDue : due' ↔ due ∨ (pc = .scan i ∧ pc' = .reset i)) :
    SlotHanded i {slot with slot := memory} due' (pc' = .invalid i) := by
  have unheld (off : slot.slot.client = 0 ∨ slot.slot.client = -1) (thread : NewClient.Thread)
      (mem : thread ∈ slot.clients) : thread.pc.holdsSlot ≠ true := fun holds =>
    off.elim (handed.held thread mem holds).1 (handed.held thread mem holds).2
  have notDue (off : slot.slot.client = 0 ∨ slot.slot.client = -1) : ¬ due := fun expected =>
    off.elim (handed.waiting expected).1 (handed.waiting expected).2.1
  cases h with
  | @accepted j n inside free =>
    obtain rfl : j = i := here
    obtain ⟨positive,returned⟩ := idle n rfl rfl
    refine ⟨handed.named,fun _ => ⟨by simpa using positive,by simp only; omega,returned⟩,by simp,?_,?_⟩
    · exact fun thread mem holds => (unheld (.inl free) thread mem holds).elim
    · exact fun off => (off (isDue.mpr (.inr ⟨rfl,rfl⟩))).elim
  | @refused j inside free =>
    obtain rfl : j = i := here
    have off : ¬ due' := by simpa [isDue] using notDue (.inl free)
    refine ⟨handed.named,fun expected => (off expected).elim,fun _ => rfl,?_,fun _ _ valid => (valid rfl).elim⟩
    exact fun thread mem holds => (unheld (.inl free) thread mem holds).elim
  | @invalid j =>
    obtain rfl : j = i := here
    have failed := handed.failed (wrong rfl)
    have off : ¬ due' := by simpa [isDue] using notDue (.inr failed)
    refine ⟨handed.named,fun expected => (off expected).elim,by simp,?_,fun _ taken => (taken rfl).elim⟩
    exact fun thread mem holds => (unheld (.inr failed) thread mem holds).elim
  | _ => exact handedMemory handed (by simpa using isDue) (by simp) rfl

theorem handedListen {r} (handed : Handed s) (ok : HandsOver s (.listen r : ServerLabel Event))
    (locked : ∀ i, SlotLock (s'.slots i)) (h : ServerStep host maxClients os s (.listen r) call s') :
    Handed s' := by
  have apart : ∀ i, s.listener = .scan i → (s.slots i).slot.client = 0 → s.pending ≠ 0 → s.current ≠ i := by
    rintro i - free waiting rfl
    exact ((handed.slots s.current).waiting (.inr ⟨waiting,rfl⟩)).1 free
  obtain ⟨turn,isDue⟩ := turnListen ⟨handed.one,handed.told,handed.other⟩
    (fun i at_ => by simpa [HandsOver,at_] using ok) (fun i at_ => by simpa [HandsOver,at_] using ok) apart h
  have idle : ∀ n, s.listener = .scan s.listener.slot → r = .descriptor n →
      n ≠ 0 ∧ ∀ t ∈ (s.slots s.listener.slot).clients, t.pc = .done := by
    rintro n at_ rfl
    rw [HandsOver,at_] at ok
    exact ok
  cases h with
  | @listen _ _ pc slot current system step handled =>
    refine ⟨locked,turn.one,turn.told,turn.other,fun j => ?_⟩
    by_cases here : j = s.listener.slot
    · subst here
      simp only [Function.update_self]
      exact handedAccept (handed.slots _) rfl id idle step (isDue _)
    · simp only [Function.update_of_ne here]
      refine handedFrame (handed.slots j) ((isDue j).trans (or_iff_left ?_)) fun wrong =>
        (here (listenInvalid step wrong).symm).elim
      rintro ⟨at_,-⟩
      exact here (by rw [at_]; rfl)

theorem handedStep (handed : Handed s) (ok : HandsOver s l) (h : ServerStep host maxClients os s l call s') :
    Handed s' := by
  have alone : StartsAlone s l := by
    cases l with
    | start =>
      cases h with
      | start waiting => exact ((handed.slots s.current).waiting (.inr ⟨waiting,rfl⟩)).2.2
    | _ => trivial
  have locked := serverLock handed.locked alone h
  cases l with
  | listen r => exact handedListen handed ok locked h
  | start =>
    have waiting : s.pending ≠ 0 := by cases h; assumption
    exact handedStart handed waiting locked h
  | client i t r =>
    cases h with
    | client step handled =>
      refine ⟨locked,handed.one,handed.told,handed.other,fun j => ?_⟩
      by_cases same : j = i
      · subst same
        simp only [Function.update_self]
        exact handedClient (handed.slots j) (handed.locked j) step
      · simp only [Function.update_of_ne same]
        exact handed.slots j
  | console i k r =>
    cases h with
    | console step handled =>
      refine ⟨locked,handed.one,handed.told,handed.other,fun j => ?_⟩
      by_cases same : j = i
      · subst same
        simp only [Function.update_self]
        exact handedConsole (handed.slots j) step
      · simp only [Function.update_of_ne same]
        exact handed.slots j
  | system e =>
    cases h
    exact ⟨locked,handed.one,handed.told,handed.other,handed.slots⟩

theorem unstartedHanded (unstarted : Unstarted s) : Handed s := by
  obtain ⟨listener,pending,clients,threads⟩ := unstarted
  refine ⟨fun i => noThreadsLock (threads i),by simp [pending],by simp [listener],by simp [pending],fun i => ?_⟩
  have free : ¬ s.expects i := by simp [Server.expects,listener,pending,SocketListen.Pc.handles]
  refine ⟨?_,fun due => (free due).elim,by simp [listener],?_,fun _ taken => (taken (clients i)).elim⟩
  · simp [(threads i).clients]
  · simp [(threads i).clients]

theorem slotsHandedOver (unstarted : Unstarted s)
    (run : Reaches (serverMachine host maxClients os) HandsOver s s') : HandedOff s' :=
  handedOff (invariantOfStep (fun handed ok act => handedStep handed ok (serverStep act)) run
    (unstartedHanded unstarted))

def twoClientsHandsInTurn : List (ServerLabel Empty) :=
  [.listen .done] ++ accepts 4 ++ [.start] ++ accepts 5 ++ [.start]

theorem twoClientsServed : ∃ t, run (serverMachine plainHost 19 noSystem) HandsOver (booted ()) twoClientsHandsInTurn =
      some t ∧ t.pending = 0 ∧ HandedOff t := by
  have ends : (run (serverMachine plainHost 19 noSystem) HandsOver (booted ()) twoClientsHandsInTurn).map
      Server.pending = some 0 := by decide +kernel
  obtain ⟨t,ran,none⟩ := Option.map_eq_some_iff.mp ends
  exact ⟨t,ran,none,slotsHandedOver (bootedUnstarted ()) (runReaches ran)⟩

def twoClientsAtOnce : List (ServerLabel Empty) :=
  [.listen .done] ++ accepts 4 ++ accepts 5 ++ [.start,.start]

theorem burstLeavesSlotUnserved : ∃ t, Reaches (serverMachine plainHost 19 noSystem) free (booted ()) t ∧
    t.pending = 0 ∧ (t.slots 0).slot.client = 4 ∧ (t.slots 0).clients = [] ∧
    (t.slots 1).clients.length = 2 ∧ ¬ HandedOff t := by
  have ends : (run (serverMachine plainHost 19 noSystem) free (booted ()) twoClientsAtOnce).map
      (fun t => (t.pending,(t.slots 0).slot.client,(t.slots 0).clients,(t.slots 1).clients.length,
        t.listener.handles 0)) = some (0,4,[],2,false) := by decide +kernel
  obtain ⟨t,ran,same⟩ := Option.map_eq_some_iff.mp ends
  simp only [Prod.mk.injEq] at same
  obtain ⟨none,client,clients,both,free⟩ := same
  refine ⟨t,runReaches ran,none,client,clients,both,fun handed => ?_⟩
  obtain ⟨u,⟨thread,here,_⟩,_⟩ := handed.served none 0 (by simp [client]) (by simp [client]) free
  simp [clients] at here

end RemoteTerminal
