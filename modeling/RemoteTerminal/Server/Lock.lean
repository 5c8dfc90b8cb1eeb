import RemoteTerminal.Server.SlotMachine

/-! `pipeActive` as a lock. As long as a `NewClient` thread starts in a slot only after the
one before it has returned, the flag keeps two commands of the slot apart: a command is
launched only while no console thread works, and at most the latest console thread does. -/
namespace RemoteTerminal
open LabelledRuns EntryTable

def NewClient.Pc.launching : NewClient.Pc → Bool
  | .launch _ | .openOutput | .openInput | .activate => true
  | _ => false

def NewClient.Pc.preparing : NewClient.Pc → Bool
  | .launch _ | .openOutput | .openInput | .activate | .create | .createFailed | .finish false => true
  | _ => false

def NewConsole.Pc.active : NewConsole.Pc → Bool
  | .wait | .closeAgain _ | .done => false
  | _ => true

def OneClient (s : SlotState) : SlotLabel → Prop
  | .start _ => ∀ t ∈ s.clients, t.pc = .done
  | _ => True
instance (s) : (l : SlotLabel) → Decidable (OneClient s l)
  | .start _ => by dsimp only [OneClient]; infer_instance
  | .listen _ _ | .client _ _ | .console _ _ => isTrue trivial

structure SlotLock (s : SlotState) : Prop where
  single : ∀ (t u : Nat) (thread other : NewClient.Thread), s.clients[t]? = some thread →
    s.clients[u]? = some other → thread.pc ≠ .done → other.pc ≠ .done → t = u
  launching : ∀ (t : Nat) (thread : NewClient.Thread), s.clients[t]? = some thread →
    thread.pc.launching = true → s.slot.console.pipeActive = false
  armed : ∀ (t : Nat) (thread : NewClient.Thread), s.clients[t]? = some thread →
    thread.pc = .create → s.slot.console.pipeActive = true
  alone : ∀ (t : Nat) (thread : NewClient.Thread) (k : Nat) (console : NewConsole.Thread),
    s.clients[t]? = some thread → thread.pc.preparing = true →
    s.consoles[k]? = some console → console.pc.active = false
  active : ∀ (k : Nat) (console : NewConsole.Thread), s.consoles[k]? = some console →
    console.pc.active = true → s.slot.console.pipeActive = true ∧ k+1 = s.consoles.length

structure NoThreads (s : SlotState) : Prop where
  clients : s.clients = []
  consoles : s.consoles = []

theorem noThreadsLock {s} (none : NoThreads s) : SlotLock s := by
  refine ⟨?_,?_,?_,?_,?_⟩ <;> simp [none.clients,none.consoles]

theorem listenPipeActive {maxClients s current pc r call pc' s' current'}
    (h : SocketListen.Steps maxClients s current pc r call pc' s' current') :
    s'.console.pipeActive = s.console.pipeActive := by cases h <;> rfl

theorem clientNotDone {host t s r call t' s'} (h : NewClient.Steps host t s r call t' s') : t.pc ≠ .done := by
  cases h <;> simp_all

theorem clientPipeActive {host t s r call t' s'} (h : NewClient.Steps host t s r call t' s') :
    s'.console.pipeActive = s.console.pipeActive ∨ s'.console.pipeActive = true := by
  cases h <;> simp_all

theorem clientLaunching {host t s r call t' s'} (h : NewClient.Steps host t s r call t' s')
    (launching : t'.pc.launching = true) :
    s'.console.pipeActive = s.console.pipeActive ∧
      (t.pc.launching = true ∨ s.console.pipeActive = false) := by
  cases h <;> simp_all [NewClient.Pc.launching]

theorem clientArmed {host t s r call t' s'} (h : NewClient.Steps host t s r call t' s')
    (armed : t'.pc = .create) : s'.console.pipeActive = true := by
  cases h <;> simp_all

theorem clientPreparing {host t s r call t' s'} (h : NewClient.Steps host t s r call t' s')
    (preparing : t'.pc.preparing = true) :
    t.pc.preparing = true ∨ s.console.pipeActive = false := by
  cases h <;> simp_all [NewClient.Pc.preparing]

theorem consoleClient {t s r call t' s'} (h : NewConsole.Steps t s r call t' s') : s'.client = s.client := by
  cases h <;> rfl

theorem consoleLock {t s r call t' s'} (h : NewConsole.Steps t s r call t' s') :
    (t'.pc.active = t.pc.active ∧ s'.console.pipeActive = s.console.pipeActive) ∨
    (t.pc.active = true ∧ t'.pc.active = false) := by
  cases h <;> simp_all [NewConsole.Pc.active]

theorem preparingNotDone {pc : NewClient.Pc} (preparing : pc.preparing = true) : pc ≠ .done := by
  rintro rfl; contradiction

theorem launchingPreparing {pc : NewClient.Pc} (launching : pc.launching = true) : pc.preparing = true := by
  cases pc <;> simp_all [NewClient.Pc.launching,NewClient.Pc.preparing]

theorem liveAt {s : SlotState} {t u : Nat} {thread next c : NewClient.Thread} (lock : SlotLock s)
    (here : s.clients[t]? = some thread) (live : thread.pc ≠ .done)
    (found : (s.clients.set t next)[u]? = some c) (working : c.pc ≠ .done) : u = t ∧ c = next := by
  rcases setFound here found with moved | ⟨differ,old⟩
  · exact moved
  · exact (differ (lock.single u t c thread old here working live)).elim

theorem singleNext {s : SlotState} {t : Nat} {thread next : NewClient.Thread} (lock : SlotLock s)
    (here : s.clients[t]? = some thread) (live : thread.pc ≠ .done) (u v : Nat) (one two : NewClient.Thread)
    (foundOne : (s.clients.set t next)[u]? = some one) (foundTwo : (s.clients.set t next)[v]? = some two)
    (liveOne : one.pc ≠ .done) (liveTwo : two.pc ≠ .done) : u = v := by
  have first := (liveAt lock here live foundOne liveOne).1
  have second := (liveAt lock here live foundTwo liveTwo).1
  exact first.trans second.symm

theorem onlyLiveNext {s : SlotState} {t : Nat} {thread next c : NewClient.Thread} (lock : SlotLock s)
    (here : s.clients[t]? = some thread) (live : thread.pc ≠ .done)
    (mem : c ∈ s.clients.set t next) (working : c.pc ≠ .done) : c = next := by
  obtain ⟨u,found⟩ := List.mem_iff_getElem?.mp mem
  exact (liveAt lock here live found working).2

theorem onlyLive {s : SlotState} {t : Nat} {thread c : NewClient.Thread} (lock : SlotLock s)
    (here : s.clients[t]? = some thread) (live : thread.pc ≠ .done)
    (mem : c ∈ s.clients) (working : c.pc ≠ .done) : c = thread := by
  rw [← setSame here] at mem
  exact onlyLiveNext lock here live mem working

theorem lockStarted {s : SlotState} (i : Nat) (lock : SlotLock s) (one : ∀ t ∈ s.clients, t.pc = .done) :
    SlotLock {s with clients := s.clients ++ [NewClient.started i]} := by
  have returned : ∀ (t : Nat) (thread : NewClient.Thread), s.clients[t]? = some thread → thread.pc = .done :=
    fun t thread here => one thread (List.mem_of_getElem? here)
  refine ⟨?_,?_,?_,?_,lock.active⟩
  · intro t u thread other here there live liveOther
    rcases pushFound here with ⟨rfl,_⟩ | ⟨_,old⟩
    · rcases pushFound there with ⟨rfl,_⟩ | ⟨_,old⟩
      · rfl
      · exact (liveOther (returned u other old)).elim
    · exact (live (returned t thread old)).elim
  · intro t thread here launching
    rcases pushFound here with ⟨_,rfl⟩ | ⟨_,old⟩
    · contradiction
    · exact lock.launching t thread old launching
  · intro t thread here armed
    rcases pushFound here with ⟨_,rfl⟩ | ⟨_,old⟩
    · contradiction
    · exact lock.armed t thread old armed
  · intro t thread k console here preparing found
    rcases pushFound here with ⟨_,rfl⟩ | ⟨_,old⟩
    · contradiction
    · exact lock.alone t thread k console old preparing found

theorem lockClient {host} {s : SlotState} {t : Nat} {thread next : NewClient.Thread} {r call} {slot : Slot}
    (lock : SlotLock s) (here : s.clients[t]? = some thread)
    (step : NewClient.Steps host thread s.slot r call next slot) :
    SlotLock ⟨slot,s.clients.set t next,s.consoles⟩ := by
  have live := clientNotDone step
  refine ⟨singleNext lock here live,?_,?_,?_,?_⟩
  · intro u other found launching
    have running := preparingNotDone (launchingPreparing launching)
    obtain ⟨rfl,rfl⟩ := liveAt lock here live found running
    obtain ⟨same,source⟩ := clientLaunching step launching
    rw [same]
    rcases source with before | idle
    · exact lock.launching u thread here before
    · exact idle
  · intro u other found armed
    obtain ⟨rfl,rfl⟩ := liveAt lock here live found (by simp [armed])
    exact clientArmed step armed
  · intro u other k console found preparing inTable
    obtain ⟨rfl,rfl⟩ := liveAt lock here live found (preparingNotDone preparing)
    rcases clientPreparing step preparing with before | idle
    · exact lock.alone u thread k console here before inTable
    · cases active : console.pc.active with
      | false => rfl
      | true => rw [(lock.active k console inTable active).1] at idle; contradiction
  · intro k console inTable active
    obtain ⟨held,last⟩ := lock.active k console inTable active
    rcases clientPipeActive step with same | set
    · exact ⟨same.trans held,last⟩
    · exact ⟨set,last⟩

theorem lockCreated {s : SlotState} {t : Nat} {thread next : NewClient.Thread} (lock : SlotLock s)
    (here : s.clients[t]? = some thread) (at_ : thread.pc = .create) (then_ : next.pc = .receive) :
    SlotLock ⟨s.slot,s.clients.set t next,s.consoles ++ [NewConsole.created thread.socketID]⟩ := by
  have preparing : thread.pc.preparing = true := by rw [at_]; rfl
  have live : thread.pc ≠ .done := preparingNotDone preparing
  refine ⟨singleNext lock here live,?_,?_,?_,?_⟩
  · intro u other found launching
    have running := preparingNotDone (launchingPreparing launching)
    obtain ⟨rfl,rfl⟩ := liveAt lock here live found running
    rw [then_] at launching; contradiction
  · intro u other found armed
    obtain ⟨rfl,rfl⟩ := liveAt lock here live found (by simp [armed])
    rw [then_] at armed; contradiction
  · intro u other k console found still inTable
    obtain ⟨rfl,rfl⟩ := liveAt lock here live found (preparingNotDone still)
    rw [then_] at still; contradiction
  · intro k console inTable active
    rcases pushFound inTable with ⟨rfl,_⟩ | ⟨_,old⟩
    · exact ⟨lock.armed t thread here at_,by simp⟩
    · rw [lock.alone t thread k console here preparing old] at active; contradiction

theorem lockConsole {s : SlotState} {k : Nat} {thread next : NewConsole.Thread} {r call} {slot : Slot}
    (lock : SlotLock s) (here : s.consoles[k]? = some thread)
    (step : NewConsole.Steps thread s.slot r call next slot) :
    SlotLock ⟨slot,s.clients,s.consoles.set k next⟩ := by
  rcases consoleLock step with ⟨sameActive,same⟩ | ⟨held,freed⟩
  · refine ⟨lock.single,?_,?_,?_,?_⟩
    · exact fun t client found launching => same ▸ lock.launching t client found launching
    · exact fun t client found armed => same ▸ lock.armed t client found armed
    · intro t client j console found preparing inTable
      rcases setFound here inTable with ⟨rfl,rfl⟩ | ⟨_,old⟩
      · exact sameActive.trans (lock.alone t client j thread found preparing here)
      · exact lock.alone t client j console found preparing old
    · intro j console inTable active
      rcases setFound here inTable with ⟨rfl,rfl⟩ | ⟨_,old⟩
      · have law := lock.active j thread here (sameActive ▸ active)
        exact ⟨same.trans law.1,by simpa using law.2⟩
      · have law := lock.active j console old active
        exact ⟨same.trans law.1,by simpa using law.2⟩
  · have last := (lock.active k thread here held).2
    have nobody (t : Nat) (client : NewClient.Thread) (found : s.clients[t]? = some client) :
        client.pc.preparing ≠ true := by
      intro preparing
      rw [lock.alone t client k thread found preparing here] at held
      contradiction
    refine ⟨lock.single,?_,?_,?_,?_⟩
    · exact fun t client found launching => (nobody t client found (launchingPreparing launching)).elim
    · exact fun t client found armed => (nobody t client found (by rw [armed]; rfl)).elim
    · exact fun t client j console found preparing _ => (nobody t client found preparing).elim
    · intro j console inTable active
      rcases setFound here inTable with ⟨rfl,rfl⟩ | ⟨differ,old⟩
      · rw [freed] at active; contradiction
      · have other := (lock.active j console old active).2
        exact (differ (by omega)).elim

theorem lockStep {host maxClients s l call s'} (lock : SlotLock s) (one : OneClient s l)
    (h : SlotStep host maxClients s l call s') : SlotLock s' := by
  cases h with
  | listen step =>
    have same := listenPipeActive step
    exact ⟨lock.single,fun t thread here launching => same ▸ lock.launching t thread here launching,
      fun t thread here armed => same ▸ lock.armed t thread here armed,lock.alone,
      fun k console here active => same ▸ lock.active k console here active⟩
  | @start i => exact lockStarted i lock one
  | client here step _ _ => exact lockClient lock here step
  | created here at_ => exact lockCreated lock here at_ rfl
  | console here step => exact lockConsole lock here step

theorem soleLive {s t thread} (next : NewClient.Thread) (p : NewClient.Pc → Bool) (off : p .done = false)
    (lock : SlotLock s) (here : s.clients[t]? = some thread) (live : thread.pc ≠ .done) :
    s.clients.any (fun c => p c.pc) = p thread.pc ∧
      (s.clients.set t next).any (fun c => p c.pc) = p next.pc := by
  have working (c : NewClient.Thread) (holds : p c.pc = true) : c.pc ≠ .done :=
    fun stopped => by simp [stopped,off] at holds
  constructor
  · rw [Bool.eq_iff_iff,List.any_eq_true]
    constructor
    · intro ⟨other,mem,holds⟩
      exact onlyLive lock here live mem (working other holds) ▸ holds
    · exact fun holds => ⟨thread,List.mem_of_getElem? here,holds⟩
  · rw [Bool.eq_iff_iff,List.any_eq_true]
    constructor
    · intro ⟨other,mem,holds⟩
      exact onlyLiveNext lock here live mem (working other holds) ▸ holds
    · exact fun holds => ⟨next,(memSet here).mpr (.inl rfl),holds⟩

theorem othersInactive {s : SlotState} {k j : Nat} {thread console : NewConsole.Thread} (lock : SlotLock s)
    (here : s.consoles[k]? = some thread)
    (active : thread.pc.active = true) (differ : j ≠ k) (found : s.consoles[j]? = some console) :
    console.pc.active = false := by
  cases other : console.pc.active with
  | false => rfl
  | true =>
    have last := (lock.active k thread here active).2
    have lastOther := (lock.active j console found other).2
    exact (differ (by omega)).elim

end RemoteTerminal
