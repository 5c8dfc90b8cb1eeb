import RemoteTerminal.Server.SlotMachine

/-! What becomes of the text of a message: `NewClient` refuses it, takes it for one of the
built-in cd commands, hands it to a new shell, or deposits it for the process that runs. -/
namespace RemoteTerminal
open ByteStrings LabelledRuns NewClient

def sudoWord : Bytes := ascii "sudo"

inductive Treatment where
  | ignore
  | refuse
  | changeDirectory
  | shell (command : Bytes)
  | input (text : Bytes)
  deriving DecidableEq, Repr

def NewConsole.shellCommand (sPacket : Bytes) : Bytes := cString sPacket

def NewClient.treatment (host : Host) (d : ThreadData) (p : Bytes) : Treatment :=
  match afterMessage host d.exitCode p with
  | .refuse => .refuse
  | .changeDirectory _ => .changeDirectory
  | .route p =>
    if d.pipeActive then .input (cString (p ++ [10]))
    else .shell (NewConsole.shellCommand (p ++ ascii " 2>&1"))
  | _ => .ignore

/-- "cd", "cd .." and "cd directory_name". -/
def ChangeForm (p : Bytes) : Prop := p = ascii "cd" ∨ p = ascii "cd .." ∨ ascii "cd " <+: p
instance (p : Bytes) : Decidable (ChangeForm p) := by unfold ChangeForm; infer_instance

def wordByte (b : UInt8) : Bool :=
  (48 ≤ b && b ≤ 57) || (65 ≤ b && b ≤ 90) || b = 95 || (97 ≤ b && b ≤ 122)

def WholeWord (w p : Bytes) : Prop := ∃ before after, p = before ++ w ++ after ∧
  (∀ b ∈ before.getLast?, wordByte b = false) ∧ ∀ b ∈ after.head?, wordByte b = false

structure Classified (host : Host) (d : ThreadData) (p : Bytes) : Prop where
  change : NewClient.treatment host d p = .changeDirectory ↔ ChangeForm p
  refusal : NewClient.treatment host d p = .refuse → host.root = false ∧ WholeWord sudoWord p
  other : ¬ ChangeForm p → NewClient.treatment host d p ≠ .refuse →
    NewClient.treatment host d p = if d.pipeActive then .input (p ++ [10]) else .shell (p ++ ascii " 2>&1")

theorem changeFormContains {p : Bytes} (form : ChangeForm p) : changesDirectory p = true := by
  refine decide_eq_true ?_
  rcases form with rfl | rfl | begins
  · exact List.infix_rfl
  · exact ⟨[],ascii " ..",by decide⟩
  · exact (show ascii "cd" <:+: ascii "cd " from ⟨[],ascii " ",by decide⟩).trans begins.isInfix

theorem treatmentWhen (host : Host) {d : ThreadData} (p : Bytes) (stay : d.exitCode = 0) :
    treatment host d p =
      if refused host p then .refuse
      else if changesDirectory p then .changeDirectory
      else if d.pipeActive then .input (cString (p ++ [10]))
      else .shell (NewConsole.shellCommand (p ++ ascii " 2>&1")) := by
  cases denied : refused host p
  · cases change : changesDirectory p <;> simp [treatment,afterMessage,stay,denied,change]
  · simp [treatment,afterMessage,stay,denied]

theorem cStringAppended (p : Bytes) {tail : Bytes} (clean : 0 ∉ tail) : cString (p ++ tail) = p ++ tail ↔ 0 ∉ p := by
  rw [cStringSame,List.mem_append]
  simp [clean]

/- The texts that every branch takes as the feature list promises. -/
def PlainlyWorded (host : Host) (p : Bytes) : Prop :=
  if refused host p then WholeWord sudoWord p ∧ ¬ ChangeForm p
  else ChangeForm p ∨ changesDirectory p = false ∧ 0 ∉ p

theorem refusedClassified {host : Host} {d : ThreadData} {p : Bytes} (root : host.root = false)
    (treated : treatment host d p = .refuse) :
    Classified host d p ↔ WholeWord sudoWord p ∧ ¬ ChangeForm p := by
  constructor
  · intro law
    refine ⟨(law.refusal treated).2,fun form => ?_⟩
    nomatch treated.symm.trans (law.change.mpr form)
  · rintro ⟨word,other⟩
    refine ⟨?_,fun _ => ⟨root,word⟩,fun _ stays => (stays treated).elim⟩
    rw [treated]
    exact ⟨fun no => (nomatch no),fun form => (other form).elim⟩

theorem changeClassified {host : Host} {d : ThreadData} {p : Bytes}
    (treated : treatment host d p = .changeDirectory) : Classified host d p ↔ ChangeForm p := by
  constructor
  · exact fun law => law.change.mp treated
  · intro form
    refine ⟨⟨fun _ => form,fun _ => treated⟩,fun no => ?_,fun other => (other form).elim⟩
    nomatch treated.symm.trans no

theorem routedClassified {host : Host} {d : ThreadData} {p : Bytes} (other : ¬ ChangeForm p)
    (treated : treatment host d p = if d.pipeActive then .input (cString (p ++ [10]))
      else .shell (NewConsole.shellCommand (p ++ ascii " 2>&1"))) :
    Classified host d p ↔ 0 ∉ p := by
  have unchanged : treatment host d p =
      (if d.pipeActive then .input (p ++ [10]) else .shell (p ++ ascii " 2>&1")) ↔ 0 ∉ p := by
    rw [treated]
    cases d.pipeActive
    · simpa [NewConsole.shellCommand] using
        cStringAppended p (show 0 ∉ ascii " 2>&1" by decide)
    · simpa using cStringAppended p (show 0 ∉ [10] by decide)
  have neither : treatment host d p ≠ .changeDirectory ∧ treatment host d p ≠ .refuse := by
    rw [treated]
    cases d.pipeActive <;> simp
  constructor
  · exact fun law => unchanged.mp (law.other other neither.2)
  · intro clean
    exact ⟨⟨fun no => (neither.1 no).elim,fun form => (other form).elim⟩,
      fun no => (neither.2 no).elim,fun _ _ => unchanged.mpr clean⟩

theorem commandClassifiedIff (host : Host) (d : ThreadData) (p : Bytes) (stay : d.exitCode = 0) :
    Classified host d p ↔ PlainlyWorded host p := by
  have treated := treatmentWhen host p stay
  unfold PlainlyWorded
  cases denied : refused host p with
  | true =>
    have root : host.root = false := by simp_all [refused]
    rw [denied,if_pos rfl] at treated
    rw [if_pos rfl]
    exact refusedClassified root treated
  | false =>
    rw [denied,if_neg (by decide)] at treated
    rw [if_neg (by decide)]
    cases change : changesDirectory p with
    | true =>
      rw [change,if_pos rfl] at treated
      rw [changeClassified treated]
      exact ⟨.inl,fun either => either.resolve_right fun no => (nomatch no.1)⟩
    | false =>
      have other : ¬ ChangeForm p := fun form => by simp [changeFormContains form] at change
      rw [change,if_neg (by decide)] at treated
      rw [routedClassified other treated]
      exact ⟨fun clean => .inr ⟨rfl,clean⟩,fun either => (either.resolve_left other).2⟩

theorem listingClassified : Classified ⟨ascii "box",ascii "root",ascii "/root",true⟩
    (freshConsole false false) (ascii "sudo ls -l") :=
  (commandClassifiedIff _ _ _ rfl).mpr (by
    rw [PlainlyWorded,if_neg (by decide)]
    decide)

theorem pathTakenForChange :
    treatment plainHost (freshConsole false false) (ascii "ls /etc/cdrom") = .changeDirectory ∧
      ¬ Classified plainHost (freshConsole false false) (ascii "ls /etc/cdrom") := by
  have treated : treatment plainHost (freshConsole false false) (ascii "ls /etc/cdrom") =
      .changeDirectory := by decide
  refine ⟨treated,fun law => ?_⟩
  exact absurd (law.change.mp treated) (by decide)

theorem changeTargets (host : Host) (current directory : Bytes) {p : Bytes} (form : ChangeForm p) :
    changeTarget host current directory p =
      if p = ascii "cd" then host.homeDirectory
      else if p = ascii "cd .." then directory ++ ascii "/.."
      else p.drop 3 := by
  have named : contains p (ascii "cd") = true := changeFormContains form
  have up : contains p (ascii "cd ..") = true ∧ p.length = 5 ↔ p = ascii "cd .." := by
    constructor
    · rintro ⟨inside,size⟩
      exact (List.IsInfix.eq_of_length (of_decide_eq_true inside) size.symm).symm
    · rintro rfl
      decide
  simp only [changeTarget,up,named,true_and]
  by_cases home : p = ascii "cd"
  · subst home
    rw [if_neg (by decide),if_neg (by decide),if_pos (by decide),if_pos rfl]
  · rw [if_neg home]
    have long : 2 < p.length := by
      rcases form with same | rfl | begins
      · exact (home same).elim
      · decide
      · exact begins.length_le
    rw [if_pos long]

theorem routedParts (host : Host) (d : ThreadData) (p : Bytes) (refuses : treatment host d p ≠ .refuse)
    (stays : treatment host d p ≠ .changeDirectory) (acts : treatment host d p ≠ .ignore) :
    afterMessage host d.exitCode p = .route p := by
  unfold treatment at refuses stays acts
  unfold afterMessage at refuses stays acts ⊢
  split
  · simp_all
  · split
    · simp_all
    · split <;> simp_all

theorem shellRouted {host : Host} {d : ThreadData} {p command : Bytes}
    (treated : treatment host d p = .shell command) :
    afterMessage host d.exitCode p = .route p ∧ d.pipeActive = false ∧
      NewConsole.shellCommand (p ++ ascii " 2>&1") = command := by
  have routed := routedParts host d p (by simp [treated]) (by simp [treated]) (by simp [treated])
  simp only [treatment,routed] at treated
  cases active : d.pipeActive with
  | false => simpa [active,routed] using treated
  | true => simp [active] at treated

theorem inputRouted {host : Host} {d : ThreadData} {p text : Bytes}
    (treated : treatment host d p = .input text) :
    afterMessage host d.exitCode p = .route p ∧ d.pipeActive = true ∧ cString (p ++ [10]) = text := by
  have routed := routedParts host d p (by simp [treated]) (by simp [treated]) (by simp [treated])
  simp only [treatment,routed] at treated
  cases active : d.pipeActive with
  | false => simp [active] at treated
  | true => simpa [active,routed] using treated

/- With no step of another thread between, the command reaches the shell's `fork` and the
text the process's `write` as `treatment` has it. -/
theorem shellForked {host : Host} {maxClients t : Nat} {s : SlotState} {thread : NewClient.Thread}
    {p command : Bytes} (here : s.clients[t]? = some thread) (at_ : thread.pc = .message p)
    (treated : treatment host s.slot.console p = .shell command) (a b c d : Nat) :
    ∃ sPacket, NewConsole.shellCommand sPacket = command ∧
      (run (slotMachine host maxClients) free s
        (clientDoes t [.done,.done,.done,.descriptors a b,.descriptors c d,.done,.thread s.consoles.length] ++
          consoleDoes s.consoles.length [.done,.done,.done])).bind
        (fun u => (u.consoles[s.consoles.length]?).map NewConsole.Thread.pc) = some (.fork sPacket) := by
  obtain ⟨routed,idle,same⟩ := shellRouted treated
  obtain ⟨inside,rfl⟩ := List.getElem?_eq_some_iff.mp here
  refine ⟨p ++ ascii " 2>&1",?_,?_⟩
  · exact same
  · simp [clientDoes,consoleDoes,run,free,slotMachine,NewClient.step,at_,routed,idle,inside,
      NewConsole.step,NewConsole.created]

theorem inputWritten {host : Host} {maxClients t k : Nat} {s : SlotState} {thread : NewClient.Thread}
    {console : NewConsole.Thread} {p text : Bytes} (here : s.clients[t]? = some thread)
    (at_ : thread.pc = .message p) (there : s.consoles[k]? = some console) (loop : console.pc = .mailbox)
    (treated : treatment host s.slot.console p = .input text) :
    ∃ u v descriptor, run (slotMachine host maxClients) free s
        (clientDoes t [.done,.done,.done,.done] ++ consoleDoes k [.done]) = some u ∧
      (slotMachine host maxClients).act u (.console k .done) = some (.write descriptor text,v) := by
  obtain ⟨routed,active,same⟩ := inputRouted treated
  obtain ⟨inside,rfl⟩ := List.getElem?_eq_some_iff.mp here
  obtain ⟨insideConsoles,rfl⟩ := List.getElem?_eq_some_iff.mp there
  simp [clientDoes,consoleDoes,run,free,slotMachine,NewClient.step,at_,routed,active,inside,
    NewConsole.step,loop,insideConsoles,same]

end RemoteTerminal
