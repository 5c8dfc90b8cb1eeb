import RemoteTerminal.Server.Cancel

/-! Whose text reaches a shell. The command of a slot is kept in one place that the client
thread and the console thread of a slot share, and `nextCommand` in another; a race may
put the text of one message in the place of another's, but never a text that no message
had, nor one that was refused. -/
namespace RemoteTerminal
open ByteStrings LabelledRuns EntryTable

def heardText (r : Received) : Option Bytes :=
  if r.bytesReceived = 0 then none
  else match branch r.sPacket with
    | .message p => some p
    | _ => none

def noteHeard (heard : List Bytes) (_ : SlotState) (l : SlotLabel) (_ : Call) (_ : SlotState) : List Bytes :=
  match l with
  | .client _ (.received r) => heard ++ (heardText r).toList
  | _ => heard

def NewClient.Pc.passed : NewClient.Pc → Option Bytes
  | .changeDirectory p | .readDirectory p | .setCommand p | .route p | .launch p | .deposit p => some p
  | _ => none

def NewClient.Pc.commands : NewClient.Pc → Bool
  | .prompt | .openOutput | .openInput | .activate | .create => true
  | _ => false

def NewConsole.Pc.commands : NewConsole.Pc → Bool
  | .prompt | .returnDirectory | .assemble => true
  | _ => false

def NewConsole.Pc.assembled : NewConsole.Pc → Option Bytes
  | .fork sPacket => some sPacket
  | _ => none

def Granted (host : Host) (heard : List Bytes) (p : Bytes) : Prop :=
  p ∈ heard ∧ NewClient.refused host p = false

def Assembled (host : Host) (heard : List Bytes) (sPacket : Bytes) : Prop :=
  ∃ p, Granted host heard p ∧ sPacket = p ++ ascii " 2>&1"

def Deposited (host : Host) (heard : List Bytes) (nextCommand : Bytes) : Prop :=
  nextCommand = [] ∨ ∃ p, Granted host heard p ∧ nextCommand = p ++ [10]

structure Authored (host : Host) (s : SlotState × List Bytes) : Prop where
  asked : ∀ thread ∈ s.1.clients, ∀ p, thread.pc = .message p → p ∈ s.2
  passed : ∀ thread ∈ s.1.clients, ∀ p, thread.pc.passed = some p → Granted host s.2 p
  client : ∀ thread ∈ s.1.clients, thread.pc.commands = true → Granted host s.2 s.1.slot.console.command
  console : ∀ thread ∈ s.1.consoles, thread.pc.commands = true → Granted host s.2 s.1.slot.console.command
  assembled : ∀ thread ∈ s.1.consoles, ∀ sPacket, thread.pc.assembled = some sPacket → Assembled host s.2 sPacket
  mailbox : Deposited host s.2 s.1.slot.console.nextCommand

structure ClientAuthors (host : Host) (t : NewClient.Thread) (d : ThreadData) (r : Result) (call : Call)
    (t' : NewClient.Thread) (d' : ThreadData) : Prop where
  asked : ∀ p, t'.pc = .message p → ∃ got, r = .received got ∧ heardText got = some p
  passed : ∀ p, t'.pc.passed = some p →
    t.pc.passed = some p ∨ t.pc = .message p ∧ NewClient.refused host p = false
  command : d'.command = d.command ∨ t.pc.passed = some d'.command
  commands : t'.pc.commands = true → t.pc.commands = true ∨ t.pc.passed = some d'.command
  mailbox : d'.nextCommand = d.nextCommand ∨ ∃ p, t.pc.passed = some p ∧ d'.nextCommand = p ++ [10]
  noFork : ∀ command, call ≠ .fork command
  noWrite : ∀ descriptor text, call ≠ .write descriptor text

theorem clientAuthors {host t s r call t' s'} (h : NewClient.Steps host t s r call t' s') :
    ClientAuthors host t s.console r call t' s'.console := by
  constructor <;> cases h <;> simp_all [NewClient.Pc.passed,NewClient.Pc.commands,heardText]

structure ConsoleAuthors (t : NewConsole.Thread) (d : ThreadData) (call : Call) (t' : NewConsole.Thread)
    (d' : ThreadData) : Prop where
  command : d'.command = d.command
  commands : t'.pc.commands = true → t.pc.commands = true
  assembled : ∀ sPacket, t'.pc.assembled = some sPacket →
    t.pc.commands = true ∧ sPacket = d.command ++ ascii " 2>&1"
  mailbox : d'.nextCommand = d.nextCommand ∨ d'.nextCommand = []
  forks : ∀ command, call = .fork command → t.pc.assembled = some command
  writes : ∀ descriptor text, call = .write descriptor text → text = cString d.nextCommand

theorem consoleAuthors {t s r call t' s'} (h : NewConsole.Steps t s r call t' s') :
    ConsoleAuthors t s.console call t' s'.console := by
  constructor <;> cases h <;> simp_all [NewConsole.Pc.commands,NewConsole.Pc.assembled]

section
variable {host : Host} {maxClients : Nat} {s : SlotState} {heard more : List Bytes}

theorem grantedMore {p : Bytes} (granted : Granted host heard p) : Granted host (heard ++ more) p :=
  ⟨List.mem_append_left _ granted.1,granted.2⟩

theorem assembledMore {sPacket : Bytes} (assembled : Assembled host heard sPacket) :
    Assembled host (heard ++ more) sPacket := by
  obtain ⟨p,granted,same⟩ := assembled
  exact ⟨p,grantedMore granted,same⟩

theorem depositedMore {text : Bytes} (deposited : Deposited host heard text) : Deposited host (heard ++ more) text := by
  rcases deposited with none | ⟨p,granted,same⟩
  · exact .inl none
  · exact .inr ⟨p,grantedMore granted,same⟩

theorem authoredMore (authored : Authored host (s,heard)) : Authored host (s,heard ++ more) where
  asked thread mem p at_ := List.mem_append_left _ (authored.asked thread mem p at_)
  passed thread mem p at_ := grantedMore (authored.passed thread mem p at_)
  client thread mem on := grantedMore (authored.client thread mem on)
  console thread mem on := grantedMore (authored.console thread mem on)
  assembled thread mem sPacket at_ := assembledMore (authored.assembled thread mem sPacket at_)
  mailbox := depositedMore authored.mailbox

theorem authoredClient {t : Nat} {thread next : NewClient.Thread} {r call} {slot : Slot}
    (authored : Authored host (s,heard)) (here : s.clients[t]? = some thread)
    (moved : ClientAuthors host thread s.slot.console r call next slot.console)
    (reads : ∀ got p, r = .received got → heardText got = some p → p ∈ heard) :
    Authored host (⟨slot,s.clients.set t next,s.consoles⟩,heard) := by
  have mem : thread ∈ s.clients := List.mem_of_getElem? here
  have own : ∀ p, thread.pc.passed = some p → Granted host heard p := authored.passed thread mem
  have command : Granted host heard s.slot.console.command → Granted host heard slot.console.command := by
    intro granted
    rcases moved.command with same | passed
    · rw [same]; exact granted
    · exact own _ passed
  constructor
  · intro other found p at_
    rcases (memSet here).mp found with rfl | ⟨j,-,old⟩
    · obtain ⟨got,rfl,text⟩ := moved.asked p at_
      exact reads got p rfl text
    · exact authored.asked other (List.mem_of_getElem? old) p at_
  · intro other found p at_
    rcases (memSet here).mp found with rfl | ⟨j,-,old⟩
    · rcases moved.passed p at_ with before | ⟨asked,allowed⟩
      · exact own p before
      · exact ⟨authored.asked thread mem p asked,allowed⟩
    · exact authored.passed other (List.mem_of_getElem? old) p at_
  · intro other found on
    rcases (memSet here).mp found with rfl | ⟨j,-,old⟩
    · rcases moved.commands on with before | passed
      · exact command (authored.client thread mem before)
      · exact own _ passed
    · exact command (authored.client other (List.mem_of_getElem? old) on)
  · exact fun other found on => command (authored.console other found on)
  · exact authored.assembled
  · rcases moved.mailbox with same | ⟨p,passed,same⟩
    · dsimp only
      rw [same]
      exact authored.mailbox
    · exact .inr ⟨p,own p passed,same⟩

theorem authoredConsole {k : Nat} {thread next : NewConsole.Thread} {call} {slot : Slot}
    (authored : Authored host (s,heard)) (here : s.consoles[k]? = some thread)
    (moved : ConsoleAuthors thread s.slot.console call next slot.console) :
    Authored host (⟨slot,s.clients,s.consoles.set k next⟩,heard) := by
  have mem : thread ∈ s.consoles := List.mem_of_getElem? here
  constructor
  · exact authored.asked
  · exact authored.passed
  · exact fun other found on => moved.command ▸ authored.client other found on
  · intro other found on
    dsimp only
    rw [moved.command]
    rcases (memSet here).mp found with rfl | ⟨j,-,old⟩
    · exact authored.console thread mem (moved.commands on)
    · exact authored.console other (List.mem_of_getElem? old) on
  · intro other found sPacket at_
    rcases (memSet here).mp found with rfl | ⟨j,-,old⟩
    · obtain ⟨on,same⟩ := moved.assembled sPacket at_
      exact ⟨_,authored.console thread mem on,same⟩
    · exact authored.assembled other (List.mem_of_getElem? old) sPacket at_
  · rcases moved.mailbox with same | cleared
    · dsimp only
      rw [same]
      exact authored.mailbox
    · exact .inl cleared

theorem authoredCreated {t : Nat} {thread next : NewClient.Thread} (i : Nat) (authored : Authored host (s,heard))
    (here : s.clients[t]? = some thread) (at_ : thread.pc = .create) (then_ : next.pc = .receive) :
    Authored host (⟨s.slot,s.clients.set t next,s.consoles ++ [NewConsole.created i]⟩,heard) := by
  have granted : Granted host heard s.slot.console.command :=
    authored.client thread (List.mem_of_getElem? here) (by rw [at_]; rfl)
  constructor
  · intro other found p asks
    rcases (memSet here).mp found with rfl | ⟨j,-,old⟩
    · rw [then_] at asks
      cases asks
    · exact authored.asked other (List.mem_of_getElem? old) p asks
  · intro other found p passes
    rcases (memSet here).mp found with rfl | ⟨j,-,old⟩
    · rw [then_] at passes
      cases passes
    · exact authored.passed other (List.mem_of_getElem? old) p passes
  · exact fun _ _ _ => granted
  · exact fun _ _ _ => granted
  · intro other found sPacket assembles
    rcases List.mem_append.mp found with old | new
    · exact authored.assembled other old sPacket assembles
    · rw [List.mem_singleton.mp new] at assembles
      cases assembles
  · exact authored.mailbox

theorem authoredStarted (i : Nat) (authored : Authored host (s,heard)) :
    Authored host ({s with clients := s.clients ++ [NewClient.started i]},heard) := by
  obtain ⟨asked,passed,client,console,assembled,mailbox⟩ := authored
  refine ⟨?_,?_,?_,console,assembled,mailbox⟩
  all_goals
    intro thread found
    rcases List.mem_append.mp found with old | new
  · exact asked thread old
  · rw [List.mem_singleton.mp new]; exact nofun
  · exact passed thread old
  · rw [List.mem_singleton.mp new]; exact nofun
  · exact client thread old
  · rw [List.mem_singleton.mp new]; exact nofun

theorem listenKeepsTexts {current pc r call pc' slot current'}
    (h : SocketListen.Steps maxClients s.slot current pc r call pc' slot current') :
    slot.console.command = s.slot.console.command ∧ slot.console.nextCommand = s.slot.console.nextCommand := by
  cases h <;> exact ⟨rfl,rfl⟩

theorem heardIn {r : Result} {got : Received} {p : Bytes} {t : Nat} {call : Call} {s' : SlotState}
    (received : r = .received got) (text : heardText got = some p) :
    p ∈ noteHeard heard s (.client t r) call s' := by
  subst received
  simp [noteHeard,text]

theorem noteHeardMore (l : SlotLabel) (call : Call) (s' : SlotState) :
    ∃ more, noteHeard heard s l call s' = heard ++ more := by
  unfold noteHeard
  split
  · exact ⟨_,rfl⟩
  · exact ⟨[],(List.append_nil _).symm⟩

theorem authoredStep {l : SlotLabel} {call : Call} {s' : SlotState} (authored : Authored host (s,heard))
    (h : SlotStep host maxClients s l call s') : Authored host (s',noteHeard heard s l call s') := by
  obtain ⟨more,noted⟩ : ∃ more, noteHeard heard s l call s' = heard ++ more := noteHeardMore l call s'
  have grown : Authored host (s,noteHeard heard s l call s') := noted ▸ authoredMore authored
  cases h with
  | listen step =>
    obtain ⟨command,mailbox⟩ := listenKeepsTexts step
    obtain ⟨asked,passed,client,console,assembled,deposited⟩ := grown
    exact ⟨asked,passed,command ▸ client,command ▸ console,assembled,mailbox ▸ deposited⟩
  | @start i => exact authoredStarted i grown
  | client here step noThread joined =>
    exact authoredClient grown here (clientAuthors step) fun got p received text => heardIn received text
  | @created t thread here at_ => exact authoredCreated thread.socketID grown here at_ rfl
  | console here step => exact authoredConsole grown here (consoleAuthors step)

/- A command line is the text of a message that was not refused, and what a process is given
to read is such a text, or nothing where it was taken twice. -/
structure CallAuthored (host : Host) (heard : List Bytes) (call : Call) : Prop where
  forks : ∀ command, call = .fork command → Assembled host heard command
  writes : ∀ descriptor text, call = .write descriptor text →
    text = [] ∨ ∃ p, Granted host heard p ∧ text = cString (p ++ [10])

theorem callAuthored {l : SlotLabel} {call : Call} {s' : SlotState} (authored : Authored host (s,heard))
    (h : SlotStep host maxClients s l call s') : CallAuthored host heard call := by
  cases h with
  | listen step => cases step <;> exact ⟨nofun,nofun⟩
  | start => exact ⟨nofun,nofun⟩
  | client here step noThread joined =>
    have moved := clientAuthors step
    exact ⟨fun command same => (moved.noFork command same).elim,
      fun descriptor text same => (moved.noWrite descriptor text same).elim⟩
  | created here at_ => exact ⟨nofun,nofun⟩
  | @console k r thread call next slot here step =>
    have moved := consoleAuthors step
    constructor
    · intro command same
      exact authored.assembled thread (List.mem_of_getElem? here) command (moved.forks command same)
    · intro descriptor text same
      rw [moved.writes descriptor text same]
      rcases authored.mailbox with none | ⟨p,granted,deposited⟩
      · left
        rw [none]
        rfl
      · exact .inr ⟨p,granted,by rw [deposited]⟩

theorem noThreadsAuthored (none : NoThreads s) (empty : s.slot.console.nextCommand = []) : Authored host (s,[]) := by
  refine ⟨?_,?_,?_,?_,?_,.inl empty⟩ <;> simp [none.clients,none.consoles]

end

def racingMessages : List SlotLabel :=
  launches 0 0 "Mls" ++ clientDoes 0 [heard "Mcd /",.done,.done,.path (ascii "/"),.done] ++ consoleDoes 0 [.done,.done,.done]

end RemoteTerminal
