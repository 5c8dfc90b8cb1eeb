import RemoteTerminal.Client.EndCode
import RemoteTerminal.Server.Wire
import RemoteTerminal.Server.Responses

/-! Both ends of one connection. The window's commands go up the one stream and what the
threads of the slot send comes down the other; each side goes on while the other does, and
what one end has written the other may read much later. -/
namespace RemoteTerminal
open ByteStrings HexCodec LabelledRuns EntryTable

variable {qt : Qt}

structure Dialogue where
  client : ClientState
  outgoing : Bytes
  upstream : Bytes
  server : SlotState
  deriving DecidableEq, Repr

inductive DialogueLabel where
  | window (l : ClientLabel) (command : Bytes)
  | arrives (r : Recv)
  | client (r : Result)
  | console (k : Nat) (r : Result)
  deriving DecidableEq, Repr

def composed (outgoing command : Bytes) : ClientLabel → Bytes
  | .input .sendCommand => messageCode::command
  | .input .cancelCommand => [cancelCode]
  | _ => outgoing

/- What a step of the window sends. `Disconnect` says goodbye on a connection that is up. -/
def emitted (s : Dialogue) : ClientLabel → List Bytes
  | .form true => match s.client.form with
    | .send => [s.outgoing]
    | .hangUp => if s.client.conn.isConnected then [[disconnectCode]] else []
    | _ => []
  | _ => []

def downstream (c : Crypto) (socket : Int) (network : Bytes) : Call → Bytes
  | .send there message => if there = socket then network ++ message.wire c else network
  | _ => network

def Result.isReceived : Result → Bool
  | .received _ => true
  | _ => false

def dialogueMachine (qt : Qt) (c : Crypto) (host : Host) (maxClients : Nat) (socket : Int) :
    Machine Dialogue DialogueLabel Call where
  act s
    | .window l command => do
      let client ← clientAct qt c s.client l
      some (.memory,{s with
        client
        outgoing := composed s.outgoing command l
        upstream := s.upstream ++ sentBytes c (emitted s l)})
    | .arrives r => do
      let upstream ← fromNetwork s.upstream r
      let got ← receive c r
      let (call,server) ← (slotMachine host maxClients).act s.server (.client 0 (.received got))
      some (call,{s with upstream,server})
    | .client r => do
      let (call,server) ← (slotMachine host maxClients).act s.server (.client 0 r)
      if r.isReceived then none
      else some (call,{s with server,client.network := downstream c socket s.client.network call})
    | .console k r => do
      let (call,server) ← (slotMachine host maxClients).act s.server (.console k r)
      some (call,{s with server,client.network := downstream c socket s.client.network call})

structure Transcript where
  sent : List Bytes
  read : List Bytes
  exchanges : List Exchange
  deriving DecidableEq, Repr

def silence : Transcript := ⟨[],[],[]⟩

def Transcript.unread (memo : Transcript) : List Bytes := memo.sent.drop memo.read.length

def readOf : Recv → Received → List Bytes
  | .bytes _,got => [got.sPacket]
  | .failed,_ | .closed,_ => []

def noteDialogue (c : Crypto) (memo : Transcript) (s : Dialogue) (l : DialogueLabel) (call : Call) (t : Dialogue) :
    Transcript :=
  match l with
  | .window l _ => {memo with sent := memo.sent ++ emitted s l}
  | .arrives r => match receive c r with
    | none => memo
    | some got => {memo with
        read := memo.read ++ readOf r got
        exchanges := noteExchange memo.exchanges s.server (.client 0 (.received got)) call t.server}
  | .client r => {memo with exchanges := noteExchange memo.exchanges s.server (.client 0 r) call t.server}
  | .console k r => {memo with exchanges := noteExchange memo.exchanges s.server (.console k r) call t.server}

def dialogue (qt : Qt) (c : Crypto) (host : Host) (maxClients : Nat) (socket : Int) :
    Machine (Dialogue × Transcript) DialogueLabel Call :=
  watch (dialogueMachine qt c host maxClients socket) (noteDialogue c)

/- One `recv` of the server takes one message that was sent, the next. -/
def Aligned (c : Crypto) (s : Dialogue × Transcript) : DialogueLabel → Prop
  | .arrives (.bytes r) => r.length < packetSize ∧ s.2.unread.head?.map c.encryptString = some r
  | _ => True

instance (c : Crypto) (s : Dialogue × Transcript) : (l : DialogueLabel) → Decidable (Aligned c s l)
  | .arrives (.bytes _) => by dsimp only [Aligned]; infer_instance
  | .arrives .failed | .arrives .closed | .window _ _ | .client _ | .console _ _ => isTrue trivial

def dialogueOpens (socket : Int) (i : Nat) (d : ThreadData) (directory : Bytes) : Dialogue where
  client := connected []
  outgoing := []
  upstream := []
  server := ⟨⟨socket,d⟩,[⟨.receive,i,directory,none⟩],[]⟩

def commandText (m : Bytes) : Option Bytes :=
  match branch m with
  | .message p => some p
  | _ => none

def commandTexts (messages : List Bytes) : List Bytes := messages.filterMap commandText

def DialogueLabel.inside : DialogueLabel → Option SlotLabel
  | .client r => some (.client 0 r)
  | .console k r => some (.console k r)
  | .window _ _ | .arrives _ => none

def SlotLabel.Working : SlotLabel → Prop
  | .client _ r => r.isReceived = false
  | .console _ _ => True
  | .listen _ _ | .start _ => False

section
variable {c : Crypto} {host : Host} {maxClients : Nat} {socket : Int}

inductive DialogueStep (qt : Qt) (c : Crypto) (host : Host) (maxClients : Nat) (socket : Int) (s : Dialogue) (memo : Transcript) :
    DialogueLabel → Call → Dialogue → Transcript → Prop where
  | window {l command client} (moved : clientAct qt c s.client l = some client) :
      DialogueStep qt c host maxClients socket s memo (.window l command) .memory {s with
        client
        outgoing := composed s.outgoing command l
        upstream := s.upstream ++ sentBytes c (emitted s l)} {memo with sent := memo.sent ++ emitted s l}
  | arrives {r upstream got call server} (taken : fromNetwork s.upstream r = some upstream)
      (received : receive c r = some got)
      (step : SlotStep host maxClients s.server (.client 0 (.received got)) call server) :
      DialogueStep qt c host maxClients socket s memo (.arrives r) call {s with upstream,server} {memo with
        read := memo.read ++ readOf r got
        exchanges := noteExchange memo.exchanges s.server (.client 0 (.received got)) call server}
  | server {l label call server} (inside : l.inside = some label) (works : label.Working)
      (step : SlotStep host maxClients s.server label call server) :
      DialogueStep qt c host maxClients socket s memo l call
        {s with server,client.network := downstream c socket s.client.network call}
        {memo with exchanges := noteExchange memo.exchanges s.server label call server}

theorem dialogueStep {s t : Dialogue × Transcript} {l : DialogueLabel} {call : Call}
    (h : (dialogue qt c host maxClients socket).act s l = some (call,t)) :
    DialogueStep qt c host maxClients socket s.1 s.2 l call t.1 t.2 := by
  obtain ⟨act,noted⟩ := watchAct h
  obtain ⟨t,memo⟩ := t
  dsimp only at act noted ⊢
  subst noted
  cases l with
  | window l command =>
    simp only [dialogueMachine,bind,Option.bind_eq_some_iff] at act
    obtain ⟨client,moved,last⟩ := act
    cases Option.some.inj last
    exact .window moved
  | arrives r =>
    simp only [dialogueMachine,bind,Option.bind_eq_some_iff] at act
    obtain ⟨upstream,taken,got,received,⟨call,server⟩,step,last⟩ := act
    cases Option.some.inj last
    simp only [noteDialogue,received]
    exact .arrives taken received (slotStep step)
  | client r =>
    simp only [dialogueMachine,bind,Option.bind_eq_some_iff] at act
    obtain ⟨⟨call,server⟩,step,last⟩ := act
    split at last <;> try contradiction
    rename_i other
    cases Option.some.inj last
    exact .server rfl (Bool.eq_false_iff.mpr other) (slotStep step)
  | console k r =>
    simp only [dialogueMachine,bind,Option.bind_eq_some_iff] at act
    obtain ⟨⟨call,server⟩,step,last⟩ := act
    cases Option.some.inj last
    exact .server rfl trivial (slotStep step)

end

structure Linked (c : Crypto) (s : Dialogue) (memo : Transcript) : Prop where
  split : memo.read ++ memo.unread = memo.sent
  upstream : s.upstream = sentBytes c memo.unread
  texts : (memo.exchanges.map Exchange.text).reverse = commandTexts memo.read

theorem unreadSent {memo : Transcript} (more : List Bytes) (split : memo.read ++ memo.unread = memo.sent) :
    ({memo with sent := memo.sent ++ more} : Transcript).unread = memo.unread ++ more := by
  have inside : memo.read.length ≤ memo.sent.length := by
    rw [← split,List.length_append]
    exact Nat.le_add_right _ _
  exact List.drop_append_of_le_length inside

theorem unreadRead {memo : Transcript} {m : Bytes} {rest : List Bytes} (exchanges : List Exchange)
    (split : memo.read ++ memo.unread = memo.sent) (next : memo.unread = m::rest) :
    ({memo with read := memo.read ++ [m],exchanges} : Transcript).unread = rest ∧
      memo.read ++ [m] ++ rest = memo.sent := by
  have joined : memo.read ++ [m] ++ rest = memo.sent := by
    rw [← split,next,List.append_assoc]
    rfl
  refine ⟨?_,joined⟩
  simp only [Transcript.unread,← joined,List.drop_left]

theorem sentBytesAppend (c : Crypto) (a b : List Bytes) : sentBytes c (a ++ b) = sentBytes c a ++ sentBytes c b := by
  simp [sentBytes]

theorem afterText (e : Exchange) (r : Result) (call : Call) : (e.after r call).text = e.text := by
  unfold Exchange.after
  split <;> rfl

theorem noteWorking (memo : List Exchange) (s s' : SlotState) {label : SlotLabel} (call : Call)
    (works : label.Working) : ∃ r, noteExchange memo s label call s' = memo.modifyHead fun e => e.after r call := by
  cases label with
  | client t r =>
    cases r with
    | received got => cases works
    | _ => exact ⟨_,rfl⟩
  | console k r => exact ⟨r,rfl⟩
  | listen _ _ | start _ => cases works

theorem headText (memo : List Exchange) (r : Result) (call : Call) :
    (memo.modifyHead fun e => e.after r call).map Exchange.text = memo.map Exchange.text := by
  cases memo with
  | nil => rfl
  | cons e past => simp [afterText]

theorem alignedReceives {c : Crypto} {s : Dialogue} {memo : Transcript} {r upstream : Bytes} {got : Received}
    (linked : Linked c s memo) (aligned : Aligned c (s,memo) (.arrives (.bytes r)))
    (taken : fromNetwork s.upstream (.bytes r) = some upstream) (received : receive c (.bytes r) = some got) :
    ∃ rest, memo.unread = got.sPacket::rest ∧ upstream = sentBytes c rest ∧ got.bytesReceived ≠ 0 := by
  obtain ⟨short,next⟩ := aligned
  obtain ⟨m,first,rfl⟩ := Option.map_eq_some_iff.mp next
  obtain ⟨rest,unread⟩ := List.head?_eq_some_iff.mp first
  obtain ⟨positive,joined⟩ := fromNetworkBytes taken
  have nonempty : m ≠ [] := by
    rintro rfl
    rw [c.encryptStringNil] at positive
    cases positive
  have fits : m.length < 240 := by
    have size := c.encryptStringLength nonempty
    unfold packetSize at short
    omega
  obtain ⟨n,some,same⟩ := receiveCipher c nonempty fits
  cases same.symm.trans received
  refine ⟨rest,unread,?_,some⟩
  have stream : c.encryptString m ++ upstream = c.encryptString m ++ sentBytes c rest := by
    rw [joined,linked.upstream,unread]
    rfl
  exact List.append_cancel_left stream

theorem failedUnheard {c : Crypto} {got : Received} (received : receive c .failed = some got) : heardText got = none := by
  cases received
  rfl

theorem heardCommand {got : Received} (open_ : got.bytesReceived ≠ 0) : heardText got = commandText got.sPacket := by
  rw [heardText,if_neg open_]
  rfl

theorem commandTextsPush (messages : List Bytes) (m : Bytes) :
    commandTexts (messages ++ [m]) = commandTexts messages ++ (commandText m).toList := by
  cases text : commandText m <;> simp [commandTexts,text]

inductive Arrival (c : Crypto) (s : Dialogue) (memo : Transcript) (r : Recv) (upstream : Bytes) (got : Received) : Prop where
  | message (rest : List Bytes) (unread : memo.unread = got.sPacket::rest) (left : upstream = sentBytes c rest)
      (noted : readOf r got = [got.sPacket]) (heard : heardText got = commandText got.sPacket)
  | nothing (left : upstream = s.upstream) (noted : readOf r got = []) (heard : heardText got = none)

theorem arrival {c : Crypto} {s : Dialogue} {memo : Transcript} {r : Recv} {upstream : Bytes} {got : Received}
    (linked : Linked c s memo) (aligned : Aligned c (s,memo) (.arrives r))
    (taken : fromNetwork s.upstream r = some upstream) (received : receive c r = some got) :
    Arrival c s memo r upstream got := by
  cases r with
  | bytes r =>
    obtain ⟨rest,unread,left,open_⟩ := alignedReceives linked aligned taken received
    exact .message rest unread left rfl (heardCommand open_)
  | failed =>
    cases Option.some.inj taken
    exact .nothing rfl rfl (failedUnheard received)
  | closed =>
    cases Option.some.inj taken
    cases received
    exact .nothing rfl rfl rfl

section
variable {c : Crypto} {host : Host} {maxClients : Nat} {socket : Int} {s t : Dialogue} {memo memo' : Transcript}
  {l : DialogueLabel} {call : Call}

theorem linkedStep (linked : Linked c s memo) (aligned : Aligned c (s,memo) l)
    (h : DialogueStep qt c host maxClients socket s memo l call t memo') : Linked c t memo' := by
  cases h with
  | @window l command client moved =>
    have unread := unreadSent (emitted s l) linked.split
    refine ⟨?_,?_,linked.texts⟩
    · rw [unread]
      simp only [← linked.split,List.append_assoc]
    · rw [unread,sentBytesAppend,← linked.upstream]
  | @arrives r upstream got call server taken received step =>
    cases arrival linked aligned taken received with
    | message rest unread left noted heard =>
      obtain ⟨later,split⟩ := unreadRead _ linked.split unread
      rw [noted]
      refine ⟨by rw [later]; exact split,by rw [later]; exact left,?_⟩
      dsimp only
      rw [commandTextsPush,← linked.texts,← heard]
      cases text : heardText got <;> simp [noteExchange,text]
    | nothing left noted heard =>
      obtain ⟨split,stream,texts⟩ := linked
      simp only [noted,List.append_nil,noteExchange,heard,left]
      exact ⟨split,stream,texts⟩
  | @server l label call server inside works step =>
    obtain ⟨r,noted⟩ := noteWorking memo.exchanges s.server server call works
    refine ⟨linked.split,linked.upstream,?_⟩
    dsimp only
    rw [noted,headText]
    exact linked.texts

theorem opensLinked (i : Nat) (d : ThreadData) (directory : Bytes) :
    Linked c (dialogueOpens socket i d directory) silence :=
  ⟨rfl,rfl,rfl⟩

theorem opensAuthored {i : Nat} {d : ThreadData} {directory : Bytes} (empty : d.nextCommand = []) :
    Authored host ((dialogueOpens socket i d directory).server,[]) := by
  refine ⟨?_,?_,?_,?_,?_,.inl empty⟩ <;>
    simp [dialogueOpens,NewClient.Pc.passed,NewClient.Pc.commands]

theorem authoredDialogue (linked : Linked c s memo) (aligned : Aligned c (s,memo) l)
    (authored : Authored host (s.server,commandTexts memo.read))
    (h : DialogueStep qt c host maxClients socket s memo l call t memo') :
    Authored host (t.server,commandTexts memo'.read) := by
  cases h with
  | window moved => exact authored
  | @arrives r upstream got call server taken received step =>
    have next := authoredStep authored step
    cases arrival linked aligned taken received with
    | message rest unread left noted heard =>
      simp only [noteHeard,heard] at next
      dsimp only
      rwa [noted,commandTextsPush]
    | nothing left noted heard =>
      simp only [noteHeard,heard,Option.toList_none,List.append_nil] at next
      dsimp only
      rwa [noted,List.append_nil]
  | @server l label call server inside works step =>
    have next := authoredStep authored step
    cases label with
    | client t r =>
      cases r with
      | received got => cases works
      | _ => exact next
    | console k r => exact next
    | listen _ _ | start _ => cases works

theorem dialogueCall (linked : Linked c s memo) (authored : Authored host (s.server,commandTexts memo.read))
    (h : DialogueStep qt c host maxClients socket s memo l call t memo') :
    CallAuthored host (commandTexts memo.sent) call := by
  have sent : commandTexts memo.sent = commandTexts memo.read ++ commandTexts memo.unread := by
    rw [← linked.split,commandTexts,List.filterMap_append]
    rfl
  have grown : Authored host (s.server,commandTexts memo.sent) := by
    rw [sent]
    exact authoredMore authored
  cases h with
  | window moved => exact ⟨nofun,nofun⟩
  | arrives taken received step => exact callAuthored grown step
  | server inside works step => exact callAuthored grown step

end

def ReadInOrder (memo : Transcript) : Prop :=
  memo.read <+: memo.sent ∧ (memo.exchanges.map Exchange.text).reverse = commandTexts memo.read

def commandArrives (command : String) : List DialogueLabel :=
  [.window (.input .sendCommand) (ascii command),.window (.form true) [],.window (.form true) [],
    .arrives (.bytes (secretCrypto.encryptString (messageCode::ascii command)))]

def homeConsole : ThreadData :=
  {freshConsole false false with directory := ascii "/",username := ascii "user",hostname := ascii "box"}

def lsForks : List DialogueLabel :=
  commandArrives "ls" ++
    [.client .done,.client .done,.client .done,.client (.descriptors 5 6),.client (.descriptors 7 8),.client .done,
      .client (.thread 0),.console 0 .done,.console 0 .done,.console 0 .done]

end RemoteTerminal
