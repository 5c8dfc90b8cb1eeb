import RemoteTerminal.Dialogue

/-! Question and answer. A user who waits for Cancel to go off leaves the server one command
at a time, and what comes down is one answer with its "EOT" behind it; the flag that is set
where the "EOT" is found is what Cancel goes off with. -/
namespace RemoteTerminal
open ByteStrings HexCodec LabelledRuns EntryTable MarkedCode

variable {qt : Qt}

def Waits (s : Dialogue × Transcript) : DialogueLabel → Prop
  | .window (.input .sendCommand) _ => s.1.client.window.cancelEnabled = false
  | _ => True

def TakesTurns (c : Crypto) (s : Dialogue × Transcript) (l : DialogueLabel) : Prop := Aligned c s l ∧ Waits s l

instance (s : Dialogue × Transcript) : (l : DialogueLabel) → Decidable (Waits s l)
  | .window (.input .sendCommand) _ => by dsimp only [Waits]; infer_instance
  | .window (.input .checkMessages) _ | .window (.input .cancelCommand) _ | .window (.input .disconnect) _
  | .window (.recv _) _ | .window .run _ | .window (.form _) _ | .arrives _ | .client _ | .console _ _ =>
    isTrue trivial

instance (c : Crypto) (s : Dialogue × Transcript) (l : DialogueLabel) : Decidable (TakesTurns c s l) := by
  unfold TakesTurns; infer_instance

def TCPClient.Pc.holds : TCPClient.Pc → Bytes
  | .append r | .mark r | .overrun r => r
  | .receive | .disconnect | .done => []

def coming (s : ClientState) : Bytes := s.receiver.holds ++ s.network

structure Closing (wire : Bytes) : Prop where
  clean : 0 ∉ wire
  last : ∀ a b, wire = a ++ endTransmissionCode ++ b → b = []

theorem closingBehind {a b : Bytes} (closing : Closing (a ++ b)) : Closing b := by
  obtain ⟨clean,last⟩ := closing
  refine ⟨fun mem => clean (List.mem_append_right a mem),fun x y same => last (a ++ x) y ?_⟩
  rw [same,List.append_assoc,List.append_assoc,List.append_assoc]

theorem plainClosing {l : Bytes} (plain : Plain l) : Closing l := by
  refine ⟨plainNoZero plain,fun a b same => ?_⟩
  have inside : contains l endTransmissionCode = true := decide_eq_true ⟨a,b,same.symm⟩
  cases (plainNoEnd plain).symm.trans inside

theorem plainNil : Plain [] := fun _ mem => (List.not_mem_nil mem).elim

theorem codeClosing {l : Bytes} (plain : Plain l) : Closing (l ++ endTransmissionCode) := by
  have noMark : endCode.mark ∉ l := plainByte plain (by decide) (by decide)
  constructor
  · intro mem
    rcases List.mem_append.mp mem with inside | code
    · exact plainNoZero plain inside
    · revert code
      decide
  · intro a b same
    have blocks : ∀ block ∈ [l,endCode.word], endCode.Block block := by
      intro block mem
      rcases List.mem_pair.mp mem with rfl | rfl
      · exact .inr noMark
      · exact .inl rfl
    have found : [l,endCode.word].flatten = a ++ endCode.word ++ b := by
      rw [endCodeWord,← same]
      simp
    obtain ⟨earlier,later,split,-,rfl⟩ := wordInStream blocks found
    have short := congrArg List.length split
    cases earlier with
    | nil =>
      have first : l = endCode.word := (List.cons.inj split).1
      have mark : endCode.mark ∈ endCode.word := by decide
      exact (noMark (first ▸ mark)).elim
    | cons x earlier =>
      have empty : later.length = 0 := by
        simp only [List.length_cons,List.length_nil,List.length_append] at short
        omega
      rw [List.length_eq_zero_iff.mp empty]
      rfl

def FrmMain.Pc.speaks : FrmMain.Pc → Bool
  | .clearOutput | .send => true
  | _ => false

def pendingCommand (s : Dialogue) : List Bytes :=
  if s.client.form.speaks then (commandText s.outgoing).toList else []

def asking (s : Dialogue) (memo : Transcript) : List Bytes := commandTexts memo.unread ++ pendingCommand s

def AllEnded (memo : List Exchange) : Prop := ∀ e ∈ memo.head?, e.ended = true

/- Whose turn it is. `asked`: a command is on its way up, and all before it are answered.
`answering`: the server has it. `answered`: the server is done, and its "EOT" comes down or
has come, or was not recognised. -/
inductive Conversation (s : Dialogue) (memo : Transcript) : Prop where
  | asked (p : Bytes) (one : asking s memo = [p]) (ended : AllEnded memo.exchanges) (quiet : coming s.client = [])
      (running : s.client.conn.transmissionEnd = false)
      (offered : s.client.window.cancelEnabled = true ∨
        s.client.form = .clearOutput ∧ commandText s.outgoing = some p)
  | answering (none : asking s memo = []) (plain : Plain (coming s.client))
      (running : s.client.conn.transmissionEnd = false) (offered : s.client.window.cancelEnabled = true)
  | answered (none : asking s memo = []) (ended : AllEnded memo.exchanges)
      (rest : coming s.client = [] ∨ Closing (coming s.client) ∧ s.client.conn.transmissionEnd = false ∧
        s.client.window.cancelEnabled = true)

theorem conversationComing {s : Dialogue} {memo : Transcript} (conversation : Conversation s memo) :
    Closing (coming s.client) ∧ (coming s.client = [] ∨ s.client.conn.transmissionEnd = false) := by
  have empty : Closing [] := plainClosing plainNil
  cases conversation with
  | asked p one ended quiet running offered => exact ⟨quiet ▸ empty,.inr running⟩
  | answering none plain running offered => exact ⟨plainClosing plain,.inr running⟩
  | answered none ended rest =>
    rcases rest with quiet | ⟨closing,running,-⟩
    · exact ⟨quiet ▸ empty,.inl quiet⟩
    · exact ⟨closing,.inr running⟩

inductive Listens (s t : ClientState) : Prop where
  | keeps (same : coming t = coming s)
      (ended : t.conn.transmissionEnd = s.conn.transmissionEnd ∨ t.conn.transmissionEnd = false)
  | marks (p : Bytes) (split : coming s = p ++ coming t)
      (ended : t.conn.transmissionEnd = contains p endTransmissionCode)

theorem recvKeeps {c : Crypto} {s t : ClientState} {r : Recv} (closing : Closing (coming s))
    (kept : coming s = [] ∨ s.conn.transmissionEnd = false) (act : clientAct qt c s (.recv r) = some t) :
    coming t = coming s ∧ t.conn = s.conn ∧ t.form = s.form ∧ t.window = s.window := by
  simp only [clientAct] at act
  split at act <;> try contradiction
  rename_i waiting
  obtain ⟨network,taken,rfl⟩ := Option.map_eq_some_iff.mp act
  refine ⟨?_,rfl,rfl,rfl⟩
  have before : coming s = s.network := by rw [coming,waiting]; rfl
  cases r with
  | failed | closed =>
    cases Option.some.inj taken
    rw [before]
    rfl
  | bytes r =>
    obtain ⟨positive,joined⟩ := fromNetworkBytes taken
    have running : s.conn.transmissionEnd = false := by
      rcases kept with quiet | running
      · rw [before,← joined,List.append_eq_nil_iff] at quiet
        rw [quiet.1] at positive
        cases positive
      · exact running
    have clean : 0 ∉ r := fun mem => closing.clean (by
      rw [before,← joined]
      exact List.mem_append_left _ mem)
    have holds : (TCPClient.afterReceive s.conn (.bytes r)).holds = r := by
      by_cases short : r.length < packetSize
      · simp [TCPClient.afterReceive,running,assignShort clean short,positive,TCPClient.Pc.holds]
      · simp [TCPClient.afterReceive,running,assignFull clean (Nat.le_of_not_lt short),TCPClient.Pc.holds]
    rw [before,← joined]
    exact congrArg (· ++ network) holds

theorem runListens {c : Crypto} {s t : ClientState} (act : clientAct qt c s .run = some t) :
    Listens s t ∧ t.form = s.form ∧ t.window = s.window := by
  obtain ⟨next,moved,rfl⟩ := Option.map_eq_some_iff.mp act
  refine ⟨?_,rfl,rfl⟩
  cases at_ : s.receiver with
  | append p =>
    rw [at_] at moved
    cases moved
    exact .keeps (by rw [coming,coming,at_]; rfl) (.inl rfl)
  | mark p =>
    rw [at_] at moved
    cases moved
    exact .marks p (by rw [coming,at_]; rfl) rfl
  | disconnect =>
    rw [at_] at moved
    cases moved
    exact .keeps (by rw [coming,coming,at_]; rfl) (.inr rfl)
  | receive | overrun r | done =>
    rw [at_] at moved
    cases moved

theorem endedRunning {a b : Bool} (running : a = false) (ended : b = a ∨ b = false) : b = false := by
  rcases ended with same | off
  · exact same.trans running
  · exact off

theorem codeAtEnd {p rest : Bytes} (closing : Closing (p ++ rest)) (found : contains p endTransmissionCode = true) :
    rest = [] := by
  obtain ⟨a,b,same⟩ := of_decide_eq_true found
  have last := closing.last a (b ++ rest) (by rw [← same]; simp)
  exact (List.append_eq_nil_iff.mp last).2

theorem listensConversation {s : Dialogue} {memo : Transcript} {client : ClientState} {upstream : Bytes}
    (conversation : Conversation s memo) (listens : Listens s.client client) (form : client.form = s.client.form)
    (window : client.window = s.client.window) : Conversation {s with client,upstream} memo := by
  have closing := (conversationComing conversation).1
  have same : asking {s with client,upstream} memo = asking s memo := by
    simp only [asking,pendingCommand,form]
  cases listens with
  | keeps kept ended =>
    cases conversation with
    | asked p one alone quiet running offered =>
      refine .asked p (same.trans one) alone (kept.trans quiet) (endedRunning running ended) ?_
      dsimp only
      rwa [window,form]
    | answering none plain running offered =>
      exact .answering (same.trans none) (kept ▸ plain) (endedRunning running ended) (window ▸ offered)
    | answered none alone rest =>
      refine .answered (same.trans none) alone ?_
      rcases rest with quiet | ⟨closing,running,offered⟩
      · exact .inl (kept.trans quiet)
      · exact .inr ⟨kept ▸ closing,endedRunning running ended,window ▸ offered⟩
  | marks q split ended =>
    have behind : Closing (coming client) := closingBehind (split ▸ closing)
    cases conversation with
    | asked p one alone quiet running offered =>
      obtain ⟨rfl,rest⟩ := List.append_eq_nil_iff.mp (split.symm.trans quiet)
      refine .asked p (same.trans one) alone rest (ended.trans (plainNoEnd plainNil)) ?_
      dsimp only
      rwa [window,form]
    | answering none plain running offered =>
      rw [split,plainAppend] at plain
      exact .answering (same.trans none) plain.2 (ended.trans (plainNoEnd plain.1)) (window ▸ offered)
    | answered none alone rest =>
      refine .answered (same.trans none) alone ?_
      rcases rest with quiet | ⟨-,running,offered⟩
      · exact .inl (List.append_eq_nil_iff.mp (split.symm.trans quiet)).2
      · cases found : contains q endTransmissionCode with
        | true => exact .inl (codeAtEnd (split ▸ closing) found)
        | false => exact .inr ⟨behind,ended.trans found,window ▸ offered⟩

structure WindowMoves (s t : ClientState) : Prop where
  receiver : t.receiver = s.receiver
  network : t.network = s.network
  ended : t.conn.transmissionEnd = s.conn.transmissionEnd ∨ t.conn.transmissionEnd = false
  offered : s.window.cancelEnabled = true → s.conn.transmissionEnd = false → t.window.cancelEnabled = true
  clears : s.form = .clearOutput → t.window.cancelEnabled = true

theorem formMoves {c : Crypto} {s t : ClientState} {sent : Bool} (act : clientAct qt c s (.form sent) = some t) :
    WindowMoves s t := by
  obtain ⟨next,moved,rfl⟩ := Option.map_eq_some_iff.mp act
  cases at_ : s.form with
  | idle | stopped =>
    rw [at_] at moved
    cases moved
  | decrypt taken =>
    rw [at_] at moved
    cases moved
    refine ⟨rfl,rfl,.inl rfl,fun on running => ?_,fun clearing => ?_⟩
    · simp [running,on]
    · cases at_.symm.trans clearing
  | clearOutput =>
    rw [at_] at moved
    cases moved
    exact ⟨rfl,rfl,.inl rfl,fun _ _ => rfl,fun _ => rfl⟩
  | setTransmissionEnd =>
    rw [at_] at moved
    cases moved
    refine ⟨rfl,rfl,.inr rfl,fun on _ => on,fun clearing => ?_⟩
    cases at_.symm.trans clearing
  | hangUp =>
    rw [at_] at moved
    cases moved
    refine ⟨rfl,rfl,?_,fun on _ => on,fun clearing => ?_⟩
    · dsimp only
      split
      · exact .inr rfl
      · exact .inl rfl
    · cases at_.symm.trans clearing
  | length | take | clear _ _ | send | clearDisconnected =>
    rw [at_] at moved
    cases moved
    refine ⟨rfl,rfl,.inl rfl,fun on _ => on,fun clearing => ?_⟩
    cases at_.symm.trans clearing

theorem goodbyeNoCommand : commandText [disconnectCode] = none := by decide
theorem cancelNoCommand : commandText [cancelCode] = none := by decide

theorem commandTextsAppend (a b : List Bytes) : commandTexts (a ++ b) = commandTexts a ++ commandTexts b :=
  List.filterMap_append

theorem emittedCommands (s : Dialogue) (sent : Bool) : commandTexts (emitted s (.form sent)) =
    if s.client.form = .send ∧ sent = true then (commandText s.outgoing).toList else [] := by
  cases sent with
  | false => simp [emitted,commandTexts]
  | true =>
    cases at_ : s.client.form with
    | send => cases text : commandText s.outgoing <;> simp [emitted,at_,commandTexts,text]
    | hangUp => cases up : s.client.conn.isConnected <;> simp [emitted,at_,up,commandTexts,goodbyeNoCommand]
    | _ => simp [emitted,at_,commandTexts]

theorem stepSpeaks {c : Crypto} {conn : Connection} {window : FrmMain.Window} {sent : Bool} {pc : FrmMain.Pc}
    {next : FrmMain.Pc × Connection × FrmMain.Window} (moved : FrmMain.step qt c conn window sent pc = some next) :
    next.1.speaks = decide (pc = .clearOutput) := by
  cases pc with
  | idle | stopped => cases moved
  | length | clear _ _ | send =>
    cases moved
    dsimp only
    split <;> rfl
  | _ =>
    cases moved
    rfl

theorem formAsking {c : Crypto} {s : Dialogue} {memo : Transcript} {client : ClientState} {sent : Bool} (upstream : Bytes)
    (split : memo.read ++ memo.unread = memo.sent) (act : clientAct qt c s.client (.form sent) = some client) :
    asking {s with client,upstream} {memo with sent := memo.sent ++ emitted s (.form sent)} = asking s memo ∨
      asking {s with client,upstream} {memo with sent := memo.sent ++ emitted s (.form sent)} =
        commandTexts memo.unread := by
  obtain ⟨next,moved,rfl⟩ := Option.map_eq_some_iff.mp act
  have speaks := stepSpeaks moved
  simp only [asking,unreadSent _ split,commandTextsAppend,emittedCommands,pendingCommand,speaks,decide_eq_true_eq]
  cases at_ : s.client.form with
  | send => cases sent <;> simp [FrmMain.Pc.speaks]
  | _ => simp [FrmMain.Pc.speaks]

theorem formConversation {c : Crypto} {s : Dialogue} {memo : Transcript} {client : ClientState} {sent : Bool}
    {upstream : Bytes} (split : memo.read ++ memo.unread = memo.sent) (conversation : Conversation s memo)
    (act : clientAct qt c s.client (.form sent) = some client) :
    Conversation {s with client,upstream} {memo with sent := memo.sent ++ emitted s (.form sent)} := by
  obtain ⟨receiver,network,ended,offers,clears⟩ := formMoves act
  have same : coming client = coming s.client := by rw [coming,coming,receiver,network]
  have asks := formAsking upstream split act
  cases conversation with
  | asked p one alone quiet running offered =>
    have offered' : client.window.cancelEnabled = true := by
      rcases offered with on | ⟨clearing,-⟩
      · exact offers on running
      · exact clears clearing
    rcases asks with stays | dropped
    · exact .asked p (stays.trans one) alone (same.trans quiet) (endedRunning running ended) (.inl offered')
    · cases left : commandTexts memo.unread with
      | nil => exact .answered (dropped.trans left) alone (.inl (same.trans quiet))
      | cons q rest =>
        rw [asking,left,List.cons_append] at one
        obtain ⟨rfl,none⟩ := List.cons.inj one
        refine .asked q ?_ alone (same.trans quiet) (endedRunning running ended) (.inl offered')
        rw [dropped,left,(List.append_eq_nil_iff.mp none).1]
  | answering none plain running offered =>
    have nothing := (List.append_eq_nil_iff.mp none).1
    have none' : asking {s with client,upstream} {memo with sent := memo.sent ++ emitted s (.form sent)} = [] := by
      rcases asks with stays | dropped
      · exact stays.trans none
      · exact dropped.trans nothing
    exact .answering none' (same ▸ plain) (endedRunning running ended) (offers offered running)
  | answered none alone rest =>
    have nothing := (List.append_eq_nil_iff.mp none).1
    have none' : asking {s with client,upstream} {memo with sent := memo.sent ++ emitted s (.form sent)} = [] := by
      rcases asks with stays | dropped
      · exact stays.trans none
      · exact dropped.trans nothing
    refine .answered none' alone ?_
    rcases rest with quiet | ⟨closing,running,offered⟩
    · exact .inl (same.trans quiet)
    · exact .inr ⟨same ▸ closing,endedRunning running ended,offers offered running⟩

theorem callStarts {conn : Connection} {window : FrmMain.Window} {i : FrmMain.Input} {form : FrmMain.Pc}
    (outgoing command : Bytes) (starts : FrmMain.start conn window i = some form) :
    form.taken = [] ∧ form.undecrypted = [] ∧
      (form = .clearOutput ∧ i = .sendCommand ∧ conn.transmissionEnd = false ∨
        form ≠ .clearOutput ∧
          (form.speaks = true → commandText (composed outgoing command (.input i)) = none)) := by
  cases i with
  | checkMessages =>
    cases starts
    split <;> exact ⟨rfl,rfl,.inr ⟨by simp,by simp [FrmMain.Pc.speaks]⟩⟩
  | sendCommand =>
    cases starts
    by_cases ready : conn.isConnected = true ∧ ¬ conn.transmissionEnd = true
    · rw [if_pos ready]
      exact ⟨rfl,rfl,.inl ⟨rfl,rfl,Bool.eq_false_iff.mpr ready.2⟩⟩
    · rw [if_neg ready]
      exact ⟨rfl,rfl,.inr ⟨by simp,by simp [FrmMain.Pc.speaks]⟩⟩
  | cancelCommand =>
    simp only [FrmMain.start] at starts
    split at starts <;> try contradiction
    cases starts
    split <;> exact ⟨rfl,rfl,.inr ⟨by simp,fun _ => cancelNoCommand⟩⟩
  | disconnect =>
    simp only [FrmMain.start] at starts
    split at starts <;> try contradiction
    cases starts
    exact ⟨rfl,rfl,.inr ⟨by simp,by simp [FrmMain.Pc.speaks]⟩⟩

theorem idleAsks {s : Dialogue} (memo : Transcript) (idle : s.client.form = .idle) :
    asking s memo = commandTexts memo.unread := by
  simp [asking,pendingCommand,idle,FrmMain.Pc.speaks]

theorem inputConversation {c : Crypto} {s : Dialogue} {memo : Transcript} {client : ClientState} {command upstream : Bytes}
    {i : FrmMain.Input} (conversation : Conversation s memo) (waits : Waits (s,memo) (.window (.input i) command))
    (act : clientAct qt c s.client (.input i) = some client) :
    Conversation {s with client,outgoing := composed s.outgoing command (.input i),upstream} memo := by
  simp only [clientAct] at act
  split at act <;> try contradiction
  rename_i idle
  obtain ⟨form,starts,rfl⟩ := Option.map_eq_some_iff.mp act
  have before := idleAsks memo idle
  obtain ⟨-,-,⟨rfl,rfl,running⟩ | ⟨-,quietly⟩⟩ := callStarts s.outgoing command starts
  · have off : s.client.window.cancelEnabled = false := waits
    cases conversation with
    | asked p one alone quiet _ offered =>
      rcases offered with on | ⟨clearing,-⟩
      · cases off.symm.trans on
      · cases idle.symm.trans clearing
    | answering none plain _ offered => cases off.symm.trans offered
    | answered none alone rest =>
      have quiet : coming s.client = [] := by
        rcases rest with quiet | ⟨-,-,on⟩
        · exact quiet
        · cases off.symm.trans on
      refine .asked (stripLines command) ?_ alone quiet running (.inr ⟨rfl,rfl⟩)
      rw [asking,← before,none]
      rfl
  · have same : asking {s with
        client := {s.client with form},outgoing := composed s.outgoing command (.input i),upstream} memo =
        asking s memo := by
      rw [before,asking,pendingCommand]
      dsimp only
      split
      · rename_i speaks
        rw [quietly speaks]
        exact List.append_nil _
      · exact List.append_nil _
    cases conversation with
    | asked p one alone quiet running offered =>
      rcases offered with on | ⟨clearing,-⟩
      · exact .asked p (same.trans one) alone quiet running (.inl on)
      · cases idle.symm.trans clearing
    | answering none plain running offered => exact .answering (same.trans none) plain running offered
    | answered none alone rest => exact .answered (same.trans none) alone rest

theorem windowConversation {c : Crypto} {s : Dialogue} {memo : Transcript} {client : ClientState} {command : Bytes}
    {l : ClientLabel} (linked : Linked c s memo) (conversation : Conversation s memo)
    (waits : Waits (s,memo) (.window l command)) (act : clientAct qt c s.client l = some client) :
    Conversation {s with
      client,outgoing := composed s.outgoing command l,upstream := s.upstream ++ sentBytes c (emitted s l)}
      {memo with sent := memo.sent ++ emitted s l} := by
  obtain ⟨closing,kept⟩ := conversationComing conversation
  have unsent : ({memo with sent := memo.sent ++ []} : Transcript) = memo := by rw [List.append_nil]
  cases l with
  | recv r =>
    obtain ⟨same,conn,form,window⟩ := recvKeeps closing kept act
    rw [show emitted s (.recv r) = [] from rfl,unsent]
    exact listensConversation conversation (.keeps same (.inl (by rw [conn]))) form window
  | run =>
    obtain ⟨listens,form,window⟩ := runListens act
    rw [show emitted s .run = [] from rfl,unsent]
    exact listensConversation conversation listens form window
  | input i =>
    rw [show emitted s (.input i) = [] from rfl,unsent]
    exact inputConversation conversation waits act
  | form sent => exact formConversation linked.split conversation act

theorem clientSends {host t s r call t' s'} (h : NewClient.Steps host t s r call t' s') {there : Int} {message : Sent}
    (sends : call = .send there message) : r = .done ∧ there = s.client := by
  cases h with
  | returnDirectory at_ outcome => cases sends
  | _ =>
    first
      | cases sends; exact ⟨rfl,rfl⟩
      | cases sends

theorem consoleSends {t s r call t' s'} (h : NewConsole.Steps t s r call t' s') {there : Int} {message : Sent}
    (sends : call = .send there message) : r = .done ∧ there = s.client := by
  cases h with
  | returnDirectory at_ outcome | ended at_ outcome | kill at_ outcome | killNext at_ outcome => cases sends
  | _ =>
    first
      | cases sends; exact ⟨rfl,rfl⟩
      | cases sends

theorem noteSends {host : Host} {maxClients : Nat} (memo : List Exchange) {s s' : SlotState} {label : SlotLabel}
    {there : Int} {message : Sent} (works : label.Working) (step : SlotStep host maxClients s label (.send there message) s') :
    noteExchange memo s label (.send there message) s' = (memo.modifyHead fun e => e.adds message) ∧
      there = s.slot.client := by
  cases step with
  | listen step => cases works
  | client here step noThread joined =>
    obtain ⟨rfl,same⟩ := clientSends step rfl
    exact ⟨rfl,same⟩
  | console here step =>
    obtain ⟨rfl,same⟩ := consoleSends step rfl
    exact ⟨rfl,same⟩

theorem restsSilent {r : Result} {call : Call} (after : ∀ e : Exchange, e.after r call = e) (there : Int)
    (message : Sent) : call ≠ .send there message := by
  rintro rfl
  have same := after ⟨[],[],[]⟩
  cases r <;> simp [Exchange.after,Exchange.adds,Exchange.reads] at same

theorem endedQuiet {host : Host} {maxClients : Nat} {memo : List Exchange} {s s' : SlotState} {label : SlotLabel}
    {call : Call} (answering : Answering host (s,memo)) (ended : AllEnded memo) (works : label.Working)
    (step : SlotStep host maxClients s label call s') :
    noteExchange memo s label call s' = memo ∧ ∀ there message, call ≠ .send there message := by
  have nobody := endedAlone answering ended
  have clients : ∀ thread ∈ s.clients, thread.pc.handling = 0 := (tallyZero _).mp (by
    simp only [handled] at nobody
    omega)
  have consoles : ∀ thread ∈ s.consoles, thread.pc.unended = 0 := (tallyZero _).mp (by
    simp only [unended] at nobody
    omega)
  cases step with
  | listen step => cases works
  | start => cases works
  | @client t r thread call next slot here step noThread joined =>
    have rests := clientRests step (clients thread (List.mem_of_getElem? here))
    refine ⟨?_,restsSilent rests.after⟩
    cases r with
    | received got => cases works
    | _ => exact headSame rests.after
  | @created t thread here at_ =>
    have free := clients thread (List.mem_of_getElem? here)
    rw [at_] at free
    cases free
  | @console k r thread call next slot here step =>
    obtain ⟨-,after,-⟩ := consoleRests step (consoles thread (List.mem_of_getElem? here))
    exact ⟨headSame after,restsSilent after⟩

theorem downstreamQuiet {c : Crypto} {socket : Int} {network : Bytes} {call : Call}
    (silent : ∀ there message, call ≠ .send there message) : downstream c socket network call = network := by
  cases call with
  | send there message => exact (silent there message rfl).elim
  | _ => rfl

theorem comingMore (s : ClientState) (more : Bytes) :
    coming {s with network := s.network ++ more} = coming s ++ more :=
  (List.append_assoc _ _ _).symm

theorem serverConversation {c : Crypto} {host : Host} {maxClients : Nat} {socket : Int} {s : Dialogue} {memo : Transcript}
    {label : SlotLabel} {call : Call} {server : SlotState} (answering : Answering host (s.server,memo.exchanges))
    (conversation : Conversation s memo) (works : label.Working)
    (step : SlotStep host maxClients s.server label call server) :
    Conversation {s with server,client.network := downstream c socket s.client.network call}
      {memo with exchanges := noteExchange memo.exchanges s.server label call server} := by
  cases conversation with
  | asked p one ended quiet running offered =>
    obtain ⟨noted,silent⟩ := endedQuiet answering ended works step
    rw [noted,downstreamQuiet silent]
    exact .asked p one ended quiet running offered
  | answered none ended rest =>
    obtain ⟨noted,silent⟩ := endedQuiet answering ended works step
    rw [noted,downstreamQuiet silent]
    exact .answered none ended rest
  | answering none plain running offered =>
    cases call with
    | send there message =>
      rw [(noteSends _ works step).1,downstream]
      cases message with
      | frame text =>
        refine .answering none ?_ running offered
        split
        · dsimp only
          rw [comingMore,plainAppend]
          exact ⟨plain,frameWirePlain c text⟩
        · exact plain
      | endOfTransmission =>
        have ended : AllEnded (memo.exchanges.modifyHead fun e => e.adds .endOfTransmission) := by
          intro e first
          cases at_ : memo.exchanges with
          | nil => simp [at_] at first
          | cons e' past =>
            rw [at_] at first
            cases first
            simp [Exchange.ended]
        refine .answered none ended (.inr ⟨?_,running,offered⟩)
        split
        · dsimp only
          rw [comingMore]
          exact codeClosing plain
        · exact plainClosing plain
    | _ => exact .answering none plain running offered

theorem arrivesConversation {c : Crypto} {s : Dialogue} {memo : Transcript} {r : Recv} {upstream : Bytes} {got : Received}
    {call : Call} {server : SlotState} (linked : Linked c s memo) (conversation : Conversation s memo)
    (arrived : Arrival c s memo r upstream got) :
    Conversation {s with upstream,server} {memo with
      read := memo.read ++ readOf r got
      exchanges := noteExchange memo.exchanges s.server (.client 0 (.received got)) call server} := by
  cases arrived with
  | nothing left noted heard =>
    simp only [noted,List.append_nil,noteExchange,heard]
    cases conversation with
    | asked p one ended quiet running offered => exact .asked p one ended quiet running offered
    | answering none plain running offered => exact .answering none plain running offered
    | answered none ended rest => exact .answered none ended rest
  | message rest unread left noted heard =>
    have later := fun exchanges => (unreadRead exchanges linked.split unread).1
    rw [noted]
    have asks : asking s memo = (commandText got.sPacket).toList ++
        asking {s with upstream,server} {memo with
          read := memo.read ++ [got.sPacket]
          exchanges := noteExchange memo.exchanges s.server (.client 0 (.received got)) call server} := by
      rw [asking,asking,later,unread]
      cases text : commandText got.sPacket <;> simp [commandTexts,text,pendingCommand]
    cases text : commandText got.sPacket with
    | none =>
      rw [text,Option.toList_none,List.nil_append] at asks
      have exchanges : noteExchange memo.exchanges s.server (.client 0 (.received got)) call server = memo.exchanges := by
        simp [noteExchange,heard,text]
      cases conversation with
      | asked p one ended quiet running offered =>
        exact .asked p (asks ▸ one) (by rw [exchanges]; exact ended) quiet running offered
      | answering none plain running offered => exact .answering (asks ▸ none) plain running offered
      | answered none ended rest => exact .answered (asks ▸ none) (by rw [exchanges]; exact ended) rest
    | some p =>
      rw [text,Option.toList_some,List.singleton_append] at asks
      cases conversation with
      | asked q one ended quiet running offered =>
        obtain ⟨rfl,none⟩ := List.cons.inj (asks.symm.trans one)
        refine .answering none (quiet ▸ plainNil) running ?_
        rcases offered with on | ⟨clearing,outgoing⟩
        · exact on
        · have pending : pendingCommand s = [p] := by simp [pendingCommand,clearing,FrmMain.Pc.speaks,outgoing]
          have none' := (List.append_eq_nil_iff.mp none).2
          cases none'.symm.trans pending
      | answering none plain running offered => cases asks.symm.trans none
      | answered none ended rest => cases asks.symm.trans none

theorem arrivesPatient {c : Crypto} {s : Dialogue} {memo : Transcript} {r : Recv} {upstream : Bytes} {got : Received}
    (conversation : Conversation s memo) (arrived : Arrival c s memo r upstream got) :
    Patient (s.server,memo.exchanges) (.client 0 (.received got)) := by
  intro command
  cases arrived with
  | nothing left noted heard =>
    rw [heard] at command
    cases command
  | message rest unread left noted heard =>
    rw [heard] at command
    obtain ⟨p,text⟩ := Option.isSome_iff_exists.mp command
    have asks : asking s memo ≠ [] := by simp [asking,unread,commandTexts,text]
    cases conversation with
    | asked p one ended quiet running offered => exact ended
    | answering none plain running offered => exact (asks none).elim
    | answered none ended rest => exact (asks none).elim

structure Conversing (c : Crypto) (host : Host) (s : Dialogue × Transcript) : Prop where
  linked : Linked c s.1 s.2
  answering : Answering host (s.1.server,s.2.exchanges)
  conversation : Conversation s.1 s.2

theorem conversingStep {c : Crypto} {host : Host} {maxClients : Nat} {socket : Int} {s t : Dialogue × Transcript}
    {l : DialogueLabel} {call : Call} (conversing : Conversing c host s) (turns : TakesTurns c s l)
    (h : DialogueStep qt c host maxClients socket s.1 s.2 l call t.1 t.2) : Conversing c host t := by
  obtain ⟨s,memo⟩ := s
  obtain ⟨t,memo'⟩ := t
  obtain ⟨linked,answering,conversation⟩ := conversing
  refine ⟨linkedStep linked turns.1 h,?_,?_⟩
  · cases h with
    | window moved => exact answering
    | arrives taken received step =>
      exact answeringStep answering (arrivesPatient conversation (arrival linked turns.1 taken received)) step
    | @server l label call server inside works step =>
      refine answeringStep answering ?_ step
      cases label with
      | client t r =>
        cases r with
        | received got => cases works
        | _ => trivial
      | console k r => trivial
      | listen _ _ | start _ => cases works
  · cases h with
    | window moved => exact windowConversation linked conversation turns.2 moved
    | arrives taken received step =>
      exact arrivesConversation linked conversation (arrival linked turns.1 taken received)
    | server inside works step => exact serverConversation answering conversation works step

theorem opensConversing (c : Crypto) (host : Host) (socket : Int) (i : Nat) (d : ThreadData) (directory : Bytes) :
    Conversing c host (dialogueOpens socket i d directory,silence) := by
  refine ⟨opensLinked i d directory,?_,.answered rfl nofun (.inl rfl)⟩
  constructor <;> simp [dialogueOpens,silence,handled,unended,tally,NewClient.Pc.handling]

/- Nothing is left to do or to come for any command, and each has its whole answer. -/
structure Conversed (host : Host) (s : Dialogue × Transcript) : Prop where
  asked : (s.2.exchanges.map Exchange.text).reverse = commandTexts s.2.sent
  answered : ∀ e ∈ s.2.exchanges, e.Whole host
  alone : handled s.1.server + unended s.1.server = 0
  quiet : coming s.1.client = []

theorem conversedOff {c : Crypto} {host : Host} {s : Dialogue × Transcript} (conversing : Conversing c host s)
    (off : s.1.client.window.cancelEnabled = false) (between : s.1.client.form ≠ .clearOutput) : Conversed host s := by
  obtain ⟨linked,answering,conversation⟩ := conversing
  cases conversation with
  | asked p one ended quiet running offered =>
    rcases offered with on | ⟨clearing,-⟩
    · cases off.symm.trans on
    · exact (between clearing).elim
  | answering none plain running offered => cases off.symm.trans offered
  | answered none ended rest =>
    have nothing := (List.append_eq_nil_iff.mp none).1
    refine ⟨?_,everyWhole answering ended,endedAlone answering ended,?_⟩
    · rw [linked.texts,← linked.split,commandTextsAppend,nothing,List.append_nil]
    · rcases rest with quiet | ⟨-,-,on⟩
      · exact quiet
      · cases off.symm.trans on

def rootVisited : List DialogueLabel :=
  commandArrives "cd /" ++
    [.client .done,.client .done,.client (.path (ascii "/")),.client .done,.client .done,.client .done,.client .done,
      .window (.recv (.bytes (sendsWire secretCrypto [.frame rootPrompt,.endOfTransmission]))) [],
      .window .run [],.window .run [],.window (.input .checkMessages) []] ++
    List.replicate 5 (.window (.form true) [])

end RemoteTerminal
