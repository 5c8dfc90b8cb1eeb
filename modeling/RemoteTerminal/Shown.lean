import RemoteTerminal.Conversation

/-! What the user reads of the answers. Between the server's `send` and the window stand the
stream, the packet of the receive thread and `ServerOutput`; `CheckMessages` takes from the
last what happens to be there and appends it as a text of its own. -/
namespace RemoteTerminal
open ByteStrings HexCodec LabelledRuns EntryTable
open PlainText (Text)

variable {qt : Qt}

def Boundary (x : Bytes) : Prop := x = [] ∨ x.getLast? = some delimiter
instance (x : Bytes) : Decidable (Boundary x) := by unfold Boundary; infer_instance

/- `CheckMessages` takes `ServerOutput` behind a frame and not inside a character, and finds
nothing new in it when it clears it, and the slot keeps the socket. -/
def Unhurried (c : Crypto) (socket : Int) (s : Dialogue × Transcript) : DialogueLabel → Prop
  | .window (.form _) _ => match s.1.client.form with
    | .take => (Boundary s.1.client.conn.serverOutput ∨ ahead s.1.client = []) ∧
      ¬ Utf8.EndsInside (FrmMain.outputText c s.1.client.conn.serverOutput)
    | .clear _ _ | .clearDisconnected => untaken s.1.client = []
    | _ => True
  | .client _ | .console _ _ => s.1.server.slot.client = socket
  | _ => True

instance (c : Crypto) (socket : Int) (s : Dialogue × Transcript) :
    (l : DialogueLabel) → Decidable (Unhurried c socket s l)
  | .window (.form _) _ => by
    dsimp only [Unhurried]
    split <;> infer_instance
  | .client _ | .console _ _ => by dsimp only [Unhurried]; infer_instance
  | .window (.recv _) _ | .window .run _ | .window (.input _) _ | .arrives _ => isTrue trivial

def Attentive (c : Crypto) (socket : Int) (s : Dialogue × Transcript) (l : DialogueLabel) : Prop :=
  TakesTurns c s l ∧ Unhurried c socket s l
instance (c : Crypto) (socket : Int) (s : Dialogue × Transcript) (l : DialogueLabel) :
    Decidable (Attentive c socket s l) := by unfold Attentive; infer_instance

def answers (exchanges : List Exchange) : List Sent := exchanges.reverse.flatMap Exchange.sends

section
variable {c : Crypto} {x y : Bytes}

theorem outputNil (c : Crypto) : FrmMain.outputText c [] = [] := rfl

theorem nothingEnded (c : Crypto) : ¬ Utf8.EndsInside (FrmMain.outputText c []) := by
  rw [outputNil]
  decide

theorem boundaryAppend (boundary : Boundary x) :
    FrmMain.outputText c (x ++ y) = FrmMain.outputText c x ++ FrmMain.outputText c y := by
  rcases boundary with rfl | last
  · rfl
  · obtain ⟨before,rfl⟩ := List.getLast?_eq_some_iff.mp last
    rw [List.append_assoc,List.singleton_append,outputTextAppend,outputTextAppend,outputNil,List.append_nil]

theorem boundaryBehind (boundary : Boundary (x ++ y)) : Boundary y := by
  rcases boundary with none | last
  · exact .inl (List.append_eq_nil_iff.mp none).2
  · cases y with
    | nil => exact .inl rfl
    | cons b rest => exact .inr (by rwa [List.getLast?_append_of_ne_nil _ (List.cons_ne_nil b rest)] at last)

theorem frameBoundary (text : Bytes) : Boundary (x ++ (Sent.frame text).wire c) := by
  right
  rw [Sent.wire,show ascii "|" = [delimiter] by decide,← List.append_assoc,List.getLast?_concat]

theorem frameText (text : Bytes) : FrmMain.outputText c ((Sent.frame text).wire c) = text := by
  have harmless : Harmless c 0 text := by
    unfold Harmless
    split
    · exact Nat.zero_le _
    · exact .inl rfl
  have line := (harmlessIff c 0 text).mpr harmless
  rw [show codes 0 = [] from rfl,List.nil_append] at line
  rw [Sent.wire,show ascii "|" = [delimiter] by decide,outputTextAppend,outputNil,List.append_nil,
    outputTextLine c (delimiterNotInCipher c text),line]

theorem codeText : FrmMain.outputText c endTransmissionCode = [] := by
  rw [outputTextLine c (by decide),lineText,if_neg (by simp)]

end

theorem answersAdds (e : Exchange) (past : List Exchange) (message : Sent) :
    answers (e.adds message::past) = answers (e::past) ++ [message] := by
  simp [answers]

theorem plaintextsPush (sends : List Sent) (message : Sent) :
    plaintexts (sends ++ [message]) = plaintexts sends ++ message.text := by
  simp [plaintexts]

def screenWith (c : Crypto) (s : ClientState) (more : Bytes) : Text :=
  shown s ++ Utf8.decode (FrmMain.outputText c s.form.undecrypted ++
    FrmMain.outputText c (untaken s ++ ahead s) ++ more)

/- Every text that was sent is on the screen, in the hands of `CheckMessages`, or to be taken
by it, and no text that will be sent was needed for a character on the screen. -/
structure Displayed (c : Crypto) (s : Dialogue) (memo : Transcript) : Prop where
  text : ∀ more, screenWith c s.client more = Utf8.decode (plaintexts (answers memo.exchanges) ++ more)
  ended : ¬ Utf8.EndsInside (FrmMain.outputText c s.client.form.undecrypted)
  taken : s.client.form.taken <+: s.client.conn.serverOutput
  whole : (AllEnded memo.exchanges → asking s memo ≠ []) → Boundary (untaken s.client ++ ahead s.client)
  clearing : s.client.form = .clearOutput → s.client.conn.serverOutput = [] ∧ pendingCommand s ≠ []
  off : s.client.window.cancelEnabled = false → (∀ taken ended, s.client.form ≠ .clear taken ended) →
    s.client.conn.serverOutput = []

theorem conversationQuiet {s : Dialogue} {memo : Transcript} (conversation : Conversation s memo)
    (free : s.client.window.cancelEnabled = false ∨ asking s memo ≠ []) : coming s.client = [] := by
  cases conversation with
  | asked p one ended quiet running offered => exact quiet
  | answering none plain running offered =>
    rcases free with off | asks
    · cases off.symm.trans offered
    · exact (asks none).elim
  | answered none ended rest =>
    rcases rest with quiet | ⟨-,-,on⟩
    · exact quiet
    · rcases free with off | asks
      · cases off.symm.trans on
      · exact (asks none).elim

theorem comingAhead {s : ClientState} (quiet : coming s = []) : ahead s = [] := by
  obtain ⟨holds,network⟩ := List.append_eq_nil_iff.mp quiet
  rw [ahead,network,List.append_nil]
  cases at_ : s.receiver with
  | append r | overrun r =>
    rw [at_] at holds
    exact holds
  | _ => rfl

theorem whereIdle {s : ClientState} (form : s.form.taken = []) : untaken s = s.conn.serverOutput := by
  rw [untaken,form]
  rfl

theorem recvAhead {c : Crypto} {s t : ClientState} {r : Recv} (closing : Closing (coming s))
    (kept : coming s = [] ∨ s.conn.transmissionEnd = false) (act : clientAct qt c s (.recv r) = some t) :
    ahead t = ahead s := by
  obtain ⟨same,-⟩ := recvKeeps closing kept act
  simp only [clientAct] at act
  split at act <;> try contradiction
  rename_i waiting
  obtain ⟨network,taken,rfl⟩ := Option.map_eq_some_iff.mp act
  have before : ahead s = coming s := by rw [ahead,coming,waiting]; rfl
  have after : (TCPClient.afterReceive s.conn r).held = (TCPClient.afterReceive s.conn r).holds := by
    unfold TCPClient.afterReceive
    cases r with
    | failed | closed => rfl
    | bytes r =>
      dsimp only
      split
      · rfl
      · split
        · rfl
        · split <;> rfl
  rw [before,← same,ahead,coming,after]

theorem runAhead {c : Crypto} {s t : ClientState} (taken : s.form.taken <+: s.conn.serverOutput)
    (act : clientAct qt c s .run = some t) : untaken t ++ ahead t = untaken s ++ ahead s ∧
      s.conn.serverOutput <+: t.conn.serverOutput ∧ (coming s = [] → t.conn.serverOutput = s.conn.serverOutput) := by
  obtain ⟨next,moved,rfl⟩ := Option.map_eq_some_iff.mp act
  cases at_ : s.receiver with
  | append p =>
    rw [at_] at moved
    cases moved
    have left : (s.conn.serverOutput ++ p).drop s.form.taken.length = untaken s ++ p :=
      List.drop_append_of_le_length taken.length_le
    refine ⟨?_,List.prefix_append _ _,fun quiet => ?_⟩
    · simp only [untaken,ahead,at_,TCPClient.Pc.held] at left ⊢
      rw [left]
      simp
    · rw [coming,at_] at quiet
      have none : p = [] := (List.append_eq_nil_iff.mp quiet).1
      rw [none]
      exact List.append_nil _
  | mark p =>
    rw [at_] at moved
    cases moved
    exact ⟨by simp only [untaken,ahead,at_,TCPClient.Pc.held],List.prefix_rfl,fun _ => rfl⟩
  | disconnect =>
    rw [at_] at moved
    cases moved
    exact ⟨by simp only [untaken,ahead,at_,TCPClient.Pc.held,TCPClient.disconnect],List.prefix_rfl,fun _ => rfl⟩
  | receive | overrun r | done =>
    rw [at_] at moved
    cases moved

section
variable {c : Crypto} {host : Host} {s : Dialogue} {memo : Transcript} {client : ClientState}
  {outgoing upstream : Bytes}

theorem pendingQuiet (conversation : Conversation s memo) (pending : pendingCommand s ≠ []) : coming s.client = [] :=
  conversationQuiet conversation (.inr fun none => pending (List.append_eq_nil_iff.mp none).2)

theorem displayedListens (displayed : Displayed c s memo) (conversation : Conversation s memo)
    (form : client.form = s.client.form) (window : client.window = s.client.window)
    (same : untaken client ++ ahead client = untaken s.client ++ ahead s.client)
    (grown : s.client.conn.serverOutput <+: client.conn.serverOutput)
    (still : coming s.client = [] → client.conn.serverOutput = s.client.conn.serverOutput) :
    Displayed c {s with client,upstream} memo := by
  obtain ⟨text,ended,taken,whole,clearing,off⟩ := displayed
  have pending : pendingCommand {s with client,upstream} = pendingCommand s := by simp only [pendingCommand,form]
  constructor
  · intro more
    rw [← text more]
    simp only [screenWith,same,form,shown,window]
  · dsimp only
    rw [form]
    exact ended
  · dsimp only
    rw [form]
    exact taken.trans grown
  · intro asks
    dsimp only
    rw [same]
    refine whole fun ended none => asks ended ?_
    rwa [asking,pending]
  · intro at_
    rw [pending]
    obtain ⟨empty,some⟩ := clearing (form ▸ at_)
    exact ⟨(still (pendingQuiet conversation some)).trans empty,some⟩
  · intro disabled outside
    dsimp only at disabled outside ⊢
    rw [window] at disabled
    rw [form] at outside
    rw [still (conversationQuiet conversation (.inl disabled))]
    exact off disabled outside

theorem displayedInput {command : Bytes} {i : FrmMain.Input} (displayed : Displayed c s memo)
    (conversation : Conversation s memo) (waits : Waits (s,memo) (.window (.input i) command))
    (act : clientAct qt c s.client (.input i) = some client) :
    Displayed c {s with client,outgoing := composed s.outgoing command (.input i),upstream} memo := by
  simp only [clientAct] at act
  split at act <;> try contradiction
  rename_i idle
  obtain ⟨form,starts,rfl⟩ := Option.map_eq_some_iff.mp act
  obtain ⟨text,ended,taken,whole,clearing,off⟩ := displayed
  have before := idleAsks memo idle
  have outside : ∀ taken ended, s.client.form ≠ .clear taken ended := by simp [idle]
  obtain ⟨taken',undecrypted,asks⟩ := callStarts s.outgoing command starts
  have left : untaken {s.client with form} = untaken s.client := by
    rw [whereIdle taken',whereIdle (by rw [idle]; rfl)]
  -- a command starts where `ServerOutput` is empty and nothing is to come
  have fresh (sending : form = .clearOutput) : s.client.conn.serverOutput = [] ∧ coming s.client = [] ∧
      i = .sendCommand := by
    obtain ⟨-,rfl,-⟩ | ⟨other,-⟩ := asks
    · have disabled : s.client.window.cancelEnabled = false := waits
      exact ⟨off disabled outside,conversationQuiet conversation (.inl disabled),rfl⟩
    · exact (other sending).elim
  constructor
  · intro more
    rw [← text more]
    simp only [screenWith,left,undecrypted,idle]
    rfl
  · dsimp only
    rw [undecrypted]
    exact nothingEnded c
  · dsimp only
    rw [taken']
    exact List.nil_prefix
  · intro still
    dsimp only
    rw [left]
    obtain ⟨sending,-,-⟩ | ⟨-,quietly⟩ := asks
    · obtain ⟨empty,quiet,-⟩ := fresh sending
      left
      rw [whereIdle (by rw [idle]; rfl),empty]
      exact comingAhead quiet
    · refine whole fun ended none => still ended ?_
      rw [before] at none
      rw [asking,none,pendingCommand]
      dsimp only
      split
      · rename_i speaks
        rw [quietly speaks]
        rfl
      · rfl
  · intro sending
    obtain ⟨empty,-,rfl⟩ := fresh sending
    have at_ : form = .clearOutput := sending
    subst at_
    refine ⟨empty,?_⟩
    simp [pendingCommand,FrmMain.Pc.speaks,composed,commandText,branch]
  · intro disabled _
    exact off disabled outside

structure Passes (c : Crypto) (s t : ClientState) : Prop where
  text : ∀ more, screenWith c t more = screenWith c s more
  ended : ¬ Utf8.EndsInside (FrmMain.outputText c t.form.undecrypted)
  taken : t.form.taken <+: t.conn.serverOutput
  left : ∃ x, x ++ (untaken t ++ ahead t) = untaken s ++ ahead s
  clearing : t.form ≠ .clearOutput
  off : t.window.cancelEnabled = false → (∀ taken ended, t.form ≠ .clear taken ended) → t.conn.serverOutput = []

theorem displayedPasses {sent : Bool} (displayed : Displayed c s memo) (split : memo.read ++ memo.unread = memo.sent)
    (act : clientAct qt c s.client (.form sent) = some client) (passes : Passes c s.client client) :
    Displayed c {s with client,upstream} {memo with sent := memo.sent ++ emitted s (.form sent)} := by
  refine ⟨fun more => (passes.text more).trans (displayed.text more),passes.ended,passes.taken,fun asks => ?_,
    fun at_ => (passes.clearing at_).elim,passes.off⟩
  obtain ⟨x,left⟩ := passes.left
  refine boundaryBehind (x := x) ?_
  rw [left]
  refine displayed.whole fun ended none => asks ended ?_
  rcases formAsking upstream split act with same | dropped
  · exact same.trans none
  · exact dropped.trans (List.append_eq_nil_iff.mp none).1

theorem passesOver {next : FrmMain.Pc × Connection × FrmMain.Window} {s : ClientState}
    (output : next.2.1.serverOutput = s.conn.serverOutput) (window : next.2.2 = s.window)
    (before : s.form.taken = [] ∧ s.form.undecrypted = []) (after : next.1.taken = [] ∧ next.1.undecrypted = [])
    (clearing : next.1 ≠ .clearOutput)
    (off : s.window.cancelEnabled = false → s.conn.serverOutput = []) :
    Passes c s {s with form := next.1,conn := next.2.1,window := next.2.2} := by
  have left : untaken {s with form := next.1,conn := next.2.1,window := next.2.2} = untaken s := by
    rw [whereIdle after.1,whereIdle before.1,output]
  refine ⟨fun more => ?_,?_,?_,⟨[],?_⟩,clearing,?_⟩
  · rw [screenWith,screenWith,left,shown,before.2,window]
    dsimp only
    rw [after.2]
    rfl
  · dsimp only
    rw [after.2]
    exact nothingEnded c
  · dsimp only
    rw [after.1]
    exact List.nil_prefix
  · rw [left]
    rfl
  · intro disabled _
    dsimp only at disabled ⊢
    rw [output]
    exact off (window ▸ disabled)

theorem passesClear {next : FrmMain.Pc × Connection × FrmMain.Window} {s : ClientState} (nothing : untaken s = [])
    (output : next.2.1.serverOutput = []) (window : next.2.2.terminalOutput = s.window.terminalOutput)
    (before : s.form.undecrypted = []) (after : next.1.taken = [] ∧ next.1.undecrypted = [])
    (clearing : next.1 ≠ .clearOutput) :
    Passes c s {s with form := next.1,conn := next.2.1,window := next.2.2} := by
  have left : untaken {s with form := next.1,conn := next.2.1,window := next.2.2} = untaken s := by
    rw [whereIdle after.1,nothing,output]
  refine ⟨fun more => ?_,?_,?_,⟨[],?_⟩,clearing,fun _ _ => output⟩
  · rw [screenWith,screenWith,left,shown,before,window]
    dsimp only
    rw [after.2]
    rfl
  · dsimp only
    rw [after.2]
    exact nothingEnded c
  · dsimp only
    rw [after.1]
    exact List.nil_prefix
  · rw [left]
    rfl

theorem passesForm {sent : Bool} (reads : qt.ReadsUtf8) (displayed : Displayed c s memo) {socket : Int} {command : Bytes}
    (unhurried : Unhurried c socket (s,memo) (.window (.form sent) command))
    (act : clientAct qt c s.client (.form sent) = some client) : Passes c s.client client := by
  obtain ⟨text,ended,taken,whole,clearing,off⟩ := displayed
  have screen := screenStep reads act
  obtain ⟨next,moved,rfl⟩ := Option.map_eq_some_iff.mp act
  simp only [Unhurried] at unhurried
  cases at_ : s.client.form with
  | idle | stopped =>
    rw [at_] at moved
    cases moved
  | length =>
    rw [at_] at moved off
    cases moved
    refine passesOver rfl rfl (by rw [at_]; exact ⟨rfl,rfl⟩) ?_ ?_ fun disabled => off disabled (by simp)
    · dsimp only
      split <;> exact ⟨rfl,rfl⟩
    · dsimp only
      split <;> simp
  | take =>
    rw [at_] at moved off unhurried
    cases moved
    have left : untaken s.client = s.client.conn.serverOutput := whereIdle (by rw [at_]; rfl)
    have none : s.client.conn.serverOutput.drop s.client.conn.serverOutput.length = [] := List.drop_length
    dsimp only at unhurried
    refine ⟨fun more => ?_,unhurried.2,List.prefix_rfl,⟨s.client.conn.serverOutput,?_⟩,by simp,
      fun disabled _ => off disabled (by simp)⟩
    · have split : FrmMain.outputText c (s.client.conn.serverOutput ++ ahead s.client) =
          FrmMain.outputText c s.client.conn.serverOutput ++ FrmMain.outputText c (ahead s.client) := by
        rcases unhurried.1 with boundary | nothing
        · exact boundaryAppend boundary
        · rw [nothing,List.append_nil,outputNil,List.append_nil]
      simp only [screenWith,left,at_,split]
      simp only [untaken,FrmMain.Pc.taken,FrmMain.Pc.undecrypted,none,List.nil_append,outputNil]
      rfl
    · rw [left]
      simp only [untaken,FrmMain.Pc.taken,none,List.nil_append]
      rfl
  | decrypt taken' =>
    rw [at_] at moved ended taken
    cases moved
    have left : untaken s.client = s.client.conn.serverOutput.drop taken'.length := by
      rw [untaken,at_]
      rfl
    refine ⟨fun more => ?_,nothingEnded c,taken,⟨[],?_⟩,by simp,
      fun _ outside => (outside _ _ rfl).elim⟩
    · simp only [newText,at_,FrmMain.Pc.undecrypted] at screen
      have apart := Utf8.decodeEnded (show ¬ Utf8.EndsInside (FrmMain.outputText c taken') from ended)
        (FrmMain.outputText c (untaken s.client ++ ahead s.client) ++ more)
      rw [screenWith,screenWith,screen,reads,at_]
      simp only [FrmMain.Pc.undecrypted,outputNil,List.nil_append]
      rw [List.append_assoc (FrmMain.outputText c taken'),apart,left,List.append_assoc]
      rfl
    · rw [left]
      rfl
  | clear taken' ended =>
    rw [at_] at moved unhurried
    cases moved
    refine passesClear unhurried rfl rfl (by rw [at_]; rfl) ?_ ?_
    · dsimp only
      split <;> exact ⟨rfl,rfl⟩
    · dsimp only
      split <;> simp
  | setTransmissionEnd =>
    rw [at_] at moved off
    cases moved
    exact passesOver rfl rfl (by rw [at_]; exact ⟨rfl,rfl⟩) ⟨rfl,rfl⟩ (by simp) fun disabled => off disabled (by simp)
  | clearOutput =>
    have nothing : untaken s.client = [] := by
      rw [whereIdle (by rw [at_]; rfl)]
      exact (clearing at_).1
    rw [at_] at moved
    cases moved
    exact passesClear nothing rfl rfl (by rw [at_]; rfl) ⟨rfl,rfl⟩ (by simp)
  | send =>
    rw [at_] at moved off
    cases moved
    refine passesOver rfl rfl (by rw [at_]; exact ⟨rfl,rfl⟩) ?_ ?_ fun disabled => off disabled (by simp)
    · dsimp only
      split <;> exact ⟨rfl,rfl⟩
    · dsimp only
      split <;> simp
  | clearDisconnected =>
    rw [at_] at moved unhurried
    cases moved
    exact passesClear unhurried rfl rfl (by rw [at_]; rfl) ⟨rfl,rfl⟩ (by simp)
  | hangUp =>
    rw [at_] at moved off
    cases moved
    refine passesOver ?_ rfl (by rw [at_]; exact ⟨rfl,rfl⟩) ⟨rfl,rfl⟩ (by simp) fun disabled => off disabled (by simp)
    dsimp only
    split <;> rfl

theorem displayedArrives {r : Recv} {got : Received} {call : Call} {server : SlotState} (linked : Linked c s memo)
    (displayed : Displayed c s memo) (arrived : Arrival c s memo r upstream got) :
    Displayed c {s with upstream,server} {memo with
      read := memo.read ++ readOf r got
      exchanges := noteExchange memo.exchanges s.server (.client 0 (.received got)) call server} := by
  obtain ⟨text,ended,taken,whole,clearing,off⟩ := displayed
  have sends : answers (noteExchange memo.exchanges s.server (.client 0 (.received got)) call server) =
      answers memo.exchanges := by
    cases heard : heardText got <;> simp [noteExchange,heard,answers,RemoteTerminal.asked]
  refine ⟨by rw [sends]; exact text,ended,taken,fun asks => whole fun ended asked => ?_,clearing,off⟩
  cases arrived with
  | nothing left noted heard =>
    simp only [noted,List.append_nil,noteExchange,heard] at asks
    exact asks ended asked
  | message rest unread left noted heard =>
    have nothing : commandTexts (got.sPacket::rest) = [] := by
      rw [← unread]
      exact (List.append_eq_nil_iff.mp asked).1
    have silent : commandText got.sPacket = none := by
      cases text : commandText got.sPacket with
      | none => rfl
      | some p => simp [commandTexts,text] at nothing
    simp only [noted,noteExchange,heard,silent] at asks
    refine asks ended ?_
    rw [asking,(unreadRead _ linked.split unread).1]
    have later : commandTexts rest = [] := by simpa [commandTexts,silent] using nothing
    rw [later]
    exact (List.append_eq_nil_iff.mp asked).2

theorem aheadMore (s : ClientState) (more : Bytes) :
    ahead {s with network := s.network ++ more} = ahead s ++ more :=
  (List.append_assoc _ _ _).symm

theorem answersSilent (r : Result) (exchanges : List Exchange) {call : Call}
    (silent : ∀ there message, call ≠ .send there message) :
    answers (exchanges.modifyHead fun e => e.after r call) = answers exchanges ∧
      (AllEnded (exchanges.modifyHead fun e => e.after r call) ↔ AllEnded exchanges) := by
  have same (e : Exchange) : (e.after r call).sends = e.sends := by
    unfold Exchange.after
    split
    · rfl
    · rename_i there message _
      exact (silent there message rfl).elim
    · rfl
  cases exchanges with
  | nil => exact ⟨rfl,Iff.rfl⟩
  | cons e past => simp [answers,AllEnded,Exchange.ended,same]

theorem displayedServer {maxClients : Nat} {socket : Int} {label : SlotLabel} {call : Call} {server : SlotState}
    (displayed : Displayed c s memo) (conversation : Conversation s memo)
    (answering : Answering host (s.server,memo.exchanges)) (works : label.Working)
    (stays : s.server.slot.client = socket) (step : SlotStep host maxClients s.server label call server) :
    Displayed c {s with server,client.network := downstream c socket s.client.network call}
      {memo with exchanges := noteExchange memo.exchanges s.server label call server} := by
  obtain ⟨text,ended,taken,whole,clearing,off⟩ := displayed
  by_cases sends : ∃ there message, call = .send there message
  · obtain ⟨there,message,rfl⟩ := sends
    obtain ⟨noted,rfl⟩ := noteSends memo.exchanges works step
    have unended : ¬ AllEnded memo.exchanges := fun ended => (endedQuiet answering ended works step).2 _ _ rfl
    have boundary := whole fun ended => (unended ended).elim
    have asks : asking s memo = [] := by
      cases conversation with
      | asked p one ended quiet running offered => exact (unended ended).elim
      | answering none plain running offered => exact none
      | answered none ended rest => exact (unended ended).elim
    obtain ⟨e,past,exchanges⟩ : ∃ e past, memo.exchanges = e::past := by
      cases at_ : memo.exchanges with
      | nil => exact (unended (by rw [at_]; exact nofun)).elim
      | cons e past => exact ⟨e,past,rfl⟩
    have wire : FrmMain.outputText c (message.wire c) = message.text := by
      cases message with
      | frame text => exact frameText text
      | endOfTransmission => exact codeText
    rw [noted,downstream,if_pos stays,exchanges]
    refine ⟨fun more => ?_,ended,taken,fun still => ?_,clearing,off⟩
    · dsimp only
      rw [List.modifyHead_cons,answersAdds,plaintextsPush,← exchanges,List.append_assoc,← text (message.text ++ more)]
      rw [screenWith,screenWith,aheadMore,
        show untaken {s.client with network := s.client.network ++ message.wire c} = untaken s.client from rfl,
        ← List.append_assoc (untaken s.client),boundaryAppend boundary,wire]
      simp only [List.append_assoc]
      rfl
    · dsimp only
      rw [aheadMore,show untaken {s.client with network := s.client.network ++ message.wire c} = untaken s.client from rfl,
        ← List.append_assoc]
      cases message with
      | frame text => exact frameBoundary text
      | endOfTransmission =>
        refine (still ?_ asks).elim
        intro e' first
        cases first
        simp [Exchange.ended]
  · have silent : ∀ there message, call ≠ .send there message := fun there message same => sends ⟨there,message,same⟩
    obtain ⟨r,noted⟩ := noteWorking memo.exchanges s.server server call works
    obtain ⟨same,alike⟩ := answersSilent r memo.exchanges silent
    rw [noted,downstreamQuiet silent]
    exact ⟨by rw [same]; exact text,ended,taken,fun still => whole fun alone => still (alike.mpr alone),clearing,off⟩

theorem displayedStep (reads : qt.ReadsUtf8) {maxClients : Nat} {socket : Int} {t : Dialogue} {memo' : Transcript} {l : DialogueLabel} {call : Call}
    (conversing : Conversing c host (s,memo)) (displayed : Displayed c s memo)
    (attentive : Attentive c socket (s,memo) l) (h : DialogueStep qt c host maxClients socket s memo l call t memo') :
    Displayed c t memo' := by
  obtain ⟨linked,answering,conversation⟩ := conversing
  obtain ⟨turns,unhurried⟩ := attentive
  cases h with
  | @window l command client moved =>
    have unsent : ({memo with sent := memo.sent ++ []} : Transcript) = memo := by rw [List.append_nil]
    cases l with
    | recv r =>
      obtain ⟨closing,kept⟩ := conversationComing conversation
      obtain ⟨same,conn,form,window⟩ := recvKeeps closing kept moved
      have ahead' := recvAhead closing kept moved
      rw [show emitted s (.recv r) = [] from rfl,unsent]
      refine displayedListens displayed conversation form window ?_ (by rw [conn]) fun _ => by rw [conn]
      rw [ahead',untaken,untaken,conn,form]
    | run =>
      obtain ⟨-,form,window⟩ := runListens moved
      obtain ⟨same,grown,still⟩ := runAhead displayed.taken moved
      rw [show emitted s .run = [] from rfl,unsent]
      exact displayedListens displayed conversation form window same grown still
    | input i =>
      rw [show emitted s (.input i) = [] from rfl,unsent]
      exact displayedInput displayed conversation turns.2 moved
    | form sent => exact displayedPasses displayed linked.split moved (passesForm reads displayed unhurried moved)
  | arrives taken received step => exact displayedArrives linked displayed (arrival linked turns.1 taken received)
  | @server l label call server inside works step =>
    refine displayedServer displayed conversation answering works ?_ step
    cases l with
    | client r => exact unhurried
    | console k r => exact unhurried
    | window _ _ | arrives _ => cases inside

end

theorem opensDisplayed (c : Crypto) (socket : Int) (i : Nat) (d : ThreadData) (directory : Bytes) :
    Displayed c (dialogueOpens socket i d directory) silence :=
  ⟨fun _ => rfl,nothingEnded c,List.nil_prefix,fun _ => .inl rfl,nofun,fun _ _ => rfl⟩

structure AnswersShown (qt : Qt) (s : Dialogue × Transcript) : Prop where
  part : shown s.1.client <+: qt.fromStdString (plaintexts (answers s.2.exchanges))
  all : s.1.client.window.cancelEnabled = false → s.1.client.form = .idle →
    shown s.1.client = qt.fromStdString (plaintexts (answers s.2.exchanges))

theorem displayedShown {c : Crypto} {s : Dialogue × Transcript} (reads : qt.ReadsUtf8) (displayed : Displayed c s.1 s.2)
    (conversation : Conversation s.1 s.2) : AnswersShown qt s := by
  have text := displayed.text []
  rw [List.append_nil,← reads,screenWith] at text
  constructor
  · rw [← text]
    exact List.prefix_append _ _
  · intro off idle
    have none := displayed.off off (by rw [idle]; exact nofun)
    have nothing := comingAhead (conversationQuiet conversation (.inl off))
    have left : untaken s.1.client = [] := by rw [whereIdle (by rw [idle]; rfl),none]
    rw [left,nothing,idle] at text
    simpa [FrmMain.Pc.undecrypted,outputNil] using text

end RemoteTerminal
