import RemoteTerminal.Shown
import RemoteTerminal.Server.Settling

/-! That nobody is left waiting. While Cancel is enabled a command is on its way up, the
server is at work, an "EOT" is on its way down, or the flag is set with something for
`CheckMessages` to take. Each of them is someone's next step. -/
namespace RemoteTerminal
open ByteStrings LabelledRuns EntryTable

variable {qt : Qt}

def TCPClient.Pc.marks : TCPClient.Pc → Bool
  | .mark _ => true
  | _ => false

def CutsCode (r rest : Bytes) : Prop :=
  ∃ n ∈ [1,2], endTransmissionCode.take n <:+ r ∧ endTransmissionCode.drop n <+: rest

/- No message is dropped, no thread is wanting, and a cancel finds the thread it waits for. -/
def NewClient.Thread.unhindered (t : NewClient.Thread) (d : ThreadData) (r : Result) : Bool :=
  !drops d t.pc r && !(t.pc = .create && r = .failed) && !(t.pc = .cancel && t.newConsoleThread.isNone)

/- The connection is not lost or given up, no packet fills the array or ends inside an "EOT",
and `CheckMessages` does not take a packet that is only half noted. -/
def Unbroken (s : Dialogue × Transcript) : DialogueLabel → Prop
  | .window (.recv (.bytes r)) _ => r.length < packetSize ∧ ¬ CutsCode r (s.1.client.network.drop r.length)
  | .window (.recv .failed) _ | .window (.recv .closed) _ | .window (.input .disconnect) _ => False
  | .window (.form sent) _ => (s.1.client.form = .send → sent = true) ∧
      (s.1.client.form = .take → s.1.client.receiver.marks = false)
  | .arrives .failed | .arrives .closed => False
  | .client r => ∀ thread ∈ s.1.server.clients, thread.unhindered s.1.server.slot.console r = true
  | _ => True

instance (r rest : Bytes) : Decidable (CutsCode r rest) := by unfold CutsCode; infer_instance

instance (s : Dialogue × Transcript) : (l : DialogueLabel) → Decidable (Unbroken s l)
  | .window (.recv (.bytes _)) _ | .window (.form _) _ | .client _ => by dsimp only [Unbroken]; infer_instance
  | .window (.recv .failed) _ | .window (.recv .closed) _ | .window (.input .disconnect) _ | .arrives .failed
  | .arrives .closed => isFalse id
  | .window .run _ | .window (.input .checkMessages) _ | .window (.input .sendCommand) _
  | .window (.input .cancelCommand) _ | .arrives (.bytes _) | .console _ _ => isTrue trivial

def Smooth (c : Crypto) (socket : Int) (s : Dialogue × Transcript) (l : DialogueLabel) : Prop :=
  Attentive c socket s l ∧ Unbroken s l
instance (c : Crypto) (socket : Int) (s : Dialogue × Transcript) (l : DialogueLabel) :
    Decidable (Smooth c socket s l) := by unfold Smooth; infer_instance

def DialogueLabel.unasked : DialogueLabel → Bool
  | .window (.input _) _ | .window (.recv .failed) _ | .window (.recv .closed) _ | .arrives .failed
  | .arrives .closed => false
  | _ => true

structure Halted (qt : Qt) (c : Crypto) (host : Host) (maxClients : Nat) (socket : Int) (s : Dialogue) : Prop where
  still : ∀ l, l.unasked = true → (dialogueMachine qt c host maxClients socket).act s l = none
  nothing : s.client.conn.serverOutput = []

inductive EndAhead (s : ClientState) : Prop where
  | coming (p : Bytes) (plain : Plain (s.receiver.holds ++ p)) (network : s.network = p ++ endTransmissionCode)
  | arrived (p : Bytes) (plain : Plain p) (holds : s.receiver.holds = p ++ endTransmissionCode) (network : s.network = [])

structure Flagged (s : ClientState) : Prop where
  ended : s.conn.transmissionEnd = true
  output : s.conn.serverOutput ≠ []
  clearing : ∀ taken ended, s.form = .clear taken ended → untaken s ≠ []

inductive UnderWay (s : Dialogue) (memo : Transcript) : Prop where
  | asked (asks : asking s memo ≠ [])
  | working (busy : handled s.server + unended s.server ≠ 0)
  | ending (ahead : EndAhead s.client)
  | ended (flagged : Flagged s.client)

def FrmMain.Pc.talks : FrmMain.Pc → Bool
  | .clearDisconnected | .hangUp | .stopped => false
  | _ => true

def FrmMain.Pc.ends : FrmMain.Pc → Bool
  | .clear _ true | .setTransmissionEnd => true
  | _ => false

def TCPClient.Pc.listens : TCPClient.Pc → Bool
  | .overrun _ | .disconnect | .done => false
  | .append r | .mark r => !r.isEmpty
  | .receive => true

def Request (m : Bytes) : Prop := commandText m ≠ none ∨ m = [cancelCode]

def NewClient.Thread.attends (t : NewClient.Thread) : Bool := match t.pc with
  | .start | .createFailed | .finish false | .leave | .closeSocket | .freeSlot | .exit | .done => false
  | .join => t.newConsoleThread.isSome
  | _ => true

structure Steady (s : Dialogue) (memo : Transcript) : Prop where
  up : s.client.conn.isConnected = true
  talks : s.client.form.talks = true
  listens : s.client.receiver.listens = true
  marks : s.client.receiver.marks = true → untaken s.client ≠ []
  requests : ∀ m ∈ memo.unread, Request m
  outgoing : s.client.form.speaks = true → Request s.outgoing
  ends : s.client.window.cancelEnabled = true → s.client.form.ends = false
  off : s.client.window.cancelEnabled = false → s.client.conn.transmissionEnd = true → s.client.form.ends = true
  session : ∃ thread, s.server.clients = [thread] ∧ thread.attends = true
  begun : Begun s.server
  underWay : s.client.window.cancelEnabled = true → UnderWay s memo

theorem uncutCode {p r rest : Bytes} (joined : r ++ rest = p ++ endTransmissionCode) (uncut : ¬ CutsCode r rest) :
    (∃ q, p = r ++ q ∧ rest = q ++ endTransmissionCode) ∨ (r = p ++ endTransmissionCode ∧ rest = []) := by
  rcases List.append_eq_append_iff.mp joined with before | ⟨b,rfl,code⟩
  · exact .inl before
  · have cut : ∀ n ∈ [1,2], b ≠ endTransmissionCode.take n := by
      intro n mem same
      have split := (List.take_append_drop n endTransmissionCode).trans code
      rw [← same] at split
      have behind := List.append_cancel_left split
      exact uncut ⟨n,mem,same ▸ List.suffix_append _ _,behind ▸ List.prefix_rfl⟩
    have front : b = endTransmissionCode.take b.length := by
      rw [code,List.take_left]
    have short : b.length ≤ 3 := by
      have size := congrArg List.length code
      rw [List.length_append,show endTransmissionCode.length = 3 from by decide] at size
      omega
    obtain none | one | two | three : b.length = 0 ∨ b.length = 1 ∨ b.length = 2 ∨ b.length = 3 := by omega
    · rw [List.length_eq_zero_iff.mp none] at code ⊢
      exact .inl ⟨[],by simp,by simpa using code.symm⟩
    · exact (cut 1 (by simp) (one ▸ front)).elim
    · exact (cut 2 (by simp) (two ▸ front)).elim
    · rw [three,show endTransmissionCode.take 3 = endTransmissionCode from by decide] at front
      rw [front] at code ⊢
      exact .inr ⟨rfl,by simpa using code⟩

section
variable {c : Crypto} {s t : ClientState} {r : Bytes}

theorem recvTakes (closing : Closing (coming s)) (kept : coming s = [] ∨ s.conn.transmissionEnd = false)
    (short : r.length < packetSize) (act : clientAct qt c s (.recv (.bytes r)) = some t) :
    s.receiver = .receive ∧ t.receiver = .append r ∧ r ≠ [] ∧ r ++ t.network = s.network := by
  simp only [clientAct] at act
  split at act <;> try contradiction
  rename_i waiting
  obtain ⟨network,taken,rfl⟩ := Option.map_eq_some_iff.mp act
  obtain ⟨positive,joined⟩ := fromNetworkBytes taken
  have whole : coming s = r ++ network := by rw [coming,waiting,joined]; rfl
  have nonempty : r ≠ [] := List.length_pos_iff.mp positive
  have running : s.conn.transmissionEnd = false := by
    rcases kept with quiet | running
    · exact (nonempty (List.append_eq_nil_iff.mp (whole.symm.trans quiet)).1).elim
    · exact running
  have clean : 0 ∉ r := fun mem => closing.clean (whole ▸ List.mem_append_left _ mem)
  refine ⟨waiting,?_,nonempty,joined⟩
  simp [TCPClient.afterReceive,running,assignShort clean short,positive]

theorem endAheadSame (holds : t.receiver.holds = s.receiver.holds) (network : t.network = s.network)
    (ahead : EndAhead s) : EndAhead t := by
  cases ahead with
  | coming p plain left => exact .coming p (holds ▸ plain) (network.trans left)
  | arrived p plain held none => exact .arrived p plain (holds.trans held) (network.trans none)

theorem recvEndAhead (closing : Closing (coming s)) (kept : coming s = [] ∨ s.conn.transmissionEnd = false)
    (short : r.length < packetSize) (uncut : ¬ CutsCode r (s.network.drop r.length))
    (act : clientAct qt c s (.recv (.bytes r)) = some t) (ahead : EndAhead s) : EndAhead t := by
  obtain ⟨waiting,taken,nonempty,joined⟩ := recvTakes closing kept short act
  have rest : s.network.drop r.length = t.network := by rw [← joined,List.drop_left]
  have holds : t.receiver.holds = r := by rw [taken]; rfl
  rw [rest] at uncut
  cases ahead with
  | coming p plain network =>
    rw [waiting] at plain
    rcases uncutCode (joined.trans network) uncut with ⟨q,rfl,left⟩ | ⟨whole,none⟩
    · exact .coming q (holds ▸ plain) left
    · exact .arrived p plain (holds.trans whole) none
  | arrived p plain held network =>
    rw [network,List.append_eq_nil_iff] at joined
    exact (nonempty joined.1).elim

theorem runMoves (listens : s.receiver.listens = true) (act : clientAct qt c s .run = some t) :
    (∃ p, s.receiver = .append p ∧ p ≠ [] ∧ t.receiver = .mark p ∧ t.network = s.network ∧
      t.conn = {s.conn with serverOutput := s.conn.serverOutput ++ p}) ∨
    (∃ p, s.receiver = .mark p ∧ p ≠ [] ∧ t.receiver = .receive ∧ t.network = s.network ∧
      t.conn = {s.conn with transmissionEnd := contains p endTransmissionCode}) := by
  obtain ⟨next,moved,rfl⟩ := Option.map_eq_some_iff.mp act
  cases at_ : s.receiver with
  | append p =>
    rw [at_] at moved listens
    cases moved
    exact .inl ⟨p,rfl,by simpa [TCPClient.Pc.listens] using listens,rfl,rfl,rfl⟩
  | mark p =>
    rw [at_] at moved listens
    cases moved
    exact .inr ⟨p,rfl,by simpa [TCPClient.Pc.listens] using listens,rfl,rfl,rfl⟩
  | receive | overrun r | done =>
    rw [at_] at moved
    cases moved
  | disconnect =>
    rw [at_] at listens
    cases listens

end

section
variable {c : Crypto} {host : Host} {s : Dialogue} {memo : Transcript} {client : ClientState} {upstream : Bytes}

theorem steadyListens (steady : Steady s memo) (form : client.form = s.client.form)
    (window : client.window = s.client.window) (up : client.conn.isConnected = true)
    (listens : client.receiver.listens = true) (marks : client.receiver.marks = true → untaken client ≠ [])
    (off : client.window.cancelEnabled = false → client.conn.transmissionEnd = true → client.form.ends = true)
    (ending : EndAhead s.client → EndAhead client ∨ Flagged client) (ended : Flagged s.client → Flagged client) :
    Steady {s with client,upstream} memo := by
  have same : asking {s with client,upstream} memo = asking s memo := by simp only [asking,pendingCommand,form]
  refine ⟨up,by dsimp only; rw [form]; exact steady.talks,listens,marks,steady.requests,?_,?_,off,steady.session,
    steady.begun,fun on => ?_⟩
  · dsimp only
    rw [form]
    exact steady.outgoing
  · dsimp only
    rw [form,window]
    exact steady.ends
  · dsimp only at on
    rw [window] at on
    cases steady.underWay on with
    | asked asks => exact .asked (same ▸ asks)
    | working busy => exact .working busy
    | ending ahead =>
      rcases ending ahead with still | flagged
      · exact .ending still
      · exact .ended flagged
    | ended flagged => exact .ended (ended flagged)

theorem steadyRecv {r : Recv} {command : Bytes} (steady : Steady s memo) (conversation : Conversation s memo)
    (unbroken : Unbroken (s,memo) (.window (.recv r) command)) (act : clientAct qt c s.client (.recv r) = some client) :
    Steady {s with client,upstream} memo := by
  obtain ⟨closing,kept⟩ := conversationComing conversation
  obtain ⟨-,conn,form,window⟩ := recvKeeps closing kept act
  cases r with
  | failed | closed => exact unbroken.elim
  | bytes r =>
    obtain ⟨short,uncut⟩ := unbroken
    obtain ⟨-,taken,nonempty,-⟩ := recvTakes closing kept short act
    refine steadyListens steady form window (conn ▸ steady.up) ?_ ?_ ?_ ?_ ?_
    · simpa [taken,TCPClient.Pc.listens] using nonempty
    · simp [taken,TCPClient.Pc.marks]
    · rw [window,conn,form]
      exact steady.off
    · exact fun ahead => .inl (recvEndAhead closing kept short uncut act ahead)
    · intro flagged
      obtain ⟨ended,output,clearing⟩ := flagged
      refine ⟨conn ▸ ended,conn ▸ output,fun taken ended at_ => ?_⟩
      rw [untaken,conn,form]
      exact clearing taken ended (form ▸ at_)

theorem steadyRun (steady : Steady s memo) (conversation : Conversation s memo)
    (taken : s.client.form.taken <+: s.client.conn.serverOutput) (act : clientAct qt c s.client .run = some client) :
    Steady {s with client,upstream} memo := by
  obtain ⟨-,form,window⟩ := runListens act
  obtain ⟨closing,kept⟩ := conversationComing conversation
  rcases runMoves steady.listens act with ⟨p,at_,some,next,network,conn⟩ | ⟨p,at_,some,next,network,conn⟩
  · have grown : untaken client = untaken s.client ++ p := by
      rw [untaken,form,conn]
      exact List.drop_append_of_le_length taken.length_le
    have fresh : untaken client ≠ [] := by simp [grown,some]
    have holds : client.receiver.holds = s.client.receiver.holds := by rw [next,at_]; rfl
    refine steadyListens steady form window (by rw [conn]; exact steady.up) ?_ (fun _ => fresh) ?_
      (fun ahead => .inl (endAheadSame holds network ahead)) ?_
    · simpa [next,TCPClient.Pc.listens] using some
    · rw [window,conn,form]
      exact steady.off
    · intro flagged
      refine ⟨by rw [conn]; exact flagged.ended,?_,fun _ _ _ => fresh⟩
      simp [conn,some]
  · -- the flag is not cleared here: behind an "EOT" nothing comes
    have holds : s.client.receiver.holds = p := by rw [at_]; rfl
    have running : s.client.conn.transmissionEnd = false := by
      rcases kept with quiet | running
      · rw [coming,holds,List.append_eq_nil_iff] at quiet
        exact (some quiet.1).elim
      · exact running
    have left : untaken client = untaken s.client := by rw [untaken,untaken,form,conn]
    have fresh : untaken s.client ≠ [] := steady.marks (by rw [at_]; rfl)
    refine steadyListens steady form window (by rw [conn]; exact steady.up) (by rw [next]; rfl) (by simp [next,TCPClient.Pc.marks])
      ?_ ?_ ?_
    · intro disabled _
      rw [window] at disabled
      have quiet := conversationQuiet conversation (.inl disabled)
      rw [coming,holds,List.append_eq_nil_iff] at quiet
      exact (some quiet.1).elim
    · intro ahead
      cases ahead with
      | coming q plain left =>
        refine .inl (.coming q ?_ (network.trans left))
        rw [next]
        exact (plainAppend.mp plain).2
      | arrived q plain held none =>
        refine .inr ⟨?_,?_,fun _ _ _ => left ▸ fresh⟩
        · rw [conn]
          exact decide_eq_true ⟨q,[],by rw [← holds,held,List.append_nil]⟩
        · rw [conn]
          intro empty
          dsimp only at empty
          exact fresh (by rw [untaken,empty,List.drop_nil])
    · intro flagged
      cases running.symm.trans flagged.ended

theorem commandRequest (p : Bytes) : Request (messageCode::p) := by
  left
  simp [commandText,branch]

theorem callSteady {conn : Connection} {window : FrmMain.Window} {i : FrmMain.Input} {form : FrmMain.Pc}
    (outgoing command : Bytes) (up : conn.isConnected = true) (stays : i ≠ .disconnect)
    (starts : FrmMain.start conn window i = some form) :
    form.talks = true ∧ form.ends = false ∧ (∀ taken ended, form ≠ .clear taken ended) ∧
      (form.speaks = true → Request (composed outgoing command (.input i))) := by
  cases i with
  | checkMessages =>
    cases starts
    rw [if_pos up]
    exact ⟨rfl,rfl,by simp,by simp [FrmMain.Pc.speaks]⟩
  | sendCommand =>
    cases starts
    split <;> exact ⟨rfl,rfl,by simp,fun _ => commandRequest command⟩
  | cancelCommand =>
    simp only [FrmMain.start] at starts
    split at starts <;> try contradiction
    cases starts
    split <;> exact ⟨rfl,rfl,by simp,fun _ => .inr rfl⟩
  | disconnect => exact (stays rfl).elim

theorem steadyInput {i : FrmMain.Input} {command : Bytes} (steady : Steady s memo)
    (waits : Waits (s,memo) (.window (.input i) command)) (unbroken : Unbroken (s,memo) (.window (.input i) command))
    (act : clientAct qt c s.client (.input i) = some client) :
    Steady {s with client,outgoing := composed s.outgoing command (.input i),upstream} memo := by
  have stays : i ≠ .disconnect := by
    rintro rfl
    exact unbroken
  simp only [clientAct] at act
  split at act <;> try contradiction
  rename_i idle
  obtain ⟨form,starts,rfl⟩ := Option.map_eq_some_iff.mp act
  obtain ⟨talks,ends,between,request⟩ := callSteady s.outgoing command steady.up stays starts
  obtain ⟨taken,-,asks⟩ := callStarts s.outgoing command starts
  have left : untaken {s.client with form} = untaken s.client := by
    rw [whereIdle taken,whereIdle (by rw [idle]; rfl)]
  refine ⟨steady.up,talks,steady.listens,fun marks => ?_,steady.requests,request,fun _ => ends,fun off ended => ?_,
    steady.session,steady.begun,fun on => ?_⟩
  · dsimp only at marks ⊢
    rw [left]
    exact steady.marks marks
  · have still := steady.off off ended
    rw [idle] at still
    cases still
  · obtain ⟨-,rfl,-⟩ | ⟨-,quietly⟩ := asks
    · have disabled : s.client.window.cancelEnabled = false := waits
      cases disabled.symm.trans on
    · cases steady.underWay on with
      | asked asks =>
        rw [idleAsks memo idle] at asks
        exact .asked fun none => asks (List.append_eq_nil_iff.mp none).1
      | working busy => exact .working busy
      | ending ahead => exact .ending (endAheadSame (s := s.client) rfl rfl ahead)
      | ended flagged => exact .ended ⟨flagged.ended,flagged.output,fun taken ended at_ => (between taken ended at_).elim⟩

structure FormGoes (s t : ClientState) : Prop where
  up : t.conn.isConnected = true
  talks : t.form.talks = true
  marks : t.receiver.marks = true → untaken t ≠ []
  ends : t.window.cancelEnabled = true → t.form.ends = false
  off : t.window.cancelEnabled = false → t.conn.transmissionEnd = true → t.form.ends = true
  kept : t.window.cancelEnabled = true → s.form ≠ .clearOutput →
    s.window.cancelEnabled = true ∧ (Flagged s → Flagged t)

theorem formPasses {pc : FrmMain.Pc} (steady : Steady s memo) (before : s.client.form.taken = [])
    (running : s.client.form.ends = false) (after : pc.taken = []) (talks : pc.talks = true) (ends : pc.ends = false)
    (between : ∀ taken ended, pc ≠ .clear taken ended) : FormGoes s.client {s.client with form := pc} := by
  refine ⟨steady.up,talks,fun marks => ?_,fun _ => ends,fun disabled ended => ?_,fun on _ => ⟨on,fun flagged => ?_⟩⟩
  · have left : untaken {s.client with form := pc} = untaken s.client := by rw [whereIdle after,whereIdle before]
    rw [left]
    exact steady.marks marks
  · cases running.symm.trans (steady.off disabled ended)
  · exact ⟨flagged.ended,flagged.output,fun taken ended at_ => (between taken ended at_).elim⟩

theorem formGoes {socket : Int} {sent : Bool} {command : Bytes} (steady : Steady s memo) (displayed : Displayed c s memo)
    (unhurried : Unhurried c socket (s,memo) (.window (.form sent) command))
    (unbroken : Unbroken (s,memo) (.window (.form sent) command)) (act : clientAct qt c s.client (.form sent) = some client) :
    FormGoes s.client client := by
  obtain ⟨next,moved,rfl⟩ := Option.map_eq_some_iff.mp act
  have talks := steady.talks
  obtain ⟨sends,early⟩ := unbroken
  simp only [Unhurried] at unhurried
  cases at_ : s.client.form with
  | idle | stopped =>
    rw [at_] at moved
    cases moved
  | clearDisconnected | hangUp =>
    rw [at_] at talks
    cases talks
  | length =>
    rw [at_] at moved
    cases moved
    refine formPasses steady (by rw [at_]; rfl) (by rw [at_]; rfl) ?_ ?_ ?_ ?_
    all_goals dsimp only
    all_goals split
    all_goals simp [FrmMain.Pc.taken,FrmMain.Pc.talks,FrmMain.Pc.ends]
  | send =>
    rw [at_] at moved
    cases sends at_
    cases moved
    exact formPasses steady (by rw [at_]; rfl) (by rw [at_]; rfl) rfl rfl rfl (by simp)
  | take =>
    rw [at_] at moved
    cases moved
    refine ⟨steady.up,rfl,fun marks => ?_,fun _ => rfl,fun disabled ended => ?_,fun on _ => ⟨on,fun flagged => ?_⟩⟩
    · cases (early at_).symm.trans marks
    · have still := steady.off disabled ended
      rw [at_] at still
      cases still
    · exact ⟨flagged.ended,flagged.output,by simp⟩
  | decrypt taken =>
    rw [at_] at moved
    cases moved
    have left : untaken s.client = s.client.conn.serverOutput.drop taken.length := by
      rw [untaken,at_]
      rfl
    refine ⟨steady.up,rfl,fun marks => ?_,fun on => ?_,fun _ ended => ?_,fun on _ => ?_⟩
    · have fresh := steady.marks marks
      rwa [left] at fresh
    · cases running : s.client.conn.transmissionEnd with
      | false => rfl
      | true => simp [running] at on
    · dsimp only at ended ⊢
      rw [ended]
      rfl
    · cases running : s.client.conn.transmissionEnd with
      | false =>
        simp only [running,Bool.false_eq_true,if_false] at on
        refine ⟨on,fun flagged => ?_⟩
        cases running.symm.trans flagged.ended
      | true => simp [running] at on
  | clear taken ended =>
    have fresh := steady.marks
    rw [at_] at moved unhurried
    cases moved
    dsimp only at unhurried
    refine ⟨steady.up,?_,fun marks => (fresh marks unhurried).elim,fun on => ?_,fun disabled flag => ?_,
      fun on _ => ⟨on,fun flagged => (flagged.clearing taken ended at_ unhurried).elim⟩⟩
    · dsimp only
      split <;> rfl
    · have running := steady.ends on
      rw [at_] at running
      cases ended with
      | false => rfl
      | true => cases running
    · have still := steady.off disabled flag
      rw [at_] at still
      cases ended with
      | false => cases still
      | true => rfl
  | setTransmissionEnd =>
    have never : s.client.window.cancelEnabled ≠ true := by
      intro on
      have running := steady.ends on
      rw [at_] at running
      cases running
    have left : untaken s.client = s.client.conn.serverOutput := whereIdle (by rw [at_]; rfl)
    rw [at_] at moved
    cases moved
    refine ⟨steady.up,rfl,fun marks => ?_,fun _ => rfl,fun _ flag => ?_,fun on => (never on).elim⟩
    · have fresh := steady.marks marks
      rwa [left] at fresh
    · cases flag
  | clearOutput =>
    have nothing : untaken s.client = [] := by
      rw [whereIdle (by rw [at_]; rfl)]
      exact (displayed.clearing at_).1
    have fresh := steady.marks
    rw [at_] at moved
    cases moved
    refine ⟨steady.up,rfl,fun marks => (fresh marks nothing).elim,fun _ => rfl,fun disabled => ?_,fun _ other => ?_⟩
    · cases disabled
    · exact (other at_).elim

theorem emittedRequests {sent : Bool} (steady : Steady s memo) : ∀ m ∈ emitted s (.form sent), Request m := by
  intro m mem
  cases sent with
  | false => cases mem
  | true =>
    have talks := steady.talks
    have request := steady.outgoing
    cases at_ : s.client.form with
    | send =>
      rw [emitted,at_] at mem
      rw [at_] at request
      rw [List.mem_singleton.mp mem]
      exact request rfl
    | hangUp =>
      rw [at_] at talks
      cases talks
    | _ =>
      rw [emitted,at_] at mem
      cases mem

theorem formAsks {sent : Bool} (split : memo.read ++ memo.unread = memo.sent) (sends : s.client.form = .send → sent = true)
    (act : clientAct qt c s.client (.form sent) = some client) :
    asking {s with client,upstream} {memo with sent := memo.sent ++ emitted s (.form sent)} = asking s memo := by
  obtain ⟨next,moved,rfl⟩ := Option.map_eq_some_iff.mp act
  have speaks := stepSpeaks moved
  simp only [asking,unreadSent _ split,commandTextsAppend,emittedCommands,pendingCommand,speaks,decide_eq_true_eq]
  cases at_ : s.client.form with
  | send => simp [sends at_,FrmMain.Pc.speaks]
  | _ => simp [FrmMain.Pc.speaks]

theorem steadyForm {socket : Int} {sent : Bool} {command : Bytes} (steady : Steady s memo) (displayed : Displayed c s memo)
    (split : memo.read ++ memo.unread = memo.sent) (unhurried : Unhurried c socket (s,memo) (.window (.form sent) command))
    (unbroken : Unbroken (s,memo) (.window (.form sent) command)) (act : clientAct qt c s.client (.form sent) = some client) :
    Steady {s with client,upstream} {memo with sent := memo.sent ++ emitted s (.form sent)} := by
  obtain ⟨receiver,network,-⟩ := formMoves act
  obtain ⟨up,talks,marks,ends,off,kept⟩ := formGoes steady displayed unhurried unbroken act
  have asks : asking {s with client,upstream} {memo with sent := memo.sent ++ emitted s (.form sent)} = asking s memo :=
    formAsks split unbroken.1 act
  refine ⟨up,talks,?_,marks,fun m mem => ?_,fun speaks => ?_,ends,off,steady.session,steady.begun,fun on => ?_⟩
  · dsimp only
    rw [receiver]
    exact steady.listens
  · rw [unreadSent _ split] at mem
    rcases List.mem_append.mp mem with old | new
    · exact steady.requests m old
    · exact emittedRequests steady m new
  · refine steady.outgoing ?_
    obtain ⟨next,moved,rfl⟩ := Option.map_eq_some_iff.mp act
    have clearing := of_decide_eq_true ((stepSpeaks moved).symm.trans speaks)
    rw [clearing]
    rfl
  · by_cases clearing : s.client.form = .clearOutput
    · have pending := (displayed.clearing clearing).2
      refine .asked ?_
      rw [asks]
      exact fun none => pending (List.append_eq_nil_iff.mp none).2
    · obtain ⟨before,flagged⟩ := kept on clearing
      cases steady.underWay before with
      | asked some => exact .asked (asks ▸ some)
      | working busy => exact .working busy
      | ending ahead => exact .ending (endAheadSame (by rw [receiver]) network ahead)
      | ended still => exact .ended (flagged still)

end

theorem requestBranch {m : Bytes} (request : Request m) :
    (∃ p, branch m = .message p ∧ commandText m = some p) ∨ branch m = .cancel ∧ commandText m = none := by
  rcases request with command | rfl
  · obtain ⟨p,text⟩ := Option.ne_none_iff_exists'.mp command
    refine .inl ⟨p,?_,text⟩
    unfold commandText at text
    split at text
    · rename_i q same
      cases text
      exact same
    · cases text
  · exact .inr ⟨by decide,cancelNoCommand⟩

theorem clientAttends {host t s r call t' s'} (h : NewClient.Steps host t s r call t' s') (attends : t.attends = true)
    (unhindered : t.unhindered s.console r = true) (working : r.isReceived = false) : t'.attends = true := by
  cases h with
  | readMessage at_ open_ message | readCancel at_ open_ cancel | readOther at_ open_ other | readEnd at_ ends =>
    cases working
  | abandoned at_ | createFailed at_ | leaveInvalid at_ invalid | shutDown at_ valid | notShutDown at_ valid
  | closeSocket at_ | freeSlot at_ | exit at_ =>
    rw [NewClient.Thread.attends,at_] at attends
    cases attends
  | notCreated at_ => simp [NewClient.Thread.unhindered,at_] at unhindered
  | cancel at_ =>
    simp only [NewClient.Thread.unhindered,at_] at unhindered
    cases handle : t.newConsoleThread with
    | none => simp [handle] at unhindered
    | some k => simp [NewClient.Thread.attends]
  | _ => rfl

theorem readsRequest {host t s got call t' s'} (h : NewClient.Steps host t s (.received got) call t' s')
    (open_ : got.bytesReceived ≠ 0) (request : Request got.sPacket) : t.pc.handling = 0 ∧ t'.attends = true ∧
      t'.pc.handling = (commandText got.sPacket).toList.length := by
  have branches := requestBranch request
  cases h with
  | readMessage at_ _ message =>
    rcases branches with ⟨p,-,text⟩ | ⟨cancel,-⟩
    · exact ⟨by rw [at_]; rfl,rfl,by rw [text]; rfl⟩
    · cases message.symm.trans cancel
  | readCancel at_ _ cancel =>
    rcases branches with ⟨p,message,-⟩ | ⟨-,text⟩
    · cases message.symm.trans cancel
    · exact ⟨by rw [at_]; rfl,rfl,by rw [text]; rfl⟩
  | readOther at_ _ other =>
    rcases branches with ⟨p,message,-⟩ | ⟨cancel,-⟩
    · cases message.symm.trans other
    · cases cancel.symm.trans other
  | readEnd at_ ends =>
    rcases ends with none | closes | rejects
    · exact (open_ none).elim
    all_goals rcases branches with ⟨p,message,-⟩ | ⟨cancel,-⟩
    · cases message.symm.trans closes
    · cases cancel.symm.trans closes
    · cases message.symm.trans rejects
    · cases cancel.symm.trans rejects
  | returnDirectory at_ outcome => simp at outcome

theorem workAccount {host : Host} {maxClients : Nat} {s s' : SlotState} {l : SlotLabel} {call : Call} (works : l.Working)
    (kept : ∀ t r, l = .client t r → ∀ thread ∈ s.clients, thread.unhindered s.slot.console r = true)
    (step : SlotStep host maxClients s l call s') : handled s + unended s = handled s' + unended s' + call.ends := by
  cases step with
  | listen step | start => cases works
  | @client t r thread call next slot here step noThread joined =>
    have account := clientAccount step noThread
    have moved := tallySet (b := next) (fun t => t.pc.handling) here
    have goes := kept t r rfl thread (List.mem_of_getElem? here)
    simp only [NewClient.Thread.unhindered,Bool.and_eq_true,Bool.not_eq_true'] at goes
    have read : readsMessage r = false := by
      cases r with
      | received got => cases works
      | _ => rfl
    simp only [read,goes.1.1,Bool.toNat_false] at account
    simp only [handled,unended]
    omega
  | @created t thread here at_ =>
    have moved := tallySet
      (b := {thread with pc := NewClient.Pc.receive,newConsoleThread := some s.consoles.length}) (fun t => t.pc.handling) here
    have pushed := tallyPush (l := s.consoles) (a := NewConsole.created thread.socketID) fun c => c.pc.unended
    have before : thread.pc.handling = 1 := by rw [at_]; rfl
    have one : (NewConsole.created thread.socketID).pc.unended = 1 := rfl
    have after : NewClient.Pc.receive.handling = 0 := rfl
    simp only [handled,unended,Call.ends] at moved ⊢
    omega
  | @console k r thread call next slot here step =>
    have account := (consoleAccount step).1
    have moved := tallySet (b := next) (fun c => c.pc.unended) here
    simp only [handled,unended]
    omega

theorem endsCode {call : Call} (ends : call.ends ≠ 0) : ∃ there, call = .send there .endOfTransmission := by
  unfold Call.ends at ends
  split at ends
  · exact ⟨_,rfl⟩
  · exact (ends rfl).elim

theorem sessionWorks {host : Host} {maxClients : Nat} {s s' : SlotState} {l : SlotLabel} {call : Call} (works : l.Working)
    (kept : ∀ t r, l = .client t r → ∀ thread ∈ s.clients, thread.unhindered s.slot.console r = true)
    (step : SlotStep host maxClients s l call s')
    (session : ∃ thread, s.clients = [thread] ∧ thread.attends = true) :
    ∃ thread, s'.clients = [thread] ∧ thread.attends = true := by
  obtain ⟨thread,alone,attends⟩ := session
  cases step with
  | listen step | start => cases works
  | @client t r thread' call next slot here step noThread joined =>
    rw [alone] at here kept
    cases t with
    | zero =>
      cases Option.some.inj here
      have working : r.isReceived = false := works
      exact ⟨next,by rw [alone]; rfl,clientAttends step attends (kept 0 r rfl thread List.mem_cons_self) working⟩
    | succ t => cases here
  | @created t thread' here at_ =>
    rw [alone] at here
    cases t with
    | zero => exact ⟨_,by rw [alone]; rfl,rfl⟩
    | succ t => cases here
  | console here step => exact ⟨thread,alone,attends⟩

section
variable {c : Crypto} {host : Host} {maxClients : Nat} {socket : Int} {s : Dialogue} {memo : Transcript}

theorem codeNotPlain {p : Bytes} (plain : Plain (p ++ endTransmissionCode)) : False := by
  have found : contains (p ++ endTransmissionCode) endTransmissionCode = true :=
    decide_eq_true ⟨p,[],List.append_nil _⟩
  cases (plainNoEnd plain).symm.trans found

theorem aheadEnded (conversation : Conversation s memo) (ahead : EndAhead s.client) : AllEnded memo.exchanges := by
  obtain ⟨p,whole⟩ : ∃ p, coming s.client = p ++ endTransmissionCode := by
    cases ahead with
    | coming p plain network => exact ⟨s.client.receiver.holds ++ p,by rw [coming,network,List.append_assoc]⟩
    | arrived p plain holds network => exact ⟨p,by rw [coming,holds,network,List.append_nil]⟩
  cases conversation with
  | asked q one ended quiet running offered => exact ended
  | answering none plain running offered =>
    rw [whole] at plain
    exact (codeNotPlain plain).elim
  | answered none ended rest => exact ended

theorem steadyServer {label : SlotLabel} {call : Call} {server : SlotState} (steady : Steady s memo)
    (conversation : Conversation s memo) (answering : Answering host (s.server,memo.exchanges)) (works : label.Working)
    (kept : ∀ t r, label = .client t r → ∀ thread ∈ s.server.clients, thread.unhindered s.server.slot.console r = true)
    (stays : s.server.slot.client = socket) (step : SlotStep host maxClients s.server label call server) :
    Steady {s with server,client.network := downstream c socket s.client.network call}
      {memo with exchanges := noteExchange memo.exchanges s.server label call server} := by
  refine ⟨steady.up,steady.talks,steady.listens,steady.marks,steady.requests,steady.outgoing,steady.ends,steady.off,
    sessionWorks works kept step steady.session,begunStep steady.begun step,fun on => ?_⟩
  cases steady.underWay on with
  | asked asks => exact .asked asks
  | working busy =>
    have account := workAccount works kept step
    by_cases ends : call.ends = 0
    · refine .working fun none => busy ?_
      rw [account,ends]
      exact none
    · obtain ⟨there,rfl⟩ := endsCode ends
      obtain ⟨-,rfl⟩ := noteSends memo.exchanges works step
      have plain : Plain (coming s.client) := by
        cases conversation with
        | answering none plain running offered => exact plain
        | asked p one ended quiet running offered => exact (busy (endedAlone answering ended)).elim
        | answered none ended rest => exact (busy (endedAlone answering ended)).elim
      refine .ending (.coming s.client.network plain ?_)
      exact if_pos stays
  | ending ahead =>
    have silent := (endedQuiet answering (aheadEnded conversation ahead) works step).2
    rw [downstreamQuiet silent]
    exact .ending ahead
  | ended flagged => exact .ended ⟨flagged.ended,flagged.output,flagged.clearing⟩

theorem steadyArrives {r : Recv} {upstream : Bytes} {got : Received} {call : Call} {server : SlotState}
    (linked : Linked c s memo) (steady : Steady s memo) (aligned : Aligned c (s,memo) (.arrives r))
    (unbroken : Unbroken (s,memo) (.arrives r)) (taken : fromNetwork s.upstream r = some upstream)
    (received : receive c r = some got)
    (step : SlotStep host maxClients s.server (.client 0 (.received got)) call server) :
    Steady {s with upstream,server} {memo with
      read := memo.read ++ readOf r got
      exchanges := noteExchange memo.exchanges s.server (.client 0 (.received got)) call server} := by
  cases r with
  | failed | closed => exact unbroken.elim
  | bytes r =>
    obtain ⟨rest,unread,-,open_⟩ := alignedReceives linked aligned taken received
    have later := fun exchanges => (unreadRead exchanges linked.split unread).1
    have request : Request got.sPacket := steady.requests _ (by rw [unread]; exact List.mem_cons_self)
    obtain ⟨thread,alone,-⟩ := steady.session
    have begun := begunStep steady.begun step
    cases step with
    | @client t r' thread' call next slot here step noThread joined =>
      rw [alone] at here
      cases Option.some.inj here
      obtain ⟨waits,attends,handles⟩ := readsRequest step open_ request
      refine ⟨steady.up,steady.talks,steady.listens,steady.marks,fun m mem => ?_,steady.outgoing,steady.ends,steady.off,
        ⟨next,by rw [alone]; rfl,attends⟩,begun,fun on => ?_⟩
      · simp only [readOf] at mem
        rw [later] at mem
        exact steady.requests m (by rw [unread]; exact List.mem_cons_of_mem _ mem)
      · have same : handled ⟨slot,s.server.clients.set 0 next,s.server.consoles⟩ =
            handled s.server + (commandText got.sPacket).toList.length := by
          simp [handled,alone,tally,waits,handles]
        cases text : commandText got.sPacket with
        | some p =>
          refine .working ?_
          dsimp only
          rw [same,text,Option.toList_some,List.length_singleton]
          omega
        | none =>
          cases steady.underWay on with
          | asked asks =>
            refine .asked fun nothing => asks ?_
            simp only [readOf,asking] at nothing
            rw [later] at nothing
            obtain ⟨left,pending⟩ := List.append_eq_nil_iff.mp nothing
            refine List.append_eq_nil_iff.mpr ⟨?_,pending⟩
            rw [unread]
            simpa [commandTexts,text] using left
          | working busy =>
            refine .working ?_
            dsimp only
            rw [same,text]
            exact busy
          | ending ahead => exact .ending ahead
          | ended flagged => exact .ended flagged

theorem steadyStep {t : Dialogue} {memo' : Transcript} {l : DialogueLabel} {call : Call}
    (conversing : Conversing c host (s,memo)) (displayed : Displayed c s memo) (steady : Steady s memo)
    (smooth : Smooth c socket (s,memo) l) (h : DialogueStep qt c host maxClients socket s memo l call t memo') :
    Steady t memo' := by
  obtain ⟨linked,answering,conversation⟩ := conversing
  obtain ⟨⟨⟨aligned,waits⟩,unhurried⟩,unbroken⟩ := smooth
  cases h with
  | @window l command client moved =>
    have unsent : ({memo with sent := memo.sent ++ []} : Transcript) = memo := by rw [List.append_nil]
    cases l with
    | recv r =>
      rw [show emitted s (.recv r) = [] from rfl,unsent]
      exact steadyRecv steady conversation unbroken moved
    | run =>
      rw [show emitted s .run = [] from rfl,unsent]
      exact steadyRun steady conversation displayed.taken moved
    | input i =>
      rw [show emitted s (.input i) = [] from rfl,unsent]
      exact steadyInput steady waits unbroken moved
    | form sent => exact steadyForm steady displayed linked.split unhurried unbroken moved
  | arrives taken received step => exact steadyArrives linked steady aligned unbroken taken received step
  | @server l label call server inside works step =>
    cases l with
    | client r =>
      cases inside
      refine steadyServer steady conversation answering works ?_ unhurried step
      rintro t r' same thread mem
      cases same
      exact unbroken thread mem
    | console k r =>
      cases inside
      exact steadyServer steady conversation answering works (by simp) unhurried step
    | window _ _ | arrives _ => cases inside

end

theorem opensSteady (socket : Int) (i : Nat) (d : ThreadData) (directory : Bytes) :
    Steady (dialogueOpens socket i d directory) silence := by
  refine ⟨rfl,rfl,rfl,nofun,?_,nofun,nofun,nofun,⟨_,rfl,rfl⟩,?_,nofun⟩
  · intro m mem
    cases mem
  · constructor <;> simp [dialogueOpens]

section
variable {c : Crypto} {host : Host} {maxClients : Nat} {socket : Int} {s : Dialogue} {memo : Transcript}

theorem haltedWaits (steady : Steady s memo) (halted : Halted qt c host maxClients socket s) :
    (∃ thread, s.server.clients = [thread] ∧ thread.pc = .receive) ∧ handled s.server + unended s.server = 0 := by
  obtain ⟨thread,alone,attends⟩ := steady.session
  have stuck : Stuck host maxClients s.server := by
    constructor
    · intro t r other
      cases t with
      | zero =>
        have still := halted.still (.client r) rfl
        have notReceived : r.isReceived = false := by
          cases r with
          | received got => exact (other got rfl).elim
          | _ => rfl
        cases act : (slotMachine host maxClients).act s.server (.client 0 r) with
        | none => rfl
        | some next => simp [dialogueMachine,act,notReceived] at still
      | succ t => simp [slotMachine,alone]
    · intro k r
      have still := halted.still (.console k r) rfl
      cases act : (slotMachine host maxClients).act s.server (.console k r) with
      | none => rfl
      | some next => simp [dialogueMachine,act] at still
  have rests := stuckRests steady.begun stuck
  have resting := rests.clients thread (by rw [alone]; exact List.mem_cons_self)
  have waits : thread.pc = .receive := by
    cases at_ : thread.pc <;> simp_all [NewClient.Thread.rests,NewClient.Thread.attends]
  refine ⟨⟨thread,alone,waits⟩,?_⟩
  have none : unended s.server = 0 := (tallyZero _).mpr fun console mem => by rw [rests.consoles console mem]; rfl
  have free : thread.pc.handling = 0 := by rw [waits]; rfl
  simp [handled,alone,tally,free,none]

theorem haltedRead (linked : Linked c s memo) (steady : Steady s memo) (halted : Halted qt c host maxClients socket s) :
    memo.unread = [] := by
  obtain ⟨⟨thread,alone,waits⟩,-⟩ := haltedWaits steady halted
  cases upstream : s.upstream with
  | nil =>
    cases unread : memo.unread with
    | nil => rfl
    | cons m rest =>
      have nonempty : m ≠ [] := by
        rintro rfl
        have request := steady.requests [] (by rw [unread]; exact List.mem_cons_self)
        rcases request with command | cancel
        · exact command rfl
        · cases cancel
      have size := c.encryptStringLength nonempty
      have stream := linked.upstream
      rw [upstream,unread] at stream
      have empty := congrArg List.length stream
      simp only [sentBytes,List.map_cons,List.flatten_cons,List.length_append,List.length_nil] at empty
      omega
  | cons b rest =>
    -- one byte would be a packet
    have still := halted.still (.arrives (.bytes [b])) rfl
    have zero : 0 ∈ packet (.bytes [b]) :=
      List.mem_append_right _ (List.mem_replicate.mpr ⟨by simp [packetSize],rfl⟩)
    have assigned : assign (packet (.bytes [b])) = some (cString (packet (.bytes [b]))) := if_pos zero
    have taken : fromNetwork s.upstream (.bytes [b]) = some rest := by simp [fromNetwork,upstream,packetSize]
    have received : receive c (.bytes [b]) = some ⟨1,c.decryptString (cString (packet (.bytes [b])))⟩ := by
      simp [receive,bytesReceived,assigned]
    have here : s.server.clients[0]? = some thread := by rw [alone]; rfl
    have moved : ∃ next, NewClient.step host thread s.server.slot
        (.received ⟨1,c.decryptString (cString (packet (.bytes [b])))⟩) =
        some (.recv s.server.slot.client,next,s.server.slot) := ⟨_,by rw [NewClient.step,waits]⟩
    obtain ⟨next,moved⟩ := moved
    have acts := clientActs maxClients here moved (by simp) (by simp)
    simp [dialogueMachine,taken,received,acts] at still

theorem haltedListens (steady : Steady s memo) (halted : Halted qt c host maxClients socket s) :
    s.client.receiver = .receive ∧ s.client.network = [] ∧ s.client.form = .idle := by
  have waits : s.client.receiver = .receive := by
    have still := halted.still (.window .run []) rfl
    have listens := steady.listens
    cases at_ : s.client.receiver with
    | receive => rfl
    | append p | mark p => simp [dialogueMachine,clientAct,TCPClient.step,at_] at still
    | overrun r | disconnect | done =>
      rw [at_] at listens
      cases listens
  refine ⟨waits,?_,?_⟩
  · cases network : s.client.network with
    | nil => rfl
    | cons b rest =>
      have still := halted.still (.window (.recv (.bytes [b])) []) rfl
      simp [dialogueMachine,clientAct,waits,fromNetwork,network,packetSize] at still
  · have still := halted.still (.window (.form true) []) rfl
    have talks := steady.talks
    cases at_ : s.client.form with
    | idle => rfl
    | clearDisconnected | hangUp | stopped =>
      rw [at_] at talks
      cases talks
    | _ => simp [dialogueMachine,clientAct,FrmMain.step,at_] at still

theorem haltedOff (linked : Linked c s memo) (steady : Steady s memo) (halted : Halted qt c host maxClients socket s) :
    s.client.window.cancelEnabled = false := by
  obtain ⟨waits,none,idle⟩ := haltedListens steady halted
  cases on : s.client.window.cancelEnabled with
  | false => rfl
  | true =>
    cases steady.underWay on with
    | asked asks =>
      rw [idleAsks memo idle,haltedRead linked steady halted] at asks
      exact (asks rfl).elim
    | working busy => exact (busy (haltedWaits steady halted).2).elim
    | ending ahead =>
      cases ahead with
      | coming p plain network => simp [none,endTransmissionCode,ascii] at network
      | arrived p plain holds network => simp [waits,TCPClient.Pc.holds,endTransmissionCode,ascii] at holds
    | ended flagged => exact (flagged.output halted.nothing).elim

end

structure Served (qt : Qt) (host : Host) (s : Dialogue × Transcript) : Prop where
  off : s.1.client.window.cancelEnabled = false
  accepts : FrmMain.start s.1.client.conn s.1.client.window .sendCommand = some .clearOutput
  conversed : Conversed host s
  screen : shown s.1.client = qt.fromStdString (plaintexts (answers s.2.exchanges))

theorem haltsWhere {c : Crypto} {host : Host} {maxClients : Nat} {socket : Int} {s : Dialogue} (rests : Rests s.server)
    (upstream : s.upstream = []) (waits : s.client.receiver = .receive) (network : s.client.network = [])
    (idle : s.client.form = .idle) (nothing : s.client.conn.serverOutput = []) : Halted qt c host maxClients socket s := by
  have stuck : Stuck host maxClients s.server := restsStuck rests
  obtain ⟨clients,consoles⟩ := stuck
  have noBytes (r : Bytes) : fromNetwork [] (.bytes r) = none := by
    simp only [fromNetwork,List.prefix_nil,List.drop_nil]
    refine if_neg fun found => ?_
    rw [found.2.2] at found
    cases found.1
  refine ⟨fun l unasked => ?_,nothing⟩
  cases l with
  | window l command =>
    cases l with
    | recv r =>
      cases r with
      | bytes r => simp [dialogueMachine,clientAct,waits,network,noBytes]
      | failed | closed => cases unasked
    | run => simp [dialogueMachine,clientAct,waits,TCPClient.step]
    | input i => cases unasked
    | form sent => simp [dialogueMachine,clientAct,idle,FrmMain.step]
  | arrives r =>
    cases r with
    | bytes r => simp [dialogueMachine,upstream,noBytes]
    | failed | closed => cases unasked
  | client r =>
    cases received : r.isReceived with
    | true => simp [dialogueMachine,received]
    | false =>
      have still := clients 0 r (by rintro got rfl; cases received)
      simp [dialogueMachine,still]
  | console k r => simp [dialogueMachine,consoles k r]

def lsPrompt : Bytes := ascii "\nuser@box:/$ ls\n\n"

def windowLooks (packet : List Sent) (statements : Nat) : List DialogueLabel :=
  [.window (.recv (.bytes (sendsWire secretCrypto packet))) [],.window .run [],.window .run [],
    .window (.input .checkMessages) []] ++ List.replicate statements (.window (.form true) [])

def lsServed : List DialogueLabel :=
  lsForks ++ ([.process 100,.done,.done,.done,.output (ascii "etc\n"),.done,.done].map (.console 0)) ++
    windowLooks [.frame lsPrompt] 4 ++
    ([.endOfFile,.done,.done,.done,.done,.done,.done,.process 100,.done,.done,.done,.done].map (.console 0)) ++
    windowLooks [.frame (ascii "etc\n"),.frame (killedText 100),.endOfTransmission] 5

def lsRead : ClientState where
  conn := {serverOutput := [],isConnected := true,transmissionEnd := false}
  network := []
  receiver := .receive
  form := .idle
  window := {terminalOutput := [lsPrompt,ascii "etc\n" ++ killedText 100].map asciiText,cancelEnabled := false}

end RemoteTerminal
