import RemoteTerminal.Library.MarkedCode
import RemoteTerminal.Client.Framing

/-! The end code in the stream of one connection. `TCPClient::run` looks for "EOT" at any
place of any packet; the 'E' is a hex digit too, the 'O' is in nothing else the server
sends. -/
namespace RemoteTerminal
open ByteStrings HexCodec LabelledRuns MarkedCode

variable {qt : Qt}

/- `recv` with a packet that is taken as exactly the bytes received. -/
def TCPClient.afterExact (conn : Connection) : Recv → Pc
  | .bytes r => if conn.transmissionEnd then .receive else if r.length > 0 then .append r else .receive
  | .failed | .closed => .disconnect

def exactAct (qt : Qt) (c : Crypto) (s : ClientState) : ClientLabel → Option ClientState
  | .recv r =>
    if s.receiver = .receive then
      (fromNetwork s.network r).map fun network =>
        {s with network,receiver := TCPClient.afterExact s.conn r}
    else none
  | l => clientAct qt c s l

def exactMachine (qt : Qt) (c : Crypto) : Machine ClientState ClientLabel Unit where
  act s l := (exactAct qt c s l).map fun t => ((),t)

structure Receipts where
  before : Bytes
  packet : Bytes
  deriving DecidableEq, Repr

def noteReceipt (received : Receipts) (_ : ClientState) (l : ClientLabel) (_ : Unit) (_ : ClientState) : Receipts :=
  match l with
  | .recv (.bytes r) => ⟨received.before ++ received.packet,r⟩
  | _ => received

def SetsEnd (s : ClientState) (l : ClientLabel) (t : ClientState) : Prop :=
  l = .run ∧ (∃ p, s.receiver = .mark p) ∧ t.conn.transmissionEnd = true

def WholeCode (c : Crypto) (sends : List Sent) (received : Receipts) : Prop :=
  ∃ earlier later a b, sends = earlier ++ .endOfTransmission::later ∧
    sendsWire c earlier = received.before ++ a ∧ received.packet = a ++ endTransmissionCode ++ b

def endCode : Code UInt8 where
  front := ascii "E"
  mark := 79
  back := ascii "T"
  markOnce := by decide

theorem endCodeWord : endCode.word = endTransmissionCode := by decide

theorem frameWirePlain (c : Crypto) (text : Bytes) : Plain ((Sent.frame text).wire c) := by
  have plain := framesWirePlain c [text]
  rwa [framesWire,List.flatMap_singleton] at plain

theorem markNotInFrame (c : Crypto) (text : Bytes) : endCode.mark ∉ (Sent.frame text).wire c :=
  plainByte (frameWirePlain c text) (by decide) (by decide)

theorem wireBlock (c : Crypto) (sent : Sent) : endCode.Block (sent.wire c) := by
  cases sent with
  | frame text => exact .inr (markNotInFrame c text)
  | endOfTransmission => exact .inl endCodeWord.symm

theorem codeIsSent (c : Crypto) {sent : Sent} (same : sent.wire c = endCode.word) : sent = .endOfTransmission := by
  cases sent with
  | endOfTransmission => rfl
  | frame text =>
    have mark : endCode.mark ∈ endCode.word := by decide
    exact absurd (same ▸ mark) (markNotInFrame c text)

theorem codeInWire (c : Crypto) {sends : List Sent} {before after : Bytes}
    (found : sendsWire c sends = before ++ endTransmissionCode ++ after) :
    ∃ earlier later, sends = earlier ++ .endOfTransmission::later ∧ sendsWire c earlier = before := by
  have blocks : ∀ b ∈ sends.map fun sent => sent.wire c, endCode.Block b := by
    intro b mem
    obtain ⟨sent,-,rfl⟩ := List.mem_map.mp mem
    exact wireBlock c sent
  rw [sendsWire,List.flatMap_def,← endCodeWord] at found
  obtain ⟨first,last,split,same,-⟩ := wordInStream blocks found
  obtain ⟨earlier,rest,rfl,rfl,tail⟩ := List.map_eq_append_iff.mp split
  obtain ⟨sent,later,rfl,code,-⟩ := List.map_eq_cons_iff.mp tail
  cases codeIsSent c code
  exact ⟨earlier,later,rfl,by rw [sendsWire,List.flatMap_def,same]⟩

structure Follows (wire : Bytes) (s : ClientState × Receipts) : Prop where
  whole : s.2.before ++ s.2.packet ++ s.1.network = wire
  held : ∀ p, s.1.receiver = .append p ∨ s.1.receiver = .mark p → p = s.2.packet

theorem followsRecv {c : Crypto} {wire : Bytes} {s t : ClientState} {received : Receipts} {r : Recv}
    (follows : Follows wire (s,received)) (act : exactAct qt c s (.recv r) = some t) :
    Follows wire (t,noteReceipt received s (.recv r) () t) := by
  simp only [exactAct] at act
  split at act <;> try contradiction
  obtain ⟨network,taken,rfl⟩ := Option.map_eq_some_iff.mp act
  cases r with
  | bytes r =>
    obtain ⟨-,cut⟩ := fromNetworkBytes taken
    constructor
    · simp only [noteReceipt,← follows.whole,← cut,List.append_assoc]
    · intro p holds
      simp only [TCPClient.afterExact] at holds
      split at holds <;> try split at holds
      all_goals simp at holds
      exact holds.symm
  | failed | closed =>
    cases Option.some.inj taken
    exact ⟨follows.whole,by simp [TCPClient.afterExact]⟩

theorem followsRun {c : Crypto} {wire : Bytes} {s t : ClientState} {received : Receipts}
    (follows : Follows wire (s,received)) (act : exactAct qt c s .run = some t) : Follows wire (t,received) := by
  obtain ⟨next,moved,rfl⟩ := Option.map_eq_some_iff.mp act
  refine ⟨follows.whole,fun p holds => ?_⟩
  cases at_ : s.receiver with
  | append q =>
    have same := follows.held q (.inl at_)
    rw [at_] at moved
    cases moved
    simp at holds
    rw [← holds,same]
  | receive | mark _ | overrun _ | disconnect | done =>
    rw [at_] at moved
    cases moved <;> simp at holds

theorem followsStep {c : Crypto} {wire : Bytes} {s t : ClientState} {received : Receipts} {l : ClientLabel}
    (follows : Follows wire (s,received)) (act : exactAct qt c s l = some t) :
    Follows wire (t,noteReceipt received s l () t) := by
  cases l with
  | recv r => exact followsRecv follows act
  | run => exact followsRun follows act
  | input i =>
    simp only [exactAct,clientAct] at act
    split at act <;> try contradiction
    obtain ⟨form,-,rfl⟩ := Option.map_eq_some_iff.mp act
    exact ⟨follows.whole,follows.held⟩
  | form sent =>
    obtain ⟨next,-,rfl⟩ := Option.map_eq_some_iff.mp act
    exact ⟨follows.whole,follows.held⟩

theorem exactMachineAct {c : Crypto} {s t : ClientState} {l : ClientLabel} {seen : Unit}
    (act : (exactMachine qt c).act s l = some (seen,t)) : exactAct qt c s l = some t := by
  obtain ⟨u,hu,same⟩ := Option.map_eq_some_iff.mp act
  cases same
  exact hu

theorem reachesFollows {c : Crypto} {wire : Bytes} {s t : ClientState × Receipts} (start : Follows wire s)
    (run : Reaches (watch (exactMachine qt c) noteReceipt) free s t) : Follows wire t := by
  refine invariantOfStep (fun {t l seen u} follows _ act => ?_) run start
  obtain ⟨step,noted⟩ := watchAct act
  have next := followsStep follows (exactMachineAct step)
  rwa [← noted] at next

theorem formKeepsEnd {c : Crypto} {conn conn' : Connection} {window window' : FrmMain.Window} {sent : Bool}
    {form form' : FrmMain.Pc} (moved : FrmMain.step qt c conn window sent form = some (form',conn',window'))
    (on : conn'.transmissionEnd = true) : conn.transmissionEnd = true := by
  cases form with
  | hangUp =>
    cases moved
    split at on
    · cases on
    · exact on
  | setTransmissionEnd => cases moved; cases on
  | idle | stopped => cases moved
  | length | take | decrypt _ | clear _ _ | clearOutput | send | clearDisconnected => cases moved; exact on

theorem endIsSet {c : Crypto} {s t : ClientState} {l : ClientLabel} (act : exactAct qt c s l = some t)
    (off : s.conn.transmissionEnd = false) (on : t.conn.transmissionEnd = true) : SetsEnd s l t := by
  cases l with
  | run =>
    refine ⟨rfl,?_,on⟩
    obtain ⟨next,moved,rfl⟩ := Option.map_eq_some_iff.mp act
    cases at_ : s.receiver with
    | mark p => exact ⟨p,rfl⟩
    | append _ | disconnect =>
      rw [at_] at moved
      cases moved
      simp [off,TCPClient.disconnect] at on
    | receive | overrun _ | done =>
      rw [at_] at moved
      cases moved
  | recv r =>
    simp only [exactAct] at act
    split at act <;> try contradiction
    obtain ⟨network,-,rfl⟩ := Option.map_eq_some_iff.mp act
    cases off.symm.trans on
  | input i =>
    simp only [exactAct,clientAct] at act
    split at act <;> try contradiction
    obtain ⟨form,-,rfl⟩ := Option.map_eq_some_iff.mp act
    cases off.symm.trans on
  | form sent =>
    obtain ⟨next,moved,rfl⟩ := Option.map_eq_some_iff.mp act
    cases off.symm.trans (formKeepsEnd moved on)

theorem setsHasCode {c : Crypto} {sends : List Sent} {s t : ClientState} {received : Receipts} {l : ClientLabel}
    (follows : Follows (sendsWire c sends) (s,received)) (act : exactAct qt c s l = some t) (sets : SetsEnd s l t) :
    WholeCode c sends received := by
  obtain ⟨rfl,⟨p,marking⟩,on⟩ := sets
  have found : contains received.packet endTransmissionCode = true := by
    obtain ⟨next,moved,rfl⟩ := Option.map_eq_some_iff.mp act
    rw [marking] at moved
    cases moved
    rwa [follows.held p (.inr marking)] at on
  obtain ⟨a,b,packet⟩ := of_decide_eq_true found
  have stream : sendsWire c sends = (received.before ++ a) ++ endTransmissionCode ++ (b ++ s.network) := by
    rw [← follows.whole,← packet]
    simp
  obtain ⟨earlier,later,split,before⟩ := codeInWire c stream
  exact ⟨earlier,later,a,b,split,before,packet.symm⟩

/-- Wherever the stream is cut and whatever the window does meanwhile, `TransmissionEnd` is
set by a packet that holds a whole end code of the server. -/
theorem endHasCode {c : Crypto} {sends : List Sent} {s : ClientState} {t u : ClientState × Receipts}
    {l : ClientLabel} {seen : Unit} (receiving : s.receiver = .receive) (sent : s.network = sendsWire c sends)
    (run : Reaches (watch (exactMachine qt c) noteReceipt) free (s,⟨[],[]⟩) t)
    (act : (watch (exactMachine qt c) noteReceipt).act t l = some (seen,u)) (sets : SetsEnd t.1 l u.1) :
    WholeCode c sends t.2 := by
  have start : Follows (sendsWire c sends) (s,⟨[],[]⟩) := ⟨sent,by simp [receiving]⟩
  exact setsHasCode (reachesFollows start run) (exactMachineAct (watchAct act).1) sets

def letterSends : List Sent := [.frame (ascii "a"),.endOfTransmission]
def letterFront : Bytes := (sendsWire secretCrypto letterSends).take 20
def letterBack : Bytes := (sendsWire secretCrypto letterSends).drop 20

def letterMarked (ended : Bool) (receiver : TCPClient.Pc) : ClientState where
  conn := {serverOutput := letterFront ++ letterBack,isConnected := true,transmissionEnd := ended}
  network := []
  receiver := receiver
  form := .idle
  window := {terminalOutput := [],cancelEnabled := false}

theorem letterHasCode : WholeCode secretCrypto letterSends ⟨letterFront,letterBack⟩ := by
  have ran : run (watch (exactMachine plainQt secretCrypto) noteReceipt) free
      (connected (sendsWire secretCrypto letterSends),⟨[],[]⟩)
      [.recv (.bytes letterFront),.run,.run,.recv (.bytes letterBack),.run] =
      some (letterMarked false (.mark letterBack),⟨letterFront,letterBack⟩) := by decide +kernel
  have act : (watch (exactMachine plainQt secretCrypto) noteReceipt).act
      (letterMarked false (.mark letterBack),⟨letterFront,letterBack⟩) .run =
      some ((),letterMarked true .receive,⟨letterFront,letterBack⟩) := by decide +kernel
  exact endHasCode rfl rfl (runReaches ran) act ⟨rfl,⟨letterBack,rfl⟩,rfl⟩

theorem wireNoZero (c : Crypto) (sends : List Sent) : 0 ∉ sendsWire c sends := by
  intro mem
  obtain ⟨sent,-,inside⟩ := List.mem_flatMap.mp mem
  cases sent with
  | frame text => exact plainNoZero (frameWirePlain c text) inside
  | endOfTransmission =>
    have clean : (0 : UInt8) ∉ endTransmissionCode := by decide
    exact clean inside

def Short (_ : ClientState × Receipts) : ClientLabel → Prop
  | .recv (.bytes r) => r.length < packetSize
  | _ => True

theorem shortStep {c : Crypto} {s : ClientState × Receipts} {l : ClientLabel} (clean : 0 ∉ s.1.network)
    (short : Short s l) : exactAct qt c s.1 l = clientAct qt c s.1 l := by
  cases l with
  | run | input _ | form _ => rfl
  | recv r =>
    simp only [exactAct,clientAct]
    split
    · refine Option.map_congr fun network taken => ?_
      cases r with
      | failed | closed => rfl
      | bytes r =>
        obtain ⟨-,cut⟩ := fromNetworkBytes taken
        have plain : 0 ∉ r := fun mem => clean (cut ▸ List.mem_append_left _ mem)
        simp only [TCPClient.afterExact,TCPClient.afterReceive,assignShort plain short]
    · rfl

theorem shortRunExact {c : Crypto} {wire : Bytes} {s t : ClientState × Receipts} (start : Follows wire s)
    (clean : 0 ∉ wire) (run : Reaches (watch (clientMachine qt c) noteReceipt) Short s t) :
    Reaches (watch (exactMachine qt c) noteReceipt) free s t := by
  induction run with
  | refl => exact .refl
  | @step u l seen v before ok act ih =>
    have rest : 0 ∉ u.1.network := fun mem =>
      clean ((reachesFollows start ih).whole ▸ List.mem_append_right _ mem)
    have same : (watch (exactMachine qt c) noteReceipt).act u l = (watch (clientMachine qt c) noteReceipt).act u l := by
      simp only [watch,exactMachine,clientMachine,shortStep rest ok]
    exact .step ih trivial (same.trans act)

theorem shortEndHasCode {c : Crypto} {sends : List Sent} {s : ClientState} {t u : ClientState × Receipts}
    {l : ClientLabel} {seen : Unit} (receiving : s.receiver = .receive) (sent : s.network = sendsWire c sends)
    (run : Reaches (watch (clientMachine qt c) noteReceipt) Short (s,⟨[],[]⟩) t)
    (act : (watch (clientMachine qt c) noteReceipt).act t l = some (seen,u)) (sets : SetsEnd t.1 l u.1) :
    WholeCode c sends t.2 := by
  have start : Follows (sendsWire c sends) (s,⟨[],[]⟩) := ⟨sent,by simp [receiving]⟩
  have follows := reachesFollows start (shortRunExact start (wireNoZero c sends) run)
  have step : exactAct qt c t.1 l = some u.1 := by
    rw [sets.1] at act ⊢
    exact clientMachineAct (watchAct act).1
  exact setsHasCode follows step sets

end RemoteTerminal
