import RemoteTerminal.Client.Machine
import RemoteTerminal.Library.CharArray

/-! The array `packet[512]` of both receive loops. A `recv` fills it from the front, the
string is read back from it, and it is cleared before the next `recv`. The string is what
`recv` returned unless the array is full: then no zero ends it. -/
namespace RemoteTerminal
open ByteStrings CharArray

inductive Assigned where
  | skipped
  | overrun
  | string (sPacket : Bytes)
  deriving DecidableEq, Repr

structure Pass where
  assigned : Assigned
  packet : Bytes
  ends : Bool
  deriving DecidableEq, Repr

def received (packet : Bytes) : Recv → Bytes
  | .bytes r => overwrite packet r
  | .failed | .closed => packet

/- `recv` returns -1, 0 or 1..512 bytes without a zero among them. -/
def Recv.Possible : Recv → Prop
  | .bytes r => 0 < r.length ∧ r.length ≤ packetSize ∧ 0 ∉ r
  | .failed | .closed => True
instance : (r : Recv) → Decidable r.Possible
  | .bytes _ => by dsimp only [Recv.Possible]; infer_instance
  | .failed | .closed => isTrue trivial

def Recv.payload : Recv → Bytes
  | .bytes r => r
  | .failed | .closed => []

def Recv.fills (r : Recv) : Prop := r.payload.length = packetSize
instance (r : Recv) : Decidable r.fills := by unfold Recv.fills; infer_instance

def NewClient.pass (c : Crypto) (packet : Bytes) (turn : Turn) : Pass :=
  let filled := received packet turn.recv
  if bytesReceived turn.recv = 0 then ⟨.skipped,clear filled,true⟩
  else match assign filled with
    | none => ⟨.overrun,filled,true⟩
    | some sPacket =>
      let taken := branch (c.decryptString sPacket)
      -- the 'M' branch has a `memset` of its own
      let left := match taken with
        | .message _ => clear filled
        | _ => filled
      ⟨.string sPacket,clear left,endsSession turn.stops taken⟩

structure ClientTurn where
  recv : Recv
  transmissionEnd : Bool
  deriving DecidableEq, Repr

def TCPClient.pass (packet : Bytes) (turn : ClientTurn) : Pass :=
  let filled := received packet turn.recv
  match turn.recv with
  | .bytes _ =>
    if turn.transmissionEnd then ⟨.skipped,clear filled,false⟩
    else match assign filled with
      | none => ⟨.overrun,filled,true⟩
      | some sPacket => ⟨.string sPacket,clear filled,false⟩
  | .failed | .closed => ⟨.skipped,clear filled,true⟩

variable {α : Type}

def passes (pass : Bytes → α → Pass) : Bytes → List α → List Assigned
  | _,[] => []
  | packet,turn::rest =>
    let done := pass packet turn
    done.assigned :: if done.ends then [] else passes pass done.packet rest

/- No element past the array was needed, and the string is what was received. -/
def Exact (r : Recv) : Assigned → Prop
  | .skipped => True
  | .overrun => False
  | .string sPacket => sPacket = r.payload

def AllExact (recv : α → Recv) (pass : Bytes → α → Pass) (turns : List α) : Prop :=
  ∀ row ∈ turns.zip (passes pass (zeros packetSize) turns), Exact (recv row.1) row.2

def reached (ends : α → Bool) : List α → List α
  | [] => []
  | turn::rest => turn :: if ends turn then [] else reached ends rest

def NewClient.ends (c : Crypto) (turn : Turn) : Bool :=
  turn.recv = .closed || endsSession turn.stops (branch (c.decryptString turn.recv.payload))

def TCPClient.ends (turn : ClientTurn) : Bool := turn.recv = .closed || turn.recv = .failed

theorem assignReceived {r : Recv} (possible : r.Possible) : assign (received (zeros packetSize) r) =
    if r.fills then none else some r.payload := by
  cases r with
  | bytes r =>
    obtain ⟨-,size,clean⟩ := possible
    have zero : 0 ∈ overwrite (zeros packetSize) r ↔ ¬ Recv.fills (.bytes r) := by
      rw [zeroInOverwrite,Recv.fills,Recv.payload]
      constructor
      · exact fun mem => Nat.ne_of_lt (mem.resolve_left clean)
      · exact fun short => .inr (Nat.lt_of_le_of_ne size short)
    simp only [assign,received,zero,cStringOverwrite,cStringOfNoZero clean,Recv.payload]
    split <;> simp_all
  | failed | closed => rfl

theorem receivedSome {r : Recv} (possible : r.Possible) (other : r ≠ .closed) : bytesReceived r ≠ 0 := by
  cases r with
  | bytes r =>
    obtain ⟨some,size,-⟩ := possible
    simp only [bytesReceived,packetSize] at size ⊢
    omega
  | failed => decide
  | closed => exact (other rfl).elim

theorem receivedLength {r : Recv} (possible : r.Possible) :
    (received (zeros packetSize) r).length = packetSize := by
  cases r with
  | bytes r => exact (overwriteLength (by simpa using possible.2.1)).trans zerosLength
  | failed | closed => exact zerosLength

structure PassFrom (recv : α → Recv) (pass : Bytes → α → Pass) (ends : α → Bool) (full : α → Prop)
    (turn : α) : Prop where
  overrun : full turn → (pass (zeros packetSize) turn).assigned = .overrun
  keeps : ¬ full turn → ∃ a, Exact (recv turn) a ∧
    pass (zeros packetSize) turn = ⟨a,zeros packetSize,ends turn⟩

theorem allExactIff {recv : α → Recv} {pass : Bytes → α → Pass} {ends : α → Bool} {full : α → Prop}
    {turns : List α} (step : ∀ turn ∈ turns, PassFrom recv pass ends full turn) :
    AllExact recv pass turns ↔ ∀ turn ∈ reached ends turns, ¬ full turn := by
  induction turns with
  | nil => simp [AllExact,reached]
  | cons turn rest ih =>
    have tail := ih fun turn mem => step turn (List.mem_cons_of_mem _ mem)
    have here := step turn List.mem_cons_self
    by_cases fills : full turn
    · have overran := here.overrun fills
      simp [AllExact,reached,passes,overran,Exact,fills]
    · obtain ⟨a,exact_,pass⟩ := here.keeps fills
      simp only [AllExact,reached,passes,List.zip_cons_cons,List.forall_mem_cons,pass]
      cases ends turn
      · simpa [AllExact,exact_,fills] using tail
      · simp [exact_,fills]

theorem newClientPass (c : Crypto) {turn : Turn} (possible : turn.recv.Possible)
    (some : bytesReceived turn.recv ≠ 0) (fits : ¬ turn.recv.fills) :
    NewClient.pass c (zeros packetSize) turn = ⟨.string turn.recv.payload,zeros packetSize,
      endsSession turn.stops (branch (c.decryptString turn.recv.payload))⟩ := by
  have string := assignReceived possible
  have sized := receivedLength possible
  rw [if_neg fits] at string
  simp only [NewClient.pass,if_neg some,string,Pass.mk.injEq,true_and,and_true]
  refine clearSized ?_
  split
  · exact clearLength.trans sized
  · exact sized

theorem passFromNewClient (c : Crypto) {turn : Turn} (possible : turn.recv.Possible) :
    PassFrom Turn.recv (NewClient.pass c) (NewClient.ends c) (fun turn => turn.recv.fills) turn := by
  by_cases closed : turn.recv = .closed
  · have none : bytesReceived turn.recv = 0 := by rw [closed]; rfl
    have empty : ¬ turn.recv.fills := by rw [closed]; decide
    have ends : NewClient.ends c turn = true := by rw [NewClient.ends,closed]; rfl
    refine ⟨fun fills => (empty fills).elim,fun _ => ⟨.skipped,trivial,?_⟩⟩
    simp only [NewClient.pass,if_pos none,clearSized (receivedLength possible),ends]
  · have some := receivedSome possible closed
    refine ⟨fun fills => ?_,fun fits => ⟨.string turn.recv.payload,rfl,?_⟩⟩
    · have string := assignReceived possible
      rw [if_pos fills] at string
      simp only [NewClient.pass,if_neg some,string]
    · simp only [newClientPass c possible some fits,NewClient.ends,closed,decide_false,Bool.false_or]

theorem passFromRun {turn : ClientTurn} (possible : turn.recv.Possible) :
    PassFrom ClientTurn.recv TCPClient.pass TCPClient.ends
      (fun turn => turn.transmissionEnd = false ∧ turn.recv.fills) turn := by
  have string := assignReceived possible
  have cleared := clearSized (receivedLength possible)
  obtain ⟨r,transmissionEnd⟩ := turn
  cases r with
  | failed | closed =>
    refine ⟨fun full => (nomatch full.2),fun _ => ⟨.skipped,trivial,?_⟩⟩
    simp [TCPClient.pass,TCPClient.ends,cleared]
  | bytes r =>
    cases transmissionEnd with
    | true =>
      refine ⟨fun full => (nomatch full.1),fun _ => ⟨.skipped,trivial,?_⟩⟩
      simp [TCPClient.pass,TCPClient.ends,cleared]
    | false =>
      refine ⟨fun full => ?_,fun fits => ⟨.string r,rfl,?_⟩⟩
      · rw [if_pos full.2] at string
        simp [TCPClient.pass,string]
      · rw [if_neg fun fills => fits ⟨rfl,fills⟩] at string
        simp [TCPClient.pass,TCPClient.ends,string,cleared,Recv.payload]

/- The loop that was modelled with a fresh array for each `recv` dispatches the same. -/
def dispatched (c : Crypto) : List Assigned → Option (List Bytes)
  | [] => some []
  | .skipped::rest => dispatched c rest
  | .overrun::_ => none
  | .string sPacket::rest =>
    let plainText := c.decryptString sPacket
    if branch plainText = .reject then some [] else (dispatched c rest).map (plainText :: ·)

theorem receiveReceived (c : Crypto) {r : Recv} (possible : r.Possible) (some' : bytesReceived r ≠ 0) :
    receive c r = if r.fills then none else some ⟨bytesReceived r,c.decryptString r.payload⟩ := by
  have same : packet r = received (zeros packetSize) r := by
    cases r with
    | bytes r => exact overwriteZeros.symm
    | failed | closed => rfl
  simp only [receive,if_neg some',same,assignReceived possible]
  split <;> rfl

theorem serveDispatched (c : Crypto) {turns : List Turn} (possible : ∀ turn ∈ turns, turn.recv.Possible) :
    serve c turns = dispatched c (passes (NewClient.pass c) (zeros packetSize) turns) := by
  induction turns with
  | nil => rfl
  | cons turn rest ih =>
    have tail := ih fun turn mem => possible turn (List.mem_cons_of_mem _ mem)
    have here := possible turn List.mem_cons_self
    by_cases closed : turn.recv = .closed
    · simp [serve,passes,receive,closed,bytesReceived,NewClient.pass,dispatched]
    · have some := receivedSome here closed
      have got := receiveReceived c here some
      by_cases fills : turn.recv.fills
      · rw [if_pos fills] at got
        simp [serve,got,passes,(passFromNewClient c here).overrun fills,dispatched]
      · rw [if_neg fills] at got
        have pass := newClientPass c here some fills
        simp only [serve,got,bind,Option.bind,some,false_or,passes,pass,dispatched,tail]
        by_cases rejected : branch (c.decryptString turn.recv.payload) = .reject
        · simp [rejected]
        · cases ends : endsSession turn.stops (branch (c.decryptString turn.recv.payload)) <;>
            simp [rejected,dispatched]

theorem afterReceivePass (conn : Connection) {r : Recv} (possible : r.Possible) :
    TCPClient.afterReceive conn r =
      let done := TCPClient.pass (zeros packetSize) ⟨r,conn.transmissionEnd⟩
      match done.assigned with
      | .skipped => if done.ends then .disconnect else .receive
      | .overrun => .overrun r.payload
      | .string sPacket => .append sPacket := by
  have string := assignReceived possible
  cases r with
  | failed | closed => rfl
  | bytes r =>
    have same : packet (.bytes r) = received (zeros packetSize) (.bytes r) := overwriteZeros.symm
    cases marked : conn.transmissionEnd
    · simp only [TCPClient.afterReceive,TCPClient.pass,marked,same,string]
      by_cases fills : Recv.fills (.bytes r)
      · simp [fills,Recv.payload]
      · simp [fills,Recv.payload,List.length_pos_iff.mp possible.1]
    · simp [TCPClient.afterReceive,TCPClient.pass,marked]

/-- The strings of both loops are exact as long as no `recv` that is read back fills the array. -/
theorem packetsExactIff (c : Crypto) (turns : List Turn) (clientTurns : List ClientTurn)
    (possible : ∀ turn ∈ turns, turn.recv.Possible)
    (clientPossible : ∀ turn ∈ clientTurns, turn.recv.Possible) :
    AllExact Turn.recv (NewClient.pass c) turns ∧ AllExact ClientTurn.recv TCPClient.pass clientTurns ↔
      (∀ turn ∈ reached (NewClient.ends c) turns, ¬ turn.recv.fills) ∧
      ∀ turn ∈ reached TCPClient.ends clientTurns, ¬ (turn.transmissionEnd = false ∧ turn.recv.fills) :=
  and_congr (allExactIff fun turn mem => passFromNewClient c (possible turn mem))
    (allExactIff fun turn mem => passFromRun (clientPossible turn mem))

def shortTurns : List Turn := [⟨.bytes forgedPacket,false⟩,⟨.failed,false⟩,⟨.closed,false⟩]
def shortClientTurns : List ClientTurn :=
  [⟨.bytes forgedPacket,false⟩,⟨.bytes (ascii "|EOT"),true⟩,⟨.failed,false⟩]

theorem shortPacketsExact : AllExact Turn.recv (NewClient.pass secretCrypto) shortTurns ∧
    AllExact ClientTurn.recv TCPClient.pass shortClientTurns :=
  (packetsExactIff secretCrypto shortTurns shortClientTurns (by decide +kernel) (by decide +kernel)).mpr
    (by decide +kernel)

def fullPacket : Bytes := List.replicate packetSize 67

theorem fullPacketOverruns : (∀ turn ∈ [Turn.mk (.bytes fullPacket) false], turn.recv.Possible) ∧
    ¬ AllExact Turn.recv (NewClient.pass secretCrypto) [⟨.bytes fullPacket,false⟩] ∧
    ¬ AllExact ClientTurn.recv TCPClient.pass [⟨.bytes fullPacket,false⟩] := by
  have overran : (NewClient.pass secretCrypto (zeros packetSize) ⟨.bytes fullPacket,false⟩).assigned =
      .overrun := by decide +kernel
  have overranRun : (TCPClient.pass (zeros packetSize) ⟨.bytes fullPacket,false⟩).assigned = .overrun := by
    decide +kernel
  refine ⟨by decide +kernel,fun exact_ => ?_,fun exact_ => ?_⟩
  · have first := exact_ (⟨.bytes fullPacket,false⟩,.overrun) (by simp [passes,overran])
    exact first
  · have first := exact_ (⟨.bytes fullPacket,false⟩,.overrun) (by simp [passes,overranRun])
    exact first

end RemoteTerminal
