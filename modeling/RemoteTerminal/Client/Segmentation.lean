import RemoteTerminal.Client.Framing

/-! The receive thread on one stream cut into packets in different ways. The end code is
looked for in each packet on its own; the packet it is found in is kept to its end, and
nothing after it. What is left depends on where that packet ends. -/
namespace RemoteTerminal
open ByteStrings LabelledRuns

variable {qt : Qt}

def TCPClient.take (conn : Connection) (sPacket : Bytes) : Connection :=
  if conn.transmissionEnd then conn
  else if sPacket.length > 0 then {conn with
    serverOutput := conn.serverOutput ++ sPacket
    transmissionEnd := contains sPacket endTransmissionCode}
  else conn

def TCPClient.takeAll (conn : Connection) (packets : List Bytes) : Connection := packets.foldl take conn
open TCPClient

def markedEnd : List Bytes → Option Nat
  | [] => none
  | r::rest => if contains r endTransmissionCode then some r.length
      else (markedEnd rest).map (r.length + ·)

theorem takeAllMarked {conn : Connection} (packets : List Bytes) (marked : conn.transmissionEnd = true) :
    takeAll conn packets = conn := by
  induction packets with
  | nil => rfl
  | cons r rest ih => simpa [takeAll,take,marked] using ih

theorem emptyNotCode : contains [] endTransmissionCode = false := by decide

theorem takeAllRunning {conn : Connection} (packets : List Bytes) (running : conn.transmissionEnd = false) :
    takeAll conn packets = match markedEnd packets with
      | none => {conn with serverOutput := conn.serverOutput ++ packets.flatten}
      | some n => {conn with
          serverOutput := conn.serverOutput ++ packets.flatten.take n
          transmissionEnd := true} := by
  induction packets generalizing conn with
  | nil => simp [takeAll,markedEnd]
  | cons r rest ih =>
    have taken : takeAll conn (r::rest) = takeAll {conn with
        serverOutput := conn.serverOutput ++ r
        transmissionEnd := contains r endTransmissionCode} rest := by
      cases r with
      | nil =>
        obtain ⟨serverOutput,isConnected,transmissionEnd⟩ := conn
        cases running
        simp [takeAll,take,emptyNotCode]
      | cons b tail => simp [takeAll,take,running]
    rw [taken,markedEnd]
    cases found : contains r endTransmissionCode with
    | true => simp [takeAllMarked]
    | false =>
      rw [ih rfl]
      cases markedEnd rest with
      | none => simp [running]
      | some n => simp [List.take_append]

theorem markedEndInside {packets : List Bytes} {n : Nat} (marked : markedEnd packets = some n) :
    n ≤ packets.flatten.length := by
  induction packets generalizing n with
  | nil => nomatch marked
  | cons r rest ih =>
    rw [List.flatten_cons,List.length_append]
    rw [markedEnd] at marked
    split at marked
    · cases marked
      omega
    · obtain ⟨m,later,rfl⟩ := Option.map_eq_some_iff.mp marked
      have := ih later
      omega

structure SameEnd (a b : Connection) : Prop where
  serverOutput : a.serverOutput = b.serverOutput
  transmissionEnd : a.transmissionEnd = b.transmissionEnd

theorem runningSegmentation {conn : Connection} {packets packets' : List Bytes}
    (running : conn.transmissionEnd = false) (same : packets.flatten = packets'.flatten) :
    SameEnd (takeAll conn packets) (takeAll conn packets') ↔ markedEnd packets = markedEnd packets' := by
  rw [takeAllRunning packets running,takeAllRunning packets' running,← same]
  cases left : markedEnd packets with
  | none =>
    cases right : markedEnd packets' with
    | none => exact ⟨fun _ => rfl,fun _ => ⟨rfl,rfl⟩⟩
    | some n =>
      refine ⟨fun ends => ?_,nofun⟩
      nomatch running.symm.trans ends.transmissionEnd
  | some n =>
    cases right : markedEnd packets' with
    | none =>
      refine ⟨fun ends => ?_,nofun⟩
      nomatch running.symm.trans ends.transmissionEnd.symm
    | some m =>
      have inside := markedEndInside left
      have inside' := markedEndInside right
      rw [← same] at inside'
      constructor
      · intro ends
        have lengths := congrArg List.length (List.append_cancel_left ends.serverOutput)
        rw [List.length_take,List.length_take] at lengths
        exact congrArg some (by omega)
      · intro ends
        cases ends
        exact ⟨rfl,rfl⟩

/-- Two cuts of a stream leave the same exactly if in both the first packet with a whole end
code in it ends at the same byte, or none of either has one. -/
theorem segmentationIff {packets packets' : List Bytes} (conn : Connection)
    (same : packets.flatten = packets'.flatten) : SameEnd (takeAll conn packets) (takeAll conn packets') ↔
      conn.transmissionEnd = true ∨ markedEnd packets = markedEnd packets' := by
  cases running : conn.transmissionEnd with
  | true =>
    rw [takeAllMarked packets running,takeAllMarked packets' running]
    exact ⟨fun _ => .inl rfl,fun _ => ⟨rfl,rfl⟩⟩
  | false => simpa using runningSegmentation running same

def ReceiverOnly (_ : ClientState) : ClientLabel → Prop
  | .recv _ | .run => True
  | .input _ | .form _ => False

instance (s) : (l : ClientLabel) → Decidable (ReceiverOnly s l)
  | .recv _ | .run => isTrue trivial
  | .input _ | .form _ => isFalse id

theorem packetTaken {c : Crypto} {s : ClientState} {r rest : Bytes} (waiting : s.receiver = .receive)
    (network : s.network = r ++ rest) (sizes : 0 < r.length ∧ r.length < packetSize) (clean : 0 ∉ r) :
    Reaches (clientMachine qt c) ReceiverOnly s {s with conn := take s.conn r,network := rest} := by
  obtain ⟨conn,network',receiver,form,window⟩ := s
  dsimp only at waiting network
  subst waiting network
  have fromFront : fromNetwork (r ++ rest) (.bytes r) = some rest := by
    have size := Nat.le_of_lt sizes.2
    simp [fromNetwork,sizes.1,size]
  have string := assignShort clean sizes.2
  cases marked : conn.transmissionEnd with
  | true =>
    have ran : run (clientMachine qt c) ReceiverOnly ⟨conn,r ++ rest,.receive,form,window⟩ [.recv (.bytes r)] =
        some ⟨take conn r,rest,.receive,form,window⟩ := by
      simp [run,ReceiverOnly,clientMachine,clientAct,fromFront,TCPClient.afterReceive,marked,take]
    exact runReaches ran
  | false =>
    have ran : run (clientMachine qt c) ReceiverOnly ⟨conn,r ++ rest,.receive,form,window⟩
        [.recv (.bytes r),.run,.run] = some ⟨take conn r,rest,.receive,form,window⟩ := by
      simp [run,ReceiverOnly,clientMachine,clientAct,fromFront,TCPClient.afterReceive,marked,string,sizes.1,
        TCPClient.step,take]
    exact runReaches ran

theorem packetsTaken {c : Crypto} {s : ClientState} {packets : List Bytes} {rest : Bytes}
    (waiting : s.receiver = .receive) (network : s.network = packets.flatten ++ rest)
    (sizes : ∀ r ∈ packets, 0 < r.length ∧ r.length < packetSize) (clean : ∀ r ∈ packets, 0 ∉ r) :
    Reaches (clientMachine qt c) ReceiverOnly s {s with conn := takeAll s.conn packets,network := rest} := by
  induction packets generalizing s with
  | nil =>
    obtain ⟨conn,network',receiver,form,window⟩ := s
    cases network
    exact .refl
  | cons r others ih =>
    have first : Reaches (clientMachine qt c) ReceiverOnly s
        {s with conn := take s.conn r,network := others.flatten ++ rest} :=
      packetTaken waiting (network.trans (List.append_assoc _ _ _)) (sizes r List.mem_cons_self)
        (clean r List.mem_cons_self)
    have tail := ih (s := {s with conn := take s.conn r,network := others.flatten ++ rest}) waiting rfl
      (fun r mem => sizes r (List.mem_cons_of_mem _ mem)) (fun r mem => clean r (List.mem_cons_of_mem _ mem))
    exact reachesTrans first tail

def rootAnswer : Bytes := sendsWire secretCrypto [.frame rootPrompt,.endOfTransmission]

def answerWhole : List Bytes := [rootAnswer]
def answerCut : List Bytes := [rootAnswer.dropLast,ascii "T"]

def listening : Connection := {serverOutput := [],isConnected := true,transmissionEnd := false}

def answerInThree : List Bytes := [rootAnswer.take 20,(rootAnswer.drop 20).take 20,rootAnswer.drop 40]

theorem answerInThreeSame : SameEnd (takeAll listening answerWhole) (takeAll listening answerInThree) :=
  (segmentationIff listening (by decide +kernel)).mpr (.inr (by decide +kernel))

theorem codeCutInTwo : answerWhole.flatten = answerCut.flatten ∧
    (∀ r ∈ answerWhole ++ answerCut, 0 < r.length ∧ r.length ≤ packetSize) ∧
    ¬ SameEnd (takeAll listening answerWhole) (takeAll listening answerCut) := by
  refine ⟨by decide +kernel,by decide +kernel,fun same => ?_⟩
  have ended := same.transmissionEnd
  revert ended
  decide +kernel

end RemoteTerminal
