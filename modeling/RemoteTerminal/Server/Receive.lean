import RemoteTerminal.Crypto

/-! The receiving half of `NewClient`: one `recv` into `packet[512]`, the string read
back from the array, its decryption, and the `switch` on the first byte. Reading the
string off the end of the array is a fault. -/
namespace RemoteTerminal
open ByteStrings HexCodec

inductive Recv where
  | failed
  | closed
  | bytes (r : Bytes)
  deriving DecidableEq, Repr

def packetSize : Nat := 512

def packet : Recv → Bytes
  | .bytes r => r ++ List.replicate (packetSize-r.length) 0
  | _ => List.replicate packetSize 0

/- The result of `recv` in an `unsigned short`. -/
def bytesReceived : Recv → Nat
  | .failed => 65535
  | .closed => 0
  | .bytes r => r.length % 65536

/- `sPacket.assign(packet)`; `none` when no element of the array is zero. -/
def assign (packet : Bytes) : Option Bytes := if 0 ∈ packet then some (cString packet) else none

structure Received where
  bytesReceived : Nat
  sPacket : Bytes
  deriving DecidableEq, Repr

def receive (c : Crypto) (r : Recv) : Option Received :=
  if bytesReceived r = 0 then some ⟨0,[]⟩
  else do
    let sPacket ← assign (packet r)
    some ⟨bytesReceived r,c.decryptString sPacket⟩

def messageCode : UInt8 := 77
def cancelCode : UInt8 := 88
def disconnectCode : UInt8 := 67

def stripLines (s : Bytes) : Bytes := erase 13 (erase 10 s)

inductive Branch where
  | message (sPacket : Bytes)
  | cancel
  | close (ends : Bool)
  | reject
  deriving DecidableEq, Repr

def branch : Bytes → Branch
  | [] => .reject
  | code::rest =>
    if code = messageCode then .message (stripLines rest)
    else if code = cancelCode then .cancel
    else if code = disconnectCode then .close (decide ((stripLines (code::rest)).length = 1))
    else .reject

/- A message stops the loop when the console thread it asks for cannot be created, a
cancel when the thread it joins never exits. -/
def endsSession (stops : Bool) : Branch → Bool
  | .message _ | .cancel => stops
  | .close ends => ends
  | .reject => true

structure Turn where
  recv : Recv
  stops : Bool
  deriving DecidableEq, Repr

def serve (c : Crypto) : List Turn → Option (List Bytes)
  | [] => some []
  | turn::rest => do
    let got ← receive c turn.recv
    if got.bytesReceived = 0 ∨ branch got.sPacket = .reject then some []
    else if endsSession turn.stops (branch got.sPacket) then some [got.sPacket]
    else (serve c rest).map (got.sPacket :: ·)

theorem assignShort {r : Bytes} (clean : 0 ∉ r) (short : r.length < packetSize) :
    assign (packet (.bytes r)) = some r := by
  obtain ⟨n,gap⟩ : ∃ n, packetSize-r.length = n+1 := ⟨packetSize-r.length-1,by omega⟩
  have zero : 0 ∈ packet (.bytes r) := by simp [packet,gap]
  rw [assign,if_pos zero]
  exact congrArg some (cStringPadded _ clean)

theorem assignFull {r : Bytes} (clean : 0 ∉ r) (full : packetSize ≤ r.length) :
    assign (packet (.bytes r)) = none := by
  have none : packetSize-r.length = 0 := by omega
  simp [assign,packet,none,clean]

def Acts (c : Crypto) (w : Bytes) : Prop := branch (c.decryptString w) ≠ .reject
instance (c w) : Decidable (Acts c w) := by unfold Acts; infer_instance

def TagVerifies (c : Crypto) (w : Bytes) : Prop :=
  ∃ body tag, hexDecode w = body ++ tag ∧ tag = c.tag body

theorem tagVerifiesIff (c : Crypto) (w : Bytes) :
    TagVerifies c w ↔ (c.authenticatedDecryption (hexDecode w)).2 = true := by
  simp only [Crypto.authenticatedDecryption,decide_eq_true_eq]
  constructor
  · rintro ⟨body,tag,decoded,rfl⟩
    have size : (c.tag body).length = 16 := c.library.tagLength _ _ _
    simp [decoded,size]
  · intro same
    exact ⟨_,_,(List.take_append_drop _ _).symm,same⟩

instance (c w) : Decidable (TagVerifies c w) := decidable_of_iff _ (tagVerifiesIff c w).symm

structure AuthenticDispatch (c : Crypto) (w : Bytes) : Prop where
  acts : Acts c w → TagVerifies c w
  output : c.decryptString w ≠ [] → TagVerifies c w
  ends : ¬ TagVerifies c w → branch (c.decryptString w) = .reject

theorem decryptStringEmptyIff (c : Crypto) (w : Bytes) :
    c.decryptString w = [] ↔ (hexDecode w).length ≤ 16 := by
  rw [← List.length_eq_zero_iff,c.decryptStringLength]
  omega

theorem authenticDispatchIff (c : Crypto) (w : Bytes) :
    AuthenticDispatch c w ↔ TagVerifies c w ∨ (hexDecode w).length ≤ 16 := by
  constructor
  · intro law
    by_cases verifies : TagVerifies c w
    · exact .inl verifies
    · refine .inr ((decryptStringEmptyIff c w).mp ?_)
      exact Decidable.byContradiction fun output => verifies (law.output output)
  · rintro (verifies | short)
    · exact ⟨fun _ => verifies,fun _ => verifies,fun invalid => (invalid verifies).elim⟩
    · have empty := (decryptStringEmptyIff c w).mpr short
      have rejected : branch (c.decryptString w) = .reject := by rw [empty]; rfl
      exact ⟨fun acts => (acts rejected).elim,fun output => (output empty).elim,fun _ => rejected⟩

theorem branchActs (code : UInt8) (rest : Bytes) :
    branch (code::rest) ≠ .reject ↔ code = messageCode ∨ code = cancelCode ∨ code = disconnectCode := by
  simp only [branch]
  split
  · simp [*]
  · split
    · simp [*]
    · split <;> simp [*]

/-- Whoever chooses the first byte of a packet chooses the branch: no key and no tag enters. -/
theorem actsIff (c : Crypto) (w : Bytes) : Acts c w ↔
    ∃ code rest, (hexDecode w).take ((hexDecode w).length-16) = code::rest ∧
      (code ^^^ c.stream 0 = messageCode ∨ code ^^^ c.stream 0 = cancelCode ∨
        code ^^^ c.stream 0 = disconnectCode) := by
  unfold Acts
  rw [c.decryptStringSink]
  cases (hexDecode w).take ((hexDecode w).length-16) with
  | nil => simp [mask,branch]
  | cons code rest => simp [mask,branchActs]

def secretDigest : Bytes :=
  [189,43,26,175,126,244,240,155,233,245,44,226,216,213,153,103,77,129,170,157,106,68,33,105,109,196,
    217,61,208,97,157,104,44,229,107,77,100,169,239,9,119,97,206,217,158,15,103,38,91,95,118,8,94,91,14,
    231,202,70,150,178,173,111,226,178]

def secretStream : Bytes :=
  [142,183,214,109,49,70,12,209,238,119,172,31,45,145,137,165,231,179,14,228,105,85,194,215,175,70,39,
    237,199,186,244,113,227,140,188,162,59,100,8,79,125,66,230,196,154,159,182,207,68,44,0,105,89,106,23,
    12,193,158,124,106,165,251,229,250]

def secretTags : List (Bytes × Bytes) :=
  [([195,219,165],[86,130,153,144,251,5,9,135,122,215,98,107,67,143,194,42]),
    ([195,199,161,9],[178,42,242,251,162,114,59,72,28,255,203,159,146,10,8,20])]

def secretTag (body : Bytes) : Bytes :=
  match secretTags.find? (fun row => row.1 = body) with
  | some row => row.2
  | none => List.replicate 16 0

theorem secretTagLength (body : Bytes) : (secretTag body).length = 16 := by
  have rows : ∀ row ∈ secretTags, row.2.length = 16 := by decide
  unfold secretTag
  cases found : secretTags.find? (fun row => row.1 = body) with
  | none => rfl
  | some row => exact rows row (List.mem_of_find?_eq_some found)

def secretLibrary : CryptoLibrary where
  sha512 text := if text = ascii "secret" then secretDigest else []
  keystream key iv n :=
    if key = secretDigest.take 32 ∧ iv = List.replicate 16 0 then secretStream.getD n 0 else 0
  tag key iv body :=
    if key = secretDigest.take 32 ∧ iv = List.replicate 16 0 then secretTag body else List.replicate 16 0
  tagLength key iv body := by
    split
    · exact secretTagLength body
    · rfl

def secretCrypto : Crypto := ⟨secretLibrary,ascii "secret"⟩

def forgedPacket : Bytes := ascii "C3DBA556829990FB0509877AD7626B438FC22B"

theorem forgedPacketActs :
    branch (secretCrypto.decryptString forgedPacket) = .message (ascii "ls") ∧
      ¬ AuthenticDispatch secretCrypto forgedPacket := by
  refine ⟨by decide +kernel,fun law => ?_⟩
  have invalid : ¬ TagVerifies secretCrypto forgedPacket := by decide +kernel
  exact invalid (law.acts (by decide +kernel))

end RemoteTerminal
