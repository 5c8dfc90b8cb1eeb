import RemoteTerminal.Server.Receive

/-! Client messages over the stream. `SendCommand`, `CancelCommand` and `Disconnect` of
the client write ciphertexts back to back; the receiver takes each `recv` for one
message. A turn always reads at least the ciphertext of what it dispatches, so the
messages survive only where no byte is left over anywhere. -/
namespace RemoteTerminal
open ByteStrings HexCodec

inductive ClientMessage : Bytes → Prop
  | message (command : Bytes) : ClientMessage (messageCode::command)
  | cancel : ClientMessage [cancelCode]
  | disconnect : ClientMessage [disconnectCode]

def sentBytes (c : Crypto) (messages : List Bytes) : Bytes := (messages.map c.encryptString).flatten

def turns (chunks : List (Bytes × Bool)) : List Turn := chunks.map fun chunk => ⟨.bytes chunk.1,chunk.2⟩

structure Carried (c : Crypto) (messages : List Bytes) (chunks : List (Bytes × Bool)) : Prop where
  fromClient : ∀ m ∈ messages, ClientMessage m
  sizes : ∀ chunk ∈ chunks, 0 < chunk.1.length ∧ chunk.1.length ≤ packetSize
  stream : (chunks.map Prod.fst).flatten = sentBytes c messages

/- Every result of `recv` is one whole ciphertext that leaves room for a zero, and only
the last message may end the session. -/
structure OnePacketEach (c : Crypto) (messages : List Bytes) (chunks : List (Bytes × Bool)) : Prop where
  whole : chunks.map Prod.fst = messages.map c.encryptString
  fits : ∀ m ∈ messages, m.length < 240
  continues : ∀ row ∈ (messages.zip (chunks.map Prod.snd)).dropLast, endsSession row.2 (branch row.1) = false

theorem clientMessageActs {m : Bytes} (h : ClientMessage m) : m ≠ [] ∧ branch m ≠ .reject := by
  cases h with
  | message command => exact ⟨by simp,by simp [branch]⟩
  | cancel => exact ⟨by simp,by decide⟩
  | disconnect => exact ⟨by simp,by decide⟩

theorem digitNonzero {n : Nat} (small : n < 16) : digit n ≠ 0 := by
  have digits : ∀ n : Fin 16, digit n.val ≠ 0 := by decide
  exact digits ⟨n,small⟩

theorem cipherClean (c : Crypto) (m : Bytes) : 0 ∉ c.encryptString m := by
  intro mem
  obtain ⟨n,small,zero⟩ := c.encryptStringDigits mem
  exact digitNonzero small zero.symm

def cipherSize (m : Bytes) : Nat := 2*(m.length+16)

theorem receiveCipher (c : Crypto) {m : Bytes} (nonempty : m ≠ []) (fits : m.length < 240) :
    ∃ n, n ≠ 0 ∧ receive c (.bytes (c.encryptString m)) = some ⟨n,m⟩ := by
  have size := c.encryptStringLength nonempty
  have short : (c.encryptString m).length < packetSize := by rw [size]; unfold packetSize; omega
  have positive : bytesReceived (.bytes (c.encryptString m)) ≠ 0 := by
    simp only [bytesReceived,size]; omega
  refine ⟨_,positive,?_⟩
  simp only [receive,if_neg positive,assignShort (cipherClean c m) short,bind,Option.bind,c.decryptEncrypt]

theorem receiveLong (c : Crypto) {m : Bytes} (nonempty : m ≠ []) (long : 240 ≤ m.length)
    (sizes : (c.encryptString m).length ≤ packetSize) :
    receive c (.bytes (c.encryptString m)) = none := by
  have size := c.encryptStringLength nonempty
  have full : packetSize ≤ (c.encryptString m).length := by rw [size]; unfold packetSize; omega
  have positive : bytesReceived (.bytes (c.encryptString m)) ≠ 0 := by
    simp only [bytesReceived,size]; unfold packetSize at sizes; omega
  simp only [receive,if_neg positive,assignFull (cipherClean c m) full,bind,Option.bind]

theorem turnCovers {c : Crypto} {chunk : Bytes} {got : Received}
    (digits : ∀ b ∈ chunk, ∃ n < 16, b = digit n) (ok : receive c (.bytes chunk) = some got)
    (nonempty : got.sPacket ≠ []) : cipherSize got.sPacket ≤ chunk.length := by
  have clean : 0 ∉ chunk := fun mem =>
    let ⟨_,small,zero⟩ := digits 0 mem
    digitNonzero small zero.symm
  unfold receive at ok
  split at ok
  · cases Option.some.inj ok; exact (nonempty rfl).elim
  · obtain ⟨text,assigned,last⟩ := Option.bind_eq_some_iff.mp ok
    cases Option.some.inj last
    have short : chunk.length < packetSize := by
      refine Nat.lt_of_not_le fun full => ?_
      rw [assignFull clean full] at assigned
      contradiction
    rw [assignShort clean short,Option.some.injEq] at assigned
    subst text
    have output : 0 < (c.decryptString chunk).length := List.length_pos_iff.mpr nonempty
    have length := c.decryptStringLength chunk
    rw [hexDecodeLength,valueOfDigits digits] at length
    simp only [cipherSize]
    omega

theorem serveCons {c : Crypto} {turn : Turn} {rest : List Turn} {messages : List Bytes}
    (ok : serve c (turn::rest) = some messages) :
    ∃ got, receive c turn.recv = some got ∧
      (messages = [] ∨ branch got.sPacket ≠ .reject ∧ ∃ tail, messages = got.sPacket::tail ∧
        (tail = [] ∨ endsSession turn.stops (branch got.sPacket) = false ∧
          serve c rest = some tail)) := by
  simp only [serve,bind,Option.bind_eq_some_iff] at ok
  obtain ⟨got,received,ok⟩ := ok
  refine ⟨got,received,?_⟩
  split at ok
  · cases Option.some.inj ok; exact .inl rfl
  · rename_i dispatched
    have acts : branch got.sPacket ≠ .reject := fun rejected => dispatched (.inr rejected)
    split at ok
    · cases Option.some.inj ok
      exact .inr ⟨acts,[],rfl,.inl rfl⟩
    · rename_i continues
      obtain ⟨tail,served,last⟩ := Option.map_eq_some_iff.mp ok
      cases last
      exact .inr ⟨acts,tail,rfl,.inr ⟨by simpa using continues,served⟩⟩

theorem serveCovers {c : Crypto} {chunks : List (Bytes × Bool)} {messages : List Bytes}
    (digits : ∀ chunk ∈ chunks, ∀ b ∈ chunk.1, ∃ n < 16, b = digit n)
    (sizes : ∀ chunk ∈ chunks, 0 < chunk.1.length)
    (ok : serve c (turns chunks) = some messages) :
    (messages.map cipherSize).sum ≤ (chunks.map fun chunk => chunk.1.length).sum ∧
    ((chunks.map fun chunk => chunk.1.length).sum ≤ (messages.map cipherSize).sum →
      chunks.map (fun chunk => chunk.1.length) = messages.map cipherSize) := by
  induction chunks generalizing messages with
  | nil => cases Option.some.inj ok; simp
  | cons chunk rest ih =>
    have here := sizes chunk List.mem_cons_self
    obtain ⟨got,received,shape⟩ := serveCons ok
    rcases shape with rfl | ⟨acts,tail,rfl,last⟩
    · simp only [List.map_nil,List.map_cons,List.sum_nil,List.sum_cons]
      exact ⟨by omega,by omega⟩
    · have nonempty : got.sPacket ≠ [] := by
        intro empty
        exact acts (by rw [empty]; rfl)
      have covers := turnCovers (digits chunk List.mem_cons_self) received nonempty
      rcases last with rfl | ⟨_,served⟩
      · cases rest with
        | nil =>
          simp only [List.map_cons,List.map_nil,List.sum_cons,List.sum_nil,List.cons.injEq,and_true]
          exact ⟨by omega,by omega⟩
        | cons next rest =>
          have there := sizes next (by simp)
          simp only [List.map_cons,List.map_nil,List.sum_cons,List.sum_nil]
          exact ⟨by omega,by omega⟩
      · have tailCovers := ih (fun chunk mem => digits chunk (List.mem_cons_of_mem _ mem))
          (fun chunk mem => sizes chunk (List.mem_cons_of_mem _ mem)) served
        simp only [List.map_cons,List.sum_cons,List.cons.injEq]
        refine ⟨by omega,fun total => ⟨by omega,tailCovers.2 (by omega)⟩⟩

theorem serveWhole {c : Crypto} {messages : List Bytes} {flags : List Bool}
    (fromClient : ∀ m ∈ messages, ClientMessage m)
    (sizes : ∀ m ∈ messages, (c.encryptString m).length ≤ packetSize)
    (paired : flags.length = messages.length) :
    serve c (turns ((messages.map c.encryptString).zip flags)) = some messages ↔
      (∀ m ∈ messages, m.length < 240) ∧
      ∀ row ∈ (messages.zip flags).dropLast, endsSession row.2 (branch row.1) = false := by
  induction messages generalizing flags with
  | nil => simp [turns,serve]
  | cons m rest ih =>
    cases flags with
    | nil => simp at paired
    | cons flag flags =>
      obtain ⟨nonempty,acts⟩ := clientMessageActs (fromClient m List.mem_cons_self)
      have tail := ih (fun m mem => fromClient m (List.mem_cons_of_mem _ mem))
        (fun m mem => sizes m (List.mem_cons_of_mem _ mem)) (by simpa using paired)
      by_cases fits : m.length < 240
      · obtain ⟨n,positive,received⟩ := receiveCipher c nonempty fits
        have open_ : ¬ (n = 0 ∨ branch m = .reject) := by
          intro closed
          rcases closed with zero | rejected
          · exact positive zero
          · exact acts rejected
        simp only [turns,List.map_cons,List.zip_cons_cons,serve,received,bind,Option.bind,if_neg open_]
        cases rest with
        | nil =>
          have none : flags = [] := by simpa using paired
          subst flags
          cases endsSession flag (branch m) <;> simp [serve,fits]
        | cons next rest =>
          cases flags with
          | nil => simp at paired
          | cons other flags =>
            cases flagged : endsSession flag (branch m) with
            | true => simp [flagged]
            | false =>
              simp only [turns] at tail
              simp only [Bool.false_eq_true,if_false,Option.map_eq_some_iff,List.cons.injEq,
                true_and,exists_eq_right,tail,List.mem_cons,forall_eq_or_imp,fits,
                List.zip_cons_cons,List.dropLast_cons_cons,flagged]
      · have fault := receiveLong c nonempty (by omega) (sizes m List.mem_cons_self)
        simp only [turns,List.map_cons,List.zip_cons_cons,serve,fault,bind,Option.bind]
        constructor
        · intro absurd; contradiction
        · intro law; exact (fits (law.1 m List.mem_cons_self)).elim

theorem sentDigits {c : Crypto} {messages : List Bytes} : ∀ b ∈ sentBytes c messages, ∃ n < 16, b = digit n := by
  intro b mem
  obtain ⟨cipher,member,inside⟩ := List.mem_flatten.mp mem
  obtain ⟨m,_,rfl⟩ := List.mem_map.mp member
  exact c.encryptStringDigits inside

section
variable {c : Crypto} {messages : List Bytes} {chunks : List (Bytes × Bool)}

theorem wholeServes (carried : Carried c messages chunks)
    (whole : chunks.map Prod.fst = messages.map c.encryptString) :
    serve c (turns chunks) = some messages ↔ (∀ m ∈ messages, m.length < 240) ∧
      ∀ row ∈ (messages.zip (chunks.map Prod.snd)).dropLast, endsSession row.2 (branch row.1) = false := by
  have paired : (chunks.map Prod.snd).length = messages.length := by
    simpa using congrArg List.length whole
  have sizes : ∀ m ∈ messages, (c.encryptString m).length ≤ packetSize := by
    intro m mem
    have present : c.encryptString m ∈ chunks.map Prod.fst := whole ▸ List.mem_map_of_mem mem
    obtain ⟨chunk,member,same⟩ := List.mem_map.mp present
    exact same ▸ (carried.sizes chunk member).2
  have zipped : (chunks.map Prod.fst).zip (chunks.map Prod.snd) = chunks := by
    simpa only [List.unzip_fst,List.unzip_snd] using List.zip_unzip chunks
  have law := serveWhole carried.fromClient sizes paired
  rw [← whole,zipped] at law
  exact law

theorem servedWhole (carried : Carried c messages chunks) (ok : serve c (turns chunks) = some messages) :
    chunks.map Prod.fst = messages.map c.encryptString := by
  have covers := serveCovers (fun chunk mem b inside => sentDigits b (by
      rw [← carried.stream]
      exact List.mem_flatten.mpr ⟨chunk.1,List.mem_map_of_mem mem,inside⟩))
    (fun chunk mem => (carried.sizes chunk mem).1) ok
  have cipherLengths : (messages.map c.encryptString).map List.length = messages.map cipherSize := by
    rw [List.map_map]
    refine List.map_congr_left fun m mem => ?_
    exact c.encryptStringLength (clientMessageActs (carried.fromClient m mem)).1
  have total : (chunks.map fun chunk => chunk.1.length).sum = (messages.map cipherSize).sum := by
    have size := congrArg List.length carried.stream
    rw [sentBytes,List.length_flatten,List.length_flatten,cipherLengths,List.map_map] at size
    exact size
  have lengths := covers.2 (Nat.le_of_eq total)
  refine List.eq_iff_flatten_eq.mpr ⟨carried.stream,?_⟩
  rw [cipherLengths,List.map_map]
  exact lengths

end

theorem messagesSurviveIff {c : Crypto} {messages : List Bytes} {chunks : List (Bytes × Bool)}
    (carried : Carried c messages chunks) :
    serve c (turns chunks) = some messages ↔ OnePacketEach c messages chunks := by
  constructor
  · intro ok
    have whole := servedWhole carried ok
    obtain ⟨fits,continues⟩ := (wholeServes carried whole).mp ok
    exact ⟨whole,fits,continues⟩
  · intro each
    exact (wholeServes carried each.whole).mpr ⟨each.fits,each.continues⟩

def listDirectory : Bytes := ascii "Mls"
def printDirectory : Bytes := ascii "Mpwd"

theorem separatePacketsSurvive :
    serve secretCrypto (turns [(secretCrypto.encryptString listDirectory,false),
      (secretCrypto.encryptString printDirectory,false)]) = some [listDirectory,printDirectory] := by
  refine (messagesSurviveIff ⟨?_,by decide +kernel,by decide +kernel⟩).mpr
    ⟨by decide +kernel,by decide +kernel,by decide +kernel⟩
  intro m mem
  rcases List.mem_pair.mp mem with rfl | rfl <;> exact .message _

theorem coalescedMessagesMerge :
    Carried secretCrypto [listDirectory,printDirectory]
      [(sentBytes secretCrypto [listDirectory,printDirectory],false)] ∧
    serve secretCrypto (turns [(sentBytes secretCrypto [listDirectory,printDirectory],false)]) ≠
      some [listDirectory,printDirectory] := by
  refine ⟨⟨?_,by decide +kernel,by decide +kernel⟩,by decide +kernel⟩
  intro m mem
  rcases List.mem_pair.mp mem with rfl | rfl <;> exact .message _

end RemoteTerminal
