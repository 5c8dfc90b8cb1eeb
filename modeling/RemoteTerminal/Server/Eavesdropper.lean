import RemoteTerminal.Server.Wire

/-! Every string is encrypted with the same key and the same initialization vector, by both
sides and in every session. One who knows the text of a single ciphertext reads the others
and writes new ones, without the key. -/
namespace RemoteTerminal
open ByteStrings HexCodec

def xorBytes (a b : Bytes) : Bytes := List.zipWith (· ^^^ ·) a b

def bodyOf (encryptedText : Bytes) : Bytes := (hexDecode encryptedText).take ((hexDecode encryptedText).length-16)

def learned (known encryptedText : Bytes) : Bytes := xorBytes (bodyOf encryptedText) known

def eavesdrop (keystream encryptedText : Bytes) : Bytes := xorBytes (bodyOf encryptedText) keystream

def forge (keystream plainText tag : Bytes) : Bytes := hexEncode (xorBytes plainText keystream ++ tag)

def keystreamPart (stream : Nat → UInt8) (n k : Nat) : Bytes := (List.range k).map fun i => stream (n+i)

theorem keystreamPartSucc (stream : Nat → UInt8) (n k : Nat) :
    keystreamPart stream n (k+1) = stream n :: keystreamPart stream (n+1) k := by
  simp only [keystreamPart,List.range_succ_eq_map,List.map_cons,List.map_map,Nat.add_zero]
  congr 1
  exact List.map_congr_left fun i _ => congrArg stream (Nat.add_assoc n i 1 ▸ Nat.add_right_comm n i 1)

theorem xorKeystream (stream : Nat → UInt8) (n k : Nat) (s : Bytes) :
    xorBytes s (keystreamPart stream n k) = mask stream n (s.take k) := by
  induction s generalizing n k with
  | nil => simp [xorBytes,mask]
  | cons b rest ih =>
    cases k with
    | zero => rfl
    | succ k =>
      rw [keystreamPartSucc,List.take_succ_cons,mask,← ih]
      rfl

theorem xorMasked (stream : Nat → UInt8) (n : Nat) (s : Bytes) :
    xorBytes (mask stream n s) s = keystreamPart stream n s.length := by
  induction s generalizing n with
  | nil => rfl
  | cons b rest ih =>
    rw [List.length_cons,keystreamPartSucc,← ih]
    have here : b ^^^ stream n ^^^ b = stream n := by
      rw [UInt8.xor_comm b,UInt8.xor_assoc,UInt8.xor_self,UInt8.xor_zero]
    simp only [xorBytes,mask,List.zipWith_cons_cons,here]

section
variable (c : Crypto)

theorem bodyOfEncrypted (s : Bytes) : bodyOf (c.encryptString s) = mask c.stream 0 s := by
  have body := c.decryptStringSink (c.encryptString s)
  rw [c.decryptEncrypt] at body
  have twice := congrArg (mask c.stream 0) body
  rw [maskMask] at twice
  exact twice.symm

theorem learnedKeystream (known : Bytes) :
    learned known (c.encryptString known) = keystreamPart c.stream 0 known.length := by
  rw [learned,bodyOfEncrypted,xorMasked]

/-- Of every other text one reads as many bytes as of the known one. -/
theorem eavesdropperReads (known secret : Bytes) :
    eavesdrop (learned known (c.encryptString known)) (c.encryptString secret) = secret.take known.length := by
  rw [learnedKeystream,eavesdrop,bodyOfEncrypted,xorKeystream,maskTake,maskMask]

theorem forgedDecrypts {known plainText tag : Bytes} (covered : plainText.length ≤ known.length)
    (size : tag.length = 16) :
    c.decryptString (forge (learned known (c.encryptString known)) plainText tag) = plainText := by
  rw [learnedKeystream,c.decryptStringSink,forge,hexDecodeEncode,xorKeystream,List.take_of_length_le covered]
  simp only [List.length_append,size,Nat.add_sub_cancel,List.take_left,maskMask]

theorem forgedLength {known plainText tag : Bytes} (covered : plainText.length ≤ known.length)
    (size : tag.length = 16) :
    (forge (learned known (c.encryptString known)) plainText tag).length = 2*(plainText.length+16) := by
  rw [learnedKeystream,forge,hexEncodeLength,xorKeystream,List.take_of_length_le covered,List.length_append,
    maskLength,size]

end

theorem receiveAlike {c : Crypto} {v w : Bytes} (cleanV : 0 ∉ v) (cleanW : 0 ∉ w) (size : v.length = w.length)
    (text : c.decryptString v = c.decryptString w) : receive c (.bytes v) = receive c (.bytes w) := by
  have received : bytesReceived (.bytes v) = bytesReceived (.bytes w) := by simp only [bytesReceived,size]
  by_cases nothing : bytesReceived (.bytes w) = 0
  · simp only [receive,received,if_pos nothing]
  · by_cases short : w.length < packetSize
    · simp only [receive,received,if_neg nothing,assignShort cleanV (size ▸ short),assignShort cleanW short,
        bind,Option.bind_some,text]
    · have full : packetSize ≤ w.length := by omega
      simp only [receive,received,if_neg nothing,assignFull cleanV (size ▸ full),assignFull cleanW full,
        bind,Option.bind_none]

structure Forgery where
  plainText : Bytes
  tag : Bytes
  stops : Bool

def Forgery.genuine (c : Crypto) (f : Forgery) : Turn := ⟨.bytes (c.encryptString f.plainText),f.stops⟩

def Forgery.forged (keystream : Bytes) (f : Forgery) : Turn := ⟨.bytes (forge keystream f.plainText f.tag),f.stops⟩

section
variable {c : Crypto} {known : Bytes}

theorem forgedReceived {f : Forgery} (nonempty : f.plainText ≠ []) (covered : f.plainText.length ≤ known.length)
    (size : f.tag.length = 16) : receive c (f.forged (learned known (c.encryptString known))).recv =
      receive c (f.genuine c).recv := by
  refine receiveAlike ?_ (cipherClean c f.plainText) ?_ ?_
  · intro mem
    obtain ⟨n,small,zero⟩ := hexEncodeDigits mem
    exact digitNonzero small zero.symm
  · rw [forgedLength c covered size,c.encryptStringLength nonempty]
  · rw [forgedDecrypts c covered size,c.decryptEncrypt]

/-- After one known text the server serves a whole session of one who has no key exactly as
that of one who has it, whatever the tags are: the same plaintexts are dispatched, as long
as none is longer than the known text. -/
theorem forgedServed {forgeries : List Forgery} (nonempty : ∀ f ∈ forgeries, f.plainText ≠ [])
    (covered : ∀ f ∈ forgeries, f.plainText.length ≤ known.length) (size : ∀ f ∈ forgeries, f.tag.length = 16) :
    serve c (forgeries.map (Forgery.forged (learned known (c.encryptString known)))) =
      serve c (forgeries.map (Forgery.genuine c)) := by
  induction forgeries with
  | nil => rfl
  | cons f rest ih =>
    have now := forgedReceived (c := c) (nonempty f List.mem_cons_self) (covered f List.mem_cons_self)
      (size f List.mem_cons_self)
    have later := ih (fun g mem => nonempty g (List.mem_cons_of_mem f mem))
      (fun g mem => covered g (List.mem_cons_of_mem f mem)) (fun g mem => size g (List.mem_cons_of_mem f mem))
    simp only [List.map_cons,serve,now,later]
    rfl

end

theorem overheardLs : serve secretCrypto
    (([⟨ascii "Mls",List.replicate 16 0,false⟩,⟨ascii "C",List.replicate 16 7,false⟩] : List Forgery).map
      (Forgery.forged (learned (ascii "\n[Process 100 killed]")
        (secretCrypto.encryptString (ascii "\n[Process 100 killed]"))))) = some [ascii "Mls",ascii "C"] := by
  rw [forgedServed (by decide) (by decide) (by decide)]
  decide +kernel

end RemoteTerminal
