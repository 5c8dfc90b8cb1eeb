import RemoteTerminal.Server.Lock
import RemoteTerminal.Library.CharArray

/-! The relay loop of `HandleClientPipe` with its array `readPipeBuffer[513]`. Each chunk
goes through the array as a zero-terminated string, so the frames give back what the
command wrote exactly if there is no zero in it. -/
namespace RemoteTerminal
open ByteStrings CharArray LabelledRuns EntryTable

/- What one `read` of the loop returned, and whether `exitCode` was 1 when there was
nothing to read. -/
inductive PipeRead where
  | output (b : Bytes)
  | again (cancelled : Bool)
  | ended
  deriving DecidableEq, Repr

def readPipeBufferSize : Nat := 513

namespace HandleClientPipe

def relayed (c : Crypto) : Bytes → List PipeRead → Option (List Bytes)
  | _,[] => some []
  | readPipeBuffer,.output b::rest => do
    let filled := overwrite readPipeBuffer b
    let serverOutput ← assign filled
    let frames ← relayed c (clear filled) rest
    some ((Sent.frame serverOutput).wire c::frames)
  | readPipeBuffer,.again cancelled::rest =>
    if cancelled then some [] else relayed c (clear readPipeBuffer) rest
  | _,.ended::_ => some []

def chunks : List PipeRead → List Bytes
  | [] => []
  | .output b::rest => b::chunks rest
  | .again cancelled::rest => if cancelled then [] else chunks rest
  | .ended::_ => []

end HandleClientPipe
open HandleClientPipe

def plaintext (c : Crypto) (frame : Bytes) : Bytes := c.decryptString frame.dropLast

def Relays (c : Crypto) (reads : List PipeRead) : Prop :=
  ∃ frames, relayed c (zeros readPipeBufferSize) reads = some frames ∧
    frames.flatMap (plaintext c) = (chunks reads).flatten

def PipeRead.Sized : PipeRead → Prop
  | .output b => 0 < b.length ∧ b.length ≤ 512
  | .again _ | .ended => True
instance : (read : PipeRead) → Decidable read.Sized
  | .output _ => by dsimp only [PipeRead.Sized]; infer_instance
  | .again _ | .ended => isTrue trivial

theorem plaintextWire (c : Crypto) (text : Bytes) : plaintext c ((Sent.frame text).wire c) = text := by
  have bar : ascii "|" = [124] := by decide
  rw [plaintext,Sent.wire,bar,List.dropLast_concat,c.decryptEncrypt]

theorem assignChunk {b : Bytes} (size : b.length ≤ 512) :
    assign (overwrite (zeros readPipeBufferSize) b) = some (cString b) := by
  have zero : 0 ∈ overwrite (zeros readPipeBufferSize) b := by
    rw [zeroInOverwrite]
    exact .inr (Nat.lt_succ_of_le size)
  rw [assign,if_pos zero,cStringOverwrite]

theorem relayedFrames (c : Crypto) {reads : List PipeRead} (sized : ∀ read ∈ reads, read.Sized) :
    relayed c (zeros readPipeBufferSize) reads =
      some ((chunks reads).map fun b => (Sent.frame (cString b)).wire c) := by
  induction reads with
  | nil => rfl
  | cons read rest ih =>
    have tail := ih fun read mem => sized read (List.mem_cons_of_mem _ mem)
    cases read with
    | output b =>
      have size := (sized _ List.mem_cons_self).2
      have length : b.length ≤ (zeros readPipeBufferSize).length := by
        rw [zerosLength]; exact Nat.le_succ_of_le size
      have cleared := clearSized ((overwriteLength length).trans zerosLength)
      simp [relayed,chunks,assignChunk size,cleared,tail]
    | again cancelled =>
      have cleared : clear (zeros readPipeBufferSize) = zeros readPipeBufferSize := clearSized zerosLength
      cases cancelled <;> simp [relayed,chunks,cleared,tail]
    | ended => rfl

/-- The frames give back what was read exactly if no zero byte was among it. -/
theorem relayedIff (c : Crypto) (reads : List PipeRead) (sized : ∀ read ∈ reads, read.Sized) :
    Relays c reads ↔ 0 ∉ (chunks reads).flatten := by
  rw [Relays,relayedFrames c sized,← cStringsSame]
  have plain : ((chunks reads).map fun b => (Sent.frame (cString b)).wire c).flatMap (plaintext c) =
      (chunks reads).flatMap cString := by
    rw [List.flatMap_map]
    simp only [plaintextWire]
  constructor
  · rintro ⟨frames,sent,same⟩
    cases Option.some.inj sent
    exact plain.symm.trans same
  · exact fun same => ⟨_,rfl,plain.trans same⟩

def listing : List PipeRead := [.output (ascii "a.txt\n"),.again false,.output (ascii "b.txt\n"),.ended]

theorem listingRelayed : Relays secretCrypto listing :=
  (relayedIff secretCrypto listing (by decide)).mpr (by decide)

def zeroInside : List PipeRead := [.output [104,0,105]]

theorem zeroByteCutsChunk : (∀ read ∈ zeroInside, read.Sized) ∧ ¬ Relays secretCrypto zeroInside := by
  have sized : ∀ read ∈ zeroInside, read.Sized := by decide
  refine ⟨sized,?_⟩
  rintro ⟨frames,sent,same⟩
  rw [relayedFrames secretCrypto sized] at sent
  cases Option.some.inj sent
  rw [List.flatMap_map] at same
  simp only [plaintextWire] at same
  revert same
  decide

structure Relayed where
  read : List Bytes
  sent : List Bytes
  deriving DecidableEq, Repr

def NewConsole.Pc.chunk : NewConsole.Pc → List Bytes
  | .relay b => [b]
  | _ => []

def SlotState.chunk (s : SlotState) (k : Nat) : List Bytes :=
  match s.consoles[k]? with
  | some console => console.pc.chunk
  | none => []

def noteRelay (k : Nat) (memo : Relayed) (s : SlotState) : SlotLabel → Call → SlotState → Relayed
  | .console j r,call,_ => if j = k then
      match call,r with
      | .read _,.output b => {memo with read := memo.read ++ [b]}
      | .send _ (.frame text),_ => if s.chunk k = [] then memo else {memo with sent := memo.sent ++ [text]}
      | _,_ => memo
    else memo
  | _,_,_ => memo

def ReadsSized (k : Nat) (_ : SlotState × Relayed) : SlotLabel → Prop
  | .console j (.output b) => j = k → (PipeRead.output b).Sized
  | _ => True

structure Carries (k : Nat) (s : SlotState × Relayed) : Prop where
  sent : s.2.read.map cString = s.2.sent ++ (s.1.chunk k).map cString
  sized : ∀ b ∈ s.2.read, (PipeRead.output b).Sized

theorem consoleChunk {t s r call t' s'} (h : NewConsole.Steps t s r call t' s') :
    (∃ b descriptor, r = .output b ∧ call = .read descriptor ∧ t.pc.chunk = [] ∧ t'.pc.chunk = [b]) ∨
    (∃ b socket, call = .send socket (.frame (cString b)) ∧ t.pc.chunk = [b] ∧ t'.pc.chunk = []) ∨
    (t.pc.chunk = [] ∧ t'.pc.chunk = [] ∧ ∀ b, r ≠ .output b) := by
  cases h with
  | output at_ => exact .inl ⟨_,_,rfl,rfl,by rw [at_]; rfl,rfl⟩
  | relay at_ => exact .inr (.inl ⟨_,_,rfl,by rw [at_]; rfl,rfl⟩)
  | returnDirectory at_ outcome | ended at_ outcome | kill at_ outcome | killNext at_ outcome =>
    refine .inr (.inr ⟨by rw [at_]; rfl,rfl,fun b => ?_⟩)
    rcases outcome with rfl | rfl <;> exact nofun
  | _ at_ => exact .inr (.inr ⟨by rw [at_]; rfl,rfl,nofun⟩)

theorem chunkAt {s : SlotState} {k : Nat} {thread : NewConsole.Thread} (here : s.consoles[k]? = some thread) :
    s.chunk k = thread.pc.chunk := by simp [SlotState.chunk,here]

theorem chunkPushed {s : SlotState} {k : Nat} {thread next : NewClient.Thread} (t : Nat) :
    SlotState.chunk ⟨s.slot,s.clients.set t next,s.consoles ++ [NewConsole.created thread.socketID]⟩ k =
      s.chunk k := by
  by_cases last : k = s.consoles.length
  · subst last
    simp [SlotState.chunk,NewConsole.created,NewConsole.Pc.chunk]
  · simp only [SlotState.chunk,pushAt,if_neg last]

theorem carriesConsole {k : Nat} {s : SlotState} {memo : Relayed} {thread next : NewConsole.Thread} {r : Result}
    {call : Call} {slot : Slot} (carries : Carries k (s,memo)) (sized : ReadsSized k (s,memo) (.console k r))
    (here : s.consoles[k]? = some thread) (step : NewConsole.Steps thread s.slot r call next slot) :
    Carries k (⟨slot,s.clients,s.consoles.set k next⟩,
      noteRelay k memo s (.console k r) call ⟨slot,s.clients,s.consoles.set k next⟩) := by
  have before := chunkAt here
  have after : SlotState.chunk ⟨slot,s.clients,s.consoles.set k next⟩ k = next.pc.chunk :=
    chunkAt (by simp [setAt here])
  have sent := carries.sent
  rw [before] at sent
  rcases consoleChunk step with ⟨b,descriptor,rfl,rfl,free,holds⟩ | ⟨b,socket,rfl,holds,free⟩ |
    ⟨free,still,noOutput⟩
  · rw [free] at sent
    refine ⟨?_,?_⟩
    · rw [after,holds]
      simpa [noteRelay] using sent
    · simpa [noteRelay,or_imp,forall_and] using ⟨carries.sized,sized rfl⟩
  · rw [holds] at sent
    refine ⟨?_,?_⟩
    · rw [after,free]
      simpa [noteRelay,before,holds] using sent
    · simpa [noteRelay,before,holds] using carries.sized
  · have same : noteRelay k memo s (.console k r) call
        ⟨slot,s.clients,s.consoles.set k next⟩ = memo := by
      simp only [noteRelay,if_true]
      split
      · exact (noOutput _ rfl).elim
      · rw [if_pos (before.trans free)]
      · rfl
    rw [free] at sent
    rw [same]
    exact ⟨by rw [after,still]; exact sent,carries.sized⟩

theorem carriesStep {host : Host} {maxClients k : Nat} {s s' : SlotState × Relayed} {l : SlotLabel} {call : Call}
    (carries : Carries k s) (sized : ReadsSized k s l) (h : SlotStep host maxClients s.1 l call s'.1)
    (noted : s'.2 = noteRelay k s.2 s.1 l call s'.1) : Carries k s' := by
  obtain ⟨s,memo⟩ := s
  obtain ⟨s',memo'⟩ := s'
  dsimp only at h noted
  subst noted
  cases h with
  | listen step => exact ⟨carries.sent,carries.sized⟩
  | start => exact ⟨carries.sent,carries.sized⟩
  | client here step noThread joined => exact ⟨carries.sent,carries.sized⟩
  | @created t thread here at_ =>
    refine ⟨carries.sent.trans ?_,carries.sized⟩
    rw [chunkPushed]
    rfl
  | @console j r thread call next slot here step =>
    by_cases mine : j = k
    · subst mine
      exact carriesConsole carries sized here step
    · have other : SlotState.chunk ⟨slot,s.clients,s.consoles.set j next⟩ k = s.chunk k := by
        simp only [SlotState.chunk,setAt here,if_neg (Ne.symm mine)]
      have same : noteRelay k memo s (.console j r) call ⟨slot,s.clients,s.consoles.set j next⟩ = memo := by
        simp only [noteRelay,if_neg mine]
      rw [same]
      exact ⟨by rw [other]; exact carries.sent,carries.sized⟩

theorem chunksOutput (read : List Bytes) : chunks (read.map .output) = read := by
  induction read with
  | nil => rfl
  | cons b rest ih => rw [List.map_cons,chunks,ih]

theorem relayedInRun {host : Host} {maxClients k : Nat} {s : SlotState} {t : SlotState × Relayed}
    (c : Crypto) (none : NoThreads s)
    (run : Reaches (watch (slotMachine host maxClients) (noteRelay k)) (ReadsSized k) (s,⟨[],[]⟩) t)
    (between : t.1.chunk k = []) : relayed c (zeros readPipeBufferSize) (t.2.read.map .output) =
      some (t.2.sent.map fun text => (Sent.frame text).wire c) := by
  have start : Carries k (s,⟨[],[]⟩) := ⟨by simp [SlotState.chunk,none.consoles],nofun⟩
  have carries : Carries k t := by
    refine invariantOfStep (fun carries sized act => ?_) run start
    obtain ⟨act,noted⟩ := watchAct act
    exact carriesStep carries sized (slotStep act) noted
  have sent := carries.sent
  rw [between,List.map_nil,List.append_nil] at sent
  rw [relayedFrames c (by simpa using carries.sized),chunksOutput,← sent,List.map_map]
  rfl

end RemoteTerminal
