import RemoteTerminal.Client.Machine
import RemoteTerminal.Library.Delimited

/-! What the window shows of what the server sends. Each frame is one ciphertext and one
'|'. `CheckMessages` decrypts what it finds between the '|' in `ServerOutput` and clears
it, wherever the stream happens to be cut; a part of a ciphertext decrypts to less than
its share of the text, so the whole text appears only where nothing was cut or cleared. Each
call makes a `QString` of what it has decrypted, so no character may be cut either. -/
namespace RemoteTerminal
open ByteStrings HexCodec LabelledRuns Delimited
open PlainText (Text)

variable {qt : Qt}

def framesWire (c : Crypto) (frames : List Bytes) : Bytes :=
  frames.flatMap fun text => (Sent.frame text).wire c

def textLength (c : Crypto) (p : Bytes) : Nat := (c.decryptString p).length

theorem textLengthDigits (c : Crypto) (p : Bytes) :
    textLength c p = (p.filterMap value).length / 2 - 16 := by
  rw [textLength,c.decryptStringLength,hexDecodeLength]

theorem textLengthAdditive (c : Crypto) (x y : Bytes) :
    textLength c x + textLength c y ≤ textLength c (x ++ y) := by
  simp only [textLengthDigits,List.filterMap_append,List.length_append]
  omega

theorem cipherIndivisible (c : Crypto) {m : Bytes} (nonempty : m ≠ []) :
    Indivisible (textLength c) (c.encryptString m) := by
  have text : textLength c (c.encryptString m) = m.length := by rw [textLength,c.decryptEncrypt]
  have some := List.length_pos_iff.mpr nonempty
  constructor
  · omega
  · intro x y split someX someY
    have size := c.encryptStringLength nonempty
    have digits : ∀ b ∈ x ++ y, ∃ n < 16, b = digit n :=
      fun b mem => c.encryptStringDigits (split ▸ mem)
    have digitsX := valueOfDigits fun b mem => digits b (List.mem_append_left _ mem)
    have digitsY := valueOfDigits fun b mem => digits b (List.mem_append_right _ mem)
    have sizeX := List.length_pos_iff.mpr someX
    have sizeY := List.length_pos_iff.mpr someY
    rw [split,List.length_append] at size
    rw [text,textLengthDigits,textLengthDigits,digitsX,digitsY]
    omega

def Plain (l : Bytes) : Prop := ∀ b ∈ l, b = delimiter ∨ ∃ n < 16, b = digit n

theorem plainAppend {a b : Bytes} : Plain (a ++ b) ↔ Plain a ∧ Plain b := by
  simp only [Plain,List.forall_mem_append]

theorem plainByte {l : Bytes} (plain : Plain l) {b : UInt8} (other : ∀ n : Fin 16, digit n.val ≠ b)
    (notDelimiter : b ≠ delimiter) : b ∉ l := by
  intro mem
  rcases plain b mem with same | ⟨n,small,same⟩
  · exact notDelimiter same
  · exact other ⟨n,small⟩ same.symm

theorem plainNoZero {l : Bytes} (plain : Plain l) : 0 ∉ l := plainByte plain (by decide) (by decide)

theorem plainNoEnd {l : Bytes} (plain : Plain l) : contains l endTransmissionCode = false := by
  refine decide_eq_false fun inside => ?_
  exact plainByte plain (by decide) (by decide) (inside.subset (show (79 : UInt8) ∈ _ by decide))

theorem outputTextPlain (c : Crypto) {l : Bytes} (plain : Plain l) :
    FrmMain.outputText c l = (pieces delimiter l).flatMap c.decryptString := by
  have noEnd : ∀ p ∈ l.splitOn delimiter, p ≠ endTransmissionCode := by
    rintro p piece rfl
    exact plainByte plain (b := 79) (by decide) (by decide) (splitMem piece (by decide))
  unfold FrmMain.outputText pieces
  generalize l.splitOn delimiter = ps at noEnd ⊢
  induction ps with
  | nil => rfl
  | cons p rest ih =>
    have tail := ih fun q mem => noEnd q (List.mem_cons_of_mem _ mem)
    have head := noEnd p List.mem_cons_self
    cases p with
    | nil => simpa using tail
    | cons b q => simp [head,tail]

theorem cipherPlain (c : Crypto) (m : Bytes) : Plain (c.encryptString m) :=
  fun _ mem => .inr (c.encryptStringDigits mem)

theorem delimiterNotInCipher (c : Crypto) (m : Bytes) : delimiter ∉ c.encryptString m := by
  intro mem
  obtain ⟨n,small,same⟩ := c.encryptStringDigits mem
  have digits : ∀ n : Fin 16, delimiter ≠ digit n.val := by decide
  exact digits ⟨n,small⟩ same

theorem framesWireCons (c : Crypto) (text : Bytes) (rest : List Bytes) :
    framesWire c (text::rest) = c.encryptString text ++ delimiter::framesWire c rest := by
  have bar : ascii "|" = [delimiter] := by decide
  simp [framesWire,Sent.wire,bar]

theorem framesWirePlain (c : Crypto) (frames : List Bytes) : Plain (framesWire c frames) := by
  induction frames with
  | nil => intro b mem; cases mem
  | cons text rest ih =>
    rw [framesWireCons,plainAppend]
    refine ⟨cipherPlain c text,fun b mem => ?_⟩
    rcases List.mem_cons.mp mem with rfl | mem
    · exact .inl rfl
    · exact ih b mem

theorem framesWirePieces (c : Crypto) (frames : List Bytes) :
    pieces delimiter (framesWire c frames) = (frames.filter (· ≠ [])).map c.encryptString := by
  induction frames with
  | nil => exact piecesNil
  | cons text rest ih =>
    rw [framesWireCons,piecesAppend,ih]
    cases text with
    | nil => simp [c.encryptStringNil,piecesNil]
    | cons b tail =>
      have cipher : c.encryptString (b::tail) ≠ [] := by
        intro empty
        have size := c.encryptStringLength (List.cons_ne_nil b tail)
        simp [empty] at size
      rw [piecesPlain (delimiterNotInCipher c _) cipher]
      simp

theorem framesWireText (c : Crypto) (frames : List Bytes) :
    (pieces delimiter (framesWire c frames)).flatMap c.decryptString = frames.flatten := by
  rw [framesWirePieces]
  induction frames with
  | nil => rfl
  | cons text rest ih => cases text <;> simpa [c.decryptEncrypt] using ih

theorem framesWireIndivisible (c : Crypto) (frames : List Bytes) :
    ∀ p ∈ pieces delimiter (framesWire c frames), Indivisible (textLength c) p := by
  intro p mem
  rw [framesWirePieces] at mem
  obtain ⟨m,kept,rfl⟩ := List.mem_map.mp mem
  exact cipherIndivisible c (by simpa using (List.mem_filter.mp kept).2)

def TCPClient.Pc.held : TCPClient.Pc → Bytes
  | .append r | .overrun r => r
  | .receive | .mark _ | .disconnect | .done => []

def ahead (s : ClientState) : Bytes := s.receiver.held ++ s.network

def FrmMain.Pc.taken : FrmMain.Pc → Bytes
  | .decrypt taken | .clear taken _ => taken
  | _ => []

def FrmMain.Pc.undecrypted : FrmMain.Pc → Bytes
  | .decrypt taken => taken
  | _ => []

def untaken (s : ClientState) : Bytes := s.conn.serverOutput.drop s.form.taken.length

def held (s : ClientState) : List Bytes := pieces delimiter s.form.undecrypted

def unseen (s : ClientState) : List Bytes := pieces delimiter (untaken s ++ ahead s)

def owed (s : ClientState) : List Bytes := held s ++ unseen s

def Overruns (s : ClientState) : Prop := ∃ r, s.receiver = .overrun r

def shown (s : ClientState) : Text := s.window.terminalOutput.flatten

/- No packet fills the array, `CheckMessages` takes `ServerOutput` between two pieces, and
a clear drops nothing but '|' that was not taken. -/
def Keeps (s : ClientState) : ClientLabel → Prop
  | .recv (.bytes r) => r.length < packetSize
  | .form _ => match s.form with
    | .take => CleanCut delimiter s.conn.serverOutput (ahead s)
    | .clear _ _ | .clearOutput | .clearDisconnected => ∀ b ∈ untaken s, b = delimiter
    | _ => True
  | _ => True

instance (s l) : Decidable (Keeps s l) := by unfold Keeps; split <;> (try split) <;> infer_instance

def Uncut (c : Crypto) (s : ClientState) : ClientLabel → Prop
  | .form _ => s.form = .take →
    ¬ Utf8.CutsCharacter (FrmMain.outputText c s.conn.serverOutput) (FrmMain.outputText c (ahead s))
  | _ => True

instance (c : Crypto) (s : ClientState) : (l : ClientLabel) → Decidable (Uncut c s l)
  | .form _ => by dsimp only [Uncut]; infer_instance
  | .recv _ | .run | .input _ => isTrue trivial

def newText (c : Crypto) (s : ClientState) : ClientLabel → Bytes
  | .form _ => FrmMain.outputText c s.form.undecrypted
  | _ => []

theorem newTextNone {c : Crypto} {s : ClientState} (l : ClientLabel) (none : s.form.undecrypted = []) :
    newText c s l = [] := by
  cases l with
  | form sent => rw [newText,none]; rfl
  | _ => rfl

structure Tracked (s : ClientState) : Prop where
  plain : Plain (s.conn.serverOutput ++ ahead s)
  running : s.conn.transmissionEnd = false
  marking : ∀ p, s.receiver = .mark p → contains p endTransmissionCode = false
  taken : s.form.taken <+: s.conn.serverOutput

theorem connectedTracked {wire : Bytes} (plain : Plain wire) : Tracked (connected wire) where
  plain := plain
  running := rfl
  marking := nofun
  taken := List.nil_prefix

inductive Progress (c : Crypto) (s : ClientState) (l : ClientLabel) (t : ClientState) : Prop
  | same (text : newText c s l = []) (hand : held t = held s) (rest : unseen t = unseen s)
      (keeps : Keeps s l ∨ Overruns t) (uncut : Uncut c s l)
  | take (a b : Bytes) (text : newText c s l = []) (empty : held s = [])
      (before : unseen s = pieces delimiter (a ++ b)) (hand : held t = pieces delimiter a)
      (rest : unseen t = pieces delimiter b) (keeps : Keeps s l ↔ CleanCut delimiter a b)
      (uncut : Uncut c s l ↔ ¬ Utf8.CutsCharacter ((held t).flatMap c.decryptString) ((unseen t).flatMap c.decryptString))
  | decrypt (text : newText c s l = (held s).flatMap c.decryptString) (hand : held t = [])
      (rest : unseen t = unseen s) (keeps : Keeps s l) (uncut : Uncut c s l)
  | clear (a b : Bytes) (text : newText c s l = []) (empty : held s = []) (hand : held t = [])
      (before : unseen s = pieces delimiter (a ++ b)) (rest : unseen t = pieces delimiter b)
      (keeps : Keeps s l ↔ ∀ x ∈ a, x = delimiter) (uncut : Uncut c s l)

theorem afterReceiveHeld {conn : Connection} {r : Bytes} (running : conn.transmissionEnd = false)
    (plain : Plain r) (some : 0 < r.length) : TCPClient.afterReceive conn (.bytes r) =
      if r.length < packetSize then .append r else .overrun r := by
  by_cases short : r.length < packetSize
  · simp [TCPClient.afterReceive,running,assignShort (plainNoZero plain) short,some,short]
  · have full := assignFull (plainNoZero plain) (Nat.le_of_not_lt short)
    simp [TCPClient.afterReceive,running,full,short]

theorem unseenSame {s t : ClientState} (form : t.form = s.form)
    (serverOutput : t.conn.serverOutput = s.conn.serverOutput) (same : ahead t = ahead s) :
    unseen t = unseen s := by
  simp only [unseen,untaken,form,serverOutput,same]

theorem unseenAppended {s t : ClientState} {p : Bytes} (tracked : Tracked s) (form : t.form = s.form)
    (grown : t.conn.serverOutput = s.conn.serverOutput ++ p) (passed : ahead s = p ++ ahead t) :
    unseen t = unseen s := by
  have left : untaken t = untaken s ++ p := by
    rw [untaken,untaken,form,grown]
    exact List.drop_append_of_le_length tracked.taken.length_le
  rw [unseen,unseen,left,passed,List.append_assoc]

theorem fromNetworkBytes {network rest r : Bytes} (taken : fromNetwork network (.bytes r) = some rest) :
    0 < r.length ∧ r ++ rest = network := by
  simp only [fromNetwork] at taken
  split at taken
  · rename_i received
    cases taken
    exact ⟨received.1,(List.prefix_iff_eq_append.mp received.2.2).symm ▸ rfl⟩
  · cases taken

theorem recvBytes {s : ClientState} {rest r : Bytes} (tracked : Tracked s)
    (waiting : s.receiver = .receive) (taken : fromNetwork s.network (.bytes r) = some rest) :
    r ++ rest = ahead s ∧ TCPClient.afterReceive s.conn (.bytes r) =
      if r.length < packetSize then .append r else .overrun r := by
  have begins : ahead s = s.network := by rw [ahead,waiting]; rfl
  obtain ⟨some,joined⟩ := fromNetworkBytes taken
  have plain := (plainAppend.mp tracked.plain).2
  rw [begins,← joined,plainAppend] at plain
  exact ⟨joined.trans begins.symm,afterReceiveHeld tracked.running plain.1 some⟩

theorem recvStep {c : Crypto} {s t : ClientState} {r : Recv} (tracked : Tracked s)
    (act : clientAct qt c s (.recv r) = some t) : Tracked t ∧ Progress c s (.recv r) t := by
  simp only [clientAct] at act
  split at act
  · rename_i waiting
    obtain ⟨rest,taken,rfl⟩ := Option.map_eq_some_iff.mp act
    cases r with
    | failed | closed =>
      cases taken
      have begins : s.network = ahead s := by rw [ahead,waiting]; rfl
      refine ⟨⟨?_,tracked.running,nofun,tracked.taken⟩,.same rfl rfl ?_ (.inl trivial) trivial⟩
      · exact (begins ▸ tracked.plain :)
      · exact unseenSame rfl rfl begins
    | bytes r =>
      obtain ⟨same,next⟩ := recvBytes tracked waiting taken
      have kept : Plain (s.conn.serverOutput ++ (r ++ rest)) := same ▸ tracked.plain
      simp only [next]
      by_cases short : r.length < packetSize
      · simp only [if_pos short]
        exact ⟨⟨kept,tracked.running,nofun,tracked.taken⟩,
          .same rfl rfl (unseenSame rfl rfl same) (.inl short) trivial⟩
      · simp only [if_neg short]
        exact ⟨⟨kept,tracked.running,nofun,tracked.taken⟩,
          .same rfl rfl (unseenSame rfl rfl same) (.inr ⟨r,rfl⟩) trivial⟩
  · cases act

theorem overrunRefused {c : Crypto} {s t : ClientState} {l : ClientLabel}
    (tracked : Tracked s) (act : clientAct qt c s l = some t) (overran : Overruns t) :
    Overruns s ∨ ¬ Keeps s l := by
  obtain ⟨r,overran⟩ := overran
  cases l with
  | recv result =>
    simp only [clientAct] at act
    split at act
    · rename_i waiting
      obtain ⟨rest,taken,rfl⟩ := Option.map_eq_some_iff.mp act
      cases result with
      | failed | closed => nomatch overran
      | bytes p =>
        have next := (recvBytes tracked waiting taken).2
        refine .inr fun short => ?_
        rw [if_pos (show p.length < packetSize from short)] at next
        cases next.symm.trans overran
    · cases act
  | run =>
    obtain ⟨⟨receiver,conn⟩,step,rfl⟩ := Option.map_eq_some_iff.mp act
    have pc : receiver = .overrun r := overran
    subst pc
    cases pc : s.receiver <;> rw [pc] at step <;> cases step
  | input i =>
    simp only [clientAct] at act
    split at act
    · obtain ⟨form,started,rfl⟩ := Option.map_eq_some_iff.mp act
      exact .inl ⟨r,overran⟩
    · cases act
  | form sent =>
    obtain ⟨next,step,rfl⟩ := Option.map_eq_some_iff.mp act
    exact .inl ⟨r,overran⟩

theorem runStep {c : Crypto} {s t : ClientState} (tracked : Tracked s)
    (act : clientAct qt c s .run = some t) : Tracked t ∧ Progress c s .run t := by
  simp only [clientAct] at act
  obtain ⟨⟨receiver,conn⟩,step,rfl⟩ := Option.map_eq_some_iff.mp act
  cases pc : s.receiver with
  | receive | overrun | done => rw [pc] at step; cases step
  | append p =>
    rw [pc] at step; cases step
    have holds : ahead s = p ++ s.network := by rw [ahead,pc]; rfl
    have plain : Plain (s.conn.serverOutput ++ (p ++ s.network)) := holds ▸ tracked.plain
    refine ⟨⟨?_,tracked.running,?_,?_⟩,.same rfl rfl ?_ (.inl trivial) trivial⟩
    · rw [← List.append_assoc] at plain
      exact plain
    · intro q same
      cases same
      exact plainNoEnd (plainAppend.mp (plainAppend.mp plain).2).1
    · exact tracked.taken.trans (List.prefix_append _ _)
    · exact unseenAppended tracked rfl rfl holds
  | mark p =>
    rw [pc] at step; cases step
    have holds : ahead s = s.network := by rw [ahead,pc]; rfl
    have ended := tracked.marking p pc
    refine ⟨⟨?_,ended,nofun,tracked.taken⟩,.same rfl rfl ?_ (.inl trivial) trivial⟩
    · exact holds ▸ tracked.plain
    · exact unseenSame rfl rfl holds.symm
  | disconnect =>
    rw [pc] at step; cases step
    have holds : ahead s = s.network := by rw [ahead,pc]; rfl
    refine ⟨⟨?_,rfl,nofun,tracked.taken⟩,.same rfl rfl ?_ (.inl trivial) trivial⟩
    · exact holds ▸ tracked.plain
    · exact unseenSame rfl rfl holds.symm

theorem idleStep {c : Crypto} {s t : ClientState} {l : ClientLabel} (tracked : Tracked s)
    (running : t.conn.transmissionEnd = false)
    (rest : (t.conn.serverOutput,t.receiver,t.network) = (s.conn.serverOutput,s.receiver,s.network))
    (before : s.form.taken = [] ∧ s.form.undecrypted = [])
    (after : t.form.taken = [] ∧ t.form.undecrypted = []) (keeps : Keeps s l) (uncut : Uncut c s l) :
    Tracked t ∧ Progress c s l t := by
  simp only [Prod.mk.injEq] at rest
  obtain ⟨conn,receiver,network⟩ := rest
  have same : ahead t = ahead s := by rw [ahead,ahead,receiver,network]
  refine ⟨⟨?_,running,?_,?_⟩,.same (newTextNone l before.2) ?_ ?_ (.inl keeps) uncut⟩
  · rw [conn,same]; exact tracked.plain
  · rw [receiver]; exact tracked.marking
  · rw [after.1]; exact List.nil_prefix
  · rw [held,held,before.2,after.2]
  · simp only [unseen,untaken,before,after,conn,same]

theorem clearStep {c : Crypto} {s t : ClientState} {l : ClientLabel} (tracked : Tracked s)
    (running : t.conn.transmissionEnd = false)
    (rest : (t.conn.serverOutput,t.receiver,t.network) = ([],s.receiver,s.network))
    (before : s.form.undecrypted = []) (after : t.form.taken = [] ∧ t.form.undecrypted = [])
    (keeps : Keeps s l ↔ ∀ b ∈ untaken s, b = delimiter) (uncut : Uncut c s l) :
    Tracked t ∧ Progress c s l t := by
  simp only [Prod.mk.injEq] at rest
  obtain ⟨conn,receiver,network⟩ := rest
  have same : ahead t = ahead s := by rw [ahead,ahead,receiver,network]
  refine ⟨⟨?_,running,?_,?_⟩,.clear (untaken s) (ahead s) (newTextNone l before) ?_ ?_ rfl ?_ keeps uncut⟩
  · rw [conn,same]; exact (plainAppend.mp tracked.plain).2
  · rw [receiver]; exact tracked.marking
  · rw [after.1]; exact List.nil_prefix
  · rw [held,before,piecesNil]
  · rw [held,after.2,piecesNil]
  · simp [unseen,untaken,after,conn,same]

theorem formStep {c : Crypto} {s t : ClientState} {sent : Bool} (tracked : Tracked s)
    (act : clientAct qt c s (.form sent) = some t) : Tracked t ∧ Progress c s (.form sent) t := by
  simp only [clientAct] at act
  obtain ⟨⟨form,conn,window⟩,step,rfl⟩ := Option.map_eq_some_iff.mp act
  have running := tracked.running
  cases pc : s.form with
  | idle | stopped => rw [pc] at step; cases step
  | length =>
    rw [pc] at step; cases step
    refine idleStep tracked running rfl (by rw [pc]; exact ⟨rfl,rfl⟩) ?_ (by simp [Keeps,pc]) (by simp [Uncut,pc])
    split <;> exact ⟨rfl,rfl⟩
  | take =>
    rw [pc] at step; cases step
    obtain ⟨plain,later⟩ := plainAppend.mp tracked.plain
    have hand : held {s with form := .decrypt s.conn.serverOutput} = pieces delimiter s.conn.serverOutput := rfl
    have rest : unseen {s with form := .decrypt s.conn.serverOutput} = pieces delimiter (ahead s) := by
      simp [unseen,untaken,FrmMain.Pc.taken,ahead]
    refine ⟨⟨tracked.plain,running,tracked.marking,List.prefix_rfl⟩,
      .take s.conn.serverOutput (ahead s) (newTextNone _ (by rw [pc]; rfl)) ?_ ?_ hand rest (by simp [Keeps,pc]) ?_⟩
    · rw [held,pc]; rfl
    · simp [unseen,untaken,pc,FrmMain.Pc.taken]
    · rw [hand,rest,← outputTextPlain c plain,← outputTextPlain c later]
      simp [Uncut,pc]
  | decrypt taken =>
    rw [pc] at step; cases step
    have before : taken <+: s.conn.serverOutput := by simpa [pc,FrmMain.Pc.taken] using tracked.taken
    have plain : Plain taken := fun b mem => (plainAppend.mp tracked.plain).1 b (before.subset mem)
    refine ⟨⟨tracked.plain,running,tracked.marking,before⟩,
      .decrypt ?_ rfl ?_ (by simp [Keeps,pc]) (by simp [Uncut,pc])⟩
    · rw [newText,held,pc]
      exact outputTextPlain c plain
    · simp [unseen,untaken,pc,FrmMain.Pc.taken,ahead]
  | clear taken ended =>
    rw [pc] at step; cases step
    refine clearStep tracked running rfl (by rw [pc]; rfl) ?_ (by simp [Keeps,pc]) (by simp [Uncut,pc])
    split <;> exact ⟨rfl,rfl⟩
  | setTransmissionEnd =>
    rw [pc] at step; cases step
    exact idleStep tracked rfl rfl (by rw [pc]; exact ⟨rfl,rfl⟩) ⟨rfl,rfl⟩ (by simp [Keeps,pc]) (by simp [Uncut,pc])
  | clearOutput =>
    rw [pc] at step; cases step
    exact clearStep tracked running rfl (by rw [pc]; rfl) ⟨rfl,rfl⟩ (by simp [Keeps,pc]) (by simp [Uncut,pc])
  | send =>
    rw [pc] at step; cases step
    refine idleStep tracked running rfl (by rw [pc]; exact ⟨rfl,rfl⟩) ?_ (by simp [Keeps,pc]) (by simp [Uncut,pc])
    split <;> exact ⟨rfl,rfl⟩
  | clearDisconnected =>
    rw [pc] at step; cases step
    exact clearStep tracked running rfl (by rw [pc]; rfl) ⟨rfl,rfl⟩ (by simp [Keeps,pc]) (by simp [Uncut,pc])
  | hangUp =>
    rw [pc] at step; cases step
    refine idleStep tracked ?_ ?_ (by rw [pc]; exact ⟨rfl,rfl⟩) ⟨rfl,rfl⟩ (by simp [Keeps,pc]) (by simp [Uncut,pc])
    · dsimp only
      split
      · rfl
      · exact running
    · dsimp only
      split <;> rfl

theorem inputStep {c : Crypto} {s t : ClientState} {i : FrmMain.Input} (tracked : Tracked s)
    (act : clientAct qt c s (.input i) = some t) : Tracked t ∧ Progress c s (.input i) t := by
  simp only [clientAct] at act
  split at act
  · rename_i idle
    obtain ⟨form,started,rfl⟩ := Option.map_eq_some_iff.mp act
    have fresh : form.taken = [] ∧ form.undecrypted = [] := by
      unfold FrmMain.start at started
      split at started <;> (repeat' split at started) <;> cases started <;> exact ⟨rfl,rfl⟩
    exact idleStep tracked tracked.running rfl (by rw [idle]; exact ⟨rfl,rfl⟩) fresh trivial trivial
  · cases act

theorem clientStep {c : Crypto} {s t : ClientState} {l : ClientLabel} (tracked : Tracked s)
    (act : clientAct qt c s l = some t) : Tracked t ∧ Progress c s l t := by
  cases l with
  | recv r => exact recvStep tracked act
  | run => exact runStep tracked act
  | input i => exact inputStep tracked act
  | form sent => exact formStep tracked act

theorem screenStep {c : Crypto} {s t : ClientState} {l : ClientLabel} (reads : qt.ReadsUtf8)
    (act : clientAct qt c s l = some t) : shown t = shown s ++ qt.fromStdString (newText c s l) := by
  have nothing : qt.fromStdString [] = [] := reads []
  cases l with
  | recv r =>
    simp only [clientAct] at act
    split at act
    · obtain ⟨network,taken,rfl⟩ := Option.map_eq_some_iff.mp act
      simp [newText,nothing,shown]
    · cases act
  | run =>
    obtain ⟨next,step,rfl⟩ := Option.map_eq_some_iff.mp act
    simp [newText,nothing,shown]
  | input i =>
    simp only [clientAct] at act
    split at act
    · obtain ⟨form,started,rfl⟩ := Option.map_eq_some_iff.mp act
      simp [newText,nothing,shown]
    · cases act
  | form sent =>
    obtain ⟨next,step,rfl⟩ := Option.map_eq_some_iff.mp act
    cases pc : s.form with
    | decrypt taken =>
      rw [pc] at step; cases step
      simp only [shown,newText,pc,FrmMain.Pc.undecrypted]
      split
      · simp
      · rename_i empty
        rw [List.length_eq_zero_iff.mp (Nat.eq_zero_of_not_pos empty),nothing,List.append_nil]
    | idle | stopped => rw [pc] at step; cases step
    | _ =>
      rw [pc] at step; cases step
      simp [newText,pc,FrmMain.Pc.undecrypted,FrmMain.outputText,nothing,shown]

def noteText (c : Crypto) (decrypted : Bytes) (s : ClientState) (l : ClientLabel) (_ : Unit) (_ : ClientState) : Bytes :=
  decrypted ++ newText c s l

def showing (qt : Qt) (c : Crypto) : Machine (ClientState × Bytes) ClientLabel Unit :=
  watch (clientMachine qt c) (noteText c)

theorem showingAct {c : Crypto} {s t : ClientState × Bytes} {l : ClientLabel} {seen : Unit}
    (act : (showing qt c).act s l = some (seen,t)) :
    clientAct qt c s.1 l = some t.1 ∧ t.2 = s.2 ++ newText c s.1 l :=
  ⟨clientMachineAct (watchAct act).1,(watchAct act).2⟩

def KeepsBytes (s : ClientState × Bytes) (l : ClientLabel) : Prop := Keeps s.1 l
instance (s : ClientState × Bytes) (l : ClientLabel) : Decidable (KeepsBytes s l) := by
  unfold KeepsBytes; infer_instance

def KeepsText (c : Crypto) (s : ClientState × Bytes) (l : ClientLabel) : Prop := Keeps s.1 l ∧ Uncut c s.1 l
instance (c : Crypto) (s : ClientState × Bytes) (l : ClientLabel) : Decidable (KeepsText c s l) := by
  unfold KeepsText; infer_instance

def total (c : Crypto) (s : ClientState × Bytes) : Nat := s.2.length + worth (textLength c) (owed s.1)

theorem textWorth (c : Crypto) (ps : List Bytes) :
    (ps.flatMap c.decryptString).length = worth (textLength c) ps := by
  rw [List.length_flatMap]; rfl

section
variable {c : Crypto} {s t : ClientState × Bytes} {l : ClientLabel}

theorem totalStep (step : Progress c s.1 l t.1) (noted : t.2 = s.2 ++ newText c s.1 l) : total c t ≤ total c s := by
  unfold total owed
  rw [noted]
  cases step with
  | same text hand rest keeps => rw [text,hand,rest,List.append_nil]
  | take a b text empty before hand rest keeps =>
    have cut := worthCut (d := delimiter) (textLengthAdditive c) a b
    rw [text,empty,before,hand,rest,worthAppend,List.append_nil,List.nil_append]
    omega
  | decrypt text hand rest keeps =>
    rw [text,hand,rest,List.nil_append,worthAppend,List.length_append,textWorth]
    omega
  | clear a b text empty hand before rest keeps =>
    have cut := worthCut (d := delimiter) (textLengthAdditive c) a b
    rw [text,empty,hand,before,rest,List.append_nil,List.nil_append,List.nil_append]
    omega

theorem refusedStep (step : Progress c s.1 l t.1) (noted : t.2 = s.2 ++ newText c s.1 l)
    (whole : ∀ p ∈ owed s.1, Indivisible (textLength c) p) (refused : ¬ Keeps s.1 l) :
    total c t < total c s ∨ Overruns t.1 := by
  unfold total owed
  unfold owed at whole
  rw [noted]
  cases step with
  | same text hand rest keeps => exact .inr (keeps.resolve_left refused)
  | take a b text empty before hand rest keeps =>
    rw [empty,before,List.nil_append] at whole
    have cut := worthOtherCut whole (mt keeps.mpr refused)
    rw [text,empty,before,hand,rest,worthAppend,List.append_nil,List.nil_append]
    exact .inl (by omega)
  | decrypt text hand rest keeps => exact (refused keeps).elim
  | clear a b text empty hand before rest keeps =>
    rw [empty,before,List.nil_append] at whole
    have cut := worthDropped whole (mt keeps.mpr refused)
    rw [text,empty,hand,before,rest,List.append_nil,List.nil_append,List.nil_append]
    exact .inl (by omega)

structure Shows (c : Crypto) (frames : List Bytes) (s : ClientState × Bytes) : Prop where
  tracked : Tracked s.1
  text : s.2 ++ (owed s.1).flatMap c.decryptString = frames.flatten
  whole : ∀ p ∈ owed s.1, Indivisible (textLength c) p
  runs : ¬ Overruns s.1

theorem keptPieces (step : Progress c s.1 l t.1) (keeps : Keeps s.1 l) :
    newText c s.1 l ++ (owed t.1).flatMap c.decryptString = (owed s.1).flatMap c.decryptString ∧
      ∀ p ∈ owed t.1, p ∈ owed s.1 := by
  unfold owed
  cases step with
  | same text hand rest _ => simp [text,hand,rest]
  | take a b text empty before hand rest cut =>
    simp [text,empty,before,hand,rest,piecesCleanCut (cut.mp keeps)]
  | decrypt text hand rest _ =>
    refine ⟨by simp [text,hand,rest],fun p mem => ?_⟩
    rw [hand,rest,List.nil_append] at mem
    exact List.mem_append_right _ mem
  | clear a b text empty hand before rest bars =>
    simp [text,empty,hand,before,rest,piecesDropped (bars.mp keeps)]

theorem keptStep {frames : List Bytes} (shows : Shows c frames s) (keeps : Keeps s.1 l)
    (act : clientAct qt c s.1 l = some t.1) (noted : t.2 = s.2 ++ newText c s.1 l) : Shows c frames t := by
  obtain ⟨tracked,step⟩ := clientStep shows.tracked act
  obtain ⟨text,from_⟩ := keptPieces step keeps
  refine ⟨tracked,?_,fun p mem => shows.whole p (from_ p mem),?_⟩
  · rw [noted,List.append_assoc,text]
    exact shows.text
  · intro overran
    rcases overrunRefused shows.tracked act overran with stuck | refused
    · exact shows.runs stuck
    · exact refused keeps

def textTotal (c : Crypto) (s : ClientState) : Nat :=
  (shown s).length + (Utf8.decode ((held s).flatMap c.decryptString)).length +
    (Utf8.decode ((unseen s).flatMap c.decryptString)).length

theorem textTotalStep (reads : qt.ReadsUtf8) (step : Progress c s.1 l t.1) (keeps : Keeps s.1 l)
    (screen : shown t.1 = shown s.1 ++ qt.fromStdString (newText c s.1 l)) :
    textTotal c s.1 ≤ textTotal c t.1 ∧ (¬ Uncut c s.1 l → textTotal c s.1 < textTotal c t.1) := by
  have nothing : qt.fromStdString [] = [] := reads []
  unfold textTotal
  rw [screen]
  cases step with
  | same text hand rest _ uncut =>
    rw [text,hand,rest,nothing,List.append_nil]
    exact ⟨le_rfl,fun cut => (cut uncut).elim⟩
  | take a b text empty before hand rest clean uncut =>
    rw [text,nothing,empty,before,piecesCleanCut (clean.mp keeps),← hand,← rest,List.flatMap_append,List.append_nil,
      List.flatMap_nil,Utf8.decodeNil,List.length_nil]
    have longer := Utf8.decodeAppendLength ((held t.1).flatMap c.decryptString) ((unseen t.1).flatMap c.decryptString)
    refine ⟨by omega,fun cut => ?_⟩
    have shorter := Utf8.decodeCut (not_not.mp (mt uncut.mpr cut))
    omega
  | decrypt text hand rest _ uncut =>
    rw [text,hand,rest,reads,List.length_append,List.flatMap_nil,Utf8.decodeNil,List.length_nil]
    exact ⟨by omega,fun cut => (cut uncut).elim⟩
  | clear a b text empty hand before rest bars uncut =>
    rw [text,nothing,empty,hand,before,rest,piecesDropped (bars.mp keeps),List.append_nil]
    exact ⟨le_rfl,fun cut => (cut uncut).elim⟩

def ShowsText (c : Crypto) (frames : List Bytes) (s : ClientState) : Prop :=
  shown s ++ Utf8.decode ((held s).flatMap c.decryptString) ++ Utf8.decode ((unseen s).flatMap c.decryptString) =
    Utf8.decode frames.flatten

theorem keptTextStep {frames : List Bytes} (reads : qt.ReadsUtf8) (shows : ShowsText c frames s.1)
    (step : Progress c s.1 l t.1) (keeps : Keeps s.1 l) (uncut : Uncut c s.1 l)
    (screen : shown t.1 = shown s.1 ++ qt.fromStdString (newText c s.1 l)) : ShowsText c frames t.1 := by
  have nothing : qt.fromStdString [] = [] := reads []
  unfold ShowsText at shows ⊢
  rw [screen,← shows]
  cases step with
  | same text hand rest _ _ => rw [text,hand,rest,nothing,List.append_nil]
  | take a b text empty before hand rest clean cuts =>
    rw [text,nothing,empty,before,piecesCleanCut (clean.mp keeps),← hand,← rest,List.flatMap_append,
      Utf8.decodeAppend (cuts.mp uncut),List.flatMap_nil,Utf8.decodeNil,List.append_nil,List.append_assoc]
  | decrypt text hand rest _ _ => rw [text,hand,rest,reads,List.flatMap_nil,Utf8.decodeNil,List.append_nil]
  | clear a b text empty hand before rest bars _ =>
    rw [text,nothing,empty,hand,before,rest,piecesDropped (bars.mp keeps),List.append_nil]

end

theorem connectedShows (c : Crypto) (frames : List Bytes) :
    Shows c frames (connected (framesWire c frames),[]) ∧ ShowsText c frames (connected (framesWire c frames)) := by
  have hand : held (connected (framesWire c frames)) = [] := piecesNil
  have rest : unseen (connected (framesWire c frames)) = pieces delimiter (framesWire c frames) := rfl
  refine ⟨⟨connectedTracked (framesWirePlain c frames),?_,?_,fun ⟨_,no⟩ => nomatch no⟩,?_⟩
  · rw [owed,hand,rest,List.nil_append,List.nil_append,framesWireText]
  · rw [owed,hand,rest,List.nil_append]; exact framesWireIndivisible c frames
  · rw [ShowsText,hand,rest,framesWireText]; rfl

/- Everything has been received, and the last `CheckMessages` has returned and left nothing
in `ServerOutput`; or the receive thread has read past its array. -/
def Settled (s : ClientState) : Prop :=
  Overruns s ∨ s.receiver = .receive ∧ s.network = [] ∧ s.form = .idle ∧ s.conn.serverOutput = []

structure ShownWhole (qt : Qt) (frames : List Bytes) (s : ClientState × Bytes) : Prop where
  runs : ¬ Overruns s.1
  decrypted : s.2 = frames.flatten
  shown : shown s.1 = qt.fromStdString frames.flatten

theorem settledOwesNothing {s : ClientState} (settled : Settled s) (runs : ¬ Overruns s) :
    held s = [] ∧ unseen s = [] := by
  obtain ⟨receiver,network,form,serverOutput⟩ := settled.resolve_left runs
  simp [held,unseen,untaken,ahead,receiver,network,form,serverOutput,FrmMain.Pc.undecrypted,
    TCPClient.Pc.held,piecesNil]

def Within (c : Crypto) (n : Nat) (s : ClientState × Bytes) : Prop := Tracked s.1 ∧ total c s ≤ n

theorem overrunStays {c : Crypto} {s t : ClientState} {l : ClientLabel}
    (overran : Overruns s) (act : clientAct qt c s l = some t) : Overruns t := by
  obtain ⟨r,stuck⟩ := overran
  cases l with
  | recv result => simp [clientAct,stuck] at act
  | run => simp [clientAct,stuck,TCPClient.step] at act
  | input i =>
    simp only [clientAct] at act
    split at act
    · obtain ⟨form,started,rfl⟩ := Option.map_eq_some_iff.mp act
      exact ⟨r,stuck⟩
    · cases act
  | form sent =>
    obtain ⟨next,step,rfl⟩ := Option.map_eq_some_iff.mp act
    exact ⟨r,stuck⟩

section
variable {c : Crypto} {frames : List Bytes} {s t u : ClientState × Bytes} {l : ClientLabel}

theorem keptRun (run : Reaches (showing qt c) KeepsBytes (connected (framesWire c frames),[]) t) : Shows c frames t :=
  invariantOfStep (fun shows ok act => keptStep shows ok (showingAct act).1 (showingAct act).2) run
    (connectedShows c frames).1

theorem keptTextRun (reads : qt.ReadsUtf8)
    (run : Reaches (showing qt c) (KeepsText c) (connected (framesWire c frames),[]) t) :
    Shows c frames t ∧ ShowsText c frames t.1 := by
  refine invariantOfStep (I := fun t => Shows c frames t ∧ ShowsText c frames t.1) ?_ run (connectedShows c frames)
  intro before label seen after both ok act
  obtain ⟨moved,noted⟩ := showingAct act
  have step := (clientStep both.1.tracked moved).2
  exact ⟨keptStep both.1 ok.1 moved noted,keptTextStep reads both.2 step ok.1 ok.2 (screenStep reads moved)⟩

theorem refusedRun (shows : Shows c frames s) (refused : ¬ Keeps s.1 l) (act : (showing qt c).act s l = some ((),t))
    (after : Reaches (showing qt c) free t u) : total c u < frames.flatten.length ∨ Overruns u.1 := by
  have all : total c s = frames.flatten.length := by
    rw [← shows.text,List.length_append,textWorth,total]
  obtain ⟨moved,noted⟩ := showingAct act
  obtain ⟨tracked,step⟩ := clientStep shows.tracked moved
  rcases refusedStep step noted shows.whole refused with less | overran
  · have within : Within c (total c t) u := by
      refine invariantOfStep (I := Within c (total c t)) ?_ after ⟨tracked,Nat.le_refl _⟩
      intro before label seen later within _ act
      obtain ⟨moved,noted⟩ := showingAct act
      obtain ⟨tracked,step⟩ := clientStep within.1 moved
      exact ⟨tracked,(totalStep step noted).trans within.2⟩
    exact .inl (within.2.trans_lt (all ▸ less))
  · refine .inr (invariantOfStep (I := fun u => Overruns u.1) ?_ after overran)
    exact fun overran _ act => overrunStays overran (showingAct act).1

theorem cutRun (reads : qt.ReadsUtf8) (shows : Shows c frames s ∧ ShowsText c frames s.1) (keeps : Keeps s.1 l)
    (cut : ¬ Uncut c s.1 l) (act : (showing qt c).act s l = some ((),t))
    (after : Reaches (showing qt c) KeepsBytes t u) : (Utf8.decode frames.flatten).length < textTotal c u.1 := by
  have all : textTotal c s.1 = (Utf8.decode frames.flatten).length := by
    rw [← shows.2,List.length_append,List.length_append,textTotal]
  obtain ⟨moved,noted⟩ := showingAct act
  have longer := (textTotalStep reads (clientStep shows.1.tracked moved).2 keeps (screenStep reads moved)).2 cut
  have since : Shows c frames u ∧ textTotal c t.1 ≤ textTotal c u.1 := by
    refine invariantOfStep (I := fun u => Shows c frames u ∧ textTotal c t.1 ≤ textTotal c u.1) ?_ after
      ⟨keptStep shows.1 keeps moved noted,le_rfl⟩
    intro before label seen later both keeps act
    obtain ⟨moved,noted⟩ := showingAct act
    have grows := (textTotalStep reads (clientStep both.1.tracked moved).2 keeps (screenStep reads moved)).1
    exact ⟨keptStep both.1 keeps moved noted,both.2.trans grows⟩
  exact all ▸ longer.trans_le since.2

end

theorem outputShownIff (qt : Qt) (c : Crypto) (reads : qt.ReadsUtf8) (frames : List Bytes)
    (labels : List ClientLabel) {t : ClientState × Bytes}
    (ran : run (showing qt c) free (connected (framesWire c frames),[]) labels = some t) (settled : Settled t.1) :
    ShownWhole qt frames t ↔
      run (showing qt c) (KeepsText c) (connected (framesWire c frames),[]) labels = some t := by
  constructor
  · rintro ⟨runs,decrypted,screen⟩
    obtain ⟨hand,rest⟩ := settledOwesNothing settled runs
    have kept : run (showing qt c) KeepsBytes (connected (framesWire c frames),[]) labels = some t := by
      refine (runOrRefused KeepsBytes ran).resolve_right ?_
      rintro ⟨u,l,_,v,before,refused,-,act,after⟩
      rcases refusedRun (keptRun before) refused act after with less | overran
      · rw [total,decrypted,owed,hand,rest] at less
        exact absurd less (by simp [worth])
      · exact runs overran
    refine (runOrRefused (KeepsText c) kept).resolve_right ?_
    rintro ⟨u,l,_,v,before,refused,keeps,act,after⟩
    have longer := cutRun reads (keptTextRun reads before) keeps (fun uncut => refused ⟨keeps,uncut⟩) act after
    rw [textTotal,screen,hand,rest,reads] at longer
    exact absurd longer (by simp)
  · intro kept
    obtain ⟨shows,text⟩ := keptTextRun reads (runReaches kept)
    obtain ⟨hand,rest⟩ := settledOwesNothing settled shows.runs
    refine ⟨shows.runs,?_,?_⟩
    · simpa [owed,hand,rest] using shows.text
    · rw [ShowsText,hand,rest] at text
      rw [reads,← text]
      simp

def tick : List ClientLabel := [.input .checkMessages] ++ List.replicate 4 (.form true)

theorem tickSettles {c : Crypto} {s : ClientState} (waiting : s.receiver = .receive)
    (drained : s.network = []) (idle : s.form = .idle) (open' : s.conn.isConnected = true)
    (running : s.conn.transmissionEnd = false) (unread : s.conn.serverOutput ≠ []) :
    ∃ t, run (clientMachine qt c) free s tick = some t ∧ Settled t := by
  obtain ⟨⟨serverOutput,isConnected,transmissionEnd⟩,network,receiver,form,window⟩ := s
  dsimp only at waiting drained idle open' running unread
  subst waiting drained idle open' running
  have some : serverOutput.length > 0 := List.length_pos_iff.mpr unread
  simp [tick,List.replicate,run,free,clientMachine,clientAct,FrmMain.start,FrmMain.step,some,
    TCPClient.clearServerOutput,Settled]

def arrives (r : Bytes) : List ClientLabel := [.recv (.bytes r),.run,.run]

def mlsWire : Bytes := framesWire secretCrypto [ascii "Mls"]
def mpwdWire : Bytes := framesWire secretCrypto [ascii "Mpwd"]

def framesApart : List ClientLabel := arrives mlsWire ++ tick ++ arrives mpwdWire ++ tick

def bothShown : ClientState :=
  {connected [] with window := ⟨["Mls".toList,"Mpwd".toList],false⟩}

theorem framesApartShown :
    run (showing plainQt secretCrypto) (KeepsText secretCrypto) (connected (mlsWire ++ mpwdWire),[]) framesApart =
      some (bothShown,ascii "MlsMpwd") ∧ ShownWhole plainQt [ascii "Mls",ascii "Mpwd"] (bothShown,ascii "MlsMpwd") := by
  have ran : run (showing plainQt secretCrypto) free (connected (mlsWire ++ mpwdWire),[]) framesApart =
      some (bothShown,ascii "MlsMpwd") := by decide +kernel
  have kept : run (showing plainQt secretCrypto) (KeepsText secretCrypto) (connected (mlsWire ++ mpwdWire),[])
      framesApart = some (bothShown,ascii "MlsMpwd") := by decide +kernel
  refine ⟨kept,?_⟩
  exact (outputShownIff plainQt secretCrypto plainReadsUtf8 [ascii "Mls",ascii "Mpwd"] framesApart ran
    (.inr ⟨rfl,rfl,rfl,rfl⟩)).mpr kept

def frameSplit : List ClientLabel :=
  arrives (mlsWire.take 20) ++ tick ++ arrives (mlsWire.drop 20) ++ tick

theorem tickInFrameLosesText :
    run (showing plainQt secretCrypto) free (connected mlsWire,[]) frameSplit = some (connected [],[]) ∧
      Settled (connected []) ∧ ¬ ShownWhole plainQt [ascii "Mls"] (connected [],[]) := by
  refine ⟨by decide +kernel,.inr ⟨rfl,rfl,rfl,rfl⟩,fun whole => ?_⟩
  have lost := whole.decrypted
  revert lost
  decide +kernel

example : (run (showing plainQt secretCrypto) KeepsBytes (connected (framesWire secretCrypto [[0xC3],[0xA9]]),[])
    (arrives (framesWire secretCrypto [[0xC3]]) ++ tick ++ arrives (framesWire secretCrypto [[0xA9]]) ++ tick)).map
      (fun t => (t.1.window.terminalOutput,t.2)) = some ([[Utf8.replacement],[Utf8.replacement]],[0xC3,0xA9]) := by
  decide +kernel

end RemoteTerminal
