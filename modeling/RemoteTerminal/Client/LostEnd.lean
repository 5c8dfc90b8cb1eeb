import RemoteTerminal.Client.Segmentation

/-! The end of an answer that `CheckMessages` misses. It tests the flag once, and clears
`ServerOutput` behind the test; the receive thread appends a packet and sets the flag in two
statements. Where the flag comes between the test and the clear, it is left set with nothing
beside it, and that undoes every later look. -/
namespace RemoteTerminal
open ByteStrings LabelledRuns

variable {qt : Qt}

def StaysUp (s : ClientState) : ClientLabel → Prop
  | .recv .failed | .recv .closed | .input .disconnect => False
  | .form sent => s.form = .send → sent = true
  | _ => True

instance (s : ClientState) : (l : ClientLabel) → Decidable (StaysUp s l)
  | .form _ => by dsimp only [StaysUp]; infer_instance
  | .recv .failed | .recv .closed | .input .disconnect => isFalse id
  | .recv (.bytes _) | .run | .input .checkMessages | .input .sendCommand | .input .cancelCommand => isTrue trivial

inductive FrmMain.PassesFlag (conn : Connection) : FrmMain.Pc → Prop where
  | clears (taken : Bytes) : PassesFlag conn (.clear taken false)
  | idle (nothing : conn.serverOutput = []) : PassesFlag conn .idle
  | looks (nothing : conn.serverOutput = []) : PassesFlag conn .length

structure Deaf (s : ClientState) : Prop where
  up : s.conn.isConnected = true
  ended : s.conn.transmissionEnd = true
  waits : s.receiver = .receive
  passes : FrmMain.PassesFlag s.conn s.form

section
variable {c : Crypto} {s t : ClientState} {l : ClientLabel}

theorem deafCall {i : FrmMain.Input} {form : FrmMain.Pc} (up : s.conn.isConnected = true)
    (ended : s.conn.transmissionEnd = true) (starts : FrmMain.start s.conn s.window i = some form) :
    i = .disconnect ∨ form = .idle ∨ form = .length := by
  cases i with
  | checkMessages =>
    cases starts
    exact .inr (.inr (if_pos up))
  | sendCommand =>
    cases starts
    exact .inr (.inl (if_neg (by simp [ended])))
  | cancelCommand =>
    simp only [FrmMain.start,ended] at starts
    split at starts <;> try contradiction
    cases starts
    exact .inr (.inl (if_neg (by simp)))
  | disconnect => exact .inl rfl

theorem deafStep (deaf : Deaf s) (stays : StaysUp s l) (act : clientAct qt c s l = some t) :
    Deaf t ∧ t.window = s.window := by
  obtain ⟨up,ended,waits,passes⟩ := deaf
  cases l with
  | recv r =>
    cases r with
    | failed | closed => exact stays.elim
    | bytes r =>
      -- what comes is dropped
      simp only [clientAct,if_pos waits] at act
      obtain ⟨network,taken,rfl⟩ := Option.map_eq_some_iff.mp act
      exact ⟨⟨up,ended,by simp [TCPClient.afterReceive,ended],passes⟩,rfl⟩
  | run => simp [clientAct,waits,TCPClient.step] at act
  | input i =>
    simp only [clientAct] at act
    split at act <;> try contradiction
    rename_i idle
    obtain ⟨form,starts,rfl⟩ := Option.map_eq_some_iff.mp act
    have nothing : s.conn.serverOutput = [] := by
      rw [idle] at passes
      cases passes
      assumption
    refine ⟨⟨up,ended,waits,?_⟩,rfl⟩
    rcases deafCall up ended starts with rfl | rfl | rfl
    · exact stays.elim
    · exact .idle nothing
    · exact .looks nothing
  | form sent =>
    obtain ⟨next,moved,rfl⟩ := Option.map_eq_some_iff.mp act
    obtain ⟨conn,network,receiver,form,window⟩ := s
    dsimp only at moved passes
    cases passes with
    | clears taken =>
      cases moved
      exact ⟨⟨up,ended,waits,.idle rfl⟩,rfl⟩
    | idle nothing => cases moved
    | looks nothing =>
      simp only [FrmMain.step,nothing,List.length_nil,Nat.lt_irrefl,if_false] at moved
      cases moved
      exact ⟨⟨up,ended,waits,.idle nothing⟩,rfl⟩

theorem setsFlagDeaf {taken : Bytes} (up : s.conn.isConnected = true) (late : s.form = .clear taken false)
    (running : s.conn.transmissionEnd = false) (act : clientAct qt c s .run = some t)
    (ended : t.conn.transmissionEnd = true) : Deaf t := by
  obtain ⟨next,moved,rfl⟩ := Option.map_eq_some_iff.mp act
  have passes : FrmMain.PassesFlag next.2 s.form := late ▸ .clears taken
  cases at_ : s.receiver with
  | mark p =>
    rw [at_] at moved
    cases moved
    exact ⟨up,ended,rfl,passes⟩
  | append p =>
    rw [at_] at moved
    cases moved
    cases running.symm.trans ended
  | disconnect =>
    rw [at_] at moved
    cases moved
    cases ended
  | receive | overrun r | done =>
    rw [at_] at moved
    cases moved

end

structure EndMissed (s t : ClientState) : Prop where
  window : t.window = s.window
  refuses : ∀ i form, FrmMain.start t.conn t.window i = some form → i = .disconnect ∨ form = .idle ∨ form = .length
  deaf : Deaf t

/-- Where the receive thread sets the flag while `CheckMessages` stands between its test of it
and its clear: whatever else arrives and whatever the user does, while the connection is
neither lost nor given up the window shows nothing more, Cancel stays as it is and no
further command is sent. -/
theorem endMissedForGood {c : Crypto} {s u t : ClientState} {taken : Bytes} (up : s.conn.isConnected = true)
    (late : s.form = .clear taken false) (running : s.conn.transmissionEnd = false)
    (act : clientAct qt c s .run = some u) (ended : u.conn.transmissionEnd = true)
    (run : Reaches (clientMachine qt c) StaysUp u t) : EndMissed s t := by
  have deaf := setsFlagDeaf up late running act ended
  have both : Deaf t ∧ t.window = u.window := by
    refine invariantOfStep (I := fun t => Deaf t ∧ t.window = u.window) ?_ run ⟨deaf,rfl⟩
    intro before label seen after kept stays moved
    obtain ⟨next,same⟩ := deafStep kept.1 stays (clientMachineAct moved)
    exact ⟨next,same.trans kept.2⟩
  have window : u.window = s.window := by
    obtain ⟨next,moved,rfl⟩ := Option.map_eq_some_iff.mp act
    rfl
  exact ⟨both.2.trans window,fun i form => deafCall both.1.up both.1.ended,both.1⟩

def takenEarly : List ClientLabel :=
  [.input .sendCommand,.form true,.form true,.recv (.bytes rootAnswer),.run,.input .checkMessages,.form true,
    .form true,.form true]

def behindFlag : List ClientLabel :=
  [.form true,.input .checkMessages,.form true,.input .sendCommand,.input .cancelCommand,.recv (.bytes mlsWire),
    .input .checkMessages,.form true]

def tookEarly : ClientState where
  conn := {serverOutput := rootAnswer,isConnected := true,transmissionEnd := false}
  network := mlsWire
  receiver := .mark rootAnswer
  form := .clear rootAnswer false
  window := {terminalOutput := [asciiText rootPrompt],cancelEnabled := true}

def flagBehind : ClientState :=
  {tookEarly with receiver := .receive,conn := {tookEarly.conn with transmissionEnd := true}}

theorem rootEndMissed : run (clientMachine plainQt secretCrypto) free (connected (rootAnswer ++ mlsWire)) takenEarly = some tookEarly ∧
    ∃ t, run (clientMachine plainQt secretCrypto) StaysUp flagBehind behindFlag = some t ∧ t.network = [] ∧
      EndMissed tookEarly t := by
  have early : run (clientMachine plainQt secretCrypto) free (connected (rootAnswer ++ mlsWire)) takenEarly = some tookEarly := by
    decide +kernel
  have flag : clientAct plainQt secretCrypto tookEarly .run = some flagBehind := by decide +kernel
  have later : (run (clientMachine plainQt secretCrypto) StaysUp flagBehind behindFlag).map ClientState.network = some [] := by
    decide +kernel
  obtain ⟨t,ran,nothing⟩ := Option.map_eq_some_iff.mp later
  exact ⟨early,t,ran,nothing,endMissedForGood rfl rfl rfl flag rfl (runReaches ran)⟩

end RemoteTerminal
