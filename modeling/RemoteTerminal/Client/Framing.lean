import RemoteTerminal.Client.Output
import RemoteTerminal.Server.SlotMachine

/-! `CheckMessages` on a whole stream of frames and end codes. A frame ends in '|', an end
code in nothing: it stays in front of the next frame, where its 'E' is read as a digit. -/
namespace RemoteTerminal
open ByteStrings HexCodec LabelledRuns

def sendsWire (c : Crypto) (sends : List Sent) : Bytes := sends.flatMap fun sent => sent.wire c

def Sent.text : Sent → Bytes
  | .frame text => text
  | .endOfTransmission => []

def plaintexts (sends : List Sent) : Bytes := sends.flatMap Sent.text

def lineText (c : Crypto) (outputLine : Bytes) : Bytes :=
  if outputLine.length > 0 ∧ outputLine ≠ endTransmissionCode then c.decryptString outputLine else []

def codes (m : Nat) : Bytes := (List.replicate m endTransmissionCode).flatten

/- `m` end codes in front of a frame that is parsed all the same. Behind two codes a text is
longer than it was, behind one it is read with every digit moved by one place. -/
def Harmless (c : Crypto) (m : Nat) (text : Bytes) : Prop :=
  if text = [] then m / 2 ≤ 16 else m = 0 ∨ m = 1 ∧ ∀ b ∈ mask c.stream 0 text, b = 0xEE
instance (c m text) : Decidable (Harmless c m text) := by unfold Harmless; infer_instance

def Framed (c : Crypto) : Nat → List Sent → Prop
  | m,[] => m / 2 ≤ 16
  | m,.endOfTransmission::rest => Framed c (m+1) rest
  | m,.frame text::rest => Harmless c m text ∧ Framed c 0 rest

theorem codesSucc (m : Nat) : codes (m+1) = codes m ++ endTransmissionCode := by
  simp [codes,List.replicate_succ']

theorem codesValues (m : Nat) : (codes m).filterMap value = List.replicate m 14 := by
  have one : endTransmissionCode.filterMap value = [14] := by decide
  induction m with
  | zero => rfl
  | succ m ih => rw [codesSucc,List.filterMap_append,ih,one,List.replicate_succ']

theorem delimiterNotInCodes (m : Nat) : delimiter ∉ codes m := by
  intro mem
  obtain ⟨code,copy,inside⟩ := List.mem_flatten.mp mem
  rw [List.eq_of_mem_replicate copy] at inside
  revert inside
  decide

theorem outputTextLine (c : Crypto) {a : Bytes} (plain : delimiter ∉ a) : FrmMain.outputText c a = lineText c a := by
  rw [FrmMain.outputText,List.splitOn_eq_singleton plain]
  simp [lineText]

theorem outputTextAppend (c : Crypto) (a b : Bytes) :
    FrmMain.outputText c (a ++ delimiter::b) = FrmMain.outputText c a ++ FrmMain.outputText c b := by
  simp only [FrmMain.outputText,List.splitOn_append_cons_self,List.flatMap_append]

theorem codesTextLength (c : Crypto) (m : Nat) : (lineText c (codes m)).length = m / 2 - 16 := by
  have digits := textLengthDigits c (codes m)
  rw [codesValues,List.length_replicate,textLength] at digits
  unfold lineText
  split
  · exact digits
  · rename_i skipped
    have few : m ≤ 1 := by
      by_contra more
      obtain ⟨k,rfl⟩ : ∃ k, m = k+2 := ⟨m-2,by omega⟩
      have size : (codes (k+2)).length = (codes k).length+6 := by
        rw [codesSucc,codesSucc,List.length_append,List.length_append]; rfl
      refine skipped ⟨by omega,fun same => ?_⟩
      have three := congrArg List.length same
      rw [size] at three
      have : endTransmissionCode.length = 3 := rfl
      omega
    rw [List.length_nil]
    omega

theorem frameTextLength (c : Crypto) (m : Nat) {text : Bytes} (some : text ≠ []) :
    (c.decryptString (codes m ++ c.encryptString text)).length = text.length+m / 2 := by
  have digits := textLengthDigits c (codes m ++ c.encryptString text)
  rw [List.filterMap_append,List.length_append,codesValues,List.length_replicate,
    valueOfDigits fun b mem => c.encryptStringDigits mem,c.encryptStringLength some] at digits
  rw [← textLength,digits]
  omega

theorem frameTextLine (c : Crypto) (m : Nat) {text : Bytes} (some : text ≠ []) :
    lineText c (codes m ++ c.encryptString text) = c.decryptString (codes m ++ c.encryptString text) := by
  have size := c.encryptStringLength some
  refine if_pos ⟨by rw [List.length_append]; omega,fun same => ?_⟩
  have three := congrArg List.length same
  rw [List.length_append] at three
  have : endTransmissionCode.length = 3 := rfl
  omega

theorem maskSame {stream : Nat → UInt8} {a b : Bytes} : mask stream 0 a = b ↔ a = mask stream 0 b := by
  constructor
  · rintro rfl
    rw [maskMask]
  · rintro rfl
    rw [maskMask]

theorem oneCode (c : Crypto) {text : Bytes} (some : text ≠ []) :
    c.decryptString (codes 1 ++ c.encryptString text) = text ↔ ∀ b ∈ mask c.stream 0 text, b = 0xEE := by
  have size := List.length_pos_iff.mpr some
  have tagLength : (c.tag (mask c.stream 0 text)).length = 16 := c.library.tagLength _ _ _
  have decoded : hexDecode (codes 1 ++ c.encryptString text) =
      pairs (14::halves (mask c.stream 0 text ++ c.tag (mask c.stream 0 text))) := by
    rw [hexDecode,List.filterMap_append,codesValues,Crypto.encryptString,if_neg (by omega),valuesEncode]
    rfl
  have length : (hexDecode (codes 1 ++ c.encryptString text)).length-16 = (mask c.stream 0 text).length := by
    rw [← c.decryptStringLength,frameTextLength c 1 some,maskLength]
    rfl
  rw [c.decryptStringSink,length,decoded,maskSame]
  exact pairsShifted (by decide) _ _

theorem harmlessIff (c : Crypto) (m : Nat) (text : Bytes) :
    lineText c (codes m ++ c.encryptString text) = text ↔ Harmless c m text := by
  unfold Harmless
  split
  · rename_i empty
    subst empty
    rw [c.encryptStringNil,List.append_nil,← List.length_eq_zero_iff,codesTextLength]
    omega
  · rename_i some
    rw [frameTextLine c m some]
    match m with
    | 0 => simp [codes,c.decryptEncrypt]
    | 1 => simpa using oneCode c some
    | k+2 =>
      constructor
      · intro same
        have longer := frameTextLength c (k+2) some
        rw [same] at longer
        omega
      · rintro (no | ⟨no,-⟩) <;> omega

theorem lineTextLonger (c : Crypto) (m : Nat) (text : Bytes) :
    text.length ≤ (lineText c (codes m ++ c.encryptString text)).length := by
  by_cases empty : text = []
  · simp [empty]
  · rw [frameTextLine c m empty,frameTextLength c m empty]
    omega

theorem framedFrom (c : Crypto) (m : Nat) (sends : List Sent) :
    (plaintexts sends).length ≤ (FrmMain.outputText c (codes m ++ sendsWire c sends)).length ∧
      (FrmMain.outputText c (codes m ++ sendsWire c sends) = plaintexts sends ↔ Framed c m sends) := by
  induction sends generalizing m with
  | nil =>
    have last : FrmMain.outputText c (codes m ++ sendsWire c []) = lineText c (codes m) := by
      rw [sendsWire,List.flatMap_nil,List.append_nil,outputTextLine c (delimiterNotInCodes m)]
    rw [last,plaintexts,List.flatMap_nil,← List.length_eq_zero_iff,codesTextLength,Framed]
    exact ⟨Nat.zero_le _,by omega⟩
  | cons sent rest ih =>
    cases sent with
    | endOfTransmission =>
      have joined : codes m ++ sendsWire c (.endOfTransmission::rest) = codes (m+1) ++ sendsWire c rest := by
        rw [codesSucc,List.append_assoc]; rfl
      rw [joined]
      exact ih (m+1)
    | frame text =>
      obtain ⟨longer,same⟩ := ih 0
      have plain : delimiter ∉ codes m ++ c.encryptString text := by
        simp [delimiterNotInCodes m,delimiterNotInCipher c text]
      have cut : FrmMain.outputText c (codes m ++ sendsWire c (.frame text::rest)) =
          lineText c (codes m ++ c.encryptString text) ++ FrmMain.outputText c (sendsWire c rest) := by
        rw [← outputTextLine c plain,← outputTextAppend]
        simp [sendsWire,Sent.wire,show ascii "|" = [delimiter] by decide]
      have first := lineTextLonger c m text
      rw [show codes 0 = [] from rfl,List.nil_append] at longer same
      rw [cut,show plaintexts (.frame text::rest) = text ++ plaintexts rest from rfl,List.length_append,
        List.length_append,Framed,← harmlessIff,← same]
      refine ⟨by omega,fun joined => ?_,fun both => by rw [both.1,both.2]⟩
      have sizes := congrArg List.length joined
      rw [List.length_append,List.length_append] at sizes
      exact List.append_inj joined (by omega)

/-- `CheckMessages` finds the texts of the frames again exactly if every end code is harmless. -/
theorem framingInvertedIff (c : Crypto) (sends : List Sent) :
    FrmMain.outputText c (sendsWire c sends) = plaintexts sends ↔ Framed c 0 sends :=
  (framedFrom c 0 sends).2

def noteSend (sends : List Sent) (_ : SlotState) (_ : SlotLabel) (call : Call) (_ : SlotState) : List Sent :=
  match call with
  | .send _ message => sends ++ [message]
  | _ => sends

def changesToRoot : List SlotLabel :=
  clientDoes 0 [heard "Mcd /",.done,.done,.path (ascii "/"),.done,.done,.done,.done]

def rootPrompt : Bytes := ascii "\nuser@box:/$ cd /\n\n"

theorem secondAnswerGarbled : ∃ t, Reaches (watch (slotMachine plainHost 19) noteSend) free (vacant false false,[]) t ∧
    t.2 = [.frame rootPrompt,.endOfTransmission,.frame rootPrompt,.endOfTransmission] ∧
    FrmMain.outputText secretCrypto (sendsWire secretCrypto t.2) ≠ plaintexts t.2 := by
  have ends : (run (watch (slotMachine plainHost 19) noteSend) free (vacant false false,[])
      (sessionOpens 4 (ascii "/") ++ changesToRoot ++ changesToRoot)).map Prod.snd =
      some [.frame rootPrompt,.endOfTransmission,.frame rootPrompt,.endOfTransmission] := by decide +kernel
  obtain ⟨t,ran,sent⟩ := Option.map_eq_some_iff.mp ends
  refine ⟨t,runReaches ran,sent,?_⟩
  rw [sent]
  decide +kernel

end RemoteTerminal
