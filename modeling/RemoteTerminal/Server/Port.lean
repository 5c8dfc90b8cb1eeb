import RemoteTerminal.Library.CNumber

/-! The port the server listens on: an `int` of `atoi` in `main`, an `unsigned int` there,
an `unsigned short` from the constructor on. Both range checks end at 65553, an `unsigned
short` ends at 65535. -/
namespace RemoteTerminal
open ByteStrings CNumber

def serverPortOf (lib : AtoiLibrary) : Option Bytes → UInt32
  | none => 6001
  | some argument =>
    if lib.atoi argument ≤ 65553 ∧ lib.atoi argument > 0 then (lib.atoi argument).toUInt32 else 6001

abbrev Random := Fin 2147483648

structure Socket where
  serverPort : UInt16
  sinPort : UInt8 × UInt8
  deriving DecidableEq, Repr

namespace Socket

def setServerPort (s : Socket) (serverPort : UInt16) : Socket := {s with serverPort}

def setListenSocketProperties (s : Socket) : Socket := {s with sinPort := htons s.serverPort}

def randomPort (random : Random) : UInt16 := UInt16.ofNat (random.val % 65553+1)

/- The `sin_port` of each call of `bind`, and the socket at the last of them. Each random
number is the one behind a `bind` that failed. -/
def listenSocketBind (s : Socket) : List Random → List (UInt8 × UInt8) × Socket
  | [] => ([s.sinPort],s)
  | random::rest =>
    let later := listenSocketBind (s.setServerPort (randomPort random)).setListenSocketProperties rest
    (s.sinPort::later.1,later.2)

end Socket

structure Listening where
  bindCalls : List (UInt8 × UInt8)
  getServerPort : UInt16
  deriving DecidableEq, Repr

def startListening (lib : AtoiLibrary) (memory : Socket) (argument : Option Bytes) (randoms : List Random) :
    Listening :=
  let port := (serverPortOf lib argument).toUInt16
  let bound := (memory.setServerPort port).setListenSocketProperties.listenSocketBind randoms
  ⟨bound.1,bound.2.serverPort⟩

def boundPort (chosen : UInt16) (sinPort : UInt8 × UInt8) : UInt16 :=
  if ntohs sinPort = 0 then chosen else ntohs sinPort

def intendedPort : Option Bytes → Nat
  | none => 6001
  | some argument =>
    if 1 ≤ decimalValue argument ∧ decimalValue argument ≤ 65535 then (decimalValue argument).toNat else 6001

def randomChoice (random : Random) : Nat := random.val % 65553+1

structure PortsKept (lib : AtoiLibrary) (memory : Socket) (argument : Option Bytes) (randoms : List Random)
    (chosen : UInt16) : Prop where
  inRange : ∀ sinPort ∈ (startListening lib memory argument randoms).bindCalls,
    1 ≤ (ntohs sinPort).toNat ∧ (ntohs sinPort).toNat ≤ 65535
  intended : (startListening lib memory argument randoms).bindCalls.map (fun sinPort => (ntohs sinPort).toNat) =
    intendedPort argument::randoms.map randomChoice
  printed : ∀ sinPort ∈ (startListening lib memory argument randoms).bindCalls.getLast?,
    (startListening lib memory argument randoms).getServerPort = boundPort chosen sinPort

/- The numbers from 65536 to 65553 pass the check of `main`. What `atoi` makes of a number
that is no `int` may pass it too. -/
def ArgumentFits (lib : AtoiLibrary) : Option Bytes → Prop
  | none => True
  | some argument =>
    if FitsInt (decimalValue argument) then ¬ (65536 ≤ decimalValue argument ∧ decimalValue argument ≤ 65553)
    else lib.atoi argument = 6001 ∨ ¬ (lib.atoi argument ≤ 65553 ∧ lib.atoi argument > 0)

instance (lib : AtoiLibrary) : (argument : Option Bytes) → Decidable (ArgumentFits lib argument)
  | none => isTrue trivial
  | some argument => inferInstanceAs (Decidable
      (if FitsInt (decimalValue argument) then ¬ (65536 ≤ decimalValue argument ∧ decimalValue argument ≤ 65553)
        else lib.atoi argument = 6001 ∨ ¬ (lib.atoi argument ≤ 65553 ∧ lib.atoi argument > 0)))

def RandomFits (random : Random) : Prop := random.val % 65553 < 65535

def PortsFit (lib : AtoiLibrary) (argument : Option Bytes) (randoms : List Random) : Prop :=
  ArgumentFits lib argument ∧ ∀ random ∈ randoms, RandomFits random

theorem portAccepted (n : Int32) : n ≤ 65553 ∧ n > 0 ↔ 0 < n.toInt ∧ n.toInt ≤ 65553 := by
  have bound : (65553 : Int32).toInt = 65553 := by decide
  have zero : (0 : Int32).toInt = 0 := by decide
  rw [gt_iff_lt,Int32.le_iff_toInt_le,Int32.lt_iff_toInt_lt,bound,zero,and_comm]

theorem serverPortValue (lib : AtoiLibrary) (argument : Bytes) :
    (serverPortOf lib (some argument)).toUInt16.toNat =
      if 0 < (lib.atoi argument).toInt ∧ (lib.atoi argument).toInt ≤ 65553 then
        (lib.atoi argument).toInt.toNat % 65536
      else 6001 := by
  simp only [serverPortOf,portAccepted]
  split
  · rename_i accepted
    have positive : 0 ≤ lib.atoi argument := by
      rw [Int32.le_iff_toInt_le]
      exact Int.le_of_lt accepted.1
    rw [UInt32.toNat_toUInt16,Int32.toNat_toUInt32_of_le positive]
    rfl
  · rfl

theorem serverPortIntended (lib : AtoiLibrary) (argument : Option Bytes) :
    (serverPortOf lib argument).toUInt16.toNat = intendedPort argument ↔ ArgumentFits lib argument := by
  cases argument with
  | none => exact iff_of_true rfl trivial
  | some argument =>
    have value := lib.atoiValue argument
    have default : lib.atoi argument = 6001 ↔ (lib.atoi argument).toInt = 6001 := Int32.toInt_inj.symm
    simp only [serverPortValue,intendedPort,ArgumentFits,portAccepted,default]
    generalize (lib.atoi argument).toInt = taken at value ⊢
    generalize decimalValue argument = number at value ⊢
    by_cases fits : FitsInt number
    · -- below 65536 nothing is cut off, above 65553 the default is taken
      cases value fits
      rw [if_pos fits]
      split <;> split <;> omega
    · rw [if_neg fits]
      unfold FitsInt at fits
      split <;> split <;> omega

theorem randomPortChoice (random : Random) :
    (Socket.randomPort random).toNat = randomChoice random ↔ RandomFits random := by
  have kept := portKept (random.val % 65553+1)
  unfold RandomFits
  exact kept.trans (by omega)

theorem bindCallsPorts (s : Socket) (randoms : List Random) (set : s.sinPort = htons s.serverPort) :
    (s.listenSocketBind randoms).1.map ntohs = s.serverPort::randoms.map Socket.randomPort ∧
    (s.listenSocketBind randoms).1.getLast? = some (htons (s.listenSocketBind randoms).2.serverPort) := by
  induction randoms generalizing s with
  | nil => simp [Socket.listenSocketBind,set,ntohsHtons]
  | cons random rest ih =>
    obtain ⟨ports,last⟩ := ih (s.setServerPort (Socket.randomPort random)).setListenSocketProperties rfl
    constructor
    · rw [Socket.listenSocketBind,List.map_cons,ports,set,ntohsHtons]
      rfl
    · rw [Socket.listenSocketBind,List.getLast?_cons,last]
      rfl

theorem startListeningCalls (lib : AtoiLibrary) (memory : Socket) (argument : Option Bytes) (randoms : List Random) :
    (startListening lib memory argument randoms).bindCalls.map ntohs =
      (serverPortOf lib argument).toUInt16::randoms.map Socket.randomPort ∧
    (startListening lib memory argument randoms).bindCalls.getLast? =
      some (htons (startListening lib memory argument randoms).getServerPort) :=
  bindCallsPorts _ randoms rfl

theorem callsIntended (lib : AtoiLibrary) (memory : Socket) (argument : Option Bytes) (randoms : List Random) :
    (startListening lib memory argument randoms).bindCalls.map (fun sinPort => (ntohs sinPort).toNat) =
      intendedPort argument::randoms.map randomChoice ↔ PortsFit lib argument randoms := by
  have calls := congrArg (List.map UInt16.toNat) (startListeningCalls lib memory argument randoms).1
  rw [List.map_map] at calls
  have numbers : (fun sinPort => (ntohs sinPort).toNat) = UInt16.toNat ∘ ntohs := rfl
  rw [numbers,calls,List.map_cons,List.cons.injEq,serverPortIntended,List.map_map,List.map_inj_left]
  simp only [Function.comp_apply,randomPortChoice]
  rfl

theorem intendedPositive (argument : Option Bytes) (randoms : List Random) :
    ∀ n ∈ intendedPort argument::randoms.map randomChoice, 1 ≤ n := by
  intro n mem
  rcases List.mem_cons.mp mem with rfl | mem
  · unfold intendedPort
    split
    · decide
    · split <;> omega
  · obtain ⟨random,-,rfl⟩ := List.mem_map.mp mem
    exact Nat.le_add_left 1 _

/-- Nothing wraps exactly if the argument and the random numbers fit. -/
theorem portsKeptIff (lib : AtoiLibrary) (memory : Socket) (argument : Option Bytes) (randoms : List Random)
    (chosen : UInt16) : PortsKept lib memory argument randoms chosen ↔ PortsFit lib argument randoms := by
  rw [← callsIntended lib memory]
  refine ⟨PortsKept.intended,fun intended => ?_⟩
  have inRange : ∀ sinPort ∈ (startListening lib memory argument randoms).bindCalls,
      1 ≤ (ntohs sinPort).toNat ∧ (ntohs sinPort).toNat ≤ 65535 := by
    intro sinPort mem
    have meant : (ntohs sinPort).toNat ∈ intendedPort argument::randoms.map randomChoice := by
      rw [← intended]
      exact List.mem_map_of_mem mem
    exact ⟨intendedPositive argument randoms _ meant,Nat.le_of_lt_succ (UInt16.toNat_lt _)⟩
  refine ⟨inRange,intended,fun sinPort last => ?_⟩
  have positive := (inRange sinPort (List.mem_of_getLast? last)).1
  have some : ¬ ntohs sinPort = 0 := by
    intro zero
    rw [zero] at positive
    cases positive
  rw [boundPort,if_neg some]
  rw [(startListeningCalls lib memory argument randoms).2] at last
  rw [← Option.some.inj last,ntohsHtons]

theorem decimalPort (lib : AtoiLibrary) (memory : Socket) (randoms : List Random) {n : Nat} (positive : 1 ≤ n)
    (small : n ≤ 65535) : ((startListening lib memory (some (decimal n)) randoms).bindCalls.map ntohs).head? =
      some (UInt16.ofNat n) := by
  have fits : ArgumentFits lib (some (decimal n)) := by
    have int : FitsInt (decimalValue (decimal n)) := by
      rw [decimalValueDecimal,FitsInt]
      omega
    rw [ArgumentFits,if_pos int,decimalValueDecimal]
    omega
  have meant := (serverPortIntended lib (some (decimal n))).mpr fits
  have value : intendedPort (some (decimal n)) = n := by
    rw [intendedPort,decimalValueDecimal,if_pos (by omega)]
    rfl
  rw [(startListeningCalls lib memory _ randoms).1,List.head?_cons,Option.some.injEq,← UInt16.toNat_inj,
    (portKept n).mpr (by omega)]
  exact meant.trans value

theorem portWraps : (startListening longAtoi ⟨0,0,0⟩ (some (ascii "65536")) []).bindCalls = [(0,0)] ∧
    (startListening longAtoi ⟨0,0,0⟩ (some (ascii "65536")) []).getServerPort ≠ boundPort 40000 (0,0) ∧
    ¬ PortsKept longAtoi ⟨0,0,0⟩ (some (ascii "65536")) [] 40000 := by
  refine ⟨by decide +kernel,by decide +kernel,fun kept => ?_⟩
  have fits := ((callsIntended _ _ _ _).mp kept.intended).1
  revert fits
  decide +kernel

end RemoteTerminal
