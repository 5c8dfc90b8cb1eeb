import RemoteTerminal.Client.Qt
import RemoteTerminal.Server.Threads
import RemoteTerminal.Library.Runs

/-! The client on one connection: the receive thread `TCPClient::run` and the window
`frmMain`, one call at a time, over the memory `TCPConn` they share. The network is what
the server has sent or will send and the client has not received. -/
namespace RemoteTerminal
open ByteStrings LabelledRuns PlainText

def endTransmissionCode : Bytes := ascii "EOT"
def delimiter : UInt8 := 124

structure Connection where
  serverOutput : Bytes
  isConnected : Bool
  transmissionEnd : Bool
  deriving DecidableEq, Repr

namespace TCPClient

inductive Pc where
  | receive
  | append (sPacket : Bytes)
  | mark (sPacket : Bytes)
  | overrun (r : Bytes)
  | disconnect
  | done
  deriving DecidableEq, Repr

def clearServerOutput (conn : Connection) : Connection := {conn with serverOutput := []}

def disconnect (conn : Connection) : Connection :=
  {conn with isConnected := false,transmissionEnd := false}

/- A failed `select` leaves the loop as a failed `recv` does. -/
def afterReceive (conn : Connection) : Recv → Pc
  | .bytes r =>
    if conn.transmissionEnd then .receive
    else match assign (packet (.bytes r)) with
      | none => .overrun r
      | some sPacket => if sPacket.length > 0 then .append sPacket else .receive
  | .failed | .closed => .disconnect

def step (conn : Connection) : Pc → Option (Pc × Connection)
  | .append sPacket => some (.mark sPacket,{conn with serverOutput := conn.serverOutput ++ sPacket})
  | .mark sPacket =>
    some (.receive,{conn with transmissionEnd := contains sPacket endTransmissionCode})
  | .disconnect => some (.done,disconnect conn)
  | .receive | .overrun _ | .done => none

end TCPClient

namespace FrmMain

/- `taken` is what the second `GetServerOutput` of `CheckMessages` returned; the list it is
split into is alive to the end of the call. -/
inductive Pc where
  | idle
  | length
  | take
  | decrypt (taken : Bytes)
  | clear (taken : Bytes) (ended : Bool)
  | setTransmissionEnd
  | clearOutput
  | send
  | clearDisconnected
  | hangUp
  | stopped
  deriving DecidableEq, Repr

structure Window where
  terminalOutput : List Text
  cancelEnabled : Bool
  deriving DecidableEq, Repr

inductive Input where
  | checkMessages
  | sendCommand
  | cancelCommand
  | disconnect
  deriving DecidableEq, Repr

/- The decrypted text of `serverOutputList`, without the end codes. The elements are texts in
between: ASCII stays as it is, and the hex decoder skips everything else. -/
def outputText (c : Crypto) (serverOutput : Bytes) : Bytes :=
  (serverOutput.splitOn delimiter).flatMap fun outputLine =>
    if outputLine.length > 0 ∧ outputLine ≠ endTransmissionCode then c.decryptString outputLine else []

def start (conn : Connection) (window : Window) : Input → Option Pc
  | .checkMessages => some (if conn.isConnected then .length else .clearDisconnected)
  | .sendCommand => some (if conn.isConnected ∧ ¬ conn.transmissionEnd then .clearOutput else .idle)
  | .cancelCommand =>
    if window.cancelEnabled then
      some (if conn.isConnected ∧ ¬ conn.transmissionEnd then .send else .idle)
    else none
  | .disconnect => if conn.isConnected then some .clearDisconnected else none

def step (qt : Qt) (c : Crypto) (conn : Connection) (window : Window) (sent : Bool) :
    Pc → Option (Pc × Connection × Window)
  | .length => some (if conn.serverOutput.length > 0 then .take else .idle,conn,window)
  | .take => some (.decrypt conn.serverOutput,conn,window)
  | .decrypt taken =>
    let serverOutput := outputText c taken
    some (.clear taken conn.transmissionEnd,conn,{window with
      terminalOutput := if serverOutput.length > 0 then window.terminalOutput ++ [qt.fromStdString serverOutput]
        else window.terminalOutput
      cancelEnabled := if conn.transmissionEnd then false else window.cancelEnabled})
  | .clear _ ended =>
    some (if ended then .setTransmissionEnd else .idle,TCPClient.clearServerOutput conn,window)
  | .setTransmissionEnd => some (.idle,{conn with transmissionEnd := false},window)
  | .clearOutput => some (.send,TCPClient.clearServerOutput conn,{window with cancelEnabled := true})
  | .send => some (if sent then .idle else .clearDisconnected,conn,window)
  -- `Disconnect`
  | .clearDisconnected => some (.hangUp,TCPClient.clearServerOutput conn,window)
  | .hangUp => some (.stopped,if conn.isConnected then TCPClient.disconnect conn else conn,window)
  | .idle | .stopped => none

end FrmMain

structure ClientState where
  conn : Connection
  network : Bytes
  receiver : TCPClient.Pc
  form : FrmMain.Pc
  window : FrmMain.Window
  deriving DecidableEq, Repr

inductive ClientLabel where
  | recv (r : Recv)
  | run
  | input (i : FrmMain.Input)
  | form (sent : Bool)
  deriving DecidableEq, Repr

def fromNetwork (network : Bytes) : Recv → Option Bytes
  | .bytes r =>
    if 0 < r.length ∧ r.length ≤ packetSize ∧ r <+: network then some (network.drop r.length) else none
  | .failed | .closed => some network

def clientAct (qt : Qt) (c : Crypto) (s : ClientState) : ClientLabel → Option ClientState
  | .recv r =>
    if s.receiver = .receive then
      (fromNetwork s.network r).map fun network =>
        {s with network,receiver := TCPClient.afterReceive s.conn r}
    else none
  | .run => (TCPClient.step s.conn s.receiver).map fun next =>
      {s with receiver := next.1,conn := next.2}
  | .input i =>
    if s.form = .idle then (FrmMain.start s.conn s.window i).map fun form => {s with form} else none
  | .form sent => (FrmMain.step qt c s.conn s.window sent s.form).map fun next =>
      {s with form := next.1,conn := next.2.1,window := next.2.2}

def clientMachine (qt : Qt) (c : Crypto) : Machine ClientState ClientLabel Unit where
  act s l := (clientAct qt c s l).map fun t => ((),t)

/- `Connect` leaves `ServerOutput` alone; `Disconnect` of the window has cleared it. -/
def connected (network : Bytes) : ClientState where
  conn := {serverOutput := [],isConnected := true,transmissionEnd := false}
  network := network
  receiver := .receive
  form := .idle
  window := {terminalOutput := [],cancelEnabled := false}

theorem clientMachineAct {qt : Qt} {c : Crypto} {s t : ClientState} {l : ClientLabel} {seen : Unit}
    (act : (clientMachine qt c).act s l = some (seen,t)) : clientAct qt c s l = some t := by
  obtain ⟨u,hu,same⟩ := Option.map_eq_some_iff.mp act
  cases same
  exact hu

end RemoteTerminal
