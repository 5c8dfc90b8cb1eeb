import RemoteTerminal.Server.Receive

/-! The three thread programs of the server, one statement at a time: `SocketListen`,
`NewClient`, and `NewConsole` with `HandleClientPipe`. A step is given the result of the
statement's system call and answers with the call, the thread after it and the memory
after it. `none` means that the call cannot have that result there. -/
namespace RemoteTerminal
open ByteStrings

structure ThreadData where
  command : Bytes
  hostname : Bytes
  username : Bytes
  directory : Bytes
  socketID : Nat
  pipeParentToChild : Nat × Nat
  pipeChildToParent : Nat × Nat
  activePipeID : Int
  pipeActive : Bool
  nextCommand : Bytes
  hasNextCommand : Bool
  exitCode : Int
  deriving DecidableEq, Repr

structure Slot where
  client : Int
  console : ThreadData
  deriving DecidableEq, Repr

structure Host where
  hostname : Bytes
  username : Bytes
  homeDirectory : Bytes
  root : Bool

inductive Sent where
  | frame (text : Bytes)
  | endOfTransmission
  deriving DecidableEq, Repr

def Sent.wire (c : Crypto) : Sent → Bytes
  | .frame text => c.encryptString text ++ ascii "|"
  | .endOfTransmission => ascii "EOT"

inductive Call where
  | memory
  | accept
  | createClient
  | createConsole
  | join (thread : Option Nat)
  | readlink
  | getcwd
  | chdir (path : Bytes)
  | recv (socket : Int)
  | send (socket : Int) (message : Sent)
  | shutdown (socket : Int)
  | pipe
  | close (descriptor : Int)
  | fork (command : Bytes)
  | read (descriptor : Int)
  | write (descriptor : Int) (text : Bytes)
  | fopen (pid : Int)
  | fclose (descriptor : Int)
  | kill (pid : Int)
  | wait
  deriving DecidableEq, Repr

inductive Result where
  | done
  | failed
  | thread (k : Nat)
  | descriptor (n : Nat)
  | descriptors (reading writing : Nat)
  | process (pid : Nat)
  | path (p : Bytes)
  | received (r : Received)
  | output (b : Bytes)
  | again (late : Bool)
  | endOfFile
  deriving DecidableEq, Repr

namespace SocketListen

inductive Pc where
  | listen
  | scan (i : Nat)
  | invalid (i : Nat)
  | reset (i : Nat)
  | publish (i : Nat)
  | create (i : Nat)
  deriving DecidableEq, Repr

def Pc.slot : Pc → Nat
  | .listen => 0
  | .scan i | .invalid i | .reset i | .publish i | .create i => i

/- The last component is `Service->currentClientSocket`. -/
def step (maxClients : Nat) (pc : Pc) (slot : Slot) (current : Nat) : Result →
    Option (Call × Pc × Slot × Nat) := match pc with
  | .listen => fun
    | .done => some (.memory,.scan 0,slot,current)
    | _ => none
  | .scan i =>
    if maxClients < i then fun
      | .done => some (.memory,.listen,slot,current)
      | _ => none
    else if slot.client = 0 then fun
      | .descriptor n => some (.accept,.reset i,{slot with client := n},current)
      | .failed => some (.accept,.invalid i,{slot with client := -1},current)
      | _ => none
    else fun
      | .done => some (.memory,.scan (i+1),slot,current)
      | _ => none
  -- `CloseSocket` of an invalid socket, then `break` and `sleep(1)`
  | .invalid _ => fun
    | .done => some (.memory,.listen,{slot with client := 0},current)
    | _ => none
  | .reset i => fun
    | .done => some (.memory,.publish i,{slot with console.exitCode := 0},current)
    | _ => none
  | .publish i => fun
    | .done => some (.memory,.create i,slot,i)
    | _ => none
  -- the result of `pthread_create` is not looked at
  | .create i => fun
    | .done | .failed => some (.createClient,.scan (i+1),slot,current)
    | _ => none

end SocketListen

def promptText (d : ThreadData) : Bytes :=
  ascii "\n" ++ d.username ++ ascii "@" ++ d.hostname ++ ascii ":" ++ d.directory ++ ascii "$ " ++
    d.command ++ ascii "\n\n"

def refusalText : Bytes := ascii "\nYou must be root to perform this command.\n"
def createFailedText : Bytes := ascii "\nFailed to generate pthread.\n"

def killedText (pid : Int) : Bytes := ascii "\n[Process " ++ ascii (toString pid) ++ ascii " killed]"

/- The path a message with "cd" in it is taken for. `find("cd ",0,2)` and `find("cd",0,1)`
look for the first two and the first one of these characters. -/
def changeTarget (host : Host) (current directory sPacket : Bytes) : Bytes :=
  if contains sPacket (ascii "cd ..") ∧ sPacket.length = 5 then directory ++ ascii "/.."
  else if contains sPacket (ascii "cd") ∧ 2 < sPacket.length then sPacket.drop 3
  else if contains sPacket (ascii "c") ∧ sPacket.length = 2 then host.homeDirectory
  else current

namespace NewClient

inductive Pc where
  | start
  | enter
  | receive
  | message (p : Bytes)
  | refuse
  | changeDirectory (p : Bytes)
  | readDirectory (p : Bytes)
  | setCommand (p : Bytes)
  | prompt
  | returnDirectory
  | finish (again : Bool)
  | route (p : Bytes)
  | launch (p : Bytes)
  | openOutput
  | openInput
  | activate
  | create
  | createFailed
  | deposit (p : Bytes)
  | flag
  | cancel
  | join
  | leave
  | closeSocket
  | freeSlot
  | exit
  | done
  deriving DecidableEq, Repr

structure Thread where
  pc : Pc
  socketID : Nat
  currentDirectory : Bytes
  newConsoleThread : Option Nat
  deriving DecidableEq, Repr

def afterReceive (r : Received) : Pc :=
  if r.bytesReceived = 0 then .leave
  else match branch r.sPacket with
    | .message p => .message p
    | .cancel => .cancel
    | .close ends => if ends then .leave else .receive
    | .reject => .leave

def refused (host : Host) (p : Bytes) : Bool := contains p (ascii "sudo ") && !host.root

def changesDirectory (p : Bytes) : Bool := contains p (ascii "cd")

def afterMessage (host : Host) (exitCode : Int) (p : Bytes) : Pc :=
  if exitCode ≠ 0 then .receive
  else if refused host p then .refuse
  else if changesDirectory p then .changeDirectory p
  else .route p

def step (host : Host) (t : Thread) (s : Slot) : Result → Option (Call × Thread × Slot) :=
  match t.pc with
  -- The scheduler gives the thread its slot here.
  | .start => fun _ => none
  | .enter => fun
    | .path cwd => some (.readlink,{t with pc := .receive,currentDirectory := cwd},
        {s with console := {s.console with
          directory := cwd,socketID := t.socketID,username := host.username,hostname := host.hostname}})
    | _ => none
  | .receive => fun
    | .received r => some (.recv s.client,{t with pc := afterReceive r},s)
    | _ => none
  | .message p => fun
    | .done => some (.memory,{t with pc := afterMessage host s.console.exitCode p},s)
    | _ => none
  | .refuse => fun
    | .done => some (.send s.client (.frame refusalText),{t with pc := .finish true},s)
    | _ => none
  | .changeDirectory p =>
    let target := changeTarget host t.currentDirectory s.console.directory p
    fun
    | .done => some (.chdir (cString target),{t with pc := .readDirectory p,currentDirectory := target},s)
    | .failed => some (.chdir (cString target),{t with pc := .setCommand p,currentDirectory := target},s)
    | _ => none
  | .readDirectory p => fun
    | .path cwd => some (.getcwd,{t with pc := .setCommand p},{s with console.directory := cwd})
    | _ => none
  | .setCommand p => fun
    | .done => some (.memory,{t with pc := .prompt},{s with console.command := p})
    | _ => none
  | .prompt => fun
    | .done => some (.send s.client (.frame (promptText s.console)),{t with pc := .returnDirectory},s)
    | _ => none
  | .returnDirectory => fun
    | .done | .failed => some (.chdir (cString s.console.directory),{t with pc := .finish true},s)
    | _ => none
  | .finish again => fun
    | .done => some (.send s.client .endOfTransmission,{t with pc := if again then .receive else .leave},s)
    | _ => none
  | .route p => fun
    | .done => some (.memory,{t with pc := if s.console.pipeActive then .deposit p else .launch p},s)
    | _ => none
  | .launch p => fun
    | .done => some (.memory,{t with pc := .openOutput},{s with console.command := p})
    | _ => none
  | .openOutput => fun
    | .descriptors r w => some (.pipe,{t with pc := .openInput},{s with console.pipeChildToParent := (r,w)})
    | .failed => some (.pipe,{t with pc := .receive},s)
    | _ => none
  | .openInput => fun
    | .descriptors r w => some (.pipe,{t with pc := .activate},{s with console.pipeParentToChild := (r,w)})
    | .failed => some (.pipe,{t with pc := .receive},s)
    | _ => none
  | .activate => fun
    | .done => some (.memory,{t with pc := .create},{s with console.pipeActive := true})
    | _ => none
  | .create => fun
    | .thread k => some (.createConsole,{t with pc := .receive,newConsoleThread := some k},s)
    | .failed => some (.createConsole,{t with pc := .createFailed},s)
    | _ => none
  | .createFailed => fun
    | .done => some (.send s.client (.frame createFailedText),{t with pc := .finish false},s)
    | _ => none
  | .deposit p => fun
    | .done => some (.memory,{t with pc := .flag},{s with console.nextCommand := p ++ [10]})
    | _ => none
  | .flag => fun
    | .done => some (.memory,{t with pc := .receive},{s with console.hasNextCommand := true})
    | _ => none
  | .cancel => fun
    | .done => some (.memory,{t with pc := .join},{s with console.exitCode := 1})
    | _ => none
  | .join => fun
    | .done => some (.join t.newConsoleThread,{t with pc := .receive},s)
    | _ => none
  -- `CloseSocket`
  | .leave =>
    if s.client = -1 then fun
      | .done => some (.memory,{t with pc := .freeSlot},s)
      | _ => none
    else fun
      | .done => some (.shutdown s.client,{t with pc := .closeSocket},s)
      | .failed => some (.shutdown s.client,{t with pc := .freeSlot},s)
      | _ => none
  | .closeSocket => fun
    | .done => some (.close s.client,{t with pc := .freeSlot},s)
    | _ => none
  | .freeSlot => fun
    | .done => some (.memory,{t with pc := .exit},{s with client := 0})
    | _ => none
  | .exit => fun
    | .done => some (.memory,{t with pc := .done},s)
    | _ => none
  | .done => fun _ => none

end NewClient

namespace NewConsole

inductive Pc where
  | prompt
  | returnDirectory
  | assemble
  | fork (sPacket : Bytes)
  | closeInput
  | closeOutput
  | enter
  | read
  | probe
  | probed (n : Nat)
  | testExit
  | relay (b : Bytes)
  | mailbox
  | write
  | clearFlag
  | clearText
  | kill
  | killNext
  | report
  | finish
  | clearExit
  | deactivate
  | wait
  | closeAgain (n : Nat)
  | done
  deriving DecidableEq, Repr

structure Thread where
  pc : Pc
  socketID : Nat
  pipeProcessID : Int
  processOpen : Bool
  deriving DecidableEq, Repr

def finalClose (d : ThreadData) : Nat → Nat
  | 0 => d.pipeParentToChild.1
  | 1 => d.pipeParentToChild.2
  | 2 => d.pipeChildToParent.1
  | _ => d.pipeChildToParent.2

def step (t : Thread) (s : Slot) : Result → Option (Call × Thread × Slot) :=
  match t.pc with
  | .prompt => fun
    | .done => some (.send s.client (.frame (promptText s.console)),{t with pc := .returnDirectory},s)
    | _ => none
  | .returnDirectory => fun
    | .done | .failed => some (.chdir (cString s.console.directory),{t with pc := .assemble},s)
    | _ => none
  | .assemble => fun
    | .done => some (.memory,{t with pc := .fork (s.console.command ++ ascii " 2>&1")},s)
    | _ => none
  | .fork sPacket => fun
    | .process pid => some (.fork sPacket,{t with pc := .closeInput},{s with console.activePipeID := pid})
    | .failed => some (.fork sPacket,{t with pc := .closeInput},{s with console.activePipeID := -1})
    | _ => none
  | .closeInput => fun
    | .done => some (.close s.console.pipeParentToChild.1,{t with pc := .closeOutput},s)
    | _ => none
  | .closeOutput => fun
    | .done => some (.close s.console.pipeChildToParent.2,{t with pc := .enter},s)
    | _ => none
  -- `HandleClientPipe`
  | .enter => fun
    | .done => some (.memory,
        {t with pc := .read,pipeProcessID := s.console.activePipeID,processOpen := true},s)
    | _ => none
  | .read => fun
    | .again late => some (.read s.console.pipeChildToParent.1,
        {t with pc := if late && t.processOpen then .probe else .testExit},s)
    | .output b => some (.read s.console.pipeChildToParent.1,{t with pc := .relay b},s)
    | .endOfFile | .failed => some (.read s.console.pipeChildToParent.1,{t with pc := .kill},s)
    | _ => none
  | .probe => fun
    | .failed => some (.fopen (t.pipeProcessID+1),{t with pc := .testExit,processOpen := false},s)
    | .descriptor n => some (.fopen (t.pipeProcessID+1),{t with pc := .probed n},s)
    | _ => none
  | .probed n => fun
    | .done => some (.fclose n,{t with pc := .testExit},s)
    | _ => none
  | .testExit => fun
    | .done => some (.memory,{t with pc := if s.console.exitCode = 1 then .kill else .mailbox},s)
    | _ => none
  | .relay b => fun
    | .done => some (.send s.client (.frame (cString b)),{t with pc := .mailbox},s)
    | _ => none
  | .mailbox => fun
    | .done => some (.memory,{t with pc := if s.console.hasNextCommand then .write else .read},s)
    | _ => none
  | .write => fun
    | .done => some (.write s.console.pipeParentToChild.2 (cString s.console.nextCommand),
        {t with pc := .clearFlag},s)
    | _ => none
  | .clearFlag => fun
    | .done => some (.memory,{t with pc := .clearText},{s with console.hasNextCommand := false})
    | _ => none
  | .clearText => fun
    | .done => some (.memory,{t with pc := .read},{s with console.nextCommand := []})
    | _ => none
  | .kill => fun
    | .done | .failed => some (.kill t.pipeProcessID,{t with pc := .killNext},s)
    | _ => none
  | .killNext => fun
    | .done | .failed => some (.kill (t.pipeProcessID+1),{t with pc := .report},s)
    | _ => none
  | .report => fun
    | .done => some (.send s.client (.frame (killedText t.pipeProcessID)),{t with pc := .finish},s)
    | _ => none
  | .finish => fun
    | .done => some (.send s.client .endOfTransmission,{t with pc := .clearExit},s)
    | _ => none
  | .clearExit => fun
    | .done => some (.memory,{t with pc := .deactivate},{s with console.exitCode := 0})
    | _ => none
  | .deactivate => fun
    | .done => some (.memory,{t with pc := .wait},{s with console.pipeActive := false})
    | _ => none
  -- back in `NewConsole`
  | .wait => fun
    | .process _ | .failed => some (.wait,{t with pc := .closeAgain 0},s)
    | _ => none
  | .closeAgain n => fun
    | .done => some (.close (finalClose s.console n),
        {t with pc := if n < 3 then .closeAgain (n+1) else .done},s)
    | _ => none
  | .done => fun _ => none

end NewConsole
end RemoteTerminal
