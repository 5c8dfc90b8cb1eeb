import RemoteTerminal.Client.CancelButton
import RemoteTerminal.Client.History
import RemoteTerminal.Client.SelectedProfile
import RemoteTerminal.Library.Behaviours

/-! The window as its user sees it: what is enabled, what is written where, and the two
timers that call `Connect` and `CheckMessages`. The receive threads change none of it. -/
namespace RemoteTerminal
open PlainText LabelledRuns EntryTable

namespace FrmMain

def plainTitle : Text := text "Remote Terminal [Client]"

structure Widgets where
  windowTitle : Text
  lblStatus : Text
  btnConnect : Text
  btnConnectEnabled : Bool
  fields : ConnectFields
  txtIPHostEnabled : Bool
  txtPortEnabled : Bool
  txtPasswordEnabled : Bool
  cboSelectedProfileEnabled : Bool
  history : CommandHistory
  txtCommandEnabled : Bool
  btnSendEnabled : Bool
  messageTimer : Bool
  connectTimer : Bool
  deriving DecidableEq, Repr

def designed (fields : ConnectFields) : Widgets where
  windowTitle := plainTitle
  lblStatus := text "Not Connected"
  btnConnect := text "Connect"
  btnConnectEnabled := true
  fields := fields
  txtIPHostEnabled := true
  txtPortEnabled := true
  txtPasswordEnabled := true
  cboSelectedProfileEnabled := true
  history := newHistory []
  txtCommandEnabled := false
  btnSendEnabled := false
  messageTimer := false
  connectTimer := false

/- `OnCommandTextChange` is called when the text is another one. -/
def showHistory (w : Widgets) (history : CommandHistory) : Widgets :=
  {w with
    history := history
    btnSendEnabled := if history.txtCommand = w.history.txtCommand then w.btnSendEnabled
      else decide (history.txtCommand.length > 0)}

def showConnecting (w : Widgets) : Widgets :=
  {w with btnConnectEnabled := false,lblStatus := text "Connecting...",connectTimer := true}

def showConnected (w : Widgets) : Widgets :=
  {w with
    history := newHistory w.history.txtCommand
    lblStatus := text "Connected!"
    btnConnect := text "Disconnect"
    txtCommandEnabled := true
    txtIPHostEnabled := false
    txtPortEnabled := false
    txtPasswordEnabled := false
    cboSelectedProfileEnabled := false
    btnConnectEnabled := true
    messageTimer := true
    windowTitle := plainTitle ++ text " - " ++ w.fields.txtIPHost ++ text ":" ++ w.fields.txtPort}

def showNotConnected (w : Widgets) : Widgets := {w with lblStatus := text "Not Connected",btnConnectEnabled := true}

def showDisconnected (w : Widgets) : Widgets :=
  {w with
    windowTitle := plainTitle
    lblStatus := text "Not Connected"
    btnConnect := text "Connect"
    txtCommandEnabled := false
    btnSendEnabled := false
    txtIPHostEnabled := true
    txtPortEnabled := true
    txtPasswordEnabled := true
    btnConnectEnabled := true
    cboSelectedProfileEnabled := true
    messageTimer := false}

/- What a statement of the window, from `s` to `s'`, does to the widgets. The rest of
`Connect` and `Disconnect` after their calls of `TCPClient` goes with the last of these. -/
def widgetsAfter (s s' : Client) (w : Widgets) : Widgets := match s.call with
  | .connecting .result _ =>
    {(if s.tcpConn.conn.isConnected then showConnected w else showNotConnected w) with connectTimer := false}
  | .form .hangUp => if s.tcpConn.conn.isConnected then w else showDisconnected w
  | .disconnecting _ => if s'.call.idle then showDisconnected w else w
  | .form (.decrypt _) =>
    if s.tcpConn.conn.transmissionEnd then {w with txtCommandEnabled := true,btnSendEnabled := false} else w
  | .form .clearOutput => showHistory w (recordCommand w.history w.history.txtCommand)
  | _ => w

end FrmMain

/- The key Return sends what is in the field, also with the button disabled. The fields are
typed in, or filled from a profile. -/
inductive WidgetLabel where
  | connectClick
  | connectTimeout
  | messageTimeout
  | sendCommand
  | cancelClick
  | typed (txtCommand : Text)
  | keyDown
  | keyUp
  | filled (fields : FrmMain.ConnectFields)
  | window (r : ClientResult)
  | receiver (k : Nat) (r : ClientResult)

structure Form where
  client : Client
  widgets : FrmMain.Widgets

def Form.idle (s : Form) : Bool := s.client.call.idle

section
variable (library : CryptoLibrary) (qt : Qt)
open FrmMain

def Form.passes (s : Form) (l : ReconnectLabel) : Option (ClientCall × Form) :=
  ((reconnectingMachine qt).act s.client l).map fun r => (r.1,⟨r.2,s.widgets⟩)

def Form.shows (s : Form) (w : Widgets) : Option (ClientCall × Form) := some (.memory,⟨s.client,w⟩)

def widgetMachine : Machine Form WidgetLabel ClientCall where
  act s
    | .window r => ((reconnectingMachine qt).act s.client (.window r)).map fun next =>
        (next.1,⟨next.2,widgetsAfter s.client next.2 s.widgets⟩)
    | .receiver k r => s.passes qt (.receiver k r)
    | .connectClick =>
      if s.idle ∧ s.widgets.btnConnectEnabled then
        if s.client.tcpConn.conn.isConnected then s.passes qt (.input .disconnect)
        else if s.widgets.fields.txtIPHost.length > 0 ∧ s.widgets.fields.txtPassword.length > 0 ∧
          s.widgets.fields.txtPort.length > 0 then s.shows (showConnecting s.widgets)
        else s.shows s.widgets
      else none
    | .connectTimeout =>
      if s.idle ∧ s.widgets.connectTimer then
        if s.client.tcpConn.conn.isConnected then s.shows {s.widgets with connectTimer := false}
        else s.passes qt (.connect ⟨library,qt.toStdString s.widgets.fields.txtPassword⟩)
      else none
    | .messageTimeout => if s.widgets.messageTimer then s.passes qt (.input .checkMessages) else none
    | .sendCommand => s.passes qt (.input .sendCommand)
    | .cancelClick => s.passes qt (.input .cancelCommand)
    | .typed txtCommand =>
      if s.idle ∧ s.widgets.txtCommandEnabled then
        s.shows (showHistory s.widgets {s.widgets.history with txtCommand}) else none
    | .keyDown =>
      if s.idle then (FrmMain.keyDown s.widgets.history).bind fun h => s.shows (showHistory s.widgets h) else none
    | .keyUp =>
      if s.idle then (FrmMain.keyUp s.widgets.history).bind fun h => s.shows (showHistory s.widgets h) else none
    | .filled fields => if s.idle then s.shows {s.widgets with fields} else none

end

def opened (crypto : Crypto) (fields : FrmMain.ConnectFields) : Form := ⟨launched crypto,FrmMain.designed fields⟩

structure Coherent (w : FrmMain.Widgets) : Prop where
  button : w.btnConnect = if w.messageTimer then text "Disconnect" else text "Connect"
  fields : w.txtIPHostEnabled = !w.messageTimer ∧ w.txtPortEnabled = !w.messageTimer ∧
    w.txtPasswordEnabled = !w.messageTimer ∧ w.cboSelectedProfileEnabled = !w.messageTimer
  command : w.txtCommandEnabled = w.messageTimer
  title : w.windowTitle = FrmMain.plainTitle ↔ w.messageTimer = false
  connected : w.lblStatus = text "Connected!" → w.messageTimer = true
  connecting : w.lblStatus = text "Connecting..." → w.connectTimer = true
  clickable : w.btnConnectEnabled = false → w.connectTimer = true
  send : w.btnSendEnabled = true → w.history.txtCommand ≠ []

structure Faithful (s : Form) : Prop where
  coherent : Coherent s.widgets
  connected : s.client.tcpConn.conn.isConnected = true → s.client.tcpConn.currentSocket ≠ 0 →
    s.widgets.messageTimer = true ∧ s.widgets.lblStatus = text "Connected!" ∧ s.widgets.btnConnectEnabled = true
  pending : s.widgets.connectTimer = true → s.client.tcpConn.conn.isConnected = false

section
open FrmMain
variable {w : Widgets}

theorem coherentDesigned (fields : ConnectFields) : Coherent (designed fields) := by
  constructor <;> simp [designed,text]

theorem coherentHistory (coherent : Coherent w) (history : CommandHistory) : Coherent (showHistory w history) := by
  obtain ⟨button,fields,command,title,connected,connecting,clickable,send⟩ := coherent
  refine ⟨button,fields,command,title,connected,connecting,clickable,fun enabled => ?_⟩
  by_cases same : history.txtCommand = w.history.txtCommand
  · simp only [showHistory,same,if_true] at enabled ⊢
    exact send enabled
  · simp only [showHistory,if_neg same,decide_eq_true_eq] at enabled ⊢
    exact List.ne_nil_of_length_pos enabled

theorem coherentConnecting (coherent : Coherent w) : Coherent (showConnecting w) := by
  obtain ⟨button,fields,command,title,-,-,-,send⟩ := coherent
  exact ⟨button,fields,command,title,fun shown => by simp [showConnecting,text] at shown,fun _ => rfl,fun _ => rfl,send⟩

theorem coherentConnected (coherent : Coherent w) : Coherent {showConnected w with connectTimer := false} := by
  refine ⟨rfl,⟨rfl,rfl,rfl,rfl⟩,rfl,?_,fun _ => rfl,?_,?_,coherent.send⟩
  · simp [showConnected,plainTitle,text]
  · simp [showConnected,text]
  · simp [showConnected]

theorem coherentNotConnected (coherent : Coherent w) : Coherent {showNotConnected w with connectTimer := false} := by
  obtain ⟨button,fields,command,title,-,-,-,send⟩ := coherent
  refine ⟨button,fields,command,title,?_,?_,?_,send⟩
  · simp [showNotConnected,text]
  · simp [showNotConnected,text]
  · simp [showNotConnected]

theorem coherentDisconnected (w : Widgets) : Coherent (showDisconnected w) := by
  constructor <;> simp [showDisconnected,text]

theorem coherentEnded (coherent : Coherent w) (running : w.messageTimer = true) :
    Coherent {w with txtCommandEnabled := true,btnSendEnabled := false} := by
  obtain ⟨button,fields,-,title,connected,connecting,clickable,-⟩ := coherent
  exact ⟨button,fields,running.symm,title,connected,connecting,clickable,fun enabled => by cases enabled⟩

end

def FrmMain.Call.connects : FrmMain.Call → Bool
  | .connecting _ _ => true
  | _ => false

def FrmMain.Call.connected : FrmMain.Call → Bool
  | .connecting .create _ | .connecting .result _ => true
  | _ => false

def FrmMain.Call.disconnected : FrmMain.Call → Bool
  | .disconnecting .clearTransmission | .disconnecting .shutdown | .disconnecting .close => true
  | _ => false

def FrmMain.Call.checks : FrmMain.Call → Bool
  | .form .length | .form .take | .form (.decrypt _) => true
  | _ => false

structure Agrees (s : Form) : Prop where
  coherent : Coherent s.widgets
  live : s.client.tcpConn.conn.isConnected = true → s.client.tcpConn.currentSocket ≠ 0 →
    s.client.call.connected = true ∨ s.widgets.messageTimer = true ∧ s.widgets.lblStatus = text "Connected!" ∧
      s.widgets.btnConnectEnabled = true
  connecting : s.client.call.connects = true → s.widgets.connectTimer = true
  pending : s.widgets.connectTimer = true → s.client.tcpConn.conn.isConnected = true → s.client.call.connected = true
  leaving : s.client.call.disconnected = true → s.client.tcpConn.conn.isConnected = false
  checking : s.client.call.checks = true → s.widgets.messageTimer = true

section
open FrmMain
variable {qt : Qt} {s : Form} {client : Client} {w : Widgets} {r : ClientResult} {call : ClientCall}

theorem agreesFaithful (agrees : Agrees s) (idle : s.idle = true) : Faithful s := by
  have waits : s.client.call.connected = false := by
    unfold Form.idle FrmMain.Call.idle at idle
    split at idle <;> simp_all [FrmMain.Call.connected]
  refine ⟨agrees.coherent,fun connected socket => ?_,fun pending => ?_⟩
  · rcases agrees.live connected socket with dialled | shown
    · cases waits.symm.trans dialled
    · exact shown
  · cases connected : s.client.tcpConn.conn.isConnected with
    | false => rfl
    | true => cases waits.symm.trans (agrees.pending pending connected)

theorem agreesCall (agrees : Agrees s) (outside : s.client.call.connects = false)
    (live : client.tcpConn.conn.isConnected = true → s.client.tcpConn.conn.isConnected = true)
    (socket : client.tcpConn.currentSocket = s.client.tcpConn.currentSocket) (stays : client.call.connects = false)
    (leaving : client.call.disconnected = true → client.tcpConn.conn.isConnected = false)
    (checking : client.call.checks = true → s.widgets.messageTimer = true) : Agrees ⟨client,s.widgets⟩ := by
  have waits : s.client.call.connected = false := by
    cases calling : s.client.call <;> simp_all [FrmMain.Call.connects,FrmMain.Call.connected]
  refine ⟨agrees.coherent,fun connected nonzero => ?_,fun connects => ?_,fun pending connected => ?_,leaving,checking⟩
  · rcases agrees.live (live connected) (socket ▸ nonzero) with dialled | shown
    · cases waits.symm.trans dialled
    · exact .inr shown
  · cases stays.symm.trans connects
  · cases waits.symm.trans (agrees.pending pending (live connected))

theorem agreesSame (agrees : Agrees s) (coherent : Coherent w) (timer : w.messageTimer = s.widgets.messageTimer)
    (status : w.lblStatus = s.widgets.lblStatus) (button : w.btnConnectEnabled = s.widgets.btnConnectEnabled)
    (pending : w.connectTimer = s.widgets.connectTimer) : Agrees ⟨s.client,w⟩ := by
  refine ⟨coherent,?_,?_,?_,agrees.leaving,?_⟩
  all_goals dsimp only
  · rw [timer,status,button]
    exact agrees.live
  · rw [pending]
    exact agrees.connecting
  · rw [pending]
    exact agrees.pending
  · rw [timer]
    exact agrees.checking

theorem agreesConnecting (agrees : Agrees s)
    (unconnected : s.client.tcpConn.conn.isConnected = false) : Agrees ⟨s.client,showConnecting s.widgets⟩ := by
  refine ⟨coherentConnecting agrees.coherent,fun connected => ?_,fun _ => rfl,fun _ connected => ?_,
    agrees.leaving,agrees.checking⟩
  · cases unconnected.symm.trans connected
  · cases unconnected.symm.trans connected

/- After `Disconnect` there is no connection, or it had descriptor 0. -/
theorem agreesDisconnected (agrees : Agrees s) (idle : client.call = .form .idle)
    (gone : client.tcpConn.conn.isConnected = true → client.tcpConn.currentSocket = 0)
    (live : client.tcpConn.conn.isConnected = true → s.client.tcpConn.conn.isConnected = true)
    (outside : s.client.call.connects = false) : Agrees ⟨client,showDisconnected s.widgets⟩ := by
  refine ⟨coherentDisconnected s.widgets,fun connected nonzero => (nonzero (gone connected)).elim,?_,
    fun pending connected => ?_,?_,?_⟩
  · simp [idle,FrmMain.Call.connects]
  · have dialled := agrees.pending pending (live connected)
    cases calling : s.client.call <;> simp_all [FrmMain.Call.connects,FrmMain.Call.connected]
  · simp [idle,FrmMain.Call.disconnected]
  · simp [idle,FrmMain.Call.checks]

theorem agreesForm {pc : FrmMain.Pc} {sent : Bool} {next : FrmMain.Pc × Connection × FrmMain.Window}
    (agrees : Agrees s) (calling : s.client.call = .form pc) (stays : pc ≠ .hangUp)
    (moved : FrmMain.step qt s.client.crypto s.client.tcpConn.conn s.client.window sent pc = some next) :
    Agrees ⟨{s.client with call := .form next.1,tcpConn.conn := next.2.1,window := next.2.2},s.widgets⟩ := by
  have checked : (FrmMain.Call.form pc).checks = true → s.widgets.messageTimer = true := calling ▸ agrees.checking
  refine agreesCall agrees (by rw [calling]; rfl) ?_ rfl rfl (fun left => by cases left) ?_
  · cases pc <;> first | exact (stays rfl).elim | (cases moved <;> exact id)
  · intro checks
    cases pc with
    | length | take => exact checked rfl
    | clear taken ended =>
      cases ended <;> cases moved <;> cases checks
    | send =>
      cases sent <;> cases moved <;> cases checks
    | hangUp => exact (stays rfl).elim
    | _ => cases moved <;> cases checks

theorem agreesDisconnecting {d : TCPClient.Disconnecting} {next : Option TCPClient.Disconnecting} {tcpConn : TCPConn}
    (agrees : Agrees s) (calling : s.client.call = .disconnecting d)
    (moved : TCPClient.disconnectStep s.client.tcpConn r d = some (call,next,tcpConn)) :
    Agrees ⟨{s.client with call := (next.map FrmMain.Call.disconnecting).getD (.form .idle),tcpConn},
      if ((next.map FrmMain.Call.disconnecting).getD (.form .idle)).idle then showDisconnected s.widgets
      else s.widgets⟩ := by
  have outside : s.client.call.connects = false := by rw [calling]; rfl
  have left : (FrmMain.Call.disconnecting d).disconnected = true → s.client.tcpConn.conn.isConnected = false :=
    calling ▸ agrees.leaving
  cases d with
  | test =>
    simp only [TCPClient.disconnectStep,Option.some.injEq,Prod.mk.injEq] at moved
    obtain ⟨-,rfl,rfl⟩ := moved
    by_cases nonzero : s.client.tcpConn.currentSocket ≠ 0
    · rw [if_pos nonzero]
      exact agreesCall agrees outside id rfl rfl (fun left => by cases left) (fun checks => by cases checks)
    · rw [if_neg nonzero]
      exact agreesDisconnected agrees rfl (fun _ => not_not.mp nonzero) id outside
  | clearConnected =>
    cases moved
    exact agreesCall agrees outside (fun connected => by cases connected) rfl rfl (fun _ => rfl)
      (fun checks => by cases checks)
  | clearTransmission =>
    cases moved
    have gone := left rfl
    exact agreesCall agrees outside id rfl rfl (fun _ => gone) (fun checks => by cases checks)
  | shutdown =>
    have gone := left rfl
    cases r <;> simp only [TCPClient.disconnectStep,reduceCtorEq] at moved <;> cases moved
    · exact agreesCall agrees outside id rfl rfl (fun _ => gone) (fun checks => by cases checks)
    · exact agreesDisconnected agrees rfl (fun connected => by cases gone.symm.trans connected) id outside
  | close =>
    have gone := left rfl
    cases moved
    exact agreesDisconnected agrees rfl (fun connected => by cases gone.symm.trans connected) id outside

theorem agreesDialling {pc : TCPClient.Connecting} {crypto : Crypto} (agrees : Agrees s)
    (running : s.widgets.connectTimer = true) (calling : client.call = .connecting pc crypto)
    (dialled : client.tcpConn.conn.isConnected = true → client.call.connected = true) : Agrees ⟨client,s.widgets⟩ := by
  refine ⟨agrees.coherent,fun connected _ => .inl (dialled connected),fun _ => running,fun _ => dialled,?_,?_⟩
  · simp [calling,FrmMain.Call.disconnected]
  · simp [calling,FrmMain.Call.checks]

theorem agreesConnects {pc pc' : TCPClient.Connecting} {crypto : Crypto} {tcpConn : TCPConn} (agrees : Agrees s)
    (calling : s.client.call = .connecting pc crypto)
    (moved : TCPClient.connectStep s.client.tcpConn r pc = some (call,pc',tcpConn))
    (then_ : client.call = .connecting pc' crypto) (conn : client.tcpConn = tcpConn) : Agrees ⟨client,s.widgets⟩ := by
  have running := agrees.connecting (by rw [calling]; rfl)
  refine agreesDialling agrees running then_ fun connected => ?_
  have before := agrees.pending running
  rw [then_]
  rw [conn] at connected
  rw [calling] at before
  cases pc with
  | clearConnected =>
    cases moved
    cases connected
  | setConnected =>
    cases moved
    rfl
  | create =>
    cases r <;> simp only [TCPClient.connectStep,reduceCtorEq] at moved <;> cases moved <;> rfl
  | lookup | socket | connect =>
    cases r <;> simp only [TCPClient.connectStep,reduceCtorEq] at moved <;> cases moved <;>
      cases before connected
  | close =>
    cases moved
    cases before connected
  | result => cases moved

theorem agreesResult {crypto crypto' : Crypto} (agrees : Agrees s) (calling : s.client.call = .connecting .result crypto) :
    Agrees ⟨{s.client with call := .form .idle,crypto := crypto'},
      widgetsAfter s.client {s.client with call := .form .idle,crypto := crypto'} s.widgets⟩ := by
  cases connected : s.client.tcpConn.conn.isConnected with
  | true =>
    simp only [widgetsAfter,calling,connected,if_true]
    refine ⟨coherentConnected agrees.coherent,fun _ _ => .inr ⟨rfl,rfl,rfl⟩,?_,fun pending => ?_,?_,?_⟩
    · exact fun connects => by cases connects
    · cases pending
    · exact fun left => by cases left
    · exact fun checks => by cases checks
  | false =>
    simp only [widgetsAfter,calling,connected,Bool.false_eq_true,if_false]
    refine ⟨coherentNotConnected agrees.coherent,fun live => ?_,?_,fun pending => ?_,?_,?_⟩
    · cases connected.symm.trans live
    · exact fun connects => by cases connects
    · cases pending
    · exact fun left => by cases left
    · exact fun checks => by cases checks

theorem agreesWindow (agrees : Agrees s) (act : windowStep qt s.client r = some (call,client)) :
    Agrees ⟨client,widgetsAfter s.client client s.widgets⟩ := by
  unfold windowStep at act
  split at act
  · rename_i calling
    cases act
    have outside : s.client.call.connects = false := by rw [calling]; rfl
    simp only [widgetsAfter,calling]
    cases connected : s.client.tcpConn.conn.isConnected with
    | true =>
      exact agreesCall agrees outside id rfl rfl (fun left => by cases left) (fun checks => by cases checks)
    | false =>
      exact agreesDisconnected agrees rfl (fun live => by cases connected.symm.trans live) id outside
  · rename_i pc stays calling
    obtain ⟨next,moved,same⟩ := Option.map_eq_some_iff.mp act
    cases same
    have after := agreesForm agrees calling stays moved
    have checks := agrees.checking
    rw [calling] at checks
    cases pc with
    | decrypt taken =>
      simp only [widgetsAfter,calling]
      split
      · exact agreesSame after (coherentEnded after.coherent (checks rfl)) rfl rfl rfl rfl
      · exact after
    | clearOutput =>
      simp only [widgetsAfter,calling]
      exact agreesSame after (coherentHistory after.coherent _) rfl rfl rfl rfl
    | hangUp => exact (stays rfl).elim
    | _ =>
      simp only [widgetsAfter,calling]
      exact after
  · rename_i calling
    cases act
    simp only [widgetsAfter,calling]
    exact agreesCall agrees (by rw [calling]; rfl) id rfl rfl (fun left => by cases left) (fun checks => by cases checks)
  · rename_i d calling
    obtain ⟨next,moved,same⟩ := Option.map_eq_some_iff.mp act
    cases same
    simp only [widgetsAfter,calling]
    exact agreesDisconnecting agrees calling moved
  · rename_i crypto calling
    cases act
    exact agreesResult agrees calling
  · rename_i pc crypto other calling
    obtain ⟨next,moved,same⟩ := Option.map_eq_some_iff.mp act
    cases same
    cases pc with
    | result => exact (other rfl).elim
    | _ =>
      simp only [widgetsAfter,calling]
      exact agreesConnects agrees calling moved rfl rfl

theorem agreesInput {i : FrmMain.Input} {pc : FrmMain.Pc} (agrees : Agrees s) (idle : s.client.call = .form .idle)
    (starts : FrmMain.start s.client.tcpConn.conn s.client.window i = some pc)
    (ticks : i = .checkMessages → s.widgets.messageTimer = true) :
    Agrees ⟨{s.client with call := .form pc},s.widgets⟩ := by
  refine agreesCall agrees (by rw [idle]; rfl) id rfl rfl (fun left => by cases left) fun checks => ?_
  cases i with
  | checkMessages => exact ticks rfl
  | sendCommand =>
    simp only [FrmMain.start] at starts
    split at starts <;> cases starts <;> cases checks
  | cancelCommand =>
    simp only [FrmMain.start] at starts
    split at starts <;> try contradiction
    split at starts <;> cases starts <;> cases checks
  | disconnect =>
    simp only [FrmMain.start] at starts
    split at starts <;> cases starts
    cases checks

theorem passesAct {l : ReconnectLabel} {t : Form} (act : s.passes qt l = some (call,t)) :
    ∃ client, t = ⟨client,s.widgets⟩ ∧ (reconnectingMachine qt).act s.client l = some (call,client) := by
  obtain ⟨⟨_,client⟩,acted,same⟩ := Option.map_eq_some_iff.mp act
  cases same
  exact ⟨client,rfl,acted⟩

theorem agreesPasses {i : FrmMain.Input} {t : Form} (agrees : Agrees s)
    (ticks : i = .checkMessages → s.widgets.messageTimer = true) (act : s.passes qt (.input i) = some (call,t)) :
    Agrees t := by
  obtain ⟨client,rfl,acted⟩ := passesAct act
  simp only [reconnectingMachine] at acted
  split at acted <;> try contradiction
  rename_i idle
  obtain ⟨pc,starts,same⟩ := Option.map_eq_some_iff.mp acted
  cases same
  exact agreesInput agrees idle starts ticks

theorem agreesReceiver {k : Nat} {t : Form} (agrees : Agrees s) (act : s.passes qt (.receiver k r) = some (call,t)) :
    Agrees t := by
  obtain ⟨client,rfl,acted⟩ := passesAct act
  simp only [reconnectingMachine,bind,Option.bind_eq_some_iff] at acted
  obtain ⟨thread,here,⟨call,pc,tcpConn⟩,moved,same⟩ := acted
  cases same
  have live := runConnected moved
  obtain ⟨-,socket,-⟩ := runSteps moved
  refine ⟨agrees.coherent,fun connected nonzero => ?_,agrees.connecting,
    fun pending connected => agrees.pending pending (live connected),fun left => ?_,agrees.checking⟩
  · exact agrees.live (live connected) (socket ▸ nonzero)
  · cases connected : tcpConn.conn.isConnected with
    | false => rfl
    | true => exact (live connected).symm.trans (agrees.leaving left)

theorem idleCall (idle : s.idle = true) : s.client.call = .form .idle := by
  unfold Form.idle FrmMain.Call.idle at idle
  split at idle <;> first | assumption | contradiction

theorem agreesStep {library : CryptoLibrary} {qt : Qt} {t : Form} {l : WidgetLabel} (agrees : Agrees s)
    (act : (widgetMachine library qt).act s l = some (call,t)) : Agrees t := by
  cases l with
  | connectClick =>
    simp only [widgetMachine] at act
    split at act <;> try contradiction
    rename_i clicked
    split at act
    · exact agreesPasses agrees (by simp) act
    · rename_i unconnected
      split at act
      · cases act
        exact agreesConnecting agrees (by simpa using unconnected)
      · cases act
        exact agrees
  | connectTimeout =>
    simp only [widgetMachine] at act
    split at act <;> try contradiction
    rename_i fired
    have unconnected := (agreesFaithful agrees fired.1).pending fired.2
    rw [if_neg (by simp [unconnected])] at act
    obtain ⟨client,rfl,acted⟩ := passesAct act
    simp only [reconnectingMachine,idleCall fired.1,unconnected,Bool.false_eq_true,if_false] at acted
    cases acted
    exact agreesDialling agrees fired.2 rfl fun connected => by cases unconnected.symm.trans connected
  | messageTimeout =>
    simp only [widgetMachine] at act
    split at act <;> try contradiction
    rename_i running
    exact agreesPasses agrees (fun _ => running) act
  | sendCommand | cancelClick => exact agreesPasses agrees (by simp) act
  | typed txtCommand =>
    simp only [widgetMachine] at act
    split at act <;> try contradiction
    cases act
    exact agreesSame agrees (coherentHistory agrees.coherent _) rfl rfl rfl rfl
  | keyDown | keyUp =>
    simp only [widgetMachine] at act
    split at act <;> try contradiction
    obtain ⟨h,-,act⟩ := Option.bind_eq_some_iff.mp act
    cases act
    exact agreesSame agrees (coherentHistory agrees.coherent _) rfl rfl rfl rfl
  | filled fields =>
    simp only [widgetMachine] at act
    split at act <;> try contradiction
    cases act
    obtain ⟨button,enabled,command,title,connected,connecting,clickable,send⟩ := agrees.coherent
    exact agreesSame agrees ⟨button,enabled,command,title,connected,connecting,clickable,send⟩ rfl rfl rfl rfl
  | window r =>
    obtain ⟨⟨_,client⟩,acted,same⟩ := Option.map_eq_some_iff.mp act
    cases same
    exact agreesWindow agrees acted
  | receiver k r => exact agreesReceiver agrees act

theorem agreesOpened (crypto : Crypto) (fields : ConnectFields) : Agrees (opened crypto fields) := by
  refine ⟨coherentDesigned fields,?_,?_,?_,?_,?_⟩ <;>
    simp [opened,launched,designed,FrmMain.Call.connects,FrmMain.Call.disconnected,FrmMain.Call.checks]

/-- Whatever the user, the network and the receive threads do: whenever the window waits, the
buttons, the fields, the title and the timers tell the same, a connection is shown as one,
and the button that connects is disabled only while a timer is going to enable it. -/
theorem widgetsFaithful {library : CryptoLibrary} {qt : Qt} {crypto : Crypto} {fields : ConnectFields} {t : Form}
    (run : Reaches (widgetMachine library qt) free (opened crypto fields) t) (idle : t.idle = true) : Faithful t :=
  agreesFaithful (invariantOfStep (fun agrees _ act => agreesStep agrees act) run (agreesOpened crypto fields)) idle

end

def firstConnection : List WidgetLabel :=
  [.filled ⟨text "127.0.0.1",text "secret",text "6001"⟩,.connectClick,.connectTimeout] ++
    ([.done,.done,.descriptor 3,.done,.done,.done,.done] : List ClientResult).map .window ++
    ([.done,.done,.done] : List ClientResult).map (.receiver 0)

theorem connectionShown : ∃ t, run (widgetMachine secretLibrary plainQt) free
      (opened secretCrypto ⟨text "127.0.0.1",[],text "6001"⟩) firstConnection = some t ∧
    t.client.tcpConn.conn.isConnected = true ∧ t.client.tcpConn.currentSocket = 3 ∧ Faithful t := by
  have ends : (run (widgetMachine secretLibrary plainQt) free (opened secretCrypto ⟨text "127.0.0.1",[],text "6001"⟩)
      firstConnection).map (fun t => (t.idle,t.client.tcpConn.conn.isConnected,t.client.tcpConn.currentSocket)) =
      some (true,true,3) := by decide +kernel
  obtain ⟨t,ran,same⟩ := Option.map_eq_some_iff.mp ends
  simp only [Prod.mk.injEq] at same
  obtain ⟨idle,connected,socket⟩ := same
  exact ⟨t,ran,connected,socket,widgetsFaithful (runReaches ran) idle⟩

end RemoteTerminal
