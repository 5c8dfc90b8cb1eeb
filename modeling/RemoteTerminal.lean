import RemoteTerminal.Library.Runs
import RemoteTerminal.Library.Behaviours
import RemoteTerminal.PacketArray
import RemoteTerminal.Server.Wire
import RemoteTerminal.Server.SlotMachine
import RemoteTerminal.Server.Lock
import RemoteTerminal.Server.Commands
import RemoteTerminal.Server.Relay
import RemoteTerminal.Server.Stopping
import RemoteTerminal.Server.Mailbox
import RemoteTerminal.Server.Transmission
import RemoteTerminal.Server.Machine
import RemoteTerminal.Server.Cancel
import RemoteTerminal.Server.Handoff
import RemoteTerminal.Server.Isolation
import RemoteTerminal.Server.Descriptors
import RemoteTerminal.Server.Directories
import RemoteTerminal.Server.Processes
import RemoteTerminal.Client.Output
import RemoteTerminal.Client.Framing
import RemoteTerminal.Client.Segmentation
import RemoteTerminal.Client.Connections
import RemoteTerminal.Client.SettingsFiles
import RemoteTerminal.Client.ProfileForm
import RemoteTerminal.Client.InvalidKey
import RemoteTerminal.Client.DefaultProfile
import RemoteTerminal.Client.Saving
import RemoteTerminal.Server.Launching
import RemoteTerminal.Server.Limit
import RemoteTerminal.Server.Sockets
import RemoteTerminal.Client.Sockets
import RemoteTerminal.Client.CancelButton
import RemoteTerminal.Client.SelectedProfile
import RemoteTerminal.Client.Selection
import RemoteTerminal.Client.History
import RemoteTerminal.Client.EndCode
import RemoteTerminal.Library.CNumber
import RemoteTerminal.Server.Port
import RemoteTerminal.Client.ProfileElements
import RemoteTerminal.Server.Ledger
import RemoteTerminal.Server.Authorship
import RemoteTerminal.Server.Responses
import RemoteTerminal.Dialogue
import RemoteTerminal.Conversation
import RemoteTerminal.Shown
import RemoteTerminal.Library.FileTable
import RemoteTerminal.Server.Child
import RemoteTerminal.Library.Erasure
import RemoteTerminal.Server.ProcessCheck
import RemoteTerminal.Server.Eavesdropper
import RemoteTerminal.Client.Widgets
import RemoteTerminal.Client.LostConnection
import RemoteTerminal.Server.Settling
import RemoteTerminal.Waiting
import RemoteTerminal.Client.LostEnd
