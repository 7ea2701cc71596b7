import CcToolsQt.Lib.Scanner
import CcToolsQt.Lib.DeltaQueue
import CcToolsQt.Lib.Stages
import CcToolsQt.Lib.Mux
import CcToolsQt.Lib.Runs
import CcToolsQt.Lib.Files
import CcToolsQt.Lib.Pool
import CcToolsQt.Lib.Json
import CcToolsQt.Lib.Signals
import CcToolsQt.Lib.Bisect
import CcToolsQt.Lib.Moves
import CcToolsQt.Lib.Mirrored
import CcToolsQt.Lib.Channel
import CcToolsQt.Qt.Text
import CcToolsQt.Qt.Variant
import CcToolsQt.Qt.SpinBox
import CcToolsQt.Message
import CcToolsQt.Frame
import CcToolsQt.FrameStream
import CcToolsQt.FrameWalk
import CcToolsQt.Protocol
import CcToolsQt.Forms
import CcToolsQt.Plugins
import CcToolsQt.SendMgr
import CcToolsQt.Clones
import CcToolsQt.MsgMgr
import CcToolsQt.MsgStore
import CcToolsQt.MsgRuns
import CcToolsQt.MsgLog
import CcToolsQt.Gui
import CcToolsQt.GuiView
import CcToolsQt.GuiRuns
import CcToolsQt.GuiStore
import CcToolsQt.GuiHolds
import CcToolsQt.SendCount
import CcToolsQt.Garbage
import CcToolsQt.Replacement
import CcToolsQt.MsgFile
import CcToolsQt.Reload
import CcToolsQt.ExtraInfo
import CcToolsQt.RecvFile
import CcToolsQt.SendFile
import CcToolsQt.FilterChain
import CcToolsQt.Socket
import CcToolsQt.Lifecycle
import CcToolsQt.PeerStreams
import CcToolsQt.TcpServer
import CcToolsQt.TcpProxy
import CcToolsQt.ProxyStreams
import CcToolsQt.UdpProxy
import CcToolsQt.TypedHex
import CcToolsQt.FormIds
import CcToolsQt.LoadRecv
import CcToolsQt.SaveFile
import CcToolsQt.PendingDisplay
import CcToolsQt.SelectOnAdd
import CcToolsQt.SendSelection
import CcToolsQt.ClickedMsg
import CcToolsQt.Window
import CcToolsQt.Selection
import CcToolsQt.Activity
import CcToolsQt.SendDelays
import CcToolsQt.Replay
import CcToolsQt.HexText
import CcToolsQt.RecvLog
import CcToolsQt.ProtocolsStack
import CcToolsQt.SendStates
import CcToolsQt.PluginWidgets
import CcToolsQt.PluginDialog
import CcToolsQt.UpdateDialog
import CcToolsQt.TypedNumber
import CcToolsQt.NetworkConfig
import CcToolsQt.FilterDialog
import CcToolsQt.RawDataField
import CcToolsQt.ShownFields
import CcToolsQt.FieldTree
import CcToolsQt.EchoSocket
import CcToolsQt.Buttons
import CcToolsQt.PluginConfig
import CcToolsQt.PluginLists
import CcToolsQt.WidgetRuns
import CcToolsQt.TcpClient
import CcToolsQt.TcpLink
import CcToolsQt.LinkRuns
import CcToolsQt.LinkOrigins
