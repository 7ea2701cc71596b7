import CcToolsQt.Lib.Runs
import CcToolsQt.PluginConfig
import CcToolsQt.TcpServer

/-! # The TCP client socket

`TcpClientSocket`: one `QTcpSocket` and the settings of the server it connects to.  An event is a
call of the application or a signal of Qt.  `waitForConnected` blocks, so between two events the
socket is either in `ConnectedState` or not.

* `connected_iff`: the flag of the base class tells the state of the `QTcpSocket` throughout a run
  if and only if the socket is never connected twice. -/

namespace CcToolsQt

/-- `TcpClientSocket`; `m_socket` has the local and the peer address while it is connected. -/
structure TcpClient where
  base : ToolsSocket := {}
  settings : TcpClientSocket := {}
  m_socket : Option (Endpoint × Endpoint) := none
  /-- what has been written to the connected socket -/
  written : List DataSeq := []
  /-- `Already_connected` has failed -/
  asserted : Bool := false

namespace TcpClient

def AlreadyConnectedError : QString :=
  "TCP/IP Client is already connected or trying to connect.".toList

def PortError : QString := "TCP/IP Client port is not configured.".toList

/-- `QHostAddress::LocalHost`. -/
def LocalHost : QString := "127.0.0.1".toList

/-! ### The calls of the application -/

/-- `connectToHost` asks for the local host if none is set. -/
def withHost (s : TcpClient) : TcpClient :=
  if s.settings.m_host.isEmpty then { s with settings := { s.settings with m_host := LocalHost } }
  else s

/-- `socketConnectImpl`, with the two addresses if `waitForConnected` succeeds. -/
def socketConnectImpl (s : TcpClient) (connected : Option (Endpoint × Endpoint)) :
    TcpClient × Bool :=
  if s.m_socket.isSome then
    ({ s with asserted := true, base := s.base.reportError AlreadyConnectedError }, false)
  else if s.settings.m_port = 0 then ({ s with base := s.base.reportError PortError }, false)
  else
    match connected with
    | none => (s.withHost, false)
    | some ends => ({ s.withHost with m_socket := some ends }, true)

def socketConnect (s : TcpClient) (connected : Option (Endpoint × Endpoint)) : TcpClient :=
  let (s, ok) := s.socketConnectImpl connected
  { s with base := s.base.socketConnect ok }

/-- `socketDisconnectImpl`; the signals of the socket are blocked. -/
def socketDisconnectImpl (s : TcpClient) : TcpClient := { s with m_socket := none }

def socketDisconnect (s : TcpClient) : TcpClient :=
  let s := s.socketDisconnectImpl
  { s with base := s.base.socketDisconnect }

/-- `stop`; `ToolsSocket.stop` disconnects a connected socket. -/
def stop (s : TcpClient) : TcpClient :=
  let s := if s.base.m_connected then s.socketDisconnectImpl else s
  { s with base := s.base.stop }

/-- `sendDataImpl`; a socket that is not connected takes nothing. -/
def sendDataImpl (s : TcpClient) (d : ToolsDataInfo) : TcpClient :=
  if s.m_socket.isSome then { s with written := s.written ++ [d.m_data] } else s

def sendData (s : TcpClient) (now : ℕ) (d : ToolsDataInfo) : TcpClient :=
  let sent := if s.base.m_connected then s.sendDataImpl (ToolsSocket.stamped now d) else s
  { sent with base := s.base.sendData now d }

/-! ### The slots -/

def socketDisconnected (s : TcpClient) : TcpClient :=
  { s with m_socket := none, base := s.base.reportDisconnected }

/-- `readFromSocket`: the bytes available are reported. -/
def readFromSocket (s : TcpClient) (now : ℕ) (ends : Endpoint × Endpoint) (data : DataSeq) :
    TcpClient :=
  { s with base := s.base.reportDataReceived now (TcpSocket.dataInfo now ends.2 ends.1 data) }

/-- `socketErrorOccurred`; `lost` says that the error has taken the socket out of
`ConnectedState`. -/
def socketErrorOccurred (s : TcpClient) (errorString : QString) (lost : Bool) : TcpClient :=
  let s := if lost then { s with m_socket := none } else s
  let base := s.base.reportError errorString
  { s with base := if s.m_socket.isNone then base.reportDisconnected else base }

/-! ### Runs -/

inductive Event where
  | start (startImpl : Bool)
  | stop
  | socketConnect (connected : Option (Endpoint × Endpoint))
  | socketDisconnect
  | sendData (now : ℕ) (d : ToolsDataInfo)
  | readyRead (now : ℕ) (data : DataSeq)
  | disconnected
  | socketError (errorString : QString) (lost : Bool)

/-- Nothing can be read from a socket that is not connected. -/
def step (s : TcpClient) : Event → TcpClient
  | .start startImpl => { s with base := s.base.start startImpl }
  | .stop => s.stop
  | .socketConnect connected => s.socketConnect connected
  | .socketDisconnect => s.socketDisconnect
  | .sendData now d => s.sendData now d
  | .readyRead now data =>
      match s.m_socket with
      | some ends => s.readFromSocket now ends data
      | none => s
  | .disconnected => s.socketDisconnected
  | .socketError errorString lost => s.socketErrorOccurred errorString lost

/-! ### The flag of the base class -/

/-- `m_connected` tells the state of the socket. -/
def Consistent (s : TcpClient) : Prop := s.base.m_connected = s.m_socket.isSome

/-- The socket is not connected while it is connected. -/
def ConnectsOnce (s : TcpClient) : Event → Prop
  | .socketConnect _ => s.base.m_connected = false
  | _ => True

theorem consistent_new : Consistent {} := rfl

@[simp] theorem withHost_m_socket (s : TcpClient) : s.withHost.m_socket = s.m_socket := by
  unfold withHost
  split <;> rfl

theorem socketConnect_consistent_iff {s : TcpClient} (h : s.Consistent)
    (connected : Option (Endpoint × Endpoint)) :
    (s.socketConnect connected).Consistent ↔ s.base.m_connected = false := by
  unfold Consistent at h ⊢
  rw [h]
  unfold socketConnect socketConnectImpl
  by_cases hs : s.m_socket.isSome = true
  · simp [hs, ToolsSocket.socketConnect, ToolsSocket.emit]
  · have hnone : s.m_socket.isSome = false := by simpa using hs
    rw [if_neg hs]
    by_cases hp : s.settings.m_port = 0
    · simp [hp, hnone, ToolsSocket.socketConnect, ToolsSocket.emit]
    · rw [if_neg hp]
      cases connected with
      | none => simp [hnone, ToolsSocket.socketConnect, ToolsSocket.emit]
      | some ends => simp [hnone, ToolsSocket.socketConnect, ToolsSocket.emit]

theorem stop_consistent {s : TcpClient} (h : s.Consistent) : s.stop.Consistent := by
  unfold Consistent at h ⊢
  unfold stop
  cases hc : s.base.m_connected with
  | true => simp [ToolsSocket.stop, hc, socketDisconnectImpl, ToolsSocket.reportDisconnected,
      ToolsSocket.emit]
  | false => simp [ToolsSocket.stop, hc, ← h]

theorem sendData_consistent {s : TcpClient} (h : s.Consistent) (now : ℕ) (d : ToolsDataInfo) :
    (s.sendData now d).Consistent := by
  unfold Consistent at h ⊢
  unfold sendData sendDataImpl ToolsSocket.sendData
  dsimp only
  split_ifs <;> exact h

theorem reportError_connected (b : ToolsSocket) (msg : QString) :
    (b.reportError msg).m_connected = b.m_connected := by
  unfold ToolsSocket.reportError
  split <;> rfl

theorem reportDataReceived_connected (b : ToolsSocket) (now : ℕ) (d : ToolsDataInfo) :
    (b.reportDataReceived now d).m_connected = b.m_connected := by
  unfold ToolsSocket.reportDataReceived
  split <;> rfl

theorem socketErrorOccurred_consistent {s : TcpClient} (h : s.Consistent) (errorString : QString)
    (lost : Bool) : (s.socketErrorOccurred errorString lost).Consistent := by
  cases lost with
  | true => rfl
  | false =>
      unfold Consistent at h ⊢
      unfold socketErrorOccurred
      cases hs : s.m_socket with
      | none => simp [hs, ToolsSocket.reportDisconnected, ToolsSocket.emit]
      | some ends => simpa [hs, reportError_connected] using h

/-- One event: connecting twice is all that can go wrong. -/
theorem step_consistent_iff {s : TcpClient} (h : s.Consistent) (e : Event) :
    (s.step e).Consistent ↔ s.ConnectsOnce e := by
  cases e with
  | socketConnect connected => exact socketConnect_consistent_iff h connected
  | start startImpl => exact iff_of_true h trivial
  | stop => exact iff_of_true (stop_consistent h) trivial
  | socketDisconnect => exact iff_of_true rfl trivial
  | sendData now d => exact iff_of_true (sendData_consistent h now d) trivial
  | readyRead now data =>
      refine iff_of_true ?_ trivial
      unfold step
      cases hs : s.m_socket with
      | none => exact h
      | some ends => exact (reportDataReceived_connected _ _ _).trans h
  | disconnected => exact iff_of_true rfl trivial
  | socketError errorString lost =>
      exact iff_of_true (socketErrorOccurred_consistent h errorString lost) trivial

/-- The flag of the base class **tells the state of the socket** in every state of a run if and only
if the socket is connected only while it is not. -/
theorem connected_iff (evs : List Event) :
    Runs.Always step {} evs Consistent ↔ Runs.Along step {} evs ConnectsOnce :=
  Runs.always_iff_along_of_inv (I := fun _ => True) (fun _ _ _ => trivial)
    (fun _ e _ h => step_consistent_iff h e) trivial consistent_new

end TcpClient

end CcToolsQt
