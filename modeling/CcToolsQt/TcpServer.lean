import CcToolsQt.Lib.Pool
import CcToolsQt.Lib.Runs
import CcToolsQt.PeerStreams
import CcToolsQt.Socket

/-! # The TCP server socket

`TcpServerSocket`: a listening server and the sockets of the connections it has accepted.  An
event is a call of the application or a signal of Qt; the signals of a socket that does not exist
do not come.  `trace` records what is reported from every connection and sent to it.

* `TcpServer.ended_iff`: disconnecting ends all traffic if and only if no connection is open. -/

namespace CcToolsQt

/-- The ports and the address of a server that does not listen, of a peer that is not there. -/
def Endpoint.null : Endpoint := ⟨[], 0⟩

/-- What a connection of the server is used for. -/
inductive TcpServer.Use where
  | reported (d : ToolsDataInfo)
  | sent (data : DataSeq)

/-- An accepted connection: its number and the peer at the other end. -/
structure TcpServer.Client where
  id : ℕ
  peer : Endpoint

/-- `TcpServerSocket`; `m_server` is the address it listens on. -/
structure TcpServer where
  base : ToolsSocket := {}
  m_server : Option Endpoint := none
  m_sockets : List TcpServer.Client := []
  /-- the number of connections accepted so far -/
  accepted : ℕ := 0
  /-- what has been done with each connection -/
  trace : List (ℕ × TcpServer.Use) := []
  /-- `Already_listening` or `Must_have_found_socket` has failed -/
  asserted : Bool := false

namespace TcpServer

def isListening (s : TcpServer) : Bool := s.m_server.isSome

/-- `serverAddress()` and `serverPort()`. -/
def serverEndpoint (s : TcpServer) : Endpoint := s.m_server.getD Endpoint.null

def AlreadyListeningError : QString :=
  "Previous run of TCP/IP Server socket wasn't terminated properly.".toList

def FailedToListenError : QString := "Failed to listen on specified TCP/IP port.".toList

/-! ### The calls of the application -/

/-- `socketConnectImpl`, with the address listened on if `listen` succeeds. -/
def socketConnectImpl (s : TcpServer) (listen : Option Endpoint) : TcpServer × Bool :=
  if s.isListening then
    ({ s with asserted := true, base := s.base.reportError AlreadyListeningError }, false)
  else
    match listen with
    | none => ({ s with base := s.base.reportError FailedToListenError }, false)
    | some address => ({ s with m_server := some address }, true)

def socketConnect (s : TcpServer) (listen : Option Endpoint) : TcpServer :=
  let (s, ok) := s.socketConnectImpl listen
  { s with base := s.base.socketConnect ok }

def socketDisconnectImpl (s : TcpServer) : TcpServer := { s with m_server := none }

def socketDisconnect (s : TcpServer) : TcpServer :=
  let s := s.socketDisconnectImpl
  { s with base := s.base.socketDisconnect }

/-- `stop`; `ToolsSocket.stop` disconnects a connected socket. -/
def stop (s : TcpServer) : TcpServer :=
  let s := if s.base.m_connected then s.socketDisconnectImpl else s
  { s with base := s.base.stop }

/-- `sendDataImpl`: every connection gets the data. -/
def sendDataImpl (s : TcpServer) (d : ToolsDataInfo) : TcpServer :=
  { s with trace := s.trace ++ s.m_sockets.map fun c => (c.id, .sent d.m_data) }

/-- What `sendDataImpl` adds to the properties of the data. -/
def sendProperties (s : TcpServer) (props : QVariantMap) : QVariantMap :=
  QVariantMap.insert Endpoint.tcpToProp (.list (s.m_sockets.map fun c => .string c.peer.text))
    (QVariantMap.insert Endpoint.tcpFromProp (.string s.serverEndpoint.text) props)

def sendData (s : TcpServer) (now : ℕ) (d : ToolsDataInfo) : TcpServer :=
  let sent := if s.base.m_connected then s.sendDataImpl (ToolsSocket.stamped now d) else s
  { sent with base := s.base.sendData now d }

/-! ### The slots -/

def newConnection (s : TcpServer) (peer : Endpoint) : TcpServer :=
  { s with
    m_sockets := s.m_sockets ++ [{ id := s.accepted, peer }]
    accepted := s.accepted + 1 }

def connectionTerminated (s : TcpServer) (i : ℕ) : TcpServer :=
  match Pool.find Client.id i s.m_sockets with
  | none => { s with asserted := true }
  | some _ => { s with m_sockets := Pool.erase Client.id i s.m_sockets }

/-- `readFromSocket`: the bytes available are reported. -/
def readFromSocket (s : TcpServer) (now : ℕ) (c : Client) (data : DataSeq) : TcpServer :=
  let d := TcpSocket.dataInfo now c.peer s.serverEndpoint data
  { s with
    trace := s.trace ++ [(c.id, .reported d)]
    base := s.base.reportDataReceived now d }

/-- `socketErrorOccurred`, for an error other than the remote closing the connection. -/
def socketErrorOccurred (s : TcpServer) (errorString : QString) : TcpServer :=
  { s with base := s.base.reportError errorString }

def acceptErrorOccurred (s : TcpServer) (errorString : QString) : TcpServer :=
  let base := s.base.reportError errorString
  { s with base := if !s.isListening then base.reportDisconnected else base }

/-! ### Runs -/

inductive Event where
  | start (startImpl : Bool)
  | stop
  | socketConnect (listen : Option Endpoint)
  | socketDisconnect
  | sendData (now : ℕ) (d : ToolsDataInfo)
  | newConnection (peer : Endpoint)
  | readyRead (i now : ℕ) (data : DataSeq)
  | disconnected (i : ℕ)
  | socketError (errorString : QString)
  | acceptError (errorString : QString)

/-- A server that does not listen accepts nothing, and a socket that is gone emits nothing. -/
def step (s : TcpServer) : Event → TcpServer
  | .start startImpl => { s with base := s.base.start startImpl }
  | .stop => s.stop
  | .socketConnect listen => s.socketConnect listen
  | .socketDisconnect => s.socketDisconnect
  | .sendData now d => s.sendData now d
  | .newConnection peer => if s.isListening then s.newConnection peer else s
  | .readyRead i now data =>
      match Pool.find Client.id i s.m_sockets with
      | some c => s.readFromSocket now c data
      | none => s
  | .disconnected i =>
      match Pool.find Client.id i s.m_sockets with
      | some _ => s.connectionTerminated i
      | none => s
  | .socketError errorString => s.socketErrorOccurred errorString
  | .acceptError errorString => s.acceptErrorOccurred errorString

def Event.connects : Event → Prop
  | .socketConnect _ => True
  | _ => False

/-- The event disconnects the socket. -/
def Disconnects (s : TcpServer) : Event → Prop
  | .socketDisconnect => True
  | .stop => s.base.m_connected = true
  | _ => False

/-! ### What one event does to the connections -/

def view (s : TcpServer) : Pool.View Use where
  live := s.m_sockets.map Client.id
  next := s.accepted
  listening := s.isListening
  trace := s.trace

theorem socketConnect_moves (s : TcpServer) (listen : Option Endpoint) :
    Pool.Moves s.view (s.socketConnect listen).view := by
  unfold socketConnect socketConnectImpl
  cases hl : s.isListening with
  | true => exact .of_eq rfl rfl rfl
  | false =>
      cases listen with
      | none => exact .of_eq rfl rfl rfl
      | some address => exact .of_eq rfl rfl rfl

theorem stop_moves (s : TcpServer) : Pool.Moves s.view s.stop.view := by
  unfold stop
  dsimp only
  split
  · exact .of_eq rfl rfl rfl
  · exact .of_eq rfl rfl rfl

theorem sendData_moves (s : TcpServer) (now : ℕ) (d : ToolsDataInfo) :
    Pool.Moves s.view (s.sendData now d).view := by
  unfold sendData
  dsimp only
  split
  · refine .of_trace rfl rfl rfl fun u hu => ?_
    obtain ⟨c, hc, rfl⟩ := List.mem_map.mp hu
    exact List.mem_map_of_mem hc
  · exact .of_eq rfl rfl rfl

theorem step_moves (s : TcpServer) (e : Event) : Pool.Moves s.view (s.step e).view := by
  cases e with
  | stop => exact s.stop_moves
  | socketConnect listen => exact s.socketConnect_moves listen
  | sendData now d => exact s.sendData_moves now d
  | newConnection peer =>
      simp only [step]
      split
      · exact .of_accept ‹_› List.map_append rfl rfl
      · exact .of_eq rfl rfl rfl
  | readyRead j now data =>
      simp only [step]
      cases hf : Pool.find Client.id j s.m_sockets with
      | none => exact .of_eq rfl rfl rfl
      | some c =>
          refine .of_trace rfl rfl rfl fun u hu => ?_
          obtain rfl := List.mem_singleton.mp hu
          exact List.mem_map_of_mem (Pool.find_mem hf).1
  | disconnected j =>
      simp only [step, connectionTerminated]
      cases Pool.find Client.id j s.m_sockets with
      | none => exact .of_eq rfl rfl rfl
      | some c => exact .of_subset Pool.map_erase_sublist.subset rfl rfl
  | _ => exact .of_eq rfl rfl rfl

/-- Only `socketConnect` makes the server listen. -/
theorem step_closed {s : TcpServer} (hc : s.isListening = false) {e : Event} (he : ¬ e.connects) :
    (s.step e).isListening = false := by
  cases e with
  | stop =>
      simp only [step, stop]
      split
      · rfl
      · exact hc
  | socketConnect listen => exact absurd trivial he
  | socketDisconnect => rfl
  | sendData now d =>
      simp only [step, sendData]
      split
      · exact hc
      · exact hc
  | newConnection peer =>
      simp only [step, hc]
      exact hc
  | readyRead j now data =>
      simp only [step]
      split
      · exact hc
      · exact hc
  | disconnected j =>
      simp only [step, connectionTerminated]
      cases Pool.find Client.id j s.m_sockets with
      | none => exact hc
      | some c => exact hc
  | _ => exact hc

/-- The connections of the server. -/
def pool : Pool step Use where
  view := view
  opens := Event.connects
  moves := step_moves
  closed_step hc he := step_closed hc he
  usable {s i} hi := by
    obtain ⟨c, hf⟩ := Pool.exists_find hi
    obtain ⟨-, rfl⟩ := Pool.find_mem hf
    -- the client sends a byte
    refine ⟨[.readyRead c.id 0 [0]], fun e he => ?_, fun h => ?_⟩
    · obtain rfl := List.mem_singleton.mp he
      exact id
    · have hlen := congrArg List.length h
      simp [step, hf, readFromSocket, view, Pool.View.uses, Mux.own] at hlen

/-- All traffic has ended: the connections accepted so far are not used any more, and none is used
until the next `socketConnect`. -/
def Ended (s : TcpServer) : Prop := pool.Ended s

theorem Disconnects.closed {s : TcpServer} {e : Event} (h : s.Disconnects e) :
    (s.step e).isListening = false ∧ (s.step e).m_sockets = s.m_sockets := by
  cases e with
  | socketDisconnect => exact ⟨rfl, rfl⟩
  | stop =>
      have hc : s.base.m_connected = true := h
      simp only [step, stop, hc]
      exact ⟨rfl, rfl⟩
  | _ => exact absurd h id

/-- Disconnecting **ends the traffic** if and only if no connection is open. -/
theorem ended_iff {s : TcpServer} {e : Event} (h : s.Disconnects e) :
    (s.step e).Ended ↔ s.m_sockets = [] := by
  obtain ⟨hclosed, hsame⟩ := h.closed
  have hiff : (s.step e).Ended ↔ (s.step e).m_sockets.map Client.id = [] :=
    Pool.ended_iff (P := pool) hclosed
  rw [hiff, hsame, List.map_eq_nil_iff]

end TcpServer

end CcToolsQt
