import CcToolsQt.TcpServer

/-! # The TCP proxy socket

`TcpProxySocket`: every accepted client gets a connection of its own to the remote, and what one
end sends is written to the other and reported.  The bytes of a client are read from the moment its
connection to the remote is established.  Qt emits `readyRead` for the bytes that have arrived
before it emits `disconnected`, and nothing for a socket that is gone.

* `TcpProxy.step_moves`: which connections an event uses.
* `disconnect_ends_traffic_iff`: disconnecting the server socket or the proxy socket ends all
  traffic if and only if no connection is open. -/

namespace CcToolsQt

namespace TcpProxy

/-- The two sockets of a pair. -/
inductive Side where
  | client
  | remote
deriving DecidableEq

def Side.other : Side → Side
  | client => remote
  | remote => client

/-- `QTcpSocket`: the peer it is for, whether it is in `ConnectedState`, the bytes not yet read. -/
structure QTcpSocket where
  endpoint : Endpoint
  connected : Bool
  unread : DataSeq := []

/-- `peerAddress()` and `peerPort()`. -/
def QTcpSocket.peer (socket : QTcpSocket) : Endpoint :=
  if socket.connected then socket.endpoint else Endpoint.null

/-- `ConnectedPair`, with the number of the connection; `readyRead` says whether that signal of the
client is connected to `readFromClientSocket`. -/
structure ConnectedPair where
  id : ℕ
  first : QTcpSocket
  second : QTcpSocket
  readyRead : Bool := false

/-- All bytes are read. -/
def QTcpSocket.drained (socket : QTcpSocket) : QTcpSocket := { socket with unread := [] }

/-- More bytes can be read. -/
def QTcpSocket.filled (data : DataSeq) (socket : QTcpSocket) : QTcpSocket :=
  { socket with unread := socket.unread ++ data }

/-- The connection is established. -/
def QTcpSocket.established (socket : QTcpSocket) : QTcpSocket := { socket with connected := true }

namespace ConnectedPair

def socket (pair : ConnectedPair) : Side → QTcpSocket
  | .client => pair.first
  | .remote => pair.second

/-- One of the two sockets is changed. -/
def mapSocket (f : QTcpSocket → QTcpSocket) (side : Side) (pair : ConnectedPair) : ConnectedPair :=
  match side with
  | .client => { pair with first := f pair.first }
  | .remote => { pair with second := f pair.second }

/-- `readyRead` of the client is connected. -/
def ready (pair : ConnectedPair) : ConnectedPair := { pair with readyRead := true }

end ConnectedPair

/-- What a connection of the proxy is used for. -/
inductive Use where
  /-- `performReadWrite` writes the bytes of one socket to the other -/
  | forwarded (writeTo : Side) (data : DataSeq)
  | reported (readFrom : Side) (d : ToolsDataInfo)
  | sent (writeTo : Side) (data : DataSeq)

end TcpProxy

open TcpProxy in
/-- `TcpProxySocket`; `m_server` is the address the server listens on. -/
structure TcpProxy where
  base : ToolsSocket := {}
  m_port : ℕ := 20000
  m_remoteHost : QString := []
  m_remotePort : ℕ := 20000
  m_server : Option Endpoint := none
  m_sockets : List ConnectedPair := []
  /-- the number of connections accepted so far -/
  accepted : ℕ := 0
  /-- the bytes that have arrived at each socket -/
  arrived : List ((ℕ × Side) × DataSeq) := []
  /-- what has been done with each connection -/
  trace : List (ℕ × Use) := []
  /-- `Already_listening` has failed -/
  alreadyListening : Bool := false
  /-- an assertion of a slot has failed -/
  asserted : Bool := false

namespace TcpProxy

def isListening (s : TcpProxy) : Bool := s.m_server.isSome

/-- `serverAddress()` and `serverPort()`. -/
def serverEndpoint (s : TcpProxy) : Endpoint := s.m_server.getD Endpoint.null

def PortsErrorError : QString :=
  "Cannot have the same port for local and remote endpoints.".toList

def localhost : QString := "localhost".toList

def localAddress : QString := "127.0.0.1".toList

/-- The pair of a connection. -/
def pair (s : TcpProxy) (i : ℕ) : Option ConnectedPair :=
  Pool.find ConnectedPair.id i s.m_sockets

/-- The pair of a connection is changed. -/
def mapPair (s : TcpProxy) (i : ℕ) (f : ConnectedPair → ConnectedPair) : TcpProxy :=
  { s with m_sockets := Pool.modify ConnectedPair.id i f s.m_sockets }

/-! ### The calls of the application -/

/-- The two ports are the same on this host. -/
def samePorts (s : TcpProxy) : Bool :=
  s.m_port == s.m_remotePort &&
    (s.m_remoteHost.isEmpty || s.m_remoteHost == localhost || s.m_remoteHost == localAddress)

/-- `socketConnectImpl`, with the address listened on if `listen` succeeds. -/
def socketConnectImpl (s : TcpProxy) (listen : Option Endpoint) : TcpProxy × Bool :=
  if s.isListening then
    ({ s with
        alreadyListening := true
        base := s.base.reportError TcpServer.AlreadyListeningError }, false)
  else if s.samePorts then ({ s with base := s.base.reportError PortsErrorError }, false)
  else
    match listen with
    | none => ({ s with base := s.base.reportError TcpServer.FailedToListenError }, false)
    | some address => ({ s with m_server := some address }, true)

def socketConnect (s : TcpProxy) (listen : Option Endpoint) : TcpProxy :=
  let (s, ok) := s.socketConnectImpl listen
  { s with base := s.base.socketConnect ok }

def socketDisconnectImpl (s : TcpProxy) : TcpProxy := { s with m_server := none }

def socketDisconnect (s : TcpProxy) : TcpProxy :=
  let s := s.socketDisconnectImpl
  { s with base := s.base.socketDisconnect }

/-- `stop`; `ToolsSocket.stop` disconnects a connected socket. -/
def stop (s : TcpProxy) : TcpProxy :=
  let s := if s.base.m_connected then s.socketDisconnectImpl else s
  { s with base := s.base.stop }

/-- `sendDataImpl`: both sockets of every pair get the data. -/
def sendDataImpl (s : TcpProxy) (d : ToolsDataInfo) : TcpProxy :=
  { s with
    trace := s.trace ++ s.m_sockets.flatMap fun pair =>
      [(pair.id, .sent .client d.m_data), (pair.id, .sent .remote d.m_data)] }

/-- What `sendDataImpl` adds to the properties of the data. -/
def sendProperties (s : TcpProxy) (props : QVariantMap) : QVariantMap :=
  let toList := s.m_sockets.flatMap fun pair => [pair.first.peer, pair.second.peer]
  QVariantMap.insert Endpoint.tcpToProp (.list (toList.map fun peer => .string peer.text))
    (QVariantMap.insert Endpoint.tcpFromProp (.string s.serverEndpoint.text) props)

def sendData (s : TcpProxy) (now : ℕ) (d : ToolsDataInfo) : TcpProxy :=
  let sent := if s.base.m_connected then s.sendDataImpl (ToolsSocket.stamped now d) else s
  { sent with base := s.base.sendData now d }

/-! ### The slots -/

/-- `performReadWrite`: all bytes available are read, written to the other socket and reported. -/
def performReadWrite (s : TcpProxy) (now : ℕ) (pair : ConnectedPair) (readFrom : Side) :
    TcpProxy :=
  let data := (pair.socket readFrom).unread
  if data.isEmpty then s
  else
    let socket := pair.socket readFrom
    let d := TcpSocket.dataInfo now socket.peer (pair.socket readFrom.other).peer data
    { s.mapPair pair.id (ConnectedPair.mapSocket QTcpSocket.drained readFrom) with
      trace := s.trace ++
        [(pair.id, .forwarded readFrom.other data), (pair.id, .reported readFrom d)]
      base := s.base.reportDataReceived now d }

/-- `newConnection`: the connection to the remote is started. -/
def newConnection (s : TcpProxy) (client remote : Endpoint) : TcpProxy :=
  { s with
    m_remoteHost := if s.m_remoteHost.isEmpty then localAddress else s.m_remoteHost
    m_sockets := s.m_sockets ++
      [{ id := s.accepted
         first := { endpoint := client, connected := true }
         second := { endpoint := remote, connected := false } }]
    accepted := s.accepted + 1 }

/-- `clientConnectionTerminated`: the connection to the remote goes with its client. -/
def clientConnectionTerminated (s : TcpProxy) (i : ℕ) : TcpProxy :=
  match s.pair i with
  | none => s
  | some _ => { s with m_sockets := Pool.erase ConnectedPair.id i s.m_sockets }

/-- `readFromClientSocket` and `readFromConnectionSocket`. -/
def readFromSocket (s : TcpProxy) (now i : ℕ) (readFrom : Side) : TcpProxy :=
  match s.pair i with
  | none => { s with asserted := true }
  | some pair => s.performReadWrite now pair readFrom

def connectionSocketConnected (s : TcpProxy) (now i : ℕ) : TcpProxy :=
  match s.pair i with
  | none => { s with asserted := true }
  | some pair => (s.mapPair i ConnectedPair.ready).performReadWrite now pair .client

/-- `connectionSocketDisconnected`: the client goes with its connection to the remote. -/
def connectionSocketDisconnected (s : TcpProxy) (i : ℕ) : TcpProxy :=
  match s.pair i with
  | none => s
  | some _ => { s with m_sockets := Pool.erase ConnectedPair.id i s.m_sockets }

/-- `socketErrorOccurred`, for an error other than the remote closing the connection. -/
def socketErrorOccurred (s : TcpProxy) (errorString : QString) : TcpProxy :=
  { s with base := s.base.reportError errorString }

/-! ### Runs -/

/-- The bytes come to one of the sockets. -/
def arrive (s : TcpProxy) (i : ℕ) (side : Side) (data : DataSeq) : TcpProxy :=
  { s.mapPair i (ConnectedPair.mapSocket (QTcpSocket.filled data) side) with
    arrived := s.arrived ++ [((i, side), data)] }

inductive Event where
  | start (startImpl : Bool)
  | stop
  | socketConnect (listen : Option Endpoint)
  | socketDisconnect
  | sendData (now : ℕ) (d : ToolsDataInfo)
  | newConnection (client remote : Endpoint)
  | clientData (i now : ℕ) (data : DataSeq)
  | clientClosed (i : ℕ)
  | remoteConnected (i now : ℕ)
  | remoteData (i now : ℕ) (data : DataSeq)
  | remoteClosed (i : ℕ)
  | socketError (errorString : QString)

/-- A server that does not listen accepts nothing, and a socket that is gone emits nothing. -/
def step (s : TcpProxy) : Event → TcpProxy
  | .start startImpl => { s with base := s.base.start startImpl }
  | .stop => s.stop
  | .socketConnect listen => s.socketConnect listen
  | .socketDisconnect => s.socketDisconnect
  | .sendData now d => s.sendData now d
  | .newConnection client remote => if s.isListening then s.newConnection client remote else s
  | .clientData i now data =>
      match s.pair i with
      | some pair =>
          if pair.readyRead then (s.arrive i .client data).readFromSocket now i .client
          else s.arrive i .client data
      | none => s
  | .clientClosed i =>
      match s.pair i with
      | some _ => s.clientConnectionTerminated i
      | none => s
  | .remoteConnected i now =>
      match s.pair i with
      | some pair =>
          if pair.second.connected then s
          else
            let s := s.mapPair i (ConnectedPair.mapSocket QTcpSocket.established .remote)
            s.connectionSocketConnected now i
      | none => s
  | .remoteData i now data =>
      match s.pair i with
      | some pair =>
          if !pair.second.connected then s
          else (s.arrive i .remote data).readFromSocket now i .remote
      | none => s
  | .remoteClosed i =>
      match s.pair i with
      | some pair => if pair.second.connected then s.connectionSocketDisconnected i else s
      | none => s
  | .socketError errorString => s.socketErrorOccurred errorString

/-! ### Disconnecting -/

def Event.connects : Event → Prop
  | .socketConnect _ => True
  | _ => False

/-- The event disconnects the socket. -/
def Disconnects (s : TcpProxy) : Event → Prop
  | .socketDisconnect => True
  | .stop => s.base.m_connected = true
  | _ => False

def view (s : TcpProxy) : Pool.View Use where
  live := s.m_sockets.map ConnectedPair.id
  next := s.accepted
  listening := s.isListening
  trace := s.trace

section
variable (f : QTcpSocket → QTcpSocket) (side : Side)

@[simp] theorem mapSocket_id (pair : ConnectedPair) : (pair.mapSocket f side).id = pair.id := by
  cases side <;> rfl

theorem ready_id (pair : ConnectedPair) : pair.ready.id = pair.id := rfl

theorem socket_mapSocket (pair : ConnectedPair) (side' : Side) :
    (pair.mapSocket f side).socket side' =
      if side' = side then f (pair.socket side) else pair.socket side' := by
  cases side <;> cases side' <;> rfl

end

section
variable {s : TcpProxy} {now i : ℕ} {pair : ConnectedPair} {side : Side} {data : DataSeq}

theorem mapPair_view (s : TcpProxy) (i : ℕ) {f : ConnectedPair → ConnectedPair}
    (hf : ∀ pair, (f pair).id = pair.id) : (s.mapPair i f).view = s.view := by
  unfold view mapPair
  dsimp only
  rw [Pool.map_modify hf]
  rfl

theorem mapPair_pair (s : TcpProxy) (i : ℕ) {f : ConnectedPair → ConnectedPair}
    (hf : ∀ pair, (f pair).id = pair.id) (j : ℕ) :
    (s.mapPair i f).pair j = if j = i then (s.pair j).map f else s.pair j :=
  Pool.find_modify hf j

theorem performReadWrite_usedBy :
    Pool.View.UsedBy pair.id s.view (s.performReadWrite now pair side).view := by
  unfold performReadWrite
  dsimp only
  split
  · exact .refl _ _
  · refine ⟨[(pair.id, .forwarded side.other (pair.socket side).unread), (pair.id, .reported side
      (TcpSocket.dataInfo now (pair.socket side).peer (pair.socket side.other).peer
        (pair.socket side).unread))], ?_, by simp⟩
    have hview := s.mapPair_view pair.id (mapSocket_id QTcpSocket.drained side)
    rw [← hview]
    rfl

theorem readFromSocket_usedBy : Pool.View.UsedBy i s.view (s.readFromSocket now i side).view := by
  unfold readFromSocket
  cases hf : s.pair i with
  | none => exact .refl _ _
  | some pair =>
      obtain ⟨-, rfl⟩ := Pool.find_mem hf
      exact performReadWrite_usedBy

theorem pair_eq_none : s.pair i = none ↔ i ∉ s.m_sockets.map ConnectedPair.id :=
  Pool.find_eq_none

theorem arrive_pair (j : ℕ) :
    (s.arrive i side data).pair j =
      if j = i then (s.pair j).map (ConnectedPair.mapSocket (QTcpSocket.filled data) side)
      else s.pair j :=
  Pool.find_modify (mapSocket_id _ _) j

theorem arrive_view (s : TcpProxy) (i : ℕ) (side : Side) (data : DataSeq) :
    (s.arrive i side data).view = s.view :=
  s.mapPair_view i (mapSocket_id _ _)

theorem connectionSocketConnected_usedBy :
    Pool.View.UsedBy i s.view (s.connectionSocketConnected now i).view := by
  unfold connectionSocketConnected
  cases hf : s.pair i with
  | none => exact .refl _ _
  | some pair =>
      obtain ⟨-, rfl⟩ := Pool.find_mem hf
      rw [← s.mapPair_view pair.id ready_id]
      exact performReadWrite_usedBy

/-- An event of a connection uses that connection only. -/
theorem clientData_usedBy : Pool.View.UsedBy i s.view (s.step (.clientData i now data)).view := by
  simp only [step]
  split
  · split
    · rw [← arrive_view s i .client data]
      exact readFromSocket_usedBy
    · rw [arrive_view]
      exact .refl _ _
  · exact .refl _ _

theorem remoteData_usedBy : Pool.View.UsedBy i s.view (s.step (.remoteData i now data)).view := by
  simp only [step]
  split
  · split
    · exact .refl _ _
    · rw [← arrive_view s i .remote data]
      exact readFromSocket_usedBy
  · exact .refl _ _

theorem remoteConnected_usedBy :
    Pool.View.UsedBy i s.view (s.step (.remoteConnected i now)).view := by
  simp only [step]
  split
  · split
    · exact .refl _ _
    · rw [← s.mapPair_view i (mapSocket_id QTcpSocket.established .remote)]
      exact connectionSocketConnected_usedBy
  · exact .refl _ _

end

theorem socketConnect_moves (s : TcpProxy) (listen : Option Endpoint) :
    Pool.Moves s.view (s.socketConnect listen).view := by
  unfold socketConnect socketConnectImpl
  cases hl : s.isListening with
  | true => exact .of_eq rfl rfl rfl
  | false =>
      cases hp : s.samePorts with
      | true => exact .of_eq rfl rfl rfl
      | false =>
          cases listen with
          | none => exact .of_eq rfl rfl rfl
          | some address => exact .of_eq rfl rfl rfl

theorem stop_moves (s : TcpProxy) : Pool.Moves s.view s.stop.view := by
  unfold stop
  dsimp only
  split
  · exact .of_eq rfl rfl rfl
  · exact .of_eq rfl rfl rfl

theorem sendData_moves (s : TcpProxy) (now : ℕ) (d : ToolsDataInfo) :
    Pool.Moves s.view (s.sendData now d).view := by
  unfold sendData
  dsimp only
  split
  · refine .of_trace rfl rfl rfl fun u hu => ?_
    obtain ⟨pair, hpair, hu⟩ := List.mem_flatMap.mp hu
    have hid : u.1 = pair.id := by
      simp only [List.mem_cons, List.not_mem_nil, or_false] at hu
      rcases hu with rfl | rfl
      · rfl
      · rfl
    exact hid ▸ List.mem_map_of_mem hpair
  · exact .of_eq rfl rfl rfl

/-- The connection an event is of. -/
def Event.peer : Event → Option ℕ
  | .clientData i _ _ => some i
  | .clientClosed i => some i
  | .remoteConnected i _ => some i
  | .remoteData i _ _ => some i
  | .remoteClosed i => some i
  | _ => none

/-- An event of a connection that is gone changes nothing. -/
theorem step_gone {s : TcpProxy} {e : Event} {i : ℕ} (he : e.peer = some i)
    (hgone : s.pair i = none) : s.step e = s := by
  cases e <;> cases he <;> simp only [step, hgone]

theorem clientClosed_eq (s : TcpProxy) (i : ℕ) : s.step (.clientClosed i) =
    { s with m_sockets := Pool.erase ConnectedPair.id i s.m_sockets } := by
  cases hp : s.pair i with
  | none => rw [step_gone rfl hp, Pool.erase_of_gone (pair_eq_none.mp hp)]
  | some pair => simp only [step, clientConnectionTerminated, hp]

/-- Only a remote that was connected closes. -/
theorem remoteClosed_cases (s : TcpProxy) (i : ℕ) : s.step (.remoteClosed i) = s ∨
    ∃ pair, s.pair i = some pair ∧ pair.second.connected = true ∧ s.step (.remoteClosed i) =
      { s with m_sockets := Pool.erase ConnectedPair.id i s.m_sockets } := by
  cases hp : s.pair i with
  | none => exact .inl (step_gone rfl hp)
  | some pair =>
      cases hc : pair.second.connected with
      | false =>
          refine .inl ?_
          simp only [step, hp, hc, Bool.false_eq_true, if_false]
      | true =>
          refine .inr ⟨pair, rfl, hc, ?_⟩
          simp only [step, connectionSocketDisconnected, hp, hc, if_true]

theorem step_moves (s : TcpProxy) (e : Event) : Pool.Moves s.view (s.step e).view := by
  have hpeer : ∀ {i} {e : Event}, e.peer = some i → Pool.View.UsedBy i s.view (s.step e).view →
      Pool.Moves s.view (s.step e).view := by
    intro i e he hused
    by_cases hi : i ∈ s.view.live
    · exact .of_usedBy hi hused
    · rw [step_gone he (pair_eq_none.mpr hi)]
      exact .of_eq rfl rfl rfl
  have herase : ∀ i, Pool.Moves s.view
      { s with m_sockets := Pool.erase ConnectedPair.id i s.m_sockets }.view :=
    fun i => .of_subset Pool.map_erase_sublist.subset rfl rfl
  cases e with
  | stop => exact s.stop_moves
  | socketConnect listen => exact s.socketConnect_moves listen
  | sendData now d => exact s.sendData_moves now d
  | newConnection client remote =>
      simp only [step]
      split
      · exact .of_accept ‹_› List.map_append rfl rfl
      · exact .of_eq rfl rfl rfl
  | clientData i now data => exact hpeer rfl clientData_usedBy
  | remoteData i now data => exact hpeer rfl remoteData_usedBy
  | remoteConnected i now => exact hpeer rfl remoteConnected_usedBy
  | clientClosed i =>
      rw [clientClosed_eq]
      exact herase i
  | remoteClosed i =>
      rcases s.remoteClosed_cases i with hstep | ⟨_, _, _, hstep⟩
      · rw [hstep]
        exact .of_eq rfl rfl rfl
      · rw [hstep]
        exact herase i
  | _ => exact .of_eq rfl rfl rfl

/-- Only `socketConnect` makes the server listen. -/
theorem step_closed {s : TcpProxy} (hc : s.isListening = false) {e : Event} (he : ¬ e.connects) :
    (s.step e).isListening = false := by
  have hused : ∀ {i} {s' : TcpProxy}, Pool.View.UsedBy i s.view s'.view →
      s'.isListening = false := by
    rintro i s' ⟨new, heq, -⟩
    have hl : s'.isListening = s.isListening := congrArg Pool.View.listening heq
    exact hl.trans hc
  cases e with
  | stop =>
      simp only [step, stop]
      split
      · rfl
      · exact hc
  | socketConnect listen => exact absurd trivial he
  | socketDisconnect => rfl
  | sendData now d =>
      simp only [step, sendData]
      split
      · exact hc
      · exact hc
  | newConnection client remote =>
      simp only [step, hc]
      exact hc
  | clientData i now data => exact hused clientData_usedBy
  | remoteData i now data => exact hused remoteData_usedBy
  | remoteConnected i now => exact hused remoteConnected_usedBy
  | clientClosed i =>
      rw [clientClosed_eq]
      exact hc
  | remoteClosed i =>
      rcases s.remoteClosed_cases i with hstep | ⟨_, _, _, hstep⟩
      · rw [hstep]
        exact hc
      · rw [hstep]
        exact hc
  | _ => exact hc

section
variable {s : TcpProxy} {now i : ℕ} {pair : ConnectedPair} {side : Side} {data : DataSeq}

/-- The slot finds the bytes that have just arrived. -/
theorem readFromSocket_arrive (hf : s.pair i = some pair) :
    (s.arrive i side data).readFromSocket now i side =
      (s.arrive i side data).performReadWrite now
        (pair.mapSocket (QTcpSocket.filled data) side)
        side := by
  have hf' : (s.arrive i side data).pair i =
      some (pair.mapSocket (QTcpSocket.filled data) side) := by
    rw [arrive_pair, if_pos rfl, hf]
    rfl
  unfold readFromSocket
  rw [hf']

theorem mapSocket_of_eq {f : QTcpSocket → QTcpSocket}
    (hf : f (pair.socket side) = pair.socket side) : pair.mapSocket f side = pair := by
  cases side with
  | client => exact congrArg (fun first => { pair with first := first }) hf
  | remote => exact congrArg (fun second => { pair with second := second }) hf

theorem QTcpSocket.drained_of_nil {socket : QTcpSocket} (h : socket.unread = []) :
    socket.drained = socket := by
  rw [QTcpSocket.drained, ← h]

/-- The bytes of one socket are read, whatever else of the pair has changed. -/
theorem performReadWrite_pair (pair pair' : ConnectedPair) (hf : s.pair pair.id = some pair')
    (hu : (pair'.socket side).unread = (pair.socket side).unread) (j : ℕ) :
    (s.performReadWrite now pair side).pair j =
      if j = pair.id then some (pair'.mapSocket QTcpSocket.drained side) else s.pair j := by
  unfold performReadWrite
  dsimp only
  split
  · have hnil : (pair'.socket side).unread = [] := hu.trans (List.isEmpty_iff.mp ‹_›)
    rw [mapSocket_of_eq (QTcpSocket.drained_of_nil hnil)]
    split
    · rw [‹j = pair.id›, hf]
    · rfl
  · show (s.mapPair pair.id _).pair j = _
    rw [mapPair_pair _ _ (mapSocket_id _ _)]
    split
    · rw [‹j = pair.id›, hf]
      rfl
    · rfl

/-- The pair of a client whose connection to the remote is established. -/
def ConnectedPair.established (pair : ConnectedPair) : ConnectedPair :=
  { pair with
    first := pair.first.drained, second := pair.second.established, readyRead := true }

/-- The slot finds the pair with its connection established, and reads the client from then on. -/
theorem step_remoteConnected (now : ℕ) (hf : s.pair pair.id = some pair)
    (hc : pair.second.connected = false) :
    let pair' := pair.mapSocket QTcpSocket.established .remote
    let ready :=
      (s.mapPair pair.id (ConnectedPair.mapSocket QTcpSocket.established .remote)).mapPair
        pair.id ConnectedPair.ready
    s.step (.remoteConnected pair.id now) = ready.performReadWrite now pair' .client ∧
      ready.pair pair'.id = some pair'.ready := by
  intro pair' ready
  set up := s.mapPair pair.id (ConnectedPair.mapSocket QTcpSocket.established .remote) with hup
  have hfound : up.pair pair.id = some pair' := by
    rw [hup, mapPair_pair _ _ (mapSocket_id _ _), if_pos rfl, hf]
    rfl
  constructor
  · simp only [step, hf, hc, Bool.false_eq_true, if_false]
    show up.connectionSocketConnected now pair.id = _
    unfold connectionSocketConnected
    rw [hfound]
  · show (up.mapPair pair.id ConnectedPair.ready).pair pair.id = _
    rw [mapPair_pair _ _ ready_id, if_pos rfl, hfound]
    rfl

theorem remoteConnected_pair (hf : s.pair i = some pair) (hc : pair.second.connected = false)
    (j : ℕ) :
    (s.step (.remoteConnected i now)).pair j =
      if j = i then some pair.established else s.pair j := by
  obtain ⟨-, rfl⟩ := Pool.find_mem hf
  obtain ⟨hstep, hready⟩ := step_remoteConnected now hf hc
  rw [hstep, performReadWrite_pair _ _ hready rfl, mapPair_pair _ _ ready_id,
    mapPair_pair _ _ (mapSocket_id _ _)]
  show (if j = pair.id then some pair.established else _) = _
  split
  · rfl
  · rfl

/-- A byte of the remote is used. -/
theorem remoteData_uses_ne (hf : s.pair i = some pair)
    (hc : pair.second.connected = true) :
    (s.step (.remoteData i now [0])).view.uses i ≠ s.view.uses i := by
  obtain ⟨-, rfl⟩ := Pool.find_mem hf
  have hstep : s.step (.remoteData pair.id now [0]) =
      (s.arrive pair.id .remote [0]).readFromSocket now pair.id .remote := by
    simp only [step, hf, hc, Bool.not_true, Bool.false_eq_true, if_false]
  rw [hstep, readFromSocket_arrive hf]
  intro h
  have hlen := congrArg List.length h
  simp [performReadWrite, ConnectedPair.mapSocket, ConnectedPair.socket, view, Pool.View.uses,
    Mux.own, arrive, mapPair, QTcpSocket.filled] at hlen

end

/-- The connections of the proxy. -/
def pool : Pool step Use where
  view := view
  opens := Event.connects
  moves := step_moves
  closed_step hc he := step_closed hc he
  usable {s i} hi := by
    obtain ⟨pair, hf⟩ := Pool.exists_find hi
    cases hc : pair.second.connected with
    | true =>
        refine ⟨[.remoteData i 0 [0]], fun e he => ?_, remoteData_uses_ne hf hc⟩
        obtain rfl := List.mem_singleton.mp he
        exact id
    | false =>
        -- the connection is established first, which may pass on what the client has sent
        obtain ⟨-, rfl⟩ := Pool.find_mem hf
        have hf' : (s.step (.remoteConnected pair.id 0)).pair pair.id = some pair.established := by
          rw [remoteConnected_pair hf hc, if_pos rfl]
        by_cases hsame : (s.step (.remoteConnected pair.id 0)).view.uses pair.id =
            s.view.uses pair.id
        · refine ⟨[.remoteConnected pair.id 0, .remoteData pair.id 0 [0]], fun e he => ?_, ?_⟩
          · simp only [List.mem_cons, List.not_mem_nil, or_false] at he
            rcases he with rfl | rfl
            · exact id
            · exact id
          · rw [← hsame]
            exact remoteData_uses_ne hf' rfl
        · refine ⟨[.remoteConnected pair.id 0], fun e he => ?_, hsame⟩
          obtain rfl := List.mem_singleton.mp he
          exact id

/-- All traffic has ended: the connections accepted so far are not used any more, and none is used
until the next `socketConnect`. -/
def Ended (s : TcpProxy) : Prop := pool.Ended s

theorem Disconnects.closed {s : TcpProxy} {e : Event} (h : s.Disconnects e) :
    (s.step e).isListening = false ∧ (s.step e).m_sockets = s.m_sockets := by
  cases e with
  | socketDisconnect => exact ⟨rfl, rfl⟩
  | stop =>
      have hc : s.base.m_connected = true := h
      simp only [step, stop, hc]
      exact ⟨rfl, rfl⟩
  | _ => exact absurd h id

/-- Disconnecting **ends the traffic** if and only if no connection is open. -/
theorem ended_iff {s : TcpProxy} {e : Event} (h : s.Disconnects e) :
    (s.step e).Ended ↔ s.m_sockets = [] := by
  obtain ⟨hclosed, hsame⟩ := h.closed
  have hiff : (s.step e).Ended ↔ (s.step e).m_sockets.map ConnectedPair.id = [] :=
    Pool.ended_iff (P := pool) hclosed
  rw [hiff, hsame, List.map_eq_nil_iff]

end TcpProxy

/-! ### Runs of the two sockets -/

/-- **Disconnecting ends all traffic** if and only if no accepted connection is open: in a run of
the server socket or of the proxy socket, every disconnect ends all traffic if and only if every
disconnect finds no connection. -/
theorem disconnect_ends_traffic_iff (server : TcpServer) (serverEvents : List TcpServer.Event)
    (proxy : TcpProxy) (proxyEvents : List TcpProxy.Event) :
    (Runs.Along TcpServer.step server serverEvents
        (fun s e => s.Disconnects e → (s.step e).Ended) ↔
      Runs.Along TcpServer.step server serverEvents fun s e => s.Disconnects e → s.m_sockets = []) ∧
    (Runs.Along TcpProxy.step proxy proxyEvents (fun s e => s.Disconnects e → (s.step e).Ended) ↔
      Runs.Along TcpProxy.step proxy proxyEvents fun s e => s.Disconnects e → s.m_sockets = []) := by
  constructor
  · exact Runs.along_congr fun s e => forall_congr' TcpServer.ended_iff
  · exact Runs.along_congr fun s e => forall_congr' TcpProxy.ended_iff

/-- A client is accepted, then the socket is disconnected. -/
def acceptThenDisconnect : List TcpServer.Event :=
  [.start true, .socketConnect (some Endpoint.null), .newConnection Endpoint.null,
    .socketDisconnect]

/-- The client is read and reported after the disconnect. -/
theorem reads_after_disconnect :
    ¬ Runs.Along TcpServer.step {} acceptThenDisconnect
        (fun s e => s.Disconnects e → (s.step e).Ended) ∧
      ((acceptThenDisconnect ++ [TcpServer.Event.readyRead 0 0 [5]]).foldl TcpServer.step
        {}).trace = [(0, .reported (TcpSocket.dataInfo 0 Endpoint.null Endpoint.null [5]))] := by
  refine ⟨fun h => ?_, rfl⟩
  have hdisc : ∀ s : TcpServer, s.Disconnects .socketDisconnect := fun _ => trivial
  have hended := h (acceptThenDisconnect.take 3) .socketDisconnect [] rfl (hdisc _)
  cases (TcpServer.ended_iff (hdisc _)).mp hended

end CcToolsQt
