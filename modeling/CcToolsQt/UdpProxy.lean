import CcToolsQt.Lib.Runs
import CcToolsQt.PeerStreams
import CcToolsQt.Socket

/-! # The UDP proxy socket

`UdpProxySocket`: a socket that listens on a local port and is connected to the first peer that
sends a datagram, and a socket connected to the remote.  A connected socket emits `disconnected`
when it is destroyed, unless its signals are blocked, and the slot runs before the destruction
returns.

* `UdpProxy.safe_iff`: when no socket is used that is not there, and every loss of the link is
  reported once.
* `UdpProxy.sound_iff`: when, besides, a running proxy has its listening socket. -/

namespace CcToolsQt

namespace UdpProxy

/-- `QUdpSocket`: its two endpoints, whether it is in `ConnectedState`, whether its signals are
blocked. -/
structure QUdpSocket where
  localEndpoint : Endpoint
  peer : Endpoint := ⟨[], 0⟩
  connected : Bool := false
  blocked : Bool := false

/-- Destroying the socket emits `disconnected`. -/
def QUdpSocket.emitsDisconnected (socket : QUdpSocket) : Bool := socket.connected && !socket.blocked

/-- A datagram with its sender, and whether `waitForConnected` succeeds should the listening socket
be connected to that sender. -/
structure Datagram where
  now : ℕ
  sender : Endpoint
  data : DataSeq
  connects : Bool

/-- How the creation of the listening socket ends. -/
inductive Listening where
  | bound (localEndpoint : Endpoint)
  | bindFails
  | openFails

def Listening.succeeds : Listening → Bool
  | bound _ => true
  | _ => false

inductive Side where
  | listen
  | remote

end UdpProxy

open UdpProxy in
/-- `UdpProxySocket`. -/
structure UdpProxy where
  base : ToolsSocket := {}
  m_host : QString := []
  m_port : ℕ := 20000
  m_localPort : ℕ := 20001
  m_listenSocket : Option QUdpSocket := none
  m_remoteSocket : Option QUdpSocket := none
  m_running : Bool := false
  /-- what has been written to the sockets -/
  written : List (Side × DataSeq) := []
  /-- how often a socket got disconnected, and how often `reportDisconnected` was called -/
  lost : ℕ := 0
  reportedLost : ℕ := 0
  /-- a null pointer has been dereferenced or an assertion has failed -/
  failed : Bool := false

namespace UdpProxy

def udpFromProp : QString := "udp.from".toList

def udpToProp : QString := "udp.to".toList

def withFromTo (src dst : Endpoint) (props : QVariantMap) : QVariantMap :=
  QVariantMap.insert udpToProp (.string dst.text)
    (QVariantMap.insert udpFromProp (.string src.text) props)

def reportError (s : UdpProxy) (msg : QString) : UdpProxy :=
  { s with base := s.base.reportError msg }

def reportDisconnected (s : UdpProxy) : UdpProxy :=
  { s with base := s.base.reportDisconnected, reportedLost := s.reportedLost + 1 }

/-! ### The slots of the sockets that get disconnected -/

/-- `listenSocketDisconnected`; the signals of the remote socket are blocked before it is
destroyed, so that it emits nothing. -/
def listenSocketDisconnected (s : UdpProxy) : UdpProxy :=
  let s := { s.reportDisconnected with m_remoteSocket := none }
  match s.m_listenSocket with
  | none => { s with failed := true }
  | some _ => { s with m_listenSocket := none }

/-- `m_listenSocket.reset(next)`: the pointer is set before the old socket is destroyed. -/
def resetListenSocket (s : UdpProxy) (next : Option QUdpSocket) : UdpProxy :=
  let s' := { s with m_listenSocket := next }
  match s.m_listenSocket with
  | none => s'
  | some socket => if socket.emitsDisconnected then s'.listenSocketDisconnected else s'

/-- `remoteSocketDisconnected`: if there is a listening socket, the signals of the remote socket are
blocked, not those of the listening socket that is destroyed next. -/
def remoteSocketDisconnected (s : UdpProxy) : UdpProxy :=
  match s.m_remoteSocket with
  | none => { s with failed := true }
  | some socket =>
      let s := s.reportDisconnected
      let blocked := socket.blocked || s.m_listenSocket.isSome
      let s := { s with m_remoteSocket := some { socket with blocked } }
      let s := s.resetListenSocket none
      match s.m_remoteSocket with
      | none => { s with failed := true }
      | some _ => { s with m_remoteSocket := none }

/-! ### The calls of the application -/

/-- `createListenSocket`: the new socket replaces the old one, and is bound and opened. -/
def createListenSocket (s : UdpProxy) (listening : Listening) : UdpProxy × Bool :=
  let s := s.resetListenSocket (some { localEndpoint := ⟨[], 0⟩ })
  match s.m_listenSocket, listening with
  | none, _ => ({ s with failed := true }, false)
  | some _, .bindFails =>
      (s.reportError ("Failed to bind UDP socket to port ".toList ++
        QString.number10 s.m_localPort), false)
  | some _, .openFails =>
      (s.reportError ("Failed to open local UDP listening on port ".toList ++
        QString.number10 s.m_localPort), false)
  | some socket, .bound localEndpoint =>
      ({ s with m_listenSocket := some { socket with localEndpoint } }, true)

/-- Why the configuration is not complete. -/
def configError (s : UdpProxy) : Option QString :=
  if s.m_host.isEmpty then some "Remote host is not configured.".toList
  else if s.m_port = 0 then some "Remote port must be greater than 0.".toList
  else if s.m_localPort = 0 then some "Local port must be greater than 0.".toList
  else none

def socketConnectImpl (s : UdpProxy) (listening : Listening) : UdpProxy × Bool :=
  match s.configError with
  | some msg => (s.reportError msg, false)
  | none =>
      let (s, created) := s.createListenSocket listening
      if created then ({ s with m_running := true }, true) else (s.resetListenSocket none, false)

def socketConnect (s : UdpProxy) (listening : Listening) : UdpProxy :=
  let (s, ok) := s.socketConnectImpl listening
  { s with base := s.base.socketConnect ok }

/-- `socketDisconnectImpl`; the signals of both sockets are blocked first. -/
def socketDisconnectImpl (s : UdpProxy) : UdpProxy :=
  { s with m_listenSocket := none, m_remoteSocket := none, m_running := false }

def socketDisconnect (s : UdpProxy) : UdpProxy :=
  let s := s.socketDisconnectImpl
  { s with base := s.base.socketDisconnect }

/-- `stop`; `ToolsSocket.stop` disconnects a connected socket. -/
def stop (s : UdpProxy) : UdpProxy :=
  let s := if s.base.m_connected then s.socketDisconnectImpl else s
  { s with base := s.base.stop }

/-- `sendDataImpl`; `writes` says whether `write` succeeds, which it does on a connected socket
only. -/
def sendDataImpl (s : UdpProxy) (d : ToolsDataInfo) (writes : Bool) : UdpProxy :=
  if !s.m_running then s
  else
    match s.m_listenSocket with
    | none => { s with failed := true }
    | some socket =>
        if socket.connected && writes then { s with written := s.written ++ [(.listen, d.m_data)] }
        else s

/-- What `sendDataImpl` adds to the properties of data it has written. -/
def sendProperties (socket : QUdpSocket) (props : QVariantMap) : QVariantMap :=
  withFromTo socket.localEndpoint socket.peer props

def sendData (s : UdpProxy) (now : ℕ) (d : ToolsDataInfo) (writes : Bool) : UdpProxy :=
  let sent := if s.base.m_connected then s.sendDataImpl (ToolsSocket.stamped now d) writes else s
  { sent with base := s.base.sendData now d }

/-! ### Datagrams -/

/-- `createRemoteSocketIfNeeded`, with the endpoints of the socket if it gets connected. -/
def createRemoteSocketIfNeeded (s : UdpProxy) (endpoints : Option (Endpoint × Endpoint)) :
    UdpProxy :=
  if s.m_remoteSocket.isSome then s
  else
    match endpoints with
    | some (localEndpoint, peer) =>
        { s with m_remoteSocket := some { localEndpoint, peer, connected := true } }
    | none =>
        s.reportError ("Failed to connect to remote ".toList ++
          (⟨s.m_host, s.m_port⟩ : Endpoint).text)

def reportDataReceived (s : UdpProxy) (now : ℕ) (src dst : Endpoint) (data : DataSeq) : UdpProxy :=
  { s with
    base := s.base.reportDataReceived now
      { m_timestamp := now, m_data := data, m_extraProperties := withFromTo src dst [] } }

/-- The listening socket is connected to the sender, should it not be connected yet. -/
def connectListenSocket (s : UdpProxy) (datagram : Datagram) : UdpProxy :=
  match s.m_listenSocket with
  | some socket =>
      if socket.connected then s
      else if datagram.connects then
        { s with m_listenSocket := some { socket with connected := true, peer := datagram.sender } }
      else s
  | none => { s with failed := true }

/-- One round of the loop of `readFromListenSocket`. -/
def readListenDatagram (s : UdpProxy) (datagram : Datagram) : UdpProxy :=
  if !s.m_running then s
  else
    let s := s.connectListenSocket datagram
    match s.m_remoteSocket with
    | some remote =>
        let s : UdpProxy := { s with written := s.written ++ [(.remote, datagram.data)] }
        s.reportDataReceived datagram.now datagram.sender remote.peer datagram.data
    | none =>
        let dst := (s.m_listenSocket.map QUdpSocket.localEndpoint).getD ⟨[], 0⟩
        s.reportDataReceived datagram.now datagram.sender dst datagram.data

def readFromListenSocket (s : UdpProxy) (endpoints : Option (Endpoint × Endpoint))
    (datagrams : List Datagram) : UdpProxy :=
  let s := s.createRemoteSocketIfNeeded endpoints
  match s.m_listenSocket with
  | none => { s with failed := true }
  | some _ => datagrams.foldl readListenDatagram s

/-- One round of the loop of `readFromRemoteSocket`. -/
def readRemoteDatagram (s : UdpProxy) (datagram : Datagram) : UdpProxy :=
  if !s.m_running then s
  else
    match s.m_listenSocket with
    | some listen =>
        let s : UdpProxy := if listen.connected then
          { s with written := s.written ++ [(.listen, datagram.data)] } else s
        s.reportDataReceived datagram.now datagram.sender listen.peer datagram.data
    | none =>
        let dst := (s.m_remoteSocket.map QUdpSocket.localEndpoint).getD ⟨[], 0⟩
        s.reportDataReceived datagram.now datagram.sender dst datagram.data

def readFromRemoteSocket (s : UdpProxy) (datagrams : List Datagram) : UdpProxy :=
  match s.m_remoteSocket with
  | none => { s with failed := true }
  | some _ => datagrams.foldl readRemoteDatagram s

def listenSocketErrorOccurred (s : UdpProxy) (errorString : QString) : UdpProxy :=
  match s.m_listenSocket with
  | none => { s with failed := true }
  | some _ => s.reportError ("Listen socket error: ".toList ++ errorString)

def remoteSocketErrorOccurred (s : UdpProxy) (errorString : QString) : UdpProxy :=
  match s.m_remoteSocket with
  | none => { s with failed := true }
  | some _ => s.reportError ("Remote connection socket error: ".toList ++ errorString)

/-! ### Runs -/

inductive Event where
  | start (startImpl : Bool)
  | stop
  | socketConnect (listening : Listening)
  | socketDisconnect
  | sendData (now : ℕ) (d : ToolsDataInfo) (writes : Bool)
  | listenDatagrams (endpoints : Option (Endpoint × Endpoint)) (datagrams : List Datagram)
  | remoteDatagrams (datagrams : List Datagram)
  | listenDisconnected
  | remoteDisconnected
  | listenError (errorString : QString)
  | remoteError (errorString : QString)

/-- A socket that emits a signal. -/
def emitting (socket : Option QUdpSocket) : Option QUdpSocket := socket.filter (!·.blocked)

/-- A socket that is not there, or whose signals are blocked, emits nothing; `disconnected` comes
from connected sockets only. -/
def step (s : UdpProxy) : Event → UdpProxy
  | .start startImpl => { s with base := s.base.start startImpl }
  | .stop => s.stop
  | .socketConnect listening => s.socketConnect listening
  | .socketDisconnect => s.socketDisconnect
  | .sendData now d writes => s.sendData now d writes
  | .listenDatagrams endpoints datagrams =>
      match emitting s.m_listenSocket with
      | some _ => s.readFromListenSocket endpoints datagrams
      | none => s
  | .remoteDatagrams datagrams =>
      match emitting s.m_remoteSocket with
      | some _ => s.readFromRemoteSocket datagrams
      | none => s
  | .listenDisconnected =>
      match emitting s.m_listenSocket with
      | some socket =>
          if !socket.connected then s
          else
            { s with
              m_listenSocket := some { socket with connected := false }
              lost := s.lost + 1 }.listenSocketDisconnected
      | none => s
  | .remoteDisconnected =>
      match emitting s.m_remoteSocket with
      | some socket =>
          if !socket.connected then s
          else
            { s with
              m_remoteSocket := some { socket with connected := false }
              lost := s.lost + 1 }.remoteSocketDisconnected
      | none => s
  | .listenError errorString =>
      match emitting s.m_listenSocket with
      | some _ => s.listenSocketErrorOccurred errorString
      | none => s
  | .remoteError errorString =>
      match emitting s.m_remoteSocket with
      | some _ => s.remoteSocketErrorOccurred errorString
      | none => s

/-! ### What is to hold -/

/-- The proxy uses no socket it does not have, and reports every loss of the link once. -/
structure Safe (s : UdpProxy) : Prop where
  intact : s.failed = false
  reported : s.reportedLost = s.lost

/-- Besides, a running proxy has its listening socket. -/
structure Sound (s : UdpProxy) : Prop extends Safe s where
  running : s.m_running = true → s.m_listenSocket.isSome = true

/-- A socket is there and connected to a peer. -/
def Linked (socket : Option QUdpSocket) : Prop := ∃ qudp, socket = some qudp ∧ qudp.connected = true

/-- The remote does not disconnect while the listening socket is connected to a peer, and
`socketConnect` does not replace a listening socket that is. -/
def KeepsSafe (s : UdpProxy) : Event → Prop
  | .socketConnect _ => s.configError = none → ¬ Linked s.m_listenSocket
  | .remoteDisconnected => Linked s.m_remoteSocket → ¬ Linked s.m_listenSocket
  | _ => True

/-- No socket of the proxy disconnects, and a `socketConnect` that replaces a listening socket
replaces one without a peer, by one that can be bound and opened. -/
def KeepsSound (s : UdpProxy) : Event → Prop
  | .socketConnect listening => s.configError = none → s.m_listenSocket.isSome = true →
      ¬ Linked s.m_listenSocket ∧ listening.succeeds = true
  | .listenDisconnected => ¬ Linked s.m_listenSocket
  | .remoteDisconnected => ¬ Linked s.m_remoteSocket
  | _ => True

/-- A proxy with a socket runs, a connected one listens, and no signals are blocked. -/
structure Inv (s : UdpProxy) : Prop where
  listen_running : s.m_listenSocket.isSome = true → s.m_running = true
  remote_running : s.m_remoteSocket.isSome = true → s.m_running = true
  connected : s.base.m_connected = true → s.m_listenSocket.isSome = true
  listen_emits : ∀ socket, s.m_listenSocket = some socket → socket.blocked = false
  remote_emits : ∀ socket, s.m_remoteSocket = some socket → socket.blocked = false

/-! ### Steps that lose nothing -/

/-- The sockets stay, and nothing goes wrong; a remote socket comes only to a listening one. -/
structure Quiet (s s' : UdpProxy) : Prop where
  failed : s'.failed = s.failed
  lost : s'.lost = s.lost
  reportedLost : s'.reportedLost = s.reportedLost
  running : s'.m_running = s.m_running
  connected : s'.base.m_connected = s.base.m_connected
  listen : s'.m_listenSocket.isSome = s.m_listenSocket.isSome
  remote : s'.m_remoteSocket.isSome = true →
    s.m_remoteSocket.isSome = true ∨ s.m_listenSocket.isSome = true
  listen_emits : (∀ socket, s.m_listenSocket = some socket → socket.blocked = false) →
    ∀ socket, s'.m_listenSocket = some socket → socket.blocked = false
  remote_emits : (∀ socket, s.m_remoteSocket = some socket → socket.blocked = false) →
    ∀ socket, s'.m_remoteSocket = some socket → socket.blocked = false

namespace Quiet
variable {s s' s'' : UdpProxy}

theorem refl (s : UdpProxy) : Quiet s s :=
  ⟨rfl, rfl, rfl, rfl, rfl, rfl, .inl, fun h => h, fun h => h⟩

theorem trans (h : Quiet s s') (h' : Quiet s' s'') : Quiet s s'' where
  failed := h'.failed.trans h.failed
  lost := h'.lost.trans h.lost
  reportedLost := h'.reportedLost.trans h.reportedLost
  running := h'.running.trans h.running
  connected := h'.connected.trans h.connected
  listen := h'.listen.trans h.listen
  remote hr := by
    rcases h'.remote hr with hr | hl
    · exact h.remote hr
    · exact .inr (h.listen ▸ hl)
  listen_emits he := h'.listen_emits (h.listen_emits he)
  remote_emits he := h'.remote_emits (h.remote_emits he)

theorem inv (h : Quiet s s') (hi : Inv s) : Inv s' where
  listen_running hl := h.running.trans (hi.listen_running (h.listen ▸ hl))
  remote_running hr := by
    rw [h.running]
    rcases h.remote hr with hr | hl
    · exact hi.remote_running hr
    · exact hi.listen_running hl
  connected hc := by
    rw [h.listen]
    exact hi.connected (h.connected ▸ hc)
  listen_emits := h.listen_emits hi.listen_emits
  remote_emits := h.remote_emits hi.remote_emits

theorem safe (h : Quiet s s') (hs : Safe s) : Safe s' where
  intact := h.failed.trans hs.intact
  reported := by rw [h.reportedLost, h.lost, hs.reported]

theorem sound (h : Quiet s s') (hs : Sound s) : Sound s' where
  toSafe := h.safe hs.toSafe
  running hr := by
    rw [h.listen]
    exact hs.running (h.running ▸ hr)

end Quiet

section
variable {s : UdpProxy}

theorem reportError_quiet (s : UdpProxy) (msg : QString) : Quiet s (s.reportError msg) := by
  have hc : (s.base.reportError msg).m_connected = s.base.m_connected := by
    unfold ToolsSocket.reportError
    split <;> rfl
  exact ⟨rfl, rfl, rfl, rfl, hc, rfl, .inl, fun h => h, fun h => h⟩

theorem reportDataReceived_quiet (s : UdpProxy) (now : ℕ) (src dst : Endpoint) (data : DataSeq) :
    Quiet s (s.reportDataReceived now src dst data) := by
  have hc : ∀ d, (s.base.reportDataReceived now d).m_connected = s.base.m_connected := by
    intro d
    unfold ToolsSocket.reportDataReceived
    split <;> rfl
  exact ⟨rfl, rfl, rfl, rfl, hc _, rfl, .inl, fun h => h, fun h => h⟩

theorem written_quiet (s : UdpProxy) (written : List (Side × DataSeq)) :
    Quiet s { s with written } :=
  ⟨rfl, rfl, rfl, rfl, rfl, rfl, .inl, fun h => h, fun h => h⟩

theorem connectListenSocket_quiet (hl : s.m_listenSocket.isSome = true) (datagram : Datagram) :
    Quiet s (s.connectListenSocket datagram) := by
  obtain ⟨socket, hsocket⟩ := Option.isSome_iff_exists.mp hl
  unfold connectListenSocket
  rw [hsocket]
  dsimp only
  split
  · exact .refl s
  · split
    · refine ⟨rfl, rfl, rfl, rfl, rfl, hl.symm, .inl, fun he socket' hs' => ?_, fun h => h⟩
      obtain rfl := Option.some.inj hs'
      exact he socket hsocket
    · exact .refl s

theorem readListenDatagram_quiet (hl : s.m_listenSocket.isSome = true) (datagram : Datagram) :
    Quiet s (s.readListenDatagram datagram) := by
  unfold readListenDatagram
  dsimp only
  split
  · exact .refl s
  · refine (connectListenSocket_quiet hl datagram).trans ?_
    split
    · exact (written_quiet _ _).trans (reportDataReceived_quiet _ _ _ _ _)
    · exact reportDataReceived_quiet _ _ _ _ _

theorem createRemoteSocketIfNeeded_quiet (hl : s.m_listenSocket.isSome = true)
    (endpoints : Option (Endpoint × Endpoint)) :
    Quiet s (s.createRemoteSocketIfNeeded endpoints) := by
  unfold createRemoteSocketIfNeeded
  split
  · exact .refl s
  · cases endpoints with
    | none => exact reportError_quiet s _
    | some ends =>
        refine ⟨rfl, rfl, rfl, rfl, rfl, rfl, fun _ => .inr hl, fun h => h, fun _ socket hs => ?_⟩
        obtain rfl := Option.some.inj hs
        rfl

theorem readFromListenSocket_quiet (hl : s.m_listenSocket.isSome = true)
    (endpoints : Option (Endpoint × Endpoint)) (datagrams : List Datagram) :
    Quiet s (s.readFromListenSocket endpoints datagrams) := by
  have hloop : ∀ (datagrams : List Datagram) (s : UdpProxy), s.m_listenSocket.isSome = true →
      Quiet s (datagrams.foldl readListenDatagram s) := by
    intro datagrams
    induction datagrams with
    | nil => exact fun s _ => .refl s
    | cons datagram datagrams ih =>
        intro s hl
        have hread := readListenDatagram_quiet hl datagram
        exact hread.trans (ih _ (hread.listen.trans hl))
  have hcreate := createRemoteSocketIfNeeded_quiet hl endpoints
  have hl' := hcreate.listen.trans hl
  obtain ⟨socket, hsocket⟩ := Option.isSome_iff_exists.mp hl'
  unfold readFromListenSocket
  dsimp only
  rw [hsocket]
  exact hcreate.trans (hloop datagrams _ hl')

theorem readRemoteDatagram_quiet (s : UdpProxy) (datagram : Datagram) :
    Quiet s (s.readRemoteDatagram datagram) := by
  unfold readRemoteDatagram
  split
  · exact .refl s
  · split
    · dsimp only
      split
      · exact (written_quiet _ _).trans (reportDataReceived_quiet _ _ _ _ _)
      · exact reportDataReceived_quiet _ _ _ _ _
    · exact reportDataReceived_quiet _ _ _ _ _

theorem readFromRemoteSocket_quiet (hr : s.m_remoteSocket.isSome = true)
    (datagrams : List Datagram) : Quiet s (s.readFromRemoteSocket datagrams) := by
  obtain ⟨socket, hsocket⟩ := Option.isSome_iff_exists.mp hr
  unfold readFromRemoteSocket
  rw [hsocket]
  clear hr hsocket
  induction datagrams generalizing s with
  | nil => exact .refl s
  | cons datagram datagrams ih => exact (readRemoteDatagram_quiet s datagram).trans ih

theorem listenSocketErrorOccurred_quiet (hl : s.m_listenSocket.isSome = true)
    (errorString : QString) : Quiet s (s.listenSocketErrorOccurred errorString) := by
  obtain ⟨socket, hsocket⟩ := Option.isSome_iff_exists.mp hl
  unfold listenSocketErrorOccurred
  rw [hsocket]
  exact reportError_quiet s _

theorem remoteSocketErrorOccurred_quiet (hr : s.m_remoteSocket.isSome = true)
    (errorString : QString) : Quiet s (s.remoteSocketErrorOccurred errorString) := by
  obtain ⟨socket, hsocket⟩ := Option.isSome_iff_exists.mp hr
  unfold remoteSocketErrorOccurred
  rw [hsocket]
  exact reportError_quiet s _

theorem isSome_of_emitting {socket : Option QUdpSocket} {qudp : QUdpSocket}
    (h : emitting socket = some qudp) : socket.isSome = true := by
  rw [(Option.filter_eq_some_iff.mp h).1]
  rfl

/-- A connected proxy has its listening socket. -/
theorem sendDataImpl_quiet (hl : s.m_listenSocket.isSome = true) (d : ToolsDataInfo)
    (writes : Bool) : Quiet s (s.sendDataImpl d writes) := by
  obtain ⟨socket, hsocket⟩ := Option.isSome_iff_exists.mp hl
  unfold sendDataImpl
  split
  · exact .refl s
  · split
    · rw [hsocket] at *
      contradiction
    · split
      · exact written_quiet s _
      · exact .refl s

theorem sendData_quiet (hi : Inv s) (now : ℕ) (d : ToolsDataInfo) (writes : Bool) :
    Quiet s (s.sendData now d writes) := by
  have hc : (s.base.sendData now d).m_connected = s.base.m_connected := by
    unfold ToolsSocket.sendData
    split <;> rfl
  have hbase : ∀ s' : UdpProxy, Quiet s s' → Quiet s { s' with base := s.base.sendData now d } :=
    fun s' h => ⟨h.failed, h.lost, h.reportedLost, h.running, hc, h.listen, h.remote,
      h.listen_emits, h.remote_emits⟩
  unfold sendData
  dsimp only
  split
  · exact hbase _ (sendDataImpl_quiet (hi.connected ‹_›) _ writes)
  · exact hbase s (.refl s)

end

/-! ### Sockets that are destroyed -/

section
variable {s : UdpProxy}

/-- Without a peer the old listening socket goes quietly. -/
theorem resetListenSocket_of_not_linked (hl : ¬ Linked s.m_listenSocket)
    (next : Option QUdpSocket) : s.resetListenSocket next = { s with m_listenSocket := next } := by
  unfold resetListenSocket
  cases hs : s.m_listenSocket with
  | none => rfl
  | some socket =>
      have hc : socket.connected = false := by
        cases hc : socket.connected with
        | false => rfl
        | true => exact absurd ⟨socket, hs, hc⟩ hl
      have hemit : socket.emitsDisconnected = false := by simp [QUdpSocket.emitsDisconnected, hc]
      dsimp only
      rw [hemit]
      rfl

/-- With a peer its slot runs, and finds what is there by then. -/
theorem resetListenSocket_of_linked
    (he : ∀ socket, s.m_listenSocket = some socket → socket.blocked = false)
    (hl : Linked s.m_listenSocket) (next : Option QUdpSocket) :
    s.resetListenSocket next = { s with m_listenSocket := next }.listenSocketDisconnected := by
  obtain ⟨socket, hs, hc⟩ := hl
  have hemit : socket.emitsDisconnected = true := by
    simp [QUdpSocket.emitsDisconnected, hc, he socket hs]
  unfold resetListenSocket
  rw [hs]
  dsimp only
  rw [hemit]
  rfl

/-! ### Connecting -/

/-- What `socketConnect` does to everything but the sockets when it fails. -/
def Unconnected (s s' : UdpProxy) : Prop :=
  ∃ base : ToolsSocket, base.m_connected = false ∧ s' = { s with base }

theorem socketConnect_unconfigured {msg : QString} (hcfg : s.configError = some msg)
    (listening : Listening) : Unconnected s (s.socketConnect listening) := by
  refine ⟨(s.reportError msg).base.socketConnect false, rfl, ?_⟩
  simp only [socketConnect, socketConnectImpl, hcfg]
  rfl

theorem socketConnect_bound (hcfg : s.configError = none) (hl : ¬ Linked s.m_listenSocket)
    (localEndpoint : Endpoint) :
    s.socketConnect (.bound localEndpoint) =
      { s with
        m_listenSocket := some { localEndpoint }
        m_running := true
        base := s.base.socketConnect true } := by
  simp only [socketConnect, socketConnectImpl, hcfg, createListenSocket,
    resetListenSocket_of_not_linked hl]
  rfl

/-- The socket that cannot be used. -/
theorem createListenSocket_failed (hl : ¬ Linked s.m_listenSocket) {listening : Listening}
    (hfail : listening.succeeds = false) : ∃ msg, s.createListenSocket listening =
      (({ s with m_listenSocket := some { localEndpoint := ⟨[], 0⟩ } } : UdpProxy).reportError msg,
        false) := by
  cases listening with
  | bound localEndpoint => cases hfail
  | bindFails =>
      simp only [createListenSocket, resetListenSocket_of_not_linked hl]
      exact ⟨_, rfl⟩
  | openFails =>
      simp only [createListenSocket, resetListenSocket_of_not_linked hl]
      exact ⟨_, rfl⟩

theorem socketConnect_failed (hcfg : s.configError = none) (hl : ¬ Linked s.m_listenSocket)
    {listening : Listening} (hfail : listening.succeeds = false) :
    Unconnected { s with m_listenSocket := none } (s.socketConnect listening) := by
  obtain ⟨msg, hcreate⟩ := createListenSocket_failed hl hfail
  set unused := ({ s with m_listenSocket := some { localEndpoint := ⟨[], 0⟩ } } :
    UdpProxy).reportError msg with hunused
  have hfresh : ¬ Linked unused.m_listenSocket := by
    rintro ⟨socket, hs, hc⟩
    obtain rfl := Option.some.inj hs
    cases hc
  refine ⟨(s.reportError msg).base.socketConnect false, rfl, ?_⟩
  simp only [socketConnect, socketConnectImpl, hcfg, hcreate, Bool.false_eq_true, if_false]
  rw [resetListenSocket_of_not_linked hfresh]
  rfl

/-- A listening socket with a peer is replaced: its slot takes the new socket away. -/
theorem socketConnect_linked (hi : Inv s) (hcfg : s.configError = none)
    (hl : Linked s.m_listenSocket) (listening : Listening) :
    Unconnected { s with
        m_listenSocket := none, m_remoteSocket := none
        reportedLost := s.reportedLost + 1, failed := true }
      (s.socketConnect listening) := by
  refine ⟨s.base.reportDisconnected.socketConnect false, rfl, ?_⟩
  simp only [socketConnect, socketConnectImpl, hcfg, createListenSocket,
    resetListenSocket_of_linked hi.listen_emits hl]
  rfl

/-! ### The disconnected sockets -/

/-- The listening socket got disconnected: both sockets go, and the loss is reported. -/
theorem listenDisconnected_linked (hi : Inv s) (hl : Linked s.m_listenSocket) :
    s.step .listenDisconnected =
      { s with
        m_listenSocket := none, m_remoteSocket := none, base := s.base.reportDisconnected
        lost := s.lost + 1, reportedLost := s.reportedLost + 1 } := by
  obtain ⟨socket, hs, hc⟩ := hl
  have hemit : emitting s.m_listenSocket = some socket := by
    simp [emitting, hs, hi.listen_emits socket hs]
  simp only [step, hemit, hc]
  rfl

theorem listenDisconnected_of_not_linked (hl : ¬ Linked s.m_listenSocket) :
    s.step .listenDisconnected = s := by
  simp only [step]
  split
  · rename_i socket hs
    have hc : socket.connected = false := by
      cases hc : socket.connected with
      | false => rfl
      | true => exact absurd ⟨socket, (Option.filter_eq_some_iff.mp hs).1, hc⟩ hl
    rw [hc]
    rfl
  · rfl

/-- The remote socket got disconnected: its slot destroys the listening socket, then lets go of what
it finds as the remote socket. -/
theorem step_remoteDisconnected (hi : Inv s) (hr : Linked s.m_remoteSocket) :
    ∃ (remote : QUdpSocket) (s₁ : UdpProxy), s₁ = { s with
      base := s.base.reportDisconnected, m_remoteSocket := some remote
      lost := s.lost + 1, reportedLost := s.reportedLost + 1 } ∧
    s.step .remoteDisconnected =
      match (s₁.resetListenSocket none).m_remoteSocket with
      | none => { s₁.resetListenSocket none with failed := true }
      | some _ => { s₁.resetListenSocket none with m_remoteSocket := none } := by
  obtain ⟨socket, hs, hc⟩ := hr
  have hemit : emitting s.m_remoteSocket = some socket := by
    simp [emitting, hs, hi.remote_emits socket hs]
  simp only [step, hemit, hc, Bool.not_true, Bool.false_eq_true, if_false, remoteSocketDisconnected]
  exact ⟨_, _, rfl, rfl⟩

theorem remoteDisconnected_alone (hi : Inv s) (hr : Linked s.m_remoteSocket)
    (hl : ¬ Linked s.m_listenSocket) :
    s.step .remoteDisconnected =
      { s with
        m_listenSocket := none, m_remoteSocket := none, base := s.base.reportDisconnected
        lost := s.lost + 1, reportedLost := s.reportedLost + 1 } := by
  obtain ⟨remote, s₁, hs₁, hstep⟩ := step_remoteDisconnected hi hr
  have hl₁ : ¬ Linked s₁.m_listenSocket := by
    rw [hs₁]
    exact hl
  rw [hstep, resetListenSocket_of_not_linked hl₁, hs₁]

/-- The slot of the listening socket runs inside the one of the remote socket. -/
theorem remoteDisconnected_linked (hi : Inv s) (hr : Linked s.m_remoteSocket)
    (hl : Linked s.m_listenSocket) :
    s.step .remoteDisconnected =
      { s with
        m_listenSocket := none, m_remoteSocket := none
        base := s.base.reportDisconnected.reportDisconnected
        lost := s.lost + 1, reportedLost := s.reportedLost + 2, failed := true } := by
  obtain ⟨remote, s₁, hs₁, hstep⟩ := step_remoteDisconnected hi hr
  have hl₁ : Linked s₁.m_listenSocket := by
    rw [hs₁]
    exact hl
  have he₁ : ∀ socket, s₁.m_listenSocket = some socket → socket.blocked = false := by
    rw [hs₁]
    exact hi.listen_emits
  rw [hstep, resetListenSocket_of_linked he₁ hl₁, hs₁]
  rfl

theorem remoteDisconnected_of_not_linked (hr : ¬ Linked s.m_remoteSocket) :
    s.step .remoteDisconnected = s := by
  simp only [step]
  split
  · rename_i socket hs
    have hc : socket.connected = false := by
      cases hc : socket.connected with
      | false => rfl
      | true => exact absurd ⟨socket, (Option.filter_eq_some_iff.mp hs).1, hc⟩ hr
    rw [hc]
    rfl
  · rfl

end

/-! ### One event -/

/-- What an event does to the three invariants. -/
structure Keeps (s s' : UdpProxy) (safe sound : Prop) : Prop where
  inv : Inv s'
  safe_iff : Safe s → (Safe s' ↔ safe)
  sound_iff : Sound s → (Sound s' ↔ sound)

section
variable {s s' : UdpProxy}

theorem Quiet.keeps (h : Quiet s s') (hi : Inv s) : Keeps s s' True True where
  inv := h.inv hi
  safe_iff hs := iff_true_intro (h.safe hs)
  sound_iff hs := iff_true_intro (h.sound hs)

theorem Inv.of_none (hl : s.m_listenSocket = none) (hr : s.m_remoteSocket = none)
    (hc : s.base.m_connected = false) : Inv s := by
  refine ⟨fun h => ?_, fun h => ?_, fun h => ?_, fun socket h => ?_, fun socket h => ?_⟩
  · rw [hl] at h
    cases h
  · rw [hr] at h
    cases h
  · rw [hc] at h
    cases h
  · rw [hl] at h
    cases h
  · rw [hr] at h
    cases h

theorem Keeps.of_failed (hi : Inv s') (hf : s'.failed = true) : Keeps s s' False False := by
  have hunsafe : ¬ Safe s' := fun h => absurd (hf.symm.trans h.intact) nofun
  exact ⟨hi, fun _ => iff_false_intro hunsafe, fun _ => iff_false_intro fun h => hunsafe h.toSafe⟩

/-- The link is lost and reported once, but `m_running` stays. -/
theorem Keeps.of_lost (hrun : s.m_running = true) {base : ToolsSocket}
    (hbase : base.m_connected = false) :
    Keeps s { s with
      m_listenSocket := none, m_remoteSocket := none, base
      lost := s.lost + 1, reportedLost := s.reportedLost + 1 } True False := by
  refine ⟨.of_none rfl rfl hbase, fun hs => iff_true_intro ⟨hs.intact, ?_⟩,
    fun _ => iff_false_intro fun h => ?_⟩
  · exact congrArg (· + 1) hs.reported
  · cases h.running hrun

/-- The sockets are closed on request. -/
theorem Keeps.of_closed {base : ToolsSocket} (hbase : base.m_connected = false) :
    Keeps s { s with m_listenSocket := none, m_remoteSocket := none, m_running := false, base }
      True True := by
  refine ⟨.of_none rfl rfl hbase, fun hs => iff_true_intro ⟨hs.intact, hs.reported⟩,
    fun hs => iff_true_intro ⟨⟨hs.intact, hs.reported⟩, nofun⟩⟩

theorem Linked.isSome {socket : Option QUdpSocket} (h : Linked socket) : socket.isSome = true := by
  obtain ⟨qudp, rfl, -⟩ := h
  rfl

theorem listenDisconnected_keeps (hi : Inv s) :
    Keeps s (s.step .listenDisconnected) True (¬ Linked s.m_listenSocket) := by
  by_cases hl : Linked s.m_listenSocket
  · rw [listenDisconnected_linked hi hl]
    simpa [hl] using Keeps.of_lost (hi.listen_running hl.isSome)
      (rfl : s.base.reportDisconnected.m_connected = false)
  · rw [listenDisconnected_of_not_linked hl]
    simpa [hl] using (Quiet.refl s).keeps hi

theorem remoteDisconnected_keeps (hi : Inv s) :
    Keeps s (s.step .remoteDisconnected) (Linked s.m_remoteSocket → ¬ Linked s.m_listenSocket)
      (¬ Linked s.m_remoteSocket) := by
  by_cases hr : Linked s.m_remoteSocket
  · by_cases hl : Linked s.m_listenSocket
    · rw [remoteDisconnected_linked hi hr hl]
      have hcrash : Keeps s { s with
          m_listenSocket := none, m_remoteSocket := none
          base := s.base.reportDisconnected.reportDisconnected
          lost := s.lost + 1, reportedLost := s.reportedLost + 2, failed := true } False False :=
        .of_failed (.of_none rfl rfl rfl) rfl
      simpa [hr, hl] using hcrash
    · rw [remoteDisconnected_alone hi hr hl]
      simpa [hr, hl] using Keeps.of_lost (hi.remote_running hr.isSome)
        (rfl : s.base.reportDisconnected.m_connected = false)
  · rw [remoteDisconnected_of_not_linked hr]
    simpa [hr] using (Quiet.refl s).keeps hi

/-- A listening socket is replaced by one that cannot be used. -/
theorem socketConnect_failed_keeps (hi : Inv s)
    (hs' : Unconnected { s with m_listenSocket := none } s') :
    Keeps s s' True (¬ s.m_listenSocket.isSome = true) := by
  obtain ⟨base, hbase, rfl⟩ := hs'
  refine ⟨⟨nofun, hi.remote_running, fun h => absurd (hbase.symm.trans h) nofun, nofun,
    hi.remote_emits⟩, fun hs => iff_true_intro ⟨hs.intact, hs.reported⟩, fun hs => ?_⟩
  constructor
  · intro h hl
    cases h.running (hi.listen_running hl)
  · intro hl
    exact ⟨⟨hs.intact, hs.reported⟩, fun hrun => absurd (hs.running hrun) hl⟩

theorem socketConnect_keeps (hi : Inv s) (listening : Listening) :
    Keeps s (s.step (.socketConnect listening)) (s.KeepsSafe (.socketConnect listening))
      (s.KeepsSound (.socketConnect listening)) := by
  show Keeps s (s.socketConnect listening) (s.configError = none → ¬ Linked s.m_listenSocket)
    (s.configError = none → s.m_listenSocket.isSome = true →
      ¬ Linked s.m_listenSocket ∧ listening.succeeds = true)
  cases hcfg : s.configError with
  | some msg =>
      obtain ⟨base, hbase, heq⟩ := socketConnect_unconfigured hcfg listening
      have hkeeps : Keeps s { s with base } True True :=
        ⟨⟨hi.listen_running, hi.remote_running, fun h => absurd (hbase.symm.trans h) nofun,
          hi.listen_emits, hi.remote_emits⟩,
          fun hs => iff_true_intro ⟨hs.intact, hs.reported⟩,
          fun hs => iff_true_intro ⟨⟨hs.intact, hs.reported⟩, hs.running⟩⟩
      rw [heq]
      simpa using hkeeps
  | none =>
      by_cases hl : Linked s.m_listenSocket
      · obtain ⟨base, hbase, heq⟩ := socketConnect_linked hi hcfg hl listening
        have hkeeps : Keeps s (s.socketConnect listening) False False := by
          rw [heq]
          exact .of_failed (.of_none rfl rfl hbase) rfl
        simpa [hl, hl.isSome] using hkeeps
      · cases hsucc : listening.succeeds with
        | false =>
            simpa [hl] using socketConnect_failed_keeps hi (socketConnect_failed hcfg hl hsucc)
        | true =>
            cases listening with
            | bound localEndpoint =>
                rw [socketConnect_bound hcfg hl]
                have hemits : ∀ socket, some { localEndpoint : QUdpSocket } = some socket →
                    socket.blocked = false := by
                  rintro socket h
                  obtain rfl := Option.some.inj h
                  rfl
                have hkeeps : Keeps s { s with
                    m_listenSocket := some { localEndpoint }, m_running := true
                    base := s.base.socketConnect true } True True :=
                  ⟨⟨fun _ => rfl, fun _ => rfl, fun _ => rfl, hemits, hi.remote_emits⟩,
                    fun hs => iff_true_intro ⟨hs.intact, hs.reported⟩,
                    fun hs => iff_true_intro ⟨⟨hs.intact, hs.reported⟩, fun _ => rfl⟩⟩
                simpa [hl] using hkeeps
            | bindFails => cases hsucc
            | openFails => cases hsucc

theorem stop_base (base : ToolsSocket) : base.stop.m_connected = false := by
  cases hc : base.m_connected with
  | true =>
      simp [ToolsSocket.stop, hc, ToolsSocket.reportDisconnected, ToolsSocket.socketDisconnect,
        ToolsSocket.emit]
  | false => simp [ToolsSocket.stop, hc]

theorem stop_keeps (hi : Inv s) : Keeps s s.stop True True := by
  unfold stop
  cases hc : s.base.m_connected with
  | true => exact .of_closed (stop_base s.base)
  | false =>
      have hbase : s.base.stop.m_connected = s.base.m_connected := (stop_base _).trans hc.symm
      exact Quiet.keeps ⟨rfl, rfl, rfl, rfl, hbase, rfl, .inl, fun h => h, fun h => h⟩ hi

end

theorem step_keeps {s : UdpProxy} (hi : Inv s) (e : Event) :
    Keeps s (s.step e) (s.KeepsSafe e) (s.KeepsSound e) := by
  have hnone : Keeps s s True True := (Quiet.refl s).keeps hi
  cases e with
  | start startImpl =>
      exact Quiet.keeps ⟨rfl, rfl, rfl, rfl, rfl, rfl, .inl, fun h => h, fun h => h⟩ hi
  | stop => exact stop_keeps hi
  | socketConnect listening => exact socketConnect_keeps hi listening
  | socketDisconnect => exact .of_closed rfl
  | sendData now d writes => exact (sendData_quiet hi now d writes).keeps hi
  | listenDisconnected => exact listenDisconnected_keeps hi
  | remoteDisconnected => exact remoteDisconnected_keeps hi
  | listenDatagrams endpoints datagrams =>
      simp only [step]
      split
      · exact (readFromListenSocket_quiet (isSome_of_emitting ‹_›) endpoints datagrams).keeps hi
      · exact hnone
  | remoteDatagrams datagrams =>
      simp only [step]
      split
      · exact (readFromRemoteSocket_quiet (isSome_of_emitting ‹_›) datagrams).keeps hi
      · exact hnone
  | listenError errorString =>
      simp only [step]
      split
      · exact (listenSocketErrorOccurred_quiet (isSome_of_emitting ‹_›) errorString).keeps hi
      · exact hnone
  | remoteError errorString =>
      simp only [step]
      split
      · exact (remoteSocketErrorOccurred_quiet (isSome_of_emitting ‹_›) errorString).keeps hi
      · exact hnone

/-! ### Runs -/

section
variable (m_host : QString) (m_port m_localPort : ℕ) (evs : List Event)

theorem new_inv : Inv { m_host, m_port, m_localPort } := .of_none rfl rfl rfl

/-- **No socket is used that is not there**, and every loss of the link is reported once, in all of
a run, if and only if the remote never disconnects while the listening socket is connected to a
peer, and no `socketConnect` replaces a listening socket that is. -/
theorem safe_iff :
    Runs.Always step { m_host, m_port, m_localPort } evs Safe ↔
      Runs.Along step { m_host, m_port, m_localPort } evs KeepsSafe :=
  Runs.always_iff_along_of_inv (fun _ e hi => (step_keeps hi e).inv)
    (fun _ e hi hs => (step_keeps hi e).safe_iff hs) (new_inv m_host m_port m_localPort) ⟨rfl, rfl⟩

/-- **The proxy uses only sockets it has**, reports every loss of the link once and runs only with
its listening socket, in all of a run, if and only if no socket gets disconnected and no
`socketConnect` replaces a listening socket that has a peer or replaces one by a socket that cannot
be bound or opened. -/
theorem sound_iff :
    Runs.Always step { m_host, m_port, m_localPort } evs Sound ↔
      Runs.Along step { m_host, m_port, m_localPort } evs KeepsSound :=
  Runs.always_iff_along_of_inv (fun _ e hi => (step_keeps hi e).inv)
    (fun _ e hi hs => (step_keeps hi e).sound_iff hs) (new_inv m_host m_port m_localPort)
    ⟨⟨rfl, rfl⟩, nofun⟩

end

/-- The proxy listens, a peer sends a datagram, and the remote disconnects. -/
def remoteLost : List Event :=
  [.start true, .socketConnect (.bound ⟨[], 20001⟩),
    .listenDatagrams (some (⟨[], 1⟩, ⟨[], 20000⟩))
      [{ now := 0, sender := ⟨[], 7⟩, data := [5], connects := true }],
    .remoteDisconnected]

/-- The slot of the listening socket runs when there is no listening socket any more, and the loss
is reported twice. -/
theorem remote_lost_unsound :
    ¬ Runs.Always step { m_host := ['h'] } remoteLost Sound ∧
      (remoteLost.foldl step { m_host := ['h'] }).failed = true ∧
      (remoteLost.foldl step { m_host := ['h'] }).reportedLost = 2 := by
  refine ⟨fun h => ?_, rfl, rfl⟩
  cases h.last.intact

end UdpProxy

end CcToolsQt
