import CcToolsQt.EchoSocket
import CcToolsQt.Lib.Channel
import CcToolsQt.TcpClient

/-! # A server and its clients

An application with the TCP server socket and the applications with the TCP client socket that
connect to it, all with one protocol.  The network keeps the bytes of a connection in their order
and may delay them; bytes may also get lost, as the last ones of a connection that ends.

A client is connected before the server has accepted the connection: what it sends until then
waits, and what the server sends until then does not reach it.  The events `server` and `client`
are those that do not depend on the other end. -/

namespace CcToolsQt

/-- The protocol object of an application as it reads: the buffers of its frame, and the connection
the last chunk was from. -/
structure Reading where
  frame : FrameState := {}
  last : Option ℕ := none

/-- A connection with its two directions, its ends as the client sees them, and the number the
server has given to it with the address at which it sees the client. -/
structure TcpConnection (κ φ α : Type) where
  client : Option κ := none
  clientEnd : Endpoint := .null
  serverEnd : Endpoint := .null
  id : Option ℕ := none
  peer : Endpoint := .null
  up : Channel UInt8 (ToolsMessage φ α) (ToolsMessage φ α) := {}
  down : Channel UInt8 (ToolsMessage φ α) (ToolsMessage φ α) := {}

/-- A client with the connection its socket is on. -/
structure LinkClient where
  socket : TcpClient := {}
  reading : Reading := {}
  connection : Option ℕ := none

/-- The server, its clients and their connections; `pending` are those not accepted yet. -/
structure TcpLink (κ φ α : Type) where
  server : TcpServer := {}
  reading : Reading := {}
  clients : κ → LinkClient := fun _ => {}
  connections : ℕ → TcpConnection κ φ α := fun _ => {}
  opened : ℕ := 0
  pending : List ℕ := []

/-! ### Writing and reading -/

/-- The blocks of data a call has reported. -/
def ToolsSocket.newReports (before after : ToolsSocket) : List ToolsDataInfo :=
  (after.emitted.drop before.emitted.length).filterMap fun e =>
    match e.1 with
    | .sigDataReceivedReport d => some d
    | _ => none

namespace Reading
variable {φ α : Type} (P : ToolsProtocol φ α)

/-- The blocks a connection has reported are read. -/
def read (r : Reading) (j : ℕ) (reports : List ToolsDataInfo) :
    Reading × List (ToolsMessage φ α) :=
  let x := P.readAll r.frame (ToolsFrame.notFinal reports)
  ({ frame := x.1, last := some j }, x.2)

end Reading

namespace TcpConnection
variable {κ φ α : Type}

/-- The server writes a message: what goes to the connection is in the trace of the server. -/
def serverWrites (c : TcpConnection κ φ α) (msg : ToolsMessage φ α)
    (uses : List (ℕ × TcpServer.Use)) : TcpConnection κ φ α :=
  match c.id with
  | none => c
  | some i =>
      { c with
        down := (Mux.own i uses).foldl
          (fun down use =>
            match use with
            | .sent data => down.write msg data
            | .reported _ => down)
          c.down }

/-- The client writes a message. -/
def clientWrites (c : TcpConnection κ φ α) (msg : ToolsMessage φ α) (blocks : List DataSeq) :
    TcpConnection κ φ α :=
  { c with up := blocks.foldl (fun up data => up.write msg data) c.up }

end TcpConnection

/-- The event is up to the server alone. -/
def TcpServer.Event.isLocal : TcpServer.Event → Bool
  | .sendData _ _ => false
  | .newConnection _ => false
  | .readyRead _ _ _ => false
  | _ => true

/-- The event is up to the client alone, but for the server that has to listen. -/
def TcpClient.Event.isLocal : TcpClient.Event → Bool
  | .sendData _ _ => false
  | .readyRead _ _ => false
  | _ => true

/-- Nobody listens: `waitForConnected` fails. -/
def TcpClient.Event.refused : TcpClient.Event → TcpClient.Event
  | .socketConnect _ => .socketConnect none
  | e => e

namespace TcpLink
variable {κ φ α : Type} [DecidableEq κ] (P : ToolsProtocol φ α)

def setClient (s : TcpLink κ φ α) (k : κ) (c : LinkClient) : TcpLink κ φ α :=
  { s with clients := Function.update s.clients k c }

def setConnection (s : TcpLink κ φ α) (j : ℕ) (c : TcpConnection κ φ α) : TcpLink κ φ α :=
  { s with connections := Function.update s.connections j c }

/-! ### The server -/

/-- A server that stops listening drops what it has not accepted. -/
def serverStep (s : TcpLink κ φ α) (e : TcpServer.Event) : TcpLink κ φ α :=
  let server := s.server.step e
  { s with server, pending := if server.isListening then s.pending else [] }

def serverSend (s : TcpLink κ φ α) (now : ℕ) (msg : ToolsMessage φ α) : TcpLink κ φ α :=
  match P.write now msg with
  | none => s
  | some d =>
      let server := s.server.step (.sendData now d)
      let uses := server.trace.drop s.server.trace.length
      { s with server, connections := fun j => (s.connections j).serverWrites msg uses }

/-- The oldest connection that is waiting is accepted. -/
def accept (s : TcpLink κ φ α) (peer : Endpoint) : TcpLink κ φ α :=
  match s.pending with
  | [] => s
  | j :: pending =>
      ({ s with server := s.server.step (.newConnection peer), pending }).setConnection j
        { s.connections j with id := some s.server.accepted, peer }

/-- `n` bytes of a connection have reached the server. -/
def serverRead (s : TcpLink κ φ α) (j n now : ℕ) : TcpLink κ φ α :=
  let c := s.connections j
  match c.id.bind fun i => Pool.find TcpServer.Client.id i s.server.m_sockets with
  | none => s
  | some client =>
      let server := s.server.step (.readyRead client.id now (c.up.wire.take n))
      let x := s.reading.read P j (s.server.base.newReports server.base)
      ({ s with server, reading := x.1 }).setConnection j
        { c with up := c.up.readPiece n x.2 }

/-! ### The clients -/

/-- A socket that gets connected is on a new connection. -/
def clientStep (s : TcpLink κ φ α) (k : κ) (e : TcpClient.Event) : TcpLink κ φ α :=
  let c := s.clients k
  let socket := c.socket.step (if s.server.isListening then e else e.refused)
  match c.socket.m_socket, socket.m_socket with
  | none, some ends =>
      let s := s.setClient k { c with socket, connection := some s.opened }
      { s.setConnection s.opened
          { client := some k, clientEnd := ends.1, serverEnd := ends.2 } with
        opened := s.opened + 1
        pending := s.pending ++ [s.opened] }
  | _, none => s.setClient k { c with socket, connection := none }
  | _, _ => s.setClient k { c with socket }

def clientSend (s : TcpLink κ φ α) (k : κ) (now : ℕ) (msg : ToolsMessage φ α) : TcpLink κ φ α :=
  match P.write now msg with
  | none => s
  | some d =>
      let c := s.clients k
      let socket := c.socket.step (.sendData now d)
      let blocks := socket.written.drop c.socket.written.length
      let s := s.setClient k { c with socket }
      match c.connection with
      | none => s
      | some j => s.setConnection j ((s.connections j).clientWrites msg blocks)

/-- `n` bytes of its connection have reached a client. -/
def clientRead (s : TcpLink κ φ α) (k : κ) (n now : ℕ) : TcpLink κ φ α :=
  let c := s.clients k
  match c.connection with
  | none => s
  | some j =>
      let conn := s.connections j
      let socket := c.socket.step (.readyRead now (conn.down.wire.take n))
      let x := c.reading.read P j (c.socket.base.newReports socket.base)
      (s.setClient k { c with socket, reading := x.1 }).setConnection j
        { conn with down := conn.down.readPiece n x.2 }

/-! ### Runs -/

inductive Event (κ φ α : Type) where
  | server (e : TcpServer.Event)
  | serverSend (now : ℕ) (msg : ToolsMessage φ α)
  | accept (peer : Endpoint)
  | serverRead (j n now : ℕ)
  | client (k : κ) (e : TcpClient.Event)
  | clientSend (k : κ) (now : ℕ) (msg : ToolsMessage φ α)
  | clientRead (k : κ) (n now : ℕ)

def step (s : TcpLink κ φ α) : Event κ φ α → TcpLink κ φ α
  | .server e => if e.isLocal then s.serverStep e else s
  | .serverSend now msg => s.serverSend P now msg
  | .accept peer => s.accept peer
  | .serverRead j n now => s.serverRead P j n now
  | .client k e => if e.isLocal then s.clientStep k e else s
  | .clientSend k now msg => s.clientSend P k now msg
  | .clientRead k n now => s.clientRead P k n now

/-- The application with the server that has not done anything, and those with the clients. -/
def new : TcpLink κ φ α := {}

def run (evs : List (Event κ φ α)) : TcpLink κ φ α := evs.foldl (step P) new

end TcpLink

end CcToolsQt
