import CcToolsQt.Lib.Mux
import CcToolsQt.Protocol

/-! # Streams of several peers

The TCP server and the TCP proxy report what all their connections send through one socket, and
`socketDataReceived` passes it on to one protocol object.

* `read_peers`: the messages of every peer are those of its stream read alone, as long as no
  incomplete message and no garbage is pending whenever another peer sends: the two buffers of the
  frame are shared by all connections. -/

namespace CcToolsQt

/-! ### The sockets -/

/-- The address and the port of a peer. -/
structure Endpoint where
  address : QString
  port : ℕ

namespace Endpoint

def text (e : Endpoint) : QString := e.address ++ ':' :: QString.number10 e.port

def tcpFromProp : QString := ['t', 'c', 'p', '.', 'f', 'r', 'o', 'm']

def tcpToProp : QString := ['t', 'c', 'p', '.', 't', 'o']

end Endpoint

/-- The sockets with several connections. -/
inductive TcpSocket where
  | server
  | proxy

namespace TcpSocket

/-- The data of one connection with where it comes from and where it goes to. -/
def dataInfo (now : ℕ) (src dst : Endpoint) (data : DataSeq) : ToolsDataInfo where
  m_timestamp := now
  m_data := data
  m_extraProperties :=
    QVariantMap.insert Endpoint.tcpToProp (.string dst.text)
      (QVariantMap.insert Endpoint.tcpFromProp (.string src.text) [])

/-- `TcpServerSocket::readFromSocket`. -/
def readFromSocket (now : ℕ) (peer srv : Endpoint) (data : DataSeq) : Option ToolsDataInfo :=
  some (dataInfo now peer srv data)

/-- `TcpProxySocket::performReadWrite`, the part that reports. -/
def performReadWrite (now : ℕ) (readFrom writeTo : Endpoint) (data : DataSeq) :
    Option ToolsDataInfo :=
  if data.isEmpty then none else some (dataInfo now readFrom writeTo data)

/-- What is reported when the bytes of a connection are ready. -/
def reported (socket : TcpSocket) (now : ℕ) (src dst : Endpoint) (data : DataSeq) :
    Option ToolsDataInfo :=
  match socket with
  | server => readFromSocket now src dst data
  | proxy => performReadWrite now src dst data

end TcpSocket

/-- Bytes of a peer; a direction of a proxied connection is a peer of its own. -/
structure Arrival (κ : Type) where
  peer : κ
  now : ℕ
  data : DataSeq

/-- The chunks a socket reports, each with the peer it is from. -/
def TcpSocket.chunks {κ : Type} (socket : TcpSocket) (ends : κ → Endpoint × Endpoint)
    (arrivals : List (Arrival κ)) : List (κ × ToolsDataInfo) :=
  arrivals.filterMap fun a =>
    (socket.reported a.now (ends a.peer).1 (ends a.peer).2 a.data).map fun d => (a.peer, d)

/-! ### The protocol -/

namespace ToolsProtocol
variable {φ α κ : Type} (P : ToolsProtocol φ α)

/-- `read` as `socketDataReceived` calls it. -/
def readChunk (s : FrameState) (d : ToolsDataInfo) : FrameState × List (ToolsMessage φ α) :=
  P.read s d false

/-- The messages read from the chunks of all peers, each with the peer whose chunk made `read`
return it. -/
def readPeers (chunks : List (κ × ToolsDataInfo)) : List (κ × ToolsMessage φ α) :=
  (Mux.runTagged P.readChunk {} chunks).2

theorem run_readChunk (s : FrameState) (ds : List ToolsDataInfo) :
    Mux.run P.readChunk s ds = P.readAll s (ToolsFrame.notFinal ds) := by
  induction ds generalizing s with
  | nil => rfl
  | cons d ds ih =>
      simp only [Mux.run, ToolsFrame.notFinal, List.map_cons, readAll, readChunk, ih]

variable [DecidableEq κ]

/-- Whenever another peer sends, the buffers of the frame are empty. -/
def AtBoundaries (chunks : List (κ × ToolsDataInfo)) : Prop :=
  ∀ pre e e' post, chunks = pre ++ e :: e' :: post → e.1 ≠ e'.1 →
    (P.readAll {} (ToolsFrame.notFinal ((pre ++ [e]).map Prod.snd))).1 = {}

/-- **Streams of several peers**: in every run in which the peer changes at message boundaries
only, the messages of each peer are those of its stream alone. -/
theorem read_peers (socket : TcpSocket) (ends : κ → Endpoint × Endpoint)
    (arrivals : List (Arrival κ)) (h : P.AtBoundaries (socket.chunks ends arrivals)) (k : κ) :
    Mux.own k (P.readPeers (socket.chunks ends arrivals)) =
      (P.readAll {} (ToolsFrame.notFinal (Mux.own k (socket.chunks ends arrivals)))).2 := by
  have hsep : Mux.Separated P.readChunk {} (socket.chunks ends arrivals) := by
    intro pre e e' post hchunks hne
    rw [Mux.runTagged_state, run_readChunk]
    exact h pre e e' post hchunks hne
  rw [← run_readChunk]
  exact Mux.runTagged_own hsep k

/-! ### Two peers -/

/-- The bytes of two peers, client and remote of a proxy. -/
def twoPeers (arrivals : List (Bool × DataSeq)) : List (Bool × ToolsDataInfo) :=
  TcpSocket.proxy.chunks (fun _ => (⟨[], 0⟩, ⟨[], 0⟩)) (arrivals.map fun a => ⟨a.1, 0, a.2⟩)

/-- Whole messages. -/
theorem read_peers_whole :
    let P : ToolsProtocol Unit UInt8 := { name := [], m_frame := syncFrame }
    let chunks := twoPeers [(false, [syncByte, 1]), (true, [syncByte, 2])]
    P.AtBoundaries chunks ∧ Mux.own true (P.readPeers chunks) =
      (P.readAll {} (ToolsFrame.notFinal (Mux.own true chunks))).2 := by
  intro P chunks
  have hat : P.AtBoundaries chunks := by
    intro pre e e' post h _
    match pre, h with
    | [], h =>
        obtain rfl := (List.cons.inj h).1
        rfl
    | [_], h => simp [chunks, twoPeers, TcpSocket.chunks, TcpSocket.reported,
        TcpSocket.performReadWrite] at h
    | _ :: _ :: _, h => simp [chunks, twoPeers, TcpSocket.chunks, TcpSocket.reported,
        TcpSocket.performReadWrite] at h
  exact ⟨hat, P.read_peers TcpSocket.proxy _ _ hat true⟩

/-- The first byte of one peer's message is taken for the start of the other's. -/
theorem peers_interfere :
    let P : ToolsProtocol Unit UInt8 := { name := [], m_frame := syncFrame }
    let chunks := twoPeers [(false, [syncByte]), (true, [syncByte, 2]), (false, [1])]
    ¬ ∀ k, Mux.own k (P.readPeers chunks) =
      (P.readAll {} (ToolsFrame.notFinal (Mux.own k chunks))).2 := by
  intro P chunks h
  have hbodies := congrArg (List.map ToolsMessage.body) (h true)
  exact absurd hbodies (by decide)

end ToolsProtocol

end CcToolsQt
