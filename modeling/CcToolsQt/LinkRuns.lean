import CcToolsQt.TcpLink

/-! # The traffic between a server and its clients

In every run in which the applications read only while their sockets are running, and turn to
another connection only with empty buffers (`Orderly`):

* `messages_arrive`: on every connection, in either direction, the messages read are the first of
  those sent, in their order, and all of them once nothing is on the way. -/

namespace CcToolsQt

theorem ToolsSocket.stamped_data (now : ℕ) (d : ToolsDataInfo) :
    (stamped now d).m_data = d.m_data := by
  unfold stamped
  split <;> rfl

/-! ### What the server does -/

namespace TcpServer

/-- The connections have different numbers, all of them given already. -/
structure Numbered (s : TcpServer) : Prop where
  nodup : (s.m_sockets.map Client.id).Nodup
  given : ∀ c ∈ s.m_sockets, c.id < s.accepted

theorem numbered_new : Numbered {} := ⟨List.nodup_nil, fun _ hc => absurd hc List.not_mem_nil⟩

/-- What is up to the server alone makes connections go at most. -/
theorem step_isLocal (s : TcpServer) {e : Event} (he : e.isLocal = true) :
    (s.step e).accepted = s.accepted ∧ (s.step e).m_sockets.Sublist s.m_sockets := by
  cases e with
  | sendData now d => cases he
  | newConnection peer => cases he
  | readyRead i now data => cases he
  | socketConnect listen =>
      simp only [step, socketConnect, socketConnectImpl]
      split
      · exact ⟨rfl, List.Sublist.refl _⟩
      · cases listen <;> exact ⟨rfl, List.Sublist.refl _⟩
  | stop =>
      simp only [step, stop]
      split <;> exact ⟨rfl, List.Sublist.refl _⟩
  | disconnected i =>
      simp only [step, connectionTerminated]
      cases Pool.find Client.id i s.m_sockets with
      | none => exact ⟨rfl, List.Sublist.refl _⟩
      | some c => exact ⟨rfl, List.eraseP_sublist⟩
  | start startImpl => exact ⟨rfl, List.Sublist.refl _⟩
  | socketDisconnect => exact ⟨rfl, List.Sublist.refl _⟩
  | socketError errorString => exact ⟨rfl, List.Sublist.refl _⟩
  | acceptError errorString => exact ⟨rfl, List.Sublist.refl _⟩

theorem Numbered.of_sublist {s s' : TcpServer} (h : s.Numbered) (ha : s'.accepted = s.accepted)
    (hs : s'.m_sockets.Sublist s.m_sockets) : s'.Numbered where
  nodup := h.nodup.sublist (hs.map _)
  given c hc := by
    rw [ha]
    exact h.given c (hs.subset hc)

theorem Numbered.newConnection {s : TcpServer} (h : s.Numbered) (peer : Endpoint) :
    (s.newConnection peer).Numbered := by
  constructor
  · show ((s.m_sockets ++ [(⟨s.accepted, peer⟩ : Client)]).map Client.id).Nodup
    rw [List.map_append]
    refine List.nodup_append.mpr ⟨h.nodup, List.nodup_singleton _, ?_⟩
    intro i hi j hj heq
    obtain ⟨c, hc, rfl⟩ := List.mem_map.mp hi
    have hlt := h.given c hc
    rw [heq, List.mem_singleton.mp hj] at hlt
    exact Nat.lt_irrefl _ hlt
  · intro c hc
    show c.id < s.accepted + 1
    rcases List.mem_append.mp hc with hc | hc
    · exact Nat.lt_succ_of_lt (h.given c hc)
    · rw [List.mem_singleton.mp hc]
      exact Nat.lt_succ_self _

/-- The part of a connection in a broadcast. -/
theorem own_broadcast {l : List Client} (hnd : (l.map Client.id).Nodup) (i : ℕ) (u : Use) :
    Mux.own i (l.map fun c => (c.id, u)) = if i ∈ l.map Client.id then [u] else [] := by
  induction l with
  | nil => rfl
  | cons c l ih =>
      obtain ⟨hc, hnd⟩ := List.nodup_cons.mp hnd
      have ih := ih hnd
      unfold Mux.own at ih ⊢
      by_cases hi : c.id = i
      · subst hi
        rw [if_neg hc] at ih
        simp [ih]
      · have hne : ¬ i = c.id := fun e => hi e.symm
        simp [hi, hne, ih]

/-- Sending writes to every connection once. -/
theorem step_sendData (s : TcpServer) (now : ℕ) (d : ToolsDataInfo) :
    (s.step (.sendData now d)).accepted = s.accepted ∧
      (s.step (.sendData now d)).m_sockets = s.m_sockets ∧
      (s.step (.sendData now d)).trace.drop s.trace.length =
        if s.base.m_connected then s.m_sockets.map fun c => (c.id, .sent d.m_data) else [] := by
  have hdata := ToolsSocket.stamped_data now d
  simp only [step, sendData, sendDataImpl]
  split_ifs
  · exact ⟨rfl, rfl, by rw [List.drop_left, hdata]⟩
  · exact ⟨rfl, rfl, by rw [List.drop_length]⟩

/-- The bytes of a connection that is there are reported. -/
theorem step_readyRead {s : TcpServer} {i : ℕ} {c : Client}
    (hc : Pool.find Client.id i s.m_sockets = some c) (now : ℕ) (data : DataSeq) :
    s.step (.readyRead i now data) = s.readFromSocket now c data := by
  simp only [step, hc]

end TcpServer

/-! ### What a client does -/

namespace TcpClient

/-- A connected socket stays as it is or gets disconnected. -/
theorem step_m_socket (s : TcpClient) (e : Event) (hs : s.m_socket ≠ none) :
    (s.step e).m_socket = s.m_socket ∨ (s.step e).m_socket = none := by
  cases e with
  | stop =>
      simp only [step, stop]
      split
      · exact .inr rfl
      · exact .inl rfl
  | socketConnect connected =>
      left
      simp only [step, socketConnect, socketConnectImpl, if_pos (Option.isSome_iff_ne_none.mpr hs)]
  | sendData now d =>
      left
      simp only [step, sendData, sendDataImpl]
      split_ifs <;> rfl
  | readyRead now data =>
      left
      simp only [step]
      split
      · rfl
      · rfl
  | socketError errorString lost =>
      cases lost
      · exact .inl rfl
      · exact .inr rfl
  | start startImpl => exact .inl rfl
  | socketDisconnect => exact .inr rfl
  | disconnected => exact .inr rfl

/-- Sending writes at most once. -/
theorem step_sendData (s : TcpClient) (now : ℕ) (d : ToolsDataInfo) :
    (s.step (.sendData now d)).m_socket = s.m_socket ∧
      (s.step (.sendData now d)).written.drop s.written.length =
        if s.base.m_connected ∧ s.m_socket.isSome then [d.m_data] else [] := by
  simp only [step, sendData, sendDataImpl]
  split_ifs with hc hs hboth hboth
  · exact ⟨rfl, by rw [List.drop_left, ToolsSocket.stamped_data]⟩
  · exact absurd ⟨hc, hs⟩ hboth
  · exact absurd hboth.2 hs
  · exact ⟨rfl, by rw [List.drop_length]⟩
  · exact absurd (by assumption : s.base.m_connected = true ∧ _).1 hc
  · exact ⟨rfl, by rw [List.drop_length]⟩

end TcpClient

/-! ### What is reported -/

theorem ToolsSocket.newReports_reportDataReceived (b : ToolsSocket) (now : ℕ) (d : ToolsDataInfo) :
    b.newReports (b.reportDataReceived now d) = if b.m_running then [stamped now d] else [] := by
  unfold newReports reportDataReceived
  cases hb : b.m_running <;> simp [emit]

/-! ### What a protocol object reads of its connections -/

namespace ToolsProtocol
variable {φ α : Type} (P : ToolsProtocol φ α)

/-- The message that is read for one that was sent: the same object, with its bytes. -/
structure Arrives (sent read : ToolsMessage φ α) : Prop where
  body : read.body = sent.body
  rawData : read.rawDataMsg = some (P.m_frame.encodeFramed sent)

/-- What the frame makes of the bytes of a message. -/
def asRead (m : ToolsMessage φ α) : ToolsMessage φ α :=
  ToolsFrame.updateRawDataInternal (P.m_frame.encodeFramed m)
    (ToolsFrame.updateTransportInternal (P.m_frame.encodeFramed m) { body := m.body })

theorem Carried.codeword {m : ToolsMessage φ α} (hm : P.Carried m) :
    P.m_frame.readLoop.Codeword [] (P.m_frame.encodeFramed m) (P.asRead m) := by
  obtain ⟨-, form, content, w, hb, hr⟩ := hm
  have hw : P.m_frame.encodeFramed m = w := by
    simp only [ToolsFrame.encodeFramed, hb]
    exact P.m_frame.writeProtMsgImpl_of_writes hr.writes
  unfold asRead
  rw [hw, hb]
  exact hr.codeword

end ToolsProtocol

namespace Reading
variable {φ α : Type} (P : ToolsProtocol φ α)

/-- A protocol object can read from a connection if that is the one it has read last, or if its
buffers are empty. -/
def CanTurn (r : Reading) (j : ℕ) : Prop := r.last = some j ∨ r.frame = {}

/-- A protocol object reads these channels, with no garbage pending. -/
structure Reads (r : Reading) (chan : ℕ → Channel UInt8 (ToolsMessage φ α) (ToolsMessage φ α)) :
    Prop where
  garbage : r.frame.m_garbage = []
  shared : Channel.Shared P.m_frame.readLoop [] P.m_frame.encodeFramed P.asRead P.Arrives
    r.frame.m_inData r.last chan

variable {P} {r : Reading}
variable {chan chan' : ℕ → Channel UInt8 (ToolsMessage φ α) (ToolsMessage φ α)}

theorem reads_new : Reads P {} fun _ => {} := ⟨rfl, Channel.shared_new none⟩

theorem Reads.congr (h : Reads P r chan) (hchan : ∀ j, chan' j = chan j) : Reads P r chan' := by
  rw [show chan' = chan from funext hchan]
  exact h

theorem Reads.writeAll (h : Reads P r chan) {w : ℕ → List (ToolsMessage φ α)}
    (hw : ∀ j, ∀ m ∈ w j, P.Carried m)
    (hchan : ∀ j, chan' j = (chan j).writeAll P.m_frame.encodeFramed (w j)) : Reads P r chan' :=
  ⟨h.garbage, h.shared.writeAll (fun j m hm => (hw j m hm).codeword) hchan⟩

/-- What one block gives. -/
theorem read_singleton (r : Reading) (j : ℕ) (d : ToolsDataInfo) :
    let x := P.m_frame.readLoop.scan r.frame.m_garbage (r.frame.m_inData ++ d.m_data)
    r.read P j [d] = ({ frame := { m_inData := x.rest, m_garbage := x.state }, last := some j },
      x.out.map fun m => P.setNameToMessageProperties
        (P.m_frame.attachExtraProperties d.m_extraProperties m)) := by
  intro x
  simp only [read, ToolsFrame.notFinal, List.map_cons, List.map_nil, ToolsProtocol.readAll,
    ToolsProtocol.read, ToolsFrame.readDataImpl_notFinal, List.append_nil, List.map_map]
  rfl

/-- What is read of a block has its properties. -/
theorem read_extraInfo (r : Reading) (j : ℕ) {d : ToolsDataInfo} (hd : d.m_extraProperties ≠ [])
    {m : ToolsMessage φ α} (hm : m ∈ (r.read P j [d]).2) :
    m.getExtraInfo = d.m_extraProperties := by
  rw [read_singleton] at hm
  obtain ⟨m, -, rfl⟩ := List.mem_map.mp hm
  have hne : d.m_extraProperties.isEmpty = false := by simpa using hd
  simp only [ToolsProtocol.setNameToMessageProperties, ToolsFrame.attachExtraProperties, hne]
  rfl

/-- A block of a connection is read. -/
theorem Reads.read (h : Reads P r chan) {j : ℕ} (hj : r.CanTurn j) (n : ℕ)
    {d : ToolsDataInfo} (hd : d.m_data = (chan j).wire.take n) :
    Reads P (r.read P j [d]).1
      (Function.update chan j ((chan j).readPiece n (r.read P j [d]).2)) := by
  have hheld : r.last = some j ∨ r.frame.m_inData = [] := hj.imp_right fun e => by rw [e]
  obtain ⟨hstate, hshared⟩ := h.shared.readPiece hheld n
    (f := fun m => P.setNameToMessageProperties
      (P.m_frame.attachExtraProperties d.m_extraProperties m)) fun m _ => by
    constructor
    · exact P.m_frame.attachExtraProperties_body _ _
    · exact P.m_frame.attachExtraProperties_rawDataMsg _ _
  rw [read_singleton, h.garbage, hd]
  exact ⟨hstate, hshared⟩

end Reading

/-! ### Connections -/

namespace TcpConnection
variable {κ φ α : Type} {P : ToolsProtocol φ α}

/-- Whose connection it is and what it connects. -/
def ends (c : TcpConnection κ φ α) : Option κ × Endpoint × Endpoint :=
  (c.client, c.clientEnd, c.serverEnd)

/-- What a client reads of a connection, nothing unless it is its own. -/
def downTo [DecidableEq κ] (k : κ) (c : TcpConnection κ φ α) :
    Channel UInt8 (ToolsMessage φ α) (ToolsMessage φ α) :=
  if c.client = some k then c.down else {}

theorem serverWrites_nil (c : TcpConnection κ φ α) (msg : ToolsMessage φ α) :
    c.serverWrites msg [] = c := by
  obtain ⟨client, clientEnd, serverEnd, id, peer, up, down⟩ := c
  cases id <;> rfl

/-- The message is written to a connection once, or not at all; it is not written to one that is not
accepted. -/
def TakesOnce (P : ToolsProtocol φ α) (msg : ToolsMessage φ α) (c c' : TcpConnection κ φ α) :
    Prop :=
  ∃ ms, (∀ m ∈ ms, m = msg) ∧ ms.length ≤ 1 ∧ (c.id = none → ms = []) ∧
    c' = { c with down := c.down.writeAll P.m_frame.encodeFramed ms }

theorem TakesOnce.refl (P : ToolsProtocol φ α) (msg : ToolsMessage φ α)
    (c : TcpConnection κ φ α) : TakesOnce P msg c c :=
  ⟨[], fun _ hm => absurd hm List.not_mem_nil, Nat.zero_le _, fun _ => rfl, rfl⟩

/-- A connection the server has accepted gets what is sent. -/
theorem serverWrites_broadcast (c : TcpConnection κ φ α) {msg : ToolsMessage φ α}
    {l : List TcpServer.Client} (hnd : (l.map TcpServer.Client.id).Nodup) :
    TakesOnce P msg c
      (c.serverWrites msg (l.map fun x => (x.id, .sent (P.m_frame.encodeFramed msg)))) := by
  obtain ⟨client, clientEnd, serverEnd, id, peer, up, down⟩ := c
  cases id with
  | none => exact TakesOnce.refl P msg _
  | some i =>
      unfold serverWrites
      dsimp only
      rw [TcpServer.own_broadcast hnd i]
      split_ifs with hi
      · exact ⟨[msg], fun m hm => List.mem_singleton.mp hm, Nat.le_refl _,
          fun h => absurd h (Option.some_ne_none i), rfl⟩
      · exact TakesOnce.refl P msg _

end TcpConnection

namespace TcpLink
variable {κ φ α : Type} (P : ToolsProtocol φ α)

/-! ### Every state of a run -/

/-- What the applications see to: messages are sent that can be read back, and data is read while
the socket is running, by a protocol object that has finished with the connection before. -/
def Orderly (s : TcpLink κ φ α) : Event κ φ α → Prop
  | .serverSend _ msg => P.Carried msg
  | .clientSend _ _ msg => P.Carried msg
  | .serverRead j _ _ => s.server.base.m_running = true ∧ s.reading.CanTurn j
  | .clientRead k _ _ => (s.clients k).socket.base.m_running = true ∧
      ∀ j, (s.clients k).connection = some j → (s.clients k).reading.CanTurn j
  | _ => True

/-- The invariant of the runs. -/
structure Sound [DecidableEq κ] (s : TcpLink κ φ α) : Prop where
  numbered : s.server.Numbered
  owner : ∀ k j, (s.clients k).connection = some j → (s.connections j).client = some k
  connected : ∀ k j, (s.clients k).connection = some j → (s.clients k).socket.m_socket =
    some ((s.connections j).clientEnd, (s.connections j).serverEnd)
  fresh : ∀ j, s.opened ≤ j → s.connections j = {}
  owned : ∀ j, j < s.opened → (s.connections j).client ≠ none
  waiting : ∀ j ∈ s.pending, j < s.opened
  up : Reading.Reads P s.reading fun j => (s.connections j).up
  down : ∀ k, Reading.Reads P (s.clients k).reading fun j => (s.connections j).downTo k

variable {P} {s s' : TcpLink κ φ α}

/-! ### One connection is changed -/

section
variable {j : ℕ} {c : TcpConnection κ φ α}

theorem setConnection_apply {β : Type} (f : TcpConnection κ φ α → β)
    (hf : f c = f (s.connections j)) (i : ℕ) :
    f ((s.setConnection j c).connections i) = f (s.connections i) := by
  unfold setConnection
  dsimp only
  by_cases hi : i = j
  · rw [hi, Function.update_self]
    exact hf
  · rw [Function.update_of_ne hi]

theorem setConnection_map {β : Type} (f : TcpConnection κ φ α → β) :
    (fun i => f ((s.setConnection j c).connections i)) =
      Function.update (fun i => f (s.connections i)) j (f c) := by
  exact Function.comp_update f s.connections j c

theorem setConnection_fresh (h : ∀ i, s.opened ≤ i → s.connections i = {}) (hj : j < s.opened)
    (i : ℕ) (hi : s.opened ≤ i) : (s.setConnection j c).connections i = {} := by
  unfold setConnection
  dsimp only
  rw [Function.update_of_ne (by omega)]
  exact h i hi

end

/-- The same clients are on the same connections. -/
structure SameEnds (s s' : TcpLink κ φ α) : Prop where
  opened : s'.opened = s.opened
  clients : ∀ k, (s'.clients k).connection = (s.clients k).connection ∧
    (s'.clients k).socket.m_socket = (s.clients k).socket.m_socket
  connections : ∀ j, (s'.connections j).ends = (s.connections j).ends

variable [DecidableEq κ]

theorem sound_new : Sound P (new : TcpLink κ φ α) where
  numbered := TcpServer.numbered_new
  owner k j h := by cases h
  connected k j h := by cases h
  fresh j _ := rfl
  owned j h := absurd h (Nat.not_lt_zero j)
  waiting j h := absurd h List.not_mem_nil
  up := Reading.reads_new
  down k := Reading.reads_new

theorem Sound.of_same (h : Sound P s) (hs : SameEnds s s') (hnumbered : s'.server.Numbered)
    (hfresh : ∀ j, s.opened ≤ j → s'.connections j = {}) (hwaiting : ∀ j ∈ s'.pending, j < s.opened)
    (hup : Reading.Reads P s'.reading fun j => (s'.connections j).up)
    (hdown : ∀ k, Reading.Reads P (s'.clients k).reading fun j => (s'.connections j).downTo k) :
    Sound P s' where
  numbered := hnumbered
  owner k j hj := by
    rw [(hs.clients k).1] at hj
    exact (congrArg Prod.fst (hs.connections j)).trans (h.owner k j hj)
  connected k j hj := by
    rw [(hs.clients k).1] at hj
    rw [(hs.clients k).2, h.connected k j hj]
    exact congrArg some (congrArg Prod.snd (hs.connections j)).symm
  fresh j hj := hfresh j (hs.opened ▸ hj)
  owned j hj := by
    have hclient : (s'.connections j).client = (s.connections j).client :=
      congrArg Prod.fst (hs.connections j)
    rw [hclient]
    exact h.owned j (hs.opened ▸ hj)
  waiting j hj := by
    rw [hs.opened]
    exact hwaiting j hj
  up := hup
  down := hdown

/-! ### One event -/

theorem Sound.serverStep (h : Sound P s) {e : TcpServer.Event} (he : e.isLocal = true) :
    Sound P (s.serverStep e) := by
  refine h.of_same ⟨rfl, fun _ => ⟨rfl, rfl⟩, fun _ => rfl⟩ ?_ h.fresh ?_ h.up h.down
  · exact h.numbered.of_sublist (s.server.step_isLocal he).1 (s.server.step_isLocal he).2
  · intro j hj
    unfold TcpLink.serverStep at hj
    dsimp only at hj
    split at hj
    · exact h.waiting j hj
    · exact absurd hj List.not_mem_nil

/-- Every connection gets the message at most once. -/
theorem serverSend_connections (h : Sound P s) (now : ℕ) {msg : ToolsMessage φ α}
    (hmsg : P.Carried msg) (j : ℕ) :
    TcpConnection.TakesOnce P msg (s.connections j) ((s.serverSend P now msg).connections j) := by
  unfold TcpLink.serverSend
  cases hd : P.write now msg with
  | none => exact TcpConnection.TakesOnce.refl P msg _
  | some d =>
      have hdata : d.m_data = P.m_frame.encodeFramed msg :=
        congrArg Prod.fst (hmsg.written P hd)
      dsimp only
      rw [(s.server.step_sendData now d).2.2, hdata]
      split
      · exact (s.connections j).serverWrites_broadcast h.numbered.nodup
      · rw [TcpConnection.serverWrites_nil]
        exact TcpConnection.TakesOnce.refl P msg _

theorem Sound.serverSend (h : Sound P s) (now : ℕ) {msg : ToolsMessage φ α}
    (hmsg : P.Carried msg) : Sound P (s.serverSend P now msg) := by
  have hconn := serverSend_connections h now hmsg
  choose w hw _ hunaccepted hconn using hconn
  have hcarried : ∀ j, ∀ m ∈ w j, P.Carried m := fun j m hm => hw j m hm ▸ hmsg
  have hserver : (s.serverSend P now msg).server.accepted = s.server.accepted ∧
      (s.serverSend P now msg).server.m_sockets.Sublist s.server.m_sockets ∧
      (s.serverSend P now msg).clients = s.clients ∧
      (s.serverSend P now msg).opened = s.opened ∧
      (s.serverSend P now msg).pending = s.pending ∧
      (s.serverSend P now msg).reading = s.reading := by
    unfold TcpLink.serverSend
    cases P.write now msg with
    | none => exact ⟨rfl, List.Sublist.refl _, rfl, rfl, rfl, rfl⟩
    | some d =>
        obtain ⟨haccepted, hsockets, -⟩ := s.server.step_sendData now d
        exact ⟨haccepted, hsockets ▸ List.Sublist.refl _, rfl, rfl, rfl, rfl⟩
  obtain ⟨haccepted, hsockets, hclients, hopened, hpending, hreading⟩ := hserver
  refine h.of_same ⟨hopened, fun k => ?_, fun j => ?_⟩ (h.numbered.of_sublist haccepted hsockets)
    (fun j hj => ?_) (fun j hj => ?_) ?_ fun k => ?_
  · rw [hclients]
    exact ⟨rfl, rfl⟩
  · rw [hconn j]
    rfl
  · have hnew := h.fresh j hj
    have hnone : w j = [] := hunaccepted j (by rw [hnew])
    rw [hconn j, hnone, hnew]
    rfl
  · exact h.waiting j (hpending ▸ hj)
  · rw [hreading]
    simp only [hconn]
    exact h.up
  · rw [hclients]
    refine (h.down k).writeAll (w := fun j => if (s.connections j).client = some k then w j else [])
      ?_ ?_
    · intro j m hm
      split at hm
      · exact hcarried j m hm
      · exact absurd hm List.not_mem_nil
    · intro j
      rw [hconn j]
      unfold TcpConnection.downTo
      dsimp only
      split <;> rfl

theorem Sound.accept (h : Sound P s) (peer : Endpoint) : Sound P (s.accept peer) := by
  unfold TcpLink.accept
  cases hp : s.pending with
  | nil => exact h
  | cons j pending =>
      have hj : j < s.opened := h.waiting j (by rw [hp]; exact List.mem_cons_self)
      dsimp only
      refine h.of_same ⟨rfl, fun _ => ⟨rfl, rfl⟩, setConnection_apply TcpConnection.ends rfl⟩ ?_
        (setConnection_fresh h.fresh hj) (fun i hi => ?_) ?_ fun k => ?_
      · show (s.server.step (.newConnection _)).Numbered
        simp only [TcpServer.step]
        split
        · exact h.numbered.newConnection _
        · exact h.numbered
      · exact h.waiting i (by rw [hp]; exact List.mem_cons_of_mem _ hi)
      · exact h.up.congr (setConnection_apply TcpConnection.up rfl)
      · exact (h.down k).congr (setConnection_apply (TcpConnection.downTo k) rfl)

/-- A connection that has a number is open. -/
theorem Sound.opened (h : Sound P s) {j : ℕ} (hj : s.connections j ≠ {}) : j < s.opened := by
  by_contra hlt
  exact hj (h.fresh j (by omega))

theorem Sound.serverRead (h : Sound P s) {j : ℕ} (n now : ℕ)
    (hrun : s.server.base.m_running = true) (hturn : s.reading.CanTurn j) :
    Sound P (s.serverRead P j n now) := by
  unfold TcpLink.serverRead
  dsimp only
  cases hc : (s.connections j).id.bind fun i => Pool.find TcpServer.Client.id i s.server.m_sockets
    with
  | none => exact h
  | some client =>
      obtain ⟨i, hid, hfind⟩ := Option.bind_eq_some_iff.mp hc
      obtain rfl := (Pool.find_mem hfind).2
      have hj : j < s.opened := h.opened fun e => by rw [e] at hid; cases hid
      dsimp only
      rw [TcpServer.step_readyRead hfind, TcpServer.readFromSocket,
        ToolsSocket.newReports_reportDataReceived, if_pos hrun]
      have hread := h.up.read hturn n (ToolsSocket.stamped_data now
        (TcpSocket.dataInfo now client.peer s.server.serverEndpoint
          ((s.connections j).up.wire.take n)))
      refine h.of_same ⟨rfl, fun _ => ⟨rfl, rfl⟩, setConnection_apply TcpConnection.ends rfl⟩ ?_
        (setConnection_fresh h.fresh hj) h.waiting ?_ fun k => ?_
      · exact h.numbered.of_sublist rfl (List.Sublist.refl _)
      · rw [setConnection_map TcpConnection.up]
        exact hread
      · exact (h.down k).congr (setConnection_apply (TcpConnection.downTo k) rfl)

/-! #### The clients -/

/-- What a client has read when another one has something new. -/
theorem setClient_clients (k : κ) (c : LinkClient) (k' : κ) :
    (s.setClient k c).clients k' = if k' = k then c else s.clients k' := by
  unfold setClient
  dsimp only
  by_cases hk : k' = k
  · rw [if_pos hk, hk, Function.update_self]
  · rw [if_neg hk, Function.update_of_ne hk]

/-- A client stays where it is. -/
theorem Sound.setClient (h : Sound P s) {k : κ} {c : LinkClient}
    (hc : c.connection = (s.clients k).connection)
    (hsocket : c.socket.m_socket = (s.clients k).socket.m_socket)
    (hreading : c.reading = (s.clients k).reading) : Sound P (s.setClient k c) := by
  refine h.of_same ⟨rfl, fun k' => ?_, fun _ => rfl⟩ h.numbered h.fresh h.waiting h.up fun k' => ?_
  · rw [setClient_clients]
    split_ifs with hk
    · rw [hk]
      exact ⟨hc, hsocket⟩
    · exact ⟨rfl, rfl⟩
  · rw [setClient_clients]
    split_ifs with hk
    · rw [hreading, hk]
      exact h.down k
    · exact h.down k'

/-- A client leaves its connection. -/
theorem Sound.leave (h : Sound P s) {k : κ} {c : LinkClient} (hc : c.connection = none)
    (hreading : c.reading = (s.clients k).reading) : Sound P (s.setClient k c) where
  numbered := h.numbered
  owner k' j hj := by
    rw [setClient_clients] at hj
    split_ifs at hj with hk
    · rw [hc] at hj
      cases hj
    · exact h.owner k' j hj
  connected k' j hj := by
    rw [setClient_clients] at hj ⊢
    split_ifs at hj ⊢ with hk
    · rw [hc] at hj
      cases hj
    · exact h.connected k' j hj
  fresh := h.fresh
  owned := h.owned
  waiting := h.waiting
  up := h.up
  down k' := by
    rw [setClient_clients]
    split_ifs with hk
    · rw [hreading, hk]
      exact h.down k
    · exact h.down k'

/-- A client gets on a new connection. -/
theorem Sound.connect (h : Sound P s) {k : κ} {c : LinkClient} {ends : Endpoint × Endpoint}
    (hc : c.connection = some s.opened) (hsocket : c.socket.m_socket = some ends)
    (hreading : c.reading = (s.clients k).reading) :
    Sound P { (s.setClient k c).setConnection s.opened
      { client := some k, clientEnd := ends.1, serverEnd := ends.2 } with
      opened := s.opened + 1, pending := s.pending ++ [s.opened] } := by
  have hnew : s.connections s.opened = {} := h.fresh _ (Nat.le_refl _)
  have hold : ∀ {k' j}, (s.clients k').connection = some j → j ≠ s.opened := by
    intro k' j hj heq
    have howner := h.owner k' j hj
    rw [heq, hnew] at howner
    cases howner
  constructor
  · exact h.numbered
  · intro k' j hj
    show (Function.update s.connections s.opened _ j).client = some k'
    change ((s.setClient k c).clients k').connection = some j at hj
    rw [setClient_clients] at hj
    split_ifs at hj with hk
    · obtain rfl := Option.some.inj (hc.symm.trans hj)
      rw [Function.update_self, hk]
    · rw [Function.update_of_ne (hold hj)]
      exact h.owner k' j hj
  · intro k' j hj
    show ((s.setClient k c).clients k').socket.m_socket =
      some ((Function.update s.connections s.opened _ j).clientEnd,
        (Function.update s.connections s.opened _ j).serverEnd)
    change ((s.setClient k c).clients k').connection = some j at hj
    rw [setClient_clients] at hj ⊢
    split_ifs at hj ⊢ with hk
    · obtain rfl := Option.some.inj (hc.symm.trans hj)
      rw [Function.update_self, hsocket]
    · rw [Function.update_of_ne (hold hj)]
      exact h.connected k' j hj
  · intro j hj
    have hj : s.opened + 1 ≤ j := hj
    show Function.update s.connections s.opened _ j = {}
    rw [Function.update_of_ne (by omega)]
    exact h.fresh j (by omega)
  · intro j hj
    have hj : j < s.opened + 1 := hj
    show (Function.update s.connections s.opened _ j).client ≠ none
    by_cases hlast : j = s.opened
    · rw [hlast, Function.update_self]
      exact Option.some_ne_none k
    · rw [Function.update_of_ne hlast]
      exact h.owned j (by omega)
  · intro j hj
    show j < s.opened + 1
    rcases List.mem_append.mp hj with hj | hj
    · exact Nat.lt_succ_of_lt (h.waiting j hj)
    · rw [List.mem_singleton.mp hj]
      exact Nat.lt_succ_self _
  · refine h.up.congr (setConnection_apply TcpConnection.up ?_)
    show _ = (s.connections s.opened).up
    rw [hnew]
  · intro k'
    have hdown : Reading.Reads P (s.clients k').reading fun j =>
        (((s.setClient k c).setConnection s.opened
          { client := some k, clientEnd := ends.1, serverEnd := ends.2 }).connections j).downTo k' := by
      refine (h.down k').congr (setConnection_apply (TcpConnection.downTo k') ?_)
      show TcpConnection.downTo k' _ = (s.connections s.opened).downTo k'
      rw [hnew]
      unfold TcpConnection.downTo
      split <;> rfl
    show Reading.Reads P ((s.setClient k c).clients k').reading _
    rw [setClient_clients]
    split_ifs with hk
    · subst hk
      rw [hreading]
      exact hdown
    · exact hdown

theorem Sound.clientStep (h : Sound P s) (k : κ) (e : TcpClient.Event) :
    Sound P (s.clientStep k e) := by
  unfold TcpLink.clientStep
  dsimp only
  set socket := (s.clients k).socket.step (if s.server.isListening then e else e.refused)
    with hsocket
  cases hbefore : (s.clients k).socket.m_socket with
  | none =>
      cases hafter : socket.m_socket with
      | none => exact h.leave rfl rfl
      | some ends => exact h.connect rfl hafter rfl
  | some ends =>
      have hsame := TcpClient.step_m_socket (s.clients k).socket
        (if s.server.isListening then e else e.refused) (by rw [hbefore]; exact Option.some_ne_none ends)
      cases hafter : socket.m_socket with
      | none => exact h.leave rfl rfl
      | some ends' =>
          refine h.setClient rfl ?_ rfl
          rcases hsame with hsame | hsame
          · exact hsame
          · exact absurd (hafter.symm.trans hsame) (Option.some_ne_none _)

omit [DecidableEq κ] in
theorem clientWrites_eq (c : TcpConnection κ φ α) (msg : ToolsMessage φ α) {blocks : List DataSeq}
    (hblocks : blocks = [P.m_frame.encodeFramed msg] ∨ blocks = []) :
    ∃ ms, (∀ m ∈ ms, m = msg) ∧ c.clientWrites msg blocks =
      { c with up := c.up.writeAll P.m_frame.encodeFramed ms } := by
  rcases hblocks with rfl | rfl
  · exact ⟨[msg], fun m hm => List.mem_singleton.mp hm, rfl⟩
  · exact ⟨[], fun _ hm => absurd hm List.not_mem_nil, rfl⟩

theorem Sound.clientSend (h : Sound P s) (k : κ) (now : ℕ) {msg : ToolsMessage φ α}
    (hmsg : P.Carried msg) : Sound P (s.clientSend P k now msg) := by
  unfold TcpLink.clientSend
  cases hd : P.write now msg with
  | none => exact h
  | some d =>
      have hdata : d.m_data = P.m_frame.encodeFramed msg :=
        congrArg Prod.fst (hmsg.written P hd)
      obtain ⟨hsocket, hwritten⟩ := (s.clients k).socket.step_sendData now d
      have hclient := h.setClient (k := k)
        (c := { s.clients k with socket := (s.clients k).socket.step (.sendData now d) })
        rfl hsocket rfl
      dsimp only
      split
      · exact hclient
      · rename_i j hc
        have hj : j < s.opened := h.opened fun e => by
          have howner := h.owner k j hc
          rw [e] at howner
          cases howner
        set s₁ := s.setClient k
          { s.clients k with socket := (s.clients k).socket.step (.sendData now d) } with hs₁
        set blocks := ((s.clients k).socket.step (.sendData now d)).written.drop
          (s.clients k).socket.written.length
        have honce : blocks = [P.m_frame.encodeFramed msg] ∨ blocks = [] := by
          rw [hwritten, hdata]
          split
          · exact .inl rfl
          · exact .inr rfl
        obtain ⟨ms, hms, hwrites⟩ := clientWrites_eq (P := P) (s₁.connections j) msg honce
        rw [hwrites]
        refine hclient.of_same ⟨rfl, fun _ => ⟨rfl, rfl⟩, setConnection_apply TcpConnection.ends rfl⟩
          hclient.numbered (setConnection_fresh hclient.fresh hj) hclient.waiting ?_ fun k' => ?_
        · refine hclient.up.writeAll (w := fun i => if i = j then ms else []) ?_ ?_
          · intro i m hm
            split at hm
            · exact hms m hm ▸ hmsg
            · exact absurd hm List.not_mem_nil
          · intro i
            show (Function.update s₁.connections j _ i).up = _
            by_cases hi : i = j
            · rw [if_pos hi, hi, Function.update_self]
            · rw [if_neg hi, Function.update_of_ne hi]
              rfl
        · exact (hclient.down k').congr (setConnection_apply (TcpConnection.downTo k') rfl)

theorem Sound.clientRead (h : Sound P s) {k : κ} (n now : ℕ)
    (hrun : (s.clients k).socket.base.m_running = true)
    (hturn : ∀ j, (s.clients k).connection = some j → (s.clients k).reading.CanTurn j) :
    Sound P (s.clientRead P k n now) := by
  unfold TcpLink.clientRead
  dsimp only
  split
  · exact h
  · rename_i j hc
    have howner := h.owner k j hc
    have hj : j < s.opened := h.opened fun e => by
      rw [e] at howner
      cases howner
    have hstep : (s.clients k).socket.step (.readyRead now ((s.connections j).down.wire.take n)) =
        (s.clients k).socket.readFromSocket now
          ((s.connections j).clientEnd, (s.connections j).serverEnd)
          ((s.connections j).down.wire.take n) := by
      simp only [TcpClient.step, h.connected k j hc]
    have hown : (s.connections j).downTo k = (s.connections j).down := if_pos howner
    rw [hstep, TcpClient.readFromSocket, ToolsSocket.newReports_reportDataReceived, if_pos hrun]
    set d := ToolsSocket.stamped now
      (TcpSocket.dataInfo now (s.connections j).serverEnd (s.connections j).clientEnd
        ((s.connections j).down.wire.take n)) with hd
    have hdata : d.m_data = ((s.connections j).downTo k).wire.take n := by
      rw [hd, ToolsSocket.stamped_data, hown]
      rfl
    have hread := (h.down k).read (hturn j hc) n hdata
    rw [hown] at hread
    set x := (s.clients k).reading.read P j [d]
    refine h.of_same ⟨rfl, fun k' => ?_, setConnection_apply TcpConnection.ends rfl⟩ h.numbered
      (setConnection_fresh h.fresh hj) h.waiting ?_ fun k' => ?_
    · show ((s.setClient k _).clients k').connection = _ ∧
        ((s.setClient k _).clients k').socket.m_socket = _
      rw [setClient_clients]
      split_ifs with hk
      · rw [hk]
        exact ⟨rfl, rfl⟩
      · exact ⟨rfl, rfl⟩
    · exact h.up.congr (setConnection_apply TcpConnection.up rfl)
    · show Reading.Reads P ((s.setClient k _).clients k').reading _
      rw [setClient_clients]
      by_cases hk : k' = k
      · subst hk
        rw [if_pos rfl, setConnection_map (TcpConnection.downTo k')]
        have hnew : TcpConnection.downTo k' { s.connections j with
            down := (s.connections j).down.readPiece n x.2 } =
              (s.connections j).down.readPiece n x.2 := if_pos howner
        rw [hnew]
        exact hread
      · rw [if_neg hk]
        refine (h.down k').congr (setConnection_apply (TcpConnection.downTo k') ?_)
        have hother : ¬ (s.connections j).client = some k' := by
          rw [howner]
          exact fun e => hk (Option.some.inj e).symm
        show TcpConnection.downTo k' { s.connections j with
            down := (s.connections j).down.readPiece n x.2 } = (s.connections j).downTo k'
        unfold TcpConnection.downTo
        rw [if_neg hother, if_neg hother]

theorem Sound.step (h : Sound P s) {e : Event κ φ α} (he : Orderly P s e) :
    Sound P (s.step P e) := by
  cases e with
  | server e =>
      simp only [TcpLink.step]
      split
      · exact h.serverStep ‹_›
      · exact h
  | serverSend now msg => exact h.serverSend now he
  | accept peer => exact h.accept peer
  | serverRead j n now => exact h.serverRead n now he.1 he.2
  | client k e =>
      simp only [TcpLink.step]
      split
      · exact h.clientStep k e
      · exact h
  | clientSend k now msg => exact h.clientSend k now he
  | clientRead k n now => exact h.clientRead n now he.1 he.2

theorem run_sound {evs : List (Event κ φ α)} (h : Runs.Along (step P) new evs (Orderly P)) :
    Sound P (run P evs) :=
  Runs.along_invariant (fun _ _ hI he => hI.step he) sound_new h

/-- **What is sent arrives**: on every connection, in either direction, the messages read are the
first ones sent, in their order and none twice, and all of them once nothing is on the way. -/
theorem messages_arrive {evs : List (Event κ φ α)}
    (h : Runs.Along (step P) new evs (Orderly P)) (j : ℕ) :
    ((run P evs).connections j).up.Follows P.Arrives ∧
      ((run P evs).connections j).down.Follows P.Arrives := by
  have hsound := run_sound h
  refine ⟨hsound.up.shared.follows j, ?_⟩
  cases hc : ((run P evs).connections j).client with
  | none =>
      -- the connection has never been opened
      have hnew : (run P evs).connections j = {} := by
        refine hsound.fresh j ?_
        by_contra hlt
        exact hsound.owned j (by omega) hc
      rw [hnew]
      exact ⟨.nil, fun _ => rfl⟩
  | some k =>
      have hdown := (hsound.down k).shared.follows j
      rw [TcpConnection.downTo, if_pos hc] at hdown
      exact hdown

/-! ### Two clients -/

def serverAddress : Endpoint := ⟨"s".toList, 1⟩

/-- The first client sends before it is accepted, and its message is cut; the second one, whose
address is another one for the server, is connected when one of three messages has been sent and
accepted when two have been. -/
def sampleEvents : List (Event Bool Unit UInt8) :=
  [.server (.start true), .server (.socketConnect (some serverAddress)),
    .client false (.start true),
    .client false (.socketConnect (some (⟨"a".toList, 2⟩, serverAddress))),
    .clientSend false 1 { body := .prot () 1 }, .accept ⟨"a".toList, 2⟩,
    .serverSend 2 { body := .prot () 2 }, .client true (.start true),
    .client true (.socketConnect (some (⟨"b".toList, 3⟩, serverAddress))),
    .serverSend 3 { body := .prot () 3 }, .accept ⟨"n".toList, 4⟩,
    .serverSend 4 { body := .prot () 4 },
    .serverRead 0 1 5, .serverRead 0 1 6, .clientSend true 7 { body := .prot () 5 },
    .serverRead 1 2 8, .clientRead false 3 9, .clientRead true 2 10, .clientRead false 3 11]

theorem sample_carried (c : UInt8) :
    EchoSocket.sampleProtocol.Carried { body := .prot () c } := by
  have hid : ToolsMessage.idAsString EchoSocket.sampleProtocol.classes
      { body := .prot () c } = ToolsMessage.idAsString EchoSocket.sampleProtocol.classes
      { body := .prot () 0 } := rfl
  refine ⟨?_, (), c, _, rfl, ToolsFrame.roundTrips_syncFrame c⟩
  rw [hid]
  decide

theorem sampleEvents_orderly : Runs.Along (step EchoSocket.sampleProtocol) new sampleEvents
    (Orderly EchoSocket.sampleProtocol) := by
  unfold sampleEvents
  simp only [Runs.along_cons]
  refine ⟨trivial, trivial, trivial, trivial, sample_carried 1, trivial, sample_carried 2, trivial,
    trivial, sample_carried 3, trivial, sample_carried 4, ?_, ?_, sample_carried 5, ?_, ?_, ?_, ?_,
    Runs.along_nil⟩
  · exact ⟨rfl, .inr rfl⟩
  · exact ⟨rfl, .inl rfl⟩
  · exact ⟨rfl, .inr rfl⟩
  · exact ⟨rfl, fun j hj => .inr rfl⟩
  · exact ⟨rfl, fun j hj => .inr rfl⟩
  · refine ⟨rfl, fun j hj => .inl ?_⟩
    obtain rfl : 0 = j := Option.some.inj hj
    rfl

theorem messages_arrive_sample :
    let c := (run EchoSocket.sampleProtocol sampleEvents).connections
    ((c 0).up.Follows EchoSocket.sampleProtocol.Arrives ∧
      (c 0).down.Follows EchoSocket.sampleProtocol.Arrives) ∧
      (c 0).down.read.length = 3 ∧ (c 1).down.read.length = 1 := by
  refine ⟨messages_arrive sampleEvents_orderly 0, ?_, ?_⟩
  · rfl
  · rfl

/-- Why a protocol object has to be finished with a connection: one that ends behind the first byte
of a message leaves its client with this byte, and on the next connection the client reads another
message than the one sent. -/
example :
    let evs : List (Event Unit Unit UInt8) :=
      [.server (.start true), .server (.socketConnect (some serverAddress)),
        .client () (.start true),
        .client () (.socketConnect (some (⟨"a".toList, 2⟩, serverAddress))),
        .accept ⟨"a".toList, 2⟩, .serverSend 1 { body := .prot () 1 }, .clientRead () 1 2,
        .client () .disconnected,
        .client () (.socketConnect (some (⟨"a".toList, 3⟩, serverAddress))),
        .accept ⟨"a".toList, 3⟩, .serverSend 3 { body := .prot () 2 }, .clientRead () 2 4]
    (((run EchoSocket.sampleProtocol evs).connections 1).down.read.map fun m => m.body) =
      [.prot () syncByte] := by
  rfl

end TcpLink

end CcToolsQt
