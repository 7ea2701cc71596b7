import CcToolsQt.LinkRuns

/-! # Where the messages of the clients come from

* `messages_name_origin`: whatever the applications do, a message says that it comes from the other
  end of the connection it was read of, as its reader sees that end, though the connections of a
  server share its protocol object. -/

namespace CcToolsQt

/-- The message says that it comes from an address. -/
def ToolsMessage.From {φ α : Type} (m : ToolsMessage φ α) (e : Endpoint) : Prop :=
  QVariantMap.value Endpoint.tcpFromProp m.getExtraInfo = .string e.text

/-- What is read of the bytes of a peer comes from this peer. -/
theorem Reading.read_from {φ α : Type} {P : ToolsProtocol φ α} (r : Reading) (j : ℕ)
    (b : ToolsSocket) (now : ℕ) (src dst : Endpoint) (data : DataSeq) :
    ∀ m ∈ (r.read P j
      (b.newReports (b.reportDataReceived now (TcpSocket.dataInfo now src dst data)))).2,
      m.From src := by
  intro m hm
  rw [ToolsSocket.newReports_reportDataReceived] at hm
  split_ifs at hm
  · have hprops : (ToolsSocket.stamped now (TcpSocket.dataInfo now src dst data)).m_extraProperties =
        QVariantMap.insert Endpoint.tcpToProp (.string dst.text)
          (QVariantMap.insert Endpoint.tcpFromProp (.string src.text) []) := by
      unfold ToolsSocket.stamped
      split <;> rfl
    have hfrom : QVariantMap.value Endpoint.tcpFromProp
        (ToolsSocket.stamped now (TcpSocket.dataInfo now src dst data)).m_extraProperties =
          .string src.text := by
      rw [hprops, QVariantMap.value_insert_of_ne (by decide), QVariantMap.value_insert_self]
    unfold ToolsMessage.From
    rw [Reading.read_extraInfo (P := P) r j ?_ hm]
    · exact hfrom
    · intro hnil
      rw [hnil] at hfrom
      cases hfrom
  · exact absurd hm List.not_mem_nil

/-- What has been read of a connection comes from its other end. -/
structure TcpConnection.Truthful {κ φ α : Type} (c : TcpConnection κ φ α) : Prop where
  up : ∀ m ∈ c.up.read, m.From c.peer
  down : ∀ m ∈ c.down.read, m.From c.serverEnd

namespace TcpLink
variable {κ φ α : Type} {P : ToolsProtocol φ α} {s s' : TcpLink κ φ α}

theorem setConnection_truthful (h : ∀ i, (s.connections i).Truthful) {j : ℕ}
    {c : TcpConnection κ φ α} (hc : c.Truthful) (i : ℕ) :
    ((s.setConnection j c).connections i).Truthful := by
  unfold setConnection
  dsimp only
  by_cases hi : i = j
  · rw [hi, Function.update_self]
    exact hc
  · rw [Function.update_of_ne hi]
    exact h i

/-- The server knows the ends of its connections, and the messages tell them. -/
structure Named (s : TcpLink κ φ α) : Prop where
  listening : s.pending ≠ [] → s.server.isListening = true
  nodup : s.pending.Nodup
  waiting : ∀ j ∈ s.pending, (s.connections j).id = none
  numbers : ∀ j i, (s.connections j).id = some i → i < s.server.accepted
  peer : ∀ c ∈ s.server.m_sockets, ∀ j, (s.connections j).id = some c.id →
    c.peer = (s.connections j).peer
  unread : ∀ j, (s.connections j).id = none → (s.connections j).up.read = []
  truthful : ∀ j, (s.connections j).Truthful

theorem named_new : Named (new : TcpLink κ φ α) where
  listening h := absurd rfl h
  nodup := List.nodup_nil
  waiting j hj := absurd hj List.not_mem_nil
  numbers j i h := by cases h
  peer c hc := absurd hc List.not_mem_nil
  unread j _ := rfl
  truthful j := ⟨fun m hm => absurd hm List.not_mem_nil, fun m hm => absurd hm List.not_mem_nil⟩

/-- The connections are the same ones. -/
theorem Named.of_same (h : Named s)
    (hserver : s'.server.accepted = s.server.accepted ∧
      ∀ c ∈ s'.server.m_sockets, c ∈ s.server.m_sockets)
    (hlistening : s'.pending ≠ [] → s'.server.isListening = true)
    (hpending : s'.pending.Sublist s.pending)
    (hconn : ∀ j, ((s'.connections j).id, (s'.connections j).peer) =
      ((s.connections j).id, (s.connections j).peer))
    (hread : ∀ j, (s.connections j).id = none →
      (s'.connections j).up.read = (s.connections j).up.read)
    (htruthful : ∀ j, (s'.connections j).Truthful) : Named s' where
  listening := hlistening
  nodup := h.nodup.sublist hpending
  waiting j hj := (congrArg Prod.fst (hconn j)).trans (h.waiting j (hpending.subset hj))
  unread j hj := by
    have hold : (s.connections j).id = none := (congrArg Prod.fst (hconn j)).symm.trans hj
    rw [hread j hold]
    exact h.unread j hold
  numbers j i hj := by
    rw [hserver.1]
    exact h.numbers j i ((congrArg Prod.fst (hconn j)).symm.trans hj)
  peer c hc j hj := by
    have hclient := h.peer c (hserver.2 c hc) j ((congrArg Prod.fst (hconn j)).symm.trans hj)
    exact hclient.trans (congrArg Prod.snd (hconn j)).symm
  truthful := htruthful

/-! ### One event -/

theorem Named.serverStep (h : Named s) {e : TcpServer.Event} (he : e.isLocal = true) :
    Named (s.serverStep e) := by
  obtain ⟨haccepted, hsockets⟩ := s.server.step_isLocal he
  refine h.of_same ⟨haccepted, fun c hc => hsockets.subset hc⟩ ?_ ?_ (fun _ => rfl)
    (fun _ _ => rfl) h.truthful
  · unfold TcpLink.serverStep
    dsimp only
    split
    · exact fun _ => ‹_›
    · exact fun hp => absurd rfl hp
  · unfold TcpLink.serverStep
    dsimp only
    split
    · exact List.Sublist.refl _
    · exact List.nil_sublist _

variable [DecidableEq κ]

theorem Named.serverSend (h : Named s) (hsound : Sound P s) (now : ℕ) {msg : ToolsMessage φ α}
    (hmsg : P.Carried msg) : Named (s.serverSend P now msg) := by
  have hconn := serverSend_connections hsound now hmsg
  choose w _ _ _ hconn using hconn
  have hserver : (s.serverSend P now msg).server.accepted = s.server.accepted ∧
      (∀ c ∈ (s.serverSend P now msg).server.m_sockets, c ∈ s.server.m_sockets) ∧
      (s.serverSend P now msg).server.isListening = s.server.isListening ∧
      (s.serverSend P now msg).pending = s.pending := by
    unfold TcpLink.serverSend
    cases P.write now msg with
    | none => exact ⟨rfl, fun _ hc => hc, rfl, rfl⟩
    | some d =>
        obtain ⟨haccepted, hsockets, -⟩ := s.server.step_sendData now d
        refine ⟨haccepted, fun c hc => hsockets ▸ hc, ?_, rfl⟩
        simp only [TcpServer.step, TcpServer.sendData]
        split <;> rfl
  obtain ⟨haccepted, hsockets, hlistening, hpending⟩ := hserver
  refine h.of_same ⟨haccepted, hsockets⟩ ?_ (hpending ▸ List.Sublist.refl _) (fun j => ?_)
    (fun j _ => ?_) fun j => ?_
  · rw [hlistening, hpending]
    exact h.listening
  · rw [hconn j]
  · rw [hconn j]
  · rw [hconn j]
    refine ⟨(h.truthful j).up, fun m hm => (h.truthful j).down m ?_⟩
    rw [Channel.writeAll, Channel.foldl_write_read] at hm
    exact hm

omit [DecidableEq κ] in
/-- The number of an accepted connection is new, and nothing has been read of it. -/
theorem Named.accept (h : Named s) (hnumbered : s.server.Numbered) (peer : Endpoint) :
    Named (s.accept peer) := by
  unfold TcpLink.accept
  cases hp : s.pending with
  | nil => exact h
  | cons j pending =>
      have hj : j ∈ s.pending := hp ▸ List.mem_cons_self
      have hlistening : s.server.isListening = true := h.listening (List.ne_nil_of_mem hj)
      have hnodup : (j :: pending).Nodup := hp ▸ h.nodup
      have hstep : s.server.step (.newConnection peer) = s.server.newConnection peer := by
        simp only [TcpServer.step, hlistening, if_true]
      dsimp only
      rw [hstep]
      constructor
      · exact fun _ => hlistening
      · exact hnodup.of_cons
      · intro i hi
        have hij : i ≠ j := fun heq => (List.nodup_cons.mp hnodup).1 (heq ▸ hi)
        show (Function.update s.connections j _ i).id = none
        rw [Function.update_of_ne hij]
        exact h.waiting i (hp ▸ List.mem_cons_of_mem j hi)
      · intro i n hi
        show n < s.server.accepted + 1
        change (Function.update s.connections j _ i).id = some n at hi
        by_cases hij : i = j
        · rw [hij, Function.update_self] at hi
          obtain rfl := Option.some.inj hi
          exact Nat.lt_succ_self _
        · rw [Function.update_of_ne hij] at hi
          exact Nat.lt_succ_of_lt (h.numbers i n hi)
      · intro c hc i hi
        show c.peer = (Function.update s.connections j _ i).peer
        change (Function.update s.connections j _ i).id = some c.id at hi
        rcases List.mem_append.mp hc with hc | hc
        · have hlt := hnumbered.given c hc
          by_cases hij : i = j
          · rw [hij, Function.update_self] at hi
            rw [← Option.some.inj hi] at hlt
            exact absurd hlt (Nat.lt_irrefl _)
          · rw [Function.update_of_ne hij] at hi ⊢
            exact h.peer c hc i hi
        · obtain rfl := List.mem_singleton.mp hc
          by_cases hij : i = j
          · rw [hij, Function.update_self]
          · rw [Function.update_of_ne hij] at hi
            exact absurd (h.numbers i _ hi) (Nat.lt_irrefl _)
      · exact fun i hi => by
          change (Function.update s.connections j _ i).id = none at hi
          show (Function.update s.connections j _ i).up.read = []
          by_cases hij : i = j
          · rw [hij, Function.update_self] at hi
            cases hi
          · rw [Function.update_of_ne hij] at hi ⊢
            exact h.unread i hi
      · refine setConnection_truthful (s := s) h.truthful ⟨fun m hm => ?_, (h.truthful j).down⟩
        have hnone : (s.connections j).up.read = [] := h.unread j (h.waiting j hj)
        change m ∈ (s.connections j).up.read at hm
        rw [hnone] at hm
        exact absurd hm List.not_mem_nil

omit [DecidableEq κ] in
theorem Named.serverRead (h : Named s) (j n now : ℕ) : Named (s.serverRead P j n now) := by
  unfold TcpLink.serverRead
  dsimp only
  cases hc : (s.connections j).id.bind fun i => Pool.find TcpServer.Client.id i s.server.m_sockets
    with
  | none => exact h
  | some client =>
      obtain ⟨i, hid, hfind⟩ := Option.bind_eq_some_iff.mp hc
      obtain ⟨hmem, rfl⟩ := Pool.find_mem hfind
      dsimp only
      rw [TcpServer.step_readyRead hfind, TcpServer.readFromSocket, h.peer client hmem j hid]
      refine h.of_same ⟨rfl, fun _ hc => hc⟩ h.listening (List.Sublist.refl _)
        (setConnection_apply (fun c => (c.id, c.peer)) rfl) (fun i hi => ?_)
        (setConnection_truthful (s := s) h.truthful ⟨?_, (h.truthful j).down⟩)
      · -- the connection that is read has a number
        have hij : i ≠ j := by
          rintro rfl
          exact absurd (hi.symm.trans hid) (Option.some_ne_none _).symm
        show (Function.update s.connections j _ i).up.read = _
        rw [Function.update_of_ne hij]
      · intro m hm
        rcases List.mem_append.mp hm with hm | hm
        · exact (h.truthful j).up m hm
        · exact Reading.read_from _ _ _ _ _ _ _ m hm

/-- What a client does, as long as it does not get on a new connection. -/
theorem Named.setClient (h : Named s) (k : κ) (c : LinkClient) : Named (s.setClient k c) :=
  h.of_same ⟨rfl, fun _ hc => hc⟩ h.listening (List.Sublist.refl _) (fun _ => rfl) (fun _ _ => rfl)
    h.truthful

theorem Named.connect (h : Named s) {k : κ} (c : LinkClient) (ends : Endpoint × Endpoint)
    (hwaiting : ∀ j ∈ s.pending, j < s.opened) (hnew : s.connections s.opened = {})
    (hlistening : s.server.isListening = true) :
    Named { (s.setClient k c).setConnection s.opened
      { client := some k, clientEnd := ends.1, serverEnd := ends.2 } with
      opened := s.opened + 1, pending := s.pending ++ [s.opened] } := by
  have hsame := setConnection_apply (s := s.setClient k c) (j := s.opened)
    (c := { client := some k, clientEnd := ends.1, serverEnd := ends.2 })
    (fun c => (c.id, c.peer, c.up.read)) (by
      show _ = ((s.connections s.opened).id, (s.connections s.opened).peer,
        (s.connections s.opened).up.read)
      rw [hnew])
  have hid := fun j => congrArg (·.1) (hsame j)
  have hread := fun j => congrArg (·.2.2) (hsame j)
  constructor
  · exact fun _ => hlistening
  · refine List.nodup_append.mpr ⟨h.nodup, List.nodup_singleton _, fun j hj i hi => ?_⟩
    obtain rfl := List.mem_singleton.mp hi
    exact Nat.ne_of_lt (hwaiting j hj)
  · intro j hj
    refine (hid j).trans ?_
    rcases List.mem_append.mp hj with hj | hj
    · exact h.waiting j hj
    · obtain rfl := List.mem_singleton.mp hj
      show (s.connections s.opened).id = none
      rw [hnew]
  · exact fun j i hj => h.numbers j i ((hid j).symm.trans hj)
  · exact fun client hclient j hj => (h.peer client hclient j ((hid j).symm.trans hj)).trans
      (congrArg (·.2.1) (hsame j)).symm
  · exact fun j hj => (hread j).trans (h.unread j ((hid j).symm.trans hj))
  · exact setConnection_truthful (s := s.setClient k c) h.truthful
      ⟨fun m hm => absurd hm List.not_mem_nil, fun m hm => absurd hm List.not_mem_nil⟩

/-- Nobody gets connected while nobody listens. -/
theorem step_refused {c : TcpClient} (hc : c.m_socket = none) (e : TcpClient.Event) :
    (c.step e.refused).m_socket = none := by
  cases e with
  | start startImpl => exact hc
  | stop =>
      simp only [TcpClient.Event.refused, TcpClient.step, TcpClient.stop]
      split
      · rfl
      · exact hc
  | socketConnect connected =>
      simp only [TcpClient.Event.refused, TcpClient.step, TcpClient.socketConnect,
        TcpClient.socketConnectImpl, hc]
      split
      · contradiction
      · split
        · rfl
        · exact (TcpClient.withHost_m_socket c).trans hc
  | socketDisconnect => rfl
  | sendData now d => exact (TcpClient.step_sendData c now d).1.trans hc
  | readyRead now data => simp only [TcpClient.Event.refused, TcpClient.step, hc]
  | disconnected => rfl
  | socketError errorString lost =>
      cases lost
      · exact hc
      · rfl

theorem Named.clientStep (h : Named s) (hsound : Sound P s) (k : κ) (e : TcpClient.Event) :
    Named (s.clientStep k e) := by
  unfold TcpLink.clientStep
  dsimp only
  cases hbefore : (s.clients k).socket.m_socket with
  | none =>
      cases hafter : ((s.clients k).socket.step
          (if s.server.isListening then e else e.refused)).m_socket with
      | none => exact h.setClient k _
      | some ends =>
          refine h.connect _ ends hsound.waiting (hsound.fresh _ (Nat.le_refl _)) ?_
          by_contra hclosed
          rw [if_neg hclosed, step_refused hbefore] at hafter
          cases hafter
  | some ends =>
      cases ((s.clients k).socket.step
          (if s.server.isListening then e else e.refused)).m_socket with
      | none => exact h.setClient k _
      | some ends' => exact h.setClient k _

theorem Named.clientSend (h : Named s) (k : κ) (now : ℕ) (msg : ToolsMessage φ α) :
    Named (s.clientSend P k now msg) := by
  unfold TcpLink.clientSend
  cases P.write now msg with
  | none => exact h
  | some d =>
      have hclient := h.setClient k
        { s.clients k with socket := (s.clients k).socket.step (.sendData now d) }
      dsimp only
      split
      · exact hclient
      · rename_i j hc
        refine hclient.of_same ⟨rfl, fun _ hc => hc⟩ hclient.listening (List.Sublist.refl _)
          (setConnection_apply (fun c => (c.id, c.peer)) rfl)
          (fun i _ => ?_)
          (setConnection_truthful hclient.truthful ⟨fun m hm => ?_, (h.truthful j).down⟩)
        · apply setConnection_apply (fun c => c.up.read)
          exact Channel.foldl_write_read (fun _ => msg) id _ _
        · rw [TcpConnection.clientWrites, Channel.foldl_write_read] at hm
          exact (h.truthful j).up m hm

theorem Named.clientRead (h : Named s) (hsound : Sound P s) (k : κ) (n now : ℕ) :
    Named (s.clientRead P k n now) := by
  unfold TcpLink.clientRead
  dsimp only
  split
  · exact h
  · rename_i j hc
    have hstep : (s.clients k).socket.step (.readyRead now ((s.connections j).down.wire.take n)) =
        (s.clients k).socket.readFromSocket now
          ((s.connections j).clientEnd, (s.connections j).serverEnd)
          ((s.connections j).down.wire.take n) := by
      simp only [TcpClient.step, hsound.connected k j hc]
    rw [hstep, TcpClient.readFromSocket]
    refine (h.setClient k _).of_same ⟨rfl, fun _ hc => hc⟩ h.listening (List.Sublist.refl _)
      (setConnection_apply (fun c => (c.id, c.peer)) rfl) (fun i _ => ?_)
      (setConnection_truthful (s := s.setClient k _) h.truthful ⟨(h.truthful j).up, ?_⟩)
    · apply setConnection_apply (fun c => c.up.read)
      rfl
    · intro m hm
      rcases List.mem_append.mp hm with hm | hm
      · exact (h.truthful j).down m hm
      · exact Reading.read_from _ _ _ _ _ _ _ m hm

theorem Named.step (h : Named s) (hsound : Sound P s) {e : Event κ φ α} (he : Orderly P s e) :
    Named (s.step P e) := by
  cases e with
  | server e =>
      simp only [TcpLink.step]
      split
      · exact h.serverStep ‹_›
      · exact h
  | serverSend now msg => exact h.serverSend hsound now he
  | accept peer => exact h.accept hsound.numbered peer
  | serverRead j n now => exact h.serverRead j n now
  | client k e =>
      simp only [TcpLink.step]
      split
      · exact h.clientStep hsound k e
      · exact h
  | clientSend k now msg => exact h.clientSend k now msg
  | clientRead k n now => exact h.clientRead hsound k n now

/-- **Messages name their origin**: in every such run, what has been read of a connection says that
it comes from the other end of this connection. -/
theorem messages_name_origin {evs : List (Event κ φ α)}
    (h : Runs.Along (TcpLink.step P) new evs (Orderly P)) (j : ℕ) :
    ((run P evs).connections j).Truthful := by
  have hboth : Sound P (run P evs) ∧ Named (run P evs) :=
    Runs.along_invariant (I := fun s => Sound P s ∧ Named s)
      (fun _ _ hI he => ⟨hI.1.step he, hI.2.step hI.1 he⟩) ⟨sound_new, named_new⟩ h
  exact hboth.2.truthful j

theorem messages_name_origin_sample :
    let c := (run EchoSocket.sampleProtocol sampleEvents).connections
    (c 0).Truthful ∧ (c 0).up.read.length = 1 ∧ (c 1).Truthful ∧ (c 1).up.read.length = 1 := by
  refine ⟨messages_name_origin sampleEvents_orderly 0, ?_,
    messages_name_origin sampleEvents_orderly 1, ?_⟩
  · rfl
  · rfl

end TcpLink

end CcToolsQt
