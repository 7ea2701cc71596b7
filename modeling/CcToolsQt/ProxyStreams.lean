import CcToolsQt.TcpProxy

/-! # The streams of the TCP proxy

What one end of a proxied connection sends is what the other end gets, up to the bytes of a client
that wait for the connection to the remote.

* `Relays` is what the events of one connection do: bytes arrive, bytes are passed on, the rest
  stays unread, and the other connections are left alone.
* `transparent_iff`: when the proxy is transparent in all of a run. -/

namespace CcToolsQt

namespace TcpProxy

/-! ### The streams -/

/-- The bytes a use writes to the other socket of the pair. -/
def Use.forward : Use → Option (Side × DataSeq)
  | .forwarded writeTo data => some (writeTo, data)
  | _ => none

/-- The bytes a use reports, with the socket they are written to. -/
def Use.report : Use → Option (Side × DataSeq)
  | .reported readFrom d => some (readFrom.other, d.m_data)
  | _ => none

/-- What has been passed on, with the socket it was written to. -/
def forwards (s : TcpProxy) : List ((ℕ × Side) × DataSeq) :=
  s.trace.filterMap fun u => u.2.forward.map fun f => ((u.1, f.1), f.2)

/-- What has been reported, with the socket it was written to. -/
def reports (s : TcpProxy) : List ((ℕ × Side) × DataSeq) :=
  s.trace.filterMap fun u => u.2.report.map fun r => ((u.1, r.1), r.2)

/-- The bytes that have arrived at a socket. -/
def bytesFrom (s : TcpProxy) (i : ℕ) (side : Side) : DataSeq :=
  (Mux.own (i, side) s.arrived).flatten

/-- The bytes that have been passed on to a socket. -/
def bytesTo (s : TcpProxy) (i : ℕ) (side : Side) : DataSeq :=
  (Mux.own (i, side) s.forwards).flatten

/-- The bytes of a client that wait for the connection to the remote. -/
def waiting (s : TcpProxy) (i : ℕ) : DataSeq :=
  match s.pair i with
  | some pair => if pair.second.connected then [] else pair.first.unread
  | none => []

/-- The proxy is **transparent**: all bytes of a client that do not wait have been written to its
own remote, all bytes of a remote to its own client, once, in order and nothing else; every chunk
written has been reported; no assertion of a slot has failed. -/
structure Transparent (s : TcpProxy) : Prop where
  toRemote : ∀ i, s.bytesFrom i .client = s.bytesTo i .remote ++ s.waiting i
  toClient : ∀ i, s.bytesFrom i .remote = s.bytesTo i .client
  reported : s.reports = s.forwards
  asserted : s.asserted = false

/-- No client closes while its bytes wait. -/
def KeepsWaiting (s : TcpProxy) : Event → Prop
  | .clientClosed i => s.waiting i = []
  | _ => True

/-! ### The invariant -/

/-- The bytes of a socket that have not been read. -/
def unread (s : TcpProxy) (i : ℕ) (side : Side) : DataSeq :=
  match s.pair i with
  | some pair => (pair.socket side).unread
  | none => []

/-- Nothing is unread but bytes that wait. -/
structure ConnectedPair.Settled (pair : ConnectedPair) : Prop where
  ready : pair.readyRead = pair.second.connected
  client : pair.second.connected = true → pair.first.unread = []
  remote : pair.second.unread = []

structure Inv (s : TcpProxy) : Prop where
  nodup : s.view.live.Nodup
  lt : ∀ i ∈ s.view.live, i < s.accepted
  settled : ∀ {i pair}, s.pair i = some pair → pair.Settled
  reported : s.reports = s.forwards
  asserted : s.asserted = false

/-- No byte is lost. -/
def Conserved (s : TcpProxy) : Prop :=
  ∀ i side, s.bytesFrom i side = s.bytesTo i side.other ++ s.unread i side

section
variable {s : TcpProxy}

theorem Inv.unread_client (hi : Inv s) (i : ℕ) : s.unread i .client = s.waiting i := by
  unfold unread waiting
  cases hp : s.pair i with
  | none => rfl
  | some pair =>
      dsimp only
      split
      · exact (hi.settled hp).client ‹_›
      · rfl

theorem Inv.unread_remote (hi : Inv s) (i : ℕ) : s.unread i .remote = [] := by
  unfold unread
  cases hp : s.pair i with
  | none => rfl
  | some pair => exact (hi.settled hp).remote

theorem Inv.transparent_iff_conserved (hi : Inv s) : Transparent s ↔ Conserved s := by
  constructor
  · intro h i side
    cases side with
    | client => exact hi.unread_client i ▸ h.toRemote i
    | remote =>
        rw [hi.unread_remote, List.append_nil]
        exact h.toClient i
  · intro h
    refine ⟨fun i => ?_, fun i => ?_, hi.reported, hi.asserted⟩
    · rw [← hi.unread_client]
      exact h i .client
    · have hremote := h i .remote
      rwa [hi.unread_remote, List.append_nil] at hremote

end

/-! ### The events of one connection -/

/-- What the events of connection `i` do: of what was unread and what has arrived, a part is passed
on and the rest is unread. -/
structure Relays (i : ℕ) (s s' : TcpProxy) : Prop where
  view : Pool.View.UsedBy i s.view s'.view
  pair : ∀ j, j ≠ i → s'.pair j = s.pair j
  streams : ∀ side, ∃ new passed, s'.bytesFrom i side = s.bytesFrom i side ++ new ∧
    s'.bytesTo i side.other = s.bytesTo i side.other ++ passed ∧
      s.unread i side ++ new = passed ++ s'.unread i side
  others : ∀ j side, j ≠ i → s'.bytesFrom j side = s.bytesFrom j side ∧
    s'.bytesTo j side = s.bytesTo j side
  reported : s.reports = s.forwards → s'.reports = s'.forwards
  asserted : s'.asserted = s.asserted

namespace Relays
variable {i : ℕ} {s s' s'' : TcpProxy}

theorem refl (i : ℕ) (s : TcpProxy) : Relays i s s where
  view := .refl _ _
  pair _ _ := rfl
  streams _ := ⟨[], [], (List.append_nil _).symm, (List.append_nil _).symm, List.append_nil _⟩
  others _ _ _ := ⟨rfl, rfl⟩
  reported hr := hr
  asserted := rfl

theorem trans (h : Relays i s s') (h' : Relays i s' s'') : Relays i s s'' where
  view := h.view.trans h'.view
  pair j hj := (h'.pair j hj).trans (h.pair j hj)
  streams side := by
    obtain ⟨new, passed, hfrom, hto, heq⟩ := h.streams side
    obtain ⟨new', passed', hfrom', hto', heq'⟩ := h'.streams side
    refine ⟨new ++ new', passed ++ passed', ?_, ?_, ?_⟩
    · rw [hfrom', hfrom, List.append_assoc]
    · rw [hto', hto, List.append_assoc]
    · rw [← List.append_assoc, heq, List.append_assoc, heq', List.append_assoc]
  others j side hj :=
    ⟨((h'.others j side hj).1).trans (h.others j side hj).1,
      ((h'.others j side hj).2).trans (h.others j side hj).2⟩
  reported hr := h'.reported (h.reported hr)
  asserted := h'.asserted.trans h.asserted

/-- The pair changes in something else than the bytes that are unread. -/
theorem of_mapPair {f : ConnectedPair → ConnectedPair} (hid : ∀ pair, (f pair).id = pair.id)
    (hf : ∀ pair side, ((f pair).socket side).unread = (pair.socket side).unread) :
    Relays i s (s.mapPair i f) where
  view := by
    rw [s.mapPair_view i hid]
    exact .refl _ _
  pair j hj := by rw [mapPair_pair _ _ hid, if_neg hj]
  streams side := by
    refine ⟨[], [], (List.append_nil _).symm, (List.append_nil _).symm, ?_⟩
    unfold unread
    rw [mapPair_pair _ _ hid, if_pos rfl]
    cases s.pair i with
    | none => rfl
    | some pair => simpa using (hf pair side).symm
  others j side _ := ⟨rfl, rfl⟩
  reported hr := hr
  asserted := rfl

theorem unread_of_ne (h : Relays i s s') {j : ℕ} (hj : j ≠ i) (side : Side) :
    s'.unread j side = s.unread j side := by
  unfold unread
  rw [h.pair j hj]

/-- No byte is lost or made up. -/
theorem conserved (h : Relays i s s') (hs : Conserved s) : Conserved s' := by
  intro j side
  by_cases hj : j = i
  · subst hj
    obtain ⟨new, passed, hfrom, hto, heq⟩ := h.streams side
    rw [hfrom, hto, hs, List.append_assoc, heq, List.append_assoc]
  · obtain ⟨hfrom, -⟩ := h.others j side hj
    obtain ⟨-, hto⟩ := h.others j side.other hj
    rw [hfrom, hto, h.unread_of_ne hj, hs]

theorem inv (h : Relays i s s') (hi : Inv s)
    (hset : ∀ {pair}, s'.pair i = some pair → pair.Settled) : Inv s' := by
  obtain ⟨new, hview, -⟩ := h.view
  have hlive : s'.view.live = s.view.live := by rw [hview]
  have hnext : s'.accepted = s.accepted := congrArg Pool.View.next hview
  refine ⟨hlive ▸ hi.nodup, fun j hj => ?_, fun {j pair} hp => ?_, h.reported hi.reported,
    h.asserted.trans hi.asserted⟩
  · rw [hnext]
    exact hi.lt j (hlive ▸ hj)
  · by_cases hj : j = i
    · exact hset (hj ▸ hp)
    · exact hi.settled (h.pair j hj ▸ hp)

end Relays

section
variable {s : TcpProxy} {now i : ℕ} {pair : ConnectedPair} {side : Side} {data : DataSeq}

theorem unread_eq (hp : s.pair i = some pair) (side : Side) :
    s.unread i side = (pair.socket side).unread := by
  unfold unread
  rw [hp]

theorem arrive_bytesFrom (j : ℕ) (side' : Side) :
    (s.arrive i side data).bytesFrom j side' =
      s.bytesFrom j side' ++ if j = i ∧ side' = side then data else [] := by
  show (Mux.own (j, side') (s.arrived ++ [((i, side), data)])).flatten = _
  rw [Mux.flatten_own_concat]
  simp only [Prod.mk.injEq, eq_comm]
  rfl

/-- Bytes arrive. -/
theorem arrive_relays (hp : s.pair i = some pair) : Relays i s (s.arrive i side data) where
  view := by
    rw [arrive_view]
    exact .refl _ _
  pair j hj := by rw [arrive_pair, if_neg hj]
  streams side' := by
    have hp' : (s.arrive i side data).pair i =
        some (pair.mapSocket (QTcpSocket.filled data) side) := by
      rw [arrive_pair, if_pos rfl, hp]
      rfl
    refine ⟨_, [], arrive_bytesFrom i side', (List.append_nil _).symm, ?_⟩
    rw [unread_eq hp, unread_eq hp', socket_mapSocket]
    by_cases hside : side' = side
    · simp [hside, QTcpSocket.filled]
    · simp [hside]
  others j side' hj := by
    refine ⟨?_, rfl⟩
    rw [arrive_bytesFrom, if_neg fun h => hj h.1, List.append_nil]
  reported hr := hr
  asserted := rfl

theorem performReadWrite_asserted :
    (s.performReadWrite now pair side).asserted = s.asserted ∧
      (s.performReadWrite now pair side).arrived = s.arrived := by
  unfold performReadWrite
  dsimp only
  split
  · exact ⟨rfl, rfl⟩
  · exact ⟨rfl, rfl⟩

/-- What is passed on is reported. -/
theorem performReadWrite_reports (hr : s.reports = s.forwards) :
    (s.performReadWrite now pair side).reports = (s.performReadWrite now pair side).forwards := by
  unfold performReadWrite
  dsimp only
  split
  · exact hr
  · show List.filterMap _ (s.trace ++ _) = List.filterMap _ (s.trace ++ _)
    rw [List.filterMap_append, List.filterMap_append]
    exact congrArg (· ++ _) hr

theorem performReadWrite_bytesTo (j : ℕ) (side' : Side) :
    (s.performReadWrite now pair side).bytesTo j side' =
      s.bytesTo j side' ++
        if j = pair.id ∧ side' = side.other then (pair.socket side).unread else [] := by
  unfold performReadWrite
  dsimp only
  split
  · have hnil : (pair.socket side).unread = [] := List.isEmpty_iff.mp ‹_›
    simp [hnil]
  · show (Mux.own (j, side') (List.filterMap _ (s.trace ++ _))).flatten = _
    rw [List.filterMap_append]
    show (Mux.own (j, side')
      (s.forwards ++ [((pair.id, side.other), (pair.socket side).unread)])).flatten = _
    rw [Mux.flatten_own_concat]
    simp only [Prod.mk.injEq, eq_comm]
    rfl

/-- Bytes are passed on. -/
theorem performReadWrite_relays (now : ℕ) (side : Side) {pair' : ConnectedPair}
    (hp : s.pair pair.id = some pair')
    (hu : (pair'.socket side).unread = (pair.socket side).unread) :
    Relays pair.id s (s.performReadWrite now pair side) where
  view := performReadWrite_usedBy
  pair j hj := by rw [performReadWrite_pair pair pair' hp hu, if_neg hj]
  streams side' := by
    have hp' : (s.performReadWrite now pair side).pair pair.id =
        some (pair'.mapSocket QTcpSocket.drained side) := by
      rw [performReadWrite_pair pair pair' hp hu, if_pos rfl]
    have hfrom : (s.performReadWrite now pair side).bytesFrom pair.id side' =
        s.bytesFrom pair.id side' ++ [] := by
      unfold bytesFrom
      rw [performReadWrite_asserted.2, List.append_nil]
    refine ⟨[], _, hfrom, performReadWrite_bytesTo pair.id side'.other, ?_⟩
    rw [unread_eq hp, unread_eq hp', socket_mapSocket, ← hu]
    cases side <;> cases side' <;> simp [Side.other, QTcpSocket.drained]
  others j side' hj := by
    constructor
    · unfold bytesFrom
      rw [performReadWrite_asserted.2]
    · rw [performReadWrite_bytesTo, if_neg fun h => hj h.1, List.append_nil]
  reported := performReadWrite_reports
  asserted := performReadWrite_asserted.1

/-! ### One event -/

/-- The data of one socket arrives and is passed on at once. -/
theorem readFromSocket_relays (now : ℕ) (side : Side) (data : DataSeq)
    (hp : s.pair i = some pair) :
    Relays i s ((s.arrive i side data).readFromSocket now i side) ∧
      ((s.arrive i side data).readFromSocket now i side).pair i =
        some (pair.mapSocket QTcpSocket.drained side) := by
  obtain ⟨-, rfl⟩ := Pool.find_mem hp
  set filled := pair.mapSocket (QTcpSocket.filled data) side with hfilled
  have hid : filled.id = pair.id := mapSocket_id _ _ _
  have hp' : (s.arrive pair.id side data).pair filled.id = some filled := by
    rw [hid, arrive_pair, if_pos rfl, hp]
    rfl
  rw [readFromSocket_arrive hp]
  constructor
  · have hpass := performReadWrite_relays now side hp' rfl
    rw [hid] at hpass
    exact (arrive_relays hp).trans hpass
  · rw [performReadWrite_pair filled filled hp' rfl, if_pos hid.symm, hfilled]
    cases side <;> rfl

theorem clientData_relays (hp : s.pair i = some pair) (hset : pair.Settled) :
    Relays i s (s.step (.clientData i now data)) ∧
      ∀ {pair'}, (s.step (.clientData i now data)).pair i = some pair' → pair'.Settled := by
  simp only [step, hp]
  split
  · obtain ⟨hrel, hpair⟩ := readFromSocket_relays now .client data hp
    refine ⟨hrel, fun {pair'} hp' => ?_⟩
    obtain rfl := Option.some.inj (hpair.symm.trans hp')
    exact ⟨hset.ready, fun _ => rfl, hset.remote⟩
  · refine ⟨arrive_relays hp, fun {pair'} hp' => ?_⟩
    rw [arrive_pair, if_pos rfl, hp] at hp'
    obtain rfl := Option.some.inj hp'
    -- the connection to the remote is not established yet
    have hc : pair.second.connected = false := by
      rw [← hset.ready]
      simpa using ‹¬ pair.readyRead = true›
    exact ⟨hset.ready, fun h => absurd (hc.symm.trans h) Bool.false_ne_true, hset.remote⟩

theorem remoteData_relays (hp : s.pair i = some pair) (hset : pair.Settled) :
    Relays i s (s.step (.remoteData i now data)) ∧
      ∀ {pair'}, (s.step (.remoteData i now data)).pair i = some pair' → pair'.Settled := by
  simp only [step, hp]
  split
  · refine ⟨.refl i s, fun {pair'} hp' => ?_⟩
    obtain rfl := Option.some.inj (hp.symm.trans hp')
    exact hset
  · obtain ⟨hrel, hpair⟩ := readFromSocket_relays now .remote data hp
    refine ⟨hrel, fun {pair'} hp' => ?_⟩
    obtain rfl := Option.some.inj (hpair.symm.trans hp')
    exact ⟨hset.ready, hset.client, rfl⟩

/-- What waited is passed on when the connection to the remote is established. -/
theorem remoteConnected_relays (hp : s.pair i = some pair) (hset : pair.Settled) :
    Relays i s (s.step (.remoteConnected i now)) ∧
      ∀ {pair'}, (s.step (.remoteConnected i now)).pair i = some pair' → pair'.Settled := by
  obtain ⟨-, rfl⟩ := Pool.find_mem hp
  cases hc : pair.second.connected with
  | true =>
      have hsame : s.step (.remoteConnected pair.id now) = s := by simp only [step, hp, hc, if_true]
      rw [hsame]
      refine ⟨.refl _ s, fun {pair'} hp' => ?_⟩
      obtain rfl := Option.some.inj (hp.symm.trans hp')
      exact hset
  | false =>
      obtain ⟨hstep, hready⟩ := step_remoteConnected now hp hc
      have hup : Relays pair.id s
          (s.mapPair pair.id (ConnectedPair.mapSocket QTcpSocket.established .remote)) :=
        .of_mapPair (mapSocket_id _ _) fun pair side => by cases side <;> rfl
      have hread := hup.trans (.of_mapPair ready_id fun pair side => by cases side <;> rfl)
      constructor
      · rw [hstep]
        exact hread.trans (performReadWrite_relays now .client hready rfl)
      · intro pair' hp'
        rw [remoteConnected_pair hp hc, if_pos rfl] at hp'
        obtain rfl := Option.some.inj hp'
        exact ⟨rfl, fun _ => rfl, hset.remote⟩

end

/-! ### Connections that come and go -/

section
variable {s s' : TcpProxy}

/-- Nothing happens to the connections and their streams. -/
structure Untouched (s s' : TcpProxy) : Prop where
  sockets : s'.m_sockets = s.m_sockets
  accepted : s'.accepted = s.accepted
  arrived : s'.arrived = s.arrived
  forwards : s'.forwards = s.forwards
  reports : s'.reports = s.reports
  asserted : s'.asserted = s.asserted

/-- What has been done is not between the two ends. -/
theorem Untouched.of_append {new : List (ℕ × Use)} (hs : s'.m_sockets = s.m_sockets)
    (ha : s'.accepted = s.accepted) (harr : s'.arrived = s.arrived)
    (ht : s'.trace = s.trace ++ new) (hassert : s'.asserted = s.asserted)
    (hnew : ∀ u ∈ new, u.2.forward = none ∧ u.2.report = none) : Untouched s s' := by
  have hforward : new.filterMap (fun u => u.2.forward.map fun f => ((u.1, f.1), f.2)) = [] :=
    List.filterMap_eq_nil_iff.mpr fun u hu => by rw [(hnew u hu).1, Option.map_none]
  have hreport : new.filterMap (fun u => u.2.report.map fun r => ((u.1, r.1), r.2)) = [] :=
    List.filterMap_eq_nil_iff.mpr fun u hu => by rw [(hnew u hu).2, Option.map_none]
  refine ⟨hs, ha, harr, ?_, ?_, hassert⟩
  · unfold TcpProxy.forwards
    rw [ht, List.filterMap_append, hforward, List.append_nil]
  · unfold TcpProxy.reports
    rw [ht, List.filterMap_append, hreport, List.append_nil]

theorem Untouched.of_trace (hs : s'.m_sockets = s.m_sockets) (ha : s'.accepted = s.accepted)
    (harr : s'.arrived = s.arrived) (ht : s'.trace = s.trace) (hassert : s'.asserted = s.asserted) :
    Untouched s s' :=
  .of_append hs ha harr (ht.trans (List.append_nil _).symm) hassert nofun

theorem Untouched.conserved (hu : Untouched s s') (h : Conserved s) : Conserved s' := by
  intro i side
  have hunread : s'.unread i side = s.unread i side := by
    unfold unread pair
    rw [hu.sockets]
  unfold bytesFrom bytesTo
  rw [hu.arrived, hu.forwards, hunread]
  exact h i side

theorem Untouched.inv (hu : Untouched s s') (hi : Inv s) : Inv s' := by
  have hlive : s'.view.live = s.view.live := congrArg (List.map ConnectedPair.id) hu.sockets
  refine ⟨hlive ▸ hi.nodup, fun i hmem => ?_, fun {i pair} hp => ?_, ?_,
    hu.asserted.trans hi.asserted⟩
  · rw [hu.accepted]
    exact hi.lt i (hlive ▸ hmem)
  · unfold TcpProxy.pair at hp
    rw [hu.sockets] at hp
    exact hi.settled hp
  · rw [hu.reports, hu.forwards]
    exact hi.reported

theorem socketConnect_untouched (s : TcpProxy) (listen : Option Endpoint) :
    Untouched s (s.socketConnect listen) := by
  unfold socketConnect socketConnectImpl
  cases hl : s.isListening with
  | true => exact .of_trace rfl rfl rfl rfl rfl
  | false =>
      cases hp : s.samePorts with
      | true => exact .of_trace rfl rfl rfl rfl rfl
      | false =>
          cases listen with
          | none => exact .of_trace rfl rfl rfl rfl rfl
          | some address => exact .of_trace rfl rfl rfl rfl rfl

theorem stop_untouched (s : TcpProxy) : Untouched s s.stop := by
  unfold stop
  dsimp only
  split
  · exact .of_trace rfl rfl rfl rfl rfl
  · exact .of_trace rfl rfl rfl rfl rfl

/-- The data of the application is not what one end sends to the other. -/
theorem sendData_untouched (s : TcpProxy) (now : ℕ) (d : ToolsDataInfo) :
    Untouched s (s.sendData now d) := by
  unfold sendData
  dsimp only
  split
  · refine .of_append rfl rfl rfl rfl rfl fun u hu => ?_
    obtain ⟨pair, -, hu⟩ := List.mem_flatMap.mp hu
    simp only [List.mem_cons, List.not_mem_nil, or_false] at hu
    rcases hu with rfl | rfl
    · exact ⟨rfl, rfl⟩
    · exact ⟨rfl, rfl⟩
  · exact .of_trace rfl rfl rfl rfl rfl

/-- A connection comes. -/
theorem newConnection_pair (hi : Inv s) (client remote : Endpoint) (j : ℕ) :
    (s.newConnection client remote).pair j =
      if j = s.accepted then
        some { id := s.accepted
               first := { endpoint := client, connected := true }
               second := { endpoint := remote, connected := false } }
      else s.pair j := by
  show Pool.find ConnectedPair.id j (s.m_sockets ++ [_]) = _
  rw [Pool.find_concat]
  by_cases hj : j = s.accepted
  · have hnone : Pool.find ConnectedPair.id j s.m_sockets = none := by
      rw [Pool.find_eq_none, hj]
      exact fun hmem => Nat.lt_irrefl _ (hi.lt _ hmem)
    rw [hnone, if_pos hj.symm, if_pos hj]
    rfl
  · rw [if_neg (Ne.symm hj), if_neg hj, Option.or_none]
    rfl

theorem newConnection_inv (hi : Inv s) (client remote : Endpoint) :
    Inv (s.newConnection client remote) := by
  have hlive : (s.newConnection client remote).view.live = s.view.live ++ [s.accepted] :=
    List.map_append
  refine ⟨?_, fun j hj => ?_, fun {j pair} hp => ?_, hi.reported, hi.asserted⟩
  · rw [hlive]
    exact hi.nodup.append (List.nodup_singleton _)
      (List.disjoint_singleton.mpr fun h => Nat.lt_irrefl _ (hi.lt _ h))
  · rw [hlive, List.mem_append, List.mem_singleton] at hj
    show j < s.accepted + 1
    rcases hj with hj | rfl
    · exact (hi.lt j hj).trans (Nat.lt_succ_self _)
    · exact Nat.lt_succ_self _
  · rw [newConnection_pair hi] at hp
    split at hp
    · obtain rfl := Option.some.inj hp
      exact ⟨rfl, nofun, rfl⟩
    · exact hi.settled hp

theorem newConnection_conserved (hi : Inv s) (client remote : Endpoint) (h : Conserved s) :
    Conserved (s.newConnection client remote) := by
  intro j side
  have hunread : (s.newConnection client remote).unread j side = s.unread j side := by
    unfold unread
    rw [newConnection_pair hi]
    by_cases hj : j = s.accepted
    · have hnone : s.pair j = none :=
        pair_eq_none.mpr fun hmem => absurd (hi.lt j hmem) (by omega)
      rw [if_pos hj, hnone]
      cases side <;> rfl
    · rw [if_neg hj]
  rw [hunread]
  exact h j side

/-- A connection goes. -/
theorem erase_inv (hi : Inv s) (i : ℕ) :
    Inv { s with m_sockets := Pool.erase ConnectedPair.id i s.m_sockets } := by
  refine ⟨hi.nodup.sublist Pool.map_erase_sublist,
    fun j hj => hi.lt j (Pool.map_erase_sublist.subset hj), fun {j pair} hp => ?_, hi.reported,
    hi.asserted⟩
  unfold TcpProxy.pair at hp
  dsimp only at hp
  rw [Pool.find_erase hi.nodup] at hp
  split at hp
  · cases hp
  · exact hi.settled hp

/-- What is unread goes with its connection. -/
theorem erase_conserved_iff (hi : Inv s) (h : Conserved s) (i : ℕ) :
    Conserved { s with m_sockets := Pool.erase ConnectedPair.id i s.m_sockets } ↔
      s.waiting i = [] := by
  set s' := { s with m_sockets := Pool.erase ConnectedPair.id i s.m_sockets } with hs'
  have hunread : ∀ j side, s'.unread j side = if j = i then [] else s.unread j side := by
    intro j side
    unfold unread TcpProxy.pair
    rw [hs']
    dsimp only
    rw [Pool.find_erase hi.nodup]
    by_cases hj : j = i
    · rw [if_pos hj, if_pos hj]
    · rw [if_neg hj, if_neg hj]
  constructor
  · intro h'
    have hbefore := h i .client
    have hafter : s.bytesFrom i .client = s.bytesTo i .remote ++ s'.unread i .client := h' i .client
    rw [hunread, if_pos rfl, List.append_nil] at hafter
    rw [hafter] at hbefore
    rw [← hi.unread_client]
    simpa [Side.other] using hbefore.symm
  · intro hw j side
    have hbefore := h j side
    show s.bytesFrom j side = s.bytesTo j side.other ++ s'.unread j side
    rw [hunread]
    split
    · have hnil : s.unread j side = [] := by
        cases side with
        | client => rw [‹j = i›, hi.unread_client, hw]
        | remote => exact hi.unread_remote j
      rw [hbefore, hnil]
    · exact hbefore

end

/-! ### Runs -/

section
variable {s : TcpProxy}

/-- One event: the invariant, and when no byte is lost. -/
theorem step_conserved_iff (hi : Inv s) (e : Event) :
    Inv (s.step e) ∧ (Conserved s → (Conserved (s.step e) ↔ s.KeepsWaiting e)) := by
  have hquiet : ∀ s', Untouched s s' → Inv s' ∧ (Conserved s → (Conserved s' ↔ True)) :=
    fun s' hu => ⟨hu.inv hi, fun h => iff_true_intro (hu.conserved h)⟩
  have hnone : Inv s ∧ (Conserved s → (Conserved s ↔ True)) := ⟨hi, fun h => iff_true_intro h⟩
  have hgone : ∀ {i e}, Event.peer e = some i → s.pair i = none →
      Inv (s.step e) ∧ (Conserved s → (Conserved (s.step e) ↔ True)) := by
    intro i e he hp
    rw [step_gone he hp]
    exact hnone
  have hrelays : ∀ {i s'}, (Relays i s s' ∧ ∀ {pair'}, s'.pair i = some pair' → pair'.Settled) →
      Inv s' ∧ (Conserved s → (Conserved s' ↔ True)) :=
    fun h => ⟨h.1.inv hi h.2, fun hc => iff_true_intro (h.1.conserved hc)⟩
  cases e with
  | start startImpl => exact hquiet _ (.of_trace rfl rfl rfl rfl rfl)
  | stop => exact hquiet _ s.stop_untouched
  | socketConnect listen => exact hquiet _ (s.socketConnect_untouched listen)
  | socketDisconnect => exact hquiet _ (.of_trace rfl rfl rfl rfl rfl)
  | sendData now d => exact hquiet _ (s.sendData_untouched now d)
  | socketError errorString => exact hquiet _ (.of_trace rfl rfl rfl rfl rfl)
  | newConnection client remote =>
      by_cases hl : s.isListening = true
      · have hstep : s.step (.newConnection client remote) = s.newConnection client remote :=
          if_pos hl
        rw [hstep]
        exact ⟨newConnection_inv hi client remote,
          fun h => iff_true_intro (newConnection_conserved hi client remote h)⟩
      · have hstep : s.step (.newConnection client remote) = s := if_neg hl
        rw [hstep]
        exact hnone
  | clientData i now data =>
      cases hp : s.pair i with
      | none => exact hgone rfl hp
      | some pair => exact hrelays (clientData_relays hp (hi.settled hp))
  | remoteData i now data =>
      cases hp : s.pair i with
      | none => exact hgone rfl hp
      | some pair => exact hrelays (remoteData_relays hp (hi.settled hp))
  | remoteConnected i now =>
      cases hp : s.pair i with
      | none => exact hgone rfl hp
      | some pair => exact hrelays (remoteConnected_relays hp (hi.settled hp))
  | clientClosed i =>
      rw [clientClosed_eq]
      exact ⟨erase_inv hi i, fun h => erase_conserved_iff hi h i⟩
  | remoteClosed i =>
      rcases s.remoteClosed_cases i with hstep | ⟨pair, hp, hc, hstep⟩
      · rw [hstep]
        exact hnone
      · -- nothing of this client waits any more
        have hw : s.waiting i = [] := by simp only [waiting, hp, hc, if_true]
        rw [hstep]
        exact ⟨erase_inv hi i, fun h => iff_true_intro ((erase_conserved_iff hi h i).mpr hw)⟩

end

/-- **The proxy is transparent** in all of a run if and only if no client closes while bytes of it
wait for the connection to its remote. -/
theorem transparent_iff (m_port : ℕ) (m_remoteHost : QString) (m_remotePort : ℕ)
    (evs : List Event) :
    Runs.Always step { m_port, m_remoteHost, m_remotePort } evs Transparent ↔
      Runs.Along step { m_port, m_remoteHost, m_remotePort } evs KeepsWaiting := by
  have hinv : ∀ (s : TcpProxy) e, Inv s → Inv (s.step e) :=
    fun s e hi => (step_conserved_iff hi e).1
  refine Runs.always_iff_along_of_inv hinv (fun s e hi h => ?_) ?_ ?_
  · rw [(hinv s e hi).transparent_iff_conserved]
    exact (step_conserved_iff hi e).2 (hi.transparent_iff_conserved.mp h)
  · exact ⟨List.nodup_nil, nofun, nofun, rfl, rfl⟩
  · exact ⟨fun _ => rfl, fun _ => rfl, rfl, rfl⟩

/-- The run of a client that sends two bytes and closes, with and without its connection to the
remote. -/
def sendAndClose (connects : Bool) : List Event :=
  [.start true, .socketConnect (some Endpoint.null), .newConnection Endpoint.null Endpoint.null,
    .clientData 0 0 [1, 2]] ++
    (if connects then [.remoteConnected 0 0] else []) ++ [.clientClosed 0]

/-- The bytes of a client that closes before its connection to the remote is established are
lost. -/
theorem waiting_lost :
    ¬ Runs.Always step { m_remotePort := 30000 } (sendAndClose false) Transparent ∧
      ((sendAndClose true).foldl step { m_remotePort := 30000 }).bytesTo 0 .remote = [1, 2] := by
  refine ⟨fun h => ?_, rfl⟩
  have hlost := h.last.toRemote 0
  cases hlost

end TcpProxy

end CcToolsQt
