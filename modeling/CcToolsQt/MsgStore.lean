import CcToolsQt.MsgMgr
import Mathlib.Data.List.Perm.Basic
import Mathlib.Data.List.Nodup

/-! # What the manager records

An `Effect` says all that an operation of the manager does to its store: which messages it
numbered, stored and announced, each list in its own order.  Effects compose when they touch
different objects (`Effect.trans`), so every operation, with everything that happens inside it,
has one (`sendLoop_effect`, `receiveAll_effect`, `addMsgs_effect`).  The results about runs are
read off the effects. -/

namespace CcToolsQt

namespace MsgMgr
variable {φ α σ : Type}

/-- What an operation may touch and the clock readings it uses; which messages it stored,
announced and numbered, in this order, and which were handed to it. -/
structure Footprint where
  touched : List MsgPtr := []
  clocks : List ℕ := []
  stored : List MsgPtr := []
  announced : List MsgPtr := []
  numbered : List MsgPtr := []
  handed : List (MsgPtr × MsgType) := []

instance : Append Footprint where
  append F G :=
    { touched := F.touched ++ G.touched
      clocks := F.clocks ++ G.clocks
      stored := F.stored ++ G.stored
      announced := F.announced ++ G.announced
      numbered := F.numbered ++ G.numbered
      handed := F.handed ++ G.handed }

theorem Footprint.append_def (F G : Footprint) : F ++ G =
    { touched := F.touched ++ G.touched
      clocks := F.clocks ++ G.clocks
      stored := F.stored ++ G.stored
      announced := F.announced ++ G.announced
      numbered := F.numbered ++ G.numbered
      handed := F.handed ++ G.handed } := rfl

/-- All that an operation does to the store, the callback and the objects. -/
structure Effect (s s' : MsgMgr φ α σ) (F : Footprint) : Prop where
  all : s'.m_allMsgs = s.m_allMsgs ++ F.stored
  added : s'.added = s.added ++ F.announced.map fun p => (p, s'.objs p)
  next : s'.m_nextMsgNum = s.m_nextMsgNum + F.numbered.length
  num : ∀ i p, F.numbered[i]? = some p → (s'.objs p).num = some (s.m_nextMsgNum + i)
  handed : s'.handed = s.handed ++ F.handed
  perm : (F.handed.map Prod.fst).Perm F.numbered
  typed : ∀ e ∈ F.handed, (s'.objs e.1).type = some e.2
  timed : (∀ c ∈ F.clocks, milliseconds c ≠ 0) → ∀ e ∈ F.handed, (s'.objs e.1).getTimestamp ≠ 0
  stored_sub : ∀ p ∈ F.stored, p ∈ F.touched
  announced_sub : ∀ p ∈ F.announced, p ∈ F.touched
  numbered_sub : ∀ p ∈ F.numbered, p ∈ F.touched
  frame : ∀ p, p ∉ F.touched → s'.objs p = s.objs p
  recvEnabled : s'.m_recvEnabled = s.m_recvEnabled
  socket : s'.m_socket = s.m_socket
  protocol : s'.m_protocol = s.m_protocol

theorem append_sub {l₁ l₂ t₁ t₂ : List MsgPtr} (h₁ : ∀ p ∈ l₁, p ∈ t₁) (h₂ : ∀ p ∈ l₂, p ∈ t₂) :
    ∀ p ∈ l₁ ++ l₂, p ∈ t₁ ++ t₂ := by
  intro p hp
  rcases List.mem_append.mp hp with hp | hp
  · exact List.mem_append_left _ (h₁ p hp)
  · exact List.mem_append_right _ (h₂ p hp)

theorem concat_sub {l t : List MsgPtr} (h : ∀ q ∈ l, q ∈ t) (p : MsgPtr) :
    ∀ q ∈ l ++ [p], q ∈ p :: t := by
  intro q hq
  rcases List.mem_append.mp hq with hq | hq
  · exact List.mem_cons_of_mem _ (h q hq)
  · rw [List.mem_singleton.mp hq]
    exact List.mem_cons_self

namespace Effect
variable {s s₁ s₂ s' : MsgMgr φ α σ} {F G : Footprint}

theorem mem_handed (h : Effect s s' F) {e : MsgPtr × MsgType} (he : e ∈ F.handed) :
    e.1 ∈ F.touched :=
  h.numbered_sub _ (h.perm.mem_iff.mp (List.mem_map_of_mem he))

/-- Nothing happens. -/
theorem refl (s : MsgMgr φ α σ) (touched : List MsgPtr) (clocks : List ℕ) :
    Effect s s { touched := touched, clocks := clocks } where
  all := by simp
  added := by simp
  next := by simp
  num := by simp
  handed := by simp
  perm := by simp
  typed := by simp
  timed := by simp
  stored_sub := by simp
  announced_sub := by simp
  numbered_sub := by simp
  frame _ _ := rfl
  recvEnabled := rfl
  socket := rfl
  protocol := rfl

/-- **Two operations on different objects**, one after the other. -/
theorem trans (h₁ : Effect s s₁ F) (h₂ : Effect s₁ s₂ G) (hd : F.touched.Disjoint G.touched) :
    Effect s s₂ (F ++ G) where
  all := by simp [h₂.all, h₁.all, Footprint.append_def]
  added := by
    have hF : F.announced.map (fun p => (p, s₂.objs p)) =
        F.announced.map fun p => (p, s₁.objs p) := by
      apply List.map_congr_left
      intro p hp
      rw [h₂.frame p fun hG => hd (h₁.announced_sub p hp) hG]
    rw [h₂.added, h₁.added, Footprint.append_def, List.map_append, hF, List.append_assoc]
  next := by simp [h₂.next, h₁.next, Footprint.append_def, Nat.add_assoc]
  num := by
    intro i p hi
    simp only [Footprint.append_def] at hi
    rcases Nat.lt_or_ge i F.numbered.length with hlt | hge
    · rw [List.getElem?_append_left hlt] at hi
      have hp := h₁.numbered_sub p (List.mem_of_getElem? hi)
      rw [h₂.frame p fun hG => hd hp hG]
      exact h₁.num i p hi
    · rw [List.getElem?_append_right hge] at hi
      rw [h₂.num _ p hi, h₁.next]
      congr 1
      omega
  handed := by simp [h₂.handed, h₁.handed, Footprint.append_def]
  perm := by
    simp only [Footprint.append_def, List.map_append]
    exact h₁.perm.append h₂.perm
  typed := by
    intro e he
    rcases List.mem_append.mp he with he | he
    · rw [h₂.frame _ fun hG => hd (h₁.mem_handed he) hG]
      exact h₁.typed e he
    · exact h₂.typed e he
  timed := by
    intro hc e he
    rcases List.mem_append.mp he with he | he
    · rw [h₂.frame _ fun hG => hd (h₁.mem_handed he) hG]
      exact h₁.timed (fun c h => hc c (List.mem_append_left _ h)) e he
    · exact h₂.timed (fun c h => hc c (List.mem_append_right _ h)) e he
  stored_sub := append_sub h₁.stored_sub h₂.stored_sub
  announced_sub := append_sub h₁.announced_sub h₂.announced_sub
  numbered_sub := append_sub h₁.numbered_sub h₂.numbered_sub
  frame := by
    intro p hp
    simp only [Footprint.append_def, List.mem_append, not_or] at hp
    rw [h₂.frame p hp.2, h₁.frame p hp.1]
  recvEnabled := h₂.recvEnabled.trans h₁.recvEnabled
  socket := h₂.socket.trans h₁.socket
  protocol := h₂.protocol.trans h₁.protocol

/-- More may be allowed than happens. -/
theorem weaken (h : Effect s s' F) (touched : List MsgPtr) (clocks : List ℕ)
    (ht : ∀ p ∈ F.touched, p ∈ touched) (hc : ∀ c ∈ F.clocks, c ∈ clocks) :
    Effect s s' { F with touched := touched, clocks := clocks } :=
  { h with
    timed := fun hcl => h.timed fun c hm => hcl c (hc c hm)
    stored_sub := fun p hp => ht p (h.stored_sub p hp)
    announced_sub := fun p hp => ht p (h.announced_sub p hp)
    numbered_sub := fun p hp => ht p (h.numbered_sub p hp)
    frame := fun p hp => h.frame p fun hF => hp (ht p hF) }

/-- Numbers are given out one after the other, so nothing is numbered twice. -/
theorem numbered_nodup (h : Effect s s' F) : F.numbered.Nodup := by
  apply List.nodup_iff_getElem?_ne_getElem?.mpr
  intro i j hij hj he
  have hi : i < F.numbered.length := hij.trans hj
  have h₁ := h.num i _ (List.getElem?_eq_getElem hi)
  have h₂ := h.num j F.numbered[i] (he ▸ List.getElem?_eq_getElem hi)
  rw [h₁] at h₂
  have := Option.some.inj h₂
  omega

end Effect

/-! ### Sending -/

/-- A change of one object that leaves everything else of the store as it is. -/
structure Quiet (p : MsgPtr) (s s' : MsgMgr φ α σ) : Prop where
  all : s'.m_allMsgs = s.m_allMsgs
  added : s'.added = s.added
  next : s'.m_nextMsgNum = s.m_nextMsgNum
  handed : s'.handed = s.handed
  frame : ∀ q, q ≠ p → s'.objs q = s.objs q
  recvEnabled : s'.m_recvEnabled = s.m_recvEnabled
  socket : s'.m_socket = s.m_socket
  protocol : s'.m_protocol = s.m_protocol

theorem Quiet.trans {p : MsgPtr} {s s₁ s₂ : MsgMgr φ α σ} (h₁ : Quiet p s s₁)
    (h₂ : Quiet p s₁ s₂) : Quiet p s s₂ where
  all := h₂.all.trans h₁.all
  added := h₂.added.trans h₁.added
  next := h₂.next.trans h₁.next
  handed := h₂.handed.trans h₁.handed
  frame q hq := (h₂.frame q hq).trans (h₁.frame q hq)
  recvEnabled := h₂.recvEnabled.trans h₁.recvEnabled
  socket := h₂.socket.trans h₁.socket
  protocol := h₂.protocol.trans h₁.protocol

theorem quiet_modify (s : MsgMgr φ α σ) (p : MsgPtr) (f : ToolsMessage φ α → ToolsMessage φ α) :
    Quiet p s (s.modify p f) :=
  ⟨rfl, rfl, rfl, rfl, fun _ hq => Function.update_of_ne hq _ _, rfl, rfl, rfl⟩

theorem quiet_sendToSocket (p : MsgPtr) (s : MsgMgr φ α σ) (d : ToolsDataInfo) :
    Quiet p s (sendToSocket p s d) := by
  unfold sendToSocket
  split_ifs
  · exact ⟨rfl, rfl, rfl, rfl, fun _ _ => rfl, rfl, rfl, rfl⟩
  · exact ⟨rfl, rfl, rfl, rfl, fun _ hq => Function.update_of_ne hq _ _, rfl, rfl, rfl⟩

/-- Handing data blocks to the socket changes the message they come from at most. -/
theorem quiet_sendToSockets (p : MsgPtr) (s : MsgMgr φ α σ) (ds : List ToolsDataInfo) :
    Quiet p s (ds.foldl (sendToSocket p) s) := by
  induction ds generalizing s with
  | nil => exact ⟨rfl, rfl, rfl, rfl, fun _ _ => rfl, rfl, rfl, rfl⟩
  | cons d ds ih => exact (quiet_sendToSocket p s d).trans (ih _)

@[simp] theorem hand_filters (s : MsgMgr φ α σ) (p : MsgPtr) (t : MsgType) :
    (s.hand p t).m_filters = s.m_filters := rfl
@[simp] theorem hand_socketData (s : MsgMgr φ α σ) (p : MsgPtr) (t : MsgType) :
    (s.hand p t).socketData = s.socketData := rfl

/-- The data handed to the socket one after the other. -/
theorem sendToSocket_fields (p : MsgPtr) (s : MsgMgr φ α σ) (d : ToolsDataInfo) :
    (sendToSocket p s d).m_filters = s.m_filters ∧ (sendToSocket p s d).m_socket = s.m_socket ∧
      (sendToSocket p s d).m_protocol = s.m_protocol ∧
      (sendToSocket p s d).socketData = s.socketData ++ [d] := by
  unfold sendToSocket
  dsimp only
  split_ifs <;> exact ⟨rfl, rfl, rfl, rfl⟩

theorem sendToSockets_fields (p : MsgPtr) (s : MsgMgr φ α σ) (ds : List ToolsDataInfo) :
    (ds.foldl (sendToSocket p) s).m_filters = s.m_filters ∧
      (ds.foldl (sendToSocket p) s).m_socket = s.m_socket ∧
      (ds.foldl (sendToSocket p) s).m_protocol = s.m_protocol ∧
      (ds.foldl (sendToSocket p) s).socketData = s.socketData ++ ds := by
  induction ds generalizing s with
  | nil => simp
  | cons d ds ih =>
      obtain ⟨hf, hs, hp, hd⟩ := sendToSocket_fields p s d
      obtain ⟨ihf, ihs, ihp, ihd⟩ := ih (sendToSocket p s d)
      rw [List.foldl_cons]
      exact ⟨ihf.trans hf, ihs.trans hs, ihp.trans hp, by rw [ihd, hd]; simp⟩

/-- The footprint of sending messages: stored, announced and numbered in one order. -/
def Footprint.sent (touched : List MsgPtr) (clocks : List ℕ) (msgs : List MsgPtr)
    (handed : List (MsgPtr × MsgType)) : Footprint :=
  { touched := touched, clocks := clocks, stored := msgs, announced := msgs, numbered := msgs,
    handed := handed }

/-- A message is done with after `inner` messages were sent while it was being sent. -/
theorem recordSent_effect {s s₁ s₂ : MsgMgr φ α σ} {p : MsgPtr} {now : ℕ} {touched : List MsgPtr}
    {clocks : List ℕ} {inner : List MsgPtr} {handed : List (MsgPtr × MsgType)}
    (hq : Quiet p (s.hand p MsgType.Sent) s₁)
    (hin : Effect s₁ s₂ (.sent touched clocks inner handed)) (hp : p ∉ touched) :
    Effect s (s₂.recordSent p now)
      (.sent (p :: touched) (now :: clocks) (inner ++ [p]) ((p, MsgType.Sent) :: handed)) := by
  have hne : ∀ q ∈ inner, q ≠ p := fun q hqi e => hp (e ▸ hin.numbered_sub q hqi)
  have hobj : ∀ q, q ≠ p → (s₂.recordSent p now).objs q = s₂.objs q :=
    fun q hqp => recordSent_objs_of_ne hqp s₂ now
  have hself := recordSent_objs_self s₂ p now
  exact
    { all := by
        show s₂.m_allMsgs ++ [p] = _
        rw [hin.all, hq.all, List.append_assoc]
        rfl
      added := by
        show s₂.added ++ [(p, (s₂.recordSent p now).objs p)] = _
        have hmap : inner.map (fun q => (q, (s₂.recordSent p now).objs q)) =
            inner.map fun q => (q, s₂.objs q) :=
          List.map_congr_left fun q hqi => by rw [hobj q (hne q hqi)]
        rw [hin.added, hq.added]
        simp only [Footprint.sent, List.map_append, hmap, List.map_cons, List.map_nil,
          List.append_assoc]
        rfl
      next := by
        show s₂.m_nextMsgNum + 1 = _
        rw [hin.next, hq.next]
        simp [Footprint.sent, hand, Nat.add_assoc]
      num := by
        intro i q hi
        simp only [Footprint.sent] at hi
        rcases Nat.lt_or_ge i inner.length with hlt | hge
        · rw [List.getElem?_append_left hlt] at hi
          rw [hobj q (hne q (List.mem_of_getElem? hi)), hin.num i q hi, hq.next]
          rfl
        · rw [List.getElem?_append_right hge] at hi
          obtain ⟨hi0, rfl⟩ : i = inner.length ∧ p = q := by
            cases h : i - inner.length with
            | zero => exact ⟨by omega, by simpa [h] using hi⟩
            | succ k => simp [h] at hi
          rw [hself, hin.next, hq.next, hi0]
          rfl
      handed := by
        show s₂.handed = _
        rw [hin.handed, hq.handed]
        simp [Footprint.sent, hand]
      perm := by
        simp only [Footprint.sent, List.map_cons]
        exact (hin.perm.cons p).trans (List.perm_append_singleton p inner).symm
      typed := by
        intro e he
        rcases List.mem_cons.mp he with rfl | he
        · rw [hself]
        · have hne' : e.1 ≠ p := hne _ (hin.perm.mem_iff.mp (List.mem_map_of_mem he))
          rw [hobj _ hne']
          exact hin.typed e he
      timed := by
        intro hc e he
        rcases List.mem_cons.mp he with rfl | he
        · rw [hself]
          exact hc now List.mem_cons_self
        · have hne' : e.1 ≠ p := hne _ (hin.perm.mem_iff.mp (List.mem_map_of_mem he))
          rw [hobj _ hne']
          exact hin.timed (fun c h => hc c (List.mem_cons_of_mem _ h)) e he
      stored_sub := concat_sub hin.stored_sub p
      announced_sub := concat_sub hin.announced_sub p
      numbered_sub := concat_sub hin.numbered_sub p
      frame := by
        intro q hqt
        simp only [Footprint.sent, List.mem_cons, not_or] at hqt
        rw [hobj q hqt.1, hin.frame q hqt.2, hq.frame q hqt.1]
        rfl
      recvEnabled := hin.recvEnabled.trans hq.recvEnabled
      socket := hin.socket.trans hq.socket
      protocol := hin.protocol.trans hq.protocol }

mutual
/-- One message passed to `sendMsgs`, with all it causes to be sent. -/
theorem sendOne_effect (r : SendReq) (s : MsgMgr φ α σ) (h : r.ptrs.Nodup) :
    ∃ msgs handed, Effect s (sendOne r s) (.sent r.ptrs r.clocks msgs handed) ∧
      (∀ p, r.msg = some p → (p, MsgType.Sent) ∈ handed) ∧ (r.msg = none → msgs = []) := by
  match r, h with
  | .mk none write requests now, _ =>
      refine ⟨[], [], ?_, by simp [SendReq.msg], fun _ => rfl⟩
      rw [sendOne]
      exact Effect.refl s _ _
  | .mk (some p) none requests now, h =>
      have hp : p ∉ SendReq.allPtrs requests := by
        simp only [SendReq.ptrs, Option.toList_some, List.cons_append, List.nil_append] at h
        exact (List.nodup_cons.mp h).1
      refine ⟨[p], [(p, MsgType.Sent)], ?_, by simp [SendReq.msg], by simp [SendReq.msg]⟩
      rw [sendOne]
      have hq : Quiet p (s.hand p MsgType.Sent) (s.hand p MsgType.Sent) :=
        ⟨rfl, rfl, rfl, rfl, fun _ _ => rfl, rfl, rfl, rfl⟩
      exact recordSent_effect hq (Effect.refl _ _ _) hp
  | .mk (some p) (some dataInfo) requests now, h =>
      have hnd : p ∉ SendReq.allPtrs requests ∧ (SendReq.allPtrs requests).Nodup := by
        simp only [SendReq.ptrs, Option.toList_some, List.cons_append, List.nil_append] at h
        exact List.nodup_cons.mp h
      rw [sendOne]
      have hq : Quiet p (s.hand p MsgType.Sent)
          { s.hand p MsgType.Sent with
            m_filters := (ToolsFilter.sendChain (s.hand p MsgType.Sent).m_filters dataInfo).1 } :=
        ⟨rfl, rfl, rfl, rfl, fun _ _ => rfl, rfl, rfl, rfl⟩
      split_ifs
      · exact ⟨[p], _, recordSent_effect hq (Effect.refl _ _ _) hnd.1, by simp [SendReq.msg],
          by simp [SendReq.msg]⟩
      · obtain ⟨inner, handed, hin, -⟩ := sendLoop_effect requests _ hnd.2
        exact ⟨inner ++ [p], _,
          recordSent_effect (hq.trans (quiet_sendToSockets p _ _)) hin hnd.1,
          by simp [SendReq.msg], by simp [SendReq.msg]⟩

/-- **Messages passed to `sendMsgs`** are numbered, stored and announced in one order. -/
theorem sendLoop_effect (rs : List SendReq) (s : MsgMgr φ α σ)
    (h : (SendReq.allPtrs rs).Nodup) :
    ∃ msgs handed,
      Effect s (sendLoop rs s) (.sent (SendReq.allPtrs rs) (SendReq.allClocks rs) msgs handed) ∧
        (∀ r ∈ rs, ∀ p, r.msg = some p → (p, MsgType.Sent) ∈ handed) ∧
        ((∀ r ∈ rs, r.msg = none) → msgs = []) := by
  match rs, h with
  | [], _ => exact ⟨[], [], Effect.refl s _ _, by simp, fun _ => rfl⟩
  | r :: rs, h =>
      obtain ⟨h₁, h₂, hd⟩ := List.nodup_append'.mp h
      obtain ⟨msgs₁, handed₁, he₁, hin₁, hno₁⟩ := sendOne_effect r s h₁
      obtain ⟨msgs₂, handed₂, he₂, hin₂, hno₂⟩ := sendLoop_effect rs (sendOne r s) h₂
      refine ⟨msgs₁ ++ msgs₂, handed₁ ++ handed₂, he₁.trans he₂ hd, ?_, ?_⟩
      · intro r' hr' p hp
        rcases List.mem_cons.mp hr' with rfl | hr'
        · exact List.mem_append_left _ (hin₁ p hp)
        · exact List.mem_append_right _ (hin₂ r' hr' p hp)
      · intro hnone
        rw [hno₁ (hnone r List.mem_cons_self),
          hno₂ fun r' hr' => hnone r' (List.mem_cons_of_mem _ hr')]
        rfl
end

/-! ### Receiving -/

end MsgMgr

namespace RecvMsg

/-- All pointers that come with a received message. -/
def ptrs (m : RecvMsg) : List MsgPtr := m.msg :: SendReq.allPtrs m.requests

/-- The time a received message gets: that of the chunk, unless it has none. -/
def timestamp (dataInfo : ToolsDataInfo) (m : RecvMsg) : ℕ :=
  if dataInfo.m_timestamp ≠ 0 then dataInfo.m_timestamp else m.now

def clocks (dataInfo : ToolsDataInfo) (m : RecvMsg) : List ℕ :=
  m.timestamp dataInfo :: SendReq.allClocks m.requests

/-- Nothing is sent from inside `messageReceivedReport()` for this message. -/
def NoReply (m : RecvMsg) : Prop := ∀ r ∈ m.requests, r.msg = none

end RecvMsg

namespace MsgMgr
variable {φ α σ : Type}

/-- The footprint of a received message: numbered in front of the messages sent from inside its
report, and announced behind them. -/
def Footprint.received (dataInfo : ToolsDataInfo) (m : RecvMsg) (inner : List MsgPtr)
    (handed : List (MsgPtr × MsgType)) : Footprint :=
  { touched := m.ptrs, clocks := m.clocks dataInfo, stored := inner, announced := inner ++ [m.msg],
    numbered := m.msg :: inner, handed := (m.msg, MsgType.Received) :: handed }

/-- A received message is numbered before the messages sent from inside its report, and
announced after them; these are stored at once. -/
theorem receiveOne_effect (dataInfo : ToolsDataInfo) (s : MsgMgr φ α σ) (m : RecvMsg)
    (h : m.ptrs.Nodup) :
    ∃ inner handed,
      Effect s (receiveOne dataInfo s m) (.received dataInfo m inner handed) ∧
      (∀ r ∈ m.requests, ∀ p, r.msg = some p → (p, MsgType.Sent) ∈ handed) ∧
      (m.NoReply → inner = []) := by
  obtain ⟨hp, hnd⟩ := List.nodup_cons.mp h
  set s₁ := ((s.hand m.msg MsgType.Received).updateInternalId m.msg).setTypeAndTime m.msg
    MsgType.Received (m.timestamp dataInfo) with hs₁
  obtain ⟨inner, handed, hin, hreq, hno⟩ := sendLoop_effect m.requests s₁ hnd
  set s₂ := sendLoop m.requests s₁ with hs₂
  have hres : receiveOne dataInfo s m = s₂.reportMsgAdded m.msg := rfl
  have hobj : (s₂.reportMsgAdded m.msg).objs = s₂.objs := rfl
  have hself : s₂.objs m.msg = { s.objs m.msg with
      num := some s.m_nextMsgNum, type := some MsgType.Received,
      timestamp := some (milliseconds (m.timestamp dataInfo)) } := by
    rw [hin.frame m.msg hp]
    exact stamped_objs_self _ _ _ _
  have hframe : ∀ q, q ≠ m.msg → s₁.objs q = s.objs q :=
    fun q hq => stamped_objs_of_ne hq _ _ _
  refine ⟨inner, handed, ?_, hreq, hno⟩
  rw [hres]
  exact
    { all := hin.all
      added := by
        show s₂.added ++ [(m.msg, s₂.objs m.msg)] = s.added ++ (inner ++ [m.msg]).map _
        rw [hin.added, hobj, List.map_append, ← List.append_assoc]
        rfl
      next := by
        show s₂.m_nextMsgNum = s.m_nextMsgNum + (m.msg :: inner).length
        rw [hin.next, List.length_cons]
        show s.m_nextMsgNum + 1 + inner.length = _
        omega
      num := by
        intro i q hi
        cases i with
        | zero =>
            obtain rfl : m.msg = q := by simpa [Footprint.received] using hi
            rw [hobj, hself]
            rfl
        | succ i =>
            rw [hobj, hin.num i q (by simpa [Footprint.sent, Footprint.received] using hi)]
            show some (s.m_nextMsgNum + 1 + i) = _
            congr 1
            omega
      handed := by
        show s₂.handed = s.handed ++ (m.msg, MsgType.Received) :: handed
        rw [hin.handed]
        show (s.handed ++ [(m.msg, MsgType.Received)]) ++ handed = _
        simp
      perm := hin.perm.cons _
      typed := by
        intro e he
        rcases List.mem_cons.mp he with rfl | he
        · rw [hobj, hself]
        · exact hin.typed e he
      timed := by
        intro hc e he
        rcases List.mem_cons.mp he with rfl | he
        · rw [hobj, hself]
          exact hc _ List.mem_cons_self
        · exact hin.timed (fun c hcl => hc c (List.mem_cons_of_mem _ hcl)) e he
      stored_sub := fun q hq => List.mem_cons_of_mem _ (hin.stored_sub q hq)
      announced_sub := concat_sub hin.announced_sub m.msg
      numbered_sub := List.cons_subset_cons m.msg hin.numbered_sub
      frame := by
        intro q hq
        simp only [Footprint.received, RecvMsg.ptrs, List.mem_cons, not_or] at hq
        rw [hobj, hin.frame q hq.2, hframe q hq.1]
      recvEnabled := hin.recvEnabled
      socket := hin.socket
      protocol := hin.protocol }

/-- A reply is stored before the message it replies to, and numbered after it. -/
theorem reply_numbered_after {dataInfo : ToolsDataInfo} {s s' : MsgMgr φ α σ} {m : RecvMsg}
    {inner : List MsgPtr} {handed : List (MsgPtr × MsgType)}
    (he : Effect s s' (.received dataInfo m inner handed))
    (hreq : ∀ r ∈ m.requests, ∀ p, r.msg = some p → (p, MsgType.Sent) ∈ handed)
    (hm : ¬ m.NoReply) : ∃ p ∈ inner, s'.seqNumber m.msg < s'.seqNumber p := by
  obtain ⟨r, hr, hne⟩ : ∃ r ∈ m.requests, r.msg ≠ none := by
    simpa [RecvMsg.NoReply] using hm
  obtain ⟨p, hp⟩ := Option.ne_none_iff_exists'.mp hne
  have hmem : p ∈ m.msg :: inner :=
    he.perm.mem_iff.mp (List.mem_map_of_mem (List.mem_cons_of_mem _ (hreq r hr p hp)))
  have hpm : p ≠ m.msg := by
    rintro rfl
    have hnd := he.perm.nodup_iff.mpr he.numbered_nodup
    exact (List.nodup_cons.mp hnd).1 (List.mem_map.mpr ⟨_, hreq r hr _ hp, rfl⟩)
  have hpin : p ∈ inner := (List.mem_cons.mp hmem).resolve_left hpm
  obtain ⟨j, hj⟩ := List.mem_iff_getElem?.mp hpin
  have hnum₁ := he.num 0 m.msg rfl
  have hnum₂ := he.num (j + 1) p (by simpa [Footprint.received] using hj)
  refine ⟨p, hpin, ?_⟩
  rw [seqNumber, seqNumber, hnum₁, hnum₂]
  simp only [Option.getD_some]
  omega

/-- What the loop over received messages has done before it stores them. -/
structure ReceivedLoop (dataInfo : ToolsDataInfo) (msgs : List RecvMsg) (s' : MsgMgr φ α σ)
    (F : Footprint) : Prop where
  touched : F.touched = msgs.flatMap RecvMsg.ptrs
  clocks : F.clocks = msgs.flatMap (RecvMsg.clocks dataInfo)
  announced : F.announced.Perm F.numbered
  stored : (F.stored ++ msgs.map RecvMsg.msg).Perm F.numbered
  received : ∀ m ∈ msgs, (m.msg, MsgType.Received) ∈ F.handed
  /-- Without replies all orders are the order of arrival. -/
  ordered : (∀ m ∈ msgs, m.NoReply) →
    F.stored = [] ∧ F.announced = msgs.map RecvMsg.msg ∧ F.numbered = msgs.map RecvMsg.msg
  /-- Replies to the first message alone leave no difference. -/
  first : (∀ m ∈ msgs.tail, m.NoReply) → F.announced = F.stored ++ msgs.map RecvMsg.msg
  /-- A reply is stored before the message it replies to, but numbered after it. -/
  disordered : ¬ (∀ m ∈ msgs, m.NoReply) →
    ∃ p ∈ F.stored, ∃ m ∈ msgs, s'.seqNumber m.msg < s'.seqNumber p

theorem receiveLoop_effect (dataInfo : ToolsDataInfo) (msgs : List RecvMsg) (s : MsgMgr φ α σ)
    (h : (msgs.flatMap RecvMsg.ptrs).Nodup) :
    ∃ F, Effect s (msgs.foldl (receiveOne dataInfo) s) F ∧
      ReceivedLoop dataInfo msgs (msgs.foldl (receiveOne dataInfo) s) F := by
  induction msgs generalizing s with
  | nil =>
      refine ⟨_, Effect.refl s [] [], rfl, rfl, .refl _, .refl _, by simp,
        fun _ => ⟨rfl, rfl, rfl⟩, fun _ => rfl, fun hn => absurd (by simp) hn⟩
  | cons m msgs ih =>
      rw [List.flatMap_cons] at h
      obtain ⟨h₁, h₂, hd⟩ := List.nodup_append'.mp h
      obtain ⟨inner, handed, he₁, hreq, hno⟩ := receiveOne_effect dataInfo s m h₁
      obtain ⟨G, he₂, hG⟩ := ih (receiveOne dataInfo s m) h₂
      have hd' : m.ptrs.Disjoint G.touched := hG.touched ▸ hd
      refine ⟨_, he₁.trans he₂ hd', ?_⟩
      rw [List.foldl_cons]
      set s₁ := receiveOne dataInfo s m with hs₁
      set s' := msgs.foldl (receiveOne dataInfo) s₁ with hs'
      exact
        { touched := by simp [Footprint.append_def, Footprint.received, hG.touched]
          clocks := by simp [Footprint.append_def, Footprint.received, hG.clocks]
          announced := (List.perm_append_singleton m.msg inner).append hG.announced
          stored := by
            show ((inner ++ G.stored) ++ (m.msg :: msgs.map RecvMsg.msg)).Perm
              ((m.msg :: inner) ++ G.numbered)
            refine List.perm_middle.trans ?_
            rw [List.cons_append, List.append_assoc]
            exact (hG.stored.append_left inner).cons _
          received := by
            intro m' hm'
            rcases List.mem_cons.mp hm' with rfl | hm'
            · exact List.mem_append_left _ List.mem_cons_self
            · exact List.mem_append_right _ (hG.received m' hm')
          ordered := by
            intro hnone
            have hi : inner = [] := hno (hnone m List.mem_cons_self)
            obtain ⟨h1, h2, h3⟩ := hG.ordered fun m' hm' => hnone m' (List.mem_cons_of_mem _ hm')
            simp [Footprint.append_def, Footprint.received, hi, h1, h2, h3]
          first := by
            intro hrest
            obtain ⟨h1, h2, -⟩ := hG.ordered hrest
            simp [Footprint.append_def, Footprint.received, h1, h2]
          disordered := by
            intro hsome
            by_cases hm : m.NoReply
            · obtain ⟨p, hp, m', hm', hlt⟩ := hG.disordered fun hall =>
                hsome (List.forall_mem_cons.mpr ⟨hm, hall⟩)
              exact ⟨p, List.mem_append_right _ hp, m', List.mem_cons_of_mem _ hm', hlt⟩
            · obtain ⟨p, hpin, hlt⟩ := reply_numbered_after he₁ hreq hm
              have hft : ∀ q ∈ m.ptrs, s'.objs q = s₁.objs q := fun q hq =>
                he₂.frame q fun hG' => hd' hq hG'
              refine ⟨p, List.mem_append_left _ hpin, m, List.mem_cons_self, ?_⟩
              rw [seqNumber, seqNumber, hft m.msg List.mem_cons_self, hft p (he₁.stored_sub p hpin)]
              exact hlt }

/-- **A chunk of messages**: in the end all of them are stored behind the replies to them. -/
theorem receiveAll_effect (dataInfo : ToolsDataInfo) (msgs : List RecvMsg) (s : MsgMgr φ α σ)
    (h : (msgs.flatMap RecvMsg.ptrs).Nodup) :
    ∃ F, Effect s (s.receiveAll dataInfo msgs)
        { F with stored := F.stored ++ msgs.map RecvMsg.msg } ∧
      ReceivedLoop dataInfo msgs (s.receiveAll dataInfo msgs) F := by
  obtain ⟨F, he, hF⟩ := receiveLoop_effect dataInfo msgs s h
  refine ⟨F, { he with all := ?_, stored_sub := ?_ }, { hF with }⟩
  · show (msgs.foldl (receiveOne dataInfo) s).m_allMsgs ++ msgs.map RecvMsg.msg = _
    rw [he.all, List.append_assoc]
  · intro p hp
    rcases List.mem_append.mp hp with hp | hp
    · exact he.stored_sub p hp
    · obtain ⟨m, hm, rfl⟩ := List.mem_map.mp hp
      exact he.mem_handed (hF.received m hm)

/-! ### Adding -/

theorem getType_eq {m : ToolsMessage φ α} (h : m.getType ≠ MsgType.Invalid) :
    m.type = some m.getType := by
  cases ht : m.type with
  | none => simp [ToolsMessage.getType, ht] at h
  | some t => simp [ToolsMessage.getType, ht]

/-- What `addMsgs` records of a list. -/
structure Added (reportAdded : Bool) (s : MsgMgr φ α σ) (msgs : List (Option MsgPtr × ℕ))
    (F : Footprint) : Prop where
  touched : F.touched = msgs.flatMap fun m => m.1.toList
  clocks : F.clocks = msgs.map Prod.snd
  stored : F.stored = F.numbered
  announced : F.announced = if reportAdded then F.numbered else []
  added : ∀ m ∈ msgs, ∀ p, m.1 = some p → (s.objs p).getType ≠ MsgType.Invalid →
    (p, (s.objs p).getType) ∈ F.handed

/-- The state when a message that is added gets its number, whichever way its time was set. -/
theorem addOne_timestamp (s : MsgMgr φ α σ) (p : MsgPtr) (t : MsgType) (now : ℕ) :
    ∃ s₁ : MsgMgr φ α σ,
      (if ((s.hand p t).objs p).getTimestamp = 0 then
        (s.hand p t).modify p fun m => { m with timestamp := some (milliseconds now) }
      else s.hand p t) = s₁ ∧ Quiet p (s.hand p t) s₁ ∧ (s₁.objs p).body = (s.objs p).body ∧
      (s₁.objs p).type = (s.objs p).type ∧
      (milliseconds now ≠ 0 → (s₁.objs p).getTimestamp ≠ 0) := by
  split_ifs with h0
  · refine ⟨_, rfl, quiet_modify _ _ _, ?_, ?_, fun h => ?_⟩
    · simp [modify, hand]
    · simp [modify, hand]
    · simpa [modify, ToolsMessage.getTimestamp] using h
  · exact ⟨_, rfl, ⟨rfl, rfl, rfl, rfl, fun _ _ => rfl, rfl, rfl, rfl⟩, rfl, rfl, fun _ => h0⟩

theorem addOne_effect (reportAdded : Bool) (s : MsgMgr φ α σ) (m : Option MsgPtr × ℕ) :
    ∃ F, Effect s (addOne reportAdded s m) F ∧ Added reportAdded s [m] F := by
  obtain ⟨_ | p, now⟩ := m
  · exact ⟨_, Effect.refl s [] [now], rfl, rfl, rfl, by simp, by simp⟩
  · by_cases hinv : (s.objs p).getType = MsgType.Invalid
    · have e : addOne reportAdded s (some p, now) = s := by simp [addOne, hinv]
      rw [e]
      exact ⟨_, Effect.refl s [p] [now], rfl, rfl, rfl, by simp, by simp [hinv]⟩
    · have ht := getType_eq hinv
      simp only [addOne, hinv, if_false]
      generalize ht' : (s.objs p).getType = t at *
      refine ⟨{ touched := [p], clocks := [now], stored := [p],
                announced := if reportAdded then [p] else [], numbered := [p],
                handed := [(p, t)] }, ?_, rfl, rfl, rfl, by cases reportAdded <;> rfl, ?_⟩
      · obtain ⟨s₁, hs₁, hq, -, htype, htime⟩ := addOne_timestamp s p t now
        rw [hs₁]
        have hself := updateInternalId_objs_self s₁ p
        have hobj : ∀ q, q ≠ p → (s₁.updateInternalId p).objs q = s.objs q :=
          fun q hqp => (updateInternalId_objs_of_ne hqp s₁).trans (hq.frame q hqp)
        have hnext : s₁.m_nextMsgNum = s.m_nextMsgNum := hq.next
        have hfin : ((if reportAdded then (s₁.updateInternalId p).reportMsgAdded p
            else s₁.updateInternalId p).pushBack p).objs = (s₁.updateInternalId p).objs := by
          split_ifs <;> rfl
        refine ⟨?_, ?_, ?_, ?_, ?_, .refl _, ?_, ?_, by simp, by split_ifs <;> simp, by simp,
          ?_, ?_, ?_, ?_⟩
        · split_ifs <;> exact congrArg (· ++ [p]) hq.all
        · split_ifs
          · exact congrArg (· ++ [(p, (s₁.updateInternalId p).objs p)]) hq.added
          · rw [List.map_nil, List.append_nil]
            exact hq.added
        · split_ifs <;> exact congrArg (· + 1) hnext
        · intro i q hi
          obtain ⟨rfl, rfl⟩ : i = 0 ∧ p = q := by
            cases i with
            | zero => simpa using hi
            | succ i => simp at hi
          rw [hfin, hself, hnext]
          rfl
        · split_ifs <;> exact hq.handed
        · intro e he
          rw [List.mem_singleton.mp he, hfin, hself]
          exact htype.trans ht
        · intro hc e he
          rw [List.mem_singleton.mp he, hfin, hself]
          exact htime (hc now List.mem_cons_self)
        · intro q hqp
          rw [hfin, hobj q fun e => hqp (by simp [e])]
        · split_ifs <;> exact hq.recvEnabled
        · split_ifs <;> exact hq.socket
        · split_ifs <;> exact hq.protocol
      · intro m hm q hq _
        obtain rfl := List.mem_singleton.mp hm
        obtain rfl : p = q := by simpa using hq
        simp [ht']

/-- **Messages passed to `addMsgs`** are numbered and stored in one order. -/
theorem addMsgs_effect (reportAdded : Bool) (msgs : List (Option MsgPtr × ℕ)) (s : MsgMgr φ α σ)
    (h : (msgs.flatMap fun m => m.1.toList).Nodup) :
    ∃ F, Effect s (s.addMsgs msgs reportAdded) F ∧ Added reportAdded s msgs F := by
  induction msgs generalizing s with
  | nil => exact ⟨_, Effect.refl s [] [], rfl, rfl, rfl, by simp, by simp⟩
  | cons m msgs ih =>
      rw [List.flatMap_cons] at h
      obtain ⟨-, h₂, hd⟩ := List.nodup_append'.mp h
      obtain ⟨F, he₁, hF⟩ := addOne_effect reportAdded s m
      obtain ⟨G, he₂, hG⟩ := ih (addOne reportAdded s m) h₂
      have hFt : F.touched = m.1.toList := by simpa using hF.touched
      have hd' : F.touched.Disjoint G.touched := by rw [hFt, hG.touched]; exact hd
      refine ⟨_, he₁.trans he₂ hd', ?_, ?_, ?_, ?_, ?_⟩
      · simp [Footprint.append_def, hFt, hG.touched]
      · simp [Footprint.append_def, hF.clocks, hG.clocks]
      · simp [Footprint.append_def, hF.stored, hG.stored]
      · cases reportAdded <;> simp [Footprint.append_def, hF.announced, hG.announced]
      · intro m' hm' p hp hvalid
        rcases List.mem_cons.mp hm' with rfl | hm'
        · exact List.mem_append_left _ (hF.added _ List.mem_cons_self p hp hvalid)
        · have hp' : (addOne reportAdded s m).objs p = s.objs p := by
            apply he₁.frame p
            intro hFp
            rw [hFt] at hFp
            exact hd hFp (List.mem_flatMap.mpr ⟨m', hm', by simp [hp]⟩)
          have := hG.added m' hm' p hp (by rwa [hp'])
          rw [hp'] at this
          exact List.mem_append_right _ this

end MsgMgr

end CcToolsQt
