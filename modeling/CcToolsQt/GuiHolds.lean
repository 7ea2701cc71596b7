import CcToolsQt.GuiStore
import CcToolsQt.MsgLog

/-! # The messages an event brings in

The message manager stores and announces only messages it is handed (`step_brings`), so no event
but `applyNewPlugins` adds others to the held ones than those it brings in (`step_takes`). -/

namespace CcToolsQt

/-! ### The manager -/

namespace MsgMgr
variable {φ α σ : Type}

/-- Only messages of a list are handed over, and the protocol stays. -/
structure Hands (ptrs : List MsgPtr) (s s' : MsgMgr φ α σ) : Prop where
  protocol : s'.m_protocol = s.m_protocol
  handed : ∃ given, s'.handed = s.handed ++ given ∧ ∀ e ∈ given, e.1 ∈ ptrs

namespace Hands
variable {ptrs later : List MsgPtr} {s s₁ s₂ : MsgMgr φ α σ}

theorem of_eq (hp : s₁.m_protocol = s.m_protocol) (hh : s₁.handed = s.handed) :
    Hands ptrs s s₁ :=
  ⟨hp, [], by simp [hh]⟩

theorem refl (s : MsgMgr φ α σ) : Hands ptrs s s := of_eq rfl rfl

theorem trans (h₁ : Hands ptrs s s₁) (h₂ : Hands ptrs s₁ s₂) : Hands ptrs s s₂ := by
  obtain ⟨given₁, e₁, hg₁⟩ := h₁.handed
  obtain ⟨given₂, e₂, hg₂⟩ := h₂.handed
  refine ⟨h₂.protocol.trans h₁.protocol, given₁ ++ given₂, ?_, fun e he => ?_⟩
  · rw [e₂, e₁, List.append_assoc]
  · exact (List.mem_append.mp he).elim (hg₁ e) (hg₂ e)

theorem mono (h : Hands ptrs s s₁) (hsub : ptrs ⊆ later) : Hands later s s₁ := by
  obtain ⟨given, e, hg⟩ := h.handed
  exact ⟨h.protocol, given, e, fun x hx => hsub (hg x hx)⟩

theorem hand {p : MsgPtr} (hp : p ∈ ptrs) (s : MsgMgr φ α σ) (t : MsgType) :
    Hands ptrs s (s.hand p t) :=
  ⟨rfl, [(p, t)], rfl, fun _ he => List.mem_singleton.mp he ▸ hp⟩

end Hands

mutual
theorem sendOne_hands (r : SendReq) (s : MsgMgr φ α σ) : Hands r.ptrs s (sendOne r s) := by
  match r with
  | .mk none write requests now =>
      rw [sendOne]
      exact .refl s
  | .mk (some p) none requests now =>
      rw [sendOne]
      exact (Hands.hand (by simp [SendReq.ptrs]) s MsgType.Sent).trans (.of_eq rfl rfl)
  | .mk (some p) (some dataInfo) requests now =>
      have hhand : Hands (SendReq.mk (some p) (some dataInfo) requests now).ptrs s
          (s.hand p MsgType.Sent) := .hand (by simp [SendReq.ptrs]) s MsgType.Sent
      rw [sendOne]
      split_ifs
      · exact hhand.trans (.of_eq rfl rfl)
      · set r := ToolsFilter.sendChain (s.hand p MsgType.Sent).m_filters dataInfo
        set s₁ := r.2.foldl (sendToSocket p) { s.hand p MsgType.Sent with m_filters := r.1 }
        have hq : Quiet p { s.hand p MsgType.Sent with m_filters := r.1 } s₁ :=
          quiet_sendToSockets p _ r.2
        have hsock : Hands (SendReq.mk (some p) (some dataInfo) requests now).ptrs
            (s.hand p MsgType.Sent) s₁ := .of_eq hq.protocol hq.handed
        have hin := (sendLoop_hands requests s₁).mono
          (List.subset_append_right [p] (SendReq.allPtrs requests))
        exact ((hhand.trans hsock).trans hin).trans (.of_eq rfl rfl)

theorem sendLoop_hands (rs : List SendReq) (s : MsgMgr φ α σ) :
    Hands (SendReq.allPtrs rs) s (sendLoop rs s) := by
  match rs with
  | [] => exact .refl s
  | r :: rs =>
      have h := (sendOne_hands r s).mono (List.subset_append_left r.ptrs (SendReq.allPtrs rs))
      exact h.trans ((sendLoop_hands rs _).mono (List.subset_append_right _ _))
end

theorem receiveLoop_hands (dataInfo : ToolsDataInfo) (msgs : List RecvMsg) (s : MsgMgr φ α σ) :
    Hands (msgs.flatMap RecvMsg.ptrs) s (msgs.foldl (receiveOne dataInfo) s) := by
  induction msgs generalizing s with
  | nil => exact .refl s
  | cons m msgs ih =>
      have hone : Hands m.ptrs s (receiveOne dataInfo s m) := by
        have hhand : Hands m.ptrs s (s.hand m.msg MsgType.Received) :=
          .hand List.mem_cons_self s MsgType.Received
        set s₁ := ((s.hand m.msg MsgType.Received).updateInternalId m.msg).setTypeAndTime m.msg
          MsgType.Received (m.timestamp dataInfo) with hs₁
        have hset : Hands m.ptrs s s₁ := hhand.trans (.of_eq rfl rfl)
        have hin : Hands m.ptrs s₁ (sendLoop m.requests s₁) :=
          (sendLoop_hands m.requests s₁).mono (List.subset_cons_self m.msg _)
        exact (hset.trans hin).trans (.of_eq rfl rfl)
      rw [List.flatMap_cons]
      exact (hone.mono (List.subset_append_left _ _)).trans
        ((ih _).mono (List.subset_append_right _ _))

theorem addMsgs_hands (reportAdded : Bool) (msgs : List (Option MsgPtr × ℕ))
    (s : MsgMgr φ α σ) :
    Hands (Event.addMsgs msgs reportAdded).ptrs s (s.addMsgs msgs reportAdded) := by
  unfold addMsgs
  show Hands (msgs.flatMap fun m => m.1.toList) s _
  induction msgs generalizing s with
  | nil => exact .refl s
  | cons m msgs ih =>
      have hone : Hands m.1.toList s (addOne reportAdded s m) := by
        obtain ⟨p, now⟩ := m
        cases p with
        | none => exact .refl s
        | some p =>
            unfold addOne
            dsimp only
            split_ifs
            · exact .refl s
            all_goals exact (Hands.hand (by simp) s (s.objs p).getType).trans (.of_eq rfl rfl)
      rw [List.flatMap_cons]
      exact (hone.mono (List.subset_append_left _ _)).trans
        ((ih _).mono (List.subset_append_right _ _))

theorem step_hands (s : MsgMgr φ α σ) (ev : Event) : Hands ev.ptrs s (s.step ev) := by
  cases ev with
  | socketDataReceived dataInfo reads =>
      show Hands _ s (s.socketDataReceived dataInfo reads)
      unfold socketDataReceived
      cases dataInfo with
      | none => exact .refl s
      | some dataInfo =>
          dsimp only
          split_ifs
          · exact .refl s
          · exact .of_eq rfl rfl
          · have hsub : (s.received dataInfo reads).flatMap RecvMsg.ptrs ⊆
                reads.flatten.flatMap RecvMsg.ptrs := by
              unfold received
              exact ((List.take_sublist _ _).flatten.flatMap _).subset
            set s₁ := { s with m_filters := (ToolsFilter.recvChain s.m_filters dataInfo).1 }
            have hset : Hands (reads.flatten.flatMap RecvMsg.ptrs) s s₁ := .of_eq rfl rfl
            have hloop := (receiveLoop_hands dataInfo (s.received dataInfo reads) s₁).mono hsub
            exact (hset.trans hloop).trans (.of_eq rfl rfl)
  | sendMsgs msgs =>
      show Hands _ s (s.sendMsgs msgs)
      unfold sendMsgs
      split_ifs
      · exact .refl s
      · exact sendLoop_hands msgs s
  | addMsgs msgs reportAdded => exact addMsgs_hands reportAdded msgs s

/-- **Only messages an event brings in** are stored or announced by it. -/
theorem step_brings (s : MsgMgr φ α σ) (ev : Event) (h : ev.Reports) :
    (∀ p ∈ (s.step ev).m_allMsgs, p ∈ s.m_allMsgs ∨ p ∈ ev.ptrs) ∧
      ∃ told, (s.step ev).added = s.added ++ told ∧ ∀ a ∈ told, a.1 ∈ ev.ptrs := by
  obtain ⟨given, told, hr⟩ := s.step_records ev h
  obtain ⟨given', e, hg⟩ := (s.step_hands ev).handed
  obtain rfl : given = given' := List.append_cancel_left (hr.handed.symm.trans e)
  refine ⟨fun p hp => (hr.stored p hp).imp_right fun hm => ?_, told, hr.added, fun a ha => ?_⟩
  · obtain ⟨x, hx, rfl⟩ := List.mem_map.mp hm
    exact hg x hx
  · exact hg _ (hr.origin a ha).2

end MsgMgr

/-! ### The application -/

namespace GuiAppMgr
variable {φ α σ : Type}

theorem msgAdded_takes (g : GuiAppMgr φ α σ) (msg : MsgPtr × ToolsMessage φ α) :
    Takes [msg.1] g (g.msgAdded msg) := by
  have hrecv : ∀ p ∈ (g.addMsgToRecvList msg.1).recvList.items, p ∈ g.held ∨ p ∈ [msg.1] :=
    fun p hp => (List.mem_append.mp hp).imp_left held_recv
  unfold msgAdded
  dsimp only
  split_ifs
  · exact .refl g
  · exact .of_parts rfl rfl (fun _ h => .inl (held_store h)) hrecv
      (fun _ h => .inl (held_send h)) (fun _ h => .inl (held_clicked h))
      fun _ h => .inl (held_pending h)
  · refine .of_parts rfl rfl (fun _ h => .inl (held_store h)) hrecv
      (fun _ h => .inl (held_send h)) (fun _ h => .inl (held_clicked h)) fun p hp => ?_
    obtain rfl : msg.1 = p := Option.some.inj hp
    exact .inr List.mem_cons_self
  · refine .of_parts rfl rfl (fun _ h => .inl (held_store h)) hrecv
      (fun _ h => .inl (held_send h)) (fun _ h => .inl (held_clicked h)) fun p hp => ?_
    cases hp

theorem msgsAdded_takes (msgs : List (MsgPtr × ToolsMessage φ α)) (g : GuiAppMgr φ α σ) :
    Takes (msgs.map Prod.fst) g (msgs.foldl msgAdded g) := by
  induction msgs generalizing g with
  | nil => exact .refl g
  | cons msg msgs ih =>
      have hone := (msgAdded_takes g msg).mono
        (List.cons_subset_cons msg.1 (List.nil_subset (msgs.map Prod.fst)))
      exact hone.trans_of (ih _) fun p hp => .inr (List.mem_cons_of_mem _ hp)

/-- The announcements of an operation of the manager. -/
theorem report_takes (g : GuiAppMgr φ α σ) {ev : Event} (h : ev.Reports) :
    Takes ev.ptrs g (g.report (g.msgMgr.step ev)) := by
  obtain ⟨hstored, told, hadded, htold⟩ := g.msgMgr.step_brings ev h
  have hmgr : Takes ev.ptrs g { g with msgMgr := g.msgMgr.step ev } :=
    .of_parts rfl (g.msgMgr.step_hands ev).protocol (fun p hp => (hstored p hp).imp_left held_store)
      (fun _ h => .inl (held_recv h)) (fun _ h => .inl (held_send h))
      (fun _ h => .inl (held_clicked h)) fun _ h => .inl (held_pending h)
  unfold report
  rw [hadded, List.drop_left]
  refine hmgr.trans_of (msgsAdded_takes told _) fun p hp => ?_
  obtain ⟨a, ha, rfl⟩ := List.mem_map.mp hp
  exact .inr (htold a ha)

/-- **Every event but `applyNewPlugins`** adds only what it brings in to the held messages. -/
theorem step_takes (g : GuiAppMgr φ α σ) (ev : GuiEvent)
    (h : ∀ plugins, ev ≠ .applyNewPlugins plugins) :
    Takes ev.ptrs g (g.step ev) := by
  cases hh : handing ev with
  | none => exact (step_kept g ev hh h).toTakes
  | some ev' =>
      obtain ⟨g₁, hk, hptrs, he⟩ := step_handing g hh
      have hreport := report_takes g₁ (handing_reports hh)
      rw [he, hptrs]
      exact (hk.toTakes.mono (List.nil_subset ev'.ptrs)).trans hreport

end GuiAppMgr

end CcToolsQt
