import CcToolsQt.GuiRuns

/-! # What events do to the manager

Three events hand messages to the message manager; all others leave the message objects and the
announcements alone and at most delete stored messages (`step_storeKept`).

`held` lists the messages kept by the store, the two lists, the selection and the parked message.
Each operation is looked at once (`Kept`): it hands nothing to the manager, leaves the plugins and
the protocol alone, and holds no message that was not held before, but the ones it is given. -/

namespace CcToolsQt

namespace GuiAppMgr
variable {φ α σ : Type}

/-- Nothing is handed to the manager, and no object changes. -/
structure StoreKept (g g' : GuiAppMgr φ α σ) : Prop where
  classes : g'.classes = g.classes
  objs : g'.msgMgr.objs = g.msgMgr.objs
  added : g'.msgMgr.added = g.msgMgr.added
  handed : g'.msgMgr.handed = g.msgMgr.handed
  allMsgs : g'.msgMgr.m_allMsgs ⊆ g.msgMgr.m_allMsgs

namespace StoreKept
variable {g g₁ g₂ : GuiAppMgr φ α σ}

theorem of_eq (hc : g₁.classes = g.classes) (hm : g₁.msgMgr = g.msgMgr) : StoreKept g g₁ :=
  ⟨hc, by rw [hm], by rw [hm], by rw [hm], by rw [hm]; exact List.Subset.refl _⟩

theorem refl (g : GuiAppMgr φ α σ) : StoreKept g g := of_eq rfl rfl

theorem trans (h₁ : StoreKept g g₁) (h₂ : StoreKept g₁ g₂) : StoreKept g g₂ where
  classes := h₂.classes.trans h₁.classes
  objs := h₂.objs.trans h₁.objs
  added := h₂.added.trans h₁.added
  handed := h₂.handed.trans h₁.handed
  allMsgs := List.Subset.trans h₂.allMsgs h₁.allMsgs

end StoreKept

/-- The messages kept between two events. -/
def held (g : GuiAppMgr φ α σ) : List MsgPtr :=
  g.msgMgr.m_allMsgs ++ g.recvList.items ++ g.sendList.items ++ g.m_clickedMsg.toList ++
    g.m_pendingDisplayMsg.toList

theorem mem_held {g : GuiAppMgr φ α σ} {p : MsgPtr} :
    p ∈ g.held ↔ p ∈ g.msgMgr.m_allMsgs ∨ p ∈ g.recvList.items ∨ p ∈ g.sendList.items ∨
      g.m_clickedMsg = some p ∨ g.m_pendingDisplayMsg = some p := by
  simp [held]

section Held
variable {g : GuiAppMgr φ α σ} {p : MsgPtr}

theorem held_store (h : p ∈ g.msgMgr.m_allMsgs) : p ∈ g.held := mem_held.mpr (.inl h)

theorem held_recv (h : p ∈ g.recvList.items) : p ∈ g.held := mem_held.mpr (.inr (.inl h))

theorem held_send (h : p ∈ g.sendList.items) : p ∈ g.held := mem_held.mpr (.inr (.inr (.inl h)))

theorem held_clicked (h : g.m_clickedMsg = some p) : p ∈ g.held :=
  mem_held.mpr (.inr (.inr (.inr (.inl h))))

theorem held_pending (h : g.m_pendingDisplayMsg = some p) : p ∈ g.held :=
  mem_held.mpr (.inr (.inr (.inr (.inr h))))

end Held

/-- The plugins and the protocol stay, and only messages of a list are added to the held ones. -/
structure Takes (ptrs : List MsgPtr) (g g' : GuiAppMgr φ α σ) : Prop where
  plugins : g'.pluginMgr = g.pluginMgr
  protocol : g'.msgMgr.m_protocol = g.msgMgr.m_protocol
  held : ∀ p ∈ g'.held, p ∈ g.held ∨ p ∈ ptrs

namespace Takes
variable {ptrs msgs : List MsgPtr} {g g₁ g₂ : GuiAppMgr φ α σ}

theorem refl (g : GuiAppMgr φ α σ) : Takes ptrs g g := ⟨rfl, rfl, fun _ hp => .inl hp⟩

theorem trans (h₁ : Takes ptrs g g₁) (h₂ : Takes ptrs g₁ g₂) : Takes ptrs g g₂ where
  plugins := h₂.plugins.trans h₁.plugins
  protocol := h₂.protocol.trans h₁.protocol
  held p hp := (h₂.held p hp).elim (h₁.held p) .inr

theorem mono (h : Takes ptrs g g₁) (hsub : ptrs ⊆ msgs) : Takes msgs g g₁ :=
  { h with held := fun p hp => (h.held p hp).imp_right fun hm => hsub hm }

/-- What the second operation adds was held before or is new. -/
theorem trans_of (h₁ : Takes ptrs g g₁) (h₂ : Takes msgs g₁ g₂)
    (hm : ∀ p ∈ msgs, p ∈ g.held ∨ p ∈ ptrs) : Takes ptrs g g₂ where
  plugins := h₂.plugins.trans h₁.plugins
  protocol := h₂.protocol.trans h₁.protocol
  held p hp := (h₂.held p hp).elim (h₁.held p) (hm p)

/-- Every place where messages are held is looked at. -/
theorem of_parts (plugins : g₁.pluginMgr = g.pluginMgr)
    (protocol : g₁.msgMgr.m_protocol = g.msgMgr.m_protocol)
    (store : ∀ p ∈ g₁.msgMgr.m_allMsgs, p ∈ g.held ∨ p ∈ ptrs)
    (recv : ∀ p ∈ g₁.recvList.items, p ∈ g.held ∨ p ∈ ptrs)
    (send : ∀ p ∈ g₁.sendList.items, p ∈ g.held ∨ p ∈ ptrs)
    (clicked : ∀ p, g₁.m_clickedMsg = some p → p ∈ g.held ∨ p ∈ ptrs)
    (pending : ∀ p, g₁.m_pendingDisplayMsg = some p → p ∈ g.held ∨ p ∈ ptrs) :
    Takes ptrs g g₁ where
  plugins := plugins
  protocol := protocol
  held p hp := by
    rcases mem_held.mp hp with h | h | h | h | h
    · exact store p h
    · exact recv p h
    · exact send p h
    · exact clicked p h
    · exact pending p h

end Takes

/-- Nothing is handed to the manager and no object changes, and only messages of a list are added
to the held ones. -/
structure Kept (ptrs : List MsgPtr) (g g' : GuiAppMgr φ α σ) : Prop
    extends StoreKept g g', Takes ptrs g g'

namespace Kept
variable {ptrs msgs : List MsgPtr} {g g₁ g₂ : GuiAppMgr φ α σ}

theorem refl (g : GuiAppMgr φ α σ) : Kept ptrs g g := ⟨.refl g, .refl g⟩

theorem trans (h₁ : Kept ptrs g g₁) (h₂ : Kept ptrs g₁ g₂) : Kept ptrs g g₂ :=
  ⟨h₁.toStoreKept.trans h₂.toStoreKept, h₁.toTakes.trans h₂.toTakes⟩

theorem trans_of (h₁ : Kept ptrs g g₁) (h₂ : Kept msgs g₁ g₂)
    (hm : ∀ p ∈ msgs, p ∈ g.held ∨ p ∈ ptrs) : Kept ptrs g g₂ :=
  ⟨h₁.toStoreKept.trans h₂.toStoreKept, h₁.toTakes.trans_of h₂.toTakes hm⟩

/-- The lists, the selection and the parked message are looked at. -/
theorem of_parts (store : StoreKept g g₁) (plugins : g₁.pluginMgr = g.pluginMgr)
    (protocol : g₁.msgMgr.m_protocol = g.msgMgr.m_protocol)
    (recv : ∀ p ∈ g₁.recvList.items, p ∈ g.held ∨ p ∈ ptrs)
    (send : ∀ p ∈ g₁.sendList.items, p ∈ g.held ∨ p ∈ ptrs)
    (clicked : ∀ p, g₁.m_clickedMsg = some p → p ∈ g.held ∨ p ∈ ptrs)
    (pending : ∀ p, g₁.m_pendingDisplayMsg = some p → p ∈ g.held ∨ p ∈ ptrs) :
    Kept ptrs g g₁ :=
  ⟨store, .of_parts plugins protocol (fun _ h => .inl (held_store (store.allMsgs h))) recv send
    clicked pending⟩

/-- Nothing is held elsewhere than before. -/
theorem of_subset (store : StoreKept g g₁) (plugins : g₁.pluginMgr = g.pluginMgr)
    (protocol : g₁.msgMgr.m_protocol = g.msgMgr.m_protocol)
    (recv : g₁.recvList.items ⊆ g.recvList.items) (send : g₁.sendList.items ⊆ g.sendList.items)
    (clicked : ∀ p, g₁.m_clickedMsg = some p → g.m_clickedMsg = some p)
    (pending : ∀ p, g₁.m_pendingDisplayMsg = some p → g.m_pendingDisplayMsg = some p) :
    Kept ptrs g g₁ :=
  of_parts store plugins protocol (fun _ h => .inl (held_recv (recv h)))
    (fun _ h => .inl (held_send (send h))) (fun p h => .inl (held_clicked (clicked p h)))
    fun p h => .inl (held_pending (pending p h))

/-- Only the store and other fields change. -/
theorem of_store (store : StoreKept g g₁) (plugins : g₁.pluginMgr = g.pluginMgr)
    (protocol : g₁.msgMgr.m_protocol = g.msgMgr.m_protocol)
    (recv : g₁.recvList.items = g.recvList.items) (send : g₁.sendList.items = g.sendList.items)
    (clicked : g₁.m_clickedMsg = g.m_clickedMsg)
    (pending : g₁.m_pendingDisplayMsg = g.m_pendingDisplayMsg) : Kept ptrs g g₁ :=
  of_subset store plugins protocol (by rw [recv]; exact List.Subset.refl _)
    (by rw [send]; exact List.Subset.refl _) (by rw [clicked]; exact fun _ h => h)
    (by rw [pending]; exact fun _ h => h)

/-- Only other fields change. -/
theorem of_eq (classes : g₁.classes = g.classes) (mgr : g₁.msgMgr = g.msgMgr)
    (plugins : g₁.pluginMgr = g.pluginMgr) (recv : g₁.recvList.items = g.recvList.items)
    (send : g₁.sendList.items = g.sendList.items) (clicked : g₁.m_clickedMsg = g.m_clickedMsg)
    (pending : g₁.m_pendingDisplayMsg = g.m_pendingDisplayMsg) : Kept ptrs g g₁ :=
  of_store (.of_eq classes mgr) plugins (by rw [mgr]) recv send clicked pending

end Kept

/-! ### Clicks -/

theorem msgClicked_kept (g : GuiAppMgr φ α σ) (msg : MsgPtr) (selType : SelectionType) :
    Kept [msg] g (g.msgClicked msg selType) := by
  unfold msgClicked
  split_ifs
  · refine Kept.of_subset (.of_eq rfl rfl) rfl rfl (List.Subset.refl _) (List.Subset.refl _)
      ?_ fun _ hp => hp
    intro p hp
    cases hp
  · refine Kept.of_parts (.of_eq rfl rfl) rfl rfl (fun _ h => .inl (held_recv h))
      (fun _ h => .inl (held_send h)) ?_ ?_
    · intro p hp
      obtain rfl : msg = p := Option.some.inj hp
      exact .inr List.mem_cons_self
    · intro p hp
      cases hp

theorem recvMsgClicked_kept (g : GuiAppMgr φ α σ) (msg : MsgPtr) :
    Kept [msg] g (g.recvMsgClicked msg) := by
  have hclear : Kept [msg] g g.sendClearSelection := .of_eq rfl rfl rfl rfl rfl rfl rfl
  have h := hclear.trans (msgClicked_kept g.sendClearSelection msg .recv)
  unfold recvMsgClicked
  dsimp only
  split_ifs
  · exact h.trans (.of_eq rfl rfl rfl rfl rfl rfl rfl)
  · exact h

theorem sendMsgClicked_kept (g : GuiAppMgr φ α σ) (msg : MsgPtr) (idx : Option ℕ) :
    Kept [msg] g (g.sendMsgClicked msg idx) := by
  have hclear : Kept [msg] g g.recvClearSelection := .of_eq rfl rfl rfl rfl rfl rfl rfl
  have h := hclear.trans (msgClicked_kept g.recvClearSelection msg .send)
  unfold sendMsgClicked
  dsimp only
  split_ifs
  · exact h.trans (.of_eq rfl rfl rfl rfl rfl rfl rfl)
  · exact h.trans (.of_eq rfl rfl rfl rfl rfl rfl rfl)

namespace Kept
variable {ptrs : List MsgPtr} {g g₁ : GuiAppMgr φ α σ} {msg : MsgPtr}

theorem recvMsgClicked (h : Kept ptrs g g₁) (hm : msg ∈ g.held ∨ msg ∈ ptrs) :
    Kept ptrs g (g₁.recvMsgClicked msg) :=
  h.trans_of (recvMsgClicked_kept g₁ msg) fun _ hp => List.mem_singleton.mp hp ▸ hm

theorem sendMsgClicked (h : Kept ptrs g g₁) (hm : msg ∈ g.held ∨ msg ∈ ptrs) (idx : Option ℕ) :
    Kept ptrs g (g₁.sendMsgClicked msg idx) :=
  h.trans_of (sendMsgClicked_kept g₁ msg idx) fun _ hp => List.mem_singleton.mp hp ▸ hm

/-- The send list gets other items. -/
theorem setSendList (h : Kept ptrs g g₁) {w : MsgListWidget}
    (hw : ∀ p ∈ w.items, p ∈ g.held ∨ p ∈ ptrs) : Kept ptrs g { g₁ with sendList := w } :=
  .of_parts { h.toStoreKept with } h.plugins h.protocol (fun p hp => h.held p (held_recv hp)) hw
    (fun p hp => h.held p (held_clicked hp)) fun p hp => h.held p (held_pending hp)

end Kept

section
variable {ptrs : List MsgPtr} (g : GuiAppMgr φ α σ)

theorem recvSetCurrentRow_kept (row : ℕ) : Kept ptrs g (g.recvSetCurrentRow row) := by
  unfold recvSetCurrentRow
  split_ifs
  · exact .refl g
  · cases hrow : g.recvList.items[row]? with
    | none => exact .refl g
    | some msg =>
        have h : Kept ptrs g { g with recvList := g.recvList.selectMsg (some row) } :=
          .of_eq rfl rfl rfl rfl rfl rfl rfl
        exact h.recvMsgClicked (.inl (held_recv (List.mem_of_getElem? hrow)))

theorem recvItemClicked_kept (row : ℕ) (ignored : Bool) :
    Kept ptrs g (g.recvItemClicked row ignored) := by
  have h : Kept ptrs g (g.recvSetCurrentRow row) := recvSetCurrentRow_kept g row
  unfold recvItemClicked
  dsimp only
  cases hrow : (g.recvSetCurrentRow row).recvList.items[row]? with
  | none => exact h
  | some msg =>
      dsimp only
      split_ifs
      · exact h
      · exact h.recvMsgClicked (h.held msg (held_recv (List.mem_of_getElem? hrow)))

theorem sendSetCurrentRow_kept (row : ℕ) : Kept ptrs g (g.sendSetCurrentRow row) := by
  unfold sendSetCurrentRow
  split_ifs
  · exact .refl g
  · cases hrow : g.sendList.items[row]? with
    | none => exact .refl g
    | some msg =>
        have h : Kept ptrs g { g with sendList := g.sendList.selectMsg (some row) } :=
          .of_eq rfl rfl rfl rfl rfl rfl rfl
        exact h.sendMsgClicked (.inl (held_send (List.mem_of_getElem? hrow))) (some row)

theorem sendItemClicked_kept (row : ℕ) (ignored : Bool) :
    Kept ptrs g (g.sendItemClicked row ignored) := by
  have h : Kept ptrs g (g.sendSetCurrentRow row) := sendSetCurrentRow_kept g row
  unfold sendItemClicked
  dsimp only
  cases hrow : (g.sendSetCurrentRow row).sendList.items[row]? with
  | none => exact h
  | some msg =>
      dsimp only
      split_ifs
      · exact h
      · exact h.sendMsgClicked (h.held msg (held_send (List.mem_of_getElem? hrow))) (some row)

/-! ### The received list -/

theorem clearRecvList_kept (reportDeleted : Bool) :
    Kept ptrs g (g.clearRecvList reportDeleted) := by
  have h : Kept ptrs g (g.clearRecvList false) := by
    unfold clearRecvList
    cases g.m_selType with
    | send =>
        exact .of_subset (.of_eq rfl rfl) rfl rfl (List.nil_subset _) (List.Subset.refl _)
          (fun _ hp => hp) fun _ hp => hp
    | none =>
        refine .of_subset (.of_eq rfl rfl) rfl rfl (List.nil_subset _) (List.Subset.refl _)
          (fun p hp => ?_) fun _ hp => hp
        cases hp
    | recv =>
        refine .of_subset (.of_eq rfl rfl) rfl rfl (List.nil_subset _) (List.Subset.refl _)
          (fun p hp => ?_) fun _ hp => hp
        cases hp
  cases reportDeleted with
  | false => exact h
  | true =>
      rw [clearRecvList_true]
      refine h.trans ?_
      unfold deleteMessages
      split_ifs
      · exact .of_store ⟨rfl, rfl, rfl, rfl, List.nil_subset _⟩ rfl rfl rfl rfl rfl rfl
      · have hsub := (MsgMgr.deleteLoop_sublist (g.clearRecvList false).msgMgr.seqNumber
          g.recvList.items (g.clearRecvList false).msgMgr.m_allMsgs).subset
        exact .of_store ⟨rfl, rfl, rfl, rfl, hsub⟩ rfl rfl rfl rfl rfl rfl

theorem dropAllMsgs_kept : Kept ptrs g g.dropAllMsgs := by
  refine (clearRecvList_kept g false).trans ?_
  exact .of_store ⟨rfl, rfl, rfl, rfl, List.nil_subset _⟩ rfl rfl rfl rfl rfl rfl

theorem recvDeleteClicked_kept : Kept ptrs g g.recvDeleteClicked := by
  unfold recvDeleteClicked
  split
  · rename_i msg _
    split_ifs
    · have hdel : Kept ptrs g
          (clearDisplayedMessage { g with msgMgr := g.msgMgr.deleteMsg msg }) := by
        refine .of_subset ⟨rfl, rfl, rfl, rfl, List.eraseP_sublist.subset⟩ rfl rfl
          (List.Subset.refl _) (List.Subset.refl _) (fun p hp => ?_) fun _ hp => hp
        cases hp
      have hsel : ∀ g' : GuiAppMgr φ α σ, Kept ptrs g' g'.recvDeleteSelectedMsg := by
        intro g'
        have hsub := (deleteCurrentItem_sublist g'.recvList).subset
        have herase : Kept ptrs g' { g' with recvList := g'.recvList.deleteCurrentItem } :=
          .of_subset (.of_eq rfl rfl) rfl rfl hsub (List.Subset.refl _) (fun _ hp => hp)
            fun _ hp => hp
        unfold recvDeleteSelectedMsg
        dsimp only
        split
        · rename_i next hnext
          exact herase.recvMsgClicked (.inl (held_recv (hsub (mem_of_currentItem hnext))))
        · exact herase
      exact (hdel.trans (hsel _)).trans (.of_eq rfl rfl rfl rfl rfl rfl rfl)
    · exact .refl g
  · exact .refl g

theorem refreshMsgs_kept (clickedMsg : Option MsgPtr) (msgs : List MsgPtr) :
    Kept msgs g (msgs.foldl (refreshMsg clickedMsg) g) := by
  induction msgs generalizing g with
  | nil => exact .refl g
  | cons msg msgs ih =>
      have hone : Kept (msg :: msgs) g (refreshMsg clickedMsg g msg) := by
        have hadd : Kept (msg :: msgs) g (g.addMsgToRecvList msg) := by
          refine .of_parts (.of_eq rfl rfl) rfl rfl (fun p hp => ?_)
            (fun _ h => .inl (held_send h)) (fun _ h => .inl (held_clicked h))
            fun _ h => .inl (held_pending h)
          rcases List.mem_append.mp hp with hp | hp
          · exact .inl (held_recv hp)
          · exact .inr (List.mem_singleton.mp hp ▸ List.mem_cons_self)
        unfold refreshMsg
        dsimp only
        split_ifs
        · exact hadd.recvMsgClicked (.inr List.mem_cons_self)
        · exact hadd
        · exact .refl g
      exact hone.trans_of (ih _) fun p hp => .inr (List.mem_cons_of_mem _ hp)

theorem refreshRecvList_kept : Kept ptrs g g.refreshRecvList := by
  have hun : Kept ptrs g g.unselectRecvMsg := by
    unfold unselectRecvMsg
    split
    · rename_i msg _ hclicked
      exact (Kept.refl g).recvMsgClicked (.inl (held_clicked hclicked))
    · exact .of_eq rfl rfl rfl rfl rfl rfl rfl
    · exact .refl g
  have hclear := hun.trans (clearRecvList_kept _ false)
  have h := hclear.trans_of (refreshMsgs_kept _ g.m_clickedMsg _) fun p hp =>
    hclear.held p (held_store hp)
  unfold refreshRecvList
  dsimp only
  split_ifs
  · exact h.trans (.of_eq rfl rfl rfl rfl rfl rfl rfl)
  · exact h

theorem updateRecvListMode_kept (mode : UInt32) (checked : Bool) :
    Kept ptrs g (g.updateRecvListMode mode checked) := by
  unfold updateRecvListMode
  dsimp only
  refine Kept.trans ?_ (refreshRecvList_kept _)
  split_ifs <;> exact .of_eq rfl rfl rfl rfl rfl rfl rfl

theorem setFilteredMessages_kept (filteredMessages : List QString) :
    Kept ptrs g (g.setFilteredMessages filteredMessages) := by
  unfold setFilteredMessages
  dsimp only
  split_ifs
  · exact .refl g
  · refine Kept.trans ?_ (refreshRecvList_kept _)
    exact .of_eq rfl rfl rfl rfl rfl rfl rfl
  · exact .of_eq rfl rfl rfl rfl rfl rfl rfl

/-! ### The send list -/

theorem sendAddNewMessage_kept (msg : MsgPtr) : Kept [msg] g (g.sendAddNewMessage msg) := by
  have hadd : Kept [msg] g { g with
      m_sendListCount := g.m_sendListCount + 1, sendList := g.sendList.addMessage msg } := by
    refine .of_parts (.of_eq rfl rfl) rfl rfl (fun _ h => .inl (held_recv h))
      (fun p hp => ?_) (fun _ h => .inl (held_clicked h)) fun _ h => .inl (held_pending h)
    exact (List.mem_append.mp hp).imp_left held_send
  unfold sendAddNewMessage
  exact hadd.sendMsgClicked (.inr List.mem_cons_self) _

theorem sendUpdateMessage_kept (msg : MsgPtr) : Kept [msg] g (g.sendUpdateMessage msg) := by
  unfold sendUpdateMessage
  split_ifs
  · refine .of_parts (.of_eq rfl rfl) rfl rfl (fun _ h => .inl (held_recv h))
      (fun p hp => ?_) (fun p hp => ?_) fun p hp => ?_
    · have hp' : p ∈ (g.sendList.updateCurrentMessage msg).items := hp
      unfold MsgListWidget.updateCurrentMessage at hp'
      split at hp'
      · exact .inl (held_send hp')
      · rcases List.mem_or_eq_of_mem_set hp' with hp' | rfl
        · exact .inl (held_send hp')
        · exact .inr List.mem_cons_self
    · obtain rfl : msg = p := Option.some.inj hp
      exact .inr List.mem_cons_self
    · cases hp
  · exact .refl g

theorem sendUpdateSelected_kept : Kept ptrs g g.sendUpdateSelected := by
  unfold sendUpdateSelected
  split
  · rename_i msg hclicked
    exact (Kept.refl g).trans_of (sendUpdateMessage_kept g msg) fun p hp =>
      .inl (List.mem_singleton.mp hp ▸ held_clicked hclicked)
  · exact .refl g

theorem sendDeleteClicked_kept : Kept ptrs g g.sendDeleteClicked := by
  unfold sendDeleteClicked
  split_ifs
  · have hsub := (deleteCurrentItem_sublist g.sendList).subset
    have herase : Kept ptrs g { g.clearDisplayedMessage with
        sendList := g.sendList.deleteCurrentItem } := by
      refine .of_subset (.of_eq rfl rfl) rfl rfl (List.Subset.refl _) hsub (fun p hp => ?_)
        fun _ hp => hp
      cases hp
    have hdel : Kept ptrs g g.clearDisplayedMessage.sendDeleteSelectedMsg := by
      unfold sendDeleteSelectedMsg
      dsimp only
      split
      · rename_i next hnext
        exact herase.sendMsgClicked (.inl (held_send (hsub (mem_of_currentItem hnext)))) _
      · exact herase
    dsimp only
    split_ifs <;> exact hdel.trans (.of_eq rfl rfl rfl rfl rfl rfl rfl)
  · exact .refl g

theorem sendClearClicked_kept : Kept ptrs g g.sendClearClicked := by
  unfold sendClearClicked
  dsimp only
  split_ifs
  · refine .of_subset (.of_eq rfl rfl) rfl rfl (List.Subset.refl _) (List.nil_subset _)
      (fun p hp => ?_) fun _ hp => hp
    cases hp
  · exact .of_subset (.of_eq rfl rfl) rfl rfl (List.Subset.refl _) (List.nil_subset _)
      (fun _ hp => hp) fun _ hp => hp
  · exact .refl g

theorem moveItem_kept (fromRow toRow : ℕ) : Kept ptrs g (g.moveItem fromRow toRow) := by
  unfold moveItem
  split
  · rename_i msg hmsg
    have hmem := List.mem_of_getElem? hmsg
    set neighbour := if fromRow < (g.sendList.items.eraseIdx fromRow).length then fromRow + 1
      else fromRow - 1
    have hset : Kept ptrs g (g.sendSetCurrentRow neighbour) := sendSetCurrentRow_kept g neighbour
    set w := { (g.sendSetCurrentRow neighbour).sendList with
      items := (g.sendList.items.eraseIdx fromRow).insertIdx toRow msg } with hw
    have hitems : ∀ p ∈ w.items, p ∈ g.held ∨ p ∈ ptrs := by
      intro p hp
      rcases List.eq_or_mem_of_mem_insertIdx hp with rfl | hp
      · exact .inl (held_send hmem)
      · exact .inl (held_send ((List.eraseIdx_sublist _ _).subset hp))
    exact (hset.setSendList hitems).sendMsgClicked (.inl (held_send hmem)) _
  · exact .refl g

theorem sendMoveClicked_kept (dest : MoveTo) : Kept ptrs g (g.sendMoveClicked dest) := by
  unfold sendMoveClicked
  cases g.sendList.currentRow with
  | none => exact .refl g
  | some curRow =>
      dsimp only
      cases dest
      all_goals
        dsimp only
        split_ifs
        · exact .refl g
        · exact moveItem_kept g _ _

theorem sendUpdateList_kept (msgs : List MsgPtr) : Kept ptrs g (g.sendUpdateList msgs) := by
  unfold sendUpdateList
  split
  · rename_i clickedMsg _ hclicked
    have hoff : Kept ptrs g { g.sendMsgClicked clickedMsg none with
        m_sendListCount := msgs.length } :=
      ((Kept.refl g).sendMsgClicked (.inl (held_clicked hclicked)) none).trans
        (.of_eq rfl rfl rfl rfl rfl rfl rfl)
    dsimp only
    split_ifs
    · exact hoff.sendMsgClicked (.inl (held_clicked hclicked)) _
    · exact hoff
  · exact .of_eq rfl rfl rfl rfl rfl rfl rfl

theorem sendLoadMsgsFromFile_kept (clear : Bool) (msgs : List MsgPtr) :
    Kept msgs g (g.sendLoadMsgsFromFile clear msgs) := by
  unfold sendLoadMsgsFromFile
  refine ((Kept.refl g).setSendList fun p hp => ?_).trans (sendUpdateList_kept _ _)
  rw [addMessages_items] at hp
  rcases List.mem_append.mp hp with hp | hp
  · cases clear with
    | false => exact .inl (held_send hp)
    | true => cases hp
  · exact .inr hp

theorem pendingDisplayTimeout_kept : Kept ptrs g g.pendingDisplayTimeout := by
  unfold pendingDisplayTimeout
  dsimp only
  split
  · refine .of_subset (.of_eq rfl rfl) rfl rfl (List.Subset.refl _) (List.Subset.refl _)
      (fun _ hp => hp) fun p hp => ?_
    cases hp
  · exact .of_eq rfl rfl rfl rfl rfl rfl rfl

end

/-! ### Plugins -/

theorem applyNewPlugins_storeKept (g : GuiAppMgr φ α σ) (plugins : List PluginInfoPtr) :
    StoreKept g (g.applyNewPlugins plugins) := by
  have hsetup : ∀ (g' : GuiAppMgr φ α σ) (hasApplied needsReload : Bool),
      StoreKept g' (g'.setupPlugins plugins hasApplied needsReload) := by
    intro g' hasApplied needsReload
    unfold setupPlugins
    cases hasApplied <;> cases needsReload <;> dsimp only <;> split_ifs
    all_goals exact ⟨rfl, rfl, rfl, rfl, List.Subset.refl _⟩
  unfold applyNewPlugins
  dsimp only
  refine StoreKept.trans ?_ (hsetup _ _ _)
  have hsend : Kept [] g (if 0 < g.m_sendListCount ∧ g.pluginMgr.isProtocolChanging plugins then
      g.sendClearClicked else g) := by
    split_ifs
    · exact sendClearClicked_kept g
    · exact .refl g
  generalize (if 0 < g.m_sendListCount ∧ g.pluginMgr.isProtocolChanging plugins then
    g.sendClearClicked else g) = g₁ at hsend ⊢
  split_ifs
  · exact (hsend.trans (dropAllMsgs_kept g₁)).toStoreKept
  · exact hsend.toStoreKept

/-! ### Events -/

/-- The event of the message manager an event is, if it hands messages over. -/
def handing : GuiEvent → Option Event
  | .socketDataReceived dataInfo reads => some (.socketDataReceived dataInfo reads)
  | .sendMsgs msgs => some (.sendMsgs msgs)
  | .recvLoadMsgsFromFile msgs => some (.addMsgs msgs true)
  | _ => none

theorem handing_reports {ev : GuiEvent} {ev' : Event} (h : handing ev = some ev') :
    ev'.Reports := by
  cases ev <;> simp only [handing, Option.some.injEq, reduceCtorEq] at h <;> subst h <;> trivial

/-- An event that hands nothing over and applies no plugins. -/
theorem step_kept (g : GuiAppMgr φ α σ) (ev : GuiEvent) (hh : handing ev = none)
    (ha : ∀ plugins, ev ≠ .applyNewPlugins plugins) : Kept ev.ptrs g (g.step ev) := by
  cases ev with
  | socketDataReceived dataInfo reads => cases hh
  | sendMsgs msgs => cases hh
  | recvLoadMsgsFromFile msgs => cases hh
  | setRecvEnabled enabled =>
      exact .of_store ⟨rfl, rfl, rfl, rfl, List.Subset.refl _⟩ rfl rfl rfl rfl rfl rfl
  | recvSetCurrentRow row => exact recvSetCurrentRow_kept g row
  | recvItemClicked row ignored => exact recvItemClicked_kept g row ignored
  | recvDeleteClicked => exact recvDeleteClicked_kept g
  | recvClearClicked =>
      show Kept _ g g.recvClearClicked
      unfold recvClearClicked
      split_ifs
      · exact clearRecvList_kept g true
      · exact .refl g
  | recvShowRecvToggled checked => exact updateRecvListMode_kept g _ checked
  | recvShowSentToggled checked => exact updateRecvListMode_kept g _ checked
  | recvShowGarbageToggled checked => exact updateRecvListMode_kept g _ checked
  | recvApplyFilterToggled checked => exact updateRecvListMode_kept g _ checked
  | setFilteredMessages filteredMessages => exact setFilteredMessages_kept g _
  | sendSetCurrentRow row => exact sendSetCurrentRow_kept g row
  | sendItemClicked row ignored => exact sendItemClicked_kept g row ignored
  | sendAddNewMessage msg => exact sendAddNewMessage_kept g msg
  | sendUpdateMessage msg => exact sendUpdateMessage_kept g msg
  | sendUpdateSelected => exact sendUpdateSelected_kept g
  | sendDeleteClicked => exact sendDeleteClicked_kept g
  | sendClearClicked => exact sendClearClicked_kept g
  | sendMoveClicked dest => exact sendMoveClicked_kept g dest
  | sendLoadMsgsFromFile clear msgs => exact sendLoadMsgsFromFile_kept g clear msgs
  | applyNewPlugins plugins => exact absurd rfl (ha plugins)
  | pendingDisplayTimeout => exact pendingDisplayTimeout_kept g

theorem msgsAdded_kept (msgs : List (MsgPtr × ToolsMessage φ α)) (g : GuiAppMgr φ α σ) :
    (msgs.foldl msgAdded g).msgMgr = g.msgMgr ∧ (msgs.foldl msgAdded g).classes = g.classes := by
  induction msgs generalizing g with
  | nil => exact ⟨rfl, rfl⟩
  | cons msg msgs ih =>
      have h : (g.msgAdded msg).msgMgr = g.msgMgr ∧ (g.msgAdded msg).classes = g.classes := by
        unfold msgAdded
        dsimp only
        split_ifs <;> exact ⟨rfl, rfl⟩
      exact ⟨(ih _).1.trans h.1, (ih _).2.trans h.2⟩

theorem report_msgMgr (g : GuiAppMgr φ α σ) (mgr : MsgMgr φ α σ) : (g.report mgr).msgMgr = mgr :=
  (msgsAdded_kept _ _).1

theorem report_classes (g : GuiAppMgr φ α σ) (mgr : MsgMgr φ α σ) :
    (g.report mgr).classes = g.classes :=
  (msgsAdded_kept _ _).2

/-- An event that hands messages over reports what the manager does with them. -/
theorem step_handing (g : GuiAppMgr φ α σ) {ev : GuiEvent} {ev' : Event}
    (h : handing ev = some ev') :
    ∃ g₁, Kept [] g g₁ ∧ ev.ptrs = ev'.ptrs ∧ g.step ev = g₁.report (g₁.msgMgr.step ev') := by
  cases ev <;> cases h
  case recvLoadMsgsFromFile msgs => exact ⟨g.dropAllMsgs, dropAllMsgs_kept g, rfl, rfl⟩
  all_goals exact ⟨g, .refl g, rfl, rfl⟩

/-- **Every event** is one of the manager, on what is left in the store, or hands it nothing. -/
theorem step_storeKept (g : GuiAppMgr φ α σ) (ev : GuiEvent) :
    match handing ev with
    | none => StoreKept g (g.step ev)
    | some ev' => ∃ g₁, StoreKept g g₁ ∧ (g.step ev).classes = g.classes ∧
        (g.step ev).msgMgr = g₁.msgMgr.step ev' := by
  cases hh : handing ev with
  | none =>
      by_cases ha : ∃ plugins, ev = .applyNewPlugins plugins
      · obtain ⟨plugins, rfl⟩ := ha
        exact applyNewPlugins_storeKept g plugins
      · exact (step_kept g ev hh fun plugins e => ha ⟨plugins, e⟩).toStoreKept
  | some ev' =>
      obtain ⟨g₁, hk, -, he⟩ := step_handing g hh
      rw [he]
      exact ⟨g₁, hk.toStoreKept, (report_classes _ _).trans hk.classes, report_msgMgr _ _⟩

end GuiAppMgr

end CcToolsQt
