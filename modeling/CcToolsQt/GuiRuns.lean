import CcToolsQt.GuiView
import CcToolsQt.Lib.Runs

/-! # Runs of the application

`ViewStep` says all that an event can do to the received list and the store together; every event
is one of its six cases (`step_view`).  `Inv` is the invariant of every run, whatever the protocol
sends: the list holds stored messages, each once, and a message selected in it is at the current
row.

* `recvList_eq_filter`: without replies from inside `messageReceivedReport()` the list is the
  sub-list of the store the mode and the filter let through, in every state reached.
* `recvClearClicked_deletes_iff`: when clearing the list deletes exactly what it displays. -/

namespace CcToolsQt

/-! ### The store under other operations -/

namespace MsgMgr
variable {φ α σ : Type}

/-- Messages are deleted. -/
theorem Known.sublist {earlier : List MsgPtr} {s s' : MsgMgr φ α σ} (h : Known earlier s)
    (hall : s'.m_allMsgs.Sublist s.m_allMsgs) (hobjs : s'.objs = s.objs)
    (hnext : s'.m_nextMsgNum = s.m_nextMsgNum) : Known earlier s' := by
  have hnum : s'.seqNumber = s.seqNumber := by
    funext p
    rw [seqNumber, hobjs]
    rfl
  refine ⟨fun p hp => h.mem p (hall.subset hp), fun p hp => ?_, ?_⟩
  · rw [hnum, hnext]
    exact h.lt p (hall.subset hp)
  · rw [hnum]
    exact (hall.map _).nodup h.nodup

theorem Known.mono {earlier later : List MsgPtr} {s : MsgMgr φ α σ} (h : Known earlier s)
    (hsub : earlier ⊆ later) : Known later s :=
  ⟨fun p hp => hsub (h.mem p hp), h.lt, h.nodup⟩

theorem Known.allMsgs_nodup {earlier : List MsgPtr} {s : MsgMgr φ α σ} (h : Known earlier s) :
    s.m_allMsgs.Nodup := h.nodup.of_map

end MsgMgr

namespace GuiAppMgr
variable {φ α σ : Type}

/-! ### The invariant -/

/-- What holds between any two events; `earlier` are the messages brought in so far. -/
structure Inv (earlier : List MsgPtr) (g : GuiAppMgr φ α σ) : Prop where
  known : MsgMgr.Known earlier g.msgMgr
  send : ∀ p ∈ g.sendList.items, p ∈ earlier ∧ p ∉ g.msgMgr.m_allMsgs
  selected : Selected earlier g
  nodup : g.recvList.items.Nodup
  sub : g.recvList.items ⊆ g.msgMgr.m_allMsgs
  count : g.m_recvListCount = g.recvList.items.length

theorem Inv.mono {earlier later : List MsgPtr} {g : GuiAppMgr φ α σ} (h : Inv earlier g)
    (hsub : earlier ⊆ later) : Inv later g :=
  { h with
    known := h.known.mono hsub
    send := fun p hp => ⟨hsub (h.send p hp).1, (h.send p hp).2⟩
    selected := h.selected.mono hsub }

/-- **All that an event can do** to the received list and the store; the order of the arriving
messages is kept under `o`. -/
inductive ViewStep (o : Prop) (g g' : GuiAppMgr φ α σ) : Prop where
  | same (h : SameView g g')
  | refreshed (store : g'.msgMgr.m_allMsgs = g.msgMgr.m_allMsgs)
      (items : g'.recvList.items = g'.msgMgr.m_allMsgs.filter g'.visible)
  | arrived (stored announced : List MsgPtr)
      (store : g'.msgMgr.m_allMsgs = g.msgMgr.m_allMsgs ++ stored)
      (items : g'.recvList.items = g.recvList.items ++ announced.filter g'.visible)
      (visible : ∀ p ∈ g.msgMgr.m_allMsgs, g'.visible p = g.visible p)
      (perm : announced.Perm stored) (order : o → announced = stored)
  | deleted (p : MsgPtr) (store : g'.msgMgr.m_allMsgs = g.msgMgr.m_allMsgs.erase p)
      (items : g'.recvList.items = g.recvList.items.erase p) (visible : g'.visible = g.visible)
  | cleared (items : g'.recvList.items = []) (visible : g'.visible = g.visible)
      (store : g'.msgMgr.m_allMsgs =
        if g.msgMgr.m_allMsgs.length = g.recvList.items.length then []
        else MsgMgr.deleteLoop g.msgMgr.seqNumber g.recvList.items g.msgMgr.m_allMsgs)
  | reloaded (stored announced : List MsgPtr) (store : g'.msgMgr.m_allMsgs = stored)
      (items : g'.recvList.items = announced.filter g'.visible)
      (perm : announced.Perm stored) (order : o → announced = stored)

/-- An event keeps the list a list of stored messages without repetitions. -/
theorem ViewStep.list {o : Prop} {g g' : GuiAppMgr φ α σ} (hs : ViewStep o g g')
    (hstore' : g'.msgMgr.m_allMsgs.Nodup) (hnd : g.recvList.items.Nodup)
    (hsub : g.recvList.items ⊆ g.msgMgr.m_allMsgs) :
    g'.recvList.items.Nodup ∧ g'.recvList.items ⊆ g'.msgMgr.m_allMsgs := by
  cases hs with
  | same h =>
      rw [h.items, h.allMsgs]
      exact ⟨hnd, hsub⟩
  | refreshed store items =>
      rw [items]
      exact ⟨hstore'.filter _, List.filter_sublist.subset⟩
  | arrived stored announced store items visible perm order =>
      rw [store] at hstore' ⊢
      obtain ⟨-, hst, hd⟩ := List.nodup_append'.mp hstore'
      have hann : ∀ p ∈ announced.filter g'.visible, p ∈ stored := fun p hp =>
        perm.mem_iff.mp (List.mem_of_mem_filter hp)
      rw [items]
      constructor
      · refine List.nodup_append'.mpr ⟨hnd, (perm.nodup_iff.mpr hst).filter _, ?_⟩
        exact fun p hp hq => hd (hsub hp) (hann p hq)
      · exact List.append_subset.mpr
          ⟨List.subset_append_of_subset_left _ hsub,
            fun p hp => List.mem_append_right _ (hann p hp)⟩
  | deleted p store items visible =>
      rw [items, store]
      refine ⟨hnd.erase p, fun q hq => ?_⟩
      obtain ⟨hne, hq⟩ := (hnd.mem_erase_iff).mp hq
      exact (List.mem_erase_of_ne hne).mpr (hsub hq)
  | cleared items visible store =>
      rw [items]
      exact ⟨List.nodup_nil, List.nil_subset _⟩
  | reloaded stored announced store items perm order =>
      rw [store] at hstore'
      rw [items, store]
      exact ⟨(perm.nodup_iff.mpr hstore').filter _, fun p hp =>
        perm.mem_iff.mp (List.mem_of_mem_filter hp)⟩

/-- **One event keeps the view the filtered store**, as long as the order is kept. -/
theorem ViewStep.view {o : Prop} {g g' : GuiAppMgr φ α σ} (hs : ViewStep o g g') (ho : o)
    (hnum : (g.msgMgr.m_allMsgs.map g.msgMgr.seqNumber).Nodup)
    (hv : g.recvList.items = g.msgMgr.m_allMsgs.filter g.visible) :
    g'.recvList.items = g'.msgMgr.m_allMsgs.filter g'.visible := by
  have hstore : g.msgMgr.m_allMsgs.Nodup := hnum.of_map
  cases hs with
  | same h => rw [h.items, h.allMsgs, h.visible, hv]
  | refreshed store items => exact items
  | arrived stored announced store items visible perm order =>
      rw [items, store, List.filter_append, order ho, hv, List.filter_congr visible]
  | deleted p store items visible =>
      rw [items, store, visible, hv, hstore.erase_eq_filter, (hstore.filter _).erase_eq_filter,
        List.filter_filter, List.filter_filter]
      simp only [Bool.and_comm]
  | cleared items visible store =>
      rw [items, visible, store]
      split_ifs with hlen
      · rfl
      · have hsub : g.recvList.items.Sublist g.msgMgr.m_allMsgs := hv ▸ List.filter_sublist
        rw [(MsgMgr.deleteLoop_eq_filter_iff _ _ _ hnum hsub.subset (hsub.nodup hstore)).mpr hsub,
          List.filter_filter, eq_comm, List.filter_eq_nil_iff]
        intro p hp hboth
        have hmem : p ∈ g.recvList.items → False := by simpa using (Bool.and_eq_true_iff.mp hboth).2
        refine hmem ?_
        rw [hv]
        exact List.mem_filter.mpr ⟨hp, (Bool.and_eq_true_iff.mp hboth).1⟩
  | reloaded stored announced store items perm order => rw [items, store, order ho]

/-! ### Clicks and the send list -/

/-- An operation on the send list or the selection. -/
structure SendStep (earlier : List MsgPtr) (g g' : GuiAppMgr φ α σ) : Prop where
  view : SameView g g'
  send : ∀ p ∈ g'.sendList.items, p ∈ earlier ∧ p ∉ g.msgMgr.m_allMsgs
  selected : Selected earlier g'

theorem SendStep.inv {earlier : List MsgPtr} {g g' : GuiAppMgr φ α σ}
    (h : SendStep earlier g g') (hi : Inv earlier g) : Inv earlier g' where
  known := hi.known.sublist (h.view.allMsgs ▸ .refl _) h.view.objs h.view.next
  send := by rw [h.view.allMsgs]; exact h.send
  selected := h.selected
  nodup := by rw [h.view.items]; exact hi.nodup
  sub := by rw [h.view.items, h.view.allMsgs]; exact hi.sub
  count := by rw [h.view.items, h.view.count]; exact hi.count

theorem Inv.sendStep {earlier : List MsgPtr} {g : GuiAppMgr φ α σ} (h : Inv earlier g) :
    SendStep earlier g g := ⟨.refl g, h.send, h.selected⟩

theorem SendStep.setCount {earlier : List MsgPtr} {g g' : GuiAppMgr φ α σ}
    (h : SendStep earlier g g') (n : ℕ) :
    SendStep earlier g { g' with m_sendListCount := n } :=
  ⟨{ h.view with }, h.send, h.selected.congr rfl rfl rfl rfl⟩

theorem SendStep.clearSelection {earlier : List MsgPtr} {g g' : GuiAppMgr φ α σ}
    (h : SendStep earlier g g') : SendStep earlier g g'.sendClearSelection :=
  ⟨{ h.view with }, h.send, h.selected.congr rfl rfl rfl rfl⟩

/-- Nothing but the rows, the display or the counter of the send list changes. -/
theorem Inv.sendStep_of {earlier : List MsgPtr} {g g' : GuiAppMgr φ α σ} (h : Inv earlier g)
    (hv : SameView g g') (hsend : g'.sendList.items ⊆ g.sendList.items)
    (ht : g'.m_selType = g.m_selType) (hc : g'.m_clickedMsg = g.m_clickedMsg)
    (hr : g'.recvList = g.recvList) : SendStep earlier g g' :=
  ⟨hv, fun p hp => h.send p (hsend hp), h.selected.congr ht hc hr hv.allMsgs⟩

/-- A click on an item of the send list that the list may have got just before. -/
theorem sendMsgClicked_sendStep {earlier : List MsgPtr} {g g₁ : GuiAppMgr φ α σ} {p : MsgPtr}
    (idx : Option ℕ) (hv : SameView g g₁)
    (hsend : ∀ q ∈ g₁.sendList.items, q ∈ earlier ∧ q ∉ g.msgMgr.m_allMsgs)
    (hp : p ∈ earlier ∧ p ∉ g.msgMgr.m_allMsgs) :
    SendStep earlier g (g₁.sendMsgClicked p idx) := by
  refine ⟨hv.trans (sendMsgClicked_sameView g₁ p idx), ?_, ?_⟩
  · rw [sendMsgClicked_sendItems]
    exact hsend
  · exact sendMsgClicked_selected idx hp.1 (by rw [hv.allMsgs]; exact hp.2)

theorem recvSetCurrentRow_sendStep {earlier : List MsgPtr} {g : GuiAppMgr φ α σ}
    (h : Inv earlier g) (row : ℕ) : SendStep earlier g (g.recvSetCurrentRow row) := by
  unfold recvSetCurrentRow
  split_ifs
  · exact h.sendStep
  · cases hrow : g.recvList.items[row]? with
    | none => exact h.sendStep
    | some p =>
        have hv : SameView g { g with recvList := g.recvList.selectMsg (some row) } :=
          ⟨rfl, rfl, rfl, rfl, rfl, rfl⟩
        refine ⟨hv.trans (recvMsgClicked_sameView _ p), ?_, recvMsgClicked_selected earlier hrow⟩
        rw [recvMsgClicked_sendItems]
        exact h.send

/-- The mouse button on an item makes it the current item; the message was not selected unless it
was the current item before. -/
theorem recvSetCurrentRow_currentItem {earlier : List MsgPtr} {g : GuiAppMgr φ α σ}
    (h : Inv earlier g) {row : ℕ} {p : MsgPtr} (hrow : g.recvList.items[row]? = some p) :
    (g.recvSetCurrentRow row).recvList.currentItem = some p := by
  unfold recvSetCurrentRow
  split_ifs with hcur
  · simp [MsgListWidget.currentItem, hcur, hrow]
  · have hne : g.m_clickedMsg ≠ some p := by
      intro hc
      cases ht : g.m_selType with
      | none => simp [h.selected.none ht] at hc
      | send =>
          obtain ⟨q, hq, -, hs⟩ := h.selected.send ht
          obtain rfl : q = p := Option.some.inj (hq.symm.trans hc)
          exact hs (h.sub (List.mem_of_getElem? hrow))
      | recv =>
          obtain ⟨q, hq, hi, -⟩ := h.selected.recv ht
          obtain rfl : q = p := Option.some.inj (hq.symm.trans hc)
          obtain ⟨r, hr, hget⟩ := Option.bind_eq_some_iff.mp hi
          obtain ⟨hlt, e⟩ := List.getElem?_eq_some_iff.mp hrow
          obtain ⟨hlt', e'⟩ := List.getElem?_eq_some_iff.mp hget
          have hrr : r = row := (h.nodup.getElem_inj_iff).mp (e'.trans e.symm)
          exact hcur (hr.trans (congrArg some hrr))
    simp [hrow, recvMsgClicked, msgClicked, sendClearSelection, hne, displayMessage,
      recvSelectOnAdd, MsgListWidget.selectOnAdd, MsgListWidget.selectMsg,
      MsgListWidget.currentItem]

theorem recvItemClicked_sendStep {earlier : List MsgPtr} {g : GuiAppMgr φ α σ}
    (h : Inv earlier g) (row : ℕ) (ignored : Bool) :
    SendStep earlier g (g.recvItemClicked row ignored) := by
  have hset := recvSetCurrentRow_sendStep h row
  unfold recvItemClicked
  dsimp only
  rw [hset.view.items]
  cases hrow : g.recvList.items[row]? with
  | none => exact hset
  | some p =>
      dsimp only
      split_ifs
      · exact hset
      · refine ⟨hset.view.trans (recvMsgClicked_sameView _ p), ?_,
          recvMsgClicked_selected earlier (recvSetCurrentRow_currentItem h hrow)⟩
        rw [recvMsgClicked_sendItems]
        exact hset.send

theorem sendSetCurrentRow_sendStep {earlier : List MsgPtr} {g : GuiAppMgr φ α σ}
    (h : Inv earlier g) (row : ℕ) : SendStep earlier g (g.sendSetCurrentRow row) := by
  unfold sendSetCurrentRow
  split_ifs
  · exact h.sendStep
  · cases hrow : g.sendList.items[row]? with
    | none => exact h.sendStep
    | some p =>
        exact sendMsgClicked_sendStep _ ⟨rfl, rfl, rfl, rfl, rfl, rfl⟩ h.send
          (h.send p (List.mem_of_getElem? hrow))

theorem sendItemClicked_sendStep {earlier : List MsgPtr} {g : GuiAppMgr φ α σ}
    (h : Inv earlier g) (row : ℕ) (ignored : Bool) :
    SendStep earlier g (g.sendItemClicked row ignored) := by
  have hset := sendSetCurrentRow_sendStep h row
  unfold sendItemClicked
  dsimp only
  cases hrow : (g.sendSetCurrentRow row).sendList.items[row]? with
  | none => exact hset
  | some p =>
      dsimp only
      split_ifs
      · exact hset
      · exact sendMsgClicked_sendStep _ hset.view hset.send
          (hset.send p (List.mem_of_getElem? hrow))

theorem sendAddNewMessage_sendStep {earlier : List MsgPtr} {g : GuiAppMgr φ α σ}
    (h : Inv earlier g) {p : MsgPtr} (hp : p ∈ earlier ∧ p ∉ g.msgMgr.m_allMsgs) :
    SendStep earlier g (g.sendAddNewMessage p) := by
  refine sendMsgClicked_sendStep _ ⟨rfl, rfl, rfl, rfl, rfl, rfl⟩ (fun q hq => ?_) hp
  rcases List.mem_append.mp hq with hq | hq
  · exact h.send q hq
  · exact List.mem_singleton.mp hq ▸ hp

theorem sendUpdateMessage_sendStep {earlier : List MsgPtr} {g : GuiAppMgr φ α σ}
    (h : Inv earlier g) {p : MsgPtr}
    (hp : g.m_selType = .send → p ∈ earlier ∧ p ∉ g.msgMgr.m_allMsgs) :
    SendStep earlier g (g.sendUpdateMessage p) := by
  unfold sendUpdateMessage
  split_ifs with ht
  · refine ⟨⟨rfl, rfl, rfl, rfl, rfl, rfl⟩, fun q hq => ?_, fun e => ?_, fun e => ?_,
      fun _ => ⟨p, rfl, hp ht⟩⟩
    · have hq' : q ∈ (g.sendList.updateCurrentMessage p).items := hq
      unfold MsgListWidget.updateCurrentMessage at hq'
      split at hq'
      · exact h.send q hq'
      · rcases List.mem_or_eq_of_mem_set hq' with hq' | rfl
        · exact h.send q hq'
        · exact hp ht
    · simp [displayMessage, ht] at e
    · simp [displayMessage, ht] at e
  · exact h.sendStep

theorem sendUpdateSelected_sendStep {earlier : List MsgPtr} {g : GuiAppMgr φ α σ}
    (h : Inv earlier g) : SendStep earlier g g.sendUpdateSelected := by
  unfold sendUpdateSelected
  cases hc : g.m_clickedMsg with
  | none => exact h.sendStep
  | some p =>
      apply sendUpdateMessage_sendStep h
      intro ht
      obtain ⟨q, hq, hp⟩ := h.selected.send ht
      obtain rfl : q = p := Option.some.inj (hq.symm.trans hc)
      exact hp

theorem sendDeleteSelectedMsg_sendStep {earlier : List MsgPtr} {g : GuiAppMgr φ α σ}
    (h : Inv earlier g) : SendStep earlier g g.clearDisplayedMessage.sendDeleteSelectedMsg := by
  have hsend : ∀ q ∈ g.sendList.deleteCurrentItem.items, q ∈ earlier ∧ q ∉ g.msgMgr.m_allMsgs :=
    fun q hq => h.send q ((deleteCurrentItem_sublist g.sendList).subset hq)
  unfold sendDeleteSelectedMsg
  dsimp only
  cases hcur : g.clearDisplayedMessage.sendList.deleteCurrentItem.currentItem with
  | none => exact ⟨⟨rfl, rfl, rfl, rfl, rfl, rfl⟩, hsend, selected_of_none rfl rfl⟩
  | some next =>
      exact sendMsgClicked_sendStep _ ⟨rfl, rfl, rfl, rfl, rfl, rfl⟩ hsend
        (hsend next (mem_of_currentItem hcur))

theorem sendDeleteClicked_sendStep {earlier : List MsgPtr} {g : GuiAppMgr φ α σ}
    (h : Inv earlier g) : SendStep earlier g g.sendDeleteClicked := by
  unfold sendDeleteClicked
  split_ifs
  · have hdel := (sendDeleteSelectedMsg_sendStep h).setCount
      (g.clearDisplayedMessage.sendDeleteSelectedMsg.m_sendListCount - 1)
    dsimp only
    split_ifs
    · exact hdel.clearSelection
    · exact hdel
  · exact h.sendStep

theorem sendClearClicked_sendStep {earlier : List MsgPtr} {g : GuiAppMgr φ α σ}
    (h : Inv earlier g) : SendStep earlier g g.sendClearClicked := by
  unfold sendClearClicked
  split_ifs with hg
  · dsimp only
    split_ifs
    · exact ⟨⟨rfl, rfl, rfl, rfl, rfl, rfl⟩, fun q hq => absurd hq List.not_mem_nil,
        selected_of_none rfl rfl⟩
    · exact h.sendStep_of ⟨rfl, rfl, rfl, rfl, rfl, rfl⟩ (List.nil_subset _) rfl rfl rfl
  · exact h.sendStep

/-- `sendUpdateList`, for a send list that may have changed just before. -/
theorem sendUpdateList_sendStep {earlier : List MsgPtr} {g g₁ : GuiAppMgr φ α σ}
    (h : SendStep earlier g g₁) (msgs : List MsgPtr) :
    SendStep earlier g (g₁.sendUpdateList msgs) := by
  unfold sendUpdateList
  split
  · next q ht hc =>
      obtain ⟨q', hq, he, hs⟩ := h.selected.send ht
      obtain rfl : q' = q := Option.some.inj (hq.symm.trans hc)
      rw [h.view.allMsgs] at hs
      have hoff := (sendMsgClicked_sendStep none h.view h.send ⟨he, hs⟩).setCount msgs.length
      dsimp only
      split_ifs
      · exact sendMsgClicked_sendStep _ hoff.view hoff.send ⟨he, hs⟩
      · exact hoff
  · exact h.setCount msgs.length

theorem addMessages_items (msgs : List MsgPtr) (w : MsgListWidget) :
    (msgs.foldl MsgListWidget.addMessage w).items = w.items ++ msgs := by
  induction msgs generalizing w with
  | nil => simp
  | cons p msgs ih => simp [ih, MsgListWidget.addMessage]

theorem sendLoadMsgsFromFile_sendStep {earlier : List MsgPtr} {g : GuiAppMgr φ α σ}
    (h : Inv earlier g) (clear : Bool) {msgs : List MsgPtr}
    (hmsgs : ∀ p ∈ msgs, p ∈ earlier ∧ p ∉ g.msgMgr.m_allMsgs) :
    SendStep earlier g (g.sendLoadMsgsFromFile clear msgs) := by
  have hload : SendStep earlier g { g with
      sendList := msgs.foldl MsgListWidget.addMessage
        (if clear then g.sendList.clearList else g.sendList) } := by
    refine ⟨⟨rfl, rfl, rfl, rfl, rfl, rfl⟩, fun q hq => ?_, h.selected.congr rfl rfl rfl rfl⟩
    have hq' : q ∈ (if clear then g.sendList.clearList else g.sendList).items ++ msgs :=
      addMessages_items msgs _ ▸ hq
    rcases List.mem_append.mp hq' with hq | hq
    · cases clear
      · exact h.send q hq
      · exact absurd hq List.not_mem_nil
    · exact hmsgs q hq
  exact sendUpdateList_sendStep hload _

theorem moveItem_sendStep {earlier : List MsgPtr} {g : GuiAppMgr φ α σ} (h : Inv earlier g)
    (fromRow toRow : ℕ) : SendStep earlier g (g.moveItem fromRow toRow) := by
  unfold moveItem
  cases hrow : g.sendList.items[fromRow]? with
  | none => exact h.sendStep
  | some p =>
      have hp := h.send p (List.mem_of_getElem? hrow)
      have hset := sendSetCurrentRow_sendStep h (if fromRow <
        (g.sendList.items.eraseIdx fromRow).length then fromRow + 1 else fromRow - 1)
      refine sendMsgClicked_sendStep _ { hset.view with } (fun q hq => ?_) hp
      have hq' : q ∈ (g.sendList.items.eraseIdx fromRow).insertIdx toRow p := hq
      rcases List.eq_or_mem_of_mem_insertIdx hq' with rfl | hq'
      · exact hp
      · exact h.send q ((List.eraseIdx_sublist _ _).subset hq')

theorem sendMoveClicked_sendStep {earlier : List MsgPtr} {g : GuiAppMgr φ α σ}
    (h : Inv earlier g) (dest : MoveTo) : SendStep earlier g (g.sendMoveClicked dest) := by
  unfold sendMoveClicked
  cases g.sendList.currentRow with
  | none => exact h.sendStep
  | some curRow =>
      dsimp only
      cases dest
      all_goals
        dsimp only
        split_ifs
        · exact h.sendStep
        · exact moveItem_sendStep h _ _

theorem pendingDisplayTimeout_sendStep {earlier : List MsgPtr} {g : GuiAppMgr φ α σ}
    (h : Inv earlier g) : SendStep earlier g g.pendingDisplayTimeout := by
  unfold pendingDisplayTimeout
  dsimp only
  cases g.m_pendingDisplayMsg with
  | none => exact h.sendStep_of ⟨rfl, rfl, rfl, rfl, rfl, rfl⟩ (List.Subset.refl _) rfl rfl rfl
  | some msg => exact h.sendStep_of ⟨rfl, rfl, rfl, rfl, rfl, rfl⟩ (List.Subset.refl _) rfl rfl rfl

/-! ### The received list -/

/-- A refresh after a change of the mode or the filter. -/
theorem refreshRecvList_step {earlier : List MsgPtr} {g g₁ : GuiAppMgr φ α σ} (o : Prop)
    (h : Inv earlier g) (hmgr : g₁.msgMgr = g.msgMgr) (hsend : g₁.sendList = g.sendList)
    (hsel : Selected earlier g₁) :
    Inv earlier g₁.refreshRecvList ∧ ViewStep o g g₁.refreshRecvList := by
  have hstore : g₁.msgMgr.m_allMsgs = g.msgMgr.m_allMsgs := by rw [hmgr]
  have hr := refreshRecvList_refreshed (hstore ▸ h.known.allMsgs_nodup) hsel
  have hvis : g₁.refreshRecvList.visible = g₁.visible := by
    funext p
    rw [visible, hr.canAdd, hr.mgr]
    rfl
  have hstep : ViewStep o g g₁.refreshRecvList :=
    .refreshed (by rw [hr.mgr, hstore]) (by rw [hr.items, hr.mgr, hvis])
  have hknown : MsgMgr.Known earlier g₁.refreshRecvList.msgMgr := by
    rw [hr.mgr, hmgr]
    exact h.known
  obtain ⟨hnd, hsub⟩ := hstep.list hknown.allMsgs_nodup h.nodup h.sub
  refine ⟨⟨hknown, ?_, hr.selected, hnd, hsub, hr.count⟩, hstep⟩
  rw [hr.sendItems, hsend, hr.mgr, hmgr]
  exact h.send

theorem updateRecvListMode_step {earlier : List MsgPtr} {g : GuiAppMgr φ α σ} (o : Prop)
    (h : Inv earlier g) (mode : UInt32) (checked : Bool) :
    Inv earlier (g.updateRecvListMode mode checked) ∧
      ViewStep o g (g.updateRecvListMode mode checked) := by
  cases checked
  · exact refreshRecvList_step o h rfl rfl (h.selected.congr rfl rfl rfl rfl)
  · exact refreshRecvList_step o h rfl rfl (h.selected.congr rfl rfl rfl rfl)

theorem setFilteredMessages_step {earlier : List MsgPtr} {g : GuiAppMgr φ α σ} (o : Prop)
    (h : Inv earlier g) (filteredMessages : List QString) :
    Inv earlier (g.setFilteredMessages filteredMessages) ∧
      ViewStep o g (g.setFilteredMessages filteredMessages) := by
  unfold setFilteredMessages
  split_ifs with heq
  · exact ⟨h, .same (.refl g)⟩
  · dsimp only
    split_ifs with happly
    · exact refreshRecvList_step o h rfl rfl (h.selected.congr rfl rfl rfl rfl)
    · -- the new filter is not consulted
      have hoff : g.recvListApplyFilter = false := Bool.eq_false_of_not_eq_true happly
      have hcan : ({ g with m_filteredMessages := filteredMessages } :
          GuiAppMgr φ α σ).canAddToRecvList = g.canAddToRecvList := by
        funext msg
        have hoff' : ({ g with m_filteredMessages := filteredMessages } :
          GuiAppMgr φ α σ).recvListApplyFilter = false := hoff
        simp only [canAddToRecvList, hoff, hoff', Bool.not_false, if_true]
        rfl
      have hv : SameView g { g with m_filteredMessages := filteredMessages } :=
        ⟨rfl, rfl, rfl, rfl, rfl, hcan⟩
      have hs := h.sendStep_of hv (List.Subset.refl _) rfl rfl rfl
      exact ⟨hs.inv h, .same hv⟩

/-- The click on the item that follows a deleted one leaves list and store alone. -/
theorem recvDeleteSelectedMsg_view (earlier : List MsgPtr) {g : GuiAppMgr φ α σ}
    (ht : g.m_selType = .none) (hc : g.m_clickedMsg = none) :
    SameView { g with recvList := g.recvList.deleteCurrentItem } g.recvDeleteSelectedMsg ∧
      g.recvDeleteSelectedMsg.sendList.items = g.sendList.items ∧
      Selected earlier g.recvDeleteSelectedMsg := by
  set g₁ : GuiAppMgr φ α σ := { g with recvList := g.recvList.deleteCurrentItem } with hg₁
  unfold recvDeleteSelectedMsg
  rw [← hg₁]
  dsimp only
  cases hnext : g₁.recvList.currentItem with
  | none => exact ⟨.refl g₁, rfl, selected_of_none ht hc⟩
  | some next =>
      exact ⟨recvMsgClicked_sameView g₁ next, recvMsgClicked_sendItems g₁ next,
        recvMsgClicked_selected earlier hnext⟩

theorem recvDeleteClicked_step {earlier : List MsgPtr} {g : GuiAppMgr φ α σ} (o : Prop)
    (h : Inv earlier g) : Inv earlier g.recvDeleteClicked ∧ ViewStep o g g.recvDeleteClicked := by
  unfold recvDeleteClicked
  split
  · next p hc =>
      split_ifs with hg
      · obtain ⟨q, hq, hcur, -⟩ := h.selected.recv hg.1
        obtain rfl : q = p := Option.some.inj (hq.symm.trans hc)
        have hmem : q ∈ g.recvList.items := mem_of_currentItem hcur
        have hall := g.msgMgr.deleteMsg_eq_erase (h.sub hmem) h.known.nodup
        set g₁ : GuiAppMgr φ α σ :=
          ({ g with msgMgr := g.msgMgr.deleteMsg q }).clearDisplayedMessage with hg₁
        have hitems : g₁.recvList.deleteCurrentItem.items = g.recvList.items.erase q :=
          deleteCurrentItem_items h.nodup hcur
        obtain ⟨hv, hsend, hsel⟩ := recvDeleteSelectedMsg_view earlier (g := g₁) rfl rfl
        have hstore : g₁.recvDeleteSelectedMsg.msgMgr.m_allMsgs = g.msgMgr.m_allMsgs.erase q :=
          hv.allMsgs.trans hall
        have hvis : g₁.recvDeleteSelectedMsg.visible = g.visible := hv.visible
        have hknown : MsgMgr.Known earlier g₁.recvDeleteSelectedMsg.msgMgr :=
          h.known.sublist (by rw [hstore]; exact List.erase_sublist) hv.objs hv.next
        have hstep : ViewStep o g { g₁.recvDeleteSelectedMsg with
            m_recvListCount := g₁.recvDeleteSelectedMsg.m_recvListCount - 1 } :=
          .deleted q hstore (hv.items.trans hitems) hvis
        obtain ⟨hnd, hsub⟩ := hstep.list hknown.allMsgs_nodup h.nodup h.sub
        refine ⟨⟨hknown, fun p hp => ?_, hsel.congr rfl rfl rfl rfl, hnd, hsub, ?_⟩, hstep⟩
        · obtain ⟨he, hs⟩ := h.send p (hsend ▸ hp)
          exact ⟨he, fun hp' => hs (List.mem_of_mem_erase (hstore ▸ hp'))⟩
        · show g₁.recvDeleteSelectedMsg.m_recvListCount - 1 =
            g₁.recvDeleteSelectedMsg.recvList.items.length
          rw [hv.count, hv.items, hitems, List.length_erase_of_mem hmem]
          exact congrArg (· - 1) h.count
      · exact ⟨h, .same (.refl g)⟩
  · exact ⟨h, .same (.refl g)⟩

theorem clearRecvList_true (g : GuiAppMgr φ α σ) :
    g.clearRecvList true = (g.clearRecvList false).deleteMessages g.recvList.items := by
  unfold clearRecvList
  cases g.m_selType <;> rfl

/-- Messages are deleted from the store, all of them at once if there are as many as stored. -/
theorem deleteMessages_eq (g : GuiAppMgr φ α σ) (msgs : List MsgPtr) :
    g.deleteMessages msgs =
      { g with
        msgMgr :=
          { g.msgMgr with
            m_allMsgs :=
              if g.msgMgr.m_allMsgs.length = msgs.length then []
              else MsgMgr.deleteLoop g.msgMgr.seqNumber msgs g.msgMgr.m_allMsgs } } := by
  unfold deleteMessages MsgMgr.deleteAllMsgs MsgMgr.deleteMsgs
  split_ifs <;> rfl

theorem recvClearClicked_step {earlier : List MsgPtr} {g : GuiAppMgr φ α σ} (o : Prop)
    (h : Inv earlier g) : Inv earlier g.recvClearClicked ∧ ViewStep o g g.recvClearClicked := by
  unfold recvClearClicked
  split_ifs with hg
  · have hem := clearRecvList_emptied earlier g
    rw [clearRecvList_true, deleteMessages_eq, hem.mgr]
    set stored := if g.msgMgr.m_allMsgs.length = g.recvList.items.length then []
      else MsgMgr.deleteLoop g.msgMgr.seqNumber g.recvList.items g.msgMgr.m_allMsgs with hst
    have hsub : stored.Sublist g.msgMgr.m_allMsgs := by
      rw [hst]
      split_ifs
      · exact List.nil_sublist _
      · exact MsgMgr.deleteLoop_sublist _ _ _
    have hknown : MsgMgr.Known earlier { g.msgMgr with m_allMsgs := stored } :=
      h.known.sublist hsub rfl rfl
    have hsel := hem.selected h.selected
    refine ⟨⟨hknown, fun p hp => ?_, ?_, ?_, ?_, ?_⟩, .cleared hem.items ?_ rfl⟩
    · obtain ⟨he, hs⟩ := h.send p (hem.sendList ▸ hp)
      exact ⟨he, fun hp' => hs (hsub.subset hp')⟩
    · refine ⟨hsel.none, hsel.recv, fun ht => ?_⟩
      obtain ⟨p, hc, he, hs⟩ := hsel.send ht
      exact ⟨p, hc, he, fun hp' => hs (hem.mgr ▸ hsub.subset hp')⟩
    · rw [hem.items]
      exact List.nodup_nil
    · rw [hem.items]
      exact List.nil_subset _
    · rw [hem.items]
      exact hem.count
    · funext p
      show (g.clearRecvList false).canAddToRecvList (g.msgMgr.objs p) = _
      rw [hem.canAdd]
      rfl
  · exact ⟨h, .same (.refl g)⟩

/-- When clearing deletes what the list holds: the merge finds it, or everything goes. -/
theorem recvClearClicked_iff {earlier : List MsgPtr} {g : GuiAppMgr φ α σ} (h : Inv earlier g) :
    g.recvClearClicked.msgMgr.m_allMsgs =
        g.msgMgr.m_allMsgs.filter (fun p => !g.recvList.items.contains p) ↔
      g.recvList.items.Sublist g.msgMgr.m_allMsgs ∨
        g.recvList.items.length = g.msgMgr.m_allMsgs.length := by
  unfold recvClearClicked
  split_ifs with hg
  · have hem := clearRecvList_emptied earlier g
    rw [clearRecvList_true, deleteMessages_eq, hem.mgr]
    dsimp only
    split_ifs with hlen
    · -- everything is displayed
      have hperm : g.recvList.items.Perm g.msgMgr.m_allMsgs :=
        (List.subperm_of_subset h.nodup h.sub).perm_of_length_le hlen.le
      refine iff_of_true ?_ (.inr hlen.symm)
      rw [eq_comm, List.filter_eq_nil_iff]
      intro p hp
      simpa using hperm.mem_iff.mpr hp
    · rw [or_iff_left (Ne.symm hlen)]
      exact MsgMgr.deleteLoop_eq_filter_iff _ _ _ h.known.nodup h.sub h.nodup
  · -- nothing is displayed
    have hnil : g.recvList.items = [] := by
      have := h.count
      exact List.length_eq_zero_iff.mp (by omega)
    rw [hnil]
    simp

theorem dropAllMsgs_pending (g : GuiAppMgr φ α σ) :
    g.dropAllMsgs.m_pendingDisplayMsg = g.m_pendingDisplayMsg := by
  unfold dropAllMsgs clearRecvList
  cases g.m_selType <;> rfl

/-- List and store are emptied. -/
theorem dropAllMsgs_step {earlier : List MsgPtr} {g : GuiAppMgr φ α σ} (h : Inv earlier g) :
    Inv earlier g.dropAllMsgs ∧ g.dropAllMsgs.recvList.items = [] ∧
      g.dropAllMsgs.msgMgr.m_allMsgs = [] := by
  have hem := clearRecvList_emptied earlier g
  have hsel := hem.selected h.selected
  refine ⟨⟨?_, fun p hp => ⟨(h.send p (hem.sendList ▸ hp)).1, List.not_mem_nil⟩, ?_, ?_, ?_, ?_⟩,
    hem.items, rfl⟩
  · have hobjs : g.dropAllMsgs.msgMgr.objs = g.msgMgr.objs := congrArg (fun m => m.objs) hem.mgr
    have hnext : g.dropAllMsgs.msgMgr.m_nextMsgNum = g.msgMgr.m_nextMsgNum :=
      congrArg (fun m => m.m_nextMsgNum) hem.mgr
    exact h.known.sublist (List.nil_sublist _) hobjs hnext
  · refine ⟨hsel.none, hsel.recv, fun ht => ?_⟩
    obtain ⟨p, hc, he, -⟩ := hsel.send ht
    exact ⟨p, hc, he, List.not_mem_nil⟩
  · exact hem.items ▸ List.nodup_nil
  · exact hem.items ▸ List.nil_subset _
  · exact hem.count.trans (congrArg List.length hem.items).symm

/-! ### Messages that arrive -/

/-- The announcements of an operation of the manager. -/
theorem report_step {earlier : List MsgPtr} {g : GuiAppMgr φ α σ} {ev : Event}
    {F : MsgMgr.Footprint} (h : Inv earlier g) (he : MsgMgr.Effect g.msgMgr (g.msgMgr.step ev) F)
    (hF : MsgMgr.StepRecord g.msgMgr ev F) (hrep : ev.Reports) (hd : earlier.Disjoint ev.ptrs) :
    let g' := g.report (g.msgMgr.step ev)
    Inv (earlier ++ ev.ptrs) g' ∧
      g'.msgMgr.m_allMsgs = g.msgMgr.m_allMsgs ++ F.stored ∧
      g'.recvList.items = g.recvList.items ++ F.announced.filter g'.visible ∧
      (∀ p ∈ g.msgMgr.m_allMsgs, g'.visible p = g.visible p) := by
  set mgr := g.msgMgr.step ev with hmgr
  have hnew : mgr.added.drop g.msgMgr.added.length = F.announced.map fun p => (p, mgr.objs p) := by
    rw [he.added, List.drop_left]
  intro g'
  have hl : Listed (earlier ++ ev.ptrs) { g with msgMgr := mgr } g' _ := report_listed _ g mgr
  have hvis : g'.visible = fun p => g.canAddToRecvList (mgr.objs p) := by
    funext p
    rw [visible, hl.canAdd, hl.mgr]
    rfl
  have hitems : g'.recvList.items = g.recvList.items ++ F.announced.filter g'.visible := by
    rw [hl.items, hnew, hvis, List.filter_map, List.map_map]
    exact congrArg (g.recvList.items ++ ·) (List.map_id _)
  have hobjs : ∀ p ∈ g.msgMgr.m_allMsgs, mgr.objs p = g.msgMgr.objs p := fun p hp =>
    he.frame p fun ht => hd (h.known.mem p hp) (hF.touched ▸ ht)
  have hnotnew : ∀ p ∈ earlier, p ∉ F.stored := fun p hp hs =>
    hd hp (hF.touched ▸ he.stored_sub p hs)
  have hall : mgr.m_allMsgs = g.msgMgr.m_allMsgs ++ F.stored := he.all
  have hknown := MsgMgr.known_step h.known he hF hd
  have hout : ∀ p, p ∈ earlier ∧ p ∉ g.msgMgr.m_allMsgs →
      p ∈ earlier ++ ev.ptrs ∧ p ∉ mgr.m_allMsgs := by
    rintro p ⟨hp, hs⟩
    refine ⟨List.mem_append_left _ hp, fun hm => ?_⟩
    rw [hall] at hm
    exact (List.mem_append.mp hm).elim hs (hnotnew p hp)
  have hsel : Selected (earlier ++ ev.ptrs) { g with msgMgr := mgr } := by
    refine ⟨h.selected.none, h.selected.recv, fun ht => ?_⟩
    obtain ⟨p, hc, hp⟩ := h.selected.send ht
    exact ⟨p, hc, hout p hp⟩
  have hmgr' : g'.msgMgr = mgr := hl.mgr
  have hvis' : ∀ p ∈ g.msgMgr.m_allMsgs, g'.visible p = g.visible p := by
    intro p hp
    rw [hvis]
    exact congrArg g.canAddToRecvList (hobjs p hp)
  have hstore : g'.msgMgr.m_allMsgs = g.msgMgr.m_allMsgs ++ F.stored := by rw [hmgr', hall]
  have hperm : ev.Reports → F.announced.Perm F.stored := fun hrep =>
    (hF.announced hrep).trans hF.stored.symm
  have hlist := (ViewStep.arrived F.stored F.announced hstore hitems hvis' (hperm hrep)
    (fun hfirst => hF.answersFirst hfirst hrep)).list
    (by rw [hmgr']; exact hknown.allMsgs_nodup) h.nodup h.sub
  refine ⟨⟨by rw [hmgr']; exact hknown, fun p hp => ?_, hl.selected hsel, hlist.1, hlist.2, ?_⟩,
    hstore, hitems, hvis'⟩
  · rw [hl.sendItems] at hp
    rw [hmgr']
    exact hout p (h.send p hp)
  · rw [hl.count, hl.items, List.length_append]
    exact congrArg (· + _) h.count

theorem report_viewStep {earlier : List MsgPtr} {g : GuiAppMgr φ α σ} (h : Inv earlier g)
    (ev : Event) (hrep : ev.Reports) (hnd : ev.ptrs.Nodup)
    (hd : earlier.Disjoint ev.ptrs) :
    Inv (earlier ++ ev.ptrs) (g.report (g.msgMgr.step ev)) ∧
      ViewStep ev.AnswersFirst g (g.report (g.msgMgr.step ev)) := by
  obtain ⟨F, he, hF⟩ := g.msgMgr.step_effect ev hnd
  obtain ⟨hi, hstore, hitems, hvis⟩ := report_step h he hF hrep hd
  exact ⟨hi, .arrived F.stored F.announced hstore hitems hvis
    ((hF.announced hrep).trans hF.stored.symm) fun hfirst => hF.answersFirst hfirst hrep⟩

theorem recvLoadMsgsFromFile_step {earlier : List MsgPtr} {g : GuiAppMgr φ α σ}
    {msgs : List (Option MsgPtr × ℕ)} (o : Prop) (h : Inv earlier g)
    (hnd : (Event.addMsgs msgs true).ptrs.Nodup)
    (hd : earlier.Disjoint (Event.addMsgs msgs true).ptrs) :
    Inv (earlier ++ (Event.addMsgs msgs true).ptrs) (g.recvLoadMsgsFromFile msgs) ∧
      ViewStep o g (g.recvLoadMsgsFromFile msgs) := by
  obtain ⟨hi₀, hitems₀, hstore₀⟩ := dropAllMsgs_step h
  obtain ⟨F, he, hF⟩ := g.dropAllMsgs.msgMgr.step_effect (.addMsgs msgs true) hnd
  obtain ⟨hi, hstore, hitems, -⟩ := report_step hi₀ he hF rfl hd
  rw [hstore₀, List.nil_append] at hstore
  rw [hitems₀, List.nil_append] at hitems
  exact ⟨hi, .reloaded F.stored F.announced hstore hitems ((hF.announced rfl).trans hF.stored.symm)
    fun _ => hF.answersFirst trivial rfl⟩

/-! ### Plugins -/

/-- Socket, filters, protocol and plugins are no part of the view. -/
theorem setupPlugins_sendStep {earlier : List MsgPtr} {g : GuiAppMgr φ α σ} (h : Inv earlier g)
    (plugins : List PluginInfoPtr) (hasApplied needsReload : Bool) :
    SendStep earlier g (g.setupPlugins plugins hasApplied needsReload) := by
  have hrefl : ∀ g' : GuiAppMgr φ α σ, SameView g g' → g'.sendList = g.sendList →
      g'.m_selType = g.m_selType → g'.m_clickedMsg = g.m_clickedMsg → g'.recvList = g.recvList →
      SendStep earlier g g' := fun g' hv hsend ht hc hr =>
    h.sendStep_of hv (hsend ▸ List.Subset.refl _) ht hc hr
  unfold setupPlugins
  cases hasApplied <;> cases needsReload <;> dsimp only <;> split_ifs
  all_goals exact hrefl _ ⟨rfl, rfl, rfl, rfl, rfl, rfl⟩ rfl rfl rfl rfl

theorem applyNewPlugins_step {earlier : List MsgPtr} {g : GuiAppMgr φ α σ} (o : Prop)
    (h : Inv earlier g) (plugins : List PluginInfoPtr) :
    Inv earlier (g.applyNewPlugins plugins) ∧ ViewStep o g (g.applyNewPlugins plugins) := by
  unfold applyNewPlugins
  dsimp only
  generalize g.pluginMgr.hasAppliedPlugins = hasApplied
  generalize g.pluginMgr.needsReload plugins = needsReload
  set g₁ := if 0 < g.m_sendListCount ∧ g.pluginMgr.isProtocolChanging plugins then
    g.sendClearClicked else g with hg₁
  have h₁ : SendStep earlier g g₁ := by
    rw [hg₁]
    split_ifs
    · exact sendClearClicked_sendStep h
    · exact h.sendStep
  have hi₁ := h₁.inv h
  split_ifs
  · obtain ⟨hi₂, hitems, hstore⟩ := dropAllMsgs_step hi₁
    have h₂ := setupPlugins_sendStep hi₂ plugins hasApplied needsReload
    exact ⟨h₂.inv hi₂, .reloaded [] [] (h₂.view.allMsgs.trans hstore)
      (h₂.view.items.trans hitems) (.refl _) fun _ => rfl⟩
  · have h₂ := setupPlugins_sendStep hi₁ plugins hasApplied needsReload
    exact ⟨h₂.inv hi₁, .same (h₁.view.trans h₂.view)⟩

end GuiAppMgr

/-! ### Runs -/

namespace GuiEvent

/-- The protocol sends nothing from inside `messageReceivedReport()`. -/
def NoReplies : GuiEvent → Prop
  | socketDataReceived _ reads => ∀ m ∈ reads.flatten, m.NoReply
  | _ => True

/-- The protocol replies from inside `messageReceivedReport()` to the first message of a chunk at
most. -/
def AnswersFirst : GuiEvent → Prop
  | socketDataReceived dataInfo reads => (Event.socketDataReceived dataInfo reads).AnswersFirst
  | _ => True

theorem NoReplies.answersFirst {ev : GuiEvent} (h : ev.NoReplies) : ev.AnswersFirst := by
  cases ev with
  | socketDataReceived dataInfo reads => exact fun m hm => h m (List.mem_of_mem_tail hm)
  | _ => trivial

/-- The messages an event brings in are new. -/
def Fresh (earlier : List MsgPtr) (ev : GuiEvent) : Prop :=
  ev.ptrs.Nodup ∧ earlier.Disjoint ev.ptrs

/-- The messages brought in after an event. -/
def seen (earlier : List MsgPtr) (ev : GuiEvent) : List MsgPtr := earlier ++ ev.ptrs

theorem along_fresh {evs : List GuiEvent} {earlier : List MsgPtr}
    (hnd : (earlier ++ evs.flatMap ptrs).Nodup) : Runs.Along seen earlier evs Fresh :=
  Runs.along_fresh hnd

end GuiEvent

namespace GuiAppMgr
variable {φ α σ : Type}

/-- New messages of an event, at an event that stores none of them. -/
theorem Inv.new {earlier : List MsgPtr} {g : GuiAppMgr φ α σ} (h : Inv earlier g)
    {new : List MsgPtr} (hd : earlier.Disjoint new) {p : MsgPtr} (hp : p ∈ new) :
    p ∈ earlier ++ new ∧ p ∉ g.msgMgr.m_allMsgs :=
  ⟨List.mem_append_right _ hp, fun hs => hd (h.known.mem p hs) hp⟩

/-- **Every event** keeps the invariant and is one of the six steps. -/
theorem step_view {earlier : List MsgPtr} {g : GuiAppMgr φ α σ} (h : Inv earlier g)
    (ev : GuiEvent) (hnd : ev.ptrs.Nodup) (hd : earlier.Disjoint ev.ptrs) :
    Inv (earlier ++ ev.ptrs) (g.step ev) ∧ ViewStep ev.AnswersFirst g (g.step ev) := by
  -- the events that bring nothing in
  have hnil : ∀ {g' : GuiAppMgr φ α σ} {o : Prop}, Inv earlier g' ∧ ViewStep o g g' →
      Inv (earlier ++ []) g' ∧ ViewStep o g g' := by
    intro g' o hs
    rwa [List.append_nil]
  have hsend : ∀ {g' : GuiAppMgr φ α σ} {o : Prop}, SendStep earlier g g' →
      Inv (earlier ++ []) g' ∧ ViewStep o g g' := fun hs => hnil ⟨hs.inv h, .same hs.view⟩
  -- the events that bring in messages for the send list
  have hmono : ∀ new : List MsgPtr, Inv (earlier ++ new) g := fun new =>
    h.mono (List.subset_append_left _ _)
  cases ev with
  | socketDataReceived dataInfo reads =>
      exact report_viewStep h (.socketDataReceived dataInfo reads) trivial hnd hd
  | sendMsgs msgs => exact report_viewStep h (.sendMsgs msgs) trivial hnd hd
  | setRecvEnabled enabled =>
      exact hsend (h.sendStep_of ⟨rfl, rfl, rfl, rfl, rfl, rfl⟩ (List.Subset.refl _) rfl rfl rfl)
  | recvSetCurrentRow row => exact hsend (recvSetCurrentRow_sendStep h row)
  | recvItemClicked row ignored => exact hsend (recvItemClicked_sendStep h row ignored)
  | recvDeleteClicked => exact hnil (recvDeleteClicked_step _ h)
  | recvClearClicked => exact hnil (recvClearClicked_step _ h)
  | recvShowRecvToggled checked => exact hnil (updateRecvListMode_step _ h _ checked)
  | recvShowSentToggled checked => exact hnil (updateRecvListMode_step _ h _ checked)
  | recvShowGarbageToggled checked => exact hnil (updateRecvListMode_step _ h _ checked)
  | recvApplyFilterToggled checked => exact hnil (updateRecvListMode_step _ h _ checked)
  | setFilteredMessages filteredMessages => exact hnil (setFilteredMessages_step _ h _)
  | recvLoadMsgsFromFile msgs => exact recvLoadMsgsFromFile_step _ h hnd hd
  | sendSetCurrentRow row => exact hsend (sendSetCurrentRow_sendStep h row)
  | sendItemClicked row ignored => exact hsend (sendItemClicked_sendStep h row ignored)
  | sendAddNewMessage msg =>
      have hs := sendAddNewMessage_sendStep (hmono [msg]) (h.new hd List.mem_cons_self)
      exact ⟨hs.inv (hmono [msg]), .same hs.view⟩
  | sendUpdateMessage msg =>
      have hs := sendUpdateMessage_sendStep (hmono [msg]) fun _ => h.new hd List.mem_cons_self
      exact ⟨hs.inv (hmono [msg]), .same hs.view⟩
  | sendUpdateSelected => exact hsend (sendUpdateSelected_sendStep h)
  | sendDeleteClicked => exact hsend (sendDeleteClicked_sendStep h)
  | sendClearClicked => exact hsend (sendClearClicked_sendStep h)
  | sendMoveClicked dest => exact hsend (sendMoveClicked_sendStep h dest)
  | sendLoadMsgsFromFile clear msgs =>
      have hs := sendLoadMsgsFromFile_sendStep (hmono msgs) clear fun p hp => h.new hd hp
      exact ⟨hs.inv (hmono msgs), .same hs.view⟩
  | applyNewPlugins plugins => exact hnil (applyNewPlugins_step _ h plugins)
  | pendingDisplayTimeout => exact hsend (pendingDisplayTimeout_sendStep h)

/-- The application as it starts: nothing is stored, listed or selected. -/
structure Started (g : GuiAppMgr φ α σ) : Prop where
  allMsgs : g.msgMgr.m_allMsgs = []
  recvItems : g.recvList.items = []
  sendItems : g.sendList.items = []
  count : g.m_recvListCount = 0
  selType : g.m_selType = .none
  clicked : g.m_clickedMsg = none

theorem Started.inv {g : GuiAppMgr φ α σ} (h : g.Started) : Inv [] g where
  known := ⟨by simp [h.allMsgs], by simp [h.allMsgs], by simp [h.allMsgs]⟩
  send := by simp [h.sendItems]
  selected := selected_of_none h.selType h.clicked
  nodup := by simp [h.recvItems]
  sub := by simp [h.recvItems]
  count := by rw [h.count, h.recvItems]; rfl

/-- **The invariant of a run**, and of its view while the order is kept. -/
theorem run_inv (evs : List GuiEvent) {earlier : List MsgPtr} {g : GuiAppMgr φ α σ}
    (h : Inv earlier g) (hnd : (earlier ++ evs.flatMap GuiEvent.ptrs).Nodup) :
    Inv (earlier ++ evs.flatMap GuiEvent.ptrs) (g.run evs) ∧
      ((∀ ev ∈ evs, ev.AnswersFirst) →
        g.recvList.items = g.msgMgr.m_allMsgs.filter g.visible →
        (g.run evs).recvList.items = (g.run evs).msgMgr.m_allMsgs.filter (g.run evs).visible) := by
  induction evs generalizing earlier g with
  | nil =>
      rw [List.flatMap_nil, List.append_nil]
      exact ⟨h, fun _ hv => hv⟩
  | cons ev evs ih =>
      rw [List.flatMap_cons, ← List.append_assoc] at hnd ⊢
      obtain ⟨-, hev, hd⟩ := List.nodup_append'.mp (List.nodup_append'.mp hnd).1
      obtain ⟨hi, hstep⟩ := step_view h ev hev hd
      obtain ⟨hrun, hview⟩ := ih hi hnd
      refine ⟨hrun, fun hfirst hv => ?_⟩
      exact hview (fun e he => hfirst e (List.mem_cons_of_mem _ he))
        (hstep.view (hfirst ev List.mem_cons_self) h.known.nodup hv)

/-- **The received-message view is the filtered store**, in every state reached without replies
from inside `messageReceivedReport()`; the message objects are distinct. -/
theorem recvList_eq_filter (g : GuiAppMgr φ α σ) (hg : g.Started) (evs : List GuiEvent)
    (hnd : (evs.flatMap GuiEvent.ptrs).Nodup) (hsilent : ∀ ev ∈ evs, ev.NoReplies) :
    let g' := g.run evs
    g'.recvList.items =
        g'.msgMgr.m_allMsgs.filter (fun p => g'.canAddToRecvList (g'.msgMgr.objs p)) ∧
      g'.m_recvListCount = g'.recvList.items.length := by
  obtain ⟨hi, hview⟩ := run_inv evs hg.inv (by simpa using hnd)
  refine ⟨hview (fun ev hev => (hsilent ev hev).answersFirst) ?_, hi.count⟩
  rw [hg.recvItems, hg.allMsgs]
  rfl

/-- **Clearing the list** deletes exactly the displayed messages if and only if they stand in the
order of the store or are all that is stored.  So it does in every run in which the protocol
replies from inside `messageReceivedReport()` to the first message of a chunk at most. -/
theorem recvClearClicked_deletes_iff (g : GuiAppMgr φ α σ) (hg : g.Started) (evs : List GuiEvent)
    (hnd : (evs.flatMap GuiEvent.ptrs).Nodup) :
    let g' := g.run evs
    let Deletes := (g'.step .recvClearClicked).msgMgr.m_allMsgs =
      g'.msgMgr.m_allMsgs.filter fun p => !g'.recvList.items.contains p
    (Deletes ↔ g'.recvList.items.Sublist g'.msgMgr.m_allMsgs ∨
        g'.recvList.items.length = g'.msgMgr.m_allMsgs.length) ∧
      ((∀ ev ∈ evs, ev.AnswersFirst) → Deletes) := by
  obtain ⟨hi, hview⟩ := run_inv evs hg.inv (by simpa using hnd)
  intro g' Deletes
  have hiff := recvClearClicked_iff hi
  refine ⟨hiff, fun hfirst => hiff.mpr (.inl ?_)⟩
  rw [hview hfirst (by rw [hg.recvItems, hg.allMsgs]; rfl)]
  exact List.filter_sublist

/-! ### A sample application -/

/-- Reading `syncByte, id` for the two ids 0 and 1. -/
def readPair : DataSeq → ReadResult Unit
  | [] => .notEnoughData
  | [b] => if b = syncByte then .notEnoughData else .error
  | b :: id :: _ => if b = syncByte ∧ id < 2 then .success id.toNat 0 () 2 else .error

/-- A protocol of two messages without content. -/
def pairFrame : ToolsFrame Bool Unit where
  classes :=
    { numericIdImpl := fun f => if f then 1 else 0
      inLongLong := by decide
      idAsStringImpl := QString.number10
      nameImpl := fun f => if f then ['P', 'o', 'n', 'g'] else ['P', 'i', 'n', 'g']
      defaultMsg := fun _ => ()
      doRefresh := fun _ c => (c, false)
      doWrite := fun _ _ => []
      doRead := fun _ _ => some () }
  m_frame :=
    { read := readPair
      write := fun f _ => (.success, [syncByte, if f then 1 else 0])
      update := fun _ _ data => (.success, data)
      consumed_le := by
        intro buf msgId msgIdx msg n h
        unfold readPair at h
        split at h
        · cases h
        · split_ifs at h
        · split_ifs at h
          cases h
          simp }
  m_factory := { m_defaultMsgs := [false, true], sorted := by simp, length_lt := by simp }
  toJson := fun _ => []

/-- Message 1 is a `Ping`, all others are `Pong`s. -/
def sampleApp : GuiAppMgr Bool Unit Unit where
  classes := pairFrame.classes
  msgMgr :=
    { objs := fun p => { body := .prot (p != 1) () }
      m_recvEnabled := true
      m_socket := true
      m_protocol := some { name := [], m_frame := pairFrame } }
  pluginMgr := { isProtocolType := fun _ => true, loadPlugin := fun _ => none }

theorem sampleApp_started : sampleApp.Started := ⟨rfl, rfl, rfl, rfl, rfl, rfl⟩

/-- `Ping` is hidden; one chunk brings a `Ping` and two `Pong`s, and the protocol answers the last
one. -/
def replyEvents : List GuiEvent :=
  [.setFilteredMessages [['(', '0', ')', ' ', 'P', 'i', 'n', 'g']],
    .socketDataReceived
      (some { m_timestamp := 5000000, m_data := [syncByte, 0, syncByte, 1, syncByte, 1] })
      [[{ msg := 1, requests := [], now := 5000000 },
        { msg := 2, requests := [], now := 5000000 },
        { msg := 3, requests := [.mk (some 4) (some { m_data := [syncByte, 1] }) [] 6000000],
          now := 5000000 }]]]

/-- The same without the answer; the user selects a message and deletes it. -/
def silentEvents : List GuiEvent :=
  [.setFilteredMessages [['(', '0', ')', ' ', 'P', 'i', 'n', 'g']],
    .socketDataReceived
      (some { m_timestamp := 5000000, m_data := [syncByte, 0, syncByte, 1, syncByte, 1] })
      [[{ msg := 1, requests := [], now := 5000000 },
        { msg := 2, requests := [], now := 5000000 },
        { msg := 3, requests := [], now := 5000000 }]],
    .recvItemClicked 0 true, .recvDeleteClicked, .recvApplyFilterToggled false]

theorem recvList_eq_filter_sample :
    let g' := sampleApp.run silentEvents
    g'.recvList.items =
        g'.msgMgr.m_allMsgs.filter (fun p => g'.canAddToRecvList (g'.msgMgr.objs p)) ∧
      g'.m_recvListCount = g'.recvList.items.length :=
  recvList_eq_filter sampleApp sampleApp_started silentEvents (by decide)
    (by simp [silentEvents, GuiEvent.NoReplies, RecvMsg.NoReply])

theorem recvClearClicked_deletes_iff_sample :
    let g' := sampleApp.run replyEvents
    let Deletes := (g'.step .recvClearClicked).msgMgr.m_allMsgs =
      g'.msgMgr.m_allMsgs.filter fun p => !g'.recvList.items.contains p
    (Deletes ↔ g'.recvList.items.Sublist g'.msgMgr.m_allMsgs ∨
        g'.recvList.items.length = g'.msgMgr.m_allMsgs.length) ∧
      ((∀ ev ∈ replyEvents, ev.AnswersFirst) → Deletes) :=
  recvClearClicked_deletes_iff sampleApp sampleApp_started replyEvents (by decide)

/-- Of the displayed messages 2, 4 and 3 only the first one is deleted: the store has 4 before 2. -/
theorem reply_not_deleted :
    (sampleApp.run replyEvents).recvList.items = [2, 4, 3] ∧
      (sampleApp.run replyEvents).msgMgr.m_allMsgs = [4, 1, 2, 3] ∧
      ((sampleApp.run replyEvents).step .recvClearClicked).msgMgr.m_allMsgs = [4, 1, 3] ∧
      ((sampleApp.run replyEvents).step .recvClearClicked).msgMgr.m_allMsgs ≠
        (sampleApp.run replyEvents).msgMgr.m_allMsgs.filter fun p =>
          !(sampleApp.run replyEvents).recvList.items.contains p := by
  decide

end GuiAppMgr

end CcToolsQt
