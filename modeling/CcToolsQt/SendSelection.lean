import CcToolsQt.SendCount

/-! # The selection in the send list

A message selected in the send list is the one of the current item, and the list has no message
twice (`SendSelected`), after every event (`SendSelected.step`). -/

namespace CcToolsQt

namespace GuiAppMgr
variable {φ α σ : Type}

/-- A message selected in the send list is the one of the current item. -/
def SendItem (g : GuiAppMgr φ α σ) : Prop :=
  g.m_selType = .send → ∃ p, g.m_clickedMsg = some p ∧ g.sendList.currentItem = some p

structure SendSelected (g : GuiAppMgr φ α σ) : Prop where
  nodup : g.sendList.items.Nodup
  item : g.SendItem

theorem sendItem_of_ne {g : GuiAppMgr φ α σ} (h : g.m_selType ≠ .send) : g.SendItem :=
  fun ht => absurd ht h

theorem SendItem.congr {g g' : GuiAppMgr φ α σ} (h : g.SendItem) (hs : g'.sendList = g.sendList)
    (ht : g'.m_selType = g.m_selType) (hc : g'.m_clickedMsg = g.m_clickedMsg) : g'.SendItem := by
  unfold SendItem
  rw [hs, ht, hc]
  exact h

/-- A click on the item of a row, or on the selected message. -/
theorem sendMsgClicked_item {g : GuiAppMgr φ α σ} {msg : MsgPtr} {idx : Option ℕ}
    (h : g.m_clickedMsg = some msg ∨ (g.sendList.selectMsg idx).currentItem = some msg) :
    (g.sendMsgClicked msg idx).SendItem := by
  by_cases hc : g.m_clickedMsg = some msg
  · apply sendItem_of_ne
    simp [sendMsgClicked, msgClicked, recvClearSelection, hc, clearDisplayedMessage,
      recvSelectOnAdd, sendClearSelection]
  · have hitem := h.resolve_left hc
    intro _
    refine ⟨msg, ?_, ?_⟩
    · simp [sendMsgClicked, msgClicked, recvClearSelection, hc, displayMessage, recvSelectOnAdd]
    · simpa [sendMsgClicked, msgClicked, recvClearSelection, hc, displayMessage, recvSelectOnAdd]
        using hitem

theorem selectMsg_currentItem (w : MsgListWidget) (row : ℕ) :
    (w.selectMsg (some row)).currentItem = w.items[row]? := rfl

/-- The row `moveItem` takes the item to. -/
theorem moveItem_getElem? {items : List MsgPtr} {fromRow toRow : ℕ} {msg : MsgPtr}
    (hfrom : fromRow < items.length) (hto : toRow < items.length) :
    ((items.eraseIdx fromRow).insertIdx toRow msg)[toRow]? = some msg := by
  have hle : toRow ≤ (items.eraseIdx fromRow).length := by
    rw [List.length_eraseIdx_of_lt hfrom]
    omega
  rw [List.getElem?_insertIdx_self, if_pos hle]

namespace SendSelected
variable {g : GuiAppMgr φ α σ}

theorem of_kept {g' : GuiAppMgr φ α σ} (h : g.SendSelected) (hk : SendKept g g') :
    g'.SendSelected where
  nodup := by rw [hk.items]; exact h.nodup
  item := fun ht' => by
    obtain ⟨ht, hc, hs⟩ := hk.selection ht'
    rw [hc, hs]
    exact h.item ht

theorem sendMsgClicked (hnd : g.sendList.items.Nodup) {msg : MsgPtr} {idx : Option ℕ}
    (h : g.m_clickedMsg = some msg ∨ (g.sendList.selectMsg idx).currentItem = some msg) :
    (g.sendMsgClicked msg idx).SendSelected :=
  ⟨by rw [sendMsgClicked_sendItems]; exact hnd, sendMsgClicked_item h⟩

theorem sendSetCurrentRow (h : g.SendSelected) (row : ℕ) :
    (g.sendSetCurrentRow row).SendSelected := by
  unfold GuiAppMgr.sendSetCurrentRow
  split_ifs
  · exact h
  · split
    · next msg hmsg =>
        apply SendSelected.sendMsgClicked
        · exact h.nodup
        · exact .inr hmsg
    · exact h

theorem sendItemClicked (h : g.SendSelected) (row : ℕ) (ignored : Bool) :
    (g.sendItemClicked row ignored).SendSelected := by
  have hset := h.sendSetCurrentRow row
  unfold GuiAppMgr.sendItemClicked
  dsimp only
  split
  · next msg hmsg =>
      split_ifs
      · exact hset
      · exact .sendMsgClicked hset.nodup (.inr hmsg)
  · exact hset

/-- A new message becomes the last item; the counter gives its row. -/
theorem sendAddNewMessage (h : g.SendSelected)
    (hcount : g.m_sendListCount = g.sendList.items.length) {msg : MsgPtr}
    (hnew : msg ∉ g.sendList.items) : (g.sendAddNewMessage msg).SendSelected := by
  unfold GuiAppMgr.sendAddNewMessage
  apply SendSelected.sendMsgClicked
  · exact List.nodup_append'.mpr ⟨h.nodup, List.nodup_singleton msg,
      List.disjoint_singleton.mpr hnew⟩
  · right
    rw [selectMsg_currentItem]
    simp [MsgListWidget.addMessage, hcount]

/-- The message of the current item is replaced. -/
theorem sendUpdateMessage (h : g.SendSelected) {msg : MsgPtr}
    (hnew : g.m_clickedMsg ≠ some msg → msg ∉ g.sendList.items) :
    (g.sendUpdateMessage msg).SendSelected := by
  unfold GuiAppMgr.sendUpdateMessage
  split_ifs with ht
  · obtain ⟨p, hc, hcur⟩ := h.item ht
    obtain ⟨row, hrow, hget⟩ := Option.bind_eq_some_iff.mp hcur
    obtain ⟨hlt, hp⟩ := List.getElem?_eq_some_iff.mp hget
    have hw : g.sendList.updateCurrentMessage msg =
        { g.sendList with items := g.sendList.items.set row msg } := by
      simp only [MsgListWidget.updateCurrentMessage, hrow]
    constructor
    · show (g.sendList.updateCurrentMessage msg).items.Nodup
      rw [hw]
      by_cases heq : p = msg
      · rw [← heq, ← hp, List.set_getElem_self]
        exact h.nodup
      · have hnot := hnew (by rw [hc]; exact fun e => heq (Option.some.inj e))
        exact h.nodup.set hnot
    · refine fun _ => ⟨msg, rfl, ?_⟩
      show (g.sendList.updateCurrentMessage msg).currentItem = some msg
      rw [hw]
      simp only [MsgListWidget.currentItem, hrow, Option.bind_some]
      exact List.getElem?_set_self hlt
  · exact h

theorem sendUpdateSelected (h : g.SendSelected) : g.sendUpdateSelected.SendSelected := by
  unfold GuiAppMgr.sendUpdateSelected
  split
  · next msg hc => exact h.sendUpdateMessage fun hne => absurd hc hne
  · exact h

theorem sendDeleteClicked (h : g.SendSelected) (hs : g.SendShown) :
    g.sendDeleteClicked.SendSelected := by
  have hrow := hs.sendDeleteClicked.row
  have hdel : g.clearDisplayedMessage.sendDeleteSelectedMsg.SendSelected := by
    have hnd : g.sendList.deleteCurrentItem.items.Nodup :=
      (deleteCurrentItem_sublist g.sendList).nodup h.nodup
    unfold sendDeleteSelectedMsg
    dsimp only
    split
    · next next hnext =>
        obtain ⟨row, hrow, hget⟩ := Option.bind_eq_some_iff.mp hnext
        refine .sendMsgClicked hnd (.inr ?_)
        rw [hrow]
        exact hget
    · exact ⟨hnd, sendItem_of_ne (by simp [clearDisplayedMessage])⟩
  unfold GuiAppMgr.sendDeleteClicked at hrow ⊢
  split_ifs at hrow ⊢
  · dsimp only at hrow ⊢
    split_ifs at hrow ⊢
    · -- no row is current any more
      refine ⟨hdel.nodup, sendItem_of_ne fun ht => ?_⟩
      obtain ⟨-, row, hnone, -⟩ := hrow ht
      cases hnone
    · exact ⟨hdel.nodup, hdel.item.congr rfl rfl rfl⟩
  · exact h

theorem sendClearClicked (h : g.SendSelected) : g.sendClearClicked.SendSelected := by
  unfold GuiAppMgr.sendClearClicked
  dsimp only
  split_ifs with hpos hsel
  · exact ⟨List.nodup_nil, sendItem_of_ne (by simp [clearDisplayedMessage, sendClearSelection])⟩
  · exact ⟨List.nodup_nil, sendItem_of_ne hsel⟩
  · exact h

theorem sendMoveClicked (h : g.SendSelected) (dest : MoveTo) :
    (g.sendMoveClicked dest).SendSelected := by
  have hmove : ∀ fromRow toRow,
      (fromRow < g.sendList.items.length → toRow < g.sendList.items.length) →
        (g.moveItem fromRow toRow).SendSelected := by
    intro fromRow toRow hto
    unfold moveItem
    split
    · next msg hmsg =>
        obtain ⟨hfrom, hp⟩ := List.getElem?_eq_some_iff.mp hmsg
        have hperm : ((g.sendList.items.eraseIdx fromRow).insertIdx toRow msg).Perm
            g.sendList.items := by
          have hle : toRow ≤ (g.sendList.items.eraseIdx fromRow).length := by
            rw [List.length_eraseIdx_of_lt hfrom]
            have := hto hfrom
            omega
          refine (List.perm_insertIdx msg _ hle).trans ?_
          rw [← hp]
          exact List.getElem_cons_eraseIdx_perm hfrom
        apply SendSelected.sendMsgClicked
        · exact hperm.nodup_iff.mpr h.nodup
        · exact .inr (moveItem_getElem? hfrom (hto hfrom))
    · exact h
  unfold GuiAppMgr.sendMoveClicked
  split
  · exact h
  · dsimp only
    cases dest
    all_goals
      dsimp only
      split_ifs
      · exact h
      · apply hmove
        omega

/-- `sendUpdateList` for the items of the list: a message selected there is clicked off, and on
again at its row. -/
theorem sendUpdateList (hnd : g.sendList.items.Nodup)
    (hc : g.m_selType = .send → g.m_clickedMsg ≠ none) :
    (g.sendUpdateList g.sendList.items).SendSelected := by
  unfold GuiAppMgr.sendUpdateList
  split
  · next clickedMsg ht hclicked =>
      have hoff : ({ g.sendMsgClicked clickedMsg none with
          m_sendListCount := g.sendList.items.length } : GuiAppMgr φ α σ).SendSelected := by
        have hs : (g.sendMsgClicked clickedMsg none).SendSelected :=
          .sendMsgClicked hnd (.inl hclicked)
        exact ⟨hs.nodup, hs.item.congr rfl rfl rfl⟩
      dsimp only
      split_ifs with hmem
      · refine .sendMsgClicked hoff.nodup (.inr ?_)
        rw [selectMsg_currentItem]
        show (g.sendMsgClicked clickedMsg none).sendList.items[_]? = _
        rw [sendMsgClicked_sendItems]
        exact List.getElem?_idxOf hmem
      · exact hoff
  · next hne =>
      refine ⟨hnd, sendItem_of_ne fun ht => ?_⟩
      obtain ⟨msg, hmsg⟩ := Option.ne_none_iff_exists'.mp (hc ht)
      exact hne msg ht hmsg

theorem sendLoadMsgsFromFile (h : g.SendSelected) (clear : Bool) {msgs : List MsgPtr}
    (hnd : msgs.Nodup) (hnew : g.sendList.items.Disjoint msgs) :
    (g.sendLoadMsgsFromFile clear msgs).SendSelected := by
  unfold GuiAppMgr.sendLoadMsgsFromFile
  refine sendUpdateList ?_ fun ht hc => ?_
  · show (msgs.foldl MsgListWidget.addMessage _).items.Nodup
    rw [addMessages_items]
    cases clear with
    | true => exact hnd
    | false => exact List.nodup_append'.mpr ⟨h.nodup, hnd, hnew⟩
  · obtain ⟨p, hp, -⟩ := h.item ht
    exact absurd (hp.symm.trans hc) nofun

/-- **Every event** keeps a message selected in the send list at the current item. -/
theorem step {earlier : List MsgPtr} (hi : Inv earlier g) (hs : g.SendShown) (h : g.SendSelected)
    (ev : GuiEvent) (hfresh : ev.Fresh earlier) : (g.step ev).SendSelected := by
  have hnew : ∀ p ∈ ev.ptrs, p ∉ g.sendList.items := fun p hp hitem =>
    hfresh.2 (hi.send p hitem).1 hp
  cases ev
  case sendSetCurrentRow row => exact h.sendSetCurrentRow row
  case sendItemClicked row ignored => exact h.sendItemClicked row ignored
  case sendAddNewMessage msg => exact h.sendAddNewMessage hs.count (hnew msg List.mem_cons_self)
  case sendUpdateMessage msg =>
    exact h.sendUpdateMessage fun _ => hnew msg List.mem_cons_self
  case sendUpdateSelected => exact h.sendUpdateSelected
  case sendDeleteClicked => exact h.sendDeleteClicked hs
  case sendClearClicked => exact h.sendClearClicked
  case sendMoveClicked dest => exact h.sendMoveClicked dest
  case sendLoadMsgsFromFile clear msgs =>
    exact h.sendLoadMsgsFromFile clear hfresh.1 fun p hp hq => hnew p hq hp
  case applyNewPlugins plugins =>
    refine SendSelected.of_kept ?_ (applyNewPlugins_sendKept g plugins)
    split_ifs
    · exact h.sendClearClicked
    · exact h
  all_goals exact h.of_kept (step_sendKept g _ rfl)

end SendSelected

end GuiAppMgr

end CcToolsQt
