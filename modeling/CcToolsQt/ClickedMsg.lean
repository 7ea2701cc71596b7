import CcToolsQt.SendSelection

/-! # The selected message

Where the selected message stands (`Inv.recv_of_clicked`, `Inv.send_of_clicked`), what the deletion
of the selected message removes (`recvDeleteClicked_erases`, `sendDeleteClicked_erases`), and what
a refresh makes of a message selected in the received list (`refreshRecvList_selection`). -/

namespace CcToolsQt

namespace GuiAppMgr
variable {φ α σ : Type}

/-! ### Clicks -/

/-- A click on a message that is not selected selects it. -/
theorem sendMsgClicked_on {g : GuiAppMgr φ α σ} {msg : MsgPtr} (idx : Option ℕ)
    (hc : g.m_clickedMsg ≠ some msg) :
    (g.sendMsgClicked msg idx).m_selType = .send ∧
      (g.sendMsgClicked msg idx).m_clickedMsg = some msg := by
  simp [sendMsgClicked, msgClicked, recvClearSelection, hc, displayMessage, recvSelectOnAdd]

theorem recvMsgClicked_on {g : GuiAppMgr φ α σ} {msg : MsgPtr} (hc : g.m_clickedMsg ≠ some msg) :
    (g.recvMsgClicked msg).m_selType = .recv ∧ (g.recvMsgClicked msg).m_clickedMsg = some msg := by
  simp [recvMsgClicked, msgClicked, sendClearSelection, hc, displayMessage, recvSelectOnAdd]

/-- A click on the selected message takes the selection back. -/
theorem recvMsgClicked_off {g : GuiAppMgr φ α σ} {msg : MsgPtr} (hc : g.m_clickedMsg = some msg) :
    (g.recvMsgClicked msg).m_clickedMsg = none ∧ (g.recvMsgClicked msg).m_selType = .none ∧
      (g.recvMsgClicked msg).recvList.m_selectOnAdd = true := by
  simp [recvMsgClicked, msgClicked, sendClearSelection, hc, clearDisplayedMessage,
    recvSelectOnAdd, recvClearSelection, MsgListWidget.selectOnAdd, MsgListWidget.clearSelection]

theorem sendMsgClicked_off {g : GuiAppMgr φ α σ} {msg : MsgPtr} (idx : Option ℕ)
    (hc : g.m_clickedMsg = some msg) :
    (g.sendMsgClicked msg idx).m_clickedMsg = none ∧
      (g.sendMsgClicked msg idx).m_selType = .none := by
  simp [sendMsgClicked, msgClicked, recvClearSelection, hc, clearDisplayedMessage,
    recvSelectOnAdd, sendClearSelection]

/-- Another row becomes the current one: its message is clicked on or off, and no other one is
selected then. -/
theorem sendSetCurrentRow_clicked_ne {g : GuiAppMgr φ α σ} {row : ℕ} {msg : MsgPtr}
    (hrow : g.sendList.currentRow ≠ some row) (hlt : row < g.sendList.items.length)
    (hne : g.sendList.items[row] ≠ msg) : (g.sendSetCurrentRow row).m_clickedMsg ≠ some msg := by
  unfold sendSetCurrentRow
  rw [if_neg hrow, List.getElem?_eq_getElem hlt]
  by_cases hc : g.m_clickedMsg = some g.sendList.items[row]
  · simp [sendMsgClicked, msgClicked, recvClearSelection, hc, clearDisplayedMessage,
      recvSelectOnAdd, sendClearSelection]
  · obtain ⟨-, hon⟩ := sendMsgClicked_on
      (g := { g with sendList := g.sendList.selectMsg (some row) }) (some row) hc
    rw [hon]
    exact fun e => hne (Option.some.inj e)

/-- The selected message, if it is an item of the received list, is selected there. -/
theorem Inv.recv_of_clicked {earlier : List MsgPtr} {g : GuiAppMgr φ α σ} (hi : Inv earlier g)
    {p : MsgPtr} (hp : p ∈ g.recvList.items) (hc : g.m_clickedMsg = some p) :
    g.m_selType = .recv := by
  cases ht : g.m_selType with
  | recv => rfl
  | none => exact absurd ((hi.selected.none ht).symm.trans hc) nofun
  | send =>
      obtain ⟨q, hq, -, hnot⟩ := hi.selected.send ht
      obtain rfl : q = p := Option.some.inj (hq.symm.trans hc)
      exact absurd (hi.sub hp) hnot

/-- The selected message, if it is an item of the send list, is selected there. -/
theorem Inv.send_of_clicked {earlier : List MsgPtr} {g : GuiAppMgr φ α σ} (hi : Inv earlier g)
    {p : MsgPtr} (hp : p ∈ g.sendList.items) (hc : g.m_clickedMsg = some p) :
    g.m_selType = .send := by
  cases ht : g.m_selType with
  | send => rfl
  | none => exact absurd ((hi.selected.none ht).symm.trans hc) nofun
  | recv =>
      obtain ⟨q, hq, hcur, -⟩ := hi.selected.recv ht
      obtain rfl : q = p := Option.some.inj (hq.symm.trans hc)
      exact absurd (hi.sub (mem_of_currentItem hcur)) (hi.send q hp).2

theorem Inv.recv_pos {earlier : List MsgPtr} {g : GuiAppMgr φ α σ} (hi : Inv earlier g)
    (ht : g.m_selType = .recv) : 0 < g.m_recvListCount := by
  obtain ⟨p, -, hcur, -⟩ := hi.selected.recv ht
  rw [hi.count]
  exact List.length_pos_of_mem (mem_of_currentItem hcur)

/-- The selected message is one of those brought in. -/
theorem Inv.clicked_mem {earlier : List MsgPtr} {g : GuiAppMgr φ α σ} (hi : Inv earlier g)
    {p : MsgPtr} (hc : g.m_clickedMsg = some p) : p ∈ earlier := by
  cases ht : g.m_selType with
  | none => exact absurd ((hi.selected.none ht).symm.trans hc) nofun
  | recv =>
      obtain ⟨q, hq, hcur, -⟩ := hi.selected.recv ht
      obtain rfl : q = p := Option.some.inj (hq.symm.trans hc)
      exact hi.known.mem q (hi.sub (mem_of_currentItem hcur))
  | send =>
      obtain ⟨q, hq, he, -⟩ := hi.selected.send ht
      obtain rfl : q = p := Option.some.inj (hq.symm.trans hc)
      exact he

/-! ### Deletions -/

/-- **The deletion of a received message** removes the same message from the list and the store. -/
theorem recvDeleteClicked_erases {earlier : List MsgPtr} {g : GuiAppMgr φ α σ}
    (hi : Inv earlier g) {p : MsgPtr} (ht : g.m_selType = .recv) (hc : g.m_clickedMsg = some p) :
    g.recvDeleteClicked.recvList.items = g.recvList.items.erase p ∧
      g.recvDeleteClicked.msgMgr.m_allMsgs = g.msgMgr.m_allMsgs.erase p := by
  obtain ⟨q, hq, hcur, -⟩ := hi.selected.recv ht
  obtain rfl : q = p := Option.some.inj (hq.symm.trans hc)
  have hmem := hi.sub (mem_of_currentItem hcur)
  have hstore := g.msgMgr.deleteMsg_eq_erase hmem hi.known.nodup
  have hitems := deleteCurrentItem_items hi.nodup hcur
  obtain ⟨hv, -, -⟩ := recvDeleteSelectedMsg_view earlier
    (g := ({ g with msgMgr := g.msgMgr.deleteMsg q }).clearDisplayedMessage) rfl rfl
  unfold recvDeleteClicked
  simp only [hc, ht, hi.recv_pos ht, and_self, if_true]
  exact ⟨hv.items.trans hitems, hv.allMsgs.trans hstore⟩

theorem sendDeleteClicked_erases {g : GuiAppMgr φ α σ} (hs : g.SendShown) (h : g.SendSelected)
    {p : MsgPtr} (ht : g.m_selType = .send) (hc : g.m_clickedMsg = some p) :
    g.sendDeleteClicked.sendList.items = g.sendList.items.erase p := by
  obtain ⟨-, row, -, hlt⟩ := hs.row ht
  obtain ⟨q, hq, hcur⟩ := h.item ht
  obtain rfl : q = p := Option.some.inj (hq.symm.trans hc)
  have hpos : 0 < g.m_sendListCount := hs.count ▸ Nat.zero_lt_of_lt hlt
  have hdel : g.clearDisplayedMessage.sendDeleteSelectedMsg.sendList.items =
      g.sendList.items.erase q := by
    unfold sendDeleteSelectedMsg
    dsimp only
    split
    · rw [sendMsgClicked_sendItems]
      exact deleteCurrentItem_items h.nodup hcur
    · exact deleteCurrentItem_items h.nodup hcur
  unfold sendDeleteClicked
  rw [if_pos ⟨ht, hpos⟩]
  dsimp only
  split_ifs
  · exact hdel
  · exact hdel

/-! ### Refreshing the list -/

/-- A message that was not selected is put into the list, or left out. -/
theorem refreshMsg_selection (clickedMsg : Option MsgPtr) (g : GuiAppMgr φ α σ) {q : MsgPtr}
    (hne : clickedMsg ≠ some q) :
    (refreshMsg clickedMsg g q).m_clickedMsg = g.m_clickedMsg ∧
      (refreshMsg clickedMsg g q).m_selType = g.m_selType ∧
      (refreshMsg clickedMsg g q).visible = g.visible := by
  unfold refreshMsg
  dsimp only
  split_ifs
  · exact ⟨rfl, rfl, rfl⟩
  · exact ⟨rfl, rfl, rfl⟩

theorem refreshMsgs_selection (clickedMsg : Option MsgPtr) (msgs : List MsgPtr)
    (g : GuiAppMgr φ α σ) (hne : ∀ q ∈ msgs, clickedMsg ≠ some q) :
    (msgs.foldl (refreshMsg clickedMsg) g).m_clickedMsg = g.m_clickedMsg ∧
      (msgs.foldl (refreshMsg clickedMsg) g).m_selType = g.m_selType := by
  induction msgs generalizing g with
  | nil => exact ⟨rfl, rfl⟩
  | cons q msgs ih =>
      obtain ⟨hc, ht, -⟩ := refreshMsg_selection clickedMsg g (hne q List.mem_cons_self)
      obtain ⟨hc', ht'⟩ := ih (refreshMsg clickedMsg g q) fun r hr =>
        hne r (List.mem_cons_of_mem _ hr)
      exact ⟨hc'.trans hc, ht'.trans ht⟩

/-- One message of the store was selected; it is again if it is let through. -/
theorem refreshMsgs_clicked {p : MsgPtr} (msgs : List MsgPtr) (g : GuiAppMgr φ α σ)
    (hnd : msgs.Nodup) (hp : p ∈ msgs) (hc : g.m_clickedMsg = none) (ht : g.m_selType = .none) :
    let g' := msgs.foldl (refreshMsg (some p)) g
    (g.visible p = true → g'.m_clickedMsg = some p ∧ g'.m_selType = .recv) ∧
      (g.visible p = false → g'.m_clickedMsg = none ∧ g'.m_selType = .none) := by
  induction msgs generalizing g with
  | nil => exact absurd hp List.not_mem_nil
  | cons q msgs ih =>
      obtain ⟨hq, hnd⟩ := List.nodup_cons.mp hnd
      rw [List.foldl_cons]
      by_cases heq : q = p
      · subst heq
        obtain ⟨hc', ht'⟩ := refreshMsgs_selection (some q) msgs (refreshMsg (some q) g q)
          fun r hr e => hq (Option.some.inj e ▸ hr)
        constructor
        · intro hv
          have hclick : refreshMsg (some q) g q = (g.addMsgToRecvList q).recvMsgClicked q := by
            unfold refreshMsg
            rw [visible] at hv
            simp only [hv, if_true]
          have hoff : (g.addMsgToRecvList q).m_clickedMsg ≠ some q := by
            show g.m_clickedMsg ≠ some q
            rw [hc]
            exact (Option.some_ne_none q).symm
          obtain ⟨hsel, hon⟩ := recvMsgClicked_on hoff
          rw [hclick] at hc' ht' ⊢
          exact ⟨hc'.trans hon, ht'.trans hsel⟩
        · intro hv
          have hout : refreshMsg (some q) g q = g := by
            unfold refreshMsg
            rw [visible] at hv
            simp only [hv, Bool.false_eq_true, if_false]
          rw [hout] at hc' ht' ⊢
          exact ⟨hc'.trans hc, ht'.trans ht⟩
      · have hp' : p ∈ msgs := (List.mem_cons.mp hp).resolve_left fun e => heq e.symm
        obtain ⟨hc', ht', hv⟩ := refreshMsg_selection (some p) g
          fun e => heq (Option.some.inj e).symm
        rw [← hv]
        exact ih (refreshMsg (some p) g q) hnd hp' (hc'.trans hc) (ht'.trans ht)

/-- With nothing selected, the list is emptied and nothing is selected. -/
theorem clearRecvList_none {g : GuiAppMgr φ α σ} (ht : g.m_selType = .none) :
    (g.clearRecvList false).m_clickedMsg = none ∧ (g.clearRecvList false).m_selType = .none ∧
      (g.clearRecvList false).recvList.m_selectOnAdd = g.recvList.m_selectOnAdd := by
  simp [clearRecvList, ht, clearDisplayedMessage, MsgListWidget.clearList]

/-- **A refresh** keeps a received message selected if it is let through; otherwise nothing is
selected afterwards. -/
theorem refreshRecvList_selection {g : GuiAppMgr φ α σ}
    (hnd : g.msgMgr.m_allMsgs.Nodup) {p : MsgPtr} (hp : p ∈ g.msgMgr.m_allMsgs)
    (ht : g.m_selType = .recv) (hc : g.m_clickedMsg = some p) :
    (g.visible p = true →
        g.refreshRecvList.m_clickedMsg = some p ∧ g.refreshRecvList.m_selType = .recv) ∧
      (g.visible p = false →
        g.refreshRecvList.m_clickedMsg = none ∧ g.refreshRecvList.m_selType = .none) := by
  have hun : g.unselectRecvMsg = g.recvMsgClicked p := by
    simp [unselectRecvMsg, ht, hc]
  obtain ⟨hc₁, ht₁, -⟩ := recvMsgClicked_off hc
  obtain ⟨hc₂, ht₂, -⟩ := clearRecvList_none ht₁
  have hem := clearRecvList_emptied [] (g.recvMsgClicked p)
  have hmgr : ((g.recvMsgClicked p).clearRecvList false).msgMgr = g.msgMgr := by
    rw [hem.mgr, recvMsgClicked_msgMgr]
  have hvis : ((g.recvMsgClicked p).clearRecvList false).visible p = g.visible p := by
    rw [visible, hem.canAdd, hmgr, (recvMsgClicked_sameView g p).canAdd]
    rfl
  have hfill := refreshMsgs_clicked g.msgMgr.m_allMsgs ((g.recvMsgClicked p).clearRecvList false)
    hnd hp hc₂ ht₂
  rw [hvis] at hfill
  unfold refreshRecvList
  dsimp only
  rw [hun, hmgr, hc]
  split_ifs
  · exact hfill
  · exact hfill

end GuiAppMgr

end CcToolsQt
