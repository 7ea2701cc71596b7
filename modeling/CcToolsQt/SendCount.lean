import CcToolsQt.GuiStore

/-! # The counter of the send list

`m_sendListCount` is the number of items of the send list, and a message selected in the list is at
its current row (`SendShown`), after every event. -/

namespace CcToolsQt

namespace GuiAppMgr
variable {φ α σ : Type}

/-- A message selected in the send list is one of its items. -/
def SendRow (g : GuiAppMgr φ α σ) : Prop :=
  g.m_selType = .send → g.m_clickedMsg ≠ none ∧
    ∃ row, g.sendList.currentRow = some row ∧ row < g.sendList.items.length

/-- The counter counts the items of the send list, the selected message among them. -/
structure SendShown (g : GuiAppMgr φ α σ) : Prop where
  count : g.m_sendListCount = g.sendList.items.length
  row : g.SendRow

theorem sendRow_of_ne {g : GuiAppMgr φ α σ} (h : g.m_selType ≠ .send) : g.SendRow :=
  fun ht => absurd ht h

theorem SendRow.congr {g g' : GuiAppMgr φ α σ} (h : g.SendRow) (hs : g'.sendList = g.sendList)
    (ht : g'.m_selType = g.m_selType) (hc : g'.m_clickedMsg = g.m_clickedMsg) : g'.SendRow := by
  unfold SendRow
  rw [hs, ht, hc]
  exact h

theorem SendShown.congr {g g' : GuiAppMgr φ α σ} (h : g.SendShown)
    (hs : g'.sendList = g.sendList) (hn : g'.m_sendListCount = g.m_sendListCount)
    (ht : g'.m_selType = g.m_selType) (hc : g'.m_clickedMsg = g.m_clickedMsg) : g'.SendShown :=
  ⟨by rw [hn, hs]; exact h.count, h.row.congr hs ht hc⟩

/-- A click on an item leaves no selection in the send list, or the current row there. -/
theorem sendMsgClicked_row {g : GuiAppMgr φ α σ} {msg : MsgPtr} {idx : Option ℕ}
    (h : g.m_clickedMsg = some msg ∨ ∃ row, idx = some row ∧ row < g.sendList.items.length) :
    (g.sendMsgClicked msg idx).SendRow := by
  by_cases hc : g.m_clickedMsg = some msg
  · apply sendRow_of_ne
    simp [sendMsgClicked, msgClicked, recvClearSelection, hc, clearDisplayedMessage,
      recvSelectOnAdd, sendClearSelection]
  · obtain ⟨row, rfl, hrow⟩ := h.resolve_left hc
    intro _
    simp [sendMsgClicked, msgClicked, recvClearSelection, hc, displayMessage, recvSelectOnAdd,
      MsgListWidget.selectMsg, hrow]

@[simp] theorem msgClicked_sendListCount (g : GuiAppMgr φ α σ) (msg : MsgPtr)
    (selType : SelectionType) : (g.msgClicked msg selType).m_sendListCount = g.m_sendListCount := by
  unfold msgClicked
  split_ifs <;> rfl

@[simp] theorem recvMsgClicked_sendListCount (g : GuiAppMgr φ α σ) (msg : MsgPtr) :
    (g.recvMsgClicked msg).m_sendListCount = g.m_sendListCount := by
  unfold recvMsgClicked
  dsimp only
  split_ifs <;> simp [recvClearSelection, sendClearSelection]

@[simp] theorem sendMsgClicked_sendListCount (g : GuiAppMgr φ α σ) (msg : MsgPtr)
    (idx : Option ℕ) : (g.sendMsgClicked msg idx).m_sendListCount = g.m_sendListCount := by
  unfold sendMsgClicked
  dsimp only
  split_ifs <;> simp [recvClearSelection, sendClearSelection]

@[simp] theorem sendSetCurrentRow_sendListCount (g : GuiAppMgr φ α σ) (row : ℕ) :
    (g.sendSetCurrentRow row).m_sendListCount = g.m_sendListCount := by
  unfold sendSetCurrentRow
  split_ifs
  · rfl
  · split
    · exact sendMsgClicked_sendListCount _ _ _
    · rfl

/-! ### The operations on the received list -/

/-- What is left alone where the received list is worked on: the items of the send list, and the
selection there if there is one afterwards. -/
structure SendKept (g g' : GuiAppMgr φ α σ) : Prop where
  items : g'.sendList.items = g.sendList.items
  count : g'.m_sendListCount = g.m_sendListCount
  selection : g'.m_selType = .send → g.m_selType = .send ∧ g'.m_clickedMsg = g.m_clickedMsg ∧
    g'.sendList = g.sendList

namespace SendKept
variable {g g₁ g₂ : GuiAppMgr φ α σ}

theorem refl (g : GuiAppMgr φ α σ) : SendKept g g := ⟨rfl, rfl, fun ht => ⟨ht, rfl, rfl⟩⟩

theorem trans (h₁ : SendKept g g₁) (h₂ : SendKept g₁ g₂) : SendKept g g₂ where
  items := h₂.items.trans h₁.items
  count := h₂.count.trans h₁.count
  selection := fun ht₂ => by
    obtain ⟨ht₁, hc₂, hs₂⟩ := h₂.selection ht₂
    obtain ⟨ht, hc₁, hs₁⟩ := h₁.selection ht₁
    exact ⟨ht, hc₂.trans hc₁, hs₂.trans hs₁⟩

theorem of_eq (hs : g₁.sendList = g.sendList) (hn : g₁.m_sendListCount = g.m_sendListCount)
    (ht : g₁.m_selType = g.m_selType) (hc : g₁.m_clickedMsg = g.m_clickedMsg) : SendKept g g₁ :=
  ⟨congrArg MsgListWidget.items hs, hn, fun ht₁ => ⟨ht.symm.trans ht₁, hc, hs⟩⟩

/-- Nothing is selected in the send list afterwards. -/
theorem of_ne (hs : g₁.sendList.items = g.sendList.items)
    (hn : g₁.m_sendListCount = g.m_sendListCount) (ht : g₁.m_selType ≠ .send) : SendKept g g₁ :=
  ⟨hs, hn, fun ht₁ => absurd ht₁ ht⟩

theorem setRecvListCount (h : SendKept g g₁) (n : ℕ) :
    SendKept g { g₁ with m_recvListCount := n } :=
  h.trans (of_eq rfl rfl rfl rfl)

end SendKept

theorem recvMsgClicked_selType (g : GuiAppMgr φ α σ) (msg : MsgPtr) :
    (g.recvMsgClicked msg).m_selType ≠ .send := by
  unfold recvMsgClicked msgClicked
  dsimp only
  split_ifs <;> simp [clearDisplayedMessage, recvSelectOnAdd, recvClearSelection, displayMessage]

theorem recvMsgClicked_sendKept (g : GuiAppMgr φ α σ) (msg : MsgPtr) :
    SendKept g (g.recvMsgClicked msg) :=
  .of_ne (recvMsgClicked_sendItems g msg) (recvMsgClicked_sendListCount g msg)
    (recvMsgClicked_selType g msg)

theorem recvSetCurrentRow_sendKept (g : GuiAppMgr φ α σ) (row : ℕ) :
    SendKept g (g.recvSetCurrentRow row) := by
  unfold recvSetCurrentRow
  split_ifs
  · exact .refl g
  · split
    · refine SendKept.trans ?_ (recvMsgClicked_sendKept _ _)
      exact .of_eq rfl rfl rfl rfl
    · exact .refl g

theorem recvItemClicked_sendKept (g : GuiAppMgr φ α σ) (row : ℕ) (ignored : Bool) :
    SendKept g (g.recvItemClicked row ignored) := by
  have hset := recvSetCurrentRow_sendKept g row
  unfold recvItemClicked
  dsimp only
  split
  · split_ifs
    · exact hset
    · exact hset.trans (recvMsgClicked_sendKept _ _)
  · exact hset

theorem clearRecvList_sendKept (g : GuiAppMgr φ α σ) (reportDeleted : Bool) :
    SendKept g (g.clearRecvList reportDeleted) := by
  have hfalse : SendKept g (g.clearRecvList false) := by
    unfold clearRecvList
    cases ht : g.m_selType with
    | send => exact .of_eq rfl rfl ht.symm rfl
    | none => exact .of_ne rfl rfl (by simp [clearDisplayedMessage])
    | recv => exact .of_ne rfl rfl (by simp [clearDisplayedMessage, recvSelectOnAdd])
  cases reportDeleted with
  | false => exact hfalse
  | true =>
      rw [clearRecvList_true, deleteMessages_eq]
      exact hfalse.trans (.of_eq rfl rfl rfl rfl)

theorem recvDeleteClicked_sendKept (g : GuiAppMgr φ α σ) : SendKept g g.recvDeleteClicked := by
  unfold recvDeleteClicked
  split
  · split_ifs
    · apply SendKept.setRecvListCount
      unfold recvDeleteSelectedMsg
      dsimp only
      split
      · refine SendKept.trans ?_ (recvMsgClicked_sendKept _ _)
        exact .of_ne rfl rfl (by simp [clearDisplayedMessage])
      · exact .of_ne rfl rfl (by simp [clearDisplayedMessage])
    · exact .refl g
  · exact .refl g

theorem refreshMsgs_sendKept (clickedMsg : Option MsgPtr) (msgs : List MsgPtr)
    (g : GuiAppMgr φ α σ) : SendKept g (msgs.foldl (refreshMsg clickedMsg) g) := by
  induction msgs generalizing g with
  | nil => exact .refl g
  | cons msg msgs ih =>
      refine SendKept.trans ?_ (ih _)
      unfold refreshMsg
      dsimp only
      split_ifs
      · refine SendKept.trans ?_ (recvMsgClicked_sendKept _ _)
        exact .of_eq rfl rfl rfl rfl
      · exact .of_eq rfl rfl rfl rfl
      · exact .refl g

theorem refreshRecvList_sendKept (g : GuiAppMgr φ α σ) : SendKept g g.refreshRecvList := by
  have hun : SendKept g g.unselectRecvMsg := by
    unfold unselectRecvMsg
    split
    · exact recvMsgClicked_sendKept _ _
    · exact .of_eq rfl rfl rfl rfl
    · exact .refl g
  have hfill := (hun.trans (clearRecvList_sendKept _ false)).trans
    (refreshMsgs_sendKept g.m_clickedMsg
      (g.unselectRecvMsg.clearRecvList false).msgMgr.m_allMsgs _)
  unfold refreshRecvList
  dsimp only
  split_ifs
  · exact hfill.trans (.of_eq rfl rfl rfl rfl)
  · exact hfill

theorem updateRecvListMode_sendKept (g : GuiAppMgr φ α σ) (mode : UInt32) (checked : Bool) :
    SendKept g (g.updateRecvListMode mode checked) := by
  unfold updateRecvListMode
  refine SendKept.trans ?_ (refreshRecvList_sendKept _)
  split_ifs <;> exact .of_eq rfl rfl rfl rfl

theorem setFilteredMessages_sendKept (g : GuiAppMgr φ α σ) (filteredMessages : List QString) :
    SendKept g (g.setFilteredMessages filteredMessages) := by
  unfold setFilteredMessages
  dsimp only
  split_ifs
  · exact .refl g
  · refine SendKept.trans ?_ (refreshRecvList_sendKept _)
    exact .of_eq rfl rfl rfl rfl
  · exact .of_eq rfl rfl rfl rfl

theorem report_sendKept (g : GuiAppMgr φ α σ) (mgr : MsgMgr φ α σ) :
    SendKept g (g.report mgr) := by
  have hadded : ∀ (msgs : List (MsgPtr × ToolsMessage φ α)) (g : GuiAppMgr φ α σ),
      SendKept g (msgs.foldl msgAdded g) := by
    intro msgs
    induction msgs with
    | nil => exact .refl
    | cons msg msgs ih =>
        intro g
        refine SendKept.trans ?_ (ih _)
        unfold msgAdded
        dsimp only
        split_ifs <;> exact .of_eq rfl rfl rfl rfl
  refine SendKept.trans ?_ (hadded _ _)
  exact .of_eq rfl rfl rfl rfl

theorem dropAllMsgs_sendKept (g : GuiAppMgr φ α σ) : SendKept g g.dropAllMsgs :=
  (clearRecvList_sendKept g false).trans (.of_eq rfl rfl rfl rfl)

theorem setupPlugins_sendKept (g : GuiAppMgr φ α σ) (plugins : List PluginInfoPtr)
    (hasApplied needsReload : Bool) :
    SendKept g (g.setupPlugins plugins hasApplied needsReload) := by
  unfold setupPlugins
  cases hasApplied <;> cases needsReload <;> dsimp only <;> split_ifs
  all_goals exact .of_eq rfl rfl rfl rfl

/-- The second half of `applyNewPlugins`, after the send list is cleared or not. -/
theorem applyNewPlugins_sendKept (g : GuiAppMgr φ α σ) (plugins : List PluginInfoPtr) :
    SendKept (if 0 < g.m_sendListCount ∧ g.pluginMgr.isProtocolChanging plugins then
      g.sendClearClicked else g) (g.applyNewPlugins plugins) := by
  unfold applyNewPlugins
  dsimp only
  refine SendKept.trans ?_ (setupPlugins_sendKept _ _ _ _)
  split_ifs
  · exact dropAllMsgs_sendKept _
  · exact .refl _
  · exact dropAllMsgs_sendKept _
  · exact .refl _

end GuiAppMgr

namespace GuiEvent

/-- The events that leave the send list alone. -/
def leavesSendList : GuiEvent → Bool
  | sendSetCurrentRow _ | sendItemClicked _ _ | sendAddNewMessage _ | sendUpdateMessage _
  | sendUpdateSelected | sendDeleteClicked | sendClearClicked | sendMoveClicked _
  | sendLoadMsgsFromFile _ _ | applyNewPlugins _ => false
  | _ => true

end GuiEvent

namespace GuiAppMgr
variable {φ α σ : Type}

theorem step_sendKept (g : GuiAppMgr φ α σ) (ev : GuiEvent) (h : ev.leavesSendList = true) :
    SendKept g (g.step ev) := by
  cases ev with
  | socketDataReceived dataInfo reads => exact report_sendKept g _
  | sendMsgs msgs => exact report_sendKept g _
  | setRecvEnabled enabled => exact .of_eq rfl rfl rfl rfl
  | recvSetCurrentRow row => exact recvSetCurrentRow_sendKept g row
  | recvItemClicked row ignored => exact recvItemClicked_sendKept g row ignored
  | recvDeleteClicked => exact recvDeleteClicked_sendKept g
  | recvClearClicked =>
      show SendKept g g.recvClearClicked
      unfold recvClearClicked
      split_ifs
      · exact clearRecvList_sendKept g true
      · exact .refl g
  | recvShowRecvToggled checked => exact updateRecvListMode_sendKept g _ checked
  | recvShowSentToggled checked => exact updateRecvListMode_sendKept g _ checked
  | recvShowGarbageToggled checked => exact updateRecvListMode_sendKept g _ checked
  | recvApplyFilterToggled checked => exact updateRecvListMode_sendKept g _ checked
  | setFilteredMessages filteredMessages => exact setFilteredMessages_sendKept g _
  | recvLoadMsgsFromFile msgs => exact (dropAllMsgs_sendKept g).trans (report_sendKept _ _)
  | pendingDisplayTimeout =>
      show SendKept g g.pendingDisplayTimeout
      unfold pendingDisplayTimeout
      dsimp only
      split <;> exact .of_eq rfl rfl rfl rfl
  | sendSetCurrentRow row => cases h
  | sendItemClicked row ignored => cases h
  | sendAddNewMessage msg => cases h
  | sendUpdateMessage msg => cases h
  | sendUpdateSelected => cases h
  | sendDeleteClicked => cases h
  | sendClearClicked => cases h
  | sendMoveClicked dest => cases h
  | sendLoadMsgsFromFile clear msgs => cases h
  | applyNewPlugins plugins => cases h

/-! ### The operations on the send list -/

namespace SendShown
variable {g : GuiAppMgr φ α σ}

/-- The received list is worked on. -/
theorem of_kept {g' : GuiAppMgr φ α σ} (h : g.SendShown) (hk : SendKept g g') : g'.SendShown where
  count := by rw [hk.count, hk.items, h.count]
  row := fun ht' => by
    obtain ⟨ht, hc, hs⟩ := hk.selection ht'
    rw [hc, hs]
    exact h.row ht

theorem sendMsgClicked (hn : g.m_sendListCount = g.sendList.items.length) {msg : MsgPtr}
    {idx : Option ℕ}
    (h : g.m_clickedMsg = some msg ∨ ∃ row, idx = some row ∧ row < g.sendList.items.length) :
    (g.sendMsgClicked msg idx).SendShown :=
  ⟨by simpa using hn, sendMsgClicked_row h⟩

theorem sendSetCurrentRow (h : g.SendShown) (row : ℕ) : (g.sendSetCurrentRow row).SendShown := by
  unfold GuiAppMgr.sendSetCurrentRow
  split_ifs
  · exact h
  · split
    · rename_i msg hmsg
      apply SendShown.sendMsgClicked
      · exact h.count
      · exact .inr ⟨row, rfl, (List.getElem?_eq_some_iff.mp hmsg).1⟩
    · exact h

theorem sendItemClicked (h : g.SendShown) (row : ℕ) (ignored : Bool) :
    (g.sendItemClicked row ignored).SendShown := by
  have hset := h.sendSetCurrentRow row
  unfold GuiAppMgr.sendItemClicked
  dsimp only
  split
  · rename_i msg hmsg
    split_ifs
    · exact hset
    · exact .sendMsgClicked hset.count
        (.inr ⟨row, rfl, (List.getElem?_eq_some_iff.mp hmsg).1⟩)
  · exact hset

theorem sendAddNewMessage (h : g.SendShown) (msg : MsgPtr) :
    (g.sendAddNewMessage msg).SendShown := by
  have hlen : (g.sendList.addMessage msg).items.length = g.sendList.items.length + 1 := by
    simp [MsgListWidget.addMessage]
  unfold GuiAppMgr.sendAddNewMessage
  apply SendShown.sendMsgClicked
  · show g.m_sendListCount + 1 = (g.sendList.addMessage msg).items.length
    rw [hlen, h.count]
  · refine .inr ⟨_, rfl, ?_⟩
    show g.m_sendListCount + 1 - 1 < (g.sendList.addMessage msg).items.length
    rw [hlen, h.count]
    omega

theorem sendUpdateMessage (h : g.SendShown) (msg : MsgPtr) :
    (g.sendUpdateMessage msg).SendShown := by
  unfold GuiAppMgr.sendUpdateMessage
  split_ifs with ht
  · obtain ⟨-, row, hrow, hlt⟩ := h.row ht
    have hw : g.sendList.updateCurrentMessage msg =
        { g.sendList with items := g.sendList.items.set row msg } := by
      simp only [MsgListWidget.updateCurrentMessage, hrow]
    constructor
    · show g.m_sendListCount = (g.sendList.updateCurrentMessage msg).items.length
      rw [hw, List.length_set, h.count]
    · intro _
      refine ⟨by simp [displayMessage], row, ?_, ?_⟩
      · show (g.sendList.updateCurrentMessage msg).currentRow = some row
        rw [hw, hrow]
      · show row < (g.sendList.updateCurrentMessage msg).items.length
        rw [hw, List.length_set]
        exact hlt
  · exact h

theorem sendUpdateSelected (h : g.SendShown) : g.sendUpdateSelected.SendShown := by
  unfold GuiAppMgr.sendUpdateSelected
  split
  · exact h.sendUpdateMessage _
  · exact h

theorem sendDeleteClicked (h : g.SendShown) : g.sendDeleteClicked.SendShown := by
  unfold GuiAppMgr.sendDeleteClicked
  split_ifs with hsel
  · obtain ⟨-, row, hrow, hlt⟩ := h.row hsel.1
    have hlen : g.sendList.deleteCurrentItem.items.length = g.sendList.items.length - 1 := by
      simp only [MsgListWidget.deleteCurrentItem, hrow]
      exact List.length_eraseIdx_of_lt hlt
    set g₁ := g.clearDisplayedMessage.sendDeleteSelectedMsg with hg₁
    have hdel : g₁.SendRow ∧ g₁.sendList.items.length = g.sendList.items.length - 1 ∧
        g₁.m_sendListCount = g.m_sendListCount := by
      rw [hg₁]
      unfold sendDeleteSelectedMsg
      dsimp only
      split
      · rename_i next hnext
        obtain ⟨cur, hcur, hget⟩ := Option.bind_eq_some_iff.mp hnext
        have hlt := (List.getElem?_eq_some_iff.mp hget).1
        refine ⟨sendMsgClicked_row (.inr ⟨cur, hcur, hlt⟩), ?_, ?_⟩
        · rw [sendMsgClicked_sendItems]
          exact hlen
        · rw [sendMsgClicked_sendListCount]
          rfl
      · exact ⟨sendRow_of_ne (by simp [clearDisplayedMessage]), hlen, rfl⟩
    obtain ⟨hrow₁, hlen₁, hcount₁⟩ := hdel
    have hcount : g₁.m_sendListCount - 1 = g₁.sendList.items.length := by
      rw [hcount₁, hlen₁, h.count]
    dsimp only
    split_ifs with hzero
    · -- nothing is left to be selected
      refine ⟨hcount, sendRow_of_ne fun ht => ?_⟩
      obtain ⟨-, cur, -, hcur⟩ := hrow₁ ht
      omega
    · exact ⟨hcount, hrow₁.congr rfl rfl rfl⟩
  · exact h

theorem sendClearClicked (h : g.SendShown) : g.sendClearClicked.SendShown := by
  unfold GuiAppMgr.sendClearClicked
  dsimp only
  split_ifs with hpos hsel
  · exact ⟨rfl, sendRow_of_ne (by simp [clearDisplayedMessage, sendClearSelection])⟩
  · exact ⟨rfl, sendRow_of_ne hsel⟩
  · exact h

theorem moveItem (h : g.SendShown) (fromRow toRow : ℕ)
    (hto : fromRow < g.sendList.items.length → toRow < g.sendList.items.length) :
    (g.moveItem fromRow toRow).SendShown := by
  unfold GuiAppMgr.moveItem
  split
  · rename_i msg hmsg
    have hfrom := (List.getElem?_eq_some_iff.mp hmsg).1
    set neighbour := if fromRow < (g.sendList.items.eraseIdx fromRow).length then fromRow + 1
      else fromRow - 1
    have hlen : ((g.sendList.items.eraseIdx fromRow).insertIdx toRow msg).length =
        g.sendList.items.length := by
      rw [List.length_insertIdx_of_le_length, List.length_eraseIdx_of_lt hfrom]
      · omega
      · rw [List.length_eraseIdx_of_lt hfrom]
        omega
    have hcount : (g.sendSetCurrentRow neighbour).m_sendListCount = g.sendList.items.length :=
      (sendSetCurrentRow_sendListCount g neighbour).trans h.count
    apply SendShown.sendMsgClicked
    · exact hcount.trans hlen.symm
    · exact .inr ⟨toRow, rfl, hlen.symm ▸ hto hfrom⟩
  · exact h

theorem sendMoveClicked (h : g.SendShown) (dest : MoveTo) :
    (g.sendMoveClicked dest).SendShown := by
  unfold GuiAppMgr.sendMoveClicked
  split
  · exact h
  · rename_i curRow _
    dsimp only
    cases dest
    all_goals
      dsimp only
      split_ifs
      · exact h
      · apply h.moveItem
        omega

/-- `sendUpdateList` for the items of the list, which may be others than before. -/
theorem sendUpdateList (hc : g.m_selType = .send → g.m_clickedMsg ≠ none) :
    (g.sendUpdateList g.sendList.items).SendShown := by
  unfold GuiAppMgr.sendUpdateList
  split
  · rename_i clickedMsg _ hclicked
    have hoff : ({ g.sendMsgClicked clickedMsg none with
        m_sendListCount := g.sendList.items.length } : GuiAppMgr φ α σ).SendShown := by
      refine ⟨by simp, ?_⟩
      exact (sendMsgClicked_row (.inl hclicked)).congr rfl rfl rfl
    dsimp only
    split_ifs with hmem
    · refine .sendMsgClicked hoff.count (.inr ⟨_, rfl, ?_⟩)
      rw [sendMsgClicked_sendItems]
      exact List.idxOf_lt_length_of_mem hmem
    · exact hoff
  · rename_i hne
    refine ⟨rfl, fun ht => ?_⟩
    obtain ⟨msg, hmsg⟩ := Option.ne_none_iff_exists'.mp (hc ht)
    exact absurd hmsg (hne msg ht)

theorem sendLoadMsgsFromFile (h : g.SendShown) (clear : Bool) (msgs : List MsgPtr) :
    (g.sendLoadMsgsFromFile clear msgs).SendShown := by
  unfold GuiAppMgr.sendLoadMsgsFromFile
  exact sendUpdateList fun ht => (h.row ht).1

/-- **Every event** keeps the counter of the send list right. -/
theorem step (h : g.SendShown) (ev : GuiEvent) : (g.step ev).SendShown := by
  cases ev
  case sendSetCurrentRow row => exact h.sendSetCurrentRow row
  case sendItemClicked row ignored => exact h.sendItemClicked row ignored
  case sendAddNewMessage msg => exact h.sendAddNewMessage msg
  case sendUpdateMessage msg => exact h.sendUpdateMessage msg
  case sendUpdateSelected => exact h.sendUpdateSelected
  case sendDeleteClicked => exact h.sendDeleteClicked
  case sendClearClicked => exact h.sendClearClicked
  case sendMoveClicked dest => exact h.sendMoveClicked dest
  case sendLoadMsgsFromFile clear msgs => exact h.sendLoadMsgsFromFile clear msgs
  case applyNewPlugins plugins =>
    refine SendShown.of_kept ?_ (applyNewPlugins_sendKept g plugins)
    split_ifs
    · exact h.sendClearClicked
    · exact h
  all_goals exact h.of_kept (step_sendKept g _ rfl)

end SendShown

end GuiAppMgr

end CcToolsQt
