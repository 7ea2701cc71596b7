import CcToolsQt.Window
import CcToolsQt.ClickedMsg

/-! # The selection and the tool bars

* `Bars`: a tool bar shows the number of the messages, and the row of the selected one if it is in
  its list; every event keeps it so and evaluates no assertion that fails (`Bars.step`).
* `selection_consistent`: in every state of a run the selection, the current items and the tool
  bars agree, a deletion takes the selected message out of the list and the store, and a refresh
  keeps the selection as long as the message is let through. -/

namespace CcToolsQt

theorem AreaToolBar.msgSelectedAsserted_iff {bar : AreaToolBar} :
    bar.msgSelectedAsserted = true ↔
      ∀ row, bar.m_selectedIdx = some row → row < bar.m_listTotal := by
  rw [AreaToolBar.msgSelectedAsserted, Option.all_eq_true]
  exact forall₂_congr fun row _ => decide_eq_true_iff

namespace GuiAppMgr
variable {φ α σ : Type}

/-- What the tool bar of the received list relies on as messages are added: a selection has a
message, and the highlight of a received one stays. -/
structure Marked (g : GuiAppMgr φ α σ) : Prop where
  type : g.m_selType = .none ↔ g.m_clickedMsg = none
  off : g.m_selType = .recv → g.recvList.m_selectOnAdd = false

theorem marked_of_selected {earlier : List MsgPtr} {g : GuiAppMgr φ α σ}
    (h : Selected earlier g) : g.Marked := by
  refine ⟨⟨h.none, fun hc => ?_⟩, fun ht => ?_⟩
  · cases ht : g.m_selType with
    | none => rfl
    | recv =>
        obtain ⟨p, hp, -⟩ := h.recv ht
        exact absurd (hc.symm.trans hp) nofun
    | send =>
        obtain ⟨p, hp, -⟩ := h.send ht
        exact absurd (hc.symm.trans hp) nofun
  · obtain ⟨-, -, -, hoff⟩ := h.recv ht
    exact hoff

theorem Marked.congr {g g' : GuiAppMgr φ α σ} (h : g.Marked) (ht : g'.m_selType = g.m_selType)
    (hc : g'.m_clickedMsg = g.m_clickedMsg)
    (hr : g'.recvList.m_selectOnAdd = g.recvList.m_selectOnAdd) : g'.Marked := by
  constructor
  · rw [ht, hc]
    exact h.type
  · rw [ht, hr]
    exact h.off

theorem recvMsgClicked_marked (g : GuiAppMgr φ α σ) (msg : MsgPtr) :
    (g.recvMsgClicked msg).Marked := by
  by_cases hc : g.m_clickedMsg = some msg
  · constructor
    all_goals
      simp [recvMsgClicked, msgClicked, sendClearSelection, hc,
        clearDisplayedMessage, recvSelectOnAdd, recvClearSelection]
  · constructor
    all_goals
      simp [recvMsgClicked, msgClicked, sendClearSelection, hc,
        displayMessage, recvSelectOnAdd, MsgListWidget.selectOnAdd]

/-- What the second half of `applyNewPlugins` leaves alone. -/
theorem setupPlugins_rest (g : GuiAppMgr φ α σ) (plugins : List PluginInfoPtr)
    (hasApplied needsReload : Bool) :
    let g' := g.setupPlugins plugins hasApplied needsReload
    g'.m_recvListCount = g.m_recvListCount ∧ g'.m_sendListCount = g.m_sendListCount ∧
      g'.m_selType = g.m_selType ∧ g'.recvList = g.recvList ∧ g'.sendList = g.sendList := by
  unfold setupPlugins
  cases hasApplied <;> cases needsReload <;> dsimp only <;> split_ifs
  all_goals exact ⟨rfl, rfl, rfl, rfl, rfl⟩

end GuiAppMgr

namespace Window
variable {φ α σ : Type}

/-- What the tool bars show, with no assertion failed so far. -/
structure Bars (w : Window φ α σ) : Prop where
  recvTotal : w.recvBar.m_listTotal = w.gui.m_recvListCount
  sendTotal : w.sendBar.m_listTotal = w.gui.m_sendListCount
  recvIdx : w.recvBar.m_selectedIdx =
    if w.gui.m_selType = .recv then w.gui.recvList.currentRow else none
  sendIdx : w.sendBar.m_selectedIdx =
    if w.gui.m_selType = .send then w.gui.sendList.currentRow else none
  recvLt : w.recvBar.msgSelectedAsserted = true
  sendLt : w.sendBar.msgSelectedAsserted = true
  asserted : w.asserted = true

/-! ### Reports and clicks -/

/-- The application goes on where the tool bars do not look. -/
theorem Bars.setGui {w : Window φ α σ} (h : w.Bars) {g : GuiAppMgr φ α σ}
    (hrc : g.m_recvListCount = w.gui.m_recvListCount)
    (hsc : g.m_sendListCount = w.gui.m_sendListCount) (ht : g.m_selType = w.gui.m_selType)
    (hr : w.gui.m_selType = .recv → g.recvList.currentRow = w.gui.recvList.currentRow)
    (hs : w.gui.m_selType = .send → g.sendList.currentRow = w.gui.sendList.currentRow) :
    (w.setGui g).Bars where
  recvTotal := h.recvTotal.trans hrc.symm
  sendTotal := h.sendTotal.trans hsc.symm
  recvIdx := by
    rw [setGui_recvBar, setGui_gui, ht, h.recvIdx]
    split_ifs with hsel
    · exact (hr hsel).symm
    · rfl
  sendIdx := by
    rw [setGui_sendBar, setGui_gui, ht, h.sendIdx]
    split_ifs with hsel
    · exact (hs hsel).symm
    · rfl
  recvLt := h.recvLt
  sendLt := h.sendLt
  asserted := h.asserted

theorem Bars.assert {w : Window φ α σ} (h : w.Bars) {c : Bool} (hc : c = true) :
    (w.assert c).Bars :=
  { h with asserted := by rw [assert_asserted, h.asserted, hc]; rfl }

/-- A number is reported that is above the row shown. -/
theorem recvListCountReport_bars {w : Window φ α σ} {n : ℕ} (h : w.Bars)
    (hlt : ∀ row, w.recvBar.m_selectedIdx = some row → row < n) :
    (w.setGui { w.gui with m_recvListCount := n }).recvListCountReport.Bars := by
  have hok : AreaToolBar.msgSelectedAsserted { w.recvBar with m_listTotal := n } = true :=
    AreaToolBar.msgSelectedAsserted_iff.mpr hlt
  refine { h with recvTotal := rfl, recvLt := hok, asserted := ?_ }
  show (w.asserted && AreaToolBar.msgSelectedAsserted { w.recvBar with m_listTotal := n }) = true
  rw [h.asserted, hok]
  rfl

theorem sendListCountReport_bars {w : Window φ α σ} {n : ℕ} (h : w.Bars)
    (hlt : ∀ row, w.sendBar.m_selectedIdx = some row → row < n) :
    (w.setGui { w.gui with m_sendListCount := n }).sendListCountReport.Bars := by
  have hok : AreaToolBar.msgSelectedAsserted { w.sendBar with m_listTotal := n } = true :=
    AreaToolBar.msgSelectedAsserted_iff.mpr hlt
  refine { h with sendTotal := rfl, sendLt := hok, asserted := ?_ }
  show (w.asserted && AreaToolBar.msgSelectedAsserted { w.sendBar with m_listTotal := n }) = true
  rw [h.asserted, hok]
  rfl

theorem Bars.recv_lt {w : Window φ α σ} (h : w.Bars) {row : ℕ}
    (hrow : w.recvBar.m_selectedIdx = some row) : row < w.gui.m_recvListCount :=
  h.recvTotal ▸ AreaToolBar.msgSelectedAsserted_iff.mp h.recvLt row hrow

theorem Bars.send_lt {w : Window φ α σ} (h : w.Bars) {row : ℕ}
    (hrow : w.sendBar.m_selectedIdx = some row) : row < w.gui.m_sendListCount :=
  h.sendTotal ▸ AreaToolBar.msgSelectedAsserted_iff.mp h.sendLt row hrow

/-- A click on the current item of the received list, or on the selected message. -/
theorem recvMsgClicked_bars {w : Window φ α σ} {msg : MsgPtr} {idx : Option ℕ}
    (hrt : w.recvBar.m_listTotal = w.gui.m_recvListCount)
    (hst : w.sendBar.m_listTotal = w.gui.m_sendListCount) (ha : w.asserted = true)
    (htype : w.gui.m_clickedMsg = some msg → w.gui.m_selType = .recv)
    (hrow : w.gui.m_clickedMsg ≠ some msg → w.gui.recvList.currentRow = idx ∧
      AreaToolBar.msgSelectedAsserted { w.recvBar with m_selectedIdx := idx } = true) :
    (w.recvMsgClicked msg idx).Bars := by
  by_cases hc : w.gui.m_clickedMsg = some msg
  · have ht := htype hc
    constructor
    all_goals
      simp [recvMsgClicked, msgClicked, sendMsgSelected, recvMsgSelected, GuiAppMgr.msgClicked,
        GuiAppMgr.sendClearSelection, GuiAppMgr.recvClearSelection, GuiAppMgr.recvSelectOnAdd,
        GuiAppMgr.clearDisplayedMessage, AreaToolBar.msgSelectedAsserted, assert, setGui, hc, ht,
        hrt, hst, ha]
  · obtain ⟨rfl, hlt⟩ := hrow hc
    unfold AreaToolBar.msgSelectedAsserted at hlt
    constructor
    all_goals
      simp_all [recvMsgClicked, msgClicked, sendMsgSelected, recvMsgSelected, GuiAppMgr.msgClicked,
        GuiAppMgr.sendClearSelection, GuiAppMgr.displayMessage, GuiAppMgr.recvSelectOnAdd,
        MsgListWidget.selectOnAdd, AreaToolBar.msgSelectedAsserted, assert, setGui]

theorem recvMsgClicked_recvIdx {w : Window φ α σ} {msg : MsgPtr} (idx : Option ℕ)
    (hc : w.gui.m_clickedMsg ≠ some msg) :
    (w.recvMsgClicked msg idx).recvBar.m_selectedIdx = idx := by
  simp [recvMsgClicked, msgClicked, sendMsgSelected, recvMsgSelected, GuiAppMgr.msgClicked,
    GuiAppMgr.sendClearSelection, GuiAppMgr.displayMessage, GuiAppMgr.recvSelectOnAdd, assert,
    setGui, hc]

/-- A click on an item of the send list, or on the selected message. -/
theorem sendMsgClicked_bars {w : Window φ α σ} {msg : MsgPtr} {idx : Option ℕ}
    (hrt : w.recvBar.m_listTotal = w.gui.m_recvListCount)
    (hst : w.sendBar.m_listTotal = w.gui.m_sendListCount) (ha : w.asserted = true)
    (htype : w.gui.m_clickedMsg = some msg → w.gui.m_selType = .send)
    (hrow : w.gui.m_clickedMsg ≠ some msg → ∃ row, idx = some row ∧ row < w.sendBar.m_listTotal ∧
      row < w.gui.sendList.items.length) : (w.sendMsgClicked msg idx).Bars := by
  by_cases hc : w.gui.m_clickedMsg = some msg
  · have ht := htype hc
    constructor
    all_goals
      simp [sendMsgClicked, msgClicked, sendMsgSelected, recvMsgSelected, GuiAppMgr.msgClicked,
        GuiAppMgr.sendClearSelection, GuiAppMgr.recvClearSelection, GuiAppMgr.recvSelectOnAdd,
        GuiAppMgr.clearDisplayedMessage, AreaToolBar.msgSelectedAsserted, assert, setGui, hc, ht,
        hrt, hst, ha]
  · obtain ⟨row, rfl, hlt, hlen⟩ := hrow hc
    rw [hst] at hlt
    constructor
    all_goals
      simp [sendMsgClicked, msgClicked, sendMsgSelected, recvMsgSelected, GuiAppMgr.msgClicked,
        GuiAppMgr.recvClearSelection, GuiAppMgr.displayMessage, GuiAppMgr.recvSelectOnAdd,
        MsgListWidget.selectMsg, AreaToolBar.msgSelectedAsserted, assert, setGui, hc, hrt, hst, ha,
        hlt, hlen]

/-- A click on a message that is not selected selects it. -/
theorem sendMsgClicked_selects {w : Window φ α σ} {msg : MsgPtr} (idx : Option ℕ)
    (hc : w.gui.m_clickedMsg ≠ some msg) :
    decide ((w.sendMsgClicked msg idx).gui.m_selType = .send ∧
      (w.sendMsgClicked msg idx).gui.m_clickedMsg ≠ none) = true := by
  obtain ⟨ht, hon⟩ := GuiAppMgr.sendMsgClicked_on idx hc
  rw [← sendMsgClicked_gui] at ht hon
  exact decide_eq_true ⟨ht, hon ▸ Option.some_ne_none msg⟩

theorem sendMsgClicked_sendIdx {w : Window φ α σ} {msg : MsgPtr} (idx : Option ℕ)
    (hc : w.gui.m_clickedMsg ≠ some msg) :
    (w.sendMsgClicked msg idx).sendBar.m_selectedIdx = idx := by
  simp [sendMsgClicked, msgClicked, sendMsgSelected, recvMsgSelected, GuiAppMgr.msgClicked,
    GuiAppMgr.recvClearSelection, GuiAppMgr.displayMessage, GuiAppMgr.recvSelectOnAdd, assert,
    setGui, hc]

/-! ### The received list -/

/-- A message is added at the end: the row of the selected one stays. -/
theorem addMsgToRecvList_bars {w : Window φ α σ} (h : w.Bars) (hm : w.gui.Marked) (msg : MsgPtr) :
    (w.addMsgToRecvList msg).Bars := by
  have hcount := recvListCountReport_bars (n := w.gui.m_recvListCount + 1) h fun row hrow =>
    (h.recv_lt hrow).trans (Nat.lt_succ_self _)
  refine hcount.setGui rfl rfl rfl (fun ht => ?_) fun _ => rfl
  show (w.gui.recvList.addMessage msg).currentRow = w.gui.recvList.currentRow
  simp [MsgListWidget.addMessage, hm.off ht]

theorem msgAdded_bars {w : Window φ α σ} (h : w.Bars) (hm : w.gui.Marked)
    (msg : MsgPtr × ToolsMessage φ α) : (w.msgAdded msg).Bars ∧ (w.msgAdded msg).gui.Marked := by
  have hadd := addMsgToRecvList_bars h hm msg.1
  have hm' : (w.addMsgToRecvList msg.1).gui.Marked := hm.congr rfl rfl rfl
  unfold msgAdded
  dsimp only
  split_ifs
  · exact ⟨h, hm⟩
  · exact ⟨hadd, hm'⟩
  · exact ⟨hadd.setGui rfl rfl rfl (fun _ => rfl) fun _ => rfl, hm'.congr rfl rfl rfl⟩
  · exact ⟨hadd.setGui rfl rfl rfl (fun _ => rfl) fun _ => rfl, hm'.congr rfl rfl rfl⟩

theorem report_bars {w : Window φ α σ} (h : w.Bars) (hm : w.gui.Marked) (mgr : MsgMgr φ α σ) :
    (w.report mgr).Bars := by
  have hadded : ∀ (msgs : List (MsgPtr × ToolsMessage φ α)) (w : Window φ α σ), w.Bars →
      w.gui.Marked → (msgs.foldl msgAdded w).Bars := by
    intro msgs
    induction msgs with
    | nil => exact fun w h _ => h
    | cons msg msgs ih =>
        intro w h hm
        obtain ⟨h', hm'⟩ := msgAdded_bars h hm msg
        exact ih _ h' hm'
  exact hadded _ _ (h.setGui rfl rfl rfl (fun _ => rfl) fun _ => rfl) (hm.congr rfl rfl rfl)

/-- The first part of `clearRecvList` leaves no row shown in the received list. -/
theorem clearRecvSelection_spec {w : Window φ α σ} (h : w.Bars) (hm : w.gui.Marked) :
    w.clearRecvSelection.recvBar.m_selectedIdx = none ∧
      w.clearRecvSelection.sendBar = w.sendBar ∧ w.clearRecvSelection.asserted = true ∧
      w.clearRecvSelection.gui.m_sendListCount = w.gui.m_sendListCount ∧
      w.clearRecvSelection.gui.sendList = w.gui.sendList ∧
      w.clearRecvSelection.gui.m_selType = if w.gui.m_selType = .send then .send else .none := by
  have hclicked : w.gui.m_selType ≠ .none → w.gui.m_clickedMsg ≠ none := fun ht hc =>
    ht (hm.type.mpr hc)
  unfold clearRecvSelection
  cases ht : w.gui.m_selType with
  | none =>
      have hidx := h.recvIdx
      rw [ht] at hidx
      simp [h.asserted, hidx, GuiAppMgr.clearDisplayedMessage]
  | recv =>
      have hc := hclicked (by simp [ht])
      simp [h.asserted, hc, recvMsgSelected, AreaToolBar.msgSelectedAsserted,
        GuiAppMgr.clearDisplayedMessage, GuiAppMgr.recvSelectOnAdd]
  | send =>
      have hc := hclicked (by simp [ht])
      have hidx := h.recvIdx
      rw [ht] at hidx
      simp [h.asserted, hc, hidx, ht]

/-- The number of the emptied list is reported. -/
theorem clearRecvSelection_report_bars {w : Window φ α σ} (h : w.Bars) (hm : w.gui.Marked)
    {g : GuiAppMgr φ α σ} (hrc : g.m_recvListCount = w.clearRecvSelection.gui.m_recvListCount)
    (hsc : g.m_sendListCount = w.clearRecvSelection.gui.m_sendListCount)
    (ht : g.m_selType = w.clearRecvSelection.gui.m_selType)
    (hs : g.sendList = w.clearRecvSelection.gui.sendList) :
    (w.clearRecvSelection.recvListCountReport.setGui g).Bars := by
  obtain ⟨hidx, hbar, ha, hsc', hs', ht'⟩ := clearRecvSelection_spec h hm
  rw [hsc'] at hsc
  rw [hs'] at hs
  rw [ht'] at ht
  have hne : g.m_selType ≠ .recv := by
    rw [ht]
    split_ifs <;> simp
  have hlt : AreaToolBar.msgSelectedAsserted { w.clearRecvSelection.recvBar with
      m_listTotal := w.clearRecvSelection.gui.m_recvListCount } = true := by
    rw [AreaToolBar.msgSelectedAsserted, hidx]
    rfl
  refine ⟨hrc.symm, ?_, ?_, ?_, hlt, ?_, ?_⟩
  · show w.clearRecvSelection.sendBar.m_listTotal = g.m_sendListCount
    rw [hbar, h.sendTotal, hsc]
  · show w.clearRecvSelection.recvBar.m_selectedIdx = if g.m_selType = .recv then _ else none
    rw [hidx, if_neg hne]
  · show w.clearRecvSelection.sendBar.m_selectedIdx =
      if g.m_selType = .send then g.sendList.currentRow else none
    rw [hbar, h.sendIdx, ht, hs]
    by_cases hsend : w.gui.m_selType = .send
    · rw [if_pos hsend, if_pos hsend, if_pos rfl]
    · rw [if_neg hsend, if_neg hsend]
      rfl
  · show w.clearRecvSelection.sendBar.msgSelectedAsserted = true
    rw [hbar]
    exact h.sendLt
  · show (w.clearRecvSelection.asserted && _) = true
    rw [ha, hlt]
    rfl

theorem clearRecvList_bars {w : Window φ α σ} (h : w.Bars) (hm : w.gui.Marked)
    (reportDeleted : Bool) : (w.clearRecvList reportDeleted).Bars := by
  unfold clearRecvList
  cases reportDeleted with
  | false => exact clearRecvSelection_report_bars h hm rfl rfl rfl rfl
  | true =>
      dsimp only
      rw [if_pos rfl, GuiAppMgr.deleteMessages_eq]
      exact clearRecvSelection_report_bars h hm rfl rfl rfl rfl

theorem dropAllMsgs_bars {w : Window φ α σ} (h : w.Bars) (hm : w.gui.Marked) :
    w.dropAllMsgs.Bars :=
  (clearRecvList_bars h hm false).setGui rfl rfl rfl (fun _ => rfl) fun _ => rfl

/-- One message of the store is put into the list, and clicked if it was selected before. -/
theorem refreshMsg_bars {w : Window φ α σ} {clickedMsg : Option MsgPtr} (h : w.Bars)
    (hm : w.gui.Marked) (hcount : w.gui.m_recvListCount = w.gui.recvList.items.length) {p : MsgPtr}
    (hclick : clickedMsg = some p → w.gui.m_clickedMsg = none ∧
      w.gui.recvList.m_selectOnAdd = true) :
    (refreshMsg clickedMsg w p).Bars ∧ (refreshMsg clickedMsg w p).gui.Marked ∧
      (clickedMsg ≠ some p → (refreshMsg clickedMsg w p).gui.m_clickedMsg = w.gui.m_clickedMsg ∧
        (refreshMsg clickedMsg w p).gui.recvList.m_selectOnAdd =
          w.gui.recvList.m_selectOnAdd) := by
  have hadd := addMsgToRecvList_bars h hm p
  have hm' : (w.addMsgToRecvList p).gui.Marked := hm.congr rfl rfl rfl
  unfold refreshMsg
  dsimp only
  split_ifs with hshow hc
  · obtain ⟨hnone, hon⟩ := hclick hc
    refine ⟨?_, ?_, fun hne => absurd hc hne⟩
    · apply recvMsgClicked_bars
      · exact hadd.recvTotal
      · exact hadd.sendTotal
      · exact (hadd.assert (decide_eq_true (Nat.succ_pos _))).asserted
      · intro hsel
        exact absurd (hnone.symm.trans hsel) nofun
      · refine fun _ => ⟨?_, ?_⟩
        · show (w.gui.recvList.addMessage p).currentRow = some (w.gui.m_recvListCount + 1 - 1)
          simp [MsgListWidget.addMessage, hon, hcount]
        · show decide (w.gui.m_recvListCount + 1 - 1 <
            (w.addMsgToRecvList p).recvBar.m_listTotal) = true
          rw [hadd.recvTotal]
          exact decide_eq_true (Nat.lt_succ_self _)
    · rw [recvMsgClicked_gui]
      exact GuiAppMgr.recvMsgClicked_marked _ p
  · exact ⟨hadd, hm', fun _ => ⟨rfl, rfl⟩⟩
  · exact ⟨h, hm, fun _ => ⟨rfl, rfl⟩⟩

theorem refreshMsg_count {w : Window φ α σ} (clickedMsg : Option MsgPtr) (p : MsgPtr)
    (hcount : w.gui.m_recvListCount = w.gui.recvList.items.length) :
    (refreshMsg clickedMsg w p).gui.m_recvListCount =
      (refreshMsg clickedMsg w p).gui.recvList.items.length := by
  have hadd : (w.addMsgToRecvList p).gui.m_recvListCount =
      (w.addMsgToRecvList p).gui.recvList.items.length := by
    show w.gui.m_recvListCount + 1 = (w.gui.recvList.items ++ [p]).length
    rw [hcount, List.length_append, List.length_singleton]
  unfold refreshMsg
  dsimp only
  split_ifs
  · have hv := GuiAppMgr.recvMsgClicked_sameView (w.addMsgToRecvList p).gui p
    rw [recvMsgClicked_gui, assert_gui, hv.count, hv.items]
    exact hadd
  · exact hadd
  · exact hcount

theorem refreshMsgs_bars (clickedMsg : Option MsgPtr) (msgs : List MsgPtr) (w : Window φ α σ)
    (h : w.Bars) (hm : w.gui.Marked)
    (hcount : w.gui.m_recvListCount = w.gui.recvList.items.length) (hnd : msgs.Nodup)
    (hclick : ∀ p ∈ msgs, clickedMsg = some p → w.gui.m_clickedMsg = none ∧
      w.gui.recvList.m_selectOnAdd = true) :
    (msgs.foldl (refreshMsg clickedMsg) w).Bars ∧
      (msgs.foldl (refreshMsg clickedMsg) w).gui.Marked := by
  induction msgs generalizing w with
  | nil => exact ⟨h, hm⟩
  | cons p msgs ih =>
      obtain ⟨hp, hnd⟩ := List.nodup_cons.mp hnd
      obtain ⟨h', hm', hsame⟩ := refreshMsg_bars h hm hcount (hclick p List.mem_cons_self)
      refine ih _ h' hm' (refreshMsg_count clickedMsg p hcount) hnd fun q hq hc => ?_
      have hne : clickedMsg ≠ some p := fun e => hp (Option.some.inj (e.symm.trans hc) ▸ hq)
      obtain ⟨hsel, hon⟩ := hsame hne
      rw [hsel, hon]
      exact hclick q (List.mem_cons_of_mem _ hq) hc

/-- A message selected in the received list is clicked off. -/
theorem unselectRecvMsg_bars {earlier : List MsgPtr} {w : Window φ α σ} (h : w.Bars)
    (hsel : GuiAppMgr.Selected earlier w.gui)
    (hpos : w.gui.m_selType = .recv → 0 < w.gui.m_recvListCount) :
    w.unselectRecvMsg.Bars ∧ GuiAppMgr.Selected earlier w.unselectRecvMsg.gui ∧
      w.unselectRecvMsg.gui.msgMgr = w.gui.msgMgr ∧
      ∀ p ∈ w.gui.msgMgr.m_allMsgs, w.gui.m_clickedMsg = some p →
        w.unselectRecvMsg.gui.m_selType = .none ∧
          w.unselectRecvMsg.gui.recvList.m_selectOnAdd = true := by
  cases ht : w.gui.m_selType with
  | none =>
      have heq : w.unselectRecvMsg = w.setGui { w.gui with displayedMsg := none } := by
        simp [unselectRecvMsg, ht]
      rw [heq]
      refine ⟨h.setGui rfl rfl rfl (fun _ => rfl) fun _ => rfl, hsel.congr rfl rfl rfl rfl, rfl,
        fun p _ hc => ?_⟩
      exact absurd ((hsel.none ht).symm.trans hc) nofun
  | send =>
      obtain ⟨q, hq, -, hnot⟩ := hsel.send ht
      have heq : w.unselectRecvMsg = w := by simp [unselectRecvMsg, ht]
      rw [heq]
      refine ⟨h, hsel, rfl, fun p hp hc => ?_⟩
      obtain rfl : q = p := Option.some.inj (hq.symm.trans hc)
      exact absurd hp hnot
  | recv =>
      obtain ⟨q, hq, hcur, -⟩ := hsel.recv ht
      have heq : w.unselectRecvMsg =
          ((w.assert (decide (0 < w.gui.m_recvListCount))).recvMsgClicked q
            (some (w.gui.m_recvListCount - 1))).assert
              (w.gui.recvMsgClicked q).m_clickedMsg.isNone := by
        simp [unselectRecvMsg, ht, hq]
      have hoff := GuiAppMgr.recvMsgClicked_off hq
      rw [heq]
      refine ⟨?_, ?_, ?_, fun _ _ _ => ?_⟩
      · apply Bars.assert
        · apply recvMsgClicked_bars
          · exact h.recvTotal
          · exact h.sendTotal
          · exact (h.assert (decide_eq_true (hpos ht))).asserted
          · exact fun _ => ht
          · exact fun hne => absurd hq hne
        · rw [hoff.1]
          rfl
      · rw [assert_gui, recvMsgClicked_gui]
        exact GuiAppMgr.recvMsgClicked_selected earlier hcur
      · rw [assert_gui, recvMsgClicked_gui]
        exact GuiAppMgr.recvMsgClicked_msgMgr _ _
      · rw [assert_gui, recvMsgClicked_gui]
        exact hoff.2

theorem refreshRecvList_bars {earlier : List MsgPtr} {w : Window φ α σ} (h : w.Bars)
    (hnd : w.gui.msgMgr.m_allMsgs.Nodup) (hsel : GuiAppMgr.Selected earlier w.gui)
    (hpos : w.gui.m_selType = .recv → 0 < w.gui.m_recvListCount) : w.refreshRecvList.Bars := by
  obtain ⟨hun, hsel₁, hmgr, hoff⟩ := unselectRecvMsg_bars h hsel hpos
  have hem := GuiAppMgr.clearRecvList_emptied earlier w.unselectRecvMsg.gui
  have hgui := clearRecvList_gui w.unselectRecvMsg false
  have hclear := clearRecvList_bars hun (GuiAppMgr.marked_of_selected hsel₁) false
  have hstore : (w.unselectRecvMsg.clearRecvList false).gui.msgMgr.m_allMsgs =
      w.gui.msgMgr.m_allMsgs := by
    rw [hgui, hem.mgr, hmgr]
  have hfill := refreshMsgs_bars w.gui.m_clickedMsg w.gui.msgMgr.m_allMsgs
    (w.unselectRecvMsg.clearRecvList false) hclear
    (by rw [hgui]; exact GuiAppMgr.marked_of_selected (hem.selected hsel₁))
    (by rw [hgui, hem.count, hem.items]; rfl) hnd fun p hp hc => by
      obtain ⟨ht, hon⟩ := hoff p hp hc
      obtain ⟨hnone, -, hadd⟩ := GuiAppMgr.clearRecvList_none (g := w.unselectRecvMsg.gui) ht
      rw [hgui, hadd]
      exact ⟨hnone, hon⟩
  unfold refreshRecvList
  dsimp only
  rw [hstore]
  split_ifs with hnone
  · -- no row is shown while nothing is selected
    obtain ⟨hbars, hm⟩ := hfill
    have ht := hm.type.mpr (Option.isNone_iff_eq_none.mp hnone)
    refine hbars.setGui rfl rfl rfl (fun hrecv => ?_) fun _ => rfl
    exact absurd (ht.symm.trans hrecv) nofun
  · exact hfill.1

theorem updateRecvListMode_bars {earlier : List MsgPtr} {w : Window φ α σ}
    (hi : GuiAppMgr.Inv earlier w.gui) (h : w.Bars) (mode : UInt32) (checked : Bool) :
    (w.updateRecvListMode mode checked).Bars := by
  have hrefresh : ∀ m, (w.setGui { w.gui with m_recvListMode := m }).refreshRecvList.Bars := by
    intro m
    exact refreshRecvList_bars (h.setGui rfl rfl rfl (fun _ => rfl) fun _ => rfl)
      hi.known.allMsgs_nodup (hi.selected.congr rfl rfl rfl rfl) hi.recv_pos
  cases checked with
  | true => exact hrefresh _
  | false => exact hrefresh _

theorem setFilteredMessages_bars {earlier : List MsgPtr} {w : Window φ α σ}
    (hi : GuiAppMgr.Inv earlier w.gui) (h : w.Bars) (filteredMessages : List QString) :
    (w.setFilteredMessages filteredMessages).Bars := by
  have hset := h.setGui (g := { w.gui with m_filteredMessages := filteredMessages }) rfl rfl rfl
    (fun _ => rfl) fun _ => rfl
  unfold setFilteredMessages
  dsimp only
  split_ifs
  · exact h
  · exact refreshRecvList_bars hset hi.known.allMsgs_nodup (hi.selected.congr rfl rfl rfl rfl)
      hi.recv_pos
  · exact hset

/-- The tool bar is told that nothing is selected in its list. -/
theorem recvMsgSelected_none_bars {w : Window φ α σ}
    (hrt : w.recvBar.m_listTotal = w.gui.m_recvListCount)
    (hst : w.sendBar.m_listTotal = w.gui.m_sendListCount)
    (hidx : w.sendBar.m_selectedIdx =
      if w.gui.m_selType = .send then w.gui.sendList.currentRow else none)
    (hlt : w.sendBar.msgSelectedAsserted = true) (ha : w.asserted = true)
    (ht : w.gui.m_selType ≠ .recv) : (w.recvMsgSelected none).Bars where
  recvTotal := hrt
  sendTotal := hst
  recvIdx := (if_neg ht).symm
  sendIdx := hidx
  recvLt := rfl
  sendLt := hlt
  asserted := by
    show (w.asserted && true) = true
    rw [ha]
    rfl

/-- The number goes down by one, and no row is shown that is not below it. -/
theorem decRecvListCount_bars {w : Window φ α σ} (h : w.Bars) (hpos : 1 < w.gui.m_recvListCount)
    (hrow : ∀ row, w.recvBar.m_selectedIdx = some row → row < w.gui.m_recvListCount - 1) :
    w.decRecvListCount.Bars := by
  have hne : w.gui.m_recvListCount - 1 ≠ 0 := Nat.sub_ne_zero_of_lt hpos
  unfold decRecvListCount
  dsimp only
  split_ifs with hz
  · exact absurd hz hne
  · exact recvListCountReport_bars h hrow

/-- The last message goes, and no row is shown. -/
theorem decRecvListCount_last_bars {w : Window φ α σ} (h : (w.recvMsgSelected none).Bars)
    (hone : w.gui.m_recvListCount = 1) : w.decRecvListCount.Bars := by
  have hzero : w.gui.m_recvListCount - 1 = 0 := by rw [hone]
  unfold decRecvListCount
  dsimp only
  split_ifs with hz
  · exact recvListCountReport_bars (w := w.recvMsgSelected none) h nofun
  · exact absurd hzero hz

/-- The neighbour of a deleted item is clicked before the number goes down. -/
theorem recvMsgClicked_next_bars {v : Window φ α σ} {next : MsgPtr} {row : ℕ}
    (hrt : v.recvBar.m_listTotal = v.gui.m_recvListCount)
    (hst : v.sendBar.m_listTotal = v.gui.m_sendListCount) (ha : v.asserted = true)
    (hoff : v.gui.m_clickedMsg ≠ some next) (hrow : v.gui.recvList.currentRow = some row)
    (hlt : row < v.gui.m_recvListCount - 1) :
    (v.recvMsgClicked next v.gui.recvList.currentRow).decRecvListCount.Bars := by
  have hclick : (v.recvMsgClicked next v.gui.recvList.currentRow).Bars := by
    apply recvMsgClicked_bars
    · exact hrt
    · exact hst
    · exact ha
    · exact fun hc => absurd hc hoff
    · refine fun _ => ⟨rfl, ?_⟩
      rw [hrow]
      refine decide_eq_true ?_
      show row < v.recvBar.m_listTotal
      rw [hrt]
      omega
  have hcount : (v.recvMsgClicked next v.gui.recvList.currentRow).gui.m_recvListCount =
      v.gui.m_recvListCount := by
    rw [recvMsgClicked_gui]
    exact (GuiAppMgr.recvMsgClicked_sameView v.gui next).count
  refine decRecvListCount_bars hclick ?_ fun row' hrow' => ?_
  · rw [hcount]
    omega
  · rw [recvMsgClicked_recvIdx _ hoff, hrow] at hrow'
    rw [hcount, ← Option.some.inj hrow']
    exact hlt

/-- The neighbour of the deleted item is clicked, or the tool bar is told that there is none. -/
theorem recvDeleteClicked_bars {earlier : List MsgPtr} {w : Window φ α σ}
    (hi : GuiAppMgr.Inv earlier w.gui) (h : w.Bars) : w.recvDeleteClicked.Bars := by
  unfold recvDeleteClicked
  split
  · next p hc =>
      split_ifs with hg
      · obtain ⟨q, -, hcur, -⟩ := hi.selected.recv hg.1
        obtain ⟨row, hrow, hget⟩ := Option.bind_eq_some_iff.mp hcur
        have hlt := (List.getElem?_eq_some_iff.mp hget).1
        have hlen : w.gui.recvList.deleteCurrentItem.items.length = w.gui.m_recvListCount - 1 := by
          simp only [MsgListWidget.deleteCurrentItem, hrow]
          rw [hi.count]
          exact List.length_eraseIdx_of_lt hlt
        have hnext := GuiAppMgr.deleteCurrentItem_currentItem hrow hlt
        rw [← hi.count] at hnext
        have hcur' : w.gui.recvList.currentItem.isSome = true := by rw [hcur]; rfl
        dsimp only
        unfold recvDeleteSelectedMsg
        dsimp only
        set v : Window φ α σ := (((w.setGui _).setGui _).assert _).setGui _ with hv
        have hsend : v.sendBar.m_selectedIdx = none := by
          rw [hv, setGui_sendBar, assert_sendBar, setGui_sendBar, setGui_sendBar, h.sendIdx, hg.1]
          rfl
        have ha : v.asserted = true := by
          show (w.asserted && w.gui.recvList.currentItem.isSome) = true
          rw [h.asserted, hcur']
          rfl
        split
        · next next hsome =>
            obtain ⟨r, hr, hget'⟩ := Option.bind_eq_some_iff.mp hsome
            have hlt' : r < w.gui.recvList.deleteCurrentItem.items.length :=
              (List.getElem?_eq_some_iff.mp hget').1
            have hoff : v.gui.m_clickedMsg ≠ some next := (Option.some_ne_none next).symm
            exact recvMsgClicked_next_bars h.recvTotal h.sendTotal ha hoff hr (hlen ▸ hlt')
        · next hnone =>
            refine decRecvListCount_last_bars ?_ (hnext.mp hnone)
            exact recvMsgSelected_none_bars h.recvTotal h.sendTotal hsend h.sendLt ha fun ht' =>
              SelectionType.noConfusion ht'
      · exact h
  · exact h

theorem recvClearClicked_bars {w : Window φ α σ} (h : w.Bars) (hm : w.gui.Marked) :
    w.recvClearClicked.Bars := by
  unfold recvClearClicked
  split_ifs
  · exact clearRecvList_bars h hm true
  · exact h

theorem recvLoadMsgsFromFile_bars {earlier : List MsgPtr} {w : Window φ α σ}
    (hi : GuiAppMgr.Inv earlier w.gui) (h : w.Bars) (msgs : List (Option MsgPtr × ℕ)) :
    (w.recvLoadMsgsFromFile msgs).Bars := by
  have hm := GuiAppMgr.marked_of_selected (GuiAppMgr.dropAllMsgs_step hi).1.selected
  rw [← dropAllMsgs_gui] at hm
  exact report_bars (dropAllMsgs_bars h (GuiAppMgr.marked_of_selected hi.selected)) hm _

theorem recvSetCurrentRow_bars {earlier : List MsgPtr} {w : Window φ α σ}
    (hi : GuiAppMgr.Inv earlier w.gui) (h : w.Bars) (row : ℕ) : (w.recvSetCurrentRow row).Bars := by
  unfold recvSetCurrentRow
  split_ifs
  · exact h
  · split
    · next msg hmsg =>
        obtain ⟨hlt, -⟩ := List.getElem?_eq_some_iff.mp hmsg
        apply recvMsgClicked_bars
        · exact h.recvTotal
        · exact h.sendTotal
        · exact h.asserted
        · exact hi.recv_of_clicked (List.mem_of_getElem? hmsg)
        · refine fun _ => ⟨rfl, decide_eq_true ?_⟩
          show row < w.recvBar.m_listTotal
          rw [h.recvTotal, hi.count]
          exact hlt
    · exact h

theorem recvItemClicked_bars {earlier : List MsgPtr} {w : Window φ α σ}
    (hi : GuiAppMgr.Inv earlier w.gui) (h : w.Bars) (row : ℕ) (ignored : Bool) :
    (w.recvItemClicked row ignored).Bars := by
  have hset := recvSetCurrentRow_bars hi h row
  have hstep := GuiAppMgr.recvSetCurrentRow_sendStep hi row
  have hi₁ := hstep.inv hi
  have hitems := hstep.view.items
  have hitem : ∀ p, w.gui.recvList.items[row]? = some p →
      (w.gui.recvSetCurrentRow row).recvList.currentItem = some p := fun p =>
    GuiAppMgr.recvSetCurrentRow_currentItem hi
  rw [← recvSetCurrentRow_gui] at hi₁ hitems hitem
  unfold recvItemClicked
  dsimp only
  split
  · next msg hmsg =>
      split_ifs
      · exact hset
      · obtain ⟨hlt, e⟩ := List.getElem?_eq_some_iff.mp hmsg
        obtain ⟨r, hr, hget⟩ := Option.bind_eq_some_iff.mp (hitem msg (hitems ▸ hmsg))
        obtain ⟨hlt', e'⟩ := List.getElem?_eq_some_iff.mp hget
        obtain rfl : r = row := hi₁.nodup.getElem_inj_iff.mp (e'.trans e.symm)
        apply recvMsgClicked_bars
        · exact hset.recvTotal
        · exact hset.sendTotal
        · exact hset.asserted
        · exact hi₁.recv_of_clicked (List.mem_of_getElem? hmsg)
        · refine fun _ => ⟨hr, decide_eq_true ?_⟩
          show r < (w.recvSetCurrentRow r).recvBar.m_listTotal
          rw [hset.recvTotal, hi₁.count]
          exact hlt
  · exact hset

/-! ### The send list -/

/-- The new message is counted first, and its row is below the new number as it is clicked. -/
theorem sendAddNewMessage_bars {w : Window φ α σ} (h : w.Bars) (hs : w.gui.SendShown) {msg : MsgPtr}
    (hnew : w.gui.m_clickedMsg ≠ some msg) : (w.sendAddNewMessage msg).Bars := by
  have hcount := sendListCountReport_bars (n := w.gui.m_sendListCount + 1) h fun row hrow =>
    (h.send_lt hrow).trans (Nat.lt_succ_self _)
  unfold sendAddNewMessage
  dsimp only
  apply Bars.assert
  · apply sendMsgClicked_bars
    · exact hcount.recvTotal
    · exact hcount.sendTotal
    · exact hcount.asserted
    · exact fun hc => absurd hc hnew
    · refine fun _ => ⟨_, rfl, Nat.lt_succ_self _, ?_⟩
      show w.gui.m_sendListCount + 1 - 1 < (w.gui.sendList.items ++ [msg]).length
      rw [hs.count, List.length_append]
      exact Nat.lt_succ_self _
  · exact sendMsgClicked_selects _ hnew

theorem sendUpdateMessage_bars {w : Window φ α σ} (h : w.Bars) (hs : w.gui.SendShown)
    (hsel : w.gui.SendSelected) (msg : MsgPtr) : (w.sendUpdateMessage msg).Bars := by
  unfold sendUpdateMessage
  split_ifs with ht
  · obtain ⟨hc, row, -, hlt⟩ := hs.row ht
    obtain ⟨p, -, hcur⟩ := hsel.item ht
    have hpos : 0 < w.gui.m_sendListCount := hs.count ▸ Nat.zero_lt_of_lt hlt
    have hrow : (w.gui.sendList.updateCurrentMessage msg).currentRow =
        w.gui.sendList.currentRow := by
      unfold MsgListWidget.updateCurrentMessage
      split <;> rfl
    have heq : w.gui.sendUpdateMessage msg =
        ({ w.gui with
          m_clickedMsg := some msg
          sendList := w.gui.sendList.updateCurrentMessage msg }).displayMessage msg := if_pos ht
    dsimp only
    simp only [assert_gui]
    rw [heq]
    apply Bars.setGui
    · exact (h.assert (decide_eq_true ⟨hpos, hc⟩)).assert (by rw [hcur]; rfl)
    · rfl
    · rfl
    · rfl
    · exact fun _ => rfl
    · exact fun _ => hrow
  · exact h

theorem sendUpdateSelected_bars {w : Window φ α σ} (h : w.Bars) (hs : w.gui.SendShown)
    (hsel : w.gui.SendSelected) : w.sendUpdateSelected.Bars := by
  unfold sendUpdateSelected
  split
  · next msg hc => exact sendUpdateMessage_bars h hs hsel msg
  · exact h

theorem sendMsgSelected_none_bars {w : Window φ α σ}
    (hrt : w.recvBar.m_listTotal = w.gui.m_recvListCount)
    (hst : w.sendBar.m_listTotal = w.gui.m_sendListCount)
    (hidx : w.recvBar.m_selectedIdx =
      if w.gui.m_selType = .recv then w.gui.recvList.currentRow else none)
    (hlt : w.recvBar.msgSelectedAsserted = true) (ha : w.asserted = true)
    (ht : w.gui.m_selType ≠ .send) : (w.sendMsgSelected none).Bars where
  recvTotal := hrt
  sendTotal := hst
  recvIdx := hidx
  sendIdx := (if_neg ht).symm
  recvLt := hlt
  sendLt := rfl
  asserted := by
    show ((w.asserted && true) && true) = true
    rw [ha]
    rfl

theorem decSendListCount_bars {w : Window φ α σ} (h : w.Bars) (hpos : 1 < w.gui.m_sendListCount)
    (hrow : ∀ row, w.sendBar.m_selectedIdx = some row → row < w.gui.m_sendListCount - 1) :
    w.decSendListCount.Bars := by
  have hne : w.gui.m_sendListCount - 1 ≠ 0 := Nat.sub_ne_zero_of_lt hpos
  unfold decSendListCount
  dsimp only
  split_ifs with hz
  · exact absurd hz hne
  · exact sendListCountReport_bars h hrow

theorem decSendListCount_last_bars {w : Window φ α σ} (h : (w.sendMsgSelected none).Bars)
    (hone : w.gui.m_sendListCount = 1) : w.decSendListCount.Bars := by
  have hzero : w.gui.m_sendListCount - 1 = 0 := by rw [hone]
  unfold decSendListCount
  dsimp only
  split_ifs with hz
  · exact sendListCountReport_bars (w := w.sendMsgSelected none) h nofun
  · exact absurd hzero hz

theorem sendMsgClicked_next_bars {v : Window φ α σ} {next : MsgPtr} {row : ℕ}
    (hrt : v.recvBar.m_listTotal = v.gui.m_recvListCount)
    (hst : v.sendBar.m_listTotal = v.gui.m_sendListCount) (ha : v.asserted = true)
    (hoff : v.gui.m_clickedMsg ≠ some next) (hrow : v.gui.sendList.currentRow = some row)
    (hlen : v.gui.sendList.items.length = v.gui.m_sendListCount - 1)
    (hlt : row < v.gui.sendList.items.length) :
    (v.sendMsgClicked next v.gui.sendList.currentRow).decSendListCount.Bars := by
  have hclick : (v.sendMsgClicked next v.gui.sendList.currentRow).Bars := by
    apply sendMsgClicked_bars
    · exact hrt
    · exact hst
    · exact ha
    · exact fun hc => absurd hc hoff
    · refine fun _ => ⟨row, hrow, ?_, hlt⟩
      show row < v.sendBar.m_listTotal
      rw [hst]
      omega
  have hcount : (v.sendMsgClicked next v.gui.sendList.currentRow).gui.m_sendListCount =
      v.gui.m_sendListCount := by
    rw [sendMsgClicked_gui]
    exact GuiAppMgr.sendMsgClicked_sendListCount _ _ _
  refine decSendListCount_bars hclick ?_ fun row' hrow' => ?_
  · rw [hcount]
    omega
  · rw [sendMsgClicked_sendIdx _ hoff, hrow] at hrow'
    rw [hcount, ← hlen, ← Option.some.inj hrow']
    exact hlt

theorem sendDeleteClicked_bars {w : Window φ α σ} (h : w.Bars) (hs : w.gui.SendShown) :
    w.sendDeleteClicked.Bars := by
  unfold sendDeleteClicked
  split_ifs with hg
  · obtain ⟨hc, row, hrow, hlt⟩ := hs.row hg.1
    have hlen : w.gui.sendList.deleteCurrentItem.items.length = w.gui.m_sendListCount - 1 := by
      simp only [MsgListWidget.deleteCurrentItem, hrow]
      rw [hs.count]
      exact List.length_eraseIdx_of_lt hlt
    have hnext := GuiAppMgr.deleteCurrentItem_currentItem hrow hlt
    rw [← hs.count] at hnext
    have hcur : w.gui.sendList.currentItem.isSome = true := by
      rw [MsgListWidget.currentItem, hrow, Option.bind_some, List.getElem?_eq_getElem hlt]
      rfl
    dsimp only
    unfold sendDeleteSelectedMsg
    dsimp only
    set v : Window φ α σ := (((w.assert _).setGui _).assert _).setGui _ with hv
    have hidx : v.recvBar.m_selectedIdx = none := by
      show w.recvBar.m_selectedIdx = none
      rw [h.recvIdx, hg.1]
      rfl
    have ha : v.asserted = true := by
      show ((w.asserted && decide (w.gui.m_clickedMsg ≠ none)) &&
        w.gui.sendList.currentItem.isSome) = true
      rw [h.asserted, decide_eq_true hc, hcur]
      rfl
    split
    · next next hsome =>
        obtain ⟨r, hr, hget'⟩ := Option.bind_eq_some_iff.mp hsome
        have hlt' : r < w.gui.sendList.deleteCurrentItem.items.length :=
          (List.getElem?_eq_some_iff.mp hget').1
        have hoff : v.gui.m_clickedMsg ≠ some next := (Option.some_ne_none next).symm
        exact sendMsgClicked_next_bars h.recvTotal h.sendTotal ha hoff hr hlen hlt'
    · next hnone =>
        refine decSendListCount_last_bars ?_ (hnext.mp hnone)
        exact sendMsgSelected_none_bars h.recvTotal h.sendTotal hidx h.recvLt ha fun ht' =>
          SelectionType.noConfusion ht'
  · exact h

theorem sendClearClicked_bars {w : Window φ α σ} (h : w.Bars) (hs : w.gui.SendShown) :
    w.sendClearClicked.Bars := by
  have hok : decide (w.gui.m_selType = .send → w.gui.m_clickedMsg ≠ none) = true :=
    decide_eq_true fun ht => (hs.row ht).1
  unfold sendClearClicked
  dsimp only
  split_ifs with hpos ht
  · have ht' : w.gui.m_selType = .send := ht
    have hidx : w.recvBar.m_selectedIdx = none := by
      rw [h.recvIdx, ht']
      rfl
    have ha : (w.asserted &&
        decide (w.gui.m_selType = .send → w.gui.m_clickedMsg ≠ none)) = true := by
      rw [h.asserted, hok]
      rfl
    set v : Window φ α σ := ((w.setGui { w.gui with sendList := w.gui.sendList.clearList }).assert
      (decide (w.gui.m_selType = .send → w.gui.m_clickedMsg ≠ none))).setGui
        (({ w.gui with sendList := w.gui.sendList.clearList }).clearDisplayedMessage)
    have hv : (v.sendMsgSelected none).Bars :=
      sendMsgSelected_none_bars h.recvTotal h.sendTotal hidx h.recvLt ha nofun
    exact sendListCountReport_bars (w := v.sendMsgSelected none) hv nofun
  · have hv := (h.setGui (g := { w.gui with sendList := w.gui.sendList.clearList }) rfl rfl rfl
      (fun _ => rfl) fun hsel => absurd hsel ht).assert hok
    have hidx : w.sendBar.m_selectedIdx = none := h.sendIdx.trans (if_neg ht)
    exact sendListCountReport_bars hv fun row hrow => absurd (hidx.symm.trans hrow) nofun
  · exact h

/-- A message selected in the send list is clicked off before the number of the loaded list is
reported, and on again after it. -/
theorem sendUpdateList_bars {w : Window φ α σ}
    (hrt : w.recvBar.m_listTotal = w.gui.m_recvListCount)
    (hst : w.sendBar.m_listTotal = w.gui.m_sendListCount) (ha : w.asserted = true)
    (hsend : w.gui.m_selType = .send → w.gui.m_clickedMsg ≠ none ∧ 0 < w.gui.m_sendListCount)
    (hother : w.gui.m_selType ≠ .send → w.Bars) :
    (w.sendUpdateList w.gui.sendList.items).Bars := by
  unfold sendUpdateList
  split
  · next clickedMsg ht hc =>
      have hpos := (hsend ht).2
      have hok : (w.assert (decide (0 < w.gui.m_sendListCount))).asserted = true := by
        rw [assert_asserted, ha, decide_eq_true hpos]
        rfl
      have hclick : ((w.assert (decide (0 < w.gui.m_sendListCount))).sendMsgClicked clickedMsg
          none).Bars := by
        apply sendMsgClicked_bars
        · exact hrt
        · exact hst
        · exact hok
        · exact fun _ => ht
        · exact fun hne => absurd hc hne
      obtain ⟨hnone, hsel⟩ := GuiAppMgr.sendMsgClicked_off none hc
      have hlist := GuiAppMgr.sendMsgClicked_sendItems w.gui clickedMsg none
      set v := (w.assert (decide (0 < w.gui.m_sendListCount))).sendMsgClicked clickedMsg none
        with hv
      have hgui : v.gui = w.gui.sendMsgClicked clickedMsg none := by
        rw [hv, sendMsgClicked_gui, assert_gui]
      rw [← hgui] at hnone hsel hlist
      have hcount := sendListCountReport_bars (n := w.gui.sendList.items.length)
        (hclick.assert (c := v.gui.m_clickedMsg.isNone) (by rw [hnone]; rfl)) fun row hrow => by
          have hidx := hclick.sendIdx
          rw [hsel] at hidx
          exact absurd (hidx.symm.trans hrow) nofun
      dsimp only
      split_ifs with hmem
      · apply sendMsgClicked_bars
        · exact hcount.recvTotal
        · exact hcount.sendTotal
        · exact hcount.asserted
        · exact fun hc' => absurd (hnone.symm.trans hc') nofun
        · have hlt := List.idxOf_lt_length_of_mem hmem
          exact fun _ => ⟨_, rfl, hlt, hlist ▸ hlt⟩
      · exact hcount
  · next ht hc => exact absurd hc (hsend ht).1
  · next hsome hnone =>
      have ht : w.gui.m_selType ≠ .send := by
        intro ht
        obtain ⟨p, hp⟩ := Option.ne_none_iff_exists'.mp (hsend ht).1
        exact hsome p ht hp
      have h := hother ht
      refine sendListCountReport_bars h fun row hrow => ?_
      rw [h.sendIdx, if_neg ht] at hrow
      cases hrow

theorem sendLoadMsgsFromFile_bars {w : Window φ α σ} (h : w.Bars) (hs : w.gui.SendShown)
    (clear : Bool) (msgs : List MsgPtr) : (w.sendLoadMsgsFromFile clear msgs).Bars := by
  unfold sendLoadMsgsFromFile
  apply sendUpdateList_bars
  · exact h.recvTotal
  · exact h.sendTotal
  · exact h.asserted
  · intro ht
    obtain ⟨hc, row, -, hlt⟩ := hs.row ht
    exact ⟨hc, hs.count ▸ Nat.zero_lt_of_lt hlt⟩
  · exact fun hne => h.setGui rfl rfl rfl (fun _ => rfl) fun ht => absurd ht hne

theorem sendSetCurrentRow_bars {earlier : List MsgPtr} {w : Window φ α σ}
    (hi : GuiAppMgr.Inv earlier w.gui) (h : w.Bars) (hs : w.gui.SendShown) (row : ℕ) :
    (w.sendSetCurrentRow row).Bars := by
  unfold sendSetCurrentRow
  split_ifs
  · exact h
  · split
    · next msg hmsg =>
        obtain ⟨hlt, -⟩ := List.getElem?_eq_some_iff.mp hmsg
        apply sendMsgClicked_bars
        · exact h.recvTotal
        · exact h.sendTotal
        · exact h.asserted
        · exact hi.send_of_clicked (List.mem_of_getElem? hmsg)
        · refine fun _ => ⟨row, rfl, ?_, hlt⟩
          show row < w.sendBar.m_listTotal
          rw [h.sendTotal, hs.count]
          exact hlt
    · exact h

theorem sendItemClicked_bars {earlier : List MsgPtr} {w : Window φ α σ}
    (hi : GuiAppMgr.Inv earlier w.gui) (h : w.Bars) (hs : w.gui.SendShown) (row : ℕ)
    (ignored : Bool) : (w.sendItemClicked row ignored).Bars := by
  have hset := sendSetCurrentRow_bars hi h hs row
  have hi₁ := (GuiAppMgr.sendSetCurrentRow_sendStep hi row).inv hi
  have hs₁ := hs.sendSetCurrentRow row
  rw [← sendSetCurrentRow_gui] at hi₁ hs₁
  unfold sendItemClicked
  dsimp only
  split
  · next msg hmsg =>
      split_ifs
      · exact hset
      · obtain ⟨hlt, -⟩ := List.getElem?_eq_some_iff.mp hmsg
        apply sendMsgClicked_bars
        · exact hset.recvTotal
        · exact hset.sendTotal
        · exact hset.asserted
        · exact hi₁.send_of_clicked (List.mem_of_getElem? hmsg)
        · exact fun _ => ⟨row, rfl, by rw [hset.sendTotal, hs₁.count]; exact hlt, hlt⟩
  · exact hset

/-- The row of the selected item is told once more. -/
theorem sendMsgSelected_bars {w : Window φ α σ} (h : w.Bars) (ht : w.gui.m_selType = .send)
    {row : ℕ} (hrow : w.gui.sendList.currentRow = some row)
    (hlen : row < w.gui.sendList.items.length) :
    (w.sendMsgSelected (some row)).Bars := by
  have hidx : w.sendBar.m_selectedIdx = some row := by rw [h.sendIdx, if_pos ht, hrow]
  have hlt :
      AreaToolBar.msgSelectedAsserted { w.sendBar with m_selectedIdx := some row } = true := by
    rw [← hidx]
    exact h.sendLt
  refine { h with sendIdx := ?_, sendLt := hlt, asserted := ?_ }
  · exact (if_pos ht).symm
  · show ((w.asserted && _) && decide (row < w.gui.sendList.items.length)) = true
    rw [h.asserted, hlt, decide_eq_true hlen]
    rfl

/-- The neighbour of the item is clicked as the item is taken out, and the item as it is back. -/
theorem moveItem_bars {earlier : List MsgPtr} {w : Window φ α σ}
    (hi : GuiAppMgr.Inv earlier w.gui) (h : w.Bars) (hs : w.gui.SendShown)
    (hsel : w.gui.SendSelected) {fromRow toRow : ℕ}
    (hrow : w.gui.sendList.currentRow = some fromRow)
    (hto : fromRow < w.gui.sendList.items.length →
      toRow < w.gui.sendList.items.length ∧ toRow ≠ fromRow) :
    (w.moveItem fromRow toRow).Bars := by
  unfold moveItem
  split
  · next msg hmsg =>
      obtain ⟨hfrom, hp⟩ := List.getElem?_eq_some_iff.mp hmsg
      obtain ⟨hlt, hne⟩ := hto hfrom
      have hrest : (w.gui.sendList.items.eraseIdx fromRow).length =
          w.gui.sendList.items.length - 1 := List.length_eraseIdx_of_lt hfrom
      have hlen : ((w.gui.sendList.items.eraseIdx fromRow).insertIdx toRow msg).length =
          w.gui.sendList.items.length := by
        rw [List.length_insertIdx_of_le_length (by omega), hrest]
        omega
      dsimp only
      set neighbour := if fromRow < (w.gui.sendList.items.eraseIdx fromRow).length then fromRow + 1
        else fromRow - 1 with hneighbour
      have hother : neighbour < w.gui.sendList.items.length ∧ neighbour ≠ fromRow := by
        rw [hneighbour]
        split_ifs <;> omega
      have hset := sendSetCurrentRow_bars hi h hs neighbour
      have hcount : (w.sendSetCurrentRow neighbour).gui.m_sendListCount =
          w.gui.sendList.items.length := by
        rw [sendSetCurrentRow_gui, GuiAppMgr.sendSetCurrentRow_sendListCount]
        exact hs.count
      -- the neighbour is selected now, or nothing
      have hoff : (w.sendSetCurrentRow neighbour).gui.m_clickedMsg ≠ some msg := by
        rw [sendSetCurrentRow_gui]
        refine GuiAppMgr.sendSetCurrentRow_clicked_ne ?_ hother.1 ?_
        · rw [hrow]
          exact fun e => hother.2 (Option.some.inj e).symm
        · rw [← hp]
          exact fun e => hother.2 (hsel.nodup.getElem_inj_iff.mp e)
      set v := (w.sendSetCurrentRow neighbour).setGui _ with hv
      have hclick : (v.sendMsgClicked msg (some toRow)).Bars := by
        apply sendMsgClicked_bars
        · exact hset.recvTotal
        · exact hset.sendTotal
        · exact hset.asserted
        · exact fun hc => absurd hc hoff
        · refine fun _ => ⟨toRow, rfl, ?_, ?_⟩
          · show toRow < (w.sendSetCurrentRow neighbour).sendBar.m_listTotal
            rw [hset.sendTotal, hcount]
            exact hlt
          · exact hlen ▸ hlt
      have hitems : (v.sendMsgClicked msg (some toRow)).gui.sendList.items.length =
          w.gui.sendList.items.length := by
        rw [sendMsgClicked_gui, GuiAppMgr.sendMsgClicked_sendItems]
        exact hlen
      obtain ⟨ht, hc⟩ := of_decide_eq_true (sendMsgClicked_selects (w := v) (some toRow) hoff)
      have hcur : (v.sendMsgClicked msg (some toRow)).gui.sendList.currentRow = some toRow := by
        rw [sendMsgClicked_gui] at hc ⊢
        exact GuiAppMgr.sendMsgClicked_currentRow _ _ _ hc
      unfold sendSelectedMsgMoved
      rw [if_pos ⟨hc, ht⟩]
      exact sendMsgSelected_bars hclick ht hcur (hitems ▸ hlt)
  · exact h

theorem sendMoveClicked_bars {earlier : List MsgPtr} {w : Window φ α σ}
    (hi : GuiAppMgr.Inv earlier w.gui) (h : w.Bars) (hs : w.gui.SendShown)
    (hsel : w.gui.SendSelected) (dest : GuiAppMgr.MoveTo) : (w.sendMoveClicked dest).Bars := by
  unfold sendMoveClicked
  split
  · exact h
  · next curRow hrow =>
      dsimp only
      cases dest
      all_goals
        dsimp only
        split_ifs
        · exact h
        · apply moveItem_bars hi h hs hsel hrow
          omega

/-! ### Every event -/

theorem applyNewPlugins_bars {earlier : List MsgPtr} {w : Window φ α σ}
    (hi : GuiAppMgr.Inv earlier w.gui) (h : w.Bars) (hs : w.gui.SendShown)
    (plugins : List PluginInfoPtr) : (w.applyNewPlugins plugins).Bars := by
  unfold applyNewPlugins
  dsimp only
  set w₁ := if 0 < w.gui.m_sendListCount ∧ w.gui.pluginMgr.isProtocolChanging plugins then
    w.sendClearClicked else w with hw₁
  have h₁ : w₁.Bars ∧ w₁.gui.Marked := by
    rw [hw₁]
    split_ifs
    · refine ⟨sendClearClicked_bars h hs, ?_⟩
      rw [sendClearClicked_gui]
      exact GuiAppMgr.marked_of_selected (GuiAppMgr.sendClearClicked_sendStep hi).selected
    · exact ⟨h, GuiAppMgr.marked_of_selected hi.selected⟩
  set w₂ := if w.gui.pluginMgr.hasAppliedPlugins = true ∧
    w.gui.pluginMgr.needsReload plugins = true then w₁.dropAllMsgs else w₁ with hw₂
  have h₂ : w₂.Bars := by
    rw [hw₂]
    split_ifs
    · exact dropAllMsgs_bars h₁.1 h₁.2
    · exact h₁.1
  obtain ⟨hrc, hsc, ht, hr, hs⟩ := w₂.gui.setupPlugins_rest plugins
    w.gui.pluginMgr.hasAppliedPlugins (w.gui.pluginMgr.needsReload plugins)
  exact h₂.setGui hrc hsc ht (fun _ => by rw [hr]) fun _ => by rw [hs]

theorem pendingDisplayTimeout_bars {w : Window φ α σ} (h : w.Bars) :
    (w.setGui w.gui.pendingDisplayTimeout).Bars := by
  unfold GuiAppMgr.pendingDisplayTimeout
  dsimp only
  split
  · exact h.setGui rfl rfl rfl (fun _ => rfl) fun _ => rfl
  · exact h.setGui rfl rfl rfl (fun _ => rfl) fun _ => rfl

theorem sendMsgDoubleClicked_bars {w : Window φ α σ} (h : w.Bars) (hs : w.gui.SendShown) (row : ℕ) :
    (w.sendMsgDoubleClicked row).Bars := by
  unfold sendMsgDoubleClicked
  split
  · next msg hmsg =>
      dsimp only
      split_ifs with hc
      · exact h.assert (decide_eq_true hc)
      · obtain ⟨hlt, -⟩ := List.getElem?_eq_some_iff.mp hmsg
        have hon := (GuiAppMgr.sendMsgClicked_on (some row) hc).2
        rw [← sendMsgClicked_gui] at hon
        apply Bars.assert
        · apply sendMsgClicked_bars
          · exact h.recvTotal
          · exact h.sendTotal
          · exact h.asserted
          · exact fun hc' => absurd hc' hc
          · exact fun _ => ⟨row, rfl, by rw [h.sendTotal, hs.count]; exact hlt, hlt⟩
        · exact decide_eq_true hon
  · exact h

/-- **Every event** keeps the tool bars with the selection, and no assertion fails. -/
theorem Bars.step {earlier : List MsgPtr} {w : Window φ α σ} (hi : GuiAppMgr.Inv earlier w.gui)
    (h : w.Bars) (hs : w.gui.SendShown) (hsel : w.gui.SendSelected) (ev : WindowEvent)
    (hfresh : ev.Fresh earlier) : (w.step ev).Bars := by
  have hm := GuiAppMgr.marked_of_selected hi.selected
  cases ev with
  | sendMsgDoubleClicked row => exact sendMsgDoubleClicked_bars h hs row
  | app ev =>
      cases ev with
      | socketDataReceived dataInfo reads => exact report_bars h hm _
      | sendMsgs msgs => exact report_bars h hm _
      | setRecvEnabled enabled => exact h.setGui rfl rfl rfl (fun _ => rfl) fun _ => rfl
      | recvSetCurrentRow row => exact recvSetCurrentRow_bars hi h row
      | recvItemClicked row ignored => exact recvItemClicked_bars hi h row ignored
      | recvDeleteClicked => exact recvDeleteClicked_bars hi h
      | recvClearClicked => exact recvClearClicked_bars h hm
      | recvShowRecvToggled checked => exact updateRecvListMode_bars hi h _ checked
      | recvShowSentToggled checked => exact updateRecvListMode_bars hi h _ checked
      | recvShowGarbageToggled checked => exact updateRecvListMode_bars hi h _ checked
      | recvApplyFilterToggled checked => exact updateRecvListMode_bars hi h _ checked
      | setFilteredMessages filteredMessages => exact setFilteredMessages_bars hi h _
      | recvLoadMsgsFromFile msgs => exact recvLoadMsgsFromFile_bars hi h msgs
      | sendSetCurrentRow row => exact sendSetCurrentRow_bars hi h hs row
      | sendItemClicked row ignored => exact sendItemClicked_bars hi h hs row ignored
      | sendAddNewMessage msg =>
          refine sendAddNewMessage_bars h hs fun hc => ?_
          exact hfresh.2 (hi.clicked_mem hc) List.mem_cons_self
      | sendUpdateMessage msg => exact sendUpdateMessage_bars h hs hsel msg
      | sendUpdateSelected => exact sendUpdateSelected_bars h hs hsel
      | sendDeleteClicked => exact sendDeleteClicked_bars h hs
      | sendClearClicked => exact sendClearClicked_bars h hs
      | sendMoveClicked dest => exact sendMoveClicked_bars hi h hs hsel dest
      | sendLoadMsgsFromFile clear msgs => exact sendLoadMsgsFromFile_bars h hs clear msgs
      | applyNewPlugins plugins => exact applyNewPlugins_bars hi h hs plugins
      | pendingDisplayTimeout => exact pendingDisplayTimeout_bars h

/-! ### Runs -/

/-- What holds in every state of a run. -/
structure Watched (earlier : List MsgPtr) (w : Window φ α σ) : Prop where
  inv : GuiAppMgr.Inv earlier w.gui
  shown : w.gui.SendShown
  selected : w.gui.SendSelected
  bars : w.Bars

/-- A double click selects the message of the row, if it is not selected already. -/
theorem Watched.sendMsgDoubleClicked {earlier : List MsgPtr} {w : Window φ α σ}
    (h : Watched earlier w) (row : ℕ) : Watched earlier (w.sendMsgDoubleClicked row) := by
  have hbars := sendMsgDoubleClicked_bars h.bars h.shown row
  have hgui : GuiAppMgr.Inv earlier (w.sendMsgDoubleClicked row).gui ∧
      (w.sendMsgDoubleClicked row).gui.SendShown ∧
      (w.sendMsgDoubleClicked row).gui.SendSelected := by
    unfold Window.sendMsgDoubleClicked
    split
    · next msg hmsg =>
        dsimp only
        rw [assert_gui]
        split_ifs
        · exact ⟨h.inv, h.shown, h.selected⟩
        · obtain ⟨hlt, -⟩ := List.getElem?_eq_some_iff.mp hmsg
          have hstep := GuiAppMgr.sendMsgClicked_sendStep (some row) (.refl w.gui) h.inv.send
            (h.inv.send msg (List.mem_of_getElem? hmsg))
          rw [sendMsgClicked_gui]
          exact ⟨hstep.inv h.inv, .sendMsgClicked h.shown.count (.inr ⟨row, rfl, hlt⟩),
            .sendMsgClicked h.selected.nodup (.inr hmsg)⟩
    · exact ⟨h.inv, h.shown, h.selected⟩
  exact ⟨hgui.1, hgui.2.1, hgui.2.2, hbars⟩

theorem Watched.step {earlier : List MsgPtr} {w : Window φ α σ} (h : Watched earlier w)
    (ev : WindowEvent) (hfresh : ev.Fresh earlier) :
    Watched (WindowEvent.seen earlier ev) (w.step ev) := by
  have hbars := h.bars.step h.inv h.shown h.selected ev hfresh
  cases ev with
  | app ev =>
      have hgui : (w.step (.app ev)).gui = w.gui.step ev := appStep_gui w ev
      refine ⟨?_, ?_, ?_, hbars⟩
      · rw [hgui]
        exact (GuiAppMgr.step_view h.inv ev hfresh.1 hfresh.2).1
      · rw [hgui]
        exact h.shown.step ev
      · rw [hgui]
        exact h.selected.step h.inv h.shown ev hfresh
  | sendMsgDoubleClicked row =>
      rw [WindowEvent.seen, WindowEvent.ptrs, List.append_nil]
      exact h.sendMsgDoubleClicked row

/-- **The selection is consistent** in the application, its lists and their tool bars. -/
structure Consistent (w : Window φ α σ) : Prop where
  unselected : w.gui.m_selType = .none ↔ w.gui.m_clickedMsg = none
  recv : w.gui.m_selType = .recv →
    ∃ p, w.gui.m_clickedMsg = some p ∧ w.gui.recvList.currentItem = some p
  send : w.gui.m_selType = .send →
    ∃ p, w.gui.m_clickedMsg = some p ∧ w.gui.sendList.currentItem = some p
  recvDelete : ∀ p, w.gui.m_selType = .recv → w.gui.m_clickedMsg = some p →
    p ∈ w.gui.recvList.items ∧ p ∈ w.gui.msgMgr.m_allMsgs ∧
      w.recvDeleteClicked.gui.recvList.items = w.gui.recvList.items.erase p ∧
      w.recvDeleteClicked.gui.msgMgr.m_allMsgs = w.gui.msgMgr.m_allMsgs.erase p
  sendDelete : ∀ p, w.gui.m_selType = .send → w.gui.m_clickedMsg = some p →
    p ∈ w.gui.sendList.items ∧
      w.sendDeleteClicked.gui.sendList.items = w.gui.sendList.items.erase p
  recvBar : ∀ row, w.recvBar.m_selectedIdx = some row → w.gui.m_selType = .recv ∧
    w.gui.recvList.currentRow = some row ∧ row < w.recvBar.m_listTotal
  sendBar : ∀ row, w.sendBar.m_selectedIdx = some row → w.gui.m_selType = .send ∧
    w.gui.sendList.currentRow = some row ∧ row < w.sendBar.m_listTotal
  asserted : w.asserted = true
  refresh : ∀ p mode filteredMessages, w.gui.m_selType = .recv → w.gui.m_clickedMsg = some p →
    let w' := w.setGui
      { w.gui with m_recvListMode := mode, m_filteredMessages := filteredMessages }
    (w'.gui.visible p = true → w'.refreshRecvList.gui.m_clickedMsg = some p ∧
        w'.refreshRecvList.gui.m_selType = .recv) ∧
      (w'.gui.visible p = false → w'.refreshRecvList.gui.m_clickedMsg = none ∧
        w'.refreshRecvList.gui.m_selType = .none)

theorem Watched.consistent {earlier : List MsgPtr} {w : Window φ α σ} (h : Watched earlier w) :
    w.Consistent := by
  have hrecv : ∀ {p}, w.gui.m_selType = .recv → w.gui.m_clickedMsg = some p →
      w.gui.recvList.currentItem = some p := by
    intro p ht hc
    obtain ⟨q, hq, hcur, -⟩ := h.inv.selected.recv ht
    exact hq.symm.trans hc ▸ hcur
  have hmem : ∀ {p}, w.gui.m_selType = .recv → w.gui.m_clickedMsg = some p →
      p ∈ w.gui.recvList.items := fun ht hc => GuiAppMgr.mem_of_currentItem (hrecv ht hc)
  constructor
  case unselected => exact (GuiAppMgr.marked_of_selected h.inv.selected).type
  case recv =>
    intro ht
    obtain ⟨p, hc, hcur, -⟩ := h.inv.selected.recv ht
    exact ⟨p, hc, hcur⟩
  case send => exact h.selected.item
  case recvDelete =>
    intro p ht hc
    rw [recvDeleteClicked_gui]
    exact ⟨hmem ht hc, h.inv.sub (hmem ht hc), GuiAppMgr.recvDeleteClicked_erases h.inv ht hc⟩
  case sendDelete =>
    intro p ht hc
    obtain ⟨q, hq, hcur⟩ := h.selected.item ht
    obtain rfl : q = p := Option.some.inj (hq.symm.trans hc)
    rw [sendDeleteClicked_gui]
    exact ⟨GuiAppMgr.mem_of_currentItem hcur,
      GuiAppMgr.sendDeleteClicked_erases h.shown h.selected ht hc⟩
  case recvBar =>
    intro row hrow
    have hidx := h.bars.recvIdx.symm.trans hrow
    split_ifs at hidx with ht
    exact ⟨ht, hidx, h.bars.recvTotal ▸ h.bars.recv_lt hrow⟩
  case sendBar =>
    intro row hrow
    have hidx := h.bars.sendIdx.symm.trans hrow
    split_ifs at hidx with ht
    exact ⟨ht, hidx, h.bars.sendTotal ▸ h.bars.send_lt hrow⟩
  case asserted => exact h.bars.asserted
  case refresh =>
    intro p mode filteredMessages ht hc w'
    rw [refreshRecvList_gui]
    exact GuiAppMgr.refreshRecvList_selection (g := w'.gui) h.inv.known.allMsgs_nodup
      (h.inv.sub (hmem ht hc)) ht hc

/-- A just started application with tool bars that were told nothing. -/
theorem watched_start {g : GuiAppMgr φ α σ} (hg : g.Started) (hcount : g.m_sendListCount = 0) :
    Watched [] { gui := g } := by
  refine ⟨hg.inv, ⟨by rw [hcount, hg.sendItems]; rfl, GuiAppMgr.sendRow_of_ne ?_⟩,
    ⟨by rw [hg.sendItems]; exact List.nodup_nil, GuiAppMgr.sendItem_of_ne ?_⟩, ?_⟩
  · simp [hg.selType]
  · simp [hg.selType]
  · exact ⟨hg.count.symm, hcount.symm, by simp [hg.selType], by simp [hg.selType], rfl, rfl, rfl⟩

/-- **The selection is consistent in every state** of a run. -/
theorem selection_consistent (g : GuiAppMgr φ α σ) (hg : g.Started) (hcount : g.m_sendListCount = 0)
    (evs : List WindowEvent) (hnd : (evs.flatMap WindowEvent.ptrs).Nodup) :
    Runs.Always step { gui := g } evs Consistent := by
  have hstep : ∀ earlier (w : Window φ α σ) ev, ev.Fresh earlier → Watched earlier w →
      Watched (WindowEvent.seen earlier ev) (w.step ev) := fun _ _ ev hfresh h => h.step ev hfresh
  exact Runs.always_invariant hstep (fun _ _ h => h.consistent) (watched_start hg hcount)
    (WindowEvent.along_fresh (by simpa using hnd))

/-- Messages arrive and one is deleted; two messages are put into the send list, the first one is
double clicked, moved down and deleted, and the other one is selected once more. -/
def selectionEvents : List WindowEvent :=
  GuiAppMgr.silentEvents.map .app ++
    [.app (.sendAddNewMessage 4), .app (.sendAddNewMessage 5), .sendMsgDoubleClicked 0,
      .app (.sendMoveClicked .down), .app .sendDeleteClicked, .app (.sendItemClicked 0 false),
      .app (.recvSetCurrentRow 1), .app (.recvShowRecvToggled false)]

theorem selection_consistent_sample :
    Runs.Always step { gui := GuiAppMgr.sampleApp } selectionEvents Consistent :=
  selection_consistent GuiAppMgr.sampleApp GuiAppMgr.sampleApp_started rfl selectionEvents
    (by decide)

end Window

end CcToolsQt
