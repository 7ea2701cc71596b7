import CcToolsQt.SendSelection

/-! # The tool bars of the lists

`GuiAppMgr` with the tool bars of its two lists, `RecvAreaToolBar` and `SendAreaToolBar`.  A tool
bar is told the number of the messages and the selected row, and asserts as it refreshes that the
row is below the number.  The operations are those of the application once more, with the reports
to the tool bars where they are emitted and the assertions about the selection.

`asserted` tells whether all assertions evaluated so far held.  For each operation `X` the lemma
`X_gui` says that the application does the same with and without its tool bars. -/

namespace CcToolsQt

/-- `RecvAreaToolBar` and `SendAreaToolBar`; `none` stands for the row `-1`. -/
structure AreaToolBar where
  m_listTotal : ℕ := 0
  m_selectedIdx : Option ℕ := none

/-- The assertion of `msgSelected`.  `refresh` comes to it while the application is active. -/
def AreaToolBar.msgSelectedAsserted (bar : AreaToolBar) : Bool :=
  bar.m_selectedIdx.all fun idx => decide (idx < bar.m_listTotal)

/-- The application and its two tool bars. -/
structure Window (φ α σ : Type) where
  gui : GuiAppMgr φ α σ
  recvBar : AreaToolBar := {}
  sendBar : AreaToolBar := {}
  asserted : Bool := true

namespace GuiAppMgr
variable {φ α σ : Type}

theorem sendMsgClicked_currentRow (g : GuiAppMgr φ α σ) (msg : MsgPtr) (idx : Option ℕ)
    (h : (g.sendMsgClicked msg idx).m_clickedMsg ≠ none) :
    (g.sendMsgClicked msg idx).sendList.currentRow = idx := by
  unfold sendMsgClicked at h ⊢
  dsimp only at h ⊢
  split_ifs at h ⊢ with hc
  · exact absurd (Option.isNone_iff_eq_none.mp hc) h
  · rfl

end GuiAppMgr

namespace Window
variable {φ α σ : Type}

def assert (w : Window φ α σ) (c : Bool) : Window φ α σ := { w with asserted := w.asserted && c }

/-- The application goes on without a report. -/
def setGui (w : Window φ α σ) (g : GuiAppMgr φ α σ) : Window φ α σ := { w with gui := g }

section
variable (w : Window φ α σ) (c : Bool) (g : GuiAppMgr φ α σ)

@[simp] theorem assert_gui : (w.assert c).gui = w.gui := rfl
@[simp] theorem assert_recvBar : (w.assert c).recvBar = w.recvBar := rfl
@[simp] theorem assert_sendBar : (w.assert c).sendBar = w.sendBar := rfl
@[simp] theorem assert_asserted : (w.assert c).asserted = (w.asserted && c) := rfl

@[simp] theorem setGui_gui : (w.setGui g).gui = g := rfl
@[simp] theorem setGui_recvBar : (w.setGui g).recvBar = w.recvBar := rfl
@[simp] theorem setGui_sendBar : (w.setGui g).sendBar = w.sendBar := rfl
@[simp] theorem setGui_asserted : (w.setGui g).asserted = w.asserted := rfl

end

/-! ### The reports -/

/-- `sigRecvListCountReport`. -/
def recvListCountReport (w : Window φ α σ) : Window φ α σ :=
  let bar := { w.recvBar with m_listTotal := w.gui.m_recvListCount }
  ({ w with recvBar := bar }).assert bar.msgSelectedAsserted

/-- `sigSendListCountReport`. -/
def sendListCountReport (w : Window φ α σ) : Window φ α σ :=
  let bar := { w.sendBar with m_listTotal := w.gui.m_sendListCount }
  ({ w with sendBar := bar }).assert bar.msgSelectedAsserted

/-- `sigRecvMsgSelected`. -/
def recvMsgSelected (w : Window φ α σ) (idx : Option ℕ) : Window φ α σ :=
  let bar := { w.recvBar with m_selectedIdx := idx }
  ({ w with recvBar := bar }).assert bar.msgSelectedAsserted

/-- `sigSendMsgSelected`: `sendMsgSelectedReport` of the tool bar, then `selectMsg` of the list. -/
def sendMsgSelected (w : Window φ α σ) (idx : Option ℕ) : Window φ α σ :=
  let bar := { w.sendBar with m_selectedIdx := idx }
  let w := ({ w with sendBar := bar }).assert bar.msgSelectedAsserted
  let w := w.assert (idx.all fun row => decide (row < w.gui.sendList.items.length))
  w.setGui { w.gui with sendList := w.gui.sendList.selectMsg idx }

section
variable (w : Window φ α σ) (idx : Option ℕ)

@[simp] theorem recvListCountReport_gui : w.recvListCountReport.gui = w.gui := rfl
@[simp] theorem recvListCountReport_sendBar : w.recvListCountReport.sendBar = w.sendBar := rfl
@[simp] theorem sendListCountReport_gui : w.sendListCountReport.gui = w.gui := rfl
@[simp] theorem sendListCountReport_recvBar : w.sendListCountReport.recvBar = w.recvBar := rfl
@[simp] theorem recvMsgSelected_gui : (w.recvMsgSelected idx).gui = w.gui := rfl
@[simp] theorem recvMsgSelected_sendBar : (w.recvMsgSelected idx).sendBar = w.sendBar := rfl
@[simp] theorem sendMsgSelected_gui : (w.sendMsgSelected idx).gui =
    { w.gui with sendList := w.gui.sendList.selectMsg idx } := rfl
@[simp] theorem sendMsgSelected_recvBar : (w.sendMsgSelected idx).recvBar = w.recvBar := rfl

end

/-! ### Clicks -/

def msgClicked (w : Window φ α σ) (msg : MsgPtr) (selType : SelectionType) : Window φ α σ :=
  let w := w.assert (decide (w.gui.m_clickedMsg = some msg → selType = w.gui.m_selType))
  w.setGui (w.gui.msgClicked msg selType)

/-- `recvMsgClicked`, after `sigSendMsgListClearSelection` and `emitSendNotSelected`. -/
def recvMsgClicked (w : Window φ α σ) (msg : MsgPtr) (idx : Option ℕ) : Window φ α σ :=
  let w := (w.setGui w.gui.sendClearSelection).sendMsgSelected none
  let w := w.msgClicked msg .recv
  if w.gui.m_clickedMsg.isNone then (w.setGui w.gui.recvClearSelection).recvMsgSelected none
  else w.recvMsgSelected idx

def sendMsgClicked (w : Window φ α σ) (msg : MsgPtr) (idx : Option ℕ) : Window φ α σ :=
  let w := (w.setGui w.gui.recvClearSelection).recvMsgSelected none
  let w := w.msgClicked msg .send
  if w.gui.m_clickedMsg.isNone then (w.setGui w.gui.sendClearSelection).sendMsgSelected none
  else w.sendMsgSelected idx

@[simp] theorem msgClicked_gui (w : Window φ α σ) (msg : MsgPtr) (selType : SelectionType) :
    (w.msgClicked msg selType).gui = w.gui.msgClicked msg selType := rfl

@[simp] theorem recvMsgClicked_gui (w : Window φ α σ) (msg : MsgPtr) (idx : Option ℕ) :
    (w.recvMsgClicked msg idx).gui = w.gui.recvMsgClicked msg := by
  have h : (((w.setGui w.gui.sendClearSelection).sendMsgSelected none).msgClicked msg .recv).gui =
      w.gui.sendClearSelection.msgClicked msg .recv := rfl
  unfold recvMsgClicked GuiAppMgr.recvMsgClicked
  rw [← h]
  dsimp only
  split_ifs <;> rfl

@[simp] theorem sendMsgClicked_gui (w : Window φ α σ) (msg : MsgPtr) (idx : Option ℕ) :
    (w.sendMsgClicked msg idx).gui = w.gui.sendMsgClicked msg idx := by
  have h : (((w.setGui w.gui.recvClearSelection).recvMsgSelected none).msgClicked msg .send).gui =
      w.gui.recvClearSelection.msgClicked msg .send := rfl
  unfold sendMsgClicked GuiAppMgr.sendMsgClicked
  rw [← h]
  dsimp only
  split_ifs <;> rfl

/-- `sendMsgDoubleClicked` for the item of a row, up to the dialog. -/
def sendMsgDoubleClicked (w : Window φ α σ) (row : ℕ) : Window φ α σ :=
  match w.gui.sendList.items[row]? with
  | some msg =>
      let w := if w.gui.m_clickedMsg = some msg then w else w.sendMsgClicked msg (some row)
      w.assert (decide (w.gui.m_clickedMsg = some msg))
  | none => w

/-! ### The received list -/

def addMsgToRecvList (w : Window φ α σ) (msg : MsgPtr) : Window φ α σ :=
  let w := w.setGui { w.gui with m_recvListCount := w.gui.m_recvListCount + 1 }
  let w := w.recvListCountReport
  w.setGui { w.gui with recvList := w.gui.recvList.addMessage msg }

@[simp] theorem addMsgToRecvList_gui (w : Window φ α σ) (msg : MsgPtr) :
    (w.addMsgToRecvList msg).gui = w.gui.addMsgToRecvList msg := rfl

def msgAdded (w : Window φ α σ) (msg : MsgPtr × ToolsMessage φ α) : Window φ α σ :=
  if !w.gui.canAddToRecvList msg.2 then w
  else
    let w := w.addMsgToRecvList msg.1
    if w.gui.m_clickedMsg.isSome then w
    else if w.gui.m_pendingDisplayWaitInProgress then
      w.setGui { w.gui with m_pendingDisplayMsg := some msg.1 }
    else w.setGui { w.gui.displayMessage msg.1 with m_pendingDisplayWaitInProgress := true }

@[simp] theorem msgAdded_gui (w : Window φ α σ) (msg : MsgPtr × ToolsMessage φ α) :
    (w.msgAdded msg).gui = w.gui.msgAdded msg := by
  unfold msgAdded GuiAppMgr.msgAdded
  rw [← addMsgToRecvList_gui]
  dsimp only
  split_ifs <;> rfl

def report (w : Window φ α σ) (mgr : MsgMgr φ α σ) : Window φ α σ :=
  (mgr.added.drop w.gui.msgMgr.added.length).foldl msgAdded
    (w.setGui { w.gui with msgMgr := mgr })

theorem foldl_gui {β : Type} {f : Window φ α σ → β → Window φ α σ}
    {h : GuiAppMgr φ α σ → β → GuiAppMgr φ α σ} (hf : ∀ w b, (f w b).gui = h w.gui b)
    (l : List β) (w : Window φ α σ) : (l.foldl f w).gui = l.foldl h w.gui := by
  induction l generalizing w with
  | nil => rfl
  | cons b l ih => rw [List.foldl_cons, List.foldl_cons, ih, hf]

@[simp] theorem report_gui (w : Window φ α σ) (mgr : MsgMgr φ α σ) :
    (w.report mgr).gui = w.gui.report mgr :=
  foldl_gui msgAdded_gui _ _

/-- The first part of `clearRecvList`: a selection is taken back, unless it is in the send list. -/
def clearRecvSelection (w : Window φ α σ) : Window φ α σ :=
  let wasSelected := w.gui.m_selType = .recv
  let sendSelected := w.gui.m_selType = .send
  let w := w.assert (decide (wasSelected → w.gui.m_clickedMsg ≠ none))
  let w := w.assert (decide (sendSelected → w.gui.m_clickedMsg ≠ none))
  let w := w.setGui { w.gui with m_recvListCount := 0 }
  let w := if sendSelected then w else w.setGui w.gui.clearDisplayedMessage
  if wasSelected then (w.setGui (w.gui.recvSelectOnAdd true)).recvMsgSelected none else w

def clearRecvList (w : Window φ α σ) (reportDeleted : Bool) : Window φ α σ :=
  let w := w.clearRecvSelection.recvListCountReport
  let msgs := w.gui.recvList.items
  let w := w.setGui { w.gui with recvList := w.gui.recvList.clearList }
  if reportDeleted then w.setGui (w.gui.deleteMessages msgs) else w

@[simp] theorem clearRecvList_gui (w : Window φ α σ) (reportDeleted : Bool) :
    (w.clearRecvList reportDeleted).gui = w.gui.clearRecvList reportDeleted := by
  unfold clearRecvList clearRecvSelection GuiAppMgr.clearRecvList
  dsimp only
  cases reportDeleted <;> split_ifs <;> rfl

def dropAllMsgs (w : Window φ α σ) : Window φ α σ :=
  let w := w.clearRecvList false
  w.setGui { w.gui with msgMgr := w.gui.msgMgr.deleteAllMsgs }

@[simp] theorem dropAllMsgs_gui (w : Window φ α σ) : w.dropAllMsgs.gui = w.gui.dropAllMsgs := by
  unfold dropAllMsgs GuiAppMgr.dropAllMsgs
  rw [← clearRecvList_gui]
  rfl

def refreshMsg (clickedMsg : Option MsgPtr) (w : Window φ α σ) (msg : MsgPtr) : Window φ α σ :=
  if w.gui.canAddToRecvList (w.gui.msgMgr.objs msg) then
    let w := w.addMsgToRecvList msg
    if clickedMsg = some msg then
      (w.assert (decide (0 < w.gui.m_recvListCount))).recvMsgClicked msg
        (some (w.gui.m_recvListCount - 1))
    else w
  else w

@[simp] theorem refreshMsg_gui (clickedMsg : Option MsgPtr) (w : Window φ α σ) (msg : MsgPtr) :
    (refreshMsg clickedMsg w msg).gui = GuiAppMgr.refreshMsg clickedMsg w.gui msg := by
  unfold refreshMsg GuiAppMgr.refreshMsg
  split_ifs <;> simp

def unselectRecvMsg (w : Window φ α σ) : Window φ α σ :=
  match w.gui.m_selType, w.gui.m_clickedMsg with
  | .recv, some msg =>
      let w := w.assert (decide (0 < w.gui.m_recvListCount))
      let w := w.recvMsgClicked msg (some (w.gui.m_recvListCount - 1))
      w.assert w.gui.m_clickedMsg.isNone
  | .recv, none => w.assert false
  | .none, _ => w.setGui { w.gui with displayedMsg := none }
  | .send, _ => w

@[simp] theorem unselectRecvMsg_gui (w : Window φ α σ) :
    w.unselectRecvMsg.gui = w.gui.unselectRecvMsg := by
  unfold unselectRecvMsg GuiAppMgr.unselectRecvMsg
  cases ht : w.gui.m_selType <;> cases hc : w.gui.m_clickedMsg <;> simp [ht, hc]

def refreshRecvList (w : Window φ α σ) : Window φ α σ :=
  let clickedMsg := w.gui.m_clickedMsg
  let w := w.unselectRecvMsg.clearRecvList false
  let w := w.gui.msgMgr.m_allMsgs.foldl (refreshMsg clickedMsg) w
  if w.gui.m_clickedMsg.isNone then w.setGui w.gui.recvClearSelection else w

@[simp] theorem refreshRecvList_gui (w : Window φ α σ) :
    w.refreshRecvList.gui = w.gui.refreshRecvList := by
  have hfold := foldl_gui (refreshMsg_gui w.gui.m_clickedMsg)
    (w.unselectRecvMsg.clearRecvList false).gui.msgMgr.m_allMsgs
    (w.unselectRecvMsg.clearRecvList false)
  unfold refreshRecvList GuiAppMgr.refreshRecvList
  dsimp only
  rw [clearRecvList_gui, unselectRecvMsg_gui] at hfold ⊢
  rw [← hfold]
  split_ifs <;> rfl

def updateRecvListMode (w : Window φ α σ) (mode : UInt32) (checked : Bool) : Window φ α σ :=
  let w :=
    if checked then w.setGui { w.gui with m_recvListMode := w.gui.m_recvListMode ||| mode }
    else w.setGui { w.gui with m_recvListMode := w.gui.m_recvListMode &&& ~~~mode }
  w.refreshRecvList

@[simp] theorem updateRecvListMode_gui (w : Window φ α σ) (mode : UInt32) (checked : Bool) :
    (w.updateRecvListMode mode checked).gui = w.gui.updateRecvListMode mode checked := by
  unfold updateRecvListMode GuiAppMgr.updateRecvListMode
  rw [refreshRecvList_gui]
  split_ifs <;> rfl

def setFilteredMessages (w : Window φ α σ) (filteredMessages : List QString) : Window φ α σ :=
  if filteredMessages = w.gui.m_filteredMessages then w
  else
    let w := w.setGui { w.gui with m_filteredMessages := filteredMessages }
    if w.gui.recvListApplyFilter then w.refreshRecvList else w

@[simp] theorem setFilteredMessages_gui (w : Window φ α σ) (filteredMessages : List QString) :
    (w.setFilteredMessages filteredMessages).gui = w.gui.setFilteredMessages filteredMessages := by
  unfold setFilteredMessages GuiAppMgr.setFilteredMessages
  split_ifs
  · rfl
  · dsimp only
    by_cases happly : ({ w.gui with m_filteredMessages := filteredMessages } :
        GuiAppMgr φ α σ).recvListApplyFilter = true
    · exact (congrArg gui (if_pos happly)).trans
        ((refreshRecvList_gui _).trans (if_pos happly).symm)
    · exact (congrArg gui (if_neg happly)).trans (if_neg happly).symm

/-- `deleteCurrentMessage` of the received list. -/
def recvDeleteSelectedMsg (w : Window φ α σ) : Window φ α σ :=
  let w := w.assert w.gui.recvList.currentItem.isSome
  let w := w.setGui { w.gui with recvList := w.gui.recvList.deleteCurrentItem }
  match w.gui.recvList.currentItem with
  | some next => w.recvMsgClicked next w.gui.recvList.currentRow
  | none => w

@[simp] theorem recvDeleteSelectedMsg_gui (w : Window φ α σ) :
    w.recvDeleteSelectedMsg.gui = w.gui.recvDeleteSelectedMsg := by
  unfold recvDeleteSelectedMsg GuiAppMgr.recvDeleteSelectedMsg
  dsimp only [assert_gui, setGui_gui]
  cases w.gui.recvList.deleteCurrentItem.currentItem with
  | none => rfl
  | some next => exact recvMsgClicked_gui _ _ _

def decRecvListCount (w : Window φ α σ) : Window φ α σ :=
  let w := w.setGui { w.gui with m_recvListCount := w.gui.m_recvListCount - 1 }
  let w := if w.gui.m_recvListCount = 0 then w.recvMsgSelected none else w
  w.recvListCountReport

@[simp] theorem decRecvListCount_gui (w : Window φ α σ) : w.decRecvListCount.gui =
    { w.gui with m_recvListCount := w.gui.m_recvListCount - 1 } := by
  unfold decRecvListCount
  dsimp only
  split_ifs <;> rfl

def recvDeleteClicked (w : Window φ α σ) : Window φ α σ :=
  match w.gui.m_clickedMsg with
  | some msg =>
      if w.gui.m_selType = .recv ∧ 0 < w.gui.m_recvListCount then
        let w := w.setGui { w.gui with msgMgr := w.gui.msgMgr.deleteMsg msg }
        let w := (w.setGui w.gui.clearDisplayedMessage).recvDeleteSelectedMsg
        w.decRecvListCount
      else w
  | none => w

@[simp] theorem recvDeleteClicked_gui (w : Window φ α σ) :
    w.recvDeleteClicked.gui = w.gui.recvDeleteClicked := by
  unfold recvDeleteClicked GuiAppMgr.recvDeleteClicked
  cases w.gui.m_clickedMsg with
  | none => rfl
  | some msg =>
      dsimp only
      split_ifs
      · rw [decRecvListCount_gui, recvDeleteSelectedMsg_gui]
        rfl
      · rfl

def recvClearClicked (w : Window φ α σ) : Window φ α σ :=
  if 0 < w.gui.m_recvListCount then w.clearRecvList true else w

@[simp] theorem recvClearClicked_gui (w : Window φ α σ) :
    w.recvClearClicked.gui = w.gui.recvClearClicked := by
  unfold recvClearClicked GuiAppMgr.recvClearClicked
  split_ifs
  · exact clearRecvList_gui w true
  · rfl

def recvLoadMsgsFromFile (w : Window φ α σ) (msgs : List (Option MsgPtr × ℕ)) : Window φ α σ :=
  let w := w.dropAllMsgs
  w.report (w.gui.msgMgr.addMsgs msgs true)

@[simp] theorem recvLoadMsgsFromFile_gui (w : Window φ α σ) (msgs : List (Option MsgPtr × ℕ)) :
    (w.recvLoadMsgsFromFile msgs).gui = w.gui.recvLoadMsgsFromFile msgs := by
  unfold recvLoadMsgsFromFile GuiAppMgr.recvLoadMsgsFromFile
  rw [report_gui, dropAllMsgs_gui]

def recvSetCurrentRow (w : Window φ α σ) (row : ℕ) : Window φ α σ :=
  if w.gui.recvList.currentRow = some row then w
  else
    match w.gui.recvList.items[row]? with
    | some msg =>
        (w.setGui { w.gui with recvList := w.gui.recvList.selectMsg (some row) }).recvMsgClicked
          msg (some row)
    | none => w

@[simp] theorem recvSetCurrentRow_gui (w : Window φ α σ) (row : ℕ) :
    (w.recvSetCurrentRow row).gui = w.gui.recvSetCurrentRow row := by
  unfold recvSetCurrentRow GuiAppMgr.recvSetCurrentRow
  split_ifs
  · rfl
  · cases w.gui.recvList.items[row]? with
    | none => rfl
    | some msg => exact recvMsgClicked_gui _ _ _

def recvItemClicked (w : Window φ α σ) (row : ℕ) (ignored : Bool) : Window φ α σ :=
  let w := w.recvSetCurrentRow row
  match w.gui.recvList.items[row]? with
  | some msg => if ignored then w else w.recvMsgClicked msg (some row)
  | none => w

@[simp] theorem recvItemClicked_gui (w : Window φ α σ) (row : ℕ) (ignored : Bool) :
    (w.recvItemClicked row ignored).gui = w.gui.recvItemClicked row ignored := by
  unfold recvItemClicked GuiAppMgr.recvItemClicked
  rw [← recvSetCurrentRow_gui]
  dsimp only
  cases (w.recvSetCurrentRow row).gui.recvList.items[row]? with
  | none => rfl
  | some msg =>
      dsimp only
      split_ifs
      · rfl
      · exact recvMsgClicked_gui _ _ _

/-! ### The send list -/

def sendAddNewMessage (w : Window φ α σ) (msg : MsgPtr) : Window φ α σ :=
  let w := w.setGui { w.gui with m_sendListCount := w.gui.m_sendListCount + 1 }
  let w := w.sendListCountReport
  let w := w.setGui { w.gui with sendList := w.gui.sendList.addMessage msg }
  let w := w.sendMsgClicked msg (some (w.gui.m_sendListCount - 1))
  w.assert (decide (w.gui.m_selType = .send ∧ w.gui.m_clickedMsg ≠ none))

@[simp] theorem sendAddNewMessage_gui (w : Window φ α σ) (msg : MsgPtr) :
    (w.sendAddNewMessage msg).gui = w.gui.sendAddNewMessage msg := by
  unfold sendAddNewMessage GuiAppMgr.sendAddNewMessage
  rw [assert_gui, sendMsgClicked_gui]
  rfl

/-- `sendUpdateMessage`; the list has a current item to update. -/
def sendUpdateMessage (w : Window φ α σ) (msg : MsgPtr) : Window φ α σ :=
  if w.gui.m_selType = .send then
    let w := w.assert (decide (0 < w.gui.m_sendListCount ∧ w.gui.m_clickedMsg ≠ none))
    let w := w.assert w.gui.sendList.currentItem.isSome
    w.setGui (w.gui.sendUpdateMessage msg)
  else w

@[simp] theorem sendUpdateMessage_gui (w : Window φ α σ) (msg : MsgPtr) :
    (w.sendUpdateMessage msg).gui = w.gui.sendUpdateMessage msg := by
  unfold sendUpdateMessage
  split_ifs with ht
  · rfl
  · unfold GuiAppMgr.sendUpdateMessage
    rw [if_neg ht]

def sendUpdateSelected (w : Window φ α σ) : Window φ α σ :=
  match w.gui.m_clickedMsg with
  | some msg => w.sendUpdateMessage msg
  | none => w

@[simp] theorem sendUpdateSelected_gui (w : Window φ α σ) :
    w.sendUpdateSelected.gui = w.gui.sendUpdateSelected := by
  unfold sendUpdateSelected GuiAppMgr.sendUpdateSelected
  cases w.gui.m_clickedMsg with
  | none => rfl
  | some msg => exact sendUpdateMessage_gui _ _

/-- `deleteCurrentMessage` of the send list. -/
def sendDeleteSelectedMsg (w : Window φ α σ) : Window φ α σ :=
  let w := w.assert w.gui.sendList.currentItem.isSome
  let w := w.setGui { w.gui with sendList := w.gui.sendList.deleteCurrentItem }
  match w.gui.sendList.currentItem with
  | some next => w.sendMsgClicked next w.gui.sendList.currentRow
  | none => w

@[simp] theorem sendDeleteSelectedMsg_gui (w : Window φ α σ) :
    w.sendDeleteSelectedMsg.gui = w.gui.sendDeleteSelectedMsg := by
  unfold sendDeleteSelectedMsg GuiAppMgr.sendDeleteSelectedMsg
  dsimp only [assert_gui, setGui_gui]
  cases w.gui.sendList.deleteCurrentItem.currentItem with
  | none => rfl
  | some next => exact sendMsgClicked_gui _ _ _

def decSendListCount (w : Window φ α σ) : Window φ α σ :=
  let w := w.setGui { w.gui with m_sendListCount := w.gui.m_sendListCount - 1 }
  let w := if w.gui.m_sendListCount = 0 then w.sendMsgSelected none else w
  w.sendListCountReport

@[simp] theorem decSendListCount_gui (w : Window φ α σ) : w.decSendListCount.gui =
    let g := { w.gui with m_sendListCount := w.gui.m_sendListCount - 1 }
    if g.m_sendListCount = 0 then g.sendClearSelection else g := by
  unfold decSendListCount
  dsimp only
  split_ifs with h h' h'
  · rfl
  · exact absurd h h'
  · exact absurd h' h
  · rfl

def sendDeleteClicked (w : Window φ α σ) : Window φ α σ :=
  if w.gui.m_selType = .send ∧ 0 < w.gui.m_sendListCount then
    let w := w.assert (decide (w.gui.m_clickedMsg ≠ none))
    let w := (w.setGui w.gui.clearDisplayedMessage).sendDeleteSelectedMsg
    w.decSendListCount
  else w

@[simp] theorem sendDeleteClicked_gui (w : Window φ α σ) :
    w.sendDeleteClicked.gui = w.gui.sendDeleteClicked := by
  unfold sendDeleteClicked GuiAppMgr.sendDeleteClicked
  split_ifs
  · dsimp only
    rw [decSendListCount_gui, sendDeleteSelectedMsg_gui]
    rfl
  · rfl

/-- `sendClearClicked`; `sigSendClear` goes to `clearList` of the list. -/
def sendClearClicked (w : Window φ α σ) : Window φ α σ :=
  if 0 < w.gui.m_sendListCount then
    let w := w.setGui { w.gui with sendList := w.gui.sendList.clearList }
    let wasSelected := w.gui.m_selType = .send
    let w := w.assert (decide (wasSelected → w.gui.m_clickedMsg ≠ none))
    let w := w.setGui { w.gui with m_sendListCount := 0 }
    let w :=
      if wasSelected then (w.setGui w.gui.clearDisplayedMessage).sendMsgSelected none else w
    w.sendListCountReport
  else w

@[simp] theorem sendClearClicked_gui (w : Window φ α σ) :
    w.sendClearClicked.gui = w.gui.sendClearClicked := by
  unfold sendClearClicked GuiAppMgr.sendClearClicked
  dsimp only
  split_ifs with _ h h' h'
  · rfl
  · exact absurd h h'
  · exact absurd h' h
  · rfl
  · rfl

def sendUpdateList (w : Window φ α σ) (msgs : List MsgPtr) : Window φ α σ :=
  match w.gui.m_selType, w.gui.m_clickedMsg with
  | .send, some clickedMsg =>
      let w := w.assert (decide (0 < w.gui.m_sendListCount))
      let w := w.sendMsgClicked clickedMsg none
      let w := w.assert w.gui.m_clickedMsg.isNone
      let w := (w.setGui { w.gui with m_sendListCount := msgs.length }).sendListCountReport
      if clickedMsg ∈ msgs then w.sendMsgClicked clickedMsg (some (msgs.idxOf clickedMsg)) else w
  | .send, none =>
      ((w.assert false).setGui { w.gui with m_sendListCount := msgs.length }).sendListCountReport
  | _, _ => (w.setGui { w.gui with m_sendListCount := msgs.length }).sendListCountReport

@[simp] theorem sendUpdateList_gui (w : Window φ α σ) (msgs : List MsgPtr) :
    (w.sendUpdateList msgs).gui = w.gui.sendUpdateList msgs := by
  unfold sendUpdateList GuiAppMgr.sendUpdateList
  split
  · next clickedMsg ht hc =>
      simp only [ht, hc]
      split_ifs <;> simp
  · next ht hc => simp [ht, hc]
  · next hsome _ =>
      split
      · next clickedMsg ht hc => exact (hsome clickedMsg ht hc).elim
      · rfl

def sendLoadMsgsFromFile (w : Window φ α σ) (clear : Bool) (msgs : List MsgPtr) : Window φ α σ :=
  let list := if clear then w.gui.sendList.clearList else w.gui.sendList
  let list := msgs.foldl MsgListWidget.addMessage list
  (w.setGui { w.gui with sendList := list }).sendUpdateList list.items

@[simp] theorem sendLoadMsgsFromFile_gui (w : Window φ α σ) (clear : Bool) (msgs : List MsgPtr) :
    (w.sendLoadMsgsFromFile clear msgs).gui = w.gui.sendLoadMsgsFromFile clear msgs :=
  sendUpdateList_gui _ _

def sendSetCurrentRow (w : Window φ α σ) (row : ℕ) : Window φ α σ :=
  if w.gui.sendList.currentRow = some row then w
  else
    match w.gui.sendList.items[row]? with
    | some msg =>
        (w.setGui { w.gui with sendList := w.gui.sendList.selectMsg (some row) }).sendMsgClicked
          msg (some row)
    | none => w

@[simp] theorem sendSetCurrentRow_gui (w : Window φ α σ) (row : ℕ) :
    (w.sendSetCurrentRow row).gui = w.gui.sendSetCurrentRow row := by
  unfold sendSetCurrentRow GuiAppMgr.sendSetCurrentRow
  split_ifs
  · rfl
  · cases w.gui.sendList.items[row]? with
    | none => rfl
    | some msg => exact sendMsgClicked_gui _ _ _

def sendItemClicked (w : Window φ α σ) (row : ℕ) (ignored : Bool) : Window φ α σ :=
  let w := w.sendSetCurrentRow row
  match w.gui.sendList.items[row]? with
  | some msg => if ignored then w else w.sendMsgClicked msg (some row)
  | none => w

@[simp] theorem sendItemClicked_gui (w : Window φ α σ) (row : ℕ) (ignored : Bool) :
    (w.sendItemClicked row ignored).gui = w.gui.sendItemClicked row ignored := by
  unfold sendItemClicked GuiAppMgr.sendItemClicked
  rw [← sendSetCurrentRow_gui]
  dsimp only
  cases (w.sendSetCurrentRow row).gui.sendList.items[row]? with
  | none => rfl
  | some msg =>
      dsimp only
      split_ifs
      · rfl
      · exact sendMsgClicked_gui _ _ _

def sendSelectedMsgMoved (w : Window φ α σ) (idx : ℕ) : Window φ α σ :=
  if w.gui.m_clickedMsg ≠ none ∧ w.gui.m_selType = .send then w.sendMsgSelected (some idx)
  else w.assert false

/-- The row is told once more to the list that has it already. -/
theorem sendSelectedMsgMoved_gui {w : Window φ α σ} {idx : ℕ}
    (h : w.gui.m_clickedMsg ≠ none → w.gui.sendList.currentRow = some idx) :
    (w.sendSelectedMsgMoved idx).gui = w.gui := by
  unfold sendSelectedMsgMoved
  split_ifs with hc
  · have hlist : w.gui.sendList.selectMsg (some idx) = w.gui.sendList := by
      rw [MsgListWidget.selectMsg, ← h hc.1]
    rw [sendMsgSelected_gui, hlist]
  · rfl

/-- `moveItem`, with `msgMovedImpl` at its end. -/
def moveItem (w : Window φ α σ) (fromRow toRow : ℕ) : Window φ α σ :=
  match w.gui.sendList.items[fromRow]? with
  | some msg =>
      let rest := w.gui.sendList.items.eraseIdx fromRow
      let neighbour := if fromRow < rest.length then fromRow + 1 else fromRow - 1
      let w := w.sendSetCurrentRow neighbour
      let w := w.setGui
        { w.gui with sendList := { w.gui.sendList with items := rest.insertIdx toRow msg } }
      (w.sendMsgClicked msg (some toRow)).sendSelectedMsgMoved toRow
  | none => w

def sendMoveClicked (w : Window φ α σ) (dest : GuiAppMgr.MoveTo) : Window φ α σ :=
  match w.gui.sendList.currentRow with
  | none => w
  | some curRow =>
      let count := w.gui.sendList.items.length
      match dest with
      | .top => if curRow = 0 then w else w.moveItem curRow 0
      | .up => if curRow = 0 then w else w.moveItem curRow (curRow - 1)
      | .down => if count ≤ curRow + 1 then w else w.moveItem curRow (curRow + 1)
      | .bottom => if count ≤ curRow + 1 then w else w.moveItem curRow (count - 1)

@[simp] theorem moveItem_gui (w : Window φ α σ) (fromRow toRow : ℕ) :
    (w.moveItem fromRow toRow).gui = w.gui.moveItem fromRow toRow := by
  unfold moveItem GuiAppMgr.moveItem
  cases w.gui.sendList.items[fromRow]? with
  | none => rfl
  | some msg =>
      dsimp only
      rw [sendSelectedMsgMoved_gui, sendMsgClicked_gui, ← sendSetCurrentRow_gui]
      · rfl
      · rw [sendMsgClicked_gui]
        exact GuiAppMgr.sendMsgClicked_currentRow _ msg _

@[simp] theorem sendMoveClicked_gui (w : Window φ α σ) (dest : GuiAppMgr.MoveTo) :
    (w.sendMoveClicked dest).gui = w.gui.sendMoveClicked dest := by
  unfold sendMoveClicked GuiAppMgr.sendMoveClicked
  cases w.gui.sendList.currentRow with
  | none => rfl
  | some curRow =>
      dsimp only
      cases dest
      all_goals
        dsimp only
        split_ifs
        · rfl
        · exact moveItem_gui _ _ _

/-! ### Plugins and events -/

def applyNewPlugins (w : Window φ α σ) (plugins : List PluginInfoPtr) : Window φ α σ :=
  let hasApplied := w.gui.pluginMgr.hasAppliedPlugins
  let needsReload := w.gui.pluginMgr.needsReload plugins
  let w :=
    if 0 < w.gui.m_sendListCount ∧ w.gui.pluginMgr.isProtocolChanging plugins then
      w.sendClearClicked
    else w
  let w := if hasApplied ∧ needsReload then w.dropAllMsgs else w
  w.setGui (w.gui.setupPlugins plugins hasApplied needsReload)

@[simp] theorem applyNewPlugins_gui (w : Window φ α σ) (plugins : List PluginInfoPtr) :
    (w.applyNewPlugins plugins).gui = w.gui.applyNewPlugins plugins := by
  unfold applyNewPlugins GuiAppMgr.applyNewPlugins
  dsimp only
  rw [setGui_gui]
  congr 1
  split_ifs <;> simp

end Window

/-- What happens to the application from outside, double clicks included. -/
inductive WindowEvent where
  | app (ev : GuiEvent)
  | sendMsgDoubleClicked (row : ℕ)

namespace WindowEvent

def ptrs : WindowEvent → List MsgPtr
  | app ev => ev.ptrs
  | sendMsgDoubleClicked _ => []

/-- The messages an event brings in are new. -/
def Fresh (earlier : List MsgPtr) (ev : WindowEvent) : Prop :=
  ev.ptrs.Nodup ∧ earlier.Disjoint ev.ptrs

/-- The messages brought in after an event. -/
def seen (earlier : List MsgPtr) (ev : WindowEvent) : List MsgPtr := earlier ++ ev.ptrs

theorem along_fresh {evs : List WindowEvent} {earlier : List MsgPtr}
    (hnd : (earlier ++ evs.flatMap ptrs).Nodup) : Runs.Along seen earlier evs Fresh :=
  Runs.along_fresh hnd

end WindowEvent

namespace Window
variable {φ α σ : Type}

def appStep (w : Window φ α σ) : GuiEvent → Window φ α σ
  | .socketDataReceived dataInfo reads => w.report (w.gui.msgMgr.socketDataReceived dataInfo reads)
  | .sendMsgs msgs => w.report (w.gui.msgMgr.sendMsgs msgs)
  | .setRecvEnabled enabled =>
      w.setGui { w.gui with msgMgr := { w.gui.msgMgr with m_recvEnabled := enabled } }
  | .recvSetCurrentRow row => w.recvSetCurrentRow row
  | .recvItemClicked row ignored => w.recvItemClicked row ignored
  | .recvDeleteClicked => w.recvDeleteClicked
  | .recvClearClicked => w.recvClearClicked
  | .recvShowRecvToggled checked => w.updateRecvListMode RecvListMode.ShowReceived checked
  | .recvShowSentToggled checked => w.updateRecvListMode RecvListMode.ShowSent checked
  | .recvShowGarbageToggled checked => w.updateRecvListMode RecvListMode.ShowGarbage checked
  | .recvApplyFilterToggled checked => w.updateRecvListMode RecvListMode.ApplyFilter checked
  | .setFilteredMessages filteredMessages => w.setFilteredMessages filteredMessages
  | .recvLoadMsgsFromFile msgs => w.recvLoadMsgsFromFile msgs
  | .sendSetCurrentRow row => w.sendSetCurrentRow row
  | .sendItemClicked row ignored => w.sendItemClicked row ignored
  | .sendAddNewMessage msg => w.sendAddNewMessage msg
  | .sendUpdateMessage msg => w.sendUpdateMessage msg
  | .sendUpdateSelected => w.sendUpdateSelected
  | .sendDeleteClicked => w.sendDeleteClicked
  | .sendClearClicked => w.sendClearClicked
  | .sendMoveClicked dest => w.sendMoveClicked dest
  | .sendLoadMsgsFromFile clear msgs => w.sendLoadMsgsFromFile clear msgs
  | .applyNewPlugins plugins => w.applyNewPlugins plugins
  | .pendingDisplayTimeout => w.setGui w.gui.pendingDisplayTimeout

def step (w : Window φ α σ) : WindowEvent → Window φ α σ
  | .app ev => w.appStep ev
  | .sendMsgDoubleClicked row => w.sendMsgDoubleClicked row

/-- **The tool bars only watch**: with them the application does what it does without them. -/
theorem appStep_gui (w : Window φ α σ) (ev : GuiEvent) : (w.appStep ev).gui = w.gui.step ev := by
  cases ev with
  | socketDataReceived dataInfo reads => exact report_gui _ _
  | sendMsgs msgs => exact report_gui _ _
  | setRecvEnabled enabled => rfl
  | recvSetCurrentRow row => exact recvSetCurrentRow_gui _ _
  | recvItemClicked row ignored => exact recvItemClicked_gui _ _ _
  | recvDeleteClicked => exact recvDeleteClicked_gui _
  | recvClearClicked => exact recvClearClicked_gui _
  | recvShowRecvToggled checked => exact updateRecvListMode_gui _ _ _
  | recvShowSentToggled checked => exact updateRecvListMode_gui _ _ _
  | recvShowGarbageToggled checked => exact updateRecvListMode_gui _ _ _
  | recvApplyFilterToggled checked => exact updateRecvListMode_gui _ _ _
  | setFilteredMessages filteredMessages => exact setFilteredMessages_gui _ _
  | recvLoadMsgsFromFile msgs => exact recvLoadMsgsFromFile_gui _ _
  | sendSetCurrentRow row => exact sendSetCurrentRow_gui _ _
  | sendItemClicked row ignored => exact sendItemClicked_gui _ _ _
  | sendAddNewMessage msg => exact sendAddNewMessage_gui _ _
  | sendUpdateMessage msg => exact sendUpdateMessage_gui _ _
  | sendUpdateSelected => exact sendUpdateSelected_gui _
  | sendDeleteClicked => exact sendDeleteClicked_gui _
  | sendClearClicked => exact sendClearClicked_gui _
  | sendMoveClicked dest => exact sendMoveClicked_gui _ _
  | sendLoadMsgsFromFile clear msgs => exact sendLoadMsgsFromFile_gui _ _ _
  | applyNewPlugins plugins => exact applyNewPlugins_gui _ _
  | pendingDisplayTimeout => rfl

end Window

end CcToolsQt
