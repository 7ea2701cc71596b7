import CcToolsQt.SendCount

/-! # The highlight of new messages

`RecvMsgListWidget` makes a message that is added the current item while its `m_selectOnAdd` is on.
`msgClicked` and `clearRecvList` switch the flag together with the selection, the deletion of a
selected message and the clearing of the send list take the selection back and leave the flag.

* `step_selectsOnAdd_iff`: which events keep the flag on exactly while nothing is selected.
* `selectsOnAdd_iff`: the runs in which it is so in every state. -/

namespace CcToolsQt

namespace GuiAppMgr
variable {φ α σ : Type}

/-- The flag is on exactly while nothing is selected. -/
def SelectsOnAdd (g : GuiAppMgr φ α σ) : Prop :=
  g.recvList.m_selectOnAdd = true ↔ g.m_clickedMsg = none

/-- What the arrival of a message that is shown does to the highlight. -/
structure Highlights (g g' : GuiAppMgr φ α σ) (msg : MsgPtr) : Prop where
  arrived : g.m_clickedMsg = none → g'.recvList.currentItem = some msg
  kept : g.m_clickedMsg ≠ none →
    g'.recvList.currentRow = g.recvList.currentRow ∧ g'.sendList = g.sendList

/-- Each message of a burst that is shown is highlighted as it arrives if nothing is selected, and
leaves the highlight of a selected message where it is. -/
def BurstHighlights (g : GuiAppMgr φ α σ) : Prop :=
  ∀ (told : List (MsgPtr × ToolsMessage φ α)) (msg : MsgPtr × ToolsMessage φ α),
    (told.foldl msgAdded g).canAddToRecvList msg.2 = true →
      Highlights (told.foldl msgAdded g) ((told.foldl msgAdded g).msgAdded msg) msg.1

/-- The flag with what it is for: the messages that arrive next are highlighted as they should,
from the socket or, with the stored ones dropped, from a file. -/
structure AutoSelects (g : GuiAppMgr φ α σ) : Prop where
  flag : g.SelectsOnAdd
  arrivals : g.BurstHighlights
  loaded : g.dropAllMsgs.BurstHighlights

/-- An event does not take a selection back behind the back of the received list. -/
def KeepsSelectOnAdd (g : GuiAppMgr φ α σ) : GuiEvent → Prop
  | .recvDeleteClicked => g.m_selType = .recv → g.m_recvListCount ≠ 1
  | .sendDeleteClicked => g.m_selType = .send → g.m_sendListCount ≠ 1
  | .sendClearClicked => g.m_selType ≠ .send
  | .applyNewPlugins plugins => g.m_selType = .send → ¬ g.pluginMgr.isProtocolChanging plugins
  | _ => True

/-! ### The operations -/

theorem SelectsOnAdd.congr {g g' : GuiAppMgr φ α σ} (h : g.SelectsOnAdd)
    (hr : g'.recvList.m_selectOnAdd = g.recvList.m_selectOnAdd)
    (hc : g'.m_clickedMsg = g.m_clickedMsg) : g'.SelectsOnAdd := by
  unfold SelectsOnAdd
  rw [hr, hc]
  exact h

/-- Every click sets the flag. -/
theorem msgClicked_selectsOnAdd (g : GuiAppMgr φ α σ) (msg : MsgPtr) (selType : SelectionType) :
    (g.msgClicked msg selType).SelectsOnAdd := by
  unfold msgClicked SelectsOnAdd
  split_ifs
  · exact iff_of_true rfl rfl
  · exact iff_of_false nofun nofun

theorem recvMsgClicked_selectsOnAdd (g : GuiAppMgr φ α σ) (msg : MsgPtr) :
    (g.recvMsgClicked msg).SelectsOnAdd := by
  have h := msgClicked_selectsOnAdd g.sendClearSelection msg .recv
  unfold recvMsgClicked
  dsimp only
  split_ifs
  · exact h.congr rfl rfl
  · exact h

theorem sendMsgClicked_selectsOnAdd (g : GuiAppMgr φ α σ) (msg : MsgPtr) (idx : Option ℕ) :
    (g.sendMsgClicked msg idx).SelectsOnAdd := by
  have h := msgClicked_selectsOnAdd g.recvClearSelection msg .send
  unfold sendMsgClicked
  dsimp only
  split_ifs <;> exact h.congr rfl rfl

namespace SelectsOnAdd
variable {g : GuiAppMgr φ α σ}

theorem recvSetCurrentRow (h : g.SelectsOnAdd) (row : ℕ) :
    (g.recvSetCurrentRow row).SelectsOnAdd := by
  unfold GuiAppMgr.recvSetCurrentRow
  split_ifs
  · exact h
  · split
    · exact recvMsgClicked_selectsOnAdd _ _
    · exact h

theorem recvItemClicked (h : g.SelectsOnAdd) (row : ℕ) (ignored : Bool) :
    (g.recvItemClicked row ignored).SelectsOnAdd := by
  have hset := h.recvSetCurrentRow row
  unfold GuiAppMgr.recvItemClicked
  dsimp only
  split
  · split_ifs
    · exact hset
    · exact recvMsgClicked_selectsOnAdd _ _
  · exact hset

theorem msgAdded (h : g.SelectsOnAdd) (msg : MsgPtr × ToolsMessage φ α) :
    (g.msgAdded msg).SelectsOnAdd := by
  unfold GuiAppMgr.msgAdded
  dsimp only
  split_ifs <;> exact h.congr rfl rfl

theorem msgsAdded (msgs : List (MsgPtr × ToolsMessage φ α)) (h : g.SelectsOnAdd) :
    (msgs.foldl GuiAppMgr.msgAdded g).SelectsOnAdd := by
  induction msgs generalizing g with
  | nil => exact h
  | cons msg msgs ih => exact ih (h.msgAdded msg)

theorem report (h : g.SelectsOnAdd) (mgr : MsgMgr φ α σ) : (g.report mgr).SelectsOnAdd :=
  msgsAdded _ (h.congr rfl rfl)

theorem clearRecvList (h : g.SelectsOnAdd) (hsel : g.m_selType = .none → g.m_clickedMsg = none)
    (reportDeleted : Bool) : (g.clearRecvList reportDeleted).SelectsOnAdd := by
  have hfalse : (g.clearRecvList false).SelectsOnAdd := by
    unfold GuiAppMgr.clearRecvList
    cases ht : g.m_selType with
    | none => exact iff_of_true (h.mpr (hsel ht)) rfl
    | recv => exact iff_of_true rfl rfl
    | send => exact h
  cases reportDeleted with
  | false => exact hfalse
  | true =>
      rw [clearRecvList_true, deleteMessages_eq]
      exact hfalse.congr rfl rfl

theorem refreshMsgs (clickedMsg : Option MsgPtr) (msgs : List MsgPtr) (h : g.SelectsOnAdd) :
    (msgs.foldl (refreshMsg clickedMsg) g).SelectsOnAdd := by
  induction msgs generalizing g with
  | nil => exact h
  | cons msg msgs ih =>
      apply ih
      unfold refreshMsg
      dsimp only
      split_ifs
      · exact recvMsgClicked_selectsOnAdd _ _
      · exact h.congr rfl rfl
      · exact h

theorem refreshRecvList {earlier : List MsgPtr} (h : g.SelectsOnAdd) (hsel : Selected earlier g) :
    g.refreshRecvList.SelectsOnAdd := by
  have hun : g.unselectRecvMsg.SelectsOnAdd ∧
      (g.unselectRecvMsg.m_selType = .none → g.unselectRecvMsg.m_clickedMsg = none) := by
    unfold unselectRecvMsg
    split
    · next msg ht hc =>
        obtain ⟨q, hq, hcur, -⟩ := hsel.recv ht
        obtain rfl : q = msg := Option.some.inj (hq.symm.trans hc)
        exact ⟨recvMsgClicked_selectsOnAdd _ _, (recvMsgClicked_selected earlier hcur).none⟩
    · exact ⟨h.congr rfl rfl, hsel.none⟩
    · exact ⟨h, hsel.none⟩
  have hfill := (hun.1.clearRecvList hun.2 false).refreshMsgs g.m_clickedMsg
    (g.unselectRecvMsg.clearRecvList false).msgMgr.m_allMsgs
  unfold GuiAppMgr.refreshRecvList
  dsimp only
  split_ifs
  · exact hfill.congr rfl rfl
  · exact hfill

theorem updateRecvListMode {earlier : List MsgPtr} (h : g.SelectsOnAdd)
    (hsel : Selected earlier g) (mode : UInt32) (checked : Bool) :
    (g.updateRecvListMode mode checked).SelectsOnAdd := by
  cases checked
  · exact refreshRecvList (h.congr rfl rfl) (hsel.congr rfl rfl rfl rfl)
  · exact refreshRecvList (h.congr rfl rfl) (hsel.congr rfl rfl rfl rfl)

theorem setFilteredMessages {earlier : List MsgPtr} (h : g.SelectsOnAdd)
    (hsel : Selected earlier g) (filteredMessages : List QString) :
    (g.setFilteredMessages filteredMessages).SelectsOnAdd := by
  unfold GuiAppMgr.setFilteredMessages
  dsimp only
  split_ifs
  · exact h
  · exact refreshRecvList (h.congr rfl rfl) (hsel.congr rfl rfl rfl rfl)
  · exact h.congr rfl rfl

theorem dropAllMsgs (h : g.SelectsOnAdd) (hsel : g.m_selType = .none → g.m_clickedMsg = none) :
    g.dropAllMsgs.SelectsOnAdd :=
  (h.clearRecvList hsel false).congr rfl rfl

theorem sendSetCurrentRow (h : g.SelectsOnAdd) (row : ℕ) :
    (g.sendSetCurrentRow row).SelectsOnAdd := by
  unfold GuiAppMgr.sendSetCurrentRow
  split_ifs
  · exact h
  · split
    · exact sendMsgClicked_selectsOnAdd _ _ _
    · exact h

theorem sendItemClicked (h : g.SelectsOnAdd) (row : ℕ) (ignored : Bool) :
    (g.sendItemClicked row ignored).SelectsOnAdd := by
  have hset := h.sendSetCurrentRow row
  unfold GuiAppMgr.sendItemClicked
  dsimp only
  split
  · split_ifs
    · exact hset
    · exact sendMsgClicked_selectsOnAdd _ _ _
  · exact hset

/-- One selected message takes the place of another. -/
theorem sendUpdateMessage (h : g.SelectsOnAdd) (hrow : g.SendRow) (msg : MsgPtr) :
    (g.sendUpdateMessage msg).SelectsOnAdd := by
  unfold GuiAppMgr.sendUpdateMessage
  split_ifs with ht
  · refine iff_of_false (fun hon => (hrow ht).1 (h.mp hon)) nofun
  · exact h

theorem sendUpdateSelected (h : g.SelectsOnAdd) (hrow : g.SendRow) :
    g.sendUpdateSelected.SelectsOnAdd := by
  unfold GuiAppMgr.sendUpdateSelected
  split
  · exact h.sendUpdateMessage hrow _
  · exact h

theorem sendUpdateList (h : g.SelectsOnAdd) (msgs : List MsgPtr) :
    (g.sendUpdateList msgs).SelectsOnAdd := by
  unfold GuiAppMgr.sendUpdateList
  split
  · dsimp only
    split_ifs
    · exact sendMsgClicked_selectsOnAdd _ _ _
    · exact (sendMsgClicked_selectsOnAdd _ _ _).congr rfl rfl
  · exact h.congr rfl rfl

theorem sendMoveClicked (h : g.SelectsOnAdd) (dest : MoveTo) :
    (g.sendMoveClicked dest).SelectsOnAdd := by
  have hmove : ∀ fromRow toRow, (g.moveItem fromRow toRow).SelectsOnAdd := by
    intro fromRow toRow
    unfold moveItem
    split
    · exact sendMsgClicked_selectsOnAdd _ _ _
    · exact h
  unfold GuiAppMgr.sendMoveClicked
  split
  · exact h
  · dsimp only
    cases dest
    all_goals
      dsimp only
      split_ifs
      · exact h
      · exact hmove _ _

end SelectsOnAdd

/-! ### Selections that are taken back -/

/-- The flag is off as the current item is deleted, and stays off if no other one is clicked. -/
theorem recvDeleteSelectedMsg_selectsOnAdd_iff {g : GuiAppMgr φ α σ} {row : ℕ}
    (hc : g.m_clickedMsg = none) (hoff : g.recvList.m_selectOnAdd = false)
    (hrow : g.recvList.currentRow = some row) (hlt : row < g.recvList.items.length) :
    g.recvDeleteSelectedMsg.SelectsOnAdd ↔ g.recvList.items.length ≠ 1 := by
  rw [Ne, ← deleteCurrentItem_currentItem hrow hlt]
  unfold recvDeleteSelectedMsg
  dsimp only
  cases hcase : g.recvList.deleteCurrentItem.currentItem with
  | none =>
      have hkeep : g.recvList.deleteCurrentItem.m_selectOnAdd = g.recvList.m_selectOnAdd := by
        simp only [MsgListWidget.deleteCurrentItem, hrow]
      refine iff_of_false (fun hs => ?_) fun hne => hne rfl
      have hon := hkeep.symm.trans (hs.mpr hc)
      exact absurd (hoff.symm.trans hon) Bool.false_ne_true
  | some next => exact iff_of_true (recvMsgClicked_selectsOnAdd _ next) (Option.some_ne_none next)

/-- Deleting the selected message keeps the flag right if and only if another one is left. -/
theorem recvDeleteClicked_selectsOnAdd_iff {earlier : List MsgPtr} {g : GuiAppMgr φ α σ}
    (hi : Inv earlier g) (h : g.SelectsOnAdd) :
    g.recvDeleteClicked.SelectsOnAdd ↔ (g.m_selType = .recv → g.m_recvListCount ≠ 1) := by
  by_cases ht : g.m_selType = .recv
  · obtain ⟨p, hc, hcur, hoff⟩ := hi.selected.recv ht
    obtain ⟨row, hrow, hget⟩ := Option.bind_eq_some_iff.mp hcur
    have hlt := (List.getElem?_eq_some_iff.mp hget).1
    have hcount : (g.m_selType = .recv → g.m_recvListCount ≠ 1) ↔ g.recvList.items.length ≠ 1 := by
      rw [forall_prop_of_true ht, hi.count]
    have hpos : 0 < g.m_recvListCount := by
      rw [hi.count]
      omega
    rw [hcount]
    unfold recvDeleteClicked
    split
    · rw [if_pos ⟨ht, hpos⟩]
      exact recvDeleteSelectedMsg_selectsOnAdd_iff (g := clearDisplayedMessage
        { g with msgMgr := g.msgMgr.deleteMsg _ }) rfl hoff hrow hlt
    · next hnone => exact absurd (hnone.symm.trans hc) nofun
  · have hsame : g.recvDeleteClicked = g := by
      unfold recvDeleteClicked
      split
      · rw [if_neg fun hg => ht hg.1]
      · rfl
    rw [hsame]
    exact iff_of_true h fun ht' => absurd ht' ht

/-- The same for the send list. -/
theorem sendDeleteClicked_selectsOnAdd_iff {g : GuiAppMgr φ α σ} (hs : g.SendShown)
    (h : g.SelectsOnAdd) :
    g.sendDeleteClicked.SelectsOnAdd ↔ (g.m_selType = .send → g.m_sendListCount ≠ 1) := by
  unfold sendDeleteClicked
  by_cases ht : g.m_selType = .send
  · obtain ⟨hne, row, hrow, hlt⟩ := hs.row ht
    have hpos : 0 < g.m_sendListCount := by
      rw [hs.count]
      omega
    have hnext := deleteCurrentItem_currentItem hrow hlt
    -- the row of the send list does not matter to the flag
    have hreport : ∀ g' : GuiAppMgr φ α σ,
        (let g'' := { g' with m_sendListCount := g'.m_sendListCount - 1 }
         if g''.m_sendListCount = 0 then g''.sendClearSelection else g'').SelectsOnAdd ↔
          g'.SelectsOnAdd := by
      intro g'
      dsimp only
      split_ifs <;> exact Iff.rfl
    rw [if_pos ⟨ht, hpos⟩, hreport, hs.count, forall_prop_of_true ht, Ne, ← hnext]
    unfold sendDeleteSelectedMsg
    dsimp only [clearDisplayedMessage]
    cases hcase : g.sendList.deleteCurrentItem.currentItem with
    | none => exact iff_of_false (fun hon => hne (h.mp (hon.mpr rfl))) fun hne => hne rfl
    | some next =>
        exact iff_of_true (sendMsgClicked_selectsOnAdd _ next _) (Option.some_ne_none next)
  · rw [if_neg fun hg => ht hg.1]
    exact iff_of_true h fun ht' => absurd ht' ht

/-- Clearing the send list keeps the flag right if and only if no message of it is selected. -/
theorem sendClearClicked_selectsOnAdd_iff {g : GuiAppMgr φ α σ} (hs : g.SendShown)
    (h : g.SelectsOnAdd) : g.sendClearClicked.SelectsOnAdd ↔ g.m_selType ≠ .send := by
  unfold sendClearClicked
  by_cases ht : g.m_selType = .send
  · obtain ⟨hne, row, -, hlt⟩ := hs.row ht
    have hpos : 0 < g.m_sendListCount := by
      rw [hs.count]
      omega
    rw [if_pos hpos]
    dsimp only
    rw [if_pos ht]
    exact iff_of_false (fun hon => hne (h.mp (hon.mpr rfl))) fun hsel => hsel ht
  · refine iff_of_true ?_ ht
    dsimp only
    split_ifs
    · exact h.congr rfl rfl
    · exact h

theorem setupPlugins_selectsOnAdd_iff (g : GuiAppMgr φ α σ) (plugins : List PluginInfoPtr)
    (hasApplied needsReload : Bool) :
    (g.setupPlugins plugins hasApplied needsReload).SelectsOnAdd ↔ g.SelectsOnAdd := by
  unfold GuiAppMgr.setupPlugins
  cases hasApplied <;> cases needsReload <;> dsimp only <;> split_ifs <;> exact Iff.rfl

/-- With nothing selected the flag stays as it is. -/
theorem dropAllMsgs_selectsOnAdd_iff {g : GuiAppMgr φ α σ} (ht : g.m_selType = .none)
    (hc : g.m_clickedMsg = none) : g.dropAllMsgs.SelectsOnAdd ↔ g.SelectsOnAdd := by
  have hflag : g.dropAllMsgs.recvList.m_selectOnAdd = g.recvList.m_selectOnAdd := by
    simp [dropAllMsgs, clearRecvList, ht, clearDisplayedMessage, MsgListWidget.clearList]
  have hnone : g.dropAllMsgs.m_clickedMsg = g.m_clickedMsg := by
    simp [dropAllMsgs, clearRecvList, ht, hc, clearDisplayedMessage]
  unfold SelectsOnAdd
  rw [hflag, hnone]

theorem applyNewPlugins_selectsOnAdd_iff {earlier : List MsgPtr} {g : GuiAppMgr φ α σ}
    (hi : Inv earlier g) (hs : g.SendShown) (h : g.SelectsOnAdd) (plugins : List PluginInfoPtr) :
    (g.applyNewPlugins plugins).SelectsOnAdd ↔
      (g.m_selType = .send → ¬ g.pluginMgr.isProtocolChanging plugins) := by
  unfold applyNewPlugins
  dsimp only
  rw [setupPlugins_selectsOnAdd_iff]
  generalize g.pluginMgr.hasAppliedPlugins = hasApplied
  generalize g.pluginMgr.needsReload plugins = needsReload
  by_cases hclear : 0 < g.m_sendListCount ∧ g.pluginMgr.isProtocolChanging plugins
  · have hiff := sendClearClicked_selectsOnAdd_iff hs h
    have hsel := (sendClearClicked_sendStep hi).selected.none
    rw [if_pos hclear]
    by_cases ht : g.m_selType = .send
    · -- the flag stays off, as nothing is selected in the received list
      have hnone : g.sendClearClicked.m_selType = .none := by
        simp [sendClearClicked, hclear.1, ht, clearDisplayedMessage, sendClearSelection]
      have hstill : (if hasApplied ∧ needsReload then g.sendClearClicked.dropAllMsgs
          else g.sendClearClicked).SelectsOnAdd ↔ g.sendClearClicked.SelectsOnAdd := by
        split_ifs
        · exact dropAllMsgs_selectsOnAdd_iff hnone (hsel hnone)
        · exact Iff.rfl
      rw [hstill, hiff]
      exact iff_of_false (fun hne => hne ht) fun hk => hk ht hclear.2
    · have hkeep := hiff.mpr ht
      refine iff_of_true ?_ fun ht' => absurd ht' ht
      split_ifs
      · exact hkeep.dropAllMsgs hsel
      · exact hkeep
  · rw [if_neg hclear]
    refine iff_of_true ?_ fun ht hch => hclear ⟨?_, hch⟩
    · split_ifs
      · exact h.dropAllMsgs hi.selected.none
      · exact h
    · obtain ⟨-, row, -, hlt⟩ := hs.row ht
      rw [hs.count]
      omega

/-! ### Arrivals -/

/-- The flag decides what an arrival highlights. -/
theorem SelectsOnAdd.burstHighlights {g : GuiAppMgr φ α σ} (h : g.SelectsOnAdd) :
    g.BurstHighlights := by
  intro told msg hshow
  have hflag := h.msgsAdded told
  generalize told.foldl GuiAppMgr.msgAdded g = g₁ at hshow hflag
  have hadd : (g₁.msgAdded msg).recvList = g₁.recvList.addMessage msg.1 ∧
      (g₁.msgAdded msg).sendList = g₁.sendList := by
    unfold GuiAppMgr.msgAdded
    simp only [hshow, Bool.not_true, Bool.false_eq_true, if_false]
    split_ifs <;> exact ⟨rfl, rfl⟩
  constructor
  · intro hc
    rw [hadd.1]
    simp [MsgListWidget.currentItem, MsgListWidget.addMessage, hflag.mpr hc]
  · intro hc
    have hoff : g₁.recvList.m_selectOnAdd = false :=
      Bool.eq_false_of_not_eq_true fun hon => hc (hflag.mp hon)
    rw [hadd.1]
    exact ⟨by simp [MsgListWidget.addMessage, hoff], hadd.2⟩

theorem autoSelects_iff {g : GuiAppMgr φ α σ}
    (hsel : g.m_selType = .none → g.m_clickedMsg = none) : g.AutoSelects ↔ g.SelectsOnAdd := by
  constructor
  · intro h
    exact h.flag
  · intro h
    exact ⟨h, h.burstHighlights, (h.dropAllMsgs hsel).burstHighlights⟩

/-! ### Runs -/

/-- **One event** keeps the flag right if and only if it does not take a selection back without
switching it. -/
theorem step_selectsOnAdd_iff {earlier : List MsgPtr} {g : GuiAppMgr φ α σ} (hi : Inv earlier g)
    (hs : g.SendShown) (h : g.SelectsOnAdd) (ev : GuiEvent) :
    (g.step ev).SelectsOnAdd ↔ g.KeepsSelectOnAdd ev := by
  have hsel := hi.selected
  cases ev with
  | socketDataReceived dataInfo reads => exact iff_of_true (h.report _) trivial
  | sendMsgs msgs => exact iff_of_true (h.report _) trivial
  | setRecvEnabled enabled => exact iff_of_true (h.congr rfl rfl) trivial
  | recvSetCurrentRow row => exact iff_of_true (h.recvSetCurrentRow row) trivial
  | recvItemClicked row ignored => exact iff_of_true (h.recvItemClicked row ignored) trivial
  | recvDeleteClicked => exact recvDeleteClicked_selectsOnAdd_iff hi h
  | recvClearClicked =>
      refine iff_of_true ?_ trivial
      show g.recvClearClicked.SelectsOnAdd
      unfold recvClearClicked
      split_ifs
      · exact h.clearRecvList hsel.none true
      · exact h
  | recvShowRecvToggled checked => exact iff_of_true (h.updateRecvListMode hsel _ checked) trivial
  | recvShowSentToggled checked => exact iff_of_true (h.updateRecvListMode hsel _ checked) trivial
  | recvShowGarbageToggled checked =>
      exact iff_of_true (h.updateRecvListMode hsel _ checked) trivial
  | recvApplyFilterToggled checked =>
      exact iff_of_true (h.updateRecvListMode hsel _ checked) trivial
  | setFilteredMessages filteredMessages =>
      exact iff_of_true (h.setFilteredMessages hsel _) trivial
  | recvLoadMsgsFromFile msgs =>
      exact iff_of_true ((h.dropAllMsgs hsel.none).report _) trivial
  | sendSetCurrentRow row => exact iff_of_true (h.sendSetCurrentRow row) trivial
  | sendItemClicked row ignored => exact iff_of_true (h.sendItemClicked row ignored) trivial
  | sendAddNewMessage msg => exact iff_of_true (sendMsgClicked_selectsOnAdd _ _ _) trivial
  | sendUpdateMessage msg => exact iff_of_true (h.sendUpdateMessage hs.row msg) trivial
  | sendUpdateSelected => exact iff_of_true (h.sendUpdateSelected hs.row) trivial
  | sendDeleteClicked => exact sendDeleteClicked_selectsOnAdd_iff hs h
  | sendClearClicked => exact sendClearClicked_selectsOnAdd_iff hs h
  | sendMoveClicked dest => exact iff_of_true (h.sendMoveClicked dest) trivial
  | sendLoadMsgsFromFile clear msgs =>
      refine iff_of_true ?_ trivial
      show (g.sendLoadMsgsFromFile clear msgs).SelectsOnAdd
      unfold sendLoadMsgsFromFile
      apply SelectsOnAdd.sendUpdateList
      exact h.congr rfl rfl
  | applyNewPlugins plugins => exact applyNewPlugins_selectsOnAdd_iff hi hs h plugins
  | pendingDisplayTimeout =>
      refine iff_of_true ?_ trivial
      show g.pendingDisplayTimeout.SelectsOnAdd
      unfold pendingDisplayTimeout
      dsimp only
      split <;> exact h.congr rfl rfl

/-- **New messages are selected exactly while nothing is selected**, in every state of a run, if
and only if no event of the run takes a selection back without switching the flag. -/
theorem selectsOnAdd_iff (g : GuiAppMgr φ α σ) (hg : g.Started) (hcount : g.m_sendListCount = 0)
    (hflag : g.recvList.m_selectOnAdd = true) (evs : List GuiEvent)
    (hnd : (evs.flatMap GuiEvent.ptrs).Nodup) :
    Runs.Always step g evs AutoSelects ↔ Runs.Along step g evs KeepsSelectOnAdd := by
  have hstep : ∀ earlier (g : GuiAppMgr φ α σ) ev, ev.Fresh earlier →
      Inv earlier g ∧ g.SendShown →
        Inv (GuiEvent.seen earlier ev) (g.step ev) ∧ (g.step ev).SendShown :=
    fun earlier g ev hfresh hi => ⟨(step_view hi.1 ev hfresh.1 hfresh.2).1, hi.2.step ev⟩
  have hshown : g.SendShown :=
    ⟨by rw [hcount, hg.sendItems]; rfl, sendRow_of_ne (by simp [hg.selType])⟩
  refine Runs.always_iff_along hstep (fun earlier g ev hfresh hi ha => ?_) ⟨hg.inv, hshown⟩ ?_
    (GuiEvent.along_fresh (by simpa using hnd))
  · have hi' := (step_view hi.1 ev hfresh.1 hfresh.2).1
    rw [autoSelects_iff hi'.selected.none]
    exact step_selectsOnAdd_iff hi.1 hi.2 ha.flag ev
  · rw [autoSelects_iff fun _ => hg.clicked]
    exact iff_of_true hflag hg.clicked

/-- One message arrives. -/
def oneArrives (msg : MsgPtr) : GuiEvent :=
  .socketDataReceived (some { m_timestamp := 5000000, m_data := [syncByte, 0] })
    [[{ msg := msg, requests := [], now := 5000000 }]]

/-- One of two messages is selected and deleted. -/
theorem selectsOnAdd_iff_sample :
    Runs.Always step sampleApp
      [oneArrives 1, oneArrives 2, .recvItemClicked 0 true, .recvDeleteClicked] AutoSelects := by
  refine (selectsOnAdd_iff sampleApp sampleApp_started rfl rfl _ (by decide)).mpr ?_
  refine Runs.along_cons.mpr ⟨trivial, Runs.along_cons.mpr ⟨trivial, ?_⟩⟩
  refine Runs.along_cons.mpr ⟨trivial, Runs.along_cons.mpr ⟨fun _ => ?_, Runs.along_nil⟩⟩
  show (sampleApp.run [oneArrives 1, oneArrives 2, .recvItemClicked 0 true]).m_recvListCount ≠ 1
  decide

/-- The only message is selected and deleted: the flag stays off, and the next message that arrives
is displayed but not highlighted. -/
theorem last_delete_stuck :
    ¬ Runs.Always step sampleApp [oneArrives 1, .recvItemClicked 0 false, .recvDeleteClicked]
        AutoSelects ∧
      (sampleApp.run [oneArrives 1, .recvItemClicked 0 false, .recvDeleteClicked,
        .pendingDisplayTimeout, oneArrives 2]).displayedMsg = some 2 ∧
      (sampleApp.run [oneArrives 1, .recvItemClicked 0 false, .recvDeleteClicked,
        .pendingDisplayTimeout, oneArrives 2]).recvList.currentRow = none := by
  refine ⟨fun h => ?_, by decide, by decide⟩
  have hflag := h.last.flag.mpr
    (by decide : (sampleApp.run [oneArrives 1, .recvItemClicked 0 false,
      .recvDeleteClicked]).m_clickedMsg = none)
  have hoff : (sampleApp.run [oneArrives 1, .recvItemClicked 0 false,
      .recvDeleteClicked]).recvList.m_selectOnAdd = false := by
    decide
  exact absurd (hoff.symm.trans hflag) Bool.false_ne_true

end GuiAppMgr

end CcToolsQt
