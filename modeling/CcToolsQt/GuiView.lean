import CcToolsQt.Gui

/-! # What the operations on the lists do

One statement for each operation of `GuiAppMgr` that the others are made of: which part of the
received list and the selection it changes (`recvMsgClicked_selected`, `msgsAdded_listed`,
`clearRecvList_emptied`, `refreshRecvList_refreshed`).  `SameView` collects what most operations
leave alone. -/

namespace CcToolsQt

namespace GuiAppMgr
variable {φ α σ : Type}

/-- Whether a stored message is let through by the mode and the filter. -/
def visible (g : GuiAppMgr φ α σ) (msg : MsgPtr) : Bool :=
  g.canAddToRecvList (g.msgMgr.objs msg)

/-! ### What leaves the view alone -/

/-- Two states with the same store, list, mode and filter. -/
structure SameView (g g' : GuiAppMgr φ α σ) : Prop where
  allMsgs : g'.msgMgr.m_allMsgs = g.msgMgr.m_allMsgs
  objs : g'.msgMgr.objs = g.msgMgr.objs
  next : g'.msgMgr.m_nextMsgNum = g.msgMgr.m_nextMsgNum
  items : g'.recvList.items = g.recvList.items
  count : g'.m_recvListCount = g.m_recvListCount
  canAdd : g'.canAddToRecvList = g.canAddToRecvList

namespace SameView
variable {g g₁ g₂ : GuiAppMgr φ α σ}

theorem refl (g : GuiAppMgr φ α σ) : SameView g g := ⟨rfl, rfl, rfl, rfl, rfl, rfl⟩

theorem trans (h₁ : SameView g g₁) (h₂ : SameView g₁ g₂) : SameView g g₂ where
  allMsgs := h₂.allMsgs.trans h₁.allMsgs
  objs := h₂.objs.trans h₁.objs
  next := h₂.next.trans h₁.next
  items := h₂.items.trans h₁.items
  count := h₂.count.trans h₁.count
  canAdd := h₂.canAdd.trans h₁.canAdd

end SameView

theorem SameView.visible {g g' : GuiAppMgr φ α σ} (h : SameView g g') :
    g'.visible = g.visible := by
  funext p
  rw [GuiAppMgr.visible, h.canAdd, h.objs]
  rfl

theorem msgClicked_sameView (g : GuiAppMgr φ α σ) (msg : MsgPtr) (selType : SelectionType) :
    SameView g (g.msgClicked msg selType) := by
  unfold msgClicked
  split_ifs
  · exact ⟨rfl, rfl, rfl, rfl, rfl, rfl⟩
  · exact ⟨rfl, rfl, rfl, rfl, rfl, rfl⟩

theorem recvMsgClicked_sameView (g : GuiAppMgr φ α σ) (msg : MsgPtr) :
    SameView g (g.recvMsgClicked msg) := by
  have h := msgClicked_sameView g.sendClearSelection msg .recv
  unfold recvMsgClicked
  dsimp only
  split_ifs
  · exact { h with }
  · exact { h with }

theorem sendMsgClicked_sameView (g : GuiAppMgr φ α σ) (msg : MsgPtr) (idx : Option ℕ) :
    SameView g (g.sendMsgClicked msg idx) := by
  have h := msgClicked_sameView g.recvClearSelection msg .send
  unfold sendMsgClicked
  dsimp only
  split_ifs
  · exact { h with }
  · exact { h with }

@[simp] theorem msgClicked_msgMgr (g : GuiAppMgr φ α σ) (msg : MsgPtr)
    (selType : SelectionType) : (g.msgClicked msg selType).msgMgr = g.msgMgr := by
  unfold msgClicked
  split_ifs <;> rfl

@[simp] theorem recvMsgClicked_msgMgr (g : GuiAppMgr φ α σ) (msg : MsgPtr) :
    (g.recvMsgClicked msg).msgMgr = g.msgMgr := by
  unfold recvMsgClicked
  dsimp only
  split_ifs <;> simp [recvClearSelection, sendClearSelection]

@[simp] theorem msgClicked_sendList (g : GuiAppMgr φ α σ) (msg : MsgPtr)
    (selType : SelectionType) : (g.msgClicked msg selType).sendList = g.sendList := by
  unfold msgClicked
  split_ifs <;> rfl

@[simp] theorem recvMsgClicked_sendItems (g : GuiAppMgr φ α σ) (msg : MsgPtr) :
    (g.recvMsgClicked msg).sendList.items = g.sendList.items := by
  unfold recvMsgClicked
  dsimp only
  split_ifs <;> simp [recvClearSelection, sendClearSelection, MsgListWidget.clearSelection]

@[simp] theorem sendMsgClicked_sendItems (g : GuiAppMgr φ α σ) (msg : MsgPtr) (idx : Option ℕ) :
    (g.sendMsgClicked msg idx).sendList.items = g.sendList.items := by
  unfold sendMsgClicked
  dsimp only
  split_ifs <;> simp [recvClearSelection, sendClearSelection, MsgListWidget.clearSelection,
    MsgListWidget.selectMsg]

/-! ### The selection -/

theorem deleteCurrentItem_sublist (w : MsgListWidget) :
    w.deleteCurrentItem.items.Sublist w.items := by
  unfold MsgListWidget.deleteCurrentItem
  split
  · exact .refl _
  · exact List.eraseIdx_sublist _ _

theorem mem_of_currentItem {w : MsgListWidget} {p : MsgPtr} (h : w.currentItem = some p) :
    p ∈ w.items := by
  obtain ⟨row, -, hget⟩ := Option.bind_eq_some_iff.mp h
  exact List.mem_of_getElem? hget

theorem deleteCurrentItem_items {w : MsgListWidget} {p : MsgPtr} (hnd : w.items.Nodup)
    (hcur : w.currentItem = some p) : w.deleteCurrentItem.items = w.items.erase p := by
  obtain ⟨row, hrow, hget⟩ := Option.bind_eq_some_iff.mp hcur
  obtain ⟨hlt, e⟩ := List.getElem?_eq_some_iff.mp hget
  rw [← e, hnd.erase_getElem row hlt]
  simp [MsgListWidget.deleteCurrentItem, hrow]

/-- The deletion of the only item leaves no item, any other one makes a neighbour current. -/
theorem deleteCurrentItem_currentItem {w : MsgListWidget} {row : ℕ}
    (hrow : w.currentRow = some row) (hlt : row < w.items.length) :
    w.deleteCurrentItem.currentItem = none ↔ w.items.length = 1 := by
  have hlen : (w.items.eraseIdx row).length = w.items.length - 1 := List.length_eraseIdx_of_lt hlt
  simp only [MsgListWidget.currentItem, MsgListWidget.deleteCurrentItem, hrow]
  split_ifs with hin hemp
  · rw [Option.bind_some, List.getElem?_eq_none_iff]
    omega
  · rw [List.isEmpty_iff_length_eq_zero] at hemp
    exact iff_of_true rfl (by omega)
  · rw [List.isEmpty_iff_length_eq_zero] at hemp
    rw [Option.bind_some, List.getElem?_eq_none_iff]
    omega

/-- The selected message is the one at the current row of the received list, where no message
that is added takes its place, or one of the send list. -/
structure Selected (earlier : List MsgPtr) (g : GuiAppMgr φ α σ) : Prop where
  none : g.m_selType = .none → g.m_clickedMsg = none
  recv : g.m_selType = .recv → ∃ p, g.m_clickedMsg = some p ∧ g.recvList.currentItem = some p ∧
    g.recvList.m_selectOnAdd = false
  send : g.m_selType = .send → ∃ p, g.m_clickedMsg = some p ∧ p ∈ earlier ∧
    p ∉ g.msgMgr.m_allMsgs

theorem selected_of_none {earlier : List MsgPtr} {g : GuiAppMgr φ α σ}
    (h : g.m_selType = .none) (hc : g.m_clickedMsg = none) : Selected earlier g :=
  ⟨fun _ => hc, fun e => by simp [h] at e, fun e => by simp [h] at e⟩

/-- A state with the same selection. -/
theorem Selected.congr {earlier : List MsgPtr} {g g' : GuiAppMgr φ α σ} (h : Selected earlier g)
    (ht : g'.m_selType = g.m_selType) (hc : g'.m_clickedMsg = g.m_clickedMsg)
    (hr : g'.recvList = g.recvList) (hm : g'.msgMgr.m_allMsgs = g.msgMgr.m_allMsgs) :
    Selected earlier g' := by
  refine ⟨?_, ?_, ?_⟩
  · rw [ht, hc]; exact h.none
  · rw [ht, hc, hr]; exact h.recv
  · rw [ht, hc, hm]; exact h.send

theorem Selected.mono {earlier later : List MsgPtr} {g : GuiAppMgr φ α σ}
    (h : Selected earlier g) (hsub : earlier ⊆ later) : Selected later g := by
  refine ⟨h.none, h.recv, fun ht => ?_⟩
  obtain ⟨p, hc, he, hs⟩ := h.send ht
  exact ⟨p, hc, hsub he, hs⟩

/-- A click on the current item of the received list. -/
theorem recvMsgClicked_selected (earlier : List MsgPtr) {g : GuiAppMgr φ α σ} {p : MsgPtr}
    (hp : g.recvList.currentItem = some p) : Selected earlier (g.recvMsgClicked p) := by
  by_cases h : g.m_clickedMsg = some p
  · exact selected_of_none (by simp [recvMsgClicked, msgClicked, sendClearSelection, h,
      clearDisplayedMessage, recvSelectOnAdd, recvClearSelection])
      (by simp [recvMsgClicked, msgClicked, sendClearSelection, h,
      clearDisplayedMessage, recvSelectOnAdd, recvClearSelection])
  · have e : g.recvMsgClicked p = (({ g.sendClearSelection with
        m_selType := .recv, m_clickedMsg := some p }).displayMessage p).recvSelectOnAdd false := by
      simp [recvMsgClicked, msgClicked, sendClearSelection, h, displayMessage, recvSelectOnAdd]
    rw [e]
    exact ⟨fun ht => by simp [recvSelectOnAdd, displayMessage] at ht, fun _ => ⟨p, rfl, hp, rfl⟩,
      fun ht => by simp [recvSelectOnAdd, displayMessage] at ht⟩

/-- A click on an item of the send list. -/
theorem sendMsgClicked_selected {earlier : List MsgPtr} {g : GuiAppMgr φ α σ} {p : MsgPtr}
    (idx : Option ℕ) (he : p ∈ earlier) (hs : p ∉ g.msgMgr.m_allMsgs) :
    Selected earlier (g.sendMsgClicked p idx) := by
  by_cases h : g.m_clickedMsg = some p
  · exact selected_of_none (by simp [sendMsgClicked, msgClicked, sendClearSelection, h,
      clearDisplayedMessage, recvSelectOnAdd, recvClearSelection])
      (by simp [sendMsgClicked, msgClicked, sendClearSelection, h,
      clearDisplayedMessage, recvSelectOnAdd, recvClearSelection])
  · have e : g.sendMsgClicked p idx = { ((({ g.recvClearSelection with
        m_selType := .send, m_clickedMsg := some p }).displayMessage p).recvSelectOnAdd
          false) with sendList := g.sendList.selectMsg idx } := by
      simp [sendMsgClicked, msgClicked, recvClearSelection, h, displayMessage, recvSelectOnAdd]
    rw [e]
    exact ⟨fun ht => by simp [recvSelectOnAdd, displayMessage] at ht,
      fun ht => by simp [recvSelectOnAdd, displayMessage] at ht, fun _ => ⟨p, rfl, he, hs⟩⟩


/-! ### Messages that are added -/

theorem addMsgToRecvList_selected {earlier : List MsgPtr} {g : GuiAppMgr φ α σ} (p : MsgPtr)
    (h : Selected earlier g) : Selected earlier (g.addMsgToRecvList p) := by
  refine ⟨h.none, fun ht => ?_, h.send⟩
  obtain ⟨q, hc, hq, ha⟩ := h.recv ht
  refine ⟨q, hc, ?_, ha⟩
  obtain ⟨row, hrow, hget⟩ := Option.bind_eq_some_iff.mp hq
  simp only [addMsgToRecvList, MsgListWidget.addMessage, MsgListWidget.currentItem, ha, hrow,
    Bool.false_eq_true, if_false, Option.bind_some]
  exact List.getElem?_append_left (List.getElem?_eq_some_iff.mp hget).1 ▸ hget

/-- What messages that are put into the list one after the other change. -/
structure Listed (earlier : List MsgPtr) (g g' : GuiAppMgr φ α σ) (msgs : List MsgPtr) :
    Prop where
  mgr : g'.msgMgr = g.msgMgr
  items : g'.recvList.items = g.recvList.items ++ msgs
  count : g'.m_recvListCount = g.m_recvListCount + msgs.length
  canAdd : g'.canAddToRecvList = g.canAddToRecvList
  sendItems : g'.sendList.items = g.sendList.items
  selected : Selected earlier g → Selected earlier g'

namespace Listed
variable {earlier : List MsgPtr} {g g₁ g₂ : GuiAppMgr φ α σ} {ms ms' : List MsgPtr}

theorem refl (earlier : List MsgPtr) (g : GuiAppMgr φ α σ) : Listed earlier g g [] :=
  ⟨rfl, by simp, rfl, rfl, rfl, fun hs => hs⟩

theorem trans (h₁ : Listed earlier g g₁ ms) (h₂ : Listed earlier g₁ g₂ ms') :
    Listed earlier g g₂ (ms ++ ms') where
  mgr := h₂.mgr.trans h₁.mgr
  items := by rw [h₂.items, h₁.items, List.append_assoc]
  count := by rw [h₂.count, h₁.count, List.length_append, Nat.add_assoc]
  canAdd := h₂.canAdd.trans h₁.canAdd
  sendItems := h₂.sendItems.trans h₁.sendItems
  selected := fun hs => h₂.selected (h₁.selected hs)

end Listed

theorem addMsgToRecvList_listed (earlier : List MsgPtr) (g : GuiAppMgr φ α σ) (p : MsgPtr) :
    Listed earlier g (g.addMsgToRecvList p) [p] :=
  ⟨rfl, rfl, rfl, rfl, rfl, addMsgToRecvList_selected p⟩

theorem msgAdded_listed (earlier : List MsgPtr) (g : GuiAppMgr φ α σ)
    (msg : MsgPtr × ToolsMessage φ α) :
    Listed earlier g (g.msgAdded msg) (if g.canAddToRecvList msg.2 then [msg.1] else []) := by
  unfold msgAdded
  by_cases h : g.canAddToRecvList msg.2 = true
  · have hadd := addMsgToRecvList_listed earlier g msg.1
    simp only [h, Bool.not_true, Bool.false_eq_true, if_false, if_true]
    split_ifs
    · exact hadd
    · exact { hadd with selected := fun hs => (hadd.selected hs).congr rfl rfl rfl rfl }
    · exact { hadd with selected := fun hs => (hadd.selected hs).congr rfl rfl rfl rfl }
  · simp only [h, Bool.not_false, if_true, Bool.false_eq_true, if_false]
    exact .refl earlier g

theorem msgsAdded_listed (earlier : List MsgPtr) (msgs : List (MsgPtr × ToolsMessage φ α))
    (g : GuiAppMgr φ α σ) :
    Listed earlier g (msgs.foldl msgAdded g)
      ((msgs.filter fun m => g.canAddToRecvList m.2).map Prod.fst) := by
  induction msgs generalizing g with
  | nil => exact .refl earlier g
  | cons msg msgs ih =>
      have h₁ := msgAdded_listed earlier g msg
      have h₂ := ih (g.msgAdded msg)
      rw [h₁.canAdd] at h₂
      have hl : ((msg :: msgs).filter fun m => g.canAddToRecvList m.2).map Prod.fst =
          (if g.canAddToRecvList msg.2 then [msg.1] else []) ++
            (msgs.filter fun m => g.canAddToRecvList m.2).map Prod.fst := by
        by_cases h : g.canAddToRecvList msg.2 = true <;> simp [h]
      rw [hl]
      exact h₁.trans h₂

/-- The new announcements of the manager put their messages into the list. -/
theorem report_listed (earlier : List MsgPtr) (g : GuiAppMgr φ α σ) (mgr : MsgMgr φ α σ) :
    Listed earlier { g with msgMgr := mgr } (g.report mgr)
      (((mgr.added.drop g.msgMgr.added.length).filter fun m => g.canAddToRecvList m.2).map
        Prod.fst) :=
  msgsAdded_listed earlier _ _

/-! ### Refreshing the list -/

/-- `recvMsgClicked` on a message just put into the list with `m_selectOnAdd`. -/
theorem refreshMsg_listed (earlier : List MsgPtr) (clickedMsg : Option MsgPtr)
    (g : GuiAppMgr φ α σ) (p : MsgPtr)
    (hclick : clickedMsg = some p → g.recvList.m_selectOnAdd = true) :
    Listed earlier g (refreshMsg clickedMsg g p) (if g.visible p then [p] else []) ∧
      (clickedMsg ≠ some p →
        (refreshMsg clickedMsg g p).recvList.m_selectOnAdd = g.recvList.m_selectOnAdd) := by
  unfold refreshMsg
  by_cases h : g.visible p = true
  · have hadd := addMsgToRecvList_listed earlier g p
    have h' : g.canAddToRecvList (g.msgMgr.objs p) = true := h
    simp only [h, h', if_true]
    by_cases hc : clickedMsg = some p
    · have hv := recvMsgClicked_sameView (g.addMsgToRecvList p) p
      have hmgr : ((g.addMsgToRecvList p).recvMsgClicked p).msgMgr = g.msgMgr :=
        recvMsgClicked_msgMgr _ _
      have hcur : (g.addMsgToRecvList p).recvList.currentItem = some p := by
        simp [addMsgToRecvList, MsgListWidget.addMessage, MsgListWidget.currentItem, hclick hc]
      rw [if_pos hc]
      refine ⟨⟨hmgr, hv.items.trans hadd.items, hv.count.trans hadd.count,
        hv.canAdd.trans hadd.canAdd, (recvMsgClicked_sendItems _ _).trans hadd.sendItems,
        fun _ => recvMsgClicked_selected earlier hcur⟩, fun hne => absurd hc hne⟩
    · rw [if_neg hc]
      exact ⟨hadd, fun _ => rfl⟩
  · have h' : ¬ g.canAddToRecvList (g.msgMgr.objs p) = true := h
    simp only [h, h', Bool.false_eq_true, if_false]
    exact ⟨.refl earlier g, fun _ => trivial⟩

theorem refreshMsgs_listed (earlier : List MsgPtr) (clickedMsg : Option MsgPtr)
    (msgs : List MsgPtr) (g : GuiAppMgr φ α σ) (hnd : msgs.Nodup)
    (hclick : ∀ p ∈ msgs, clickedMsg = some p → g.recvList.m_selectOnAdd = true) :
    Listed earlier g (msgs.foldl (refreshMsg clickedMsg) g) (msgs.filter g.visible) := by
  induction msgs generalizing g with
  | nil => exact .refl earlier g
  | cons p msgs ih =>
      obtain ⟨hp, hnd⟩ := List.nodup_cons.mp hnd
      obtain ⟨h₁, hadd⟩ := refreshMsg_listed earlier clickedMsg g p (hclick p List.mem_cons_self)
      have h₂ := ih (refreshMsg clickedMsg g p) hnd fun q hq hc => by
        rw [hadd fun e => hp (Option.some.inj (e.symm.trans hc) ▸ hq)]
        exact hclick q (List.mem_cons_of_mem _ hq) hc
      have hv : (refreshMsg clickedMsg g p).visible = g.visible := by
        funext q
        rw [visible, h₁.canAdd, h₁.mgr]
        rfl
      have hl : (p :: msgs).filter g.visible =
          (if g.visible p then [p] else []) ++ msgs.filter g.visible := by
        by_cases h : g.visible p = true <;> simp [h]
      rw [hl]
      rw [hv] at h₂
      exact h₁.trans h₂

/-- `clearRecvList(false)`. -/
structure Emptied (earlier : List MsgPtr) (g g' : GuiAppMgr φ α σ) : Prop where
  mgr : g'.msgMgr = g.msgMgr
  items : g'.recvList.items = []
  count : g'.m_recvListCount = 0
  canAdd : g'.canAddToRecvList = g.canAddToRecvList
  sendList : g'.sendList = g.sendList
  selected : Selected earlier g → Selected earlier g'

theorem clearRecvList_emptied (earlier : List MsgPtr) (g : GuiAppMgr φ α σ) :
    Emptied earlier g (g.clearRecvList false) := by
  unfold clearRecvList
  cases ht : g.m_selType with
  | none =>
      exact ⟨rfl, rfl, rfl, rfl, rfl, fun _ => selected_of_none rfl rfl⟩
  | recv =>
      exact ⟨rfl, rfl, rfl, rfl, rfl, fun _ => selected_of_none rfl rfl⟩
  | send =>
      refine ⟨rfl, rfl, rfl, rfl, rfl, fun hs => ?_⟩
      exact ⟨fun e => by simp at e, fun e => by simp at e, fun _ => hs.send ht⟩

/-- Nothing is selected, so nothing is selected in the received list. -/
theorem recvClearSelection_selected {earlier : List MsgPtr} {g : GuiAppMgr φ α σ}
    (h : Selected earlier g) (hc : g.m_clickedMsg = none) :
    Selected earlier g.recvClearSelection := by
  refine ⟨h.none, fun ht => ?_, h.send⟩
  obtain ⟨p, hp, -⟩ := h.recv ht
  simp [hc] at hp

/-- What a refresh does. -/
structure Refreshed (earlier : List MsgPtr) (g g' : GuiAppMgr φ α σ) : Prop where
  mgr : g'.msgMgr = g.msgMgr
  items : g'.recvList.items = g.msgMgr.m_allMsgs.filter g.visible
  count : g'.m_recvListCount = g'.recvList.items.length
  canAdd : g'.canAddToRecvList = g.canAddToRecvList
  sendItems : g'.sendList.items = g.sendList.items
  selected : Selected earlier g'

/-- The list is emptied and filled again, with a message of the store clicked on its way. -/
theorem refill_refreshed (earlier : List MsgPtr) (clickedMsg : Option MsgPtr)
    (g g₁ : GuiAppMgr φ α σ) (hv : SameView g g₁) (hmgr : g₁.msgMgr = g.msgMgr)
    (hsend : g₁.sendList.items = g.sendList.items) (hnd : g.msgMgr.m_allMsgs.Nodup)
    (hsel : Selected earlier g₁)
    (hclick : ∀ p ∈ g.msgMgr.m_allMsgs, clickedMsg = some p →
      (g₁.clearRecvList false).recvList.m_selectOnAdd = true) :
    let g₂ := (g₁.clearRecvList false).msgMgr.m_allMsgs.foldl (refreshMsg clickedMsg)
      (g₁.clearRecvList false)
    Refreshed earlier g (if g₂.m_clickedMsg.isNone then g₂.recvClearSelection else g₂) := by
  have hem := clearRecvList_emptied earlier g₁
  have hstore : (g₁.clearRecvList false).msgMgr.m_allMsgs = g.msgMgr.m_allMsgs := by
    rw [hem.mgr, hmgr]
  have hvis : (g₁.clearRecvList false).visible = g.visible := by
    funext p
    rw [visible, hem.canAdd, hv.canAdd, hem.mgr, hmgr]
    rfl
  have hl := refreshMsgs_listed earlier clickedMsg g.msgMgr.m_allMsgs (g₁.clearRecvList false) hnd
    hclick
  rw [hvis] at hl
  rw [hstore]
  intro g₂
  have hitems : g₂.recvList.items = g.msgMgr.m_allMsgs.filter g.visible := by
    rw [hl.items, hem.items, List.nil_append]
  have hcount : g₂.m_recvListCount = g₂.recvList.items.length := by
    rw [hl.count, hem.count, hitems, Nat.zero_add]
  have hs₂ := hl.selected (hem.selected hsel)
  have hr : Refreshed earlier g g₂ :=
    ⟨hl.mgr.trans (hem.mgr.trans hmgr), hitems, hcount,
      hl.canAdd.trans (hem.canAdd.trans hv.canAdd),
      hl.sendItems.trans ((congrArg MsgListWidget.items hem.sendList).trans hsend), hs₂⟩
  split_ifs with hc
  · exact { hr with
      selected := recvClearSelection_selected hs₂ (Option.isNone_iff_eq_none.mp hc) }
  · exact hr

/-- **A refresh** shows the part of the store that is let through, and keeps a selection. -/
theorem refreshRecvList_refreshed {earlier : List MsgPtr} {g : GuiAppMgr φ α σ}
    (hnd : g.msgMgr.m_allMsgs.Nodup) (hsel : Selected earlier g) :
    Refreshed earlier g g.refreshRecvList := by
  cases ht : g.m_selType with
  | none =>
      have hc := hsel.none ht
      have e : g.unselectRecvMsg = { g with displayedMsg := none } := by
        simp [unselectRecvMsg, ht]
      rw [refreshRecvList, e]
      exact refill_refreshed earlier g.m_clickedMsg g { g with displayedMsg := none }
        ⟨rfl, rfl, rfl, rfl, rfl, rfl⟩ rfl rfl hnd (hsel.congr rfl rfl rfl rfl)
        fun p _ hp => by simp [hc] at hp
  | send =>
      obtain ⟨q, hc, -, hq⟩ := hsel.send ht
      have e : g.unselectRecvMsg = g := by simp [unselectRecvMsg, ht]
      rw [refreshRecvList, e]
      refine refill_refreshed earlier g.m_clickedMsg g g (.refl g) rfl rfl hnd hsel
        fun p hp hpc => ?_
      obtain rfl : q = p := Option.some.inj (hc.symm.trans hpc)
      exact absurd hp hq
  | recv =>
      obtain ⟨q, hc, hcur, -⟩ := hsel.recv ht
      have e : g.unselectRecvMsg = g.recvMsgClicked q := by simp [unselectRecvMsg, ht, hc]
      have hon : ((g.recvMsgClicked q).clearRecvList false).recvList.m_selectOnAdd = true := by
        simp [recvMsgClicked, msgClicked, sendClearSelection, hc, clearDisplayedMessage,
          recvSelectOnAdd, recvClearSelection, MsgListWidget.selectOnAdd,
          MsgListWidget.clearSelection, clearRecvList, MsgListWidget.clearList]
      rw [refreshRecvList, e]
      exact refill_refreshed earlier g.m_clickedMsg g (g.recvMsgClicked q)
        (recvMsgClicked_sameView g q) (recvMsgClicked_msgMgr g q) (recvMsgClicked_sendItems g q)
        hnd (recvMsgClicked_selected earlier hcur) fun _ _ _ => hon

end GuiAppMgr

end CcToolsQt
