import CcToolsQt.Forms
import CcToolsQt.GuiRuns
import CcToolsQt.Lib.Bisect
import Mathlib.Data.Char
import Mathlib.Data.List.Dedup
import Mathlib.Data.List.Lex
import Mathlib.Data.List.Perm.Subperm
import Mathlib.Data.List.Sort

/-! # The message filter dialog

`MessagesFilterDialog` keeps the descriptions of the messages in two sorted lists, the visible and
the hidden ones, and moves them from one to the other; `GuiAppMgr::canAddToRecvList` looks a
description up in the hidden ones by a binary search.

* `step_good`: an operation keeps both lists sorted and the descriptions the same, counted with
  repetitions, and no assertion fails.
* `partitions_and_hides`: this in every state reached, and when the received list hides what the
  filter hides once it is set. -/

namespace CcToolsQt

/-- `FilteredMessages`. -/
abbrev FilteredMessages := List QString

/-- `MessagesFilterDialog`, with the texts its two list widgets show. -/
structure MessagesFilterDialog where
  m_visibleMessages : FilteredMessages
  m_hiddenMessages : FilteredMessages
  m_searchText : QString := []
  m_visibleListWidget : List QString := []
  m_hiddenListWidget : List QString := []

namespace MessagesFilterDialog

/-! ### The dialog

`contains` is `QString::contains` with `Qt::CaseInsensitive`; `none` is a failed assertion. -/

/-- `std::sort`. -/
def sort (messages : FilteredMessages) : FilteredMessages := messages.insertionSort (· ≤ ·)

/-- `std::lower_bound` ends at the value itself. -/
def isListed (messages : FilteredMessages) (val : QString) : Bool :=
  decide (messages[Bisect.partitionPoint (fun x => decide (x < val)) messages]? = some val)

section
variable (contains : QString → QString → Bool)

/-- `refreshMessagesList`: the messages a list widget shows. -/
def refreshMessagesList (searchText : QString) (messages : FilteredMessages) : List QString :=
  messages.filter fun m => searchText.isEmpty || contains m searchText

def refresh (d : MessagesFilterDialog) : MessagesFilterDialog :=
  { d with
    m_visibleListWidget := refreshMessagesList contains d.m_searchText d.m_visibleMessages
    m_hiddenListWidget := refreshMessagesList contains d.m_searchText d.m_hiddenMessages }

/-- The constructor, with the descriptions of the messages of the protocol. -/
def new (filteredMessages : FilteredMessages) (allMessages : List QString) :
    MessagesFilterDialog :=
  let m_hiddenMessages := sort filteredMessages
  refresh contains
    { m_visibleMessages := (sort allMessages).filter fun val => !isListed m_hiddenMessages val
      m_hiddenMessages }

end

/-- `moveSelectedItem`, without the final update; the two lists are `from` and `to`. -/
def moveSelectedItem (lists : FilteredMessages × FilteredMessages) (text : QString) :
    Option (FilteredMessages × FilteredMessages) :=
  if text ∈ lists.1 then some (lists.1.erase text, lists.2 ++ [text]) else none

def moveSelectedMessages (texts : List QString) (lists : FilteredMessages × FilteredMessages) :
    Option (FilteredMessages × FilteredMessages) :=
  (texts.foldlM moveSelectedItem lists).map fun lists => (lists.1, sort lists.2)

def moveAllMessages (lists : FilteredMessages × FilteredMessages) :
    FilteredMessages × FilteredMessages := ([], sort (lists.2 ++ lists.1))

/-- `selectedItems()`, the texts of the rows that are selected. -/
def selectedItems (list : List QString) (rows : List ℕ) : List QString :=
  rows.dedup.filterMap fun row => list[row]?

/-- Messages move from the visible to the hidden ones. -/
def hide (d : MessagesFilterDialog) (lists : FilteredMessages × FilteredMessages) :
    MessagesFilterDialog :=
  { d with m_visibleMessages := lists.1, m_hiddenMessages := lists.2 }

/-- Messages move from the hidden to the visible ones. -/
def unhide (d : MessagesFilterDialog) (lists : FilteredMessages × FilteredMessages) :
    MessagesFilterDialog :=
  { d with m_visibleMessages := lists.2, m_hiddenMessages := lists.1 }

/-- What the user does; rows that are selected or double-clicked are rows of the list widget. -/
inductive Event where
  | hideAllClicked
  | hideSelectedClicked (rows : List ℕ)
  | showSelectedClicked (rows : List ℕ)
  | showAllClicked
  | hideVisible (row : ℕ)
  | showHidden (row : ℕ)
  | refreshDisplayedLists (searchText : QString)

section
variable (contains : QString → QString → Bool)

def hideAllClicked (d : MessagesFilterDialog) : MessagesFilterDialog :=
  refresh contains (d.hide (moveAllMessages (d.m_visibleMessages, d.m_hiddenMessages)))

def hideSelectedClicked (d : MessagesFilterDialog) (rows : List ℕ) : Option MessagesFilterDialog :=
  (moveSelectedMessages (selectedItems d.m_visibleListWidget rows)
    (d.m_visibleMessages, d.m_hiddenMessages)).map fun lists => refresh contains (d.hide lists)

def showSelectedClicked (d : MessagesFilterDialog) (rows : List ℕ) : Option MessagesFilterDialog :=
  (moveSelectedMessages (selectedItems d.m_hiddenListWidget rows)
    (d.m_hiddenMessages, d.m_visibleMessages)).map fun lists => refresh contains (d.unhide lists)

def showAllClicked (d : MessagesFilterDialog) : MessagesFilterDialog :=
  refresh contains (d.unhide (moveAllMessages (d.m_hiddenMessages, d.m_visibleMessages)))

/-- A double click, with the final update of `moveSelectedItem`. -/
def hideVisible (d : MessagesFilterDialog) (row : ℕ) : Option MessagesFilterDialog :=
  match d.m_visibleListWidget[row]? with
  | none => some d
  | some text =>
      (moveSelectedItem (d.m_visibleMessages, d.m_hiddenMessages) text).map fun lists =>
        refresh contains (d.hide (lists.1, sort lists.2))

def showHidden (d : MessagesFilterDialog) (row : ℕ) : Option MessagesFilterDialog :=
  match d.m_hiddenListWidget[row]? with
  | none => some d
  | some text =>
      (moveSelectedItem (d.m_hiddenMessages, d.m_visibleMessages) text).map fun lists =>
        refresh contains (d.unhide (lists.1, sort lists.2))

def refreshDisplayedLists (d : MessagesFilterDialog) (searchText : QString) :
    MessagesFilterDialog :=
  refresh contains { d with m_searchText := searchText }

def step (d : MessagesFilterDialog) : Event → Option MessagesFilterDialog
  | .hideAllClicked => some (d.hideAllClicked contains)
  | .hideSelectedClicked rows => d.hideSelectedClicked contains rows
  | .showSelectedClicked rows => d.showSelectedClicked contains rows
  | .showAllClicked => some (d.showAllClicked contains)
  | .hideVisible row => d.hideVisible contains row
  | .showHidden row => d.showHidden contains row
  | .refreshDisplayedLists searchText => some (d.refreshDisplayedLists contains searchText)

def run (d : MessagesFilterDialog) (evs : List Event) : Option MessagesFilterDialog :=
  evs.foldlM (step contains) d

end

/-- `accept`: what becomes of the filtered messages. -/
def accept (d : MessagesFilterDialog) : FilteredMessages := d.m_hiddenMessages

/-! ### Moves -/

theorem sort_sorted (messages : FilteredMessages) : (sort messages).Pairwise (· ≤ ·) :=
  List.pairwise_insertionSort _ _

theorem sort_perm (messages : FilteredMessages) : (sort messages).Perm messages :=
  List.perm_insertionSort _ _

theorem isListed_iff {messages : FilteredMessages} (h : messages.Pairwise (· ≤ ·))
    (val : QString) : isListed messages val = true ↔ val ∈ messages := by
  rw [isListed, decide_eq_true_iff]
  exact Bisect.mem_iff_getElem?_partitionPoint h val

/-- What a move does: nothing is lost, and the order of what stays is kept. -/
structure Moved (lists lists' : FilteredMessages × FilteredMessages) : Prop where
  perm : (lists'.1 ++ lists'.2).Perm (lists.1 ++ lists.2)
  sub : lists'.1.Sublist lists.1

/-- What was moved is sorted into the other list. -/
theorem Moved.sort {lists lists' : FilteredMessages × FilteredMessages} (h : Moved lists lists') :
    Moved lists (lists'.1, MessagesFilterDialog.sort lists'.2) :=
  ⟨((sort_perm _).append_left _).trans h.perm, h.sub⟩

theorem moveSelectedItem_moved (lists : FilteredMessages × FilteredMessages) {text : QString}
    (h : text ∈ lists.1) :
    ∃ lists', moveSelectedItem lists text = some lists' ∧ Moved lists lists' ∧
      lists'.1 = lists.1.erase text := by
  refine ⟨_, if_pos h, ⟨?_, List.erase_sublist⟩, rfl⟩
  have hswap : (lists.1.erase text ++ (lists.2 ++ [text])).Perm
      (text :: lists.1.erase text ++ lists.2) := by
    rw [← List.append_assoc]
    exact List.perm_append_singleton text _
  exact hswap.trans ((List.perm_cons_erase h).symm.append_right _)

/-- The loop never misses a text, as no text is selected more often than it is listed. -/
theorem moveSelectedItems_moved (texts : List QString)
    (lists : FilteredMessages × FilteredMessages) (h : texts.Subperm lists.1) :
    ∃ lists', texts.foldlM moveSelectedItem lists = some lists' ∧ Moved lists lists' := by
  induction texts generalizing lists with
  | nil => exact ⟨lists, rfl, .refl _, List.Sublist.refl _⟩
  | cons text texts ih =>
      obtain ⟨mid, hmid, hm, herase⟩ := moveSelectedItem_moved lists (h.subset List.mem_cons_self)
      have hrest : texts.Subperm mid.1 := by
        rw [herase]
        simpa using h.erase text
      obtain ⟨lists', hlists', hm'⟩ := ih mid hrest
      refine ⟨lists', ?_, hm'.perm.trans hm.perm, hm'.sub.trans hm.sub⟩
      rw [List.foldlM_cons, hmid]
      exact hlists'

theorem filterMap_range {α : Type} (list : List α) :
    (List.range list.length).filterMap (fun row => list[row]?) = list := by
  induction list with
  | nil => rfl
  | cons x list ih =>
      rw [List.length_cons, List.range_succ_eq_map, List.filterMap_cons, List.filterMap_map]
      exact congrArg (x :: ·) ih

/-- The texts of different rows. -/
theorem selectedItems_subperm (list : List QString) (rows : List ℕ) :
    (selectedItems list rows).Subperm list := by
  have hin : (rows.dedup.filter (· < list.length)).Subperm (List.range list.length) := by
    refine List.subperm_of_subset (rows.nodup_dedup.filter _) fun row hrow => ?_
    simpa using (List.mem_filter.mp hrow).2
  have hrows : (rows.dedup.filter (· < list.length)).filterMap (fun row => list[row]?) =
      selectedItems list rows := by
    rw [List.filterMap_filter]
    refine List.filterMap_congr fun row _ => ?_
    split_ifs with hlt
    · rfl
    · simpa using hlt
  obtain ⟨l, hperm, hsub⟩ := hin
  have hsub' := hsub.filterMap fun row => list[row]?
  rw [filterMap_range] at hsub'
  exact ⟨_, hrows ▸ hperm.filterMap _, hsub'⟩

/-- What the user can select is listed in the dialog. -/
theorem moveSelectedMessages_moved (lists : FilteredMessages × FilteredMessages)
    {texts : List QString} (h : texts.Subperm lists.1) :
    ∃ lists', moveSelectedMessages texts lists = some lists' ∧ Moved lists lists' ∧
      lists'.2.Pairwise (· ≤ ·) := by
  obtain ⟨lists', hlists', hm⟩ := moveSelectedItems_moved texts lists h
  refine ⟨_, ?_, hm.sort, sort_sorted _⟩
  rw [moveSelectedMessages, hlists']
  rfl

theorem moveAllMessages_moved (lists : FilteredMessages × FilteredMessages) :
    Moved lists (moveAllMessages lists) ∧ (moveAllMessages lists).2.Pairwise (· ≤ ·) :=
  ⟨⟨(sort_perm _).trans List.perm_append_comm, List.nil_sublist _⟩, sort_sorted _⟩

/-! ### What holds after each operation -/

section
variable (contains : QString → QString → Bool)

/-- Both lists are sorted and together hold the descriptions `all`; the list widgets show them. -/
structure Good (all : List QString) (d : MessagesFilterDialog) : Prop where
  visible : d.m_visibleMessages.Pairwise (· ≤ ·)
  hidden : d.m_hiddenMessages.Pairwise (· ≤ ·)
  perm : (d.m_visibleMessages ++ d.m_hiddenMessages).Perm all
  visibleList : d.m_visibleListWidget =
    refreshMessagesList contains d.m_searchText d.m_visibleMessages
  hiddenList : d.m_hiddenListWidget =
    refreshMessagesList contains d.m_searchText d.m_hiddenMessages

variable {contains} {all : List QString} {d : MessagesFilterDialog}

theorem Good.visibleList_subperm (h : Good contains all d) :
    d.m_visibleListWidget.Subperm d.m_visibleMessages := by
  rw [h.visibleList]
  exact List.filter_sublist.subperm

theorem Good.hiddenList_subperm (h : Good contains all d) :
    d.m_hiddenListWidget.Subperm d.m_hiddenMessages := by
  rw [h.hiddenList]
  exact List.filter_sublist.subperm

theorem Good.hide (h : Good contains all d) (lists : FilteredMessages × FilteredMessages)
    (hm : Moved (d.m_visibleMessages, d.m_hiddenMessages) lists)
    (hsorted : lists.2.Pairwise (· ≤ ·)) : Good contains all (refresh contains (d.hide lists)) where
  visible := h.visible.sublist hm.sub
  hidden := hsorted
  perm := hm.perm.trans h.perm
  visibleList := rfl
  hiddenList := rfl

theorem Good.unhide (h : Good contains all d) (lists : FilteredMessages × FilteredMessages)
    (hm : Moved (d.m_hiddenMessages, d.m_visibleMessages) lists)
    (hsorted : lists.2.Pairwise (· ≤ ·)) :
    Good contains all (refresh contains (d.unhide lists)) where
  visible := hsorted
  hidden := h.hidden.sublist hm.sub
  perm := (List.perm_append_comm.trans (hm.perm.trans List.perm_append_comm)).trans h.perm
  visibleList := rfl
  hiddenList := rfl

/-- **One operation.** -/
theorem step_good (h : Good contains all d) (e : Event) :
    ∃ d', d.step contains e = some d' ∧ Good contains all d' := by
  cases e with
  | hideAllClicked =>
      obtain ⟨hm, hsorted⟩ := moveAllMessages_moved (d.m_visibleMessages, d.m_hiddenMessages)
      exact ⟨_, rfl, h.hide _ hm hsorted⟩
  | showAllClicked =>
      obtain ⟨hm, hsorted⟩ := moveAllMessages_moved (d.m_hiddenMessages, d.m_visibleMessages)
      exact ⟨_, rfl, h.unhide _ hm hsorted⟩
  | hideSelectedClicked rows =>
      obtain ⟨lists, hlists, hm, hsorted⟩ := moveSelectedMessages_moved
        (d.m_visibleMessages, d.m_hiddenMessages)
        ((selectedItems_subperm d.m_visibleListWidget rows).trans h.visibleList_subperm)
      refine ⟨_, ?_, h.hide _ hm hsorted⟩
      rw [step, hideSelectedClicked, hlists]
      rfl
  | showSelectedClicked rows =>
      obtain ⟨lists, hlists, hm, hsorted⟩ := moveSelectedMessages_moved
        (d.m_hiddenMessages, d.m_visibleMessages)
        ((selectedItems_subperm d.m_hiddenListWidget rows).trans h.hiddenList_subperm)
      refine ⟨_, ?_, h.unhide _ hm hsorted⟩
      rw [step, showSelectedClicked, hlists]
      rfl
  | hideVisible row =>
      cases hrow : d.m_visibleListWidget[row]? with
      | none => exact ⟨d, by rw [step, hideVisible, hrow], h⟩
      | some text =>
          have hmem := h.visibleList_subperm.subset (List.mem_of_getElem? hrow)
          obtain ⟨lists, hlists, hm, -⟩ := moveSelectedItem_moved
            (d.m_visibleMessages, d.m_hiddenMessages) hmem
          refine ⟨_, ?_, h.hide _ hm.sort (sort_sorted _)⟩
          rw [step, hideVisible, hrow]
          simp only [hlists, Option.map_some]
  | showHidden row =>
      cases hrow : d.m_hiddenListWidget[row]? with
      | none => exact ⟨d, by rw [step, showHidden, hrow], h⟩
      | some text =>
          have hmem := h.hiddenList_subperm.subset (List.mem_of_getElem? hrow)
          obtain ⟨lists, hlists, hm, -⟩ := moveSelectedItem_moved
            (d.m_hiddenMessages, d.m_visibleMessages) hmem
          refine ⟨_, ?_, h.unhide _ hm.sort (sort_sorted _)⟩
          rw [step, showHidden, hrow]
          simp only [hlists, Option.map_some]
  | refreshDisplayedLists searchText => exact ⟨_, rfl, h.visible, h.hidden, h.perm, rfl, rfl⟩

theorem new_good (filteredMessages : FilteredMessages) (allMessages : List QString) :
    Good contains (allMessages.filter (· ∉ filteredMessages) ++ filteredMessages)
      (new contains filteredMessages allMessages) where
  visible := (sort_sorted allMessages).filter _
  hidden := sort_sorted filteredMessages
  perm := by
    refine List.Perm.append ?_ (sort_perm filteredMessages)
    have hkept : (fun val => !isListed (sort filteredMessages) val) =
        fun val => decide (val ∉ filteredMessages) := by
      funext val
      have hlisted := isListed_iff (sort_sorted filteredMessages) val
      rw [(sort_perm filteredMessages).mem_iff] at hlisted
      rw [Bool.eq_iff_iff, Bool.not_eq_true', decide_eq_true_iff, ← hlisted, Bool.not_eq_true]
    show ((sort allMessages).filter _).Perm _
    rw [hkept]
    exact (sort_perm allMessages).filter _
  visibleList := rfl
  hiddenList := rfl

/-- **A run of the dialog.** -/
theorem run_good (evs : List Event) {all : List QString} {d : MessagesFilterDialog}
    (h : Good contains all d) : ∃ d', d.run contains evs = some d' ∧ Good contains all d' := by
  induction evs generalizing d with
  | nil => exact ⟨d, rfl, h⟩
  | cons e evs ih =>
      obtain ⟨mid, hmid, hgood⟩ := step_good h e
      obtain ⟨d', hd', hgood'⟩ := ih hgood
      refine ⟨d', ?_, hgood'⟩
      rw [run, List.foldlM_cons, hmid]
      exact hd'

end

end MessagesFilterDialog

/-! ### The filter -/

namespace GuiAppMgr
variable {φ α σ : Type}

/-- Messages of the direction are shown. -/
def DirectionShown (g : GuiAppMgr φ α σ) (msg : ToolsMessage φ α) : Prop :=
  (msg.getType = MsgType.Sent → g.recvListShowsSent = true) ∧
    (msg.getType = MsgType.Received → g.recvListShowsReceived = true)

/-- The application with another filter. -/
def withFilter (g : GuiAppMgr φ α σ) (filteredMessages : FilteredMessages) : GuiAppMgr φ α σ :=
  { g with m_filteredMessages := filteredMessages }

/-- The binary search in a sorted filter. -/
theorem canAddToRecvList_iff {g : GuiAppMgr φ α σ} {msg : ToolsMessage φ α}
    (hsorted : g.m_filteredMessages.Pairwise (· ≤ ·)) (happly : g.recvListApplyFilter = true)
    (hregular : msg.idAsString g.classes ≠ []) (hshown : g.DirectionShown msg) :
    g.canAddToRecvList msg = true ↔ g.messageDesc msg ∉ g.m_filteredMessages := by
  have hsent : ¬ (msg.getType = MsgType.Sent ∧ !g.recvListShowsSent) := by
    rintro ⟨ht, hs⟩
    simp [hshown.1 ht] at hs
  have hreceived : ¬ (msg.getType = MsgType.Received ∧ !g.recvListShowsReceived) := by
    rintro ⟨ht, hs⟩
    simp [hshown.2 ht] at hs
  rw [canAddToRecvList, if_neg (by simpa using hregular), if_neg hsent, if_neg hreceived,
    if_neg (by simp [happly]), decide_eq_true_iff, ne_eq, Bisect.find?_eq_some_iff_mem hsorted]

/-- The filter decides as the one that is set, and the list is refreshed if it is another one. -/
theorem setFilteredMessages_spec {earlier : List MsgPtr} {g : GuiAppMgr φ α σ}
    (hi : Inv earlier g) (happly : g.recvListApplyFilter = true)
    (filteredMessages : FilteredMessages) :
    (g.setFilteredMessages filteredMessages).canAddToRecvList =
        (g.withFilter filteredMessages).canAddToRecvList ∧
      (g.setFilteredMessages filteredMessages).msgMgr = g.msgMgr ∧
      (filteredMessages ≠ g.m_filteredMessages →
        (g.setFilteredMessages filteredMessages).recvList.items =
          g.msgMgr.m_allMsgs.filter (g.withFilter filteredMessages).visible) := by
  by_cases heq : filteredMessages = g.m_filteredMessages
  · subst heq
    rw [setFilteredMessages, if_pos rfl]
    exact ⟨rfl, rfl, fun hne => absurd rfl hne⟩
  · have hset : g.setFilteredMessages filteredMessages =
        (g.withFilter filteredMessages).refreshRecvList := by
      rw [setFilteredMessages, if_neg heq]
      exact if_pos happly
    have hr := refreshRecvList_refreshed (g := g.withFilter filteredMessages)
      hi.known.allMsgs_nodup (hi.selected.congr rfl rfl rfl rfl)
    rw [hset]
    exact ⟨hr.canAdd, hr.mgr, fun _ => hr.items⟩

/-- Of the stored messages with an id text and of a direction that is shown, the list of `g'` has
those whose description is not hidden. -/
def HidesExactly (g g' : GuiAppMgr φ α σ) (hidden : FilteredMessages) : Prop :=
  ∀ p ∈ g'.msgMgr.m_allMsgs, (g'.msgMgr.objs p).idAsString g.classes ≠ [] →
    g.DirectionShown (g'.msgMgr.objs p) →
    (p ∈ g'.recvList.items ↔ g.messageDesc (g'.msgMgr.objs p) ∉ hidden)

/-- Another filter rebuilds the list. -/
theorem setFilteredMessages_hides {earlier : List MsgPtr} {g : GuiAppMgr φ α σ}
    (hi : Inv earlier g) (happly : g.recvListApplyFilter = true)
    {filteredMessages : FilteredMessages} (hsorted : filteredMessages.Pairwise (· ≤ ·))
    (hne : filteredMessages ≠ g.m_filteredMessages) :
    g.HidesExactly (g.setFilteredMessages filteredMessages) filteredMessages := by
  intro p hp hregular hshown
  obtain ⟨-, hmgr, hitems⟩ := setFilteredMessages_spec hi happly filteredMessages
  rw [hmgr] at hp hregular hshown ⊢
  rw [hitems hne, List.mem_filter, and_iff_right hp]
  exact canAddToRecvList_iff (g := g.withFilter filteredMessages) hsorted happly hregular hshown

/-- A list that is the filtered store shows what the filter lets through. -/
theorem hidesExactly_of_view {g : GuiAppMgr φ α σ} (happly : g.recvListApplyFilter = true)
    (hsorted : g.m_filteredMessages.Pairwise (· ≤ ·))
    (hview : g.recvList.items = g.msgMgr.m_allMsgs.filter g.visible) :
    g.HidesExactly g g.m_filteredMessages := by
  intro p hp hregular hshown
  rw [hview, List.mem_filter, and_iff_right hp]
  exact canAddToRecvList_iff hsorted happly hregular hshown

/-- **The message filter.**  In every state the dialog reaches the visible and the hidden messages
are sorted and together those it was opened with, and no assertion fails; accepted and set, the
filter hides the hidden ones and no others.  So does the list if the filter changes or the protocol
has replied from inside `messageReceivedReport()` to the first message of a chunk at most. -/
theorem partitions_and_hides (contains : QString → QString → Bool) (g : GuiAppMgr φ α σ)
    (hg : g.Started) (evs : List GuiEvent) (hnd : (evs.flatMap GuiEvent.ptrs).Nodup)
    (happly : (g.run evs).recvListApplyFilter = true) (filteredMessages : FilteredMessages)
    (allMessages : List (ToolsMessage φ α)) (clicks : List MessagesFilterDialog.Event) :
    let g := g.run evs
    let descs := allMessages.map g.messageDesc
    ∃ d, (MessagesFilterDialog.new contains filteredMessages descs).run contains clicks = some d ∧
      d.m_visibleMessages.Pairwise (· ≤ ·) ∧ d.m_hiddenMessages.Pairwise (· ≤ ·) ∧
      (d.m_visibleMessages ++ d.m_hiddenMessages).Perm
        (descs.filter (· ∉ filteredMessages) ++ filteredMessages) ∧
      let g' := g.setFilteredMessages d.accept
      (∀ msg : ToolsMessage φ α, msg.idAsString g.classes ≠ [] → g.DirectionShown msg →
          (g'.canAddToRecvList msg = true ↔ g.messageDesc msg ∉ d.m_hiddenMessages)) ∧
        (d.accept ≠ g.m_filteredMessages ∨ (∀ ev ∈ evs, ev.AnswersFirst) →
          g.HidesExactly g' d.m_hiddenMessages) := by
  obtain ⟨hi, hview⟩ := run_inv evs hg.inv (by simpa using hnd)
  intro g' descs
  have hnew : MessagesFilterDialog.Good contains _
      (MessagesFilterDialog.new contains filteredMessages descs) :=
    MessagesFilterDialog.new_good filteredMessages descs
  obtain ⟨d, hd, hgood⟩ := MessagesFilterDialog.run_good clicks hnew
  refine ⟨d, hd, hgood.visible, hgood.hidden, hgood.perm, fun msg hregular hshown => ?_, ?_⟩
  · rw [(setFilteredMessages_spec hi happly d.accept).1]
    exact canAddToRecvList_iff (g := g'.withFilter d.accept) hgood.hidden happly hregular hshown
  · intro hcond
    by_cases hne : d.accept = g'.m_filteredMessages
    · -- nothing is refreshed, and the list agrees with the store already
      have hfirst : ∀ ev ∈ evs, ev.AnswersFirst := hcond.resolve_left (not_not.mpr hne)
      have hhidden : d.m_hiddenMessages = g'.m_filteredMessages := hne
      have hsorted : g'.m_filteredMessages.Pairwise (· ≤ ·) := hne ▸ hgood.hidden
      rw [setFilteredMessages, if_pos hne, hhidden]
      refine hidesExactly_of_view happly hsorted (hview hfirst ?_)
      rw [hg.recvItems, hg.allMsgs]
      rfl
    · exact setFilteredMessages_hides hi happly hgood.hidden hne

/-- `Ping` is hidden, `Pong` is shown and three messages have arrived; the user shows `Ping` and
hides `Pong`. -/
theorem partitions_and_hides_sample :
    let g := sampleApp.run (silentEvents.take 2)
    let descs := [{ body := .prot false () }, { body := .prot true () }].map g.messageDesc
    ∃ d, (MessagesFilterDialog.new (fun _ _ => true) g.m_filteredMessages descs).run
        (fun _ _ => true) [.showAllClicked, .hideVisible 1] = some d ∧
      d.m_visibleMessages.Pairwise (· ≤ ·) ∧ d.m_hiddenMessages.Pairwise (· ≤ ·) ∧
      (d.m_visibleMessages ++ d.m_hiddenMessages).Perm
        (descs.filter (· ∉ g.m_filteredMessages) ++ g.m_filteredMessages) ∧
      let g' := g.setFilteredMessages d.accept
      (∀ msg : ToolsMessage Bool Unit, msg.idAsString g.classes ≠ [] → g.DirectionShown msg →
          (g'.canAddToRecvList msg = true ↔ g.messageDesc msg ∉ d.m_hiddenMessages)) ∧
        (d.accept ≠ g.m_filteredMessages ∨ (∀ ev ∈ silentEvents.take 2, ev.AnswersFirst) →
          g.HidesExactly g' d.m_hiddenMessages) :=
  partitions_and_hides (fun _ _ => true) sampleApp sampleApp_started (silentEvents.take 2)
    (by decide) (by decide) _ [{ body := .prot false () }, { body := .prot true () }]
    [.showAllClicked, .hideVisible 1]

/-- A message that was displayed is left in the store as the list is cleared; the dialog is opened
and accepted as it is. -/
theorem cleared_not_displayed :
    ¬ ∀ (g : GuiAppMgr Bool Unit Unit), g.Started → ∀ evs : List GuiEvent,
      (evs.flatMap GuiEvent.ptrs).Nodup → (g.run evs).recvListApplyFilter = true →
      ∀ (contains : QString → QString → Bool) (descs : List QString)
        (clicks : List MessagesFilterDialog.Event) (d : MessagesFilterDialog),
        (MessagesFilterDialog.new contains (g.run evs).m_filteredMessages descs).run contains
          clicks = some d →
        (g.run evs).HidesExactly ((g.run evs).setFilteredMessages d.accept) d.m_hiddenMessages := by
  intro h
  have hhides := h sampleApp sampleApp_started (replyEvents ++ [.recvClearClicked]) (by decide)
    (by decide) (fun _ _ => true) [] [] _ rfl
  have hshown := hhides 3 (by decide) (by decide) (by unfold DirectionShown; decide)
  exact absurd (hshown.mpr (by decide)) (by decide)

end GuiAppMgr

end CcToolsQt
