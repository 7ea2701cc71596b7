import CcToolsQt.PluginWidgets
import CcToolsQt.Lib.Runs

/-! # The lists of the dialog of plugins

`PluginConfigDialog` shows the available plugins of each type that are not selected and match the
search, and the selected ones.  At most one item of all lists is the current one; the buttons are
enabled and disabled by hand after every click.

* `Inv.step`: every click keeps the lists and the buttons in agreement.
* `lists_consistent`: the same over a run, and the runs in which no assertion fails behind an
  enabled button.
* `one_of_each_iff`: the runs in which there is never more than one socket and one protocol. -/

namespace CcToolsQt

/-! ### The lists -/

/-- The plugins of the items, the current row, and whether the list is disabled. -/
structure PluginsListWidget where
  items : List PluginInfoPtr := []
  currentRow : Option ℕ := none
  disabled : Bool := false

namespace PluginsListWidget

def count (w : PluginsListWidget) : ℕ := w.items.length

/-- The plugin of `currentItem()`. -/
def currentItem (w : PluginsListWidget) : Option PluginInfoPtr :=
  w.currentRow.bind fun row => w.items[row]?

def setCurrentRow (w : PluginsListWidget) (row : Option ℕ) : PluginsListWidget :=
  { w with currentRow := row }

def addItem (w : PluginsListWidget) (info : PluginInfoPtr) : PluginsListWidget :=
  { w with items := w.items ++ [info] }

/-- `delete` of the current item: the next item becomes the current one, or the previous one if
there is no next. -/
def deleteCurrentItem (w : PluginsListWidget) : PluginsListWidget :=
  match w.currentRow with
  | none => w
  | some row =>
      let items := w.items.eraseIdx row
      { w with
        items
        currentRow :=
          if row < items.length then some row
          else if items.isEmpty then none
          else some (items.length - 1) }

end PluginsListWidget

/-- The plugins of the manager, each of them once. -/
structure AvailablePlugins extends PluginInfos where
  plugins : List PluginInfoPtr
  nodup : plugins.Nodup
  getNameWithVersion : PluginInfoPtr → QString
  /-- `QString::contains` without regard to case -/
  contains : QString → QString → Bool

/-- The search lets a plugin through. -/
def AvailablePlugins.found (I : AvailablePlugins) (filterStr : QString) (info : PluginInfoPtr) :
    Bool :=
  filterStr.isEmpty || I.contains (I.getNameWithVersion info) filterStr

/-- Which buttons over the selected plugins are enabled. -/
structure SelectedToolbar where
  m_saveButton : Bool := false
  m_removeButton : Bool := false
  m_clearButton : Bool := false
  m_topButton : Bool := false
  m_upButton : Bool := false
  m_downButton : Bool := false
  m_bottomButton : Bool := false

/-- The lists of `PluginConfigDialog`; a current list is given by its type. -/
structure PluginLists where
  available : PluginType → PluginsListWidget := fun _ => {}
  selected : PluginType → PluginsListWidget := fun _ => {}
  m_currentAvailableList : Option PluginType := none
  m_currentSelectedList : Option PluginType := none
  m_availSearchLineEdit : QString := []
  m_addButton : Bool := false
  toolbar : SelectedToolbar := {}
  m_applyButton : Bool := false
  /-- the plugins that `m_allConfigWidget` has loaded -/
  m_loadedPlugins : List PluginInfoPtr := []
  /-- an assertion has failed -/
  asserted : Bool := false

namespace PluginLists

/-! ### The clicks -/

def setAvailable (p : PluginLists) (type : PluginType) (w : PluginsListWidget) : PluginLists :=
  { p with available := Function.update p.available type w }

def setSelected (p : PluginLists) (type : PluginType) (w : PluginsListWidget) : PluginLists :=
  { p with selected := Function.update p.selected type w }

/-- The item of the current list of the selected plugins. -/
def currentSelectedRow (p : PluginLists) : Option ℕ :=
  p.m_currentSelectedList.bind fun type => (p.selected type).currentRow

def anySelected (p : PluginLists) : Bool :=
  decide (0 < (p.selected .Socket).count) || decide (0 < (p.selected .Filter).count) ||
    decide (0 < (p.selected .Protocol).count)

/-- The current item has a place above it, or below it. -/
def movesUp (p : PluginLists) : Bool := p.currentSelectedRow.any fun row => decide (0 < row)

def movesDown (p : PluginLists) : Bool :=
  p.m_currentSelectedList.any fun type =>
    (p.selected type).currentRow.any fun row => decide (row + 1 < (p.selected type).count)

def shownToolbar (p : PluginLists) : SelectedToolbar where
  m_saveButton := p.anySelected
  m_removeButton := p.currentSelectedRow.isSome
  m_clearButton := p.anySelected
  m_topButton := p.movesUp
  m_upButton := p.movesUp
  m_downButton := p.movesDown
  m_bottomButton := p.movesDown

def refreshSelectedToolbar (p : PluginLists) : PluginLists := { p with toolbar := p.shownToolbar }

def availValid (p : PluginLists) : Bool :=
  p.m_currentAvailableList.any fun type => (p.available type).currentRow.isSome

def refreshAvailableToolbar (p : PluginLists) : PluginLists :=
  { p with m_addButton := p.availValid }

def applyEnabled (p : PluginLists) : Bool :=
  decide (0 < (p.selected .Socket).count) && decide (0 < (p.selected .Protocol).count)

def refreshButtonBox (p : PluginLists) : PluginLists := { p with m_applyButton := p.applyEnabled }

section
variable (I : AvailablePlugins)

/-- The items of a list of available plugins. -/
def availableItems (p : PluginLists) (type : PluginType) : List PluginInfoPtr :=
  I.plugins.filter fun info =>
    decide (I.getType info = type) && I.found p.m_availSearchLineEdit info &&
      !(p.selected type).items.contains info

/-- Only filters are available beside a selected one. -/
def availableDisabled (p : PluginLists) (type : PluginType) : Bool :=
  decide (type ≠ .Filter) && decide (0 < (p.selected type).count)

/-- The plugin of the current item stays the current one if it is shown again. -/
def refreshList (p : PluginLists) (type : PluginType) : PluginsListWidget where
  items := p.availableItems I type
  currentRow :=
    (p.available type).currentItem.bind fun curInfo =>
      (p.availableItems I type).findIdx? fun info => info == curInfo
  disabled := p.availableDisabled type

def refreshAvailablePlugins (p : PluginLists) : PluginLists :=
  { p with available := p.refreshList I }

/-- The selected plugins are left: no item of them is the current one. -/
def leaveSelected (p : PluginLists) : PluginLists :=
  match p.m_currentSelectedList with
  | some type =>
      { (p.setSelected type ((p.selected type).setCurrentRow none)).refreshSelectedToolbar with
        m_currentSelectedList := none }
  | none => p

/-- What additions, removals and clearing end with. -/
def refreshLists (p : PluginLists) : PluginLists :=
  ((p.refreshAvailablePlugins I).refreshSelectedToolbar).refreshButtonBox

/-- `availPluginClicked`; `row` is the row of the item. -/
def availPluginClicked (p : PluginLists) (type : PluginType) (row : ℕ) : PluginLists :=
  let p := p.leaveSelected
  let p :=
    match p.m_currentAvailableList with
    | some availType =>
        if availType = type then p
        else p.setAvailable availType ((p.available availType).setCurrentRow none)
    | none => p
  let p := { p with m_currentAvailableList := some type }
  (p.setAvailable type ((p.available type).setCurrentRow (some row))).refreshAvailableToolbar

/-- The available plugins are left. -/
def leaveAvailable (p : PluginLists) : PluginLists :=
  match p.m_currentAvailableList with
  | some type =>
      { p.setAvailable type ((p.available type).setCurrentRow none) with
        m_currentAvailableList := none }.refreshAvailableToolbar
  | none => p

def selectedPluginClicked (p : PluginLists) (type : PluginType) (row : ℕ) : PluginLists :=
  let p := p.leaveAvailable
  let p :=
    match p.m_currentSelectedList with
    | some selType =>
        if selType = type then p
        else p.setSelected selType ((p.selected selType).setCurrentRow none)
    | none => p
  let p := { p with m_currentSelectedList := some type }
  (p.setSelected type ((p.selected type).setCurrentRow (some row))).refreshSelectedToolbar

/-- The plugin of the current item among the available ones. -/
def currentAvailable (p : PluginLists) : Option PluginInfoPtr :=
  p.m_currentAvailableList.bind fun type => (p.available type).currentItem

/-- The assertion of `m_allConfigWidget->addPluginConfig` is that it does not have the plugin. -/
def addPluginConfig (p : PluginLists) (info : PluginInfoPtr) : PluginLists :=
  if !I.loadPlugin info then p
  else if info ∈ p.m_loadedPlugins then { p with asserted := true }
  else { p with m_loadedPlugins := p.m_loadedPlugins ++ [info] }

def removePluginConfig (p : PluginLists) (info : PluginInfoPtr) : PluginLists :=
  { p with
    m_loadedPlugins :=
      if I.loadPlugin info then p.m_loadedPlugins.erase info else p.m_loadedPlugins }

/-- `getSelectedListForAvailable` is the list of the same type. -/
def addClicked (p : PluginLists) : PluginLists :=
  match p.m_currentAvailableList, p.currentAvailable with
  | some type, some info =>
      if !I.loadPlugin info then p
      else
        let p := p.setSelected type ((p.selected type).addItem info)
        let p := (p.selectedPluginClicked type ((p.selected type).count - 1)).refreshLists I
        p.addPluginConfig I info
  | _, _ => { p with asserted := true }

def refreshAvailable (p : PluginLists) : PluginLists :=
  (p.refreshAvailablePlugins I).refreshAvailableToolbar

def searchTextChanged (p : PluginLists) (text : QString) : PluginLists :=
  { p with m_availSearchLineEdit := text }.refreshAvailable I

/-- The lists of the selected plugins are filled, the configuration widgets are all removed. -/
def showSelected (p : PluginLists) (infos : List PluginInfoPtr) : PluginLists :=
  { p with
    m_currentSelectedList := none
    m_loadedPlugins := []
    selected := fun type =>
      { p.selected type with
        items := infos.filter fun info => decide (I.getType info = type)
        currentRow := none } }

def refreshSelectedPlugins (p : PluginLists) (infos : List PluginInfoPtr) : PluginLists :=
  infos.foldl (addPluginConfig I) (p.showSelected I infos)

/-- `refreshAll` with a list of plugins to be selected. -/
def refreshAll (p : PluginLists) (infos : List PluginInfoPtr) : PluginLists :=
  let p := (p.refreshSelectedPlugins I infos).refreshSelectedToolbar
  ((p.refreshAvailablePlugins I).refreshAvailableToolbar).refreshButtonBox

/-- No selected plugin is the current one. -/
def noneSelected (p : PluginLists) : Bool :=
  p.m_currentSelectedList.isNone && (p.selected .Socket).currentItem.isNone &&
    (p.selected .Filter).currentItem.isNone && (p.selected .Protocol).currentItem.isNone

/-- A file without plugins is refused. -/
def loadClicked (p : PluginLists) (loadedPlugins : List PluginInfoPtr) : PluginLists :=
  if loadedPlugins.isEmpty then p
  else
    let p := p.refreshAll I loadedPlugins
    if p.noneSelected then p else { p with asserted := true }

def removeClicked (p : PluginLists) : PluginLists :=
  match p.m_currentSelectedList with
  | none => { p with asserted := true }
  | some type =>
      match (p.selected type).currentItem with
      | none => { p with asserted := true }
      | some info =>
          let p := p.removePluginConfig I info
          let p := (p.setSelected type (p.selected type).deleteCurrentItem).refreshLists I
          match (p.selected type).currentRow with
          | none => { p with m_currentSelectedList := none }
          | some row => p.selectedPluginClicked type row

def clearClicked (p : PluginLists) : PluginLists :=
  let p :=
    { p with
      selected := fun type => { p.selected type with items := [], currentRow := none }
      m_loadedPlugins := []
      m_currentSelectedList := none }
  p.refreshLists I

end

/-- `moveSelectedPlugin` in the current list; a move of four has its own place to go, or none. -/
def moveClicked (place : ℕ → ℕ → Option ℕ) (p : PluginLists) : PluginLists :=
  match p.m_currentSelectedList with
  | none => { p with asserted := true }
  | some type =>
      match (p.selected type).currentRow with
      | none => { p with asserted := true }
      | some curRow =>
          match place curRow (p.selected type).count with
          | none => { p with asserted := true }
          | some toRow =>
              (p.setSelected type
                { p.selected type with
                  items := Moves.relocate (p.selected type).items curRow toRow
                  currentRow := some toRow }).refreshSelectedToolbar

def topClicked : PluginLists → PluginLists :=
  moveClicked fun curRow _ => if curRow ≤ 0 then none else some 0

def upClicked : PluginLists → PluginLists :=
  moveClicked fun curRow _ => if curRow ≤ 0 then none else some (curRow - 1)

def downClicked : PluginLists → PluginLists :=
  moveClicked fun curRow count => if count - 1 ≤ curRow then none else some (curRow + 1)

def bottomClicked : PluginLists → PluginLists :=
  moveClicked fun curRow count => if count - 1 ≤ curRow then none else some (count - 1)

/-- The clicks; a click on an item gives its row. -/
inductive Event where
  | availClicked (type : PluginType) (row : ℕ)
  | availDoubleClicked (type : PluginType) (row : ℕ)
  | selectedClicked (type : PluginType) (row : ℕ)
  | search (text : QString)
  | add
  | load (loadedPlugins : List PluginInfoPtr)
  | remove
  | clear
  | top
  | up
  | down
  | bottom

/-- The items of a disabled list cannot be clicked. -/
def clickable (w : PluginsListWidget) (row : ℕ) : Bool := !w.disabled && decide (row < w.count)

/-- A button that is disabled does nothing. -/
def step (I : AvailablePlugins) (p : PluginLists) : Event → PluginLists
  | .availClicked type row =>
      if clickable (p.available type) row then p.availPluginClicked type row else p
  | .availDoubleClicked type row =>
      if clickable (p.available type) row then (p.availPluginClicked type row).addClicked I else p
  | .selectedClicked type row =>
      if row < (p.selected type).count then p.selectedPluginClicked type row else p
  | .search text => p.searchTextChanged I text
  | .add => if p.m_addButton then p.addClicked I else p
  | .load loadedPlugins => p.loadClicked I loadedPlugins
  | .remove => if p.toolbar.m_removeButton then p.removeClicked I else p
  | .clear => if p.toolbar.m_clearButton then p.clearClicked I else p
  | .top => if p.toolbar.m_topButton then p.topClicked else p
  | .up => if p.toolbar.m_upButton then p.upClicked else p
  | .down => if p.toolbar.m_downButton then p.downClicked else p
  | .bottom => if p.toolbar.m_bottomButton then p.bottomClicked else p

/-! ### What every click keeps -/

/-- The current item of all lists. -/
structure Rows (p : PluginLists) : Prop where
  alone : p.m_currentAvailableList = none ∨ p.m_currentSelectedList = none
  available : ∀ type row, (p.available type).currentRow = some row →
    p.m_currentAvailableList = some type ∧ row < (p.available type).count
  selected : ∀ type row, (p.selected type).currentRow = some row →
    p.m_currentSelectedList = some type ∧ row < (p.selected type).count
  current : ∀ type, p.m_currentSelectedList = some type →
    (p.selected type).currentRow.isSome = true

/-- **The lists and the buttons agree.** -/
structure Inv (I : AvailablePlugins) (p : PluginLists) : Prop where
  rows : p.Rows
  items : ∀ type, (p.available type).items = p.availableItems I type
  disabled : ∀ type, (p.available type).disabled = p.availableDisabled type
  types : ∀ type, ∀ info ∈ (p.selected type).items, I.getType info = type
  addButton : p.m_addButton = p.availValid
  toolbar : p.toolbar = p.shownToolbar
  applyButton : p.m_applyButton = p.applyEnabled

variable {I : AvailablePlugins} {p : PluginLists} {type : PluginType} {row : ℕ}

theorem Rows.available_none (h : p.Rows) (hne : p.m_currentAvailableList ≠ some type) :
    (p.available type).currentRow = none := by
  cases hrow : (p.available type).currentRow with
  | none => rfl
  | some row => exact absurd (h.available type row hrow).1 hne

theorem Rows.selected_none (h : p.Rows) (hne : p.m_currentSelectedList ≠ some type) :
    (p.selected type).currentRow = none := by
  cases hrow : (p.selected type).currentRow with
  | none => rfl
  | some row => exact absurd (h.selected type row hrow).1 hne

/-- An item is shown as the current one of a list, and no other list has one. -/
def rowsAt (lists : PluginType → PluginsListWidget) (type : PluginType) (row : Option ℕ) :
    PluginType → PluginsListWidget :=
  fun type' => (lists type').setCurrentRow (if type' = type then row else none)

theorem rowsAt_of_none {lists : PluginType → PluginsListWidget} {type : PluginType}
    (hother : ∀ type', type' ≠ type → (lists type').currentRow = none) (row : Option ℕ) :
    Function.update lists type ((lists type).setCurrentRow row) = rowsAt lists type row := by
  funext type'
  by_cases h : type' = type
  · subst h
    rw [Function.update_self, rowsAt, if_pos rfl]
  · rw [Function.update_of_ne h, rowsAt, if_neg h]
    show lists type' = { lists type' with currentRow := none }
    rw [← hother type' h]

/-- No list has a current item. -/
def noRows (lists : PluginType → PluginsListWidget) : PluginType → PluginsListWidget :=
  fun type => (lists type).setCurrentRow none

theorem rowsAt_none (lists : PluginType → PluginsListWidget) (type : PluginType) :
    rowsAt lists type none = noRows lists := by
  funext type'
  rw [rowsAt, noRows, ite_self]

theorem noRows_of_none {lists : PluginType → PluginsListWidget}
    (h : ∀ type, (lists type).currentRow = none) : noRows lists = lists := by
  funext type
  show { lists type with currentRow := none } = lists type
  rw [← h type]

theorem rowsAt_noRows (lists : PluginType → PluginsListWidget) (type : PluginType)
    (row : Option ℕ) :
    Function.update (noRows lists) type ((noRows lists type).setCurrentRow row) =
      rowsAt lists type row :=
  rowsAt_of_none (fun _ _ => rfl) row

theorem clear_eq {lists : PluginType → PluginsListWidget} {type : PluginType}
    (hother : ∀ type', type' ≠ type → (lists type').currentRow = none) :
    Function.update lists type ((lists type).setCurrentRow none) = noRows lists := by
  rw [rowsAt_of_none hother, rowsAt_none]

/-- What a click on an item of the available plugins leaves. -/
def pickAvailable (p : PluginLists) (type : PluginType) (row : ℕ) : PluginLists :=
  ({ p with
    available := rowsAt p.available type (some row)
    selected := noRows p.selected
    m_currentAvailableList := some type
    m_currentSelectedList := none }.refreshSelectedToolbar).refreshAvailableToolbar

/-- What a click on an item of the selected plugins leaves. -/
def pickSelected (p : PluginLists) (type : PluginType) (row : ℕ) : PluginLists :=
  ({ p with
    available := noRows p.available
    selected := rowsAt p.selected type (some row)
    m_currentAvailableList := none
    m_currentSelectedList := some type }.refreshAvailableToolbar).refreshSelectedToolbar

theorem shownToolbar_of_none (h : p.currentSelectedRow = none) :
    p.shownToolbar = { m_saveButton := p.anySelected, m_clearButton := p.anySelected } := by
  have hdown : p.movesDown = false := by
    unfold movesDown
    unfold currentSelectedRow at h
    cases hcur : p.m_currentSelectedList with
    | none => rfl
    | some type =>
        have hrow : (p.selected type).currentRow = none := by rw [hcur] at h; exact h
        rw [Option.any_some, hrow, Option.any_none]
  rw [shownToolbar, movesUp, h, hdown]
  rfl

theorem Rows.available_clear (h : p.Rows) (hcur : p.m_currentAvailableList = some type) :
    Function.update p.available type ((p.available type).setCurrentRow none) =
      noRows p.available :=
  clear_eq fun _ hne => h.available_none fun e =>
    hne (Option.some.inj (e.symm.trans hcur))

theorem Rows.selected_clear (h : p.Rows) (hcur : p.m_currentSelectedList = some type) :
    Function.update p.selected type ((p.selected type).setCurrentRow none) = noRows p.selected :=
  clear_eq fun _ hne => h.selected_none fun e =>
    hne (Option.some.inj (e.symm.trans hcur))

theorem Rows.noRows_available (h : p.Rows) (hcur : p.m_currentAvailableList = none) :
    noRows p.available = p.available :=
  noRows_of_none fun type => h.available_none (by simp [hcur])

theorem Rows.noRows_selected (h : p.Rows) (hcur : p.m_currentSelectedList = none) :
    noRows p.selected = p.selected :=
  noRows_of_none fun type => h.selected_none (by simp [hcur])

theorem leaveSelected_eq (h : p.Rows) (htoolbar : p.toolbar = p.shownToolbar) :
    p.leaveSelected =
      { p with selected := noRows p.selected,
               m_currentSelectedList := none }.refreshSelectedToolbar := by
  unfold leaveSelected
  cases hcur : p.m_currentSelectedList with
  | none =>
      dsimp only
      rw [h.noRows_selected hcur, ← hcur]
      show p = { p with toolbar := p.shownToolbar }
      rw [← htoolbar]
  | some type =>
      dsimp only [setSelected, refreshSelectedToolbar]
      rw [h.selected_clear hcur, shownToolbar_of_none (by simp [currentSelectedRow, hcur, noRows,
        PluginsListWidget.setCurrentRow]), shownToolbar_of_none rfl]
      rfl

theorem leaveAvailable_eq (h : p.Rows) (hadd : p.m_addButton = p.availValid) :
    p.leaveAvailable =
      { p with available := noRows p.available,
               m_currentAvailableList := none }.refreshAvailableToolbar := by
  unfold leaveAvailable
  cases hcur : p.m_currentAvailableList with
  | none =>
      dsimp only
      rw [h.noRows_available hcur, ← hcur]
      show p = { p with m_addButton := p.availValid }
      rw [← hadd]
  | some type =>
      dsimp only [setAvailable]
      rw [h.available_clear hcur]

/-- A click on an available plugin takes the current item from wherever it is. -/
theorem availPluginClicked_eq (h : p.Rows) (htoolbar : p.toolbar = p.shownToolbar) :
    p.availPluginClicked type row = p.pickAvailable type row := by
  unfold availPluginClicked
  rw [leaveSelected_eq h htoolbar]
  cases hcur : p.m_currentAvailableList with
  | none =>
      have hrows := @rowsAt_of_none p.available type
        (fun type' _ => h.available_none (by simp [hcur])) (some row)
      dsimp only [refreshSelectedToolbar, setAvailable]
      rw [hrows]
      rfl
  | some availType =>
      dsimp only [refreshSelectedToolbar, setAvailable]
      split_ifs with htype
      · subst htype
        have hrows := @rowsAt_of_none p.available availType
          (fun type' hne => h.available_none (by simp [hcur, Ne.symm hne])) (some row)
        rw [hrows]
        rfl
      · rw [h.available_clear hcur, rowsAt_noRows]
        rfl

theorem selectedPluginClicked_eq (h : p.Rows) (hadd : p.m_addButton = p.availValid) :
    p.selectedPluginClicked type row = p.pickSelected type row := by
  unfold selectedPluginClicked
  rw [leaveAvailable_eq h hadd]
  cases hcur : p.m_currentSelectedList with
  | none =>
      have hrows := @rowsAt_of_none p.selected type
        (fun type' _ => h.selected_none (by simp [hcur])) (some row)
      dsimp only [refreshAvailableToolbar, setSelected]
      rw [hrows]
      rfl
  | some selType =>
      dsimp only [refreshAvailableToolbar, setSelected]
      split_ifs with htype
      · subst htype
        have hrows := @rowsAt_of_none p.selected selType
          (fun type' hne => h.selected_none (by simp [hcur, Ne.symm hne])) (some row)
        rw [hrows]
        rfl
      · rw [h.selected_clear hcur, rowsAt_noRows]
        rfl

/-! ### The current item -/

theorem Rows.pickAvailable (p : PluginLists) (hrow : row < (p.available type).count) :
    (p.pickAvailable type row).Rows where
  alone := .inr rfl
  available type' row' h := by
    have hat : (if type' = type then some row else none) = some row' := h
    split_ifs at hat with htype
    subst htype
    cases hat
    exact ⟨rfl, hrow⟩
  selected _ _ h := absurd h (Option.some_ne_none _).symm
  current _ h := absurd h (Option.some_ne_none _).symm

theorem Rows.pickSelected (p : PluginLists) (hrow : row < (p.selected type).count) :
    (p.pickSelected type row).Rows where
  alone := .inl rfl
  available _ _ h := absurd h (Option.some_ne_none _).symm
  selected type' row' h := by
    have hat : (if type' = type then some row else none) = some row' := h
    split_ifs at hat with htype
    subst htype
    cases hat
    exact ⟨rfl, hrow⟩
  current type' h := by
    obtain rfl : type = type' := Option.some.inj h
    show (if type = type then some row else none).isSome = true
    rw [if_pos rfl]
    rfl

theorem refreshList_row {row : ℕ} (h : (p.refreshList I type).currentRow = some row) :
    (∃ row', (p.available type).currentRow = some row') ∧ row < (p.refreshList I type).count := by
  obtain ⟨curInfo, hcur, hfind⟩ := Option.bind_eq_some_iff.mp h
  obtain ⟨row', hrow', -⟩ := Option.bind_eq_some_iff.mp hcur
  obtain ⟨hlt, -, -⟩ := List.findIdx?_eq_some_iff_getElem.mp hfind
  exact ⟨⟨row', hrow'⟩, hlt⟩

theorem Rows.refreshAvailablePlugins (h : p.Rows) : (p.refreshAvailablePlugins I).Rows where
  alone := h.alone
  available type row hrow := by
    obtain ⟨⟨row', hrow'⟩, hlt⟩ := refreshList_row hrow
    exact ⟨(h.available type row' hrow').1, hlt⟩
  selected := h.selected
  current := h.current

theorem mem_availableItems {info : PluginInfoPtr} : info ∈ p.availableItems I type ↔
    info ∈ I.plugins ∧ I.getType info = type ∧ I.found p.m_availSearchLineEdit info = true ∧
      info ∉ (p.selected type).items := by
  simp [availableItems, and_assoc]

/-! ### The clicks keep the invariant -/

theorem Inv.pickAvailable (h : p.Inv I) (hrow : row < (p.available type).count) :
    (p.pickAvailable type row).Inv I where
  rows := .pickAvailable p hrow
  items := h.items
  disabled := h.disabled
  types := h.types
  addButton := rfl
  toolbar := rfl
  applyButton := h.applyButton

theorem Inv.pickSelected (h : p.Inv I) (hrow : row < (p.selected type).count) :
    (p.pickSelected type row).Inv I where
  rows := .pickSelected p hrow
  items := h.items
  disabled := h.disabled
  types := h.types
  addButton := rfl
  toolbar := rfl
  applyButton := h.applyButton

theorem inv_refreshLists (hrows : p.Rows)
    (htypes : ∀ type, ∀ info ∈ (p.selected type).items, I.getType info = type)
    (hadd : p.m_addButton = (p.refreshAvailablePlugins I).availValid) :
    (p.refreshLists I).Inv I where
  rows :=
    have h := hrows.refreshAvailablePlugins (I := I)
    ⟨h.alone, h.available, h.selected, h.current⟩
  items _ := rfl
  disabled _ := rfl
  types := htypes
  addButton := hadd
  toolbar := rfl
  applyButton := rfl

/-- The lists and the buttons do not depend on the configuration widgets. -/
theorem Inv.withLoaded (h : p.Inv I) (loaded : List PluginInfoPtr) (failed : Bool) :
    { p with m_loadedPlugins := loaded, asserted := failed }.Inv I where
  rows := ⟨h.rows.alone, h.rows.available, h.rows.selected, h.rows.current⟩
  items := h.items
  disabled := h.disabled
  types := h.types
  addButton := h.addButton
  toolbar := h.toolbar
  applyButton := h.applyButton

/-- **Adding configuration widgets** fails an assertion exactly if a plugin is loaded twice. -/
theorem foldl_addPluginConfig (infos : List PluginInfoPtr) {p : PluginLists}
    (hnodup : p.m_loadedPlugins.Nodup) :
    ∃ loaded failed, infos.foldl (addPluginConfig I) p =
        { p with m_loadedPlugins := loaded, asserted := failed } ∧
      (failed = false ↔
        p.asserted = false ∧ (p.m_loadedPlugins ++ infos.filter I.loadPlugin).Nodup) ∧
      (failed = false → loaded = p.m_loadedPlugins ++ infos.filter I.loadPlugin) := by
  induction infos generalizing p with
  | nil =>
      refine ⟨p.m_loadedPlugins, p.asserted, rfl, ?_, fun _ => (List.append_nil _).symm⟩
      rw [List.filter_nil, List.append_nil]
      exact (and_iff_left hnodup).symm
  | cons info infos ih =>
      rw [List.foldl_cons]
      cases hload : I.loadPlugin info with
      | false =>
          have hadd : p.addPluginConfig I info = p := by
            rw [addPluginConfig, hload, Bool.not_false, if_pos rfl]
          rw [hadd, List.filter_cons_of_neg (by simp [hload])]
          exact ih hnodup
      | true =>
          rw [addPluginConfig, hload, Bool.not_true, if_neg Bool.false_ne_true,
            List.filter_cons_of_pos hload]
          by_cases hmem : info ∈ p.m_loadedPlugins
          · rw [if_pos hmem]
            obtain ⟨loaded, failed, heq, hiff, -⟩ := ih (p := { p with asserted := true }) hnodup
            have hfailed : failed ≠ false := fun h => Bool.false_ne_true (hiff.mp h).1.symm
            refine ⟨loaded, failed, heq, iff_of_false hfailed fun h => ?_,
              fun h => absurd h hfailed⟩
            exact (List.nodup_append'.mp h.2).2.2 hmem List.mem_cons_self
          · rw [if_neg hmem]
            have hnodup' : (p.m_loadedPlugins ++ [info]).Nodup :=
              List.nodup_append'.mpr ⟨hnodup, List.nodup_singleton _, by simpa using hmem⟩
            obtain ⟨loaded, failed, heq, hiff, hloaded⟩ :=
              ih (p := { p with m_loadedPlugins := p.m_loadedPlugins ++ [info] }) hnodup'
            rw [← List.append_cons] at hiff hloaded
            exact ⟨loaded, failed, heq, hiff, hloaded⟩

/-- The same for a single plugin, which changes nothing else. -/
theorem addPluginConfig_eq (p : PluginLists) (info : PluginInfoPtr) : ∃ loaded failed,
    p.addPluginConfig I info = { p with m_loadedPlugins := loaded, asserted := failed } := by
  unfold addPluginConfig
  split_ifs
  · exact ⟨_, _, rfl⟩
  · exact ⟨_, _, rfl⟩
  · exact ⟨_, _, rfl⟩

theorem availValid_of_none (h : p.m_currentAvailableList = none) : p.availValid = false := by
  rw [availValid, h, Option.any_none]

theorem mem_available_of_current (h : p.Inv I) {info : PluginInfoPtr}
    (hcur : (p.available type).currentItem = some info) : info ∈ p.availableItems I type := by
  obtain ⟨row, -, hitem⟩ := Option.bind_eq_some_iff.mp hcur
  rw [← h.items type]
  exact List.mem_of_getElem? hitem

theorem setSelected_self (w : PluginsListWidget) : (p.setSelected type w).selected type = w :=
  Function.update_self _ _ _

theorem setSelected_of_ne {type' : PluginType} (h : type' ≠ type) (w : PluginsListWidget) :
    (p.setSelected type w).selected type' = p.selected type' :=
  Function.update_of_ne h _ _

/-- The plugins of a list that changes have its type. -/
theorem Inv.types_setSelected (h : p.Inv I) {w : PluginsListWidget}
    (hw : ∀ info ∈ w.items, I.getType info = type) :
    ∀ type', ∀ info ∈ ((p.setSelected type w).selected type').items, I.getType info = type' := by
  intro type' info hinfo
  by_cases htype : type' = type
  · subst htype
    rw [setSelected_self] at hinfo
    exact hw info hinfo
  · rw [setSelected_of_ne htype] at hinfo
    exact h.types _ info hinfo

/-- A plugin that is added lies behind those of its type, no selected item being the current
one. -/
theorem Inv.rows_added (h : p.Inv I) (hsel : p.m_currentSelectedList = none)
    (info : PluginInfoPtr) : (p.setSelected type ((p.selected type).addItem info)).Rows := by
  have hnorow (type' : PluginType) :
      ((p.setSelected type ((p.selected type).addItem info)).selected type').currentRow = none := by
    have hnone (type' : PluginType) : (p.selected type').currentRow = none :=
      h.rows.selected_none (by simp [hsel])
    by_cases htype : type' = type
    · rw [htype, setSelected_self]
      exact hnone type
    · rw [setSelected_of_ne htype]
      exact hnone type'
  exact
    { alone := .inr hsel
      available := h.rows.available
      selected := fun type' row' hrow' => by rw [hnorow] at hrow'; cases hrow'
      current := fun type' h' => absurd (hsel.symm.trans h') (by simp) }

theorem Inv.selected_none (h : p.Inv I) (hcur : p.m_currentAvailableList = some type) :
    p.m_currentSelectedList = none := by
  rcases h.rows.alone with hnone | hnone
  · rw [hcur] at hnone
    cases hnone
  · exact hnone

/-- The current item of the available plugins is added, in a list of its type. -/
theorem Inv.addClicked_eq (h : p.Inv I) {info : PluginInfoPtr}
    (hcur : p.m_currentAvailableList = some type)
    (hitem : (p.available type).currentItem = some info) (hload : I.loadPlugin info = true) :
    p.addClicked I =
      addPluginConfig I
        (((p.setSelected type ((p.selected type).addItem info)).pickSelected type
          (p.selected type).count).refreshLists I) info := by
  have hcurrent : p.currentAvailable = some info := by
    rw [currentAvailable, hcur, Option.bind_some, hitem]
  have hcount : ((p.setSelected type ((p.selected type).addItem info)).selected type).count - 1 =
      (p.selected type).count := by
    simp [setSelected, PluginsListWidget.addItem, PluginsListWidget.count]
  unfold PluginLists.addClicked
  rw [hcur, hcurrent]
  dsimp only
  rw [hload, Bool.not_true, if_neg (by decide), hcount,
    selectedPluginClicked_eq (h.rows_added (h.selected_none hcur) info) h.addButton]

theorem addClicked_of_not_loaded {info : PluginInfoPtr}
    (hcur : p.m_currentAvailableList = some type)
    (hitem : (p.available type).currentItem = some info) (hload : I.loadPlugin info = false) :
    p.addClicked I = p := by
  have hcurrent : p.currentAvailable = some info := by
    rw [currentAvailable, hcur, Option.bind_some, hitem]
  unfold PluginLists.addClicked
  rw [hcur, hcurrent]
  dsimp only
  rw [hload, Bool.not_false, if_pos rfl]

theorem availValid_eq_true (h : p.availValid = true) : ∃ type row,
    p.m_currentAvailableList = some type ∧ (p.available type).currentRow = some row := by
  unfold availValid at h
  cases hcur : p.m_currentAvailableList with
  | none => rw [hcur] at h; cases h
  | some type =>
      rw [hcur, Option.any_some] at h
      obtain ⟨row, hrow⟩ := Option.isSome_iff_exists.mp h
      exact ⟨type, row, rfl, hrow⟩

/-- The item that the assertions of `addClicked` ask for. -/
theorem Inv.current_available (h : p.Inv I) (hvalid : p.availValid = true) : ∃ type info,
    p.m_currentAvailableList = some type ∧ (p.available type).currentItem = some info := by
  obtain ⟨type, row, hcur, hrow⟩ := availValid_eq_true hvalid
  obtain ⟨-, hlt⟩ := h.rows.available type row hrow
  refine ⟨type, (p.available type).items[row], hcur, ?_⟩
  rw [PluginsListWidget.currentItem, hrow, Option.bind_some, List.getElem?_eq_getElem hlt]

theorem Inv.addClicked (h : p.Inv I) (hvalid : p.availValid = true) : (p.addClicked I).Inv I := by
  obtain ⟨type, info, hcur, hitem⟩ := h.current_available hvalid
  cases hload : I.loadPlugin info with
  | false =>
      rw [addClicked_of_not_loaded hcur hitem hload]
      exact h
  | true =>
      have hcount : (p.selected type).count <
          ((p.setSelected type ((p.selected type).addItem info)).selected type).count := by
        simp [setSelected, PluginsListWidget.addItem, PluginsListWidget.count]
      have htypes := h.types_setSelected (w := (p.selected type).addItem info) fun i hi => by
        rcases List.mem_append.mp hi with hold | hnew
        · exact h.types _ i hold
        · rw [List.mem_singleton.mp hnew]
          exact (mem_availableItems.mp (mem_available_of_current h hitem)).2.1
      rw [h.addClicked_eq hcur hitem hload]
      obtain ⟨loaded, failed, heq⟩ := addPluginConfig_eq (I := I) (((p.setSelected type
        ((p.selected type).addItem info)).pickSelected type (p.selected type).count).refreshLists I)
        info
      rw [heq]
      exact (inv_refreshLists (.pickSelected _ hcount) htypes rfl).withLoaded loaded failed

theorem deleteCurrentItem_eq {w : PluginsListWidget} (h : w.currentRow = some row) :
    w.deleteCurrentItem.items = w.items.eraseIdx row ∧
      ∀ row', w.deleteCurrentItem.currentRow = some row' → row' < w.deleteCurrentItem.count := by
  unfold PluginsListWidget.deleteCurrentItem PluginsListWidget.count
  rw [h]
  refine ⟨rfl, fun row' hrow' => ?_⟩
  dsimp only at hrow' ⊢
  split_ifs at hrow' with hlt hempty
  · cases hrow'
    exact hlt
  · cases hrow'
    have hne : (w.items.eraseIdx row).length ≠ 0 := fun h0 =>
      hempty (List.isEmpty_iff.mpr (List.length_eq_zero_iff.mp h0))
    omega

/-- A list of the selected plugins changes, and its current item with it. -/
theorem Inv.rows_setSelected (h : p.Inv I) (hcur : p.m_currentSelectedList = some type)
    {w : PluginsListWidget} (hrow : w.currentRow = some row) (hlt : row < w.count) :
    (p.setSelected type w).Rows where
  alone := h.rows.alone
  available := h.rows.available
  selected type' row' hrow' := by
    by_cases htype : type' = type
    · subst htype
      rw [setSelected_self] at hrow' ⊢
      cases hrow.symm.trans hrow'
      exact ⟨hcur, hlt⟩
    · rw [setSelected_of_ne htype] at hrow' ⊢
      exact h.rows.selected _ _ hrow'
  current type' h' := by
    obtain rfl : type = type' := Option.some.inj (hcur.symm.trans h')
    rw [setSelected_self, hrow]
    rfl

theorem currentSelectedRow_eq_some (h : p.currentSelectedRow = some row) : ∃ type,
    p.m_currentSelectedList = some type ∧ (p.selected type).currentRow = some row :=
  Option.bind_eq_some_iff.mp h

theorem Inv.available_none (h : p.Inv I) (hcur : p.m_currentSelectedList = some type) :
    p.m_currentAvailableList = none := by
  rcases h.rows.alone with hnone | hnone
  · exact hnone
  · rw [hcur] at hnone
    cases hnone

theorem Inv.removeClicked (h : p.Inv I) (hcurrent : p.currentSelectedRow.isSome = true) :
    (p.removeClicked I).Inv I := by
  obtain ⟨row, hrow⟩ := Option.isSome_iff_exists.mp hcurrent
  obtain ⟨type, hcur, hrow⟩ := currentSelectedRow_eq_some hrow
  obtain ⟨-, hlt⟩ := h.rows.selected type row hrow
  obtain ⟨hitems, hvalid⟩ := deleteCurrentItem_eq hrow
  have hav := h.available_none hcur
  have hitem : (p.selected type).currentItem = some (p.selected type).items[row] := by
    rw [PluginsListWidget.currentItem, hrow, Option.bind_some, List.getElem?_eq_getElem hlt]
  have hremoved : (p.removePluginConfig I (p.selected type).items[row]).Inv I := h.withLoaded _ _
  set left := (p.removePluginConfig I (p.selected type).items[row]).setSelected type
    (p.selected type).deleteCurrentItem with hleft
  have hself : left.selected type = (p.selected type).deleteCurrentItem := setSelected_self _
  have htypes : ∀ type', ∀ info ∈ (left.selected type').items, I.getType info = type' := by
    refine hremoved.types_setSelected fun info hinfo => h.types type info ?_
    rw [hitems] at hinfo
    exact (List.eraseIdx_sublist _ _).subset hinfo
  have hadd : left.m_addButton = (left.refreshAvailablePlugins I).availValid := by
    rw [availValid_of_none (show (left.refreshAvailablePlugins I).m_currentAvailableList = none from
      hav)]
    exact h.addButton.trans (availValid_of_none hav)
  unfold PluginLists.removeClicked
  rw [hcur]
  dsimp only
  rw [hitem]
  show Inv I (match ((left.refreshLists I).selected type).currentRow with
    | none => { left.refreshLists I with m_currentSelectedList := none }
    | some row => (left.refreshLists I).selectedPluginClicked type row)
  have hsel : ((left.refreshLists I).selected type).currentRow =
      (left.selected type).currentRow := rfl
  rw [hsel]
  cases hnext : (left.selected type).currentRow with
  | none =>
      have hnone (type' : PluginType) : (left.selected type').currentRow = none := by
        by_cases htype : type' = type
        · rw [htype, hnext]
        · rw [hleft, setSelected_of_ne htype]
          exact h.rows.selected_none fun e => htype (Option.some.inj (e.symm.trans hcur))
      have hrows : { left with m_currentSelectedList := none }.Rows :=
        { alone := .inr rfl
          available := h.rows.available
          selected := fun type' row' hrow' => by
            have hrow'' : (left.selected type').currentRow = some row' := hrow'
            rw [hnone] at hrow''
            cases hrow''
          current := fun type' h' => absurd h' (Option.some_ne_none _).symm }
      have hbar : left.shownToolbar = { left with m_currentSelectedList := none }.shownToolbar := by
        rw [shownToolbar_of_none (p := left) (by
          rw [currentSelectedRow, show left.m_currentSelectedList = some type from hcur,
            Option.bind_some, hnext]), shownToolbar_of_none rfl]
        rfl
      have hinv := inv_refreshLists (I := I) hrows htypes hadd
      have hsame : { left.refreshLists I with m_currentSelectedList := none } =
          { left with m_currentSelectedList := none }.refreshLists I := by
        show ({ left.refreshLists I with
          m_currentSelectedList := none, toolbar := left.shownToolbar } : PluginLists) = _
        rw [hbar]
        rfl
      dsimp only
      rw [hsame]
      exact hinv
  | some next =>
      have hrows : left.Rows :=
        hremoved.rows_setSelected hcur (hself ▸ hnext) (hvalid next (hself ▸ hnext))
      have hinv := inv_refreshLists (I := I) hrows htypes hadd
      dsimp only
      rw [selectedPluginClicked_eq hinv.rows hinv.addButton]
      refine hinv.pickSelected ?_
      show next < (left.selected type).count
      rw [hself]
      exact hvalid next (hself ▸ hnext)

/-- A plugin that stays among the available ones stays the current one. -/
theorem refreshList_isSome {p' : PluginLists} (h : p.Inv I)
    (hav : p'.available = p.available)
    (hitems : ∀ type, p.availableItems I type ⊆ p'.availableItems I type) :
    ((p'.refreshList I type).currentRow).isSome = ((p.available type).currentRow).isSome := by
  cases hrow : (p.available type).currentRow with
  | none =>
      have hcur : (p'.available type).currentItem = none := by
        rw [hav, PluginsListWidget.currentItem, hrow, Option.bind_none]
      rw [refreshList, hcur]
      rfl
  | some row =>
      obtain ⟨-, hlt⟩ := h.rows.available type row hrow
      have hcur : (p'.available type).currentItem = some (p.available type).items[row] := by
        rw [hav, PluginsListWidget.currentItem, hrow, Option.bind_some,
          List.getElem?_eq_getElem hlt]
      have hmem : (p.available type).items[row] ∈ p'.availableItems I type := by
        refine hitems type ?_
        rw [← h.items type]
        exact List.getElem_mem hlt
      rw [refreshList, hcur]
      show ((p'.availableItems I type).findIdx? fun info =>
        info == (p.available type).items[row]).isSome = true
      rw [List.findIdx?_isSome, List.any_eq_true]
      exact ⟨_, hmem, beq_self_eq_true _⟩

theorem Inv.clearClicked (h : p.Inv I) : (p.clearClicked I).Inv I := by
  set cleared : PluginLists :=
    { p with
      selected := fun type => { p.selected type with items := [], currentRow := none }
      m_loadedPlugins := []
      m_currentSelectedList := none } with hcleared
  have hrows : cleared.Rows :=
    { alone := .inr rfl
      available := h.rows.available
      selected := fun _ _ h' => absurd h' (Option.some_ne_none _).symm
      current := fun _ h' => absurd h' (Option.some_ne_none _).symm }
  have hitems (type : PluginType) : p.availableItems I type ⊆ cleared.availableItems I type := by
    intro info hinfo
    obtain ⟨hplugin, htype, hfound, -⟩ := mem_availableItems.mp hinfo
    exact mem_availableItems.mpr ⟨hplugin, htype, hfound, List.not_mem_nil⟩
  have hvalid : (cleared.refreshAvailablePlugins I).availValid = p.availValid := by
    show (p.m_currentAvailableList.any fun type =>
      (cleared.refreshList I type).currentRow.isSome) = _
    unfold availValid
    congr 1
    funext type
    exact refreshList_isSome h rfl hitems
  exact inv_refreshLists hrows (fun _ _ h' => absurd h' List.not_mem_nil)
    (h.addButton.trans hvalid.symm)

/-- The configuration widgets of a list of plugins are made after its items. -/
theorem refreshAll_eq (p : PluginLists) (infos : List PluginInfoPtr) : ∃ loaded failed,
    p.refreshAll I infos =
      { ({ p.showSelected I infos with
          m_addButton := ((p.showSelected I infos).refreshAvailablePlugins I).availValid }
          ).refreshLists I with
        m_loadedPlugins := loaded
        asserted := failed } ∧
      (failed = false ↔ p.asserted = false ∧ (infos.filter I.loadPlugin).Nodup) ∧
      (failed = false → loaded = infos.filter I.loadPlugin) := by
  obtain ⟨loaded, failed, heq, hiff, hloaded⟩ := foldl_addPluginConfig (I := I) infos
    (p := p.showSelected I infos) List.nodup_nil
  refine ⟨loaded, failed, ?_, hiff, hloaded⟩
  unfold refreshAll refreshSelectedPlugins
  rw [heq]
  rfl

theorem inv_refreshAll (hrows : p.Rows) (infos : List PluginInfoPtr) :
    (p.refreshAll I infos).Inv I := by
  obtain ⟨loaded, failed, heq, -⟩ := refreshAll_eq (I := I) p infos
  have htypes : ∀ type, ∀ info ∈ ((p.showSelected I infos).selected type).items,
      I.getType info = type := by
    intro type info hinfo
    exact of_decide_eq_true (List.mem_filter.mp hinfo).2
  have hrows' : { p.showSelected I infos with
      m_addButton := ((p.showSelected I infos).refreshAvailablePlugins I).availValid }.Rows :=
    { alone := .inr rfl
      available := hrows.available
      selected := fun _ _ h' => absurd h' (Option.some_ne_none _).symm
      current := fun _ h' => absurd h' (Option.some_ne_none _).symm }
  rw [heq]
  exact (inv_refreshLists hrows' htypes rfl).withLoaded loaded failed

/-- The assertions at the end of `loadClicked` hold. -/
theorem loadClicked_eq (p : PluginLists) {loadedPlugins : List PluginInfoPtr}
    (h : loadedPlugins.isEmpty = false) :
    p.loadClicked I loadedPlugins = p.refreshAll I loadedPlugins := by
  have hnone : (p.refreshAll I loadedPlugins).noneSelected = true := by
    obtain ⟨loaded, failed, heq, -⟩ := refreshAll_eq (I := I) p loadedPlugins
    rw [heq]
    rfl
  unfold PluginLists.loadClicked
  rw [h, if_neg Bool.false_ne_true]
  dsimp only
  rw [hnone, if_pos rfl]

theorem Inv.loadClicked (h : p.Inv I) (loadedPlugins : List PluginInfoPtr) :
    (p.loadClicked I loadedPlugins).Inv I := by
  cases hempty : loadedPlugins.isEmpty with
  | true =>
      unfold PluginLists.loadClicked
      rw [hempty, if_pos rfl]
      exact h
  | false =>
      rw [loadClicked_eq p hempty]
      exact inv_refreshAll h.rows loadedPlugins

theorem Inv.searchTextChanged (h : p.Inv I) (text : QString) : (p.searchTextChanged I text).Inv I :=
  have hrows : { p with m_availSearchLineEdit := text }.Rows :=
    ⟨h.rows.alone, h.rows.available, h.rows.selected, h.rows.current⟩
  have hafter := hrows.refreshAvailablePlugins (I := I)
  { rows := ⟨hafter.alone, hafter.available, hafter.selected, hafter.current⟩
    items := fun _ => rfl
    disabled := fun _ => rfl
    types := h.types
    addButton := rfl
    toolbar := h.toolbar
    applyButton := h.applyButton }

/-- A move of the current item to a place of the list. -/
theorem Inv.moveClicked (h : p.Inv I) {place : ℕ → ℕ → Option ℕ}
    (hplace : ∀ type row, p.m_currentSelectedList = some type →
      (p.selected type).currentRow = some row →
        ∃ toRow, place row (p.selected type).count = some toRow ∧ toRow < (p.selected type).count)
    (hcurrent : p.currentSelectedRow.isSome = true) : (p.moveClicked place).Inv I := by
  obtain ⟨row, hrow⟩ := Option.isSome_iff_exists.mp hcurrent
  obtain ⟨type, hcur, hrow⟩ := currentSelectedRow_eq_some hrow
  obtain ⟨toRow, hto, hlt⟩ := hplace type row hcur hrow
  have hperm : (Moves.relocate (p.selected type).items row toRow).Perm (p.selected type).items :=
    Moves.relocate_perm hlt
  unfold PluginLists.moveClicked
  rw [hcur]
  dsimp only
  rw [hrow]
  dsimp only
  rw [hto]
  dsimp only
  set moved := p.setSelected type
    { p.selected type with
      items := Moves.relocate (p.selected type).items row toRow
      currentRow := some toRow } with hmoved
  have hitems (type' : PluginType) :
      (moved.selected type').items.Perm (p.selected type').items := by
    by_cases htype : type' = type
    · rw [htype, hmoved, setSelected_self]
      exact hperm
    · rw [hmoved, setSelected_of_ne htype]
  have hcount (type' : PluginType) : (moved.selected type').count = (p.selected type').count :=
    (hitems type').length_eq
  have hrows : moved.Rows := h.rows_setSelected hcur rfl (hlt.trans_eq hperm.length_eq.symm)
  have havail (type' : PluginType) : moved.availableItems I type' = p.availableItems I type' := by
    unfold availableItems
    congr 1
    funext info
    rw [show (moved.selected type').items.contains info =
      (p.selected type').items.contains info from
      (hitems type').contains_eq]
    rfl
  have hdisabled (type' : PluginType) :
      moved.availableDisabled type' = p.availableDisabled type' := by
    rw [availableDisabled, availableDisabled, hcount]
  exact
    { rows := ⟨hrows.alone, hrows.available, hrows.selected, hrows.current⟩
      items := fun type' => (h.items type').trans (havail type').symm
      disabled := fun type' => (h.disabled type').trans (hdisabled type').symm
      types := fun type' info hinfo => h.types type' info ((hitems type').subset hinfo)
      addButton := h.addButton
      toolbar := rfl
      applyButton := by
        show p.m_applyButton = moved.applyEnabled
        rw [applyEnabled, hcount, hcount]
        exact h.applyButton }

theorem movesUp_eq_true (h : p.movesUp = true) : p.currentSelectedRow.isSome = true ∧
    ∀ row, p.currentSelectedRow = some row → 0 < row := by
  unfold movesUp at h
  cases hrow : p.currentSelectedRow with
  | none => rw [hrow] at h; cases h
  | some row =>
      rw [hrow, Option.any_some] at h
      exact ⟨rfl, fun row' hrow' => Option.some.inj hrow' ▸ of_decide_eq_true h⟩

theorem movesDown_eq_true (h : p.movesDown = true) : p.currentSelectedRow.isSome = true ∧
    ∀ type row, p.m_currentSelectedList = some type → (p.selected type).currentRow = some row →
      row + 1 < (p.selected type).count := by
  unfold movesDown at h
  cases hcur : p.m_currentSelectedList with
  | none => rw [hcur] at h; cases h
  | some type =>
      rw [hcur, Option.any_some] at h
      cases hrow : (p.selected type).currentRow with
      | none => rw [hrow] at h; cases h
      | some row =>
          rw [hrow, Option.any_some] at h
          refine ⟨by rw [currentSelectedRow, hcur, Option.bind_some, hrow]; rfl, ?_⟩
          intro type' row' htype hrow'
          obtain rfl := Option.some.inj htype
          obtain rfl := Option.some.inj (hrow.symm.trans hrow')
          exact of_decide_eq_true h

/-- The place above is one of the list. -/
theorem Inv.up_place (h : p.Inv I) (hup : p.movesUp = true) {place : ℕ → ℕ}
    (hplace : ∀ row, place row ≤ row) (type : PluginType) (row : ℕ)
    (hcur : p.m_currentSelectedList = some type) (hrow : (p.selected type).currentRow = some row) :
    ∃ toRow, (if row ≤ 0 then none else some (place row)) = some toRow ∧
      toRow < (p.selected type).count := by
  have hpos : 0 < row := (movesUp_eq_true hup).2 row (by
    rw [currentSelectedRow, hcur, Option.bind_some, hrow])
  refine ⟨place row, if_neg (by omega), ?_⟩
  exact (hplace row).trans_lt (h.rows.selected type row hrow).2

/-- The place below is one of the list. -/
theorem down_place (hdown : p.movesDown = true) {place : ℕ → ℕ → ℕ}
    (hplace : ∀ row count, row + 1 < count → place row count < count) (type : PluginType) (row : ℕ)
    (hcur : p.m_currentSelectedList = some type) (hrow : (p.selected type).currentRow = some row) :
    ∃ toRow, (if (p.selected type).count - 1 ≤ row then none
        else some (place row (p.selected type).count)) = some toRow ∧
      toRow < (p.selected type).count := by
  have hlt := (movesDown_eq_true hdown).2 type row hcur hrow
  exact ⟨_, if_neg (by omega), hplace row _ hlt⟩

/-- A click that has no effect under some condition. -/
theorem Inv.guarded (h : p.Inv I) {enabled : Prop} [Decidable enabled] {p' : PluginLists}
    (h' : enabled → p'.Inv I) : (if enabled then p' else p).Inv I := by
  split_ifs with henabled
  · exact h' henabled
  · exact h

/-- **Every click** keeps the lists and the buttons in agreement. -/
theorem Inv.step (h : p.Inv I) (e : Event) : (p.step I e).Inv I := by
  cases e with
  | availClicked type row =>
      refine h.guarded fun hclick => ?_
      rw [availPluginClicked_eq h.rows h.toolbar]
      exact h.pickAvailable (of_decide_eq_true (Bool.and_eq_true_iff.mp hclick).2)
  | availDoubleClicked type row =>
      refine h.guarded fun hclick => ?_
      rw [availPluginClicked_eq h.rows h.toolbar]
      refine (h.pickAvailable (of_decide_eq_true (Bool.and_eq_true_iff.mp hclick).2)).addClicked ?_
      show (if type = type then some row else none).isSome = true
      rw [if_pos rfl]
      rfl
  | selectedClicked type row =>
      refine h.guarded fun hrow => ?_
      rw [selectedPluginClicked_eq h.rows h.addButton]
      exact h.pickSelected hrow
  | search text => exact h.searchTextChanged text
  | add =>
      refine h.guarded fun hbutton => ?_
      exact h.addClicked (h.addButton ▸ hbutton)
  | load loadedPlugins => exact h.loadClicked loadedPlugins
  | remove =>
      refine h.guarded fun hbutton => ?_
      rw [h.toolbar] at hbutton
      exact h.removeClicked hbutton
  | clear => exact h.guarded fun _ => h.clearClicked
  | top =>
      refine h.guarded fun hbutton => ?_
      rw [h.toolbar] at hbutton
      exact h.moveClicked (h.up_place hbutton fun _ => Nat.zero_le _) (movesUp_eq_true hbutton).1
  | up =>
      refine h.guarded fun hbutton => ?_
      rw [h.toolbar] at hbutton
      exact h.moveClicked (h.up_place hbutton fun _ => Nat.sub_le _ _) (movesUp_eq_true hbutton).1
  | down =>
      refine h.guarded fun hbutton => ?_
      rw [h.toolbar] at hbutton
      exact h.moveClicked (down_place hbutton fun _ _ hlt => hlt) (movesDown_eq_true hbutton).1
  | bottom =>
      refine h.guarded fun hbutton => ?_
      rw [h.toolbar] at hbutton
      have hlast : ∀ row count : ℕ, row + 1 < count → count - 1 < count := by omega
      exact h.moveClicked (down_place hbutton hlast) (movesDown_eq_true hbutton).1

/-! ### Assertions -/

/-- A list that does not name a plugin that loads twice. -/
def NamesOnce (I : AvailablePlugins) (infos : List PluginInfoPtr) : Prop :=
  (infos.filter I.loadPlugin).Nodup

/-- The files that are loaded name no plugin twice. -/
def LoadsOnce (I : AvailablePlugins) : Event → Prop
  | .load loadedPlugins => NamesOnce I loadedPlugins
  | _ => True

/-- `m_allConfigWidget` has loaded the selected plugins, each of them once. -/
structure Counted (I : AvailablePlugins) (p : PluginLists) : Prop where
  nodup : p.m_loadedPlugins.Nodup
  count : ∀ info, p.m_loadedPlugins.count info =
    if I.loadPlugin info then (p.selected (I.getType info)).items.count info else 0

/-- Between two states an assertion fails unless a condition is met, and while none has failed the
configuration widgets follow the selected plugins. -/
structure SafeUnder (I : AvailablePlugins) (p p' : PluginLists) (K : Prop) : Prop where
  asserted : p'.asserted = false ↔ p.asserted = false ∧ K
  counted : p'.asserted = false → p'.Counted I

/-- Plugins that change their places only. -/
theorem safeUnder_of_perm {p' : PluginLists} (hc : p.asserted = false → p.Counted I)
    (hasserted : p'.asserted = p.asserted) (hloaded : p'.m_loadedPlugins = p.m_loadedPlugins)
    (hitems : ∀ type, (p'.selected type).items.Perm (p.selected type).items) :
    SafeUnder I p p' True where
  asserted := by rw [hasserted, and_true]
  counted h := by
    obtain ⟨hnodup, hcount⟩ := hc (hasserted ▸ h)
    refine ⟨hloaded ▸ hnodup, fun info => ?_⟩
    rw [hloaded, hcount, (hitems _).count_eq]

theorem SafeUnder.refl (hc : p.asserted = false → p.Counted I) : SafeUnder I p p True :=
  safeUnder_of_perm hc rfl rfl fun _ => .refl _

theorem SafeUnder.guarded (hc : p.asserted = false → p.Counted I) {enabled : Prop}
    [Decidable enabled] {p' : PluginLists} (h' : enabled → SafeUnder I p p' True) :
    SafeUnder I p (if enabled then p' else p) True := by
  split_ifs with henabled
  · exact h' henabled
  · exact .refl hc

/-- A plugin that is added behind those of its type has no configuration widget yet. -/
theorem addPluginConfig_safe {q : PluginLists} {info : PluginInfoPtr}
    (hc : p.asserted = false → p.Counted I) (hasserted : q.asserted = p.asserted)
    (hloaded : q.m_loadedPlugins = p.m_loadedPlugins) (hload : I.loadPlugin info = true)
    (hnot : info ∉ (p.selected (I.getType info)).items)
    (hself : (q.selected (I.getType info)).items = (p.selected (I.getType info)).items ++ [info])
    (hother : ∀ type, type ≠ I.getType info → (q.selected type).items = (p.selected type).items) :
    SafeUnder I p (q.addPluginConfig I info) True := by
  rw [addPluginConfig, hload, Bool.not_true, if_neg Bool.false_ne_true, hloaded]
  cases hp : p.asserted with
  | true =>
      have hfails {p' : PluginLists} (hp' : p'.asserted = true) : SafeUnder I p p' True := by
        refine ⟨?_, fun h0 => absurd (hp'.symm.trans h0) (by decide)⟩
        rw [hp', hp, and_true]
      split_ifs
      · exact hfails rfl
      · exact hfails (hasserted.trans hp)
  | false =>
      obtain ⟨hnodup, hcount⟩ := hc hp
      have hnew : info ∉ p.m_loadedPlugins := by
        rw [← List.count_eq_zero, hcount, hload, if_pos rfl]
        exact List.count_eq_zero.mpr hnot
      rw [if_neg hnew]
      refine ⟨iff_of_true (hasserted.trans hp) ⟨hp, trivial⟩, fun _ => ⟨?_, fun other => ?_⟩⟩
      · exact List.nodup_append'.mpr ⟨hnodup, List.nodup_singleton _, by simpa using hnew⟩
      · show (p.m_loadedPlugins ++ [info]).count other =
          if I.loadPlugin other then (q.selected (I.getType other)).items.count other else 0
        rw [List.count_append, hcount]
        by_cases hsame : info = other
        · subst hsame
          rw [hself, List.count_append, hload, if_pos rfl, if_pos rfl]
        · have hzero : [info].count other = 0 := List.count_eq_zero.mpr (by simp [Ne.symm hsame])
          rw [hzero, Nat.add_zero]
          by_cases htype : I.getType other = I.getType info
          · rw [htype, hself, List.count_append, hzero, Nat.add_zero]
          · rw [hother _ htype]

/-- A plugin among the available ones can be added. -/
theorem Inv.addClicked_safe (h : p.Inv I) (hc : p.asserted = false → p.Counted I)
    (hvalid : p.availValid = true) : SafeUnder I p (p.addClicked I) True := by
  obtain ⟨type, info, hcur, hitem⟩ := h.current_available hvalid
  cases hload : I.loadPlugin info with
  | false =>
      rw [addClicked_of_not_loaded hcur hitem hload]
      exact .refl hc
  | true =>
      obtain ⟨-, rfl, -, hnot⟩ := mem_availableItems.mp (mem_available_of_current h hitem)
      rw [h.addClicked_eq hcur hitem hload]
      refine addPluginConfig_safe hc rfl rfl hload hnot ?_ fun type hne => ?_
      · exact congrArg PluginsListWidget.items (setSelected_self _)
      · show ((p.setSelected (I.getType info) _).selected type).items = _
        rw [setSelected_of_ne hne]

/-- The plugins stay where they are, whatever the current item becomes. -/
structure SamePlugins (p p' : PluginLists) : Prop where
  asserted : p'.asserted = p.asserted
  loaded : p'.m_loadedPlugins = p.m_loadedPlugins
  items : ∀ type, (p'.selected type).items = (p.selected type).items

theorem items_update_row (lists : PluginType → PluginsListWidget) (type : PluginType)
    (row : Option ℕ) (type' : PluginType) :
    (Function.update lists type ((lists type).setCurrentRow row) type').items =
      (lists type').items := by
  by_cases htype : type' = type
  · subst htype
    rw [Function.update_self]
    rfl
  · rw [Function.update_of_ne htype]

theorem selectedPluginClicked_same (p : PluginLists) (type : PluginType) (row : ℕ) :
    p.SamePlugins (p.selectedPluginClicked type row) := by
  have hleave : p.SamePlugins p.leaveAvailable := by
    unfold leaveAvailable
    split
    · exact ⟨rfl, rfl, fun _ => rfl⟩
    · exact ⟨rfl, rfl, fun _ => rfl⟩
  unfold selectedPluginClicked
  dsimp only [setSelected, refreshSelectedToolbar]
  split
  · split_ifs
    · exact ⟨hleave.asserted, hleave.loaded, fun type' => by
        rw [items_update_row, hleave.items]⟩
    · exact ⟨hleave.asserted, hleave.loaded, fun type' => by
        rw [items_update_row, items_update_row, hleave.items]⟩
  · exact ⟨hleave.asserted, hleave.loaded, fun type' => by rw [items_update_row, hleave.items]⟩

theorem removeClicked_same {info : PluginInfoPtr} (hcur : p.m_currentSelectedList = some type)
    (hitem : (p.selected type).currentItem = some info) :
    ((p.removePluginConfig I info).setSelected type
      (p.selected type).deleteCurrentItem).SamePlugins (p.removeClicked I) := by
  unfold removeClicked
  rw [hcur]
  dsimp only
  rw [hitem]
  dsimp only
  split
  · exact ⟨rfl, rfl, fun _ => rfl⟩
  · exact ⟨(selectedPluginClicked_same _ _ _).asserted, (selectedPluginClicked_same _ _ _).loaded,
      (selectedPluginClicked_same _ _ _).items⟩

/-- A plugin that is taken out takes its configuration widget along. -/
theorem removePluginConfig_safe {q : PluginLists} {info : PluginInfoPtr}
    (hc : p.asserted = false → p.Counted I) (hasserted : q.asserted = p.asserted)
    (hloaded : q.m_loadedPlugins = (p.removePluginConfig I info).m_loadedPlugins)
    (hself : (info :: (q.selected (I.getType info)).items).Perm
      (p.selected (I.getType info)).items)
    (hother : ∀ type, type ≠ I.getType info → (q.selected type).items = (p.selected type).items) :
    SafeUnder I p q True := by
  refine ⟨by rw [hasserted, and_true], fun hafter => ?_⟩
  obtain ⟨hnodup, hcount⟩ := hc (hasserted.symm.trans hafter)
  dsimp only [removePluginConfig] at hloaded
  refine ⟨?_, fun other => ?_⟩
  · rw [hloaded]
    split_ifs
    · exact hnodup.erase info
    · exact hnodup
  · rw [hloaded]
    by_cases hsame : info = other
    · subst hsame
      have hcons := hself.count_eq info
      rw [List.count_cons_self] at hcons
      split_ifs with hload
      · rw [List.count_erase_self, hcount, if_pos hload]
        omega
      · rw [hcount, if_neg hload]
    · have hleft : (if I.loadPlugin info = true then p.m_loadedPlugins.erase info
          else p.m_loadedPlugins).count other = p.m_loadedPlugins.count other := by
        split_ifs
        · exact List.count_erase_of_ne (Ne.symm hsame)
        · rfl
      rw [hleft, hcount]
      by_cases htype : I.getType other = I.getType info
      · have hcons := hself.count_eq other
        rw [List.count_cons_of_ne hsame] at hcons
        rw [htype, hcons]
      · rw [hother _ htype]

theorem Inv.removeClicked_safe (h : p.Inv I) (hc : p.asserted = false → p.Counted I)
    (hcurrent : p.currentSelectedRow.isSome = true) : SafeUnder I p (p.removeClicked I) True := by
  obtain ⟨row, hrow⟩ := Option.isSome_iff_exists.mp hcurrent
  obtain ⟨type, hcur, hrow⟩ := currentSelectedRow_eq_some hrow
  obtain ⟨-, hlt⟩ := h.rows.selected type row hrow
  have hitem : (p.selected type).currentItem = some (p.selected type).items[row] := by
    rw [PluginsListWidget.currentItem, hrow, Option.bind_some, List.getElem?_eq_getElem hlt]
  have hsame := removeClicked_same (I := I) hcur hitem
  have htype : I.getType (p.selected type).items[row] = type :=
    h.types type _ (List.getElem_mem hlt)
  refine removePluginConfig_safe hc hsame.asserted hsame.loaded ?_ fun type' hne => ?_
  · rw [htype, hsame.items, setSelected_self, (deleteCurrentItem_eq hrow).1]
    exact List.getElem_cons_eraseIdx_perm hlt
  · rw [htype] at hne
    rw [hsame.items, setSelected_of_ne hne]
    rfl

theorem clearClicked_safe (p : PluginLists) : SafeUnder I p (p.clearClicked I) True where
  asserted := (and_true _).symm ▸ Iff.rfl
  counted _ := ⟨List.nodup_nil, fun info => by simp [clearClicked, refreshLists,
    refreshButtonBox, refreshSelectedToolbar, refreshAvailablePlugins]⟩

theorem refreshAll_safe (p : PluginLists) (infos : List PluginInfoPtr) :
    SafeUnder I p (p.refreshAll I infos) (NamesOnce I infos) := by
  obtain ⟨loaded, failed, heq, hiff, hloaded⟩ := refreshAll_eq (I := I) p infos
  rw [heq]
  refine ⟨hiff, fun hfailed => ?_⟩
  obtain rfl := hloaded hfailed
  refine ⟨(hiff.mp hfailed).2, fun info => ?_⟩
  show (infos.filter I.loadPlugin).count info = if I.loadPlugin info then
    (infos.filter fun other => decide (I.getType other = I.getType info)).count info else 0
  split_ifs with hload
  · rw [List.count_filter hload, List.count_filter (by simp)]
  · exact List.count_eq_zero.mpr fun hmem => hload (List.mem_filter.mp hmem).2

theorem loadClicked_safe (hc : p.asserted = false → p.Counted I)
    (loadedPlugins : List PluginInfoPtr) :
    SafeUnder I p (p.loadClicked I loadedPlugins) (NamesOnce I loadedPlugins) := by
  cases hempty : loadedPlugins.isEmpty with
  | true =>
      obtain rfl := List.isEmpty_iff.mp hempty
      exact ⟨(and_iff_left List.nodup_nil).symm, hc⟩
  | false =>
      rw [loadClicked_eq p hempty]
      exact refreshAll_safe p loadedPlugins

theorem moveClicked_safe (hc : p.asserted = false → p.Counted I)
    {place : ℕ → ℕ → Option ℕ}
    (hplace : ∀ type row, p.m_currentSelectedList = some type →
      (p.selected type).currentRow = some row →
        ∃ toRow, place row (p.selected type).count = some toRow ∧ toRow < (p.selected type).count)
    (hcurrent : p.currentSelectedRow.isSome = true) :
    SafeUnder I p (p.moveClicked place) True := by
  obtain ⟨row, hrow⟩ := Option.isSome_iff_exists.mp hcurrent
  obtain ⟨type, hcur, hrow⟩ := currentSelectedRow_eq_some hrow
  obtain ⟨toRow, hto, hlt⟩ := hplace type row hcur hrow
  unfold PluginLists.moveClicked
  rw [hcur]
  dsimp only
  rw [hrow]
  dsimp only
  rw [hto]
  refine safeUnder_of_perm hc rfl rfl fun type' => ?_
  by_cases htype : type' = type
  · subst htype
    show ((p.setSelected type' _).selected type').items.Perm _
    rw [setSelected_self]
    exact Moves.relocate_perm hlt
  · show ((p.setSelected type _).selected type').items.Perm _
    rw [setSelected_of_ne htype]

/-- **Between two clicks** an assertion fails only if a file that names a plugin twice is loaded. -/
theorem Inv.step_safe (h : p.Inv I) (hc : p.asserted = false → p.Counted I) (e : Event) :
    SafeUnder I p (p.step I e) (LoadsOnce I e) := by
  cases e with
  | availClicked type row =>
      refine .guarded hc fun _ => ?_
      rw [availPluginClicked_eq h.rows h.toolbar]
      exact safeUnder_of_perm hc rfl rfl fun _ => .refl _
  | availDoubleClicked type row =>
      refine .guarded hc fun hclick => ?_
      have hpicked := h.pickAvailable (of_decide_eq_true (Bool.and_eq_true_iff.mp hclick).2)
      have hsafe : SafeUnder I p (p.pickAvailable type row) True :=
        safeUnder_of_perm hc rfl rfl fun _ => .refl _
      rw [availPluginClicked_eq h.rows h.toolbar]
      have hadd := hpicked.addClicked_safe hsafe.counted (by
        show (if type = type then some row else none).isSome = true
        rw [if_pos rfl]
        rfl)
      exact ⟨hadd.asserted, hadd.counted⟩
  | selectedClicked type row =>
      refine .guarded hc fun _ => ?_
      have hsame := selectedPluginClicked_same p type row
      exact safeUnder_of_perm hc hsame.asserted hsame.loaded fun type' => .of_eq (hsame.items type')
  | search text => exact safeUnder_of_perm hc rfl rfl fun _ => .refl _
  | add => exact .guarded hc fun hbutton => h.addClicked_safe hc (h.addButton ▸ hbutton)
  | load loadedPlugins => exact loadClicked_safe hc loadedPlugins
  | remove =>
      refine .guarded hc fun hbutton => ?_
      rw [h.toolbar] at hbutton
      exact h.removeClicked_safe hc hbutton
  | clear => exact .guarded hc fun _ => clearClicked_safe p
  | top =>
      refine .guarded hc fun hbutton => ?_
      rw [h.toolbar] at hbutton
      exact moveClicked_safe hc (h.up_place hbutton fun _ => Nat.zero_le _)
        (movesUp_eq_true hbutton).1
  | up =>
      refine .guarded hc fun hbutton => ?_
      rw [h.toolbar] at hbutton
      exact moveClicked_safe hc (h.up_place hbutton fun _ => Nat.sub_le _ _)
        (movesUp_eq_true hbutton).1
  | down =>
      refine .guarded hc fun hbutton => ?_
      rw [h.toolbar] at hbutton
      exact moveClicked_safe hc (down_place hbutton fun _ _ hlt => hlt)
        (movesDown_eq_true hbutton).1
  | bottom =>
      refine .guarded hc fun hbutton => ?_
      rw [h.toolbar] at hbutton
      have hlast : ∀ row count : ℕ, row + 1 < count → count - 1 < count := by omega
      exact moveClicked_safe hc (down_place hbutton hlast) (movesDown_eq_true hbutton).1

/-! ### Runs -/

/-- The dialog as it opens, with the plugins that are applied. -/
def opened (I : AvailablePlugins) (appliedPlugins : List PluginInfoPtr) : PluginLists :=
  ({} : PluginLists).refreshAll I appliedPlugins

theorem inv_opened (I : AvailablePlugins) (appliedPlugins : List PluginInfoPtr) :
    (opened I appliedPlugins).Inv I := by
  have hrows : ({} : PluginLists).Rows :=
    { alone := .inl rfl
      available := fun _ _ h => absurd h (Option.some_ne_none _).symm
      selected := fun _ _ h => absurd h (Option.some_ne_none _).symm
      current := fun _ h => absurd h (Option.some_ne_none _).symm }
  exact inv_refreshAll hrows appliedPlugins

/-- **The lists and the buttons agree in every state of a run**: the available plugins are those
that match the search and are not selected, and at most one item is the current one.  No assertion
fails behind an enabled button exactly if no file names a plugin twice, nor do the plugins that are
applied. -/
theorem lists_consistent (I : AvailablePlugins) (appliedPlugins : List PluginInfoPtr)
    (evs : List Event) :
    Runs.Always (step I) (opened I appliedPlugins) evs (Inv I) ∧
      (Runs.Always (step I) (opened I appliedPlugins) evs (fun p => p.asserted = false) ↔
        NamesOnce I appliedPlugins ∧
          ∀ loadedPlugins, .load loadedPlugins ∈ evs → NamesOnce I loadedPlugins) := by
  refine ⟨Runs.always_of_inv (fun _ e h => h.step e) (inv_opened I appliedPlugins), ?_⟩
  have hopened := refreshAll_safe (I := I) {} appliedPlugins
  have hiff (hstart : (opened I appliedPlugins).asserted = false) :
      Runs.Always (step I) (opened I appliedPlugins) evs (fun p => p.asserted = false) ↔
        Runs.Along (step I) (opened I appliedPlugins) evs fun _ e => LoadsOnce I e :=
    Runs.always_iff_along_of_inv (I := fun p => p.Inv I ∧ (p.asserted = false → p.Counted I))
      (fun _ e h => ⟨h.1.step e, (h.1.step_safe h.2 e).counted⟩)
      (fun _ e h hsafe => (h.1.step_safe h.2 e).asserted.trans (and_iff_right hsafe))
      ⟨inv_opened I appliedPlugins, hopened.counted⟩ hstart
  have hfiles : (∀ e ∈ evs, LoadsOnce I e) ↔
      ∀ loadedPlugins, .load loadedPlugins ∈ evs → NamesOnce I loadedPlugins := by
    constructor
    · intro h loadedPlugins hmem
      exact h _ hmem
    · intro h e he
      cases e with
      | load loadedPlugins => exact h loadedPlugins he
      | _ => trivial
  constructor
  · intro h
    have hstart : (opened I appliedPlugins).asserted = false := h [] evs rfl
    have hfree := (hiff hstart).mp h
    rw [Runs.along_iff_forall, hfiles] at hfree
    exact ⟨(hopened.asserted.mp hstart).2, hfree⟩
  · rintro ⟨honce, hfree⟩
    rw [← hfiles] at hfree
    exact (hiff (hopened.asserted.mpr ⟨rfl, honce⟩)).mpr (Runs.along_iff_forall.mpr hfree)

/-! ### Sockets and protocols -/

/-- The dialog never has two sockets or two protocols to apply. -/
def OneOfEach (p : PluginLists) : Prop := ∀ type, type ≠ .Filter → (p.selected type).count ≤ 1

/-- A file has one socket and one protocol at most, and a plugin that loads is added from a list
that is not disabled. -/
def KeepsOne (I : AvailablePlugins) (p : PluginLists) : Event → Prop
  | .load loadedPlugins =>
      ∀ type, type ≠ .Filter →
        (loadedPlugins.filter fun info => decide (I.getType info = type)).length ≤ 1
  | .add =>
      ∀ type info, p.m_currentAvailableList = some type →
        (p.available type).currentItem = some info → I.loadPlugin info = true →
          (p.available type).disabled = false
  | _ => True

/-- A list grows by one plugin when it is added. -/
theorem Inv.addClicked_count (h : p.Inv I) {info : PluginInfoPtr}
    (hcur : p.m_currentAvailableList = some type)
    (hitem : (p.available type).currentItem = some info) (hload : I.loadPlugin info = true)
    (type' : PluginType) : ((p.addClicked I).selected type').count =
      if type' = type then (p.selected type').count + 1 else (p.selected type').count := by
  rw [h.addClicked_eq hcur hitem hload]
  obtain ⟨loaded, failed, heq⟩ := addPluginConfig_eq (I := I) (((p.setSelected type
    ((p.selected type).addItem info)).pickSelected type (p.selected type).count).refreshLists I)
    info
  rw [heq]
  show ((p.setSelected type ((p.selected type).addItem info)).selected type').count = _
  split_ifs with htype
  · rw [htype, setSelected_self]
    simp [PluginsListWidget.addItem, PluginsListWidget.count]
  · rw [setSelected_of_ne htype]

theorem Inv.disabled_eq_false (h : p.Inv I) (hfilter : type ≠ .Filter) :
    (p.available type).disabled = false ↔ (p.selected type).count = 0 := by
  rw [h.disabled type, availableDisabled]
  simp [hfilter]

/-- An addition keeps to one of each if and only if its list is not disabled. -/
theorem Inv.addClicked_one_iff (h : p.Inv I) (hvalid : p.availValid = true)
    (hone : p.OneOfEach) : (p.addClicked I).OneOfEach ↔ p.KeepsOne I .add := by
  obtain ⟨type, info, hcur, hitem⟩ := h.current_available hvalid
  cases hload : I.loadPlugin info with
  | false =>
      rw [addClicked_of_not_loaded hcur hitem hload]
      refine iff_of_true hone fun type' info' hcur' hitem' hload' => ?_
      obtain rfl := Option.some.inj (hcur.symm.trans hcur')
      obtain rfl := Option.some.inj (hitem.symm.trans hitem')
      rw [hload] at hload'
      cases hload'
  | true =>
      have hcount := h.addClicked_count hcur hitem hload
      constructor
      · intro hafter type' info' hcur' hitem' hload'
        obtain rfl := Option.some.inj (hcur.symm.trans hcur')
        by_cases hfilter : type = .Filter
        · rw [h.disabled type, availableDisabled, hfilter]
          rfl
        · have hle := hafter type hfilter
          rw [hcount, if_pos rfl] at hle
          rw [h.disabled_eq_false hfilter]
          omega
      · intro hkeeps type' hfilter
        rw [hcount]
        split_ifs with htype
        · have hzero := hkeeps type info hcur hitem hload
          rw [h.disabled_eq_false (htype ▸ hfilter)] at hzero
          rw [htype, hzero]
        · exact hone type' hfilter

/-! ### The clicks that add nothing -/

/-- No list of the selected plugins has grown. -/
def NotGrown (p p' : PluginLists) : Prop :=
  ∀ type, (p'.selected type).count ≤ (p.selected type).count

theorem NotGrown.oneOfEach {p' : PluginLists} (h : p.NotGrown p') (hone : p.OneOfEach) :
    p'.OneOfEach :=
  fun type hfilter => (h type).trans (hone type hfilter)

theorem notGrown_setSelected {w : PluginsListWidget} (h : w.count ≤ (p.selected type).count) :
    p.NotGrown (p.setSelected type w) := by
  intro type'
  by_cases htype : type' = type
  · subst htype
    rwa [setSelected_self]
  · rw [setSelected_of_ne htype]

theorem count_update_row (lists : PluginType → PluginsListWidget) (type : PluginType)
    (row : Option ℕ) (type' : PluginType) :
    (Function.update lists type ((lists type).setCurrentRow row) type').count =
      (lists type').count := by
  by_cases htype : type' = type
  · subst htype
    rw [Function.update_self]
    rfl
  · rw [Function.update_of_ne htype]

theorem selectedPluginClicked_notGrown (p : PluginLists) (type : PluginType) (row : ℕ) :
    p.NotGrown (p.selectedPluginClicked type row) := by
  have hleave : p.leaveAvailable.selected = p.selected := by
    unfold leaveAvailable
    split <;> rfl
  intro type'
  rw [← hleave]
  unfold selectedPluginClicked
  dsimp only [setSelected, refreshSelectedToolbar]
  split
  · split_ifs
    · rw [count_update_row]
    · rw [count_update_row, count_update_row]
  · rw [count_update_row]

theorem count_deleteCurrentItem_le (w : PluginsListWidget) :
    w.deleteCurrentItem.count ≤ w.count := by
  unfold PluginsListWidget.deleteCurrentItem
  split
  · exact le_rfl
  · exact (List.eraseIdx_sublist _ _).length_le

theorem removeClicked_notGrown (p : PluginLists) : p.NotGrown (p.removeClicked I) := by
  intro type'
  unfold removeClicked
  cases p.m_currentSelectedList with
  | none => exact le_rfl
  | some type =>
      dsimp only
      cases (p.selected type).currentItem with
      | none => exact le_rfl
      | some info =>
          have hleft := notGrown_setSelected (p := p.removePluginConfig I info)
            (count_deleteCurrentItem_le (p.selected type)) type'
          dsimp only
          split
          · exact hleft
          · exact (selectedPluginClicked_notGrown _ _ _ type').trans hleft

theorem moveClicked_notGrown (p : PluginLists) (place : ℕ → ℕ → Option ℕ) :
    p.NotGrown (p.moveClicked place) := by
  intro type'
  unfold moveClicked
  split
  · exact le_rfl
  · next type hcur =>
      split
      · exact le_rfl
      · next curRow hrow =>
          split
          · exact le_rfl
          · next toRow hto =>
              have hlen := Moves.length_relocate_le (p.selected type).items curRow toRow
              exact notGrown_setSelected (w := { p.selected type with
                items := Moves.relocate (p.selected type).items curRow toRow
                currentRow := some toRow }) hlen type'

theorem refreshAll_oneOfEach (p : PluginLists) (infos : List PluginInfoPtr) :
    (p.refreshAll I infos).OneOfEach ↔ ∀ type, type ≠ .Filter →
      (infos.filter fun info => decide (I.getType info = type)).length ≤ 1 := by
  obtain ⟨loaded, failed, heq, -⟩ := refreshAll_eq (I := I) p infos
  rw [heq]
  rfl

/-- **A click** keeps to one socket and one protocol if and only if it adds from a list that is not
disabled, or loads a file that does. -/
theorem Inv.step_one_iff (h : p.Inv I) (hone : p.OneOfEach) (e : Event) :
    (p.step I e).OneOfEach ↔ p.KeepsOne I e := by
  have hguarded {enabled : Prop} [Decidable enabled] {p' : PluginLists} (hle : p.NotGrown p') :
      (if enabled then p' else p).OneOfEach := by
    split_ifs
    · exact hle.oneOfEach hone
    · exact hone
  cases e with
  | availClicked type row =>
      refine iff_of_true (hguarded fun type' => ?_) trivial
      rw [availPluginClicked_eq h.rows h.toolbar]
      exact le_rfl
  | availDoubleClicked type row =>
      refine iff_of_true ?_ trivial
      unfold PluginLists.step
      dsimp only
      split_ifs with hclick
      · obtain ⟨henabled, hrow⟩ := Bool.and_eq_true_iff.mp hclick
        have hpicked := h.pickAvailable (of_decide_eq_true hrow)
        have hvalid : (p.pickAvailable type row).availValid = true := by
          show (if type = type then some row else none).isSome = true
          rw [if_pos rfl]
          rfl
        rw [availPluginClicked_eq h.rows h.toolbar]
        refine (hpicked.addClicked_one_iff hvalid hone).mpr fun type' info hcur _ _ => ?_
        obtain rfl : type = type' := Option.some.inj hcur
        have hdisabled : (p.available type).disabled = false := by simpa using henabled
        exact hdisabled
      · exact hone
  | selectedClicked type row =>
      exact iff_of_true (hguarded (selectedPluginClicked_notGrown p type row)) trivial
  | search text => exact iff_of_true hone trivial
  | add =>
      unfold PluginLists.step
      dsimp only
      split_ifs with hbutton
      · exact h.addClicked_one_iff (h.addButton ▸ hbutton) hone
      · refine iff_of_true hone fun type info hcur hitem _ => ?_
        obtain ⟨row, hrow, -⟩ := Option.bind_eq_some_iff.mp hitem
        rw [h.addButton, availValid, hcur, Option.any_some, hrow] at hbutton
        exact absurd rfl hbutton
  | load loadedPlugins =>
      show (p.loadClicked I loadedPlugins).OneOfEach ↔ _
      cases hempty : loadedPlugins.isEmpty with
      | true =>
          unfold PluginLists.loadClicked
          rw [hempty, if_pos rfl]
          refine iff_of_true hone fun type _ => ?_
          rw [List.isEmpty_iff.mp hempty]
          exact Nat.zero_le 1
      | false =>
          rw [loadClicked_eq p hempty]
          exact refreshAll_oneOfEach p loadedPlugins
  | remove => exact iff_of_true (hguarded (removeClicked_notGrown p)) trivial
  | clear => exact iff_of_true (hguarded fun _ => Nat.zero_le _) trivial
  | top => exact iff_of_true (hguarded (moveClicked_notGrown p _)) trivial
  | up => exact iff_of_true (hguarded (moveClicked_notGrown p _)) trivial
  | down => exact iff_of_true (hguarded (moveClicked_notGrown p _)) trivial
  | bottom => exact iff_of_true (hguarded (moveClicked_notGrown p _)) trivial

/-- **There is never a second socket or protocol** in a run exactly if the plugins that are applied
have none, no file has, and no plugin is added from a disabled list: its item stays the current one
when a file with another plugin of its type is loaded. -/
theorem one_of_each_iff (I : AvailablePlugins) (appliedPlugins : List PluginInfoPtr)
    (evs : List Event) :
    Runs.Always (step I) (opened I appliedPlugins) evs OneOfEach ↔
      (∀ type, type ≠ .Filter →
        (appliedPlugins.filter fun info => decide (I.getType info = type)).length ≤ 1) ∧
      Runs.Along (step I) (opened I appliedPlugins) evs (KeepsOne I) := by
  constructor
  · intro h
    have hstart : (opened I appliedPlugins).OneOfEach := h [] evs rfl
    refine ⟨(refreshAll_oneOfEach _ _).mp hstart, ?_⟩
    exact (Runs.always_iff_along_of_inv (fun _ e h => h.step e)
      (fun _ e h hone => h.step_one_iff hone e)
      (inv_opened I appliedPlugins) hstart).mp h
  · rintro ⟨hstart, hkeeps⟩
    exact (Runs.always_iff_along_of_inv (fun _ e h => h.step e)
      (fun _ e h hone => h.step_one_iff hone e)
      (inv_opened I appliedPlugins) ((refreshAll_oneOfEach _ _).mpr hstart)).mpr hkeeps

theorem sampleIid_injective (info info' : PluginInfoPtr)
    (h : List.replicate info 'p' = List.replicate info' 'p') : info = info' := by
  have hlen : (List.replicate info 'p').length = (List.replicate info' 'p').length :=
    congrArg List.length h
  rwa [List.length_replicate, List.length_replicate] at hlen

/-- Two sockets. -/
def sampleAvailable : AvailablePlugins where
  getType _ := .Socket
  getIid info := List.replicate info 'p'
  getIid_injective := sampleIid_injective
  loadPlugin _ := true
  createConfigurationWidget _ := true
  plugins := List.range 2
  nodup := List.nodup_range
  getNameWithVersion _ := []
  contains _ _ := true

/-- The second socket is added, its list being disabled. -/
example :
    (([.availClicked .Socket 0, .load [1], .add].foldl (step sampleAvailable)
      (opened sampleAvailable [])).selected .Socket).items = [1, 0] := by decide

end PluginLists

end CcToolsQt
