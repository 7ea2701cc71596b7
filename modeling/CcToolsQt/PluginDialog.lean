import CcToolsQt.PluginWidgets
import CcToolsQt.Lib.Runs

/-! # The dialog of plugins

`PluginConfigDialog` has a list of the selected plugins for each type and the list of their
configuration widgets.  The two are moved separately: the rows of a list by row, the widgets, of
filters only, by their places among the widgets.

* `Follows`: the widgets are those of the selected plugins, in their order.
* `step_ordered_iff`: which clicks keep it so.
* `widgets_follow_iff`: the runs in which it is so in every state. -/

namespace CcToolsQt

/-- `m_selectedSocketsWidget`, `m_selectedFiltersWidget` and `m_selectedProtocolsWidget` hold the
`selected` plugins of each type. -/
structure PluginConfigDialog where
  selected : PluginType → List PluginInfoPtr := fun _ => []
  m_allConfigWidget : PluginConfigWrapsListWidget := {}

namespace PluginConfigDialog
variable (I : PluginInfos)

/-! ### The dialog

`none` is a failed assertion.  The item that is current when a button is clicked is given by the
list, that is its type, and its row; a disabled button does nothing. -/

/-- `refreshSelectedPlugins`. -/
def refreshSelectedPlugins (d : PluginConfigDialog) (infos : List PluginInfoPtr) :
    Option PluginConfigDialog :=
  (infos.foldlM (PluginConfigWrapsListWidget.addPluginConfig I) d.m_allConfigWidget.removeAll).map
    fun w =>
      { selected := fun type => infos.filter fun info => I.getType info = type
        m_allConfigWidget := w }

/-- The list of the available sockets or protocols is disabled while one is selected, and no list
shows a plugin that is selected. -/
def isAvailable (d : PluginConfigDialog) (info : PluginInfoPtr) : Bool :=
  decide (info ∉ d.selected (I.getType info)) &&
    (decide (I.getType info = .Filter) || (d.selected (I.getType info)).isEmpty)

def addClicked (d : PluginConfigDialog) (info : PluginInfoPtr) : Option PluginConfigDialog :=
  if !d.isAvailable I info then some d
  else if !I.loadPlugin info then some d
  else
    let type := I.getType info
    (d.m_allConfigWidget.addPluginConfig I info).map fun w =>
      { selected := Function.update d.selected type (d.selected type ++ [info])
        m_allConfigWidget := w }

/-- A file without plugins is refused. -/
def loadClicked (d : PluginConfigDialog) (loadedPlugins : List PluginInfoPtr) :
    Option PluginConfigDialog :=
  if loadedPlugins.isEmpty then some d else d.refreshSelectedPlugins I loadedPlugins

def removeClicked (d : PluginConfigDialog) (type : PluginType) (row : ℕ) : PluginConfigDialog :=
  match (d.selected type)[row]? with
  | none => d
  | some info =>
      { selected := Function.update d.selected type ((d.selected type).eraseIdx row)
        m_allConfigWidget := d.m_allConfigWidget.removePluginConfig I info }

def clearClicked (d : PluginConfigDialog) : PluginConfigDialog :=
  { selected := fun _ => [], m_allConfigWidget := d.m_allConfigWidget.removeAll }

def moveSelectedPlugin (d : PluginConfigDialog) (type : PluginType) (fromRow toRow : ℕ) :
    PluginConfigDialog :=
  { d with
    selected :=
      Function.update d.selected type (Moves.relocate (d.selected type) fromRow toRow) }

def topClicked (d : PluginConfigDialog) (type : PluginType) (curRow : ℕ) : PluginConfigDialog :=
  match (d.selected type)[curRow]? with
  | none => d
  | some info =>
      if curRow = 0 then d
      else { d with m_allConfigWidget := d.m_allConfigWidget.moveTop I info }.moveSelectedPlugin
        type curRow 0

def upClicked (d : PluginConfigDialog) (type : PluginType) (curRow : ℕ) : PluginConfigDialog :=
  match (d.selected type)[curRow]? with
  | none => d
  | some info =>
      if curRow = 0 then d
      else { d with m_allConfigWidget := d.m_allConfigWidget.moveUp I info }.moveSelectedPlugin
        type curRow (curRow - 1)

def downClicked (d : PluginConfigDialog) (type : PluginType) (curRow : ℕ) : PluginConfigDialog :=
  match (d.selected type)[curRow]? with
  | none => d
  | some info =>
      if (d.selected type).length ≤ curRow + 1 then d
      else { d with m_allConfigWidget := d.m_allConfigWidget.moveDown I info }.moveSelectedPlugin
        type curRow (curRow + 1)

def bottomClicked (d : PluginConfigDialog) (type : PluginType) (curRow : ℕ) : PluginConfigDialog :=
  match (d.selected type)[curRow]? with
  | none => d
  | some info =>
      if (d.selected type).length ≤ curRow + 1 then d
      else { d with m_allConfigWidget := d.m_allConfigWidget.moveBottom I info }.moveSelectedPlugin
        type curRow ((d.selected type).length - 1)

inductive Event where
  | add (info : PluginInfoPtr)
  | remove (type : PluginType) (row : ℕ)
  | clear
  | load (loadedPlugins : List PluginInfoPtr)
  | top (type : PluginType) (row : ℕ)
  | up (type : PluginType) (row : ℕ)
  | down (type : PluginType) (row : ℕ)
  | bottom (type : PluginType) (row : ℕ)

def step (d : PluginConfigDialog) : Event → Option PluginConfigDialog
  | .add info => d.addClicked I info
  | .remove type row => some (d.removeClicked I type row)
  | .clear => some d.clearClicked
  | .load loadedPlugins => d.loadClicked I loadedPlugins
  | .top type row => some (d.topClicked I type row)
  | .up type row => some (d.upClicked I type row)
  | .down type row => some (d.downClicked I type row)
  | .bottom type row => some (d.bottomClicked I type row)

/-! ### Widgets and plugins -/

/-- The widgets of sockets, filters and protocols. -/
def widgetsOf (selected : PluginType → List PluginInfoPtr) : List PluginInfoPtr :=
  (selected .Socket).filter I.hasWidget ++ (selected .Filter).filter I.hasWidget ++
    (selected .Protocol).filter I.hasWidget

/-- **The widgets follow the selected plugins.** -/
structure Follows (d : PluginConfigDialog) : Prop where
  widgets : d.m_allConfigWidget.m_widgets = widgetsOf I d.selected
  sorted : d.m_allConfigWidget.m_widgets.Pairwise fun info info' =>
    (I.getType info).value ≤ (I.getType info').value
  layout : d.m_allConfigWidget.layout = d.m_allConfigWidget.m_widgets.map some ++ [none]

/-- What every click keeps. -/
structure Valid (d : PluginConfigDialog) : Prop where
  types : ∀ type, ∀ info ∈ d.selected type, I.getType info = type
  wraps : d.m_allConfigWidget.Valid

variable {I} {d : PluginConfigDialog}

theorem Valid.parted (hv : d.Valid I) : PluginConfigWrapsListWidget.Parted I
    ((d.selected .Socket).filter I.hasWidget) ((d.selected .Filter).filter I.hasWidget)
    ((d.selected .Protocol).filter I.hasWidget) where
  sockets y hy := hv.types _ y (List.mem_of_mem_filter hy)
  filters y hy := hv.types _ y (List.mem_of_mem_filter hy)
  protocols y hy := hv.types _ y (List.mem_of_mem_filter hy)

/-- Of the three properties only the order of the widgets is in question. -/
theorem Valid.follows_iff (hv : d.Valid I) :
    d.Follows I ↔ d.m_allConfigWidget.m_widgets = widgetsOf I d.selected := by
  refine ⟨Follows.widgets, fun h => ⟨h, ?_, hv.wraps.layout⟩⟩
  rw [h]
  have hp := hv.parted
  have hsame : ∀ {type} {l : List PluginInfoPtr}, (∀ y ∈ l, I.getType y = type) →
      l.Pairwise fun info info' => (I.getType info).value ≤ (I.getType info').value := by
    intro type l hl
    refine List.pairwise_of_forall_mem_list fun y hy z hz => ?_
    rw [hl y hy, hl z hz]
  refine List.pairwise_append.mpr ⟨List.pairwise_append.mpr ⟨hsame hp.sockets, hsame hp.filters,
    fun y hy z hz => ?_⟩, hsame hp.protocols, fun y hy z hz => ?_⟩
  · rw [hp.sockets y hy, hp.filters z hz]
    decide
  · rw [hp.protocols z hz]
    rcases List.mem_append.mp hy with hy | hy
    · rw [hp.sockets y hy]
      decide
    · rw [hp.filters y hy]
      decide

/-- The widgets of the plugins of one type stand between those of smaller and greater types. -/
theorem widgetsOf_update (selected : PluginType → List PluginInfoPtr) (type : PluginType) :
    ∃ A Z, (∀ l, widgetsOf I (Function.update selected type l) =
        A ++ l.filter I.hasWidget ++ Z) ∧
      (∀ y ∈ A, ∃ type', y ∈ selected type' ∧ type'.value < type.value) ∧
      ∀ y ∈ Z, ∃ type', y ∈ selected type' ∧ type.value < type'.value := by
  cases type with
  | Socket =>
      refine ⟨[], (selected .Filter).filter I.hasWidget ++ (selected .Protocol).filter I.hasWidget,
        fun l => by simp [widgetsOf], by simp, fun y hy => ?_⟩
      rcases List.mem_append.mp hy with hy | hy
      · exact ⟨_, List.mem_of_mem_filter hy, by decide⟩
      · exact ⟨_, List.mem_of_mem_filter hy, by decide⟩
  | Filter =>
      exact ⟨(selected .Socket).filter I.hasWidget, (selected .Protocol).filter I.hasWidget,
        fun l => by simp [widgetsOf], fun y hy => ⟨_, List.mem_of_mem_filter hy, by decide⟩,
        fun y hy => ⟨_, List.mem_of_mem_filter hy, by decide⟩⟩
  | Protocol =>
      refine ⟨(selected .Socket).filter I.hasWidget ++ (selected .Filter).filter I.hasWidget, [],
        fun l => by simp [widgetsOf], fun y hy => ?_, by simp⟩
      rcases List.mem_append.mp hy with hy | hy
      · exact ⟨_, List.mem_of_mem_filter hy, by decide⟩
      · exact ⟨_, List.mem_of_mem_filter hy, by decide⟩

theorem hasWidget_of_mem {selected : PluginType → List PluginInfoPtr} {info : PluginInfoPtr}
    (h : info ∈ widgetsOf I selected) : I.hasWidget info = true := by
  simp only [widgetsOf, List.mem_append, List.mem_filter] at h
  rcases h with (h | h) | h <;> exact h.2

/-! ### Additions and removals -/

/-- A plugin that is added gets its widget behind those of its type. -/
theorem addPluginConfig_follows {selected : PluginType → List PluginInfoPtr}
    (htypes : ∀ type, ∀ y ∈ selected type, I.getType y = type)
    {w w' : PluginConfigWrapsListWidget} {info : PluginInfoPtr}
    (hw : w.m_widgets = widgetsOf I selected) (h : w.addPluginConfig I info = some w') :
    w'.m_widgets = widgetsOf I
      (Function.update selected (I.getType info) (selected (I.getType info) ++ [info])) := by
  obtain ⟨A, Z, hupdate, hA, hZ⟩ := widgetsOf_update (I := I) selected (I.getType info)
  have hself := hupdate (selected (I.getType info))
  rw [Function.update_eq_self] at hself
  rw [hupdate, List.filter_append, ← List.append_assoc]
  refine PluginConfigWrapsListWidget.addPluginConfig_widgets (hw.trans hself) (fun y hy => ?_)
    (fun y hy => ?_) h
  · rcases List.mem_append.mp hy with hy | hy
    · obtain ⟨type, hmem, hlt⟩ := hA y hy
      rw [htypes type y hmem]
      exact hlt.le
    · rw [htypes _ y (List.mem_of_mem_filter hy)]
  · obtain ⟨type, hmem, hlt⟩ := hZ y hy
    rw [htypes type y hmem]
    exact hlt

theorem filter_type_append (done : List PluginInfoPtr) (info : PluginInfoPtr) :
    (fun type => (done ++ [info]).filter fun info => I.getType info = type) =
      Function.update (fun type => done.filter fun info => I.getType info = type) (I.getType info)
        (done.filter (fun info' => I.getType info' = I.getType info) ++ [info]) := by
  funext type
  by_cases h : type = I.getType info
  · rw [h, Function.update_self]
    simp
  · rw [Function.update_of_ne h]
    simp [Ne.symm h]

/-- The plugins of a file are added one after the other. -/
theorem foldlM_addPluginConfig_follows (done : List PluginInfoPtr) {infos : List PluginInfoPtr}
    {w w' : PluginConfigWrapsListWidget}
    (hw : w.m_widgets = widgetsOf I fun type => done.filter fun info => I.getType info = type)
    (h : infos.foldlM (PluginConfigWrapsListWidget.addPluginConfig I) w = some w') :
    w'.m_widgets =
      widgetsOf I fun type => (done ++ infos).filter fun info => I.getType info = type := by
  induction infos generalizing done w with
  | nil =>
      cases h
      rw [List.append_nil]
      exact hw
  | cons info infos ih =>
      rw [List.foldlM_cons] at h
      obtain ⟨w₁, hw₁, hrest⟩ := Option.bind_eq_some_iff.mp h
      have htypes : ∀ type, ∀ y ∈ done.filter fun info => I.getType info = type,
          I.getType y = type := fun type y hy => by simpa using (List.mem_filter.mp hy).2
      have hnext := addPluginConfig_follows htypes hw hw₁
      rw [← filter_type_append] at hnext
      have hall := ih _ hnext hrest
      rwa [List.append_assoc, List.singleton_append] at hall

theorem foldlM_addPluginConfig_valid {infos : List PluginInfoPtr}
    {w w' : PluginConfigWrapsListWidget} (hv : w.Valid)
    (h : infos.foldlM (PluginConfigWrapsListWidget.addPluginConfig I) w = some w') : w'.Valid := by
  induction infos generalizing w with
  | nil =>
      cases h
      exact hv
  | cons info infos ih =>
      rw [List.foldlM_cons] at h
      obtain ⟨w₁, hw₁, hrest⟩ := Option.bind_eq_some_iff.mp h
      exact ih (hv.addPluginConfig hw₁) hrest

/-- A plugin that is removed takes its widget with it. -/
theorem removePluginConfig_follows (hv : d.Valid I)
    (hw : d.m_allConfigWidget.m_widgets = widgetsOf I d.selected) {type : PluginType} {row : ℕ}
    {info : PluginInfoPtr} (hrow : (d.selected type)[row]? = some info) :
    (d.m_allConfigWidget.removePluginConfig I info).m_widgets =
      widgetsOf I (Function.update d.selected type ((d.selected type).eraseIdx row)) := by
  obtain ⟨A, Z, hupdate, -, -⟩ := widgetsOf_update (I := I) d.selected type
  have hself := hupdate (d.selected type)
  rw [Function.update_eq_self, ← hw] at hself
  obtain ⟨a, b, c, hsplit, ha, hlen⟩ := Moves.exists_split_left hrow le_rfl
  have hb : b = [] := List.length_eq_zero_iff.mp (by omega)
  rw [hb, List.append_nil] at hsplit
  have herase : (d.selected type).eraseIdx row = a ++ c := by
    rw [hsplit, ← ha, List.eraseIdx_append_of_length_le le_rfl, Nat.sub_self,
      List.eraseIdx_cons_zero]
  rw [PluginConfigWrapsListWidget.removePluginConfig_widgets, hupdate, herase]
  rw [hsplit] at hself
  cases hhas : I.hasWidget info with
  | false =>
      have hnot : info ∉ d.m_allConfigWidget.m_widgets := by
        intro hmem
        rw [hw] at hmem
        exact absurd (hasWidget_of_mem hmem) (by simp [hhas])
      rw [List.erase_of_not_mem hnot, hself]
      simp [hhas]
  | true =>
      have hnd := hv.wraps.nodup
      have hform : d.m_allConfigWidget.m_widgets =
          (A ++ a.filter I.hasWidget) ++ info :: (c.filter I.hasWidget ++ Z) := by
        rw [hself]
        simp [hhas]
      rw [hform] at hnd ⊢
      have hnot : info ∉ A ++ a.filter I.hasWidget := fun hmem =>
        (List.nodup_append'.mp hnd).2.2 hmem List.mem_cons_self
      rw [List.erase_append_right _ hnot, List.erase_cons_head]
      simp

/-! ### Moves -/

section
variable {type : PluginType} {info : PluginInfoPtr} {a b c : List PluginInfoPtr}
variable (hv : d.Valid I) (hw : d.m_allConfigWidget.m_widgets = widgetsOf I d.selected)
include hv hw

omit hv in
/-- The widgets of a list stand together. -/
theorem widgets_split (type : PluginType) : ∃ A Z,
    d.m_allConfigWidget.m_widgets = A ++ (d.selected type).filter I.hasWidget ++ Z ∧
      ∀ l, widgetsOf I (Function.update d.selected type l) = A ++ l.filter I.hasWidget ++ Z := by
  obtain ⟨A, Z, hupdate, -, -⟩ := widgetsOf_update (I := I) d.selected type
  refine ⟨A, Z, ?_, hupdate⟩
  rw [← hupdate, Function.update_eq_self, hw]

/-- A plugin with a widget is selected once. -/
theorem not_mem_of_split (hsplit : d.selected type = a ++ info :: c)
    (hhas : I.hasWidget info = true) : info ∉ a ∧ info ∉ c := by
  obtain ⟨A, Z, hwidgets, -⟩ := widgets_split hw type
  have hnd := hv.wraps.nodup
  rw [hwidgets, hsplit, List.filter_append, List.filter_cons_of_pos hhas] at hnd
  have hfilter := (List.nodup_append'.mp (List.nodup_append'.mp hnd).1).2.1
  obtain ⟨-, hcons, hdisj⟩ := List.nodup_append'.mp hfilter
  refine ⟨fun hmem => hdisj (List.mem_filter.mpr ⟨hmem, hhas⟩) List.mem_cons_self, fun hmem => ?_⟩
  exact (List.nodup_cons.mp hcons).1 (List.mem_filter.mpr ⟨hmem, hhas⟩)

/-- A plugin goes to the left and the widgets stay. -/
theorem stay_left_iff (hsplit : d.selected type = a ++ b ++ info :: c) :
    d.m_allConfigWidget.m_widgets =
        widgetsOf I (Function.update d.selected type (a ++ info :: (b ++ c))) ↔
      (I.hasWidget info = true → b.filter I.hasWidget = []) := by
  obtain ⟨A, Z, hwidgets, hupdate⟩ := widgets_split hw type
  rw [hupdate, hwidgets, List.append_cancel_right_eq, List.append_cancel_left_eq, hsplit, eq_comm]
  refine Moves.filter_swap_iff fun hhas hmem => ?_
  exact (not_mem_of_split hv hw hsplit hhas).1 (List.mem_append_right _ hmem)

/-- A plugin goes to the right and the widgets stay. -/
theorem stay_right_iff (hsplit : d.selected type = a ++ info :: (b ++ c)) :
    d.m_allConfigWidget.m_widgets =
        widgetsOf I (Function.update d.selected type (a ++ b ++ info :: c)) ↔
      (I.hasWidget info = true → b.filter I.hasWidget = []) := by
  obtain ⟨A, Z, hwidgets, hupdate⟩ := widgets_split hw type
  rw [hupdate, hwidgets, List.append_cancel_right_eq, List.append_cancel_left_eq, hsplit]
  refine Moves.filter_swap_iff fun hhas hmem => ?_
  exact (not_mem_of_split hv hw hsplit hhas).2 (List.mem_append_left _ hmem)

/-- The widgets stay unless the plugin is a filter with a widget. -/
theorem moveFilter_stays (hmem : info ∈ d.selected type)
    (h : type = .Filter → I.hasWidget info = false) (place : ℕ → Option ℕ) :
    d.m_allConfigWidget.moveFilter I info place = d.m_allConfigWidget := by
  unfold PluginConfigWrapsListWidget.moveFilter
  rw [hv.types type info hmem]
  split_ifs with hne
  · rfl
  · have hnot : info ∉ d.m_allConfigWidget.m_widgets := by
      intro hin
      rw [hw] at hin
      exact absurd (hasWidget_of_mem hin) (by simp [h (not_not.mp hne)])
    rw [PluginConfigWrapsListWidget.findWidgetIdx_of_not_mem hnot]

/-! ### Filters that have a widget -/

theorem filter_split (hsplit : d.selected .Filter = a ++ info :: c)
    (hhas : I.hasWidget info = true) :
    PluginConfigWrapsListWidget.Parted I ((d.selected .Socket).filter I.hasWidget)
        (a.filter I.hasWidget ++ info :: c.filter I.hasWidget)
        ((d.selected .Protocol).filter I.hasWidget) ∧
      d.m_allConfigWidget.m_widgets = (d.selected .Socket).filter I.hasWidget ++
        (a.filter I.hasWidget ++ info :: c.filter I.hasWidget) ++
          (d.selected .Protocol).filter I.hasWidget ∧
      info ∉ a.filter I.hasWidget ∧
      info ∉ c.filter I.hasWidget ++ (d.selected .Protocol).filter I.hasWidget := by
  have hfilter : (d.selected .Filter).filter I.hasWidget =
      a.filter I.hasWidget ++ info :: c.filter I.hasWidget := by
    rw [hsplit, List.filter_append, List.filter_cons_of_pos hhas]
  have hwidgets := hw
  have hparted := hv.parted
  rw [widgetsOf, hfilter] at hwidgets
  rw [hfilter] at hparted
  obtain ⟨ha, hc⟩ := not_mem_of_split hv hw hsplit hhas
  refine ⟨hparted, hwidgets, fun h => ha (List.mem_of_mem_filter h), fun h => ?_⟩
  rcases List.mem_append.mp h with h | h
  · exact hc (List.mem_of_mem_filter h)
  · have hprot := hparted.protocols info h
    rw [hparted.filters info (by simp)] at hprot
    cases hprot

omit hv hw in
theorem widgetsOf_filters (l : List PluginInfoPtr) :
    widgetsOf I (Function.update d.selected .Filter l) =
      (d.selected .Socket).filter I.hasWidget ++ l.filter I.hasWidget ++
        (d.selected .Protocol).filter I.hasWidget := by
  simp [widgetsOf]

theorem top_filter (hsplit : d.selected .Filter = b ++ info :: c)
    (hhas : I.hasWidget info = true) :
    (d.m_allConfigWidget.moveTop I info).m_widgets =
      widgetsOf I (Function.update d.selected .Filter (info :: (b ++ c))) := by
  obtain ⟨hparted, hwidgets, -, -⟩ := filter_split hv hw hsplit hhas
  rw [PluginConfigWrapsListWidget.moveTop_widgets hparted hwidgets hv.wraps.nodup,
    widgetsOf_filters, List.filter_cons_of_pos hhas, List.filter_append]

/-- A filter that goes up past one without a widget must have no widget in front of it. -/
theorem up_filter_iff {other : PluginInfoPtr}
    (hsplit : d.selected .Filter = a ++ [other] ++ info :: c) (hhas : I.hasWidget info = true) :
    (d.m_allConfigWidget.moveUp I info).m_widgets =
        widgetsOf I (Function.update d.selected .Filter (a ++ info :: ([other] ++ c))) ↔
      I.hasWidget other = true ∨ a.filter I.hasWidget = [] := by
  obtain ⟨hparted, hwidgets, hnot, -⟩ := filter_split hv hw hsplit hhas
  rw [widgetsOf_filters]
  cases hother : I.hasWidget other with
  | true =>
      have hB : (a ++ [other]).filter I.hasWidget = a.filter I.hasWidget ++ [other] := by
        simp [hother]
      refine iff_of_true ?_ (Or.inl rfl)
      rw [PluginConfigWrapsListWidget.moveUp_widgets hparted hwidgets hv.wraps.nodup hB]
      simp [hhas, hother]
  | false =>
      have hB : (a ++ [other]).filter I.hasWidget = a.filter I.hasWidget := by simp [hother]
      rw [hB] at hparted hwidgets hnot
      rcases List.eq_nil_or_concat (a.filter I.hasWidget) with hnil | ⟨B', z, hz⟩
      · refine iff_of_true ?_ (Or.inr hnil)
        rw [PluginConfigWrapsListWidget.moveUp_widgets_of_first hparted hwidgets hv.wraps.nodup
          hnil, hwidgets]
        simp [hhas, hother]
      · rw [List.concat_eq_append] at hz
        refine iff_of_false ?_ (by simp [hz])
        rw [PluginConfigWrapsListWidget.moveUp_widgets hparted hwidgets hv.wraps.nodup hz]
        intro heq
        simp only [List.filter_append, List.filter_cons_of_pos hhas, hz, List.append_assoc,
          List.append_cancel_left_eq, List.cons_append, List.cons.injEq, List.nil_append] at heq
        rw [hz, heq.1] at hnot
        exact hnot (by simp)

/-- A filter that goes down past one without a widget must have no widget behind it. -/
theorem down_filter_iff {other : PluginInfoPtr}
    (hsplit : d.selected .Filter = a ++ info :: ([other] ++ c)) (hhas : I.hasWidget info = true) :
    (d.m_allConfigWidget.moveDown I info).m_widgets =
        widgetsOf I (Function.update d.selected .Filter (a ++ [other] ++ info :: c)) ↔
      I.hasWidget other = true ∨
        c.filter I.hasWidget ++ (d.selected .Protocol).filter I.hasWidget = [] := by
  obtain ⟨hparted, hwidgets, -, hnot⟩ := filter_split hv hw hsplit hhas
  rw [widgetsOf_filters]
  cases hother : I.hasWidget other with
  | true =>
      have hC : ([other] ++ c).filter I.hasWidget ++ (d.selected .Protocol).filter I.hasWidget =
          other :: (c.filter I.hasWidget ++ (d.selected .Protocol).filter I.hasWidget) := by
        simp [hother]
      refine iff_of_true ?_ (Or.inl rfl)
      rw [PluginConfigWrapsListWidget.moveDown_widgets hparted hwidgets hv.wraps.nodup hC]
      simp [hhas, hother]
  | false =>
      have hC : ([other] ++ c).filter I.hasWidget = c.filter I.hasWidget := by simp [hother]
      rw [hC] at hparted hwidgets hnot
      cases hz : c.filter I.hasWidget ++ (d.selected .Protocol).filter I.hasWidget with
      | nil =>
          refine iff_of_true ?_ (Or.inr rfl)
          rw [PluginConfigWrapsListWidget.moveDown_widgets_of_last hparted hwidgets hv.wraps.nodup
            hz, hwidgets]
          simp [hhas, hother]
      | cons z D =>
          refine iff_of_false ?_ (by simp)
          rw [PluginConfigWrapsListWidget.moveDown_widgets hparted hwidgets hv.wraps.nodup hz]
          intro heq
          have hform : (d.selected .Socket).filter I.hasWidget ++
              (a ++ [other] ++ info :: c).filter I.hasWidget ++
                (d.selected .Protocol).filter I.hasWidget =
              (d.selected .Socket).filter I.hasWidget ++ a.filter I.hasWidget ++
                info :: z :: D := by
            simp [hhas, hother, ← hz]
          rw [hform, List.append_cancel_left_eq] at heq
          rw [hz, (List.cons.inj heq).1] at hnot
          exact hnot List.mem_cons_self

/-- A filter that goes to the bottom must have no widget of a protocol behind it. -/
theorem bottom_filter_iff (hsplit : d.selected .Filter = a ++ info :: c)
    (hhas : I.hasWidget info = true) :
    (d.m_allConfigWidget.moveBottom I info).m_widgets =
        widgetsOf I (Function.update d.selected .Filter (a ++ c ++ [info])) ↔
      (d.selected .Protocol).filter I.hasWidget = [] := by
  obtain ⟨hparted, hwidgets, -, hnot⟩ := filter_split hv hw hsplit hhas
  rw [widgetsOf_filters]
  cases hP : (d.selected .Protocol).filter I.hasWidget with
  | nil =>
      refine iff_of_true ?_ rfl
      rw [PluginConfigWrapsListWidget.moveBottom_widgets_of_last hparted hwidgets hv.wraps.nodup hP]
      simp [hhas]
  | cons q P' =>
      refine iff_of_false ?_ (List.cons_ne_nil _ _)
      rw [PluginConfigWrapsListWidget.moveBottom_widgets hparted hwidgets hv.wraps.nodup hP]
      intro heq
      have hform : (d.selected .Socket).filter I.hasWidget ++
            (a ++ c ++ [info]).filter I.hasWidget ++ q :: P' =
          (d.selected .Socket).filter I.hasWidget ++
            (a.filter I.hasWidget ++ c.filter I.hasWidget) ++ info :: q :: P' := by
        simp [hhas]
      rw [hform, List.append_cancel_left_eq] at heq
      rw [hP, (List.cons.inj heq).1] at hnot
      exact hnot (by simp)

/-! ### Clicks -/

end

/-- An event does not move a widget otherwise than its plugin. -/
def KeepsOrder (I : PluginInfos) (d : PluginConfigDialog) : Event → Prop
  | .top type row =>
      type ≠ .Filter → ∀ info, (d.selected type)[row]? = some info → I.hasWidget info = true →
        ((d.selected type).take row).filter I.hasWidget = []
  | .up type row =>
      row ≠ 0 → ∀ info other, (d.selected type)[row]? = some info →
        (d.selected type)[row - 1]? = some other → I.hasWidget info = true →
          if type = .Filter then
            I.hasWidget other = true ∨ ((d.selected type).take (row - 1)).filter I.hasWidget = []
          else I.hasWidget other = false
  | .down type row =>
      ∀ info other, (d.selected type)[row]? = some info →
        (d.selected type)[row + 1]? = some other → I.hasWidget info = true →
          if type = .Filter then
            I.hasWidget other = true ∨
              ((d.selected type).drop (row + 2)).filter I.hasWidget ++
                (d.selected .Protocol).filter I.hasWidget = []
          else I.hasWidget other = false
  | .bottom type row =>
      row + 1 < (d.selected type).length → ∀ info, (d.selected type)[row]? = some info →
        I.hasWidget info = true →
          if type = .Filter then (d.selected .Protocol).filter I.hasWidget = []
          else ((d.selected type).drop (row + 1)).filter I.hasWidget = []
  | _ => True

/-- The order of the widgets is that of the plugins. -/
def Ordered (I : PluginInfos) (d : PluginConfigDialog) : Prop :=
  d.m_allConfigWidget.m_widgets = widgetsOf I d.selected

section
variable (hv : d.Valid I) (hw : d.Ordered I) (type : PluginType) (row : ℕ)
include hv hw

/-- A move of a filter with a widget moves the widget, other moves leave the widgets as they
are. -/
theorem moved_ordered_iff {info : PluginInfoPtr} (hmem : info ∈ d.selected type)
    {place : ℕ → Option ℕ} {toRow : ℕ} {l : List PluginInfoPtr} {A B : Prop}
    (hmoved : Moves.relocate (d.selected type) row toRow = l)
    (hfilter : type = .Filter → I.hasWidget info = true →
      ((d.m_allConfigWidget.moveFilter I info place).m_widgets =
        widgetsOf I (Function.update d.selected type l) ↔ A))
    (hstay : d.m_allConfigWidget.m_widgets = widgetsOf I (Function.update d.selected type l) ↔
      (I.hasWidget info = true → B)) :
    (moveSelectedPlugin
        { d with m_allConfigWidget := d.m_allConfigWidget.moveFilter I info place }
        type row toRow).Ordered I ↔
      (I.hasWidget info = true → if type = .Filter then A else B) := by
  unfold Ordered moveSelectedPlugin
  dsimp only
  rw [hmoved]
  by_cases h : type = .Filter ∧ I.hasWidget info = true
  · obtain ⟨htype, hhas⟩ := h
    rw [if_pos htype, forall_prop_of_true hhas]
    exact hfilter htype hhas
  · rw [not_and, Bool.not_eq_true] at h
    rw [moveFilter_stays hv hw hmem h]
    refine hstay.trans (forall_congr' fun hhas => ?_)
    rw [if_neg fun ht => absurd (h ht) (by simp [hhas])]

theorem topClicked_iff :
    (d.topClicked I type row).Ordered I ↔ d.KeepsOrder I (.top type row) := by
  unfold topClicked
  cases hrow : (d.selected type)[row]? with
  | none =>
      refine iff_of_true hw fun _ info hinfo => ?_
      cases hrow.symm.trans hinfo
  | some info =>
      have hmem := List.mem_of_getElem? hrow
      obtain ⟨a, b, c, hsplit, ha, hlen⟩ := Moves.exists_split_left hrow (Nat.zero_le row)
      obtain rfl := List.length_eq_zero_iff.mp ha
      rw [List.nil_append] at hsplit
      rw [List.length_nil, Nat.zero_add] at hlen
      have hmoved : Moves.relocate (d.selected type) row 0 = info :: (b ++ c) := by
        have h := Moves.relocate_left [] b c info
        rwa [List.nil_append, List.length_nil, Nat.zero_add, hlen, ← hsplit] at h
      have htake : (d.selected type).take row = b := by rw [hsplit, ← hlen]; simp
      have hkeeps : d.KeepsOrder I (.top type row) ↔
          (I.hasWidget info = true →
            if type = .Filter then True else b.filter I.hasWidget = []) := by
        simp only [KeepsOrder, hrow, htake, Option.some.injEq, forall_eq']
        split_ifs <;> tauto
      rw [hkeeps]
      dsimp only
      by_cases h0 : row = 0
      · rw [if_pos h0]
        refine iff_of_true hw fun _ => ?_
        rw [List.length_eq_zero_iff.mp (hlen.trans h0)]
        split_ifs
        rfl
      · rw [if_neg h0]
        refine moved_ordered_iff hv hw _ _ hmem hmoved (fun htype hhas => ?_)
          (stay_left_iff (a := []) hv hw hsplit)
        subst htype
        exact iff_true_intro (top_filter hv hw hsplit hhas)

theorem upClicked_iff :
    (d.upClicked I type row).Ordered I ↔ d.KeepsOrder I (.up type row) := by
  unfold upClicked
  cases hrow : (d.selected type)[row]? with
  | none =>
      refine iff_of_true hw fun _ info _ hinfo => ?_
      cases hrow.symm.trans hinfo
  | some info =>
      dsimp only
      split_ifs with h0
      · exact iff_of_true hw fun hne => absurd h0 hne
      have hmem := List.mem_of_getElem? hrow
      obtain ⟨a, b, c, hsplit, ha, hlen⟩ := Moves.exists_split_left hrow (Nat.sub_le row 1)
      obtain ⟨other, rfl⟩ := List.length_eq_one_iff.mp (show b.length = 1 by omega)
      have hmoved :
          Moves.relocate (d.selected type) row (row - 1) = a ++ info :: ([other] ++ c) := by
        rw [← ha, ← hlen, hsplit, Moves.relocate_left]
      have hother : (d.selected type)[row - 1]? = some other := by rw [hsplit, ← ha]; simp
      have htake : (d.selected type).take (row - 1) = a := by rw [hsplit, ← ha]; simp
      have hkeeps : d.KeepsOrder I (.up type row) ↔ (I.hasWidget info = true →
          if type = .Filter then I.hasWidget other = true ∨ a.filter I.hasWidget = []
          else I.hasWidget other = false) := by
        simp [KeepsOrder, hrow, hother, htake, h0]
      rw [hkeeps]
      refine moved_ordered_iff hv hw _ _ hmem hmoved (fun htype hhas => ?_) ?_
      · subst htype
        exact up_filter_iff hv hw hsplit hhas
      · rw [stay_left_iff hv hw hsplit]
        simp

theorem downClicked_iff :
    (d.downClicked I type row).Ordered I ↔ d.KeepsOrder I (.down type row) := by
  unfold downClicked
  cases hrow : (d.selected type)[row]? with
  | none =>
      refine iff_of_true hw fun info _ hinfo => ?_
      cases hrow.symm.trans hinfo
  | some info =>
      dsimp only
      split_ifs with hlast
      · refine iff_of_true hw fun _ other _ hother => ?_
        rw [List.getElem?_eq_none hlast] at hother
        cases hother
      have hmem := List.mem_of_getElem? hrow
      obtain ⟨a, b, c, hsplit, ha, hlen⟩ :=
        Moves.exists_split_right hrow (show row ≤ row + 1 by omega) (not_le.mp hlast)
      obtain ⟨other, rfl⟩ := List.length_eq_one_iff.mp (show b.length = 1 by omega)
      have hmoved : Moves.relocate (d.selected type) row (row + 1) = a ++ [other] ++ info :: c := by
        rw [← hlen, ← ha, hsplit, Moves.relocate_right]
      have hother : (d.selected type)[row + 1]? = some other := by
        rw [hsplit, ← ha, List.getElem?_append_right (Nat.le_succ _)]
        simp
      have hdrop : (d.selected type).drop (row + 2) = c := by
        rw [hsplit, ← ha, List.drop_append]
        simp
      have hkeeps : d.KeepsOrder I (.down type row) ↔ (I.hasWidget info = true →
          if type = .Filter then
            I.hasWidget other = true ∨
              c.filter I.hasWidget ++ (d.selected .Protocol).filter I.hasWidget = []
          else I.hasWidget other = false) := by
        simp only [KeepsOrder, hrow, hother, hdrop, Option.some.injEq]
        exact ⟨fun h => h info other rfl rfl, fun h _ _ hi ho => hi ▸ ho ▸ h⟩
      rw [hkeeps]
      refine moved_ordered_iff hv hw _ _ hmem hmoved (fun htype hhas => ?_) ?_
      · subst htype
        exact down_filter_iff hv hw hsplit hhas
      · rw [stay_right_iff hv hw hsplit]
        simp

theorem bottomClicked_iff :
    (d.bottomClicked I type row).Ordered I ↔ d.KeepsOrder I (.bottom type row) := by
  unfold bottomClicked
  cases hrow : (d.selected type)[row]? with
  | none =>
      refine iff_of_true hw fun _ info hinfo => ?_
      cases hrow.symm.trans hinfo
  | some info =>
      dsimp only
      split_ifs with hlast
      · exact iff_of_true hw fun hlt => absurd hlast (not_le.mpr hlt)
      have hlt := not_le.mp hlast
      have hmem := List.mem_of_getElem? hrow
      obtain ⟨a, b, c, hsplit, ha, hlen⟩ := Moves.exists_split_right hrow
        (show row ≤ (d.selected type).length - 1 by omega) (by omega)
      have hc : c = [] := by
        have h := congrArg List.length hsplit
        rw [List.length_append, List.length_cons, List.length_append] at h
        exact List.length_eq_zero_iff.mp (by omega)
      subst hc
      have hmoved : Moves.relocate (d.selected type) row ((d.selected type).length - 1) =
          a ++ b ++ [info] := by
        rw [← hlen, ← ha, hsplit, Moves.relocate_right]
      have hdrop : (d.selected type).drop (row + 1) = b := by
        rw [hsplit, ← ha, List.drop_append]
        simp
      have hkeeps : d.KeepsOrder I (.bottom type row) ↔ (I.hasWidget info = true →
          if type = .Filter then (d.selected .Protocol).filter I.hasWidget = []
          else b.filter I.hasWidget = []) := by
        simp [KeepsOrder, hrow, hdrop, hlt]
      rw [hkeeps]
      refine moved_ordered_iff hv hw _ _ hmem hmoved (fun htype hhas => ?_)
        (stay_right_iff hv hw hsplit)
      subst htype
      rw [List.append_nil] at hsplit
      exact bottom_filter_iff hv hw hsplit hhas

end

/-! ### Runs -/

theorem types_update (hv : d.Valid I) {type : PluginType} {l : List PluginInfoPtr}
    (hl : ∀ y ∈ l, I.getType y = type) :
    ∀ type', ∀ y ∈ Function.update d.selected type l type', I.getType y = type' := by
  intro type' y hy
  by_cases h : type' = type
  · subst h
    rw [Function.update_self] at hy
    exact hl y hy
  · rw [Function.update_of_ne h] at hy
    exact hv.types _ y hy

theorem Valid.move (hv : d.Valid I) {w : PluginConfigWrapsListWidget} (hw : w.Valid)
    (type : PluginType) (fromRow toRow : ℕ) :
    (moveSelectedPlugin { d with m_allConfigWidget := w } type fromRow toRow).Valid I := by
  exact ⟨types_update hv fun y hy => hv.types _ y (Moves.mem_of_mem_relocate hy), hw⟩

/-- A click that moves a plugin and its widget, unless it has no place to go. -/
theorem Valid.moveClicked (hv : d.Valid I) (type : PluginType) (curRow toRow : ℕ) (stays : Prop)
    [Decidable stays] {move : PluginInfoPtr → PluginConfigWrapsListWidget}
    (hmove : ∀ info, (move info).Valid) :
    (match (d.selected type)[curRow]? with
      | none => d
      | some info =>
          if stays then d
          else { d with m_allConfigWidget := move info }.moveSelectedPlugin type curRow
            toRow).Valid I := by
  split
  · exact hv
  · split_ifs
    · exact hv
    · exact hv.move (hmove _) _ _ _

theorem refreshSelectedPlugins_valid (hw : d.m_allConfigWidget.Valid)
    {infos : List PluginInfoPtr} {d' : PluginConfigDialog}
    (h : d.refreshSelectedPlugins I infos = some d') : d'.Valid I ∧ d'.Ordered I := by
  obtain ⟨w, hfold, rfl⟩ := Option.map_eq_some_iff.mp h
  refine ⟨⟨fun type y hy => by simpa using (List.mem_filter.mp hy).2,
    foldlM_addPluginConfig_valid hw.removeAll hfold⟩, ?_⟩
  exact foldlM_addPluginConfig_follows [] rfl hfold

theorem addClicked_valid (hv : d.Valid I) {info : PluginInfoPtr} {d' : PluginConfigDialog}
    (h : d.addClicked I info = some d') : d'.Valid I ∧ (d.Ordered I → d'.Ordered I) := by
  unfold addClicked at h
  dsimp only at h
  split_ifs at h
  · cases h
    exact ⟨hv, id⟩
  · cases h
    exact ⟨hv, id⟩
  · obtain ⟨w, hadd, rfl⟩ := Option.map_eq_some_iff.mp h
    refine ⟨⟨types_update hv fun y hy => ?_, hv.wraps.addPluginConfig hadd⟩,
      fun hw => addPluginConfig_follows hv.types hw hadd⟩
    rcases List.mem_append.mp hy with hy | hy
    · exact hv.types _ y hy
    · rw [List.mem_singleton.mp hy]

theorem removeClicked_valid (hv : d.Valid I) (type : PluginType) (row : ℕ) :
    (d.removeClicked I type row).Valid I ∧
      (d.Ordered I → (d.removeClicked I type row).Ordered I) := by
  unfold removeClicked
  cases hrow : (d.selected type)[row]? with
  | none => exact ⟨hv, id⟩
  | some info =>
      have htypes := types_update (l := (d.selected type).eraseIdx row) hv fun y hy =>
        hv.types type y ((List.eraseIdx_sublist _ _).subset hy)
      exact ⟨⟨htypes, hv.wraps.removePluginConfig⟩,
        fun hw => removePluginConfig_follows hv hw hrow⟩

theorem clearClicked_valid (hv : d.Valid I) :
    d.clearClicked.Valid I ∧ d.clearClicked.Ordered I :=
  ⟨⟨fun _ y hy => absurd hy (by simp [clearClicked]), hv.wraps.removeAll⟩, rfl⟩

/-- Every click keeps the dialog valid. -/
theorem Valid.step (hv : d.Valid I) {e : Event} {d' : PluginConfigDialog}
    (h : d.step I e = some d') : d'.Valid I := by
  cases e with
  | add info => exact (addClicked_valid hv h).1
  | remove type row =>
      cases h
      exact (removeClicked_valid hv type row).1
  | clear =>
      cases h
      exact (clearClicked_valid hv).1
  | load infos =>
      unfold PluginConfigDialog.step loadClicked at h
      dsimp only at h
      split_ifs at h
      · cases h
        exact hv
      · exact (refreshSelectedPlugins_valid hv.wraps h).1
  | top type row =>
      cases h
      exact hv.moveClicked type row _ _ fun _ => hv.wraps.moveFilter _
  | up type row =>
      cases h
      exact hv.moveClicked type row _ _ fun _ => hv.wraps.moveFilter _
  | down type row =>
      cases h
      exact hv.moveClicked type row _ _ fun _ => hv.wraps.moveFilter _
  | bottom type row =>
      cases h
      exact hv.moveClicked type row _ _ fun _ => hv.wraps.moveFilter _

/-- **One click** keeps the order of the widgets exactly if it moves no widget otherwise than its
plugin. -/
theorem step_ordered_iff (hv : d.Valid I) (hw : d.Ordered I) (e : Event) :
    (∀ d', d.step I e = some d' → d'.Ordered I) ↔ d.KeepsOrder I e := by
  cases e with
  | add info => exact iff_of_true (fun d' h => (addClicked_valid hv h).2 hw) trivial
  | remove type row =>
      refine iff_of_true (fun d' h => ?_) trivial
      cases h
      exact (removeClicked_valid hv type row).2 hw
  | clear =>
      refine iff_of_true (fun d' h => ?_) trivial
      cases h
      exact (clearClicked_valid hv).2
  | load infos =>
      refine iff_of_true (fun d' h => ?_) trivial
      unfold PluginConfigDialog.step loadClicked at h
      dsimp only at h
      split_ifs at h
      · cases h
        exact hw
      · exact (refreshSelectedPlugins_valid hv.wraps h).2
  | top type row =>
      rw [← topClicked_iff hv hw]
      simp [PluginConfigDialog.step]
  | up type row =>
      rw [← upClicked_iff hv hw]
      simp [PluginConfigDialog.step]
  | down type row =>
      rw [← downClicked_iff hv hw]
      simp [PluginConfigDialog.step]
  | bottom type row =>
      rw [← bottomClicked_iff hv hw]
      simp [PluginConfigDialog.step]

/-- A click in a dialog that is still there. -/
def next (I : PluginInfos) (s : Option PluginConfigDialog) (e : Event) :
    Option PluginConfigDialog :=
  s.bind fun d => d.step I e

/-- **The widgets follow the selected plugins in every state of a run** exactly if no click of it
moves a widget otherwise than its plugin; the dialog starts with the plugins that are applied. -/
theorem widgets_follow_iff (I : PluginInfos) (appliedPlugins : List PluginInfoPtr)
    (evs : List Event) :
    Runs.Always (next I) (refreshSelectedPlugins I {} appliedPlugins) evs
        (fun s => ∀ d, s = some d → d.Follows I) ↔
      Runs.Along (next I) (refreshSelectedPlugins I {} appliedPlugins) evs
        fun s e => ∀ d, s = some d → d.KeepsOrder I e := by
  have hstep : ∀ s e, (∀ d, s = some d → d.Valid I) → ∀ d, next I s e = some d → d.Valid I := by
    intro s e hs d' hd'
    obtain ⟨d, hd, hnext⟩ := Option.bind_eq_some_iff.mp hd'
    exact (hs d hd).step hnext
  have hkeep : ∀ s e, (∀ d, s = some d → d.Valid I) → (∀ d, s = some d → d.Follows I) →
      ((∀ d', next I s e = some d' → d'.Follows I) ↔ ∀ d, s = some d → d.KeepsOrder I e) := by
    intro s e hs hfollows
    cases s with
    | none => exact iff_of_true nofun nofun
    | some d =>
        have hv := hs d rfl
        have hiff := step_ordered_iff hv (hfollows d rfl).widgets e
        constructor
        · rintro h d' hd'
          cases hd'
          exact hiff.mp fun d' hd' => (h d' hd').widgets
        · intro h d' hd'
          exact (hv.step hd').follows_iff.mpr (hiff.mpr (h d rfl) d' hd')
  refine Runs.always_iff_along_of_inv hstep hkeep (fun d hd => ?_) fun d hd => ?_
  · exact (refreshSelectedPlugins_valid .init hd).1
  · obtain ⟨hv, hw⟩ := refreshSelectedPlugins_valid .init hd
    exact hv.follows_iff.mpr hw

/-- Plugin 0 is a socket, 1 a protocol and the others are filters, each with a widget. -/
def samplePlugins : PluginInfos where
  getType info := if info = 0 then .Socket else if info = 1 then .Protocol else .Filter
  getIid info := List.replicate info 'p'
  getIid_injective info info' h := by simpa using congrArg List.length h
  loadPlugin _ := true
  createConfigurationWidget _ := true

/-- The first of two filters is moved to the bottom, its widget goes behind the protocol's. -/
theorem bottom_moves_behind_protocol :
    ¬ Runs.Always (next samplePlugins) (refreshSelectedPlugins samplePlugins {} [0, 2, 3, 1])
      [.bottom .Filter 0] fun s => ∀ d, s = some d → d.Follows samplePlugins := by
  intro h
  have hlast := (h [.bottom .Filter 0] [] rfl _ rfl).widgets
  have hmoved : [0, 3, 1, 2] = [0, 3, 2, 1] := hlast
  exact absurd hmoved (by decide)

end PluginConfigDialog

end CcToolsQt
