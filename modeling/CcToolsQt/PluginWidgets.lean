import CcToolsQt.Gui
import CcToolsQt.Lib.Bisect
import CcToolsQt.Lib.Moves

/-! # The configuration widgets of plugins

`PluginConfigWrapsListWidget` keeps the configuration widgets of the selected plugins, sorted by
the type of the plugin: `addPluginConfig` and the moves of a filter look for the places of a type
by binary search.  A plugin may have no such widget.

* `addPluginConfig_widgets`: a widget goes behind those of its type.
* `moveTop_widgets`: a filter moved to the top is the first filter.
* `moveUp_widgets`, `moveDown_widgets`, `moveBottom_widgets`: the other moves change places with
  the widget next to the one moved, whatever its plugin is, or go one too far.
* `InLayout`: the layout shows the widgets in their order, with the stretch behind them. -/

namespace CcToolsQt

/-- `PluginInfo::Type`; a plugin of type `Invalid` is not available. -/
inductive PluginType where
  | Socket
  | Filter
  | Protocol
  deriving DecidableEq

def PluginType.value : PluginType → ℕ
  | Socket => 1
  | Filter => 2
  | Protocol => 3

/-- The available plugins, each of which has an IID of its own. -/
structure PluginInfos where
  getType : PluginInfoPtr → PluginType
  getIid : PluginInfoPtr → QString
  getIid_injective : Function.Injective getIid
  /-- `loadPlugin` gives a plugin. -/
  loadPlugin : PluginInfoPtr → Bool
  /-- `createConfigurationWidget` gives a widget. -/
  createConfigurationWidget : PluginInfoPtr → Bool

def PluginInfos.hasWidget (I : PluginInfos) (info : PluginInfoPtr) : Bool :=
  I.loadPlugin info && I.createConfigurationWidget info

/-- A widget stands for the plugin it configures, in the layout `none` is the stretch. -/
structure PluginConfigWrapsListWidget where
  m_widgets : List PluginInfoPtr := []
  m_loadedPlugins : List PluginInfoPtr := []
  layout : List (Option PluginInfoPtr) := [none]

namespace PluginConfigWrapsListWidget
variable (I : PluginInfos)

/-! ### The list -/

/-- `std::upper_bound` over the widgets. -/
def upperBound (w : PluginConfigWrapsListWidget) (type : PluginType) : ℕ :=
  Bisect.partitionPoint (fun info => !decide (type.value < (I.getType info).value)) w.m_widgets

/-- `std::lower_bound` over the widgets. -/
def lowerBound (w : PluginConfigWrapsListWidget) (type : PluginType) : ℕ :=
  Bisect.partitionPoint (fun info => decide ((I.getType info).value < type.value)) w.m_widgets

/-- `none` is the assertion that the plugin is not in the list. -/
def addPluginConfig (w : PluginConfigWrapsListWidget) (info : PluginInfoPtr) :
    Option PluginConfigWrapsListWidget :=
  if !I.loadPlugin info then some w
  else if info ∈ w.m_loadedPlugins then none
  else
    let w := { w with m_loadedPlugins := w.m_loadedPlugins ++ [info] }
    if !I.createConfigurationWidget info then some w
    else
      let idx := w.upperBound I (I.getType info)
      some { w with
        m_widgets := w.m_widgets.insertIdx idx info
        layout := w.layout.insertIdx idx (some info) }

def findWidgetIdx (w : PluginConfigWrapsListWidget) (info : PluginInfoPtr) : Option ℕ :=
  w.m_widgets.findIdx? fun info' => I.getIid info' == I.getIid info

/-- The layout loses the item of a widget that is deleted. -/
def removePluginConfig (w : PluginConfigWrapsListWidget) (info : PluginInfoPtr) :
    PluginConfigWrapsListWidget :=
  let w :=
    if I.loadPlugin info then { w with m_loadedPlugins := w.m_loadedPlugins.erase info } else w
  match w.findWidgetIdx I info with
  | none => w
  | some idx =>
      { w with m_widgets := w.m_widgets.eraseIdx idx, layout := w.layout.erase w.m_widgets[idx]? }

def removeAll (w : PluginConfigWrapsListWidget) : PluginConfigWrapsListWidget where
  m_widgets := []
  m_loadedPlugins := []
  layout := w.layout.diff (w.m_widgets.map some)

def getTopFilterIdx (w : PluginConfigWrapsListWidget) : ℕ := w.lowerBound I .Filter

/-- One behind the last filter. -/
def getBottomFilterIdx (w : PluginConfigWrapsListWidget) : ℕ := w.upperBound I .Filter

/-- The place is cut to the widgets left as one is taken out. -/
def relocateWidget (w : PluginConfigWrapsListWidget) (fromIdx toIdx : ℕ) :
    PluginConfigWrapsListWidget :=
  let toIdx := min toIdx (w.m_widgets.length - 1)
  { w with
    m_widgets := Moves.relocate w.m_widgets fromIdx toIdx
    layout := Moves.relocate w.layout fromIdx toIdx }

/-- What the four moves share: filters that have a widget are relocated. -/
def moveFilter (w : PluginConfigWrapsListWidget) (info : PluginInfoPtr)
    (place : ℕ → Option ℕ) : PluginConfigWrapsListWidget :=
  if I.getType info ≠ .Filter then w
  else
    match w.findWidgetIdx I info with
    | none => w
    | some idx =>
        match place idx with
        | none => w
        | some toIdx => w.relocateWidget idx toIdx

def moveTop (w : PluginConfigWrapsListWidget) (info : PluginInfoPtr) :
    PluginConfigWrapsListWidget :=
  w.moveFilter I info fun idx =>
    if idx ≤ w.getTopFilterIdx I then none else some (w.getTopFilterIdx I)

def moveBottom (w : PluginConfigWrapsListWidget) (info : PluginInfoPtr) :
    PluginConfigWrapsListWidget :=
  w.moveFilter I info fun idx =>
    if w.getBottomFilterIdx I ≤ idx then none else some (w.getBottomFilterIdx I)

def moveUp (w : PluginConfigWrapsListWidget) (info : PluginInfoPtr) :
    PluginConfigWrapsListWidget :=
  w.moveFilter I info fun idx =>
    if idx ≤ 0 ∨ idx ≤ w.getTopFilterIdx I then none else some (idx - 1)

def moveDown (w : PluginConfigWrapsListWidget) (info : PluginInfoPtr) :
    PluginConfigWrapsListWidget :=
  w.moveFilter I info fun idx =>
    if w.getBottomFilterIdx I ≤ idx then none else some (idx + 1)

/-! ### Places -/

variable {I}
variable {w : PluginConfigWrapsListWidget} {info : PluginInfoPtr}

theorem findWidgetIdx_of_not_mem (h : info ∉ w.m_widgets) : w.findWidgetIdx I info = none := by
  refine List.findIdx?_eq_none_iff.mpr fun info' hinfo' => ?_
  refine beq_eq_false_iff_ne.mpr fun heq => h ?_
  exact I.getIid_injective heq ▸ hinfo'

theorem findWidgetIdx_of_split {l₁ l₂ : List PluginInfoPtr} (h : w.m_widgets = l₁ ++ info :: l₂)
    (hnot : info ∉ l₁) : w.findWidgetIdx I info = some l₁.length := by
  have hnone : l₁.findIdx? (fun info' => I.getIid info' == I.getIid info) = none :=
    findWidgetIdx_of_not_mem (w := { m_widgets := l₁ }) hnot
  unfold findWidgetIdx
  rw [h, List.findIdx?_append, hnone, List.findIdx?_cons]
  simp

/-- The widgets of filters stand between those of sockets and those of protocols. -/
structure Parted (I : PluginInfos) (S F P : List PluginInfoPtr) : Prop where
  sockets : ∀ y ∈ S, I.getType y = .Socket
  filters : ∀ y ∈ F, I.getType y = .Filter
  protocols : ∀ y ∈ P, I.getType y = .Protocol

namespace Parted
variable {S F P : List PluginInfoPtr} (h : Parted I S F P)
include h

theorem getTopFilterIdx (hw : w.m_widgets = S ++ F ++ P) : w.getTopFilterIdx I = S.length := by
  unfold PluginConfigWrapsListWidget.getTopFilterIdx lowerBound
  rw [hw, List.append_assoc]
  refine Bisect.partitionPoint_append (fun y hy => ?_) fun y hy => ?_
  · rw [h.sockets y hy]
    rfl
  · rcases List.mem_append.mp hy with hy | hy
    · rw [h.filters y hy]
      rfl
    · rw [h.protocols y hy]
      rfl

theorem getBottomFilterIdx (hw : w.m_widgets = S ++ F ++ P) :
    w.getBottomFilterIdx I = S.length + F.length := by
  unfold PluginConfigWrapsListWidget.getBottomFilterIdx upperBound
  rw [hw, ← List.length_append]
  refine Bisect.partitionPoint_append (fun y hy => ?_) fun y hy => ?_
  · rcases List.mem_append.mp hy with hy | hy
    · rw [h.sockets y hy]
      rfl
    · rw [h.filters y hy]
      rfl
  · rw [h.protocols y hy]
    rfl

end Parted

/-! ### Moves -/

theorem relocateWidget_left {a b c : List PluginInfoPtr} (hw : w.m_widgets = a ++ b ++ info :: c)
    {fromIdx toIdx : ℕ} (hfrom : fromIdx = a.length + b.length) (hto : toIdx = a.length) :
    (w.relocateWidget fromIdx toIdx).m_widgets = a ++ info :: (b ++ c) := by
  have hmin : min toIdx (w.m_widgets.length - 1) = a.length := by
    rw [hw, List.length_append, List.length_append, List.length_cons]
    omega
  unfold relocateWidget
  dsimp only
  rw [hmin, hfrom, hw, Moves.relocate_left]

theorem relocateWidget_right {a b c : List PluginInfoPtr}
    (hw : w.m_widgets = a ++ info :: (b ++ c)) {fromIdx toIdx : ℕ} (hfrom : fromIdx = a.length)
    (hto : min toIdx (a.length + (b.length + c.length)) = a.length + b.length) :
    (w.relocateWidget fromIdx toIdx).m_widgets = a ++ b ++ info :: c := by
  have hmin : min toIdx (w.m_widgets.length - 1) = a.length + b.length := by
    rw [← hto, hw, List.length_append, List.length_cons, List.length_append]
    congr 1
  unfold relocateWidget
  dsimp only
  rw [hmin, hfrom, hw, Moves.relocate_right]

section
variable {S B C P : List PluginInfoPtr} (h : Parted I S (B ++ info :: C) P)
variable (hw : w.m_widgets = S ++ (B ++ info :: C) ++ P) (hnd : w.m_widgets.Nodup)
include h hw hnd

/-- A filter with a widget is found where it is. -/
theorem moveFilter_eq (place : ℕ → Option ℕ) :
    w.moveFilter I info place =
      match place (S.length + B.length) with
      | none => w
      | some toIdx => w.relocateWidget (S.length + B.length) toIdx := by
  have hfilter : I.getType info = .Filter := h.filters info (by simp)
  have hsplit : w.m_widgets = S ++ B ++ info :: (C ++ P) := by simp [hw]
  have hnot : info ∉ S ++ B := by
    rw [hsplit] at hnd
    exact fun hmem => (List.nodup_append'.mp hnd).2.2 hmem List.mem_cons_self
  unfold moveFilter
  rw [if_neg (not_not.mpr hfilter), findWidgetIdx_of_split hsplit hnot, List.length_append]

/-- A filter moved to the top stands in front of the other filters. -/
theorem moveTop_widgets : (w.moveTop I info).m_widgets = S ++ (info :: (B ++ C)) ++ P := by
  unfold moveTop
  rw [moveFilter_eq h hw hnd, h.getTopFilterIdx hw]
  by_cases hle : S.length + B.length ≤ S.length
  · have hB : B = [] := List.length_eq_zero_iff.mp (by omega)
    rw [if_pos hle, hw, hB]
    rfl
  · have hsplit : w.m_widgets = S ++ B ++ info :: (C ++ P) := by simp [hw]
    rw [if_neg hle]
    exact (relocateWidget_left hsplit rfl rfl).trans (by simp)

/-- The first filter stays when it is moved up. -/
theorem moveUp_widgets_of_first (hB : B = []) : (w.moveUp I info).m_widgets = w.m_widgets := by
  have hle : S.length + B.length ≤ S.length := by simp [hB]
  unfold moveUp
  rw [moveFilter_eq h hw hnd, h.getTopFilterIdx hw, if_pos (Or.inr hle)]

/-- Any other filter changes places with the one in front of it. -/
theorem moveUp_widgets {B' : List PluginInfoPtr} {z : PluginInfoPtr} (hB : B = B' ++ [z]) :
    (w.moveUp I info).m_widgets = S ++ (B' ++ info :: z :: C) ++ P := by
  have hlen : B.length = B'.length + 1 := by simp [hB]
  have hsplit : w.m_widgets = S ++ B' ++ [z] ++ info :: (C ++ P) := by simp [hw, hB]
  unfold moveUp
  rw [moveFilter_eq h hw hnd, h.getTopFilterIdx hw, if_neg (by omega)]
  refine (relocateWidget_left hsplit ?_ ?_).trans (by simp)
  · rw [List.length_append, List.length_singleton]
    omega
  · rw [List.length_append]
    omega

omit hnd in
/-- A filter is in front of the place behind the last filter. -/
theorem not_bottom_le : ¬ w.getBottomFilterIdx I ≤ S.length + B.length := by
  rw [h.getBottomFilterIdx hw, List.length_append, List.length_cons]
  omega

/-- A filter that is moved down when there is no widget behind it stays. -/
theorem moveDown_widgets_of_last (hCP : C ++ P = []) :
    (w.moveDown I info).m_widgets = w.m_widgets := by
  have hsplit : w.m_widgets = S ++ B ++ info :: ([] ++ (C ++ P)) := by simp [hw]
  unfold moveDown
  rw [moveFilter_eq h hw hnd, if_neg (not_bottom_le h hw)]
  refine (relocateWidget_right hsplit List.length_append.symm ?_).trans (by simp [hsplit])
  rw [hCP, List.length_append, List.length_nil]
  omega

/-- Any other filter changes places with the widget behind it. -/
theorem moveDown_widgets {D : List PluginInfoPtr} {z : PluginInfoPtr} (hCP : C ++ P = z :: D) :
    (w.moveDown I info).m_widgets = S ++ B ++ z :: info :: D := by
  have hsplit : w.m_widgets = S ++ B ++ info :: ([z] ++ D) := by simp [hw, ← hCP]
  unfold moveDown
  rw [moveFilter_eq h hw hnd, if_neg (not_bottom_le h hw)]
  refine (relocateWidget_right hsplit List.length_append.symm ?_).trans (by simp)
  rw [List.length_append, List.length_singleton]
  omega

/-- A filter that is moved to the bottom when there is no protocol is the last widget. -/
theorem moveBottom_widgets_of_last (hP : P = []) :
    (w.moveBottom I info).m_widgets = S ++ (B ++ C ++ [info]) := by
  have hsplit : w.m_widgets = S ++ B ++ info :: (C ++ []) := by simp [hw, hP]
  have hle := not_bottom_le h hw
  unfold moveBottom
  rw [moveFilter_eq h hw hnd, if_neg hle]
  refine (relocateWidget_right hsplit List.length_append.symm ?_).trans (by simp)
  rw [h.getBottomFilterIdx hw, List.length_append, List.length_append, List.length_cons,
    List.length_nil]
  omega

/-- Otherwise it goes behind the first protocol. -/
theorem moveBottom_widgets {P' : List PluginInfoPtr} {q : PluginInfoPtr} (hP : P = q :: P') :
    (w.moveBottom I info).m_widgets = S ++ (B ++ C) ++ q :: info :: P' := by
  have hsplit : w.m_widgets = S ++ B ++ info :: ((C ++ [q]) ++ P') := by simp [hw, hP]
  unfold moveBottom
  rw [moveFilter_eq h hw hnd, if_neg (not_bottom_le h hw)]
  refine (relocateWidget_right hsplit List.length_append.symm ?_).trans (by simp)
  rw [h.getBottomFilterIdx hw, List.length_append, List.length_append, List.length_append,
    List.length_cons, List.length_singleton]
  omega

end

/-! ### Additions and removals -/

/-- A widget that is added goes behind those of its type. -/
theorem addPluginConfig_widgets {l₁ l₂ : List PluginInfoPtr} {w' : PluginConfigWrapsListWidget}
    (hw : w.m_widgets = l₁ ++ l₂)
    (h₁ : ∀ y ∈ l₁, (I.getType y).value ≤ (I.getType info).value)
    (h₂ : ∀ y ∈ l₂, (I.getType info).value < (I.getType y).value)
    (h : w.addPluginConfig I info = some w') :
    w'.m_widgets = l₁ ++ [info].filter I.hasWidget ++ l₂ := by
  have hidx : w.upperBound I (I.getType info) = l₁.length := by
    unfold upperBound
    rw [hw]
    refine Bisect.partitionPoint_append (fun y hy => ?_) fun y hy => ?_
    · simpa using h₁ y hy
    · simpa using h₂ y hy
  unfold addPluginConfig at h
  dsimp only at h
  split_ifs at h with hload hmem hcreate
  · cases h
    have hnone : I.hasWidget info = false := by simp_all [PluginInfos.hasWidget]
    simp [hnone, hw]
  · cases h
    have hnone : I.hasWidget info = false := by simp_all [PluginInfos.hasWidget]
    simp [hnone, hw]
  · cases h
    have hhas : I.hasWidget info = true := by simp_all [PluginInfos.hasWidget]
    have hins : l₁.length = w.upperBound I (I.getType info) := hidx.symm
    show w.m_widgets.insertIdx (w.upperBound I (I.getType info)) info = _
    rw [← hins, hw, Moves.insertIdx_length]
    simp [hhas]

/-- The widget of a plugin is removed, wherever it is. -/
theorem removePluginConfig_eq :
    w.removePluginConfig I info =
      { m_widgets := w.m_widgets.erase info
        m_loadedPlugins :=
          if I.loadPlugin info then w.m_loadedPlugins.erase info else w.m_loadedPlugins
        layout := if info ∈ w.m_widgets then w.layout.erase (some info) else w.layout } := by
  unfold removePluginConfig
  generalize hw₁ : (if I.loadPlugin info then
    { w with m_loadedPlugins := w.m_loadedPlugins.erase info } else w) = w₁
  have hwidgets : w₁.m_widgets = w.m_widgets := by rw [← hw₁]; split_ifs <;> rfl
  have hlayout : w₁.layout = w.layout := by rw [← hw₁]; split_ifs <;> rfl
  have hloaded : w₁.m_loadedPlugins =
      if I.loadPlugin info then w.m_loadedPlugins.erase info else w.m_loadedPlugins := by
    rw [← hw₁]
    split_ifs <;> rfl
  dsimp only
  rw [← hwidgets, ← hlayout, ← hloaded]
  by_cases hmem : info ∈ w₁.m_widgets
  · obtain ⟨l₁, l₂, hsplit, hnot⟩ := List.eq_append_cons_of_mem hmem
    have hget : w₁.m_widgets[l₁.length]? = some info := by simp [hsplit]
    have herase : w₁.m_widgets.eraseIdx l₁.length = w₁.m_widgets.erase info := by
      rw [hsplit, List.eraseIdx_append_of_length_le le_rfl, Nat.sub_self,
        List.erase_append_right _ hnot, List.erase_cons_head, List.eraseIdx_cons_zero]
    rw [findWidgetIdx_of_split hsplit hnot, if_pos hmem, ← herase]
    dsimp only
    rw [hget]
  · rw [findWidgetIdx_of_not_mem hmem, if_neg hmem, List.erase_of_not_mem hmem]

theorem removePluginConfig_widgets :
    (w.removePluginConfig I info).m_widgets = w.m_widgets.erase info := by
  rw [removePluginConfig_eq]

/-- The layout shows the widgets, each plugin is in the list once. -/
structure Valid (w : PluginConfigWrapsListWidget) : Prop where
  layout : w.layout = w.m_widgets.map some ++ [none]
  nodup : w.m_widgets.Nodup
  loaded : ∀ info ∈ w.m_widgets, info ∈ w.m_loadedPlugins
  loadedNodup : w.m_loadedPlugins.Nodup

namespace Valid

theorem init : Valid {} where
  layout := rfl
  nodup := List.nodup_nil
  loaded := by simp
  loadedNodup := List.nodup_nil

theorem addPluginConfig (hv : w.Valid) {w' : PluginConfigWrapsListWidget}
    (h : w.addPluginConfig I info = some w') : w'.Valid := by
  unfold PluginConfigWrapsListWidget.addPluginConfig at h
  dsimp only at h
  split_ifs at h with hload hmem hcreate
  · cases h
    exact hv
  · cases h
    exact ⟨hv.layout, hv.nodup, fun y hy => List.mem_append_left _ (hv.loaded y hy),
      List.nodup_append'.mpr ⟨hv.loadedNodup, List.nodup_singleton _, by simpa using hmem⟩⟩
  · cases h
    have hle : w.upperBound I (I.getType info) ≤ w.m_widgets.length :=
      Bisect.partitionPoint_le _ _
    have hperm := List.perm_insertIdx info w.m_widgets hle
    have hnot : info ∉ w.m_widgets := fun hw => hmem (hv.loaded info hw)
    refine ⟨?_, hperm.nodup_iff.mpr (List.nodup_cons.mpr ⟨hnot, hv.nodup⟩), fun y hy => ?_,
      List.nodup_append'.mpr ⟨hv.loadedNodup, List.nodup_singleton _, by simpa using hmem⟩⟩
    · show w.layout.insertIdx _ _ = _
      rw [hv.layout, Moves.insertIdx_append_left (by rwa [List.length_map]), List.map_insertIdx]
    · rcases List.mem_cons.mp (hperm.mem_iff.mp hy) with rfl | hy
      · exact List.mem_append_right _ List.mem_cons_self
      · exact List.mem_append_left _ (hv.loaded y hy)

theorem removePluginConfig (hv : w.Valid) : (w.removePluginConfig I info).Valid := by
  rw [removePluginConfig_eq]
  refine ⟨?_, hv.nodup.erase info, fun y hy => ?_, ?_⟩
  · dsimp only
    split_ifs with hmem
    · rw [hv.layout, List.erase_append_left _ (List.mem_map_of_mem hmem),
        List.map_erase (Option.some_injective _)]
    · rw [hv.layout, List.erase_of_not_mem hmem]
  · obtain ⟨hne, hy⟩ := (hv.nodup.mem_erase_iff).mp hy
    dsimp only
    split_ifs
    · exact (hv.loadedNodup.mem_erase_iff).mpr ⟨hne, hv.loaded y hy⟩
    · exact hv.loaded y hy
  · dsimp only
    split_ifs
    · exact hv.loadedNodup.erase info
    · exact hv.loadedNodup

theorem removeAll (hv : w.Valid) : w.removeAll.Valid := by
  have hdiff : ∀ l : List (Option PluginInfoPtr), (l ++ [none]).diff l = [none] := by
    intro l
    induction l with
    | nil => rfl
    | cons x l ih => rw [List.cons_append, List.diff_cons, List.erase_cons_head, ih]
  refine ⟨?_, List.nodup_nil, by simp [PluginConfigWrapsListWidget.removeAll], List.nodup_nil⟩
  show w.layout.diff _ = _
  rw [hv.layout, hdiff]
  rfl

theorem relocateWidget (hv : w.Valid) {fromIdx : ℕ} (hlt : fromIdx < w.m_widgets.length)
    (toIdx : ℕ) : (w.relocateWidget fromIdx toIdx).Valid := by
  have hto : min toIdx (w.m_widgets.length - 1) < w.m_widgets.length := by omega
  have hperm := Moves.relocate_perm (i := fromIdx) hto
  refine ⟨?_, hperm.nodup_iff.mpr hv.nodup, fun y hy => hv.loaded y (hperm.mem_iff.mp hy),
    hv.loadedNodup⟩
  unfold PluginConfigWrapsListWidget.relocateWidget
  dsimp only
  rw [hv.layout, Moves.relocate_append_of_lt (by rwa [List.length_map])
    (by rwa [List.length_map]), Moves.relocate_map]

/-- The moves keep the list valid, also when it is not sorted. -/
theorem moveFilter (hv : w.Valid) (place : ℕ → Option ℕ) :
    (w.moveFilter I info place).Valid := by
  unfold PluginConfigWrapsListWidget.moveFilter
  split_ifs
  · exact hv
  · split
    · exact hv
    · next idx hidx =>
        split
        · exact hv
        · exact hv.relocateWidget (List.findIdx?_eq_some_iff_findIdx_eq.mp hidx).1 _

end Valid

end PluginConfigWrapsListWidget

end CcToolsQt
