import CcToolsQt.EnumWidget
import CcToolsQt.IntWidgets

/-! # Fields as they are shown

Constructing a widget and refreshing it set its controls from the field.  The change of a control is
taken for an edit if the control cannot show the value: the enum box then stands at its placeholder,
a spin box at an end of its range.

* `showing_iff`: when an enum field and a short integer field keep their value. -/

namespace CcToolsQt

/-! ### Enum fields -/

namespace EnumValueFieldWidget
variable {F : ToolsEnumField}

def widget (F : ToolsEnumField) : FieldWidget State where
  value := fun s => s.value
  refresh := refresh F
  setSerialisedString := fun text s => { s with value := F.setSerialisedString s.value text }
  emitFieldUpdated := fun s => { s with emitted := s.emitted + 1 }
  construct := fun value t => construct F value = some t

/-- The value is shown as it is, or writing the placeholder gives it back. -/
structure Undisturbed (F : ToolsEnumField) (isEditEnabled : Bool) (s : State) : Prop where
  canWrite : F.canWrite s.value = true
  back : TakenForEdit F isEditEnabled s →
    written F (invValue F.values F.length) = some s.value

theorem isEntry_startIndex : IsEntry F (startIndex F) := by
  rw [startIndex, idxOffset_eq]
  split_ifs with hvalues
  · exact ⟨_, itemData_zero⟩
  · obtain ⟨val, values, heq⟩ := List.exists_cons_of_ne_nil hvalues
    exact ⟨val.2, by rw [← Nat.zero_add 2, itemData_add_two, heq]; rfl⟩

/-- The slot is connected behind the first refresh. -/
theorem construct_keeps_iff {value : ℤ} :
    (∃ t : State, construct F value = some t ∧ t.value = value) ↔ F.canWrite value = true := by
  rw [construct]
  split_ifs with hwrite
  · refine iff_of_true ?_ hwrite
    rcases selected_cases (s := ⟨value, startIndex F, 0⟩) isEntry_startIndex with
      ⟨hsel, -⟩ | ⟨idx, hsel, -⟩ | ⟨hsel, -⟩
    all_goals exact ⟨_, congrArg (Option.map _) hsel, rfl⟩
  · exact iff_of_false (fun ⟨t, ht, _⟩ => by cases ht) hwrite

theorem keepsValue_iff {isEditEnabled : Bool} {text : QString} (htext : text.length % 2 = 0)
    {s : State} (hentry : IsEntry F s.comboIdx) :
    (widget F).KeepsValue isEditEnabled text s ↔ Undisturbed F isEditEnabled s ∧
      (isEditEnabled = true →
        Undisturbed F isEditEnabled { s with value := F.setSerialisedString s.value text }) := by
  have hkeeps : ∀ s : State, IsEntry F s.comboIdx →
      ((widget F).RefreshKeeps isEditEnabled s ↔ Undisturbed F isEditEnabled s) := by
    intro s hentry
    refine (refresh_keeps_iff hentry).trans ?_
    exact ⟨fun h => ⟨h.1, h.2⟩, fun h => ⟨h.canWrite, h.back⟩⟩
  rw [FieldWidget.keepsValue_iff (widget F) (fun _ => rfl) htext, hkeeps s hentry,
    hkeeps ((widget F).setSerialisedString text s) hentry]
  exact ⟨fun h => h.2, fun h => ⟨construct_keeps_iff.mpr h.1.canWrite, h⟩⟩

end EnumValueFieldWidget

/-! ### Short integer fields -/

namespace ShortIntWidget
open NumericWidget

variable {F : ToolsIntField}

abbrev Shown (F : ToolsIntField) : Type := State (SpinBox (castInt F.minValue) (castInt F.maxValue))

/-- A new widget, before its first refresh. -/
def start (F : ToolsIntField) (value : ℤ) : Shown F := ⟨value, SpinBox.new _ _, 0, 0⟩

def widget (F : ToolsIntField) : FieldWidget (Shown F) where
  value := fun s => s.value
  refresh := (ShortIntValueFieldWidget F).refresh
  setSerialisedString := fun text s => { s with value := F.setSerialisedString s.value text }
  emitFieldUpdated := fun s => { s with emitted := s.emitted + 1 }
  construct := fun value t =>
    Settle.Settles ((ShortIntValueFieldWidget F).refresh (!F.isReadOnly)) (start F value) t

/-- What the box shows for a value. -/
def displayed (F : ToolsIntField) (value : ℤ) : ℤ := castInt (F.getDisplayValue value)

/-- The displayed value is outside the range, and the box does not stand at that end. -/
def Clamped (s : Shown F) : Prop :=
  ¬ (castInt F.minValue ≤ displayed F s.value ∧
      displayed F s.value ≤ max (castInt F.minValue) (castInt F.maxValue)) ∧
    (s.control.setValue (displayed F s.value)).value ≠ s.control.value

/-- The value is shown as it is, or editing is enabled and writing the end of the range gives it
back. -/
structure Undisturbed (isEditEnabled : Bool) (s : Shown F) : Prop where
  canWrite : F.canWrite s.value = true
  back : Clamped s → isEditEnabled = true ∧
    setOrReset F.canWrite F.resetValue
      (F.setDisplayValue (s.control.setValue (displayed F s.value)).value) = some s.value

theorem refresh_keeps_iff {isEditEnabled : Bool} {s : Shown F} :
    (widget F).RefreshKeeps isEditEnabled s ↔ Undisturbed isEditEnabled s := by
  refine (refreshKeeps_iff spinWidget_putsAlike).trans ?_
  constructor
  · rintro ⟨hwrite, control, hput, hquiet⟩
    obtain rfl := Option.some.inj ((spinWidget_put _ _).symm.trans hput)
    exact ⟨hwrite, fun h => hquiet _ (spinWidget_edited_iff.mpr ⟨h.1, h.2, rfl⟩)⟩
  · rintro ⟨hwrite, hback⟩
    refine ⟨hwrite, _, spinWidget_put _ _, fun value hedited => ?_⟩
    obtain ⟨hout, hchange, rfl⟩ := spinWidget_edited_iff.mp hedited
    exact hback ⟨hout, hchange⟩

theorem keepsValue_iff {isEditEnabled : Bool} {text : QString} (htext : text.length % 2 = 0)
    {s : Shown F} :
    (widget F).KeepsValue isEditEnabled text s ↔
      Undisturbed (!F.isReadOnly) (start F s.value) ∧ Undisturbed isEditEnabled s ∧
      (isEditEnabled = true →
        Undisturbed isEditEnabled
          { s with value := F.setSerialisedString s.value text }) := by
  rw [FieldWidget.keepsValue_iff (widget F) (fun _ => rfl) htext, refresh_keeps_iff,
    refresh_keeps_iff, ← refresh_keeps_iff (s := start F s.value)]
  rfl

end ShortIntWidget

/-- **When enum fields and short integer fields keep their value**: when it is constructed and
refreshed, and after whole bytes were typed. -/
theorem showing_iff {text : QString} (htext : text.length % 2 = 0) :
    (∀ (F : ToolsEnumField) (isEditEnabled : Bool) (s : EnumValueFieldWidget.State),
      EnumValueFieldWidget.IsEntry F s.comboIdx →
      ((EnumValueFieldWidget.widget F).KeepsValue isEditEnabled text s ↔
        EnumValueFieldWidget.Undisturbed F isEditEnabled s ∧
          (isEditEnabled = true → EnumValueFieldWidget.Undisturbed F isEditEnabled
            { s with value := F.setSerialisedString s.value text }))) ∧
    ∀ (F : ToolsIntField) (isEditEnabled : Bool) (s : ShortIntWidget.Shown F),
      (ShortIntWidget.widget F).KeepsValue isEditEnabled text s ↔
        ShortIntWidget.Undisturbed (!F.isReadOnly) (ShortIntWidget.start F s.value) ∧
          ShortIntWidget.Undisturbed isEditEnabled s ∧
          (isEditEnabled = true → ShortIntWidget.Undisturbed isEditEnabled
            { s with value := F.setSerialisedString s.value text }) :=
  ⟨fun _ _ _ hentry => EnumValueFieldWidget.keepsValue_iff htext hentry,
    fun _ _ _ => ShortIntWidget.keepsValue_iff htext⟩

section samples
open EnumValueFieldWidget IntWidgetKind

def offOn : ToolsEnumField := namedField false [("Off".toList, 0), ("On".toList, 1)]

theorem shown_on : (EnumValueFieldWidget.widget offOn).KeepsValue true "01".toList ⟨0, 2, 0⟩ ∧
    (ShortIntWidget.widget (byteField 0)).KeepsValue true "05".toList
      (ShortIntWidget.start (byteField 0) 3) := by
  constructor
  · refine ((showing_iff (by decide)).1 offOn true ⟨0, 2, 0⟩ ⟨0, by decide⟩).mpr ⟨⟨rfl, ?_⟩, ?_⟩
    · exact fun h => absurd h.2.2.2.1 (by decide)
    · exact fun _ => ⟨rfl, fun h => absurd h.2.2.2.1 (by decide)⟩
  · refine ((showing_iff (by decide)).2 (byteField 0) true
      (ShortIntWidget.start (byteField 0) 3)).mpr ⟨⟨rfl, ?_⟩, ⟨rfl, ?_⟩, fun _ => ⟨rfl, ?_⟩⟩
    · exact fun h => absurd h.1 (by decide)
    · exact fun h => absurd h.1 (by decide)
    · exact fun h => absurd h.1 (by decide)

/-- A valid value without a name becomes the placeholder, and a value displayed above the range
becomes the one displayed at its end. -/
theorem edited_when_shown :
    (¬ ∀ (F : ToolsEnumField) (isEditEnabled : Bool) (text : QString)
      (s : EnumValueFieldWidget.State), IsEntry F s.comboIdx → F.canWrite s.value = true →
      text.length % 2 = 0 → (EnumValueFieldWidget.widget F).KeepsValue isEditEnabled text s) ∧
    ¬ ∀ (F : ToolsIntField) (isEditEnabled : Bool) (text : QString) (s : ShortIntWidget.Shown F),
      F.canWrite s.value = true → text.length % 2 = 0 →
      (ShortIntWidget.widget F).KeepsValue isEditEnabled text s := by
  constructor
  · intro h
    have hkeeps := h { offOn with valid := fun _ => true } true [] ⟨7, 2, 0⟩ ⟨0, by decide⟩ rfl rfl
    have hback := ((EnumValueFieldWidget.keepsValue_iff rfl ⟨0, by decide⟩).mp hkeeps).1.back
    exact absurd (hback ⟨rfl, rfl, by decide, by decide, by decide⟩) (by decide)
  · intro h
    have hkeeps := h (byteField 10) true [] (ShortIntWidget.start _ 120) rfl rfl
    have hback := ((ShortIntWidget.keepsValue_iff rfl).mp hkeeps).1.back
    exact absurd (hback ⟨by decide, by decide⟩).2 (by decide)

end samples

end CcToolsQt
