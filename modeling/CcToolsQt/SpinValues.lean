import CcToolsQt.IntWidgets
import CcToolsQt.WidgetTree

/-! # Spin boxes among the widgets of a message

What the widget of a long integer does when it is made, set anew or typed into, as the widget of a
value: `make_eq_some_iff`, `refresh_of_quiet` and `slot_of_enter` say so, for fields without special
values.

* `make_self_iff`: a new widget leaves a value exactly if its number is in the range of the box. -/

namespace CcToolsQt

namespace LongIntValueFieldWidget
variable (F : ToolsIntField)

/-- The box for a value. -/
def box (value : ℤ) : SpinBox F.minValue F.maxValue :=
  (SpinBox.new _ _).setValue (F.getDisplayValue value)

/-- The value whose number stands in a box. -/
def shownValue (control : SpinBox F.minValue F.maxValue) : ℤ := control.value - F.displayOffset

/-- The number of a value is in the range of the box. -/
def InRange (value : ℤ) : Prop :=
  F.minValue ≤ F.getDisplayValue value ∧ F.getDisplayValue value ≤ F.maxValue

instance (value : ℤ) : Decidable (InRange F value) := inferInstanceAs (Decidable (_ ∧ _))

/-- The end of the constructor. -/
def make (value : ℤ) : Option (ℤ × ℤ) :=
  if F.canWrite value then
    match (LongIntValueFieldWidget F).edited (SpinBox.new _ _) (box F value) value with
    | none => some (value, shownValue F (box F value))
    | some edited => ((LongIntValueFieldWidget F).written edited).map fun left =>
        (left, shownValue F (box F left))
  else none

/-- Values that are typed in the box and can be held. -/
def enter (value typed : ℤ) : Option ℤ :=
  if typed ≠ value ∧ InRange F typed ∧ F.minValue ≤ typed ∧ typed ≤ F.maxValue ∧
      F.canWrite typed = true then some typed
  else none

def valueWidget : ValueWidget ℤ where
  make := make F
  quiet shown value := decide (shown = value ∨ InRange F value)
  enter := enter F
  quiet_self value := by simp

variable {F} {value : ℤ} {control : SpinBox F.minValue F.maxValue}

theorem put_eq (value : ℤ) (control : SpinBox F.minValue F.maxValue) :
    (LongIntValueFieldWidget F).put value control = some (box F value) :=
  (spinWidget_put value control).trans (congrArg some (SpinBox.setValue_congr _))

theorem shownValue_eq_iff :
    shownValue F control = value ↔ control.value = F.getDisplayValue value := by
  rw [shownValue, ToolsIntField.getDisplayValue]
  omega

theorem shownValue_box_iff (hrange : F.minValue ≤ F.maxValue) :
    shownValue F (box F value) = value ↔ InRange F value := by
  rw [shownValue_eq_iff, box, SpinBox.value_setValue, InRange]
  omega

/-- **What a new widget leaves and shows** is what its refreshing settles at. -/
theorem make_eq_some_iff {x : ℤ × ℤ} (hmem : F.minValue ≤ value ∧ value ≤ F.maxValue) :
    make F value = some x ↔ ∃ t, Settle.Settles ((LongIntValueFieldWidget F).refresh true)
      ⟨value, SpinBox.new _ _, 0, 0⟩ t ∧ x = (t.value, shownValue F t.control) := by
  have hput := put_eq value (SpinBox.new F.minValue F.maxValue)
  have hbox : ∀ left, (box F value).setValue (F.getDisplayValue left) = box F left := fun left =>
    SpinBox.setValue_congr _
  unfold make
  constructor
  · intro h
    split_ifs at h with hwrite
    cases hedited : (LongIntValueFieldWidget F).edited (SpinBox.new _ _) (box F value) value with
    | none =>
        rw [hedited] at h
        obtain rfl := Option.some.inj h
        exact ⟨_, NumericWidget.settles_iff.mpr ⟨hwrite, _, hput, .inl ⟨hedited, rfl⟩⟩, rfl⟩
    | some edited =>
        rw [hedited] at h
        obtain ⟨left, hwritten, rfl⟩ := Option.map_eq_some_iff.mp h
        have hsettles := @long_edit_settles F ⟨value, SpinBox.new _ _, 0, 0⟩ _ _ _ hmem hput
          hedited hwritten
        refine ⟨_, NumericWidget.settles_iff.mpr ⟨hwrite, _, hput, .inr
          ⟨edited, left, rfl, hedited, hwritten, hsettles.mpr rfl⟩⟩, ?_⟩
        exact congrArg (fun control => (left, shownValue F control)) (hbox left).symm
  · rintro ⟨t, ht, rfl⟩
    obtain ⟨hwrite, control, hput', hcases⟩ := NumericWidget.settles_iff.mp ht
    obtain rfl := Option.some.inj (hput.symm.trans hput')
    refine (if_pos hwrite).trans ?_
    rcases hcases with ⟨hedited, rfl⟩ | ⟨edited, left, -, hedited, hwritten, ht⟩
    · rw [hedited]
      rfl
    · obtain rfl := (long_edit_settles hmem hput hedited hwritten).mp ht
      rw [hedited]
      simp only [hwritten]
      exact congrArg (fun control => some (left, shownValue F control)) (hbox left).symm

/-- **A new widget leaves a value and shows it** exactly if its number is in the range of the
box. -/
theorem make_self_iff (hrange : F.minValue ≤ F.maxValue) :
    make F value = some (value, value) ↔ F.canWrite value = true ∧ InRange F value := by
  rw [← shownValue_box_iff hrange]
  unfold make
  constructor
  · intro h
    split_ifs at h with hwrite
    refine ⟨hwrite, ?_⟩
    cases hedited : (LongIntValueFieldWidget F).edited (SpinBox.new _ _) (box F value) value with
    | none =>
        rw [hedited] at h
        exact (Prod.mk.inj (Option.some.inj h)).2
    | some edited =>
        rw [hedited] at h
        obtain ⟨left, -, heq⟩ := Option.map_eq_some_iff.mp h
        obtain ⟨rfl, hshown⟩ := Prod.mk.inj heq
        exact hshown
  · rintro ⟨hwrite, hshown⟩
    rw [if_pos hwrite]
    cases hedited : (LongIntValueFieldWidget F).edited (SpinBox.new _ _) (box F value) value with
    | none => exact congrArg (fun shown => some (value, shown)) hshown
    | some edited =>
        obtain ⟨hout, -⟩ := spinWidget_edited_iff.mp hedited
        have hin := (shownValue_box_iff hrange).mp hshown
        exact absurd ⟨hin.1, hin.2.trans (le_max_right _ _)⟩ hout

/-- **A widget that is set anew without a signal** shows the value. -/
theorem refresh_of_quiet {isEditEnabled : Bool} {specialIdx emitted : ℕ}
    (hrange : F.minValue ≤ F.maxValue) (hwrite : F.canWrite value = true)
    (hquiet : (valueWidget F).quiet (shownValue F control) value = true) :
    ∃ t, (LongIntValueFieldWidget F).refresh isEditEnabled ⟨value, control, specialIdx, emitted⟩ =
        some (.done t) ∧ t.value = value ∧ shownValue F t.control = value ∧
      t.emitted = emitted := by
  have hedited : (LongIntValueFieldWidget F).edited control (box F value) value = none ∧
      shownValue F (box F value) = value := by
    rcases of_decide_eq_true hquiet with hshown | hin
    · have hvalue : F.getDisplayValue value = control.value := (shownValue_eq_iff.mp hshown).symm
      have hcontrol : box F value = control := by
        rw [box, hvalue, @SpinBox.setValue_congr _ _ _ control, SpinBox.setValue_value]
      rw [hcontrol]
      exact ⟨NumericWidget.edited_self value, hshown⟩
    · refine ⟨?_, (shownValue_box_iff hrange).mpr hin⟩
      by_contra hne
      obtain ⟨edited, hedited⟩ := Option.ne_none_iff_exists'.mp hne
      rw [box, @SpinBox.setValue_congr _ _ _ control] at hedited
      exact (spinWidget_edited_iff.mp hedited).1 ⟨hin.1, hin.2.trans (le_max_right _ _)⟩
  refine ⟨(LongIntValueFieldWidget F).shown ⟨value, control, specialIdx, emitted⟩ (box F value),
    ?_, rfl, hedited.2, rfl⟩
  unfold NumericWidget.refresh
  have hwrite : (LongIntValueFieldWidget F).field.canWrite value = true := hwrite
  rw [if_pos hwrite, put_eq, Option.bind_some, hedited.1]
  rfl

/-- **A value that is typed** is set by the slot of the box and is the one that the box shows. -/
theorem slot_of_enter {typed left : ℤ}
    (hshown : shownValue F control = value) (h : enter F value typed = some left) :
    ∃ edited, (LongIntValueFieldWidget F).edited control
        (control.setValue (F.getDisplayValue typed)) value = some edited ∧
      (LongIntValueFieldWidget F).written edited = some left ∧
      shownValue F (control.setValue (F.getDisplayValue typed)) = left := by
  unfold enter at h
  split_ifs at h with htyped
  obtain ⟨hne, hin, hmin, hmax, hwrite⟩ := htyped
  obtain rfl := Option.some.inj h
  have hvalue : (control.setValue (F.getDisplayValue typed)).value = F.getDisplayValue typed := by
    obtain ⟨hlow, hhigh⟩ := hin
    rw [SpinBox.value_setValue]
    omega
  have hset : F.setDisplayValue (F.getDisplayValue typed) = typed := by
    rw [ToolsIntField.setDisplayValue, ToolsIntField.getDisplayValue, Int.add_sub_cancel]
    exact F.setValue_eq typed hmin hmax
  refine ⟨typed, ?_, ?_, shownValue_eq_iff.mpr hvalue⟩
  · have hother : F.getDisplayValue typed ≠ F.getDisplayValue value := fun heq =>
      hne (add_right_cancel heq)
    have hcontrol : control.value = F.getDisplayValue value := shownValue_eq_iff.mp hshown
    show (if (decide ((control.setValue (F.getDisplayValue typed)).value ≠ control.value) &&
      !decide ((control.setValue (F.getDisplayValue typed)).value = F.getDisplayValue value)) = true
      then some (F.setDisplayValue (control.setValue (F.getDisplayValue typed)).value) else none) = _
    rw [hvalue, hset, hcontrol]
    simp [hother]
  · have hwrite : (LongIntValueFieldWidget F).field.canWrite typed = true := hwrite
    simp [NumericWidget.written, setOrReset, hwrite]

end LongIntValueFieldWidget

end CcToolsQt
