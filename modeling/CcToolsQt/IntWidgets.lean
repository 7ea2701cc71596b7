import CcToolsQt.FieldWidget
import CcToolsQt.Qt.SpinBox
import CcToolsQt.TypedNumber

/-! # Integer fields

Five widgets show an integer field: two in a `QSpinBox` or a `QDoubleSpinBox` without decimals, two
in a line edit and one in a `QDoubleSpinBox` for a scaled value.  A box with the special values of
the field stands beside the control.

* `refreshKeeps_iff`: showing a value keeps it unless the control holds something else and is taken
  for an edit that does not give the value back.
* `chosen_iff`: when choosing a special value sets it and is reported. -/

namespace CcToolsQt

/-! ### Fields -/

/-- The floating-point side of a field.  `bounded` is what a `QDoubleSpinBox` with the range and the
decimals of the field holds after `setValue`, `near` that two numbers differ by less than epsilon,
`displayedText` the text of a 64-bit unsigned value. -/
structure Scaling where
  Double : Type
  decEq : DecidableEq Double
  getScaled : ℤ → Double
  setScaled : Double → ℤ
  bounded : Double → Double
  near : Double → Double → Bool
  displayedText : ℤ → QString
  bounded_bounded : ∀ x, bounded (bounded x) = bounded x

instance (S : Scaling) : DecidableEq S.Double := S.decEq

/-- An integer field; `setValue` gives the value of the field's type that is held afterwards. -/
structure ToolsIntField where
  minValue : ℤ
  maxValue : ℤ
  displayOffset : ℤ
  setValue : ℤ → ℤ
  canWrite : ℤ → Bool
  resetValue : ℤ
  specials : List (QString × ℤ)
  setSerialisedString : ℤ → QString → ℤ
  isReadOnly : Bool
  scaling : Scaling
  setValue_mem : ∀ value, minValue ≤ setValue value ∧ setValue value ≤ maxValue
  setValue_eq : ∀ value, minValue ≤ value → value ≤ maxValue → setValue value = value
  resetValue_mem : minValue ≤ resetValue ∧ resetValue ≤ maxValue
  specials_mem : ∀ special ∈ specials, minValue ≤ special.2 ∧ special.2 ≤ maxValue

namespace ToolsIntField
variable (F : ToolsIntField)

def getDisplayValue (value : ℤ) : ℤ := value + F.displayOffset

def setDisplayValue (value : ℤ) : ℤ := F.setValue (value - F.displayOffset)

end ToolsIntField

/-! ### Widgets -/

/-- The slot of a control: when a control set by `refreshImpl` calls it, when it returns at once,
and what it sets. -/
structure ValueSlot (C : Type) where
  notices : C → C → Bool
  agrees : C → ℤ → Bool
  setFrom : C → ℤ
  notices_iff : ∀ old control, notices old control = true ↔ control ≠ old

/-- A widget with a value control of type `C`.  `put` is how `refreshImpl` sets the control (`none`
is a failed assertion); a line edit tells its slot of typing only, so it has none here. -/
structure NumericWidget (C : Type) where
  field : ToolsIntField
  put : ℤ → C → Option C
  slot : Option (ValueSlot C)
  setSpecial : ℤ → ℤ
  /-- The number the special box has for a value. -/
  boxValue : ℤ → ℤ

namespace NumericWidget

/-- The field, the value control, the current item of the special box and how often
`sigFieldUpdated` was emitted. -/
structure State (C : Type) where
  value : ℤ
  control : C
  specialIdx : ℕ
  emitted : ℕ

variable {C : Type} (W : NumericWidget C)

/-- The items of the special box. -/
def specialItems : List ComboItem :=
  ⟨"---".toList, none⟩ :: W.field.specials.map fun special =>
    ⟨special.1, some (W.boxValue special.2)⟩

/-- `SpecialValueWidget::setIntValue`; the box does not signal meanwhile. -/
def setIntValue (value : ℤ) : ℕ :=
  (W.specialItems.findIdx? fun item => item.data == some value).getD 0

def currentData (idx : ℕ) : Option ℤ := W.specialItems[idx]?.bind (·.data)

/-- What the slot sets when the control changes from one state to another. -/
def edited (old control : C) (value : ℤ) : Option ℤ :=
  W.slot.bind fun slot =>
    if slot.notices old control && !slot.agrees control value then some (slot.setFrom control)
    else none

def written (value : ℤ) : Option ℤ := setOrReset W.field.canWrite W.field.resetValue value

/-- `refreshImpl`, up to the `refresh()` in the slot; what follows that repeats it. -/
def refresh (isEditEnabled : Bool) (s : State C) : Option (Settle.Pass (State C)) :=
  if W.field.canWrite s.value then
    (W.put s.value s.control).bind fun control =>
      match W.edited s.control control s.value with
      | none =>
          some (.done { s with
            control := control
            specialIdx := W.setIntValue (W.boxValue s.value) })
      | some value =>
          if isEditEnabled then
            (W.written value).map fun value =>
              .again { s with value := value, control := control, emitted := s.emitted + 1 }
          else none
  else none

/-- `specialSelected` with editing enabled, up to the `refresh()` at its end. -/
def specialSelected (value : ℤ) (s : State C) : State C := { s with value := W.setSpecial value }

/-! ### Refreshing -/

/-- The widget after a pass that is the last one. -/
def shown (s : State C) (control : C) : State C :=
  { s with
    control := control
    specialIdx := W.setIntValue (W.boxValue s.value) }

/-- The widget after the slot wrote a value. -/
def edit (s : State C) (control : C) (value : ℤ) : State C :=
  { s with value := value, control := control, emitted := s.emitted + 1 }

variable {W} {isEditEnabled : Bool} {s t : State C} {control : C}

/-- What one pass of `refreshImpl` does. -/
theorem refresh_cases {p : Settle.Pass (State C)} (h : W.refresh isEditEnabled s = some p) :
    W.field.canWrite s.value = true ∧ ∃ control, W.put s.value s.control = some control ∧
      ((W.edited s.control control s.value = none ∧ p = .done (W.shown s control)) ∨
        ∃ value value', isEditEnabled = true ∧ W.edited s.control control s.value = some value ∧
          W.written value = some value' ∧ p = .again (edit s control value')) := by
  have hwrite : W.field.canWrite s.value = true := by
    by_contra hwrite
    rw [refresh, if_neg hwrite] at h
    cases h
  rw [refresh, if_pos hwrite] at h
  obtain ⟨control, hput, h⟩ := Option.bind_eq_some_iff.mp h
  refine ⟨hwrite, control, hput, ?_⟩
  cases hedited : W.edited s.control control s.value with
  | none =>
      rw [hedited] at h
      exact .inl ⟨rfl, (Option.some.inj h).symm⟩
  | some value =>
      rw [hedited] at h
      cases isEditEnabled with
      | false => cases h
      | true =>
          obtain ⟨value', hwritten, rfl⟩ := Option.map_eq_some_iff.mp h
          exact .inr ⟨value, value', rfl, rfl, hwritten, rfl⟩

/-- **What a widget shows in the end**: the value, or what it shows after an edit. -/
theorem settles_iff : Settle.Settles (W.refresh isEditEnabled) s t ↔
    W.field.canWrite s.value = true ∧ ∃ control, W.put s.value s.control = some control ∧
      ((W.edited s.control control s.value = none ∧ t = W.shown s control) ∨
        ∃ value value', isEditEnabled = true ∧ W.edited s.control control s.value = some value ∧
          W.written value = some value' ∧
          Settle.Settles (W.refresh isEditEnabled) (edit s control value') t) := by
  constructor
  · intro h
    cases hpass : W.refresh isEditEnabled s with
    | none => exact absurd h (Settle.not_settles_of_none hpass)
    | some p =>
        obtain ⟨hwrite, control, hput, hcases⟩ := refresh_cases hpass
        refine ⟨hwrite, control, hput, ?_⟩
        rcases hcases with ⟨hedited, rfl⟩ | ⟨value, value', hedit, hedited, hwritten, rfl⟩
        · exact .inl ⟨hedited, (Settle.settles_of_done hpass).mp h⟩
        · exact .inr ⟨value, value', hedit, hedited, hwritten,
            (Settle.settles_of_again hpass).mp h⟩
  · rintro ⟨hwrite, control, hput, hcases⟩
    have hpass : W.refresh isEditEnabled s = _ := if_pos hwrite
    rw [hput, Option.bind_some] at hpass
    rcases hcases with ⟨hedited, rfl⟩ | ⟨value, value', rfl, hedited, hwritten, h⟩
    · rw [hedited] at hpass
      exact (Settle.settles_of_done hpass).mpr rfl
    · rw [hedited] at hpass
      simp only [if_true, hwritten, Option.map_some] at hpass
      exact (Settle.settles_of_again hpass).mpr h

/-- In the end the special box shows the value, and emissions are not taken back. -/
theorem settles_spec (h : Settle.Settles (W.refresh isEditEnabled) s t) :
    t.specialIdx = W.setIntValue (W.boxValue t.value) ∧ s.emitted ≤ t.emitted := by
  refine Settle.Settles.induct
    (P := fun s t => t.specialIdx = W.setIntValue (W.boxValue t.value) ∧ s.emitted ≤ t.emitted)
    (fun s t h => ?_) (fun s u t h ih => ?_) h
  · obtain ⟨-, control, -, ⟨-, hp⟩ | ⟨_, _, -, -, -, hp⟩⟩ := refresh_cases h
    · obtain rfl := Settle.Pass.done.inj hp
      exact ⟨rfl, le_refl _⟩
    · cases hp
  · obtain ⟨-, control, -, ⟨-, hp⟩ | ⟨_, _, -, -, -, hp⟩⟩ := refresh_cases h
    · cases hp
    · obtain rfl := Settle.Pass.again.inj hp
      exact ⟨ih.1, (Nat.le_succ _).trans ih.2⟩

theorem edited_eq_some {old : C} {value value' : ℤ}
    (h : W.edited old control value = some value') :
    ∃ slot, W.slot = some slot ∧ slot.notices old control = true ∧
      slot.agrees control value = false ∧ slot.setFrom control = value' := by
  obtain ⟨slot, hslot, h⟩ := Option.bind_eq_some_iff.mp h
  split_ifs at h with hcond
  obtain ⟨hnotices, hagrees⟩ := Bool.and_eq_true_iff.mp hcond
  exact ⟨slot, hslot, hnotices, by simpa using hagrees, Option.some.inj h⟩

theorem edited_eq_none {slot : ValueSlot C} (hslot : W.slot = some slot) {old : C} {value : ℤ}
    (h : W.edited old control value = none) : control = old ∨ slot.agrees control value = true := by
  rw [edited, hslot, Option.bind_some] at h
  split_ifs at h with hcond
  by_cases heq : control = old
  · exact .inl heq
  · have hnotices := (slot.notices_iff old control).mpr heq
    exact .inr (by simpa [hnotices] using hcond)

theorem edited_self (value : ℤ) : W.edited control control value = none := by
  by_contra hne
  obtain ⟨value', hedited⟩ := Option.ne_none_iff_exists'.mp hne
  obtain ⟨slot, -, hnotices, -⟩ := edited_eq_some hedited
  exact (slot.notices_iff control control).mp hnotices rfl

/-- What a control with a slot is set to does not depend on what it holds. -/
def PutsAlike (W : NumericWidget C) : Prop :=
  W.slot ≠ none → ∀ value control control', W.put value control = W.put value control'

/-- After a value was written from the control, the value in the end agrees with the control that
shows it, or is the one written from there. -/
theorem settles_of_written (halike : PutsAlike W) {slot : ValueSlot C} (hslot : W.slot = some slot)
    (h : Settle.Settles (W.refresh isEditEnabled) s t)
    (hs : W.written (slot.setFrom s.control) = some s.value)
    (hput : W.put t.value t.control = some control) :
    slot.agrees control t.value = true ∨ W.written (slot.setFrom control) = some t.value := by
  have halike := halike (by simp [hslot])
  refine Settle.Settles.induct (P := fun s t => W.written (slot.setFrom s.control) = some s.value →
    ∀ control, W.put t.value t.control = some control →
      slot.agrees control t.value = true ∨ W.written (slot.setFrom control) = some t.value)
    (fun s t h hs control hput => ?_) (fun s u t h ih hs control hput => ?_) h hs control hput
  · obtain ⟨-, control', hput', ⟨hedited, hp⟩ | ⟨_, _, -, -, -, hp⟩⟩ := refresh_cases h
    · obtain rfl := Settle.Pass.done.inj hp
      rw [shown, halike s.value _ s.control, hput'] at hput
      obtain rfl := Option.some.inj hput
      rcases edited_eq_none hslot hedited with rfl | hagrees
      · exact .inr hs
      · exact .inl hagrees
    · cases hp
  · obtain ⟨-, control', -, ⟨-, hp⟩ | ⟨_, _, -, hedited, hwritten, hp⟩⟩ := refresh_cases h
    · cases hp
    · obtain rfl := Settle.Pass.again.inj hp
      obtain ⟨slot', hslot', -, -, rfl⟩ := edited_eq_some hedited
      obtain rfl := Option.some.inj (hslot.symm.trans hslot')
      exact ih hwritten control hput

/-- An edit leads back to the value that was shown only at once. -/
theorem edit_returns_iff (halike : PutsAlike W) {value value' : ℤ}
    (hput : W.put s.value s.control = some control)
    (hedited : W.edited s.control control s.value = some value)
    (hwritten : W.written value = some value') :
    (∃ t, Settle.Settles (W.refresh true) (edit s control value') t ∧ t.value = s.value) ↔
      value' = s.value := by
  obtain ⟨slot, hslot, -, hagrees, rfl⟩ := edited_eq_some hedited
  have hputs := halike (by simp [hslot])
  constructor
  · rintro ⟨t, ht, hvalue⟩
    have hput' : W.put t.value t.control = some control := by
      rw [hvalue, hputs s.value t.control s.control, hput]
    have hend := settles_of_written halike hslot ht hwritten hput'
    rw [hvalue, hwritten] at hend
    exact Option.some.inj (hend.resolve_left (by simp [hagrees]))
  · rintro rfl
    have hput' : W.put s.value control = some control := by
      rw [hputs s.value control s.control, hput]
    exact ⟨_, settles_iff.mpr ⟨(setOrReset_spec hwritten).1, control, hput',
      .inl ⟨edited_self _, rfl⟩⟩, rfl⟩

/-- **When showing a value keeps it**: unless the control holds something else and is taken for an
edit that does not give the value back. -/
theorem refreshKeeps_iff (halike : PutsAlike W) :
    (∃ t, Settle.Settles (W.refresh isEditEnabled) s t ∧ t.value = s.value) ↔
      W.field.canWrite s.value = true ∧ ∃ control, W.put s.value s.control = some control ∧
        ∀ value, W.edited s.control control s.value = some value →
          isEditEnabled = true ∧ W.written value = some s.value := by
  constructor
  · rintro ⟨t, ht, hkeeps⟩
    obtain ⟨hwrite, control, hput, hcases⟩ := settles_iff.mp ht
    refine ⟨hwrite, control, hput, fun value hedited => ?_⟩
    rcases hcases with ⟨hnone, -⟩ | ⟨value₀, value', rfl, hedited₀, hwritten, ht⟩
    · rw [hnone] at hedited
      cases hedited
    · rw [hedited₀] at hedited
      obtain rfl := Option.some.inj hedited
      have heq := (edit_returns_iff halike hput hedited₀ hwritten).mp ⟨t, ht, hkeeps⟩
      exact ⟨rfl, heq ▸ hwritten⟩
  · rintro ⟨hwrite, control, hput, hquiet⟩
    cases hedited : W.edited s.control control s.value with
    | none => exact ⟨_, settles_iff.mpr ⟨hwrite, control, hput, .inl ⟨hedited, rfl⟩⟩, rfl⟩
    | some value =>
        obtain ⟨rfl, hwritten⟩ := hquiet value hedited
        obtain ⟨t, ht, hvalue⟩ := (edit_returns_iff halike hput hedited hwritten).mpr rfl
        exact ⟨t, settles_iff.mpr ⟨hwrite, control, hput,
          .inr ⟨value, _, rfl, hedited, hwritten, ht⟩⟩, hvalue⟩

/-! ### Choosing a special value -/

variable (W) in
/-- Choosing a special value with editing enabled sets it, shows it in the special box and is
reported if the value changes. -/
def Chosen (s : State C) (special : ℤ) : Prop :=
  ∃ t, Settle.Settles (W.refresh true) (W.specialSelected (W.boxValue special) s) t ∧
    t.value = special ∧ W.currentData t.specialIdx = some (W.boxValue special) ∧
    (s.value ≠ special → s.emitted < t.emitted)

variable (W) in
/-- The special value was held before and is set and shown as it is, or the control that shows it is
taken for an edit that sets it. -/
def HeldOrEdited (s : State C) (special : ℤ) : Prop :=
  let u := W.specialSelected (W.boxValue special) s
  W.field.canWrite u.value = true ∧ ∃ control, W.put u.value u.control = some control ∧
    ((W.edited u.control control u.value = none ∧ u.value = special ∧ s.value = special) ∨
      ∃ value, W.edited u.control control u.value = some value ∧ W.written value = some special)

theorem currentData_setIntValue {special : ℤ} (h : special ∈ W.field.specials.map (·.2)) :
    W.currentData (W.setIntValue (W.boxValue special)) = some (W.boxValue special) := by
  cases hfind : W.specialItems.findIdx? fun item => item.data == some (W.boxValue special) with
  | none =>
      obtain ⟨named, hnamed, rfl⟩ := List.mem_map.mp h
      have hne := List.findIdx?_eq_none_iff.mp hfind ⟨named.1, some (W.boxValue named.2)⟩
        (List.mem_cons_of_mem _ (List.mem_map_of_mem hnamed))
      exact absurd hne (by simp)
  | some idx =>
      obtain ⟨hlt, hdata, -⟩ := List.findIdx?_eq_some_iff_getElem.mp hfind
      rw [setIntValue, hfind, Option.getD_some, currentData, List.getElem?_eq_getElem hlt,
        Option.bind_some]
      exact eq_of_beq hdata

variable (s) in
/-- **When choosing a special value sets it and is reported**, if an edit leads to the value only at
once. -/
theorem chosen_iff {special : ℤ} (h : special ∈ W.field.specials.map (·.2))
    (honce : ∀ u control value value', u = W.specialSelected (W.boxValue special) s →
      W.put u.value u.control = some control → W.edited u.control control u.value = some value →
      W.written value = some value' →
      ((∃ t, Settle.Settles (W.refresh true) (edit u control value') t ∧ t.value = special) ↔
        value' = special)) :
    W.Chosen s special ↔ W.HeldOrEdited s special := by
  have hbox : ∀ t, Settle.Settles (W.refresh true) (W.specialSelected (W.boxValue special) s) t →
      t.value = special → W.currentData t.specialIdx = some (W.boxValue special) := by
    intro t ht hvalue
    rw [(settles_spec ht).1, hvalue]
    exact currentData_setIntValue h
  constructor
  · rintro ⟨t, ht, hvalue, -, hemitted⟩
    obtain ⟨hwrite, control, hput, hcases⟩ := settles_iff.mp ht
    refine ⟨hwrite, control, hput, ?_⟩
    rcases hcases with ⟨hnone, rfl⟩ | ⟨value, value', -, hedited, hwritten, ht⟩
    · refine .inl ⟨hnone, hvalue, ?_⟩
      by_contra hne
      exact absurd (hemitted hne) (lt_irrefl _)
    · have heq := (honce _ control value value' rfl hput hedited hwritten).mp ⟨t, ht, hvalue⟩
      exact .inr ⟨value, hedited, heq ▸ hwritten⟩
  · rintro ⟨hwrite, control, hput, ⟨hnone, hvalue, hheld⟩ | ⟨value, hedited, hwritten⟩⟩
    · have ht : Settle.Settles (W.refresh true) (W.specialSelected (W.boxValue special) s)
          (W.shown _ control) := settles_iff.mpr ⟨hwrite, control, hput, .inl ⟨hnone, rfl⟩⟩
      exact ⟨_, ht, hvalue, hbox _ ht hvalue, fun hne => absurd hheld hne⟩
    · obtain ⟨t, ht, hvalue⟩ := (honce _ control value special rfl hput hedited hwritten).mpr rfl
      have ht' : Settle.Settles (W.refresh true) (W.specialSelected (W.boxValue special) s) t :=
        settles_iff.mpr ⟨hwrite, control, hput, .inr ⟨value, special, rfl, hedited, hwritten, ht⟩⟩
      have hemitted : s.emitted + 1 ≤ t.emitted := (settles_spec ht).2
      exact ⟨t, ht', hvalue, hbox t ht' hvalue, fun _ => hemitted⟩

/-- A special value that is set as it is. -/
theorem chosen_iff_of_eq (halike : PutsAlike W) {special : ℤ}
    (h : special ∈ W.field.specials.map (·.2))
    (heq : W.setSpecial (W.boxValue special) = special) :
    W.Chosen s special ↔ W.HeldOrEdited s special := by
  refine chosen_iff s h ?_
  rintro u control value value' rfl hput hedited hwritten
  have hreturns := edit_returns_iff halike hput hedited hwritten
  rwa [show (W.specialSelected (W.boxValue special) s).value = special from heq] at hreturns

end NumericWidget

/-- A spin box with a range. -/
def SpinBox (minimum maximum : ℤ) : Type :=
  { b : QSpinBox // b.minimum = minimum ∧ b.maximum = max minimum maximum }

namespace SpinBox
variable {minimum maximum : ℤ}

def new (minimum maximum : ℤ) : SpinBox minimum maximum :=
  ⟨QSpinBox.new.setRange minimum maximum, rfl, rfl⟩

def value (b : SpinBox minimum maximum) : ℤ := b.val.value

def setValue (b : SpinBox minimum maximum) (val : ℤ) : SpinBox minimum maximum :=
  ⟨b.val.setValue val, b.property⟩

variable {b b' : SpinBox minimum maximum}

theorem eq_of_value (h : b.value = b'.value) : b = b' := by
  obtain ⟨⟨lower, upper, val, _, _⟩, rfl, hupper⟩ := b
  obtain ⟨⟨lower', upper', val', _, _⟩, hlower', hupper'⟩ := b'
  obtain rfl : val = val' := h
  obtain rfl : lower' = lower := hlower'
  obtain rfl : upper = upper' := hupper.trans hupper'.symm
  rfl

theorem value_setValue (val : ℤ) :
    (b.setValue val).value = max minimum (min (max minimum maximum) val) := by
  rw [value, setValue, QSpinBox.setValue_value, b.property.1, b.property.2]

theorem value_mem : minimum ≤ b.value ∧ b.value ≤ max minimum maximum := by
  have hlow := b.val.minimum_le
  have hhigh := b.val.le_maximum
  rw [b.property.1] at hlow
  rw [b.property.2] at hhigh
  exact ⟨hlow, hhigh⟩

/-- What a spin box is set to does not depend on what it shows. -/
theorem setValue_congr (val : ℤ) : b.setValue val = b'.setValue val :=
  eq_of_value (by rw [value_setValue, value_setValue])

theorem setValue_value : b.setValue b.value = b := by
  apply eq_of_value
  have hmem := @value_mem _ _ b
  rw [value_setValue]
  omega

end SpinBox

/-- A widget that shows a value in a spin box. -/
def spinWidget (F : ToolsIntField) (minimum maximum : ℤ) (displayed setSpecial : ℤ → ℤ) :
    NumericWidget (SpinBox minimum maximum) where
  field := F
  put := fun value control =>
    some (if control.value ≠ displayed value then control.setValue (displayed value) else control)
  slot := some
    { notices := fun old control => decide (control.value ≠ old.value)
      agrees := fun control value => decide (control.value = displayed value)
      setFrom := fun control => F.setDisplayValue control.value
      notices_iff := fun old control => by
        rw [decide_eq_true_iff]
        exact not_congr ⟨SpinBox.eq_of_value, congrArg _⟩ }
  setSpecial := setSpecial
  boxValue := id

section spin
variable {F : ToolsIntField} {minimum maximum : ℤ} {displayed setSpecial : ℤ → ℤ}

theorem spinWidget_put (value : ℤ) (control : SpinBox minimum maximum) :
    (spinWidget F minimum maximum displayed setSpecial).put value control =
      some (control.setValue (displayed value)) := by
  show some (if control.value ≠ displayed value then _ else control) = _
  split_ifs with hne
  · rfl
  · rw [← not_not.mp hne, SpinBox.setValue_value]

theorem spinWidget_putsAlike :
    NumericWidget.PutsAlike (spinWidget F minimum maximum displayed setSpecial) := by
  intro _ value control control'
  rw [spinWidget_put, spinWidget_put, SpinBox.setValue_congr]

/-- A spin box takes the value it shows for an edit if that is outside the range, and the box does
not stand at that end. -/
theorem spinWidget_edited_iff {control : SpinBox minimum maximum} {value value' : ℤ} :
    (spinWidget F minimum maximum displayed setSpecial).edited control
        (control.setValue (displayed value)) value = some value' ↔
      ¬ (minimum ≤ displayed value ∧ displayed value ≤ max minimum maximum) ∧
        (control.setValue (displayed value)).value ≠ control.value ∧
        F.setDisplayValue (control.setValue (displayed value)).value = value' := by
  have hshows : (control.setValue (displayed value)).value = displayed value ↔
      minimum ≤ displayed value ∧ displayed value ≤ max minimum maximum := by
    rw [SpinBox.value_setValue]
    omega
  rw [← hshows]
  show (if (decide ((control.setValue (displayed value)).value ≠ control.value) &&
    !decide ((control.setValue (displayed value)).value = displayed value)) = true
    then some _ else none) = _ ↔ _
  split_ifs with hcond
  · simp only [Bool.and_eq_true, decide_eq_true_eq, Bool.not_eq_true', decide_eq_false_iff_not]
      at hcond
    exact ⟨fun h => ⟨hcond.2, hcond.1, Option.some.inj h⟩, fun h => congrArg some h.2.2⟩
  · refine iff_of_false nofun fun h => hcond ?_
    simp [h.1, h.2.1]

end spin

/-- `static_cast<int>`. -/
def castInt (value : ℤ) : ℤ := value.bmod (2 ^ 32)

def ShortIntValueFieldWidget (F : ToolsIntField) :
    NumericWidget (SpinBox (castInt F.minValue) (castInt F.maxValue)) :=
  spinWidget F _ _ (fun value => castInt (F.getDisplayValue value)) F.setValue

/-- The numbers of this box are whole. -/
def LongIntValueFieldWidget (F : ToolsIntField) : NumericWidget (SpinBox F.minValue F.maxValue) :=
  spinWidget F _ _ F.getDisplayValue F.setDisplayValue

namespace LongLongIntValueFieldWidget

def widget (F : ToolsIntField) : NumericWidget QString where
  field := F
  put := fun value text =>
    (getDisplayedValue text).map fun displayed =>
      if displayed ≠ F.getDisplayValue value then QString.number10 (F.getDisplayValue value)
      else text
  slot := none
  setSpecial := F.setValue
  boxValue := id

end LongLongIntValueFieldWidget

/-- The special box has a `long long` for an `unsigned long long`. -/
def UnsignedLongLongIntValueFieldWidget (F : ToolsIntField) : NumericWidget QString where
  field := F
  put := fun value _ => some (F.scaling.displayedText (F.getDisplayValue value))
  slot := none
  setSpecial := fun value => F.setValue (value % 2 ^ 64)
  boxValue := fun value => value.bmod (2 ^ 64)

def ScaledIntValueFieldWidget (F : ToolsIntField) :
    NumericWidget { x : F.scaling.Double // F.scaling.bounded x = x } where
  field := F
  put := fun value control =>
    some (if control.val ≠ F.scaling.getScaled value then
      ⟨F.scaling.bounded (F.scaling.getScaled value), F.scaling.bounded_bounded _⟩ else control)
  slot := some
    { notices := fun old control => decide (control.val ≠ old.val)
      agrees := fun control value => F.scaling.near control.val (F.scaling.getScaled value)
      setFrom := fun control => F.scaling.setScaled control.val
      notices_iff := fun old control => by rw [decide_eq_true_iff, ne_eq, ne_eq, Subtype.ext_iff] }
  setSpecial := F.setValue
  boxValue := id

/-! ### Special values -/

theorem putsAlike_of_lineEdit {C : Type} {W : NumericWidget C} (h : W.slot = none) :
    W.PutsAlike := fun hne => absurd h hne

theorem scaled_putsAlike (F : ToolsIntField) : (ScaledIntValueFieldWidget F).PutsAlike := by
  intro _ value control control'
  have hput : ∀ control, (ScaledIntValueFieldWidget F).put value control =
      some ⟨F.scaling.bounded (F.scaling.getScaled value), F.scaling.bounded_bounded _⟩ := by
    intro control
    show some (if control.val ≠ F.scaling.getScaled value then _ else control) = _
    split_ifs with hne
    · rfl
    · refine congrArg some (Subtype.ext ?_)
      rw [← not_not.mp hne]
      exact control.property.symm
  rw [hput, hput]

/-- In the long widget an edit is the last one: values beyond the same end of the range are shown
alike. -/
theorem long_edited_once {F : ToolsIntField}
    {u : NumericWidget.State (SpinBox F.minValue F.maxValue)}
    {control : SpinBox F.minValue F.maxValue} {value value' : ℤ}
    (hmem : F.minValue ≤ u.value ∧ u.value ≤ F.maxValue)
    (hput : (LongIntValueFieldWidget F).put u.value u.control = some control)
    (hedited : (LongIntValueFieldWidget F).edited u.control control u.value = some value)
    (hwritten : (LongIntValueFieldWidget F).written value = some value') :
    (LongIntValueFieldWidget F).edited control (control.setValue (F.getDisplayValue value'))
      value' = none := by
  obtain ⟨-, hvalue⟩ := setOrReset_spec hwritten
  rw [LongIntValueFieldWidget, spinWidget_put] at hput
  obtain rfl := Option.some.inj hput
  obtain ⟨hout, -, rfl⟩ := spinWidget_edited_iff.mp hedited
  have hmem' : F.minValue ≤ value' ∧ value' ≤ F.maxValue := by
    rcases hvalue with rfl | rfl
    · exact F.setValue_mem _
    · exact F.resetValue_mem
  by_contra hne
  obtain ⟨value, hagain⟩ := Option.ne_none_iff_exists'.mp hne
  obtain ⟨hout', hchange, -⟩ := spinWidget_edited_iff.mp hagain
  rw [SpinBox.value_setValue, SpinBox.value_setValue] at hchange
  simp only [ToolsIntField.getDisplayValue] at hout hout' hchange
  omega

theorem long_edit_settles {F : ToolsIntField}
    {u : NumericWidget.State (SpinBox F.minValue F.maxValue)}
    {control : SpinBox F.minValue F.maxValue} {value value' : ℤ}
    (hmem : F.minValue ≤ u.value ∧ u.value ≤ F.maxValue)
    (hput : (LongIntValueFieldWidget F).put u.value u.control = some control)
    (hedited : (LongIntValueFieldWidget F).edited u.control control u.value = some value)
    (hwritten : (LongIntValueFieldWidget F).written value = some value')
    {t : NumericWidget.State (SpinBox F.minValue F.maxValue)} :
    Settle.Settles ((LongIntValueFieldWidget F).refresh true) (NumericWidget.edit u control value')
      t ↔ t = (LongIntValueFieldWidget F).shown (NumericWidget.edit u control value')
        (control.setValue (F.getDisplayValue value')) := by
  have hquiet := long_edited_once hmem hput hedited hwritten
  have hput' : (LongIntValueFieldWidget F).put value' control =
      some (control.setValue (F.getDisplayValue value')) := spinWidget_put _ _
  rw [NumericWidget.settles_iff]
  constructor
  · rintro ⟨-, control', hcontrol, ⟨-, rfl⟩ | ⟨_, _, -, hedited', -⟩⟩
    · rw [Option.some.inj (hput'.symm.trans hcontrol)]
    · obtain rfl := Option.some.inj (hput'.symm.trans hcontrol)
      exact absurd (hquiet.symm.trans hedited') (Option.some_ne_none _).symm
  · rintro rfl
    exact ⟨(setOrReset_spec hwritten).1, _, hput', .inl ⟨hquiet, rfl⟩⟩

/-! ### The five kinds -/

inductive IntWidgetKind where
  | short
  | long
  | longLong
  | unsignedLongLong
  | scaled

namespace IntWidgetKind

def Control (F : ToolsIntField) : IntWidgetKind → Type
  | short => SpinBox (castInt F.minValue) (castInt F.maxValue)
  | long => SpinBox F.minValue F.maxValue
  | longLong => QString
  | unsignedLongLong => QString
  | scaled => { x : F.scaling.Double // F.scaling.bounded x = x }

def widget (F : ToolsIntField) : (kind : IntWidgetKind) → NumericWidget (kind.Control F)
  | short => ShortIntValueFieldWidget F
  | long => LongIntValueFieldWidget F
  | longLong => LongLongIntValueFieldWidget.widget F
  | unsignedLongLong => UnsignedLongLongIntValueFieldWidget F
  | scaled => ScaledIntValueFieldWidget F

/-- **When choosing a special value sets it and is reported**, for every kind of widget. -/
theorem choosing_iff (F : ToolsIntField) (kind : IntWidgetKind)
    (hunsigned : kind = unsignedLongLong → 0 ≤ F.minValue ∧ F.maxValue < 2 ^ 64)
    (s : NumericWidget.State (kind.Control F)) {special : ℤ}
    (h : special ∈ F.specials.map (·.2)) :
    (kind.widget F).Chosen s special ↔ (kind.widget F).HeldOrEdited s special := by
  obtain ⟨named, hnamed, rfl⟩ := List.mem_map.mp h
  obtain ⟨hlow, hhigh⟩ := F.specials_mem named hnamed
  have heq := F.setValue_eq named.2 hlow hhigh
  cases kind with
  | short => exact NumericWidget.chosen_iff_of_eq spinWidget_putsAlike h heq
  | long =>
      refine NumericWidget.chosen_iff s h ?_
      rintro u control value value' rfl hput hedited hwritten
      have hsettles := @long_edit_settles _ _ _ _ _ (F.setValue_mem _) hput hedited hwritten
      constructor
      · rintro ⟨t, ht, hvalue⟩
        rw [hsettles.mp ht] at hvalue
        exact hvalue
      · intro hvalue
        exact ⟨_, hsettles.mpr rfl, hvalue⟩
  | longLong => exact NumericWidget.chosen_iff_of_eq (putsAlike_of_lineEdit rfl) h heq
  | unsignedLongLong =>
      obtain ⟨hmin, hmax⟩ := hunsigned rfl
      refine NumericWidget.chosen_iff_of_eq (putsAlike_of_lineEdit rfl) h ?_
      show F.setValue (named.2.bmod (2 ^ 64) % 2 ^ 64) = named.2
      have hback : named.2.bmod (2 ^ 64) % 2 ^ 64 = named.2 % 2 ^ 64 := by
        exact_mod_cast @Int.bmod_emod named.2 (2 ^ 64)
      rw [hback, Int.emod_eq_of_lt (hmin.trans hlow) (hhigh.trans_lt hmax), heq]
  | scaled => exact NumericWidget.chosen_iff_of_eq (scaled_putsAlike F) h heq

/-- A signed byte with the special value zero. -/
def byteField (displayOffset : ℤ) : ToolsIntField where
  minValue := -128
  maxValue := 127
  displayOffset := displayOffset
  setValue := fun value => value.bmod 256
  canWrite := fun _ => true
  resetValue := 0
  specials := [("Any".toList, 0)]
  setSerialisedString := fun value text =>
    ((QString.integerVal 16 text).map fun value => value.bmod 256).getD value
  isReadOnly := false
  scaling := ⟨ℤ, inferInstance, id, id, id, (· == ·), QString.number10, fun _ => rfl⟩
  setValue_mem := fun value =>
    ⟨Int.le_bmod (by decide), Int.le_of_lt_add_one (Int.bmod_lt (by decide))⟩
  setValue_eq := fun value hlow hhigh => Int.bmod_eq_of_le (by omega) (by omega)
  resetValue_mem := by decide
  specials_mem := by decide

/-- Five is shown as -123.  Choosing zero sets -128, shown as -256, which the box takes for an edit
of the lower end of its range, and that sets zero. -/
theorem changed_chosen : (long.widget (byteField (-128))).Chosen
    ⟨5, (SpinBox.new _ _).setValue (-123), 0, 0⟩ 0 :=
  (choosing_iff (byteField (-128)) long nofun ⟨5, (SpinBox.new _ _).setValue (-123), 0, 0⟩
    (by decide)).mpr ⟨rfl, _, rfl, .inr ⟨0, rfl, rfl⟩⟩

/-- Choosing another one is not reported. -/
theorem not_always_chosen :
    ¬ ∀ (F : ToolsIntField) (kind : IntWidgetKind) (s : NumericWidget.State (kind.Control F))
      (special : ℤ), (kind = unsignedLongLong → 0 ≤ F.minValue ∧ F.maxValue < 2 ^ 64) →
      special ∈ F.specials.map (·.2) → (kind.widget F).Chosen s special := by
  intro h
  have hchosen := h (byteField 0) short ⟨1, (SpinBox.new _ _).setValue 1, 0, 0⟩ 0 nofun (by decide)
  obtain ⟨-, control, hput, ⟨-, -, hheld⟩ | ⟨value, hedited, -⟩⟩ :=
    (NumericWidget.chosen_iff_of_eq spinWidget_putsAlike (by decide) rfl).mp hchosen
  · exact absurd hheld (by decide)
  · obtain rfl := Option.some.inj ((spinWidget_put _ _).symm.trans hput)
    exact (spinWidget_edited_iff.mp hedited).1 (by decide)

end IntWidgetKind

end CcToolsQt
