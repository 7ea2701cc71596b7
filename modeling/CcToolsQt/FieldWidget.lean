import CcToolsQt.Lib.Settle
import CcToolsQt.Qt.Text

/-! # Field widgets

What the widgets of numeric fields share: a control shows the value, `refreshImpl` sets the control
from the field, and a change of the control may call the slot that writes the field.

* `keepsValue_iff`: a widget keeps the value if its constructor does and no pass of `refresh` writes
  another one, for the value held and for the value typed. -/

namespace CcToolsQt

/-- An item of a combo box; a separator has no data. -/
structure ComboItem where
  text : QString
  data : Option ℤ

/-- The value a slot sets, or the one after `reset()` if that cannot be written; `none` is a failed
assertion. -/
def setOrReset (canWrite : ℤ → Bool) (resetValue value : ℤ) : Option ℤ :=
  let value := if canWrite value then value else resetValue
  if canWrite value then some value else none

theorem setOrReset_spec {canWrite : ℤ → Bool} {resetValue value value' : ℤ}
    (h : setOrReset canWrite resetValue value = some value') :
    canWrite value' = true ∧ (value' = value ∨ value' = resetValue) := by
  simp only [setOrReset] at h
  split_ifs at h with hwrite hreset
  · obtain rfl := Option.some.inj h
    exact ⟨hwrite, .inl rfl⟩
  · obtain rfl := Option.some.inj h
    exact ⟨hreset, .inr rfl⟩

/-- A widget with its field, as a state. -/
structure FieldWidget (σ : Type) where
  value : σ → ℤ
  refresh : Bool → σ → Option (Settle.Pass σ)
  setSerialisedString : QString → σ → σ
  emitFieldUpdated : σ → σ
  /-- The states the constructor may leave for a field that holds a value. -/
  construct : ℤ → σ → Prop

namespace FieldWidget
variable {σ : Type} (W : FieldWidget σ)

/-- `handleNumericSerialisedValueUpdate`; it asserts that editing is enabled. -/
def handleNumericSerialisedValueUpdate (isEditEnabled : Bool) (value : QString) (s t : σ) : Prop :=
  let value := if value.length % 2 = 0 then value else value ++ ['0']
  isEditEnabled = true ∧
    ∃ u, Settle.Settles (W.refresh isEditEnabled) (W.setSerialisedString value s) u ∧
      t = W.emitFieldUpdated u

/-- `refresh()` ends, without a failed assertion and with the value that was held. -/
def RefreshKeeps (isEditEnabled : Bool) (s : σ) : Prop :=
  ∃ t, Settle.Settles (W.refresh isEditEnabled) s t ∧ W.value t = W.value s

/-- Constructing the widget and refreshing it keep the value, and after a serialised value of whole
bytes was typed the field holds what it was decoded to. -/
structure KeepsValue (isEditEnabled : Bool) (value : QString) (s : σ) : Prop where
  constructed : ∃ t, W.construct (W.value s) t ∧ W.value t = W.value s
  refreshed : W.RefreshKeeps isEditEnabled s
  typed : isEditEnabled = true → ∃ t,
    W.handleNumericSerialisedValueUpdate isEditEnabled value s t ∧
      W.value t = W.value (W.setSerialisedString value s)

theorem keepsValue_iff (hemit : ∀ s, W.value (W.emitFieldUpdated s) = W.value s)
    {isEditEnabled : Bool} {value : QString} (hvalue : value.length % 2 = 0) {s : σ} :
    W.KeepsValue isEditEnabled value s ↔
      (∃ t, W.construct (W.value s) t ∧ W.value t = W.value s) ∧
        W.RefreshKeeps isEditEnabled s ∧
        (isEditEnabled = true →
          W.RefreshKeeps isEditEnabled (W.setSerialisedString value s)) := by
  have htyped : ∀ t, W.handleNumericSerialisedValueUpdate isEditEnabled value s t ↔
      isEditEnabled = true ∧
        ∃ u, Settle.Settles (W.refresh isEditEnabled) (W.setSerialisedString value s) u ∧
          t = W.emitFieldUpdated u := by
    intro t
    rw [handleNumericSerialisedValueUpdate, if_pos hvalue]
  constructor
  · rintro ⟨hconstruct, hrefresh, h⟩
    refine ⟨hconstruct, hrefresh, fun hedit => ?_⟩
    obtain ⟨t, ht, heq⟩ := h hedit
    obtain ⟨-, u, hu, rfl⟩ := (htyped t).mp ht
    exact ⟨u, hu, (hemit u).symm.trans heq⟩
  · rintro ⟨hconstruct, hrefresh, h⟩
    refine ⟨hconstruct, hrefresh, fun hedit => ?_⟩
    obtain ⟨u, hu, heq⟩ := h hedit
    exact ⟨_, (htyped _).mpr ⟨hedit, u, hu, rfl⟩, (hemit u).trans heq⟩

end FieldWidget

end CcToolsQt
