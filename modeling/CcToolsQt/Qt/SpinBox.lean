import Mathlib.Data.Int.Order.Basic
import Mathlib.Tactic.Common

/-! # Spin boxes and check boxes

The value of a `QSpinBox` is always within its range: what is set is clamped, and so is the value
when the range changes.  A spin box gives back what was put into it if and only if that is in the
range (`setValue_value_eq_iff`). -/

namespace CcToolsQt

/-- `Qt::CheckState`. -/
inductive CheckState where
  | Unchecked
  | PartiallyChecked
  | Checked
  deriving DecidableEq

structure QSpinBox where
  minimum : ℤ
  maximum : ℤ
  value : ℤ
  minimum_le : minimum ≤ value
  le_maximum : value ≤ maximum

namespace QSpinBox

/-- A new spin box. -/
def new : QSpinBox where
  minimum := 0
  maximum := 99
  value := 0
  minimum_le := by decide
  le_maximum := by decide

variable (b : QSpinBox)

def setValue (val : ℤ) : QSpinBox :=
  { b with
    value := max b.minimum (min b.maximum val)
    minimum_le := le_max_left _ _
    le_maximum := max_le (le_trans b.minimum_le b.le_maximum) (min_le_left _ _) }

/-- The limits of a range are never crossed: the upper one follows the lower one. -/
def setRange (min max : ℤ) : QSpinBox where
  minimum := min
  maximum := Max.max min max
  value := Max.max min (Min.min (Max.max min max) b.value)
  minimum_le := le_max_left _ _
  le_maximum := max_le (le_max_left _ _) (min_le_left _ _)

def setMinimum (min : ℤ) : QSpinBox := b.setRange min b.maximum

@[simp] theorem setValue_minimum (val : ℤ) : (b.setValue val).minimum = b.minimum := rfl

@[simp] theorem setValue_maximum (val : ℤ) : (b.setValue val).maximum = b.maximum := rfl

theorem setValue_value (val : ℤ) :
    (b.setValue val).value = max b.minimum (min b.maximum val) := rfl

/-- **A spin box gives back what is in its range**, and nothing else. -/
theorem setValue_value_eq_iff (val : ℤ) :
    (b.setValue val).value = val ↔ b.minimum ≤ val ∧ val ≤ b.maximum := by
  have hmin := b.minimum_le
  have hmax := b.le_maximum
  rw [setValue_value]
  omega

@[simp] theorem setMinimum_minimum (min : ℤ) : (b.setMinimum min).minimum = min := rfl

@[simp] theorem setMinimum_maximum (min : ℤ) :
    (b.setMinimum min).maximum = max min b.maximum := rfl

/-- A new lower limit lifts the value. -/
theorem setMinimum_value (min : ℤ) : (b.setMinimum min).value = max min b.value := by
  have hmax := b.le_maximum
  show max min (Min.min (max min b.maximum) b.value) = max min b.value
  omega

/-- A value within the limits, and then a new lower limit. -/
theorem setValue_setMinimum {min val : ℤ} (hle : b.minimum ≤ min) (hval : val ≤ b.maximum) :
    ((b.setValue val).setMinimum min).value = max min val := by
  rw [setMinimum_value, setValue_value]
  omega

end QSpinBox

end CcToolsQt
