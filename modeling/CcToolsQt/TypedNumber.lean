import CcToolsQt.Qt.Text
import Mathlib.Data.List.Induction

/-! # Typed 64-bit numbers

`LongLongIntValueFieldWidget::getDisplayedValue` reads the text of the value line.  A number
outside 64 bits is cut in a loop until it fits; the loop shortens a copy of the text and parses the
text itself.

* `getDisplayedValue_isSome`: no assertion fails on a sign and digits.
* `cutsToFit_iff`: the result is the value of the longest prefix that fits exactly if the whole
  number fits. -/

namespace CcToolsQt

namespace LongLongIntValueFieldWidget

/-- `std::numeric_limits<qlonglong>::digits10`. -/
def MinLength : ℕ := 18

/-- The loop of `getDisplayedValue`; a text that cannot be parsed gives zero. -/
def shorten (value valueCpy : QString) : ℤ :=
  if MinLength < valueCpy.length then
    match QString.toLongLong 10 value with
    | some val => val
    | none => shorten value valueCpy.dropLast
  else 0
termination_by valueCpy.length

/-- `getDisplayedValue`; `none` is a failed assertion. -/
def getDisplayedValue (value : QString) : Option ℤ :=
  if value = [] ∨ value = [' '] ∨ value = ['-'] ∨ value = ['+'] then some 0
  else
    match QString.toLongLong 10 value with
    | some val => some val
    | none => if MinLength < value.length then some (shorten value value) else none

theorem shorten_of_none {value : QString} (h : QString.toLongLong 10 value = none)
    (valueCpy : QString) : shorten value valueCpy = 0 := by
  fun_induction shorten value valueCpy with
  | case1 _ _ val hval => rw [h] at hval; cases hval
  | case2 _ _ _ ih => exact ih
  | case3 => rfl

end LongLongIntValueFieldWidget

/-! ### Signs and digits -/

/-- An optional sign and decimal digits. -/
structure TypedNumber where
  sign : Option Bool
  digits : List (Fin 10)

namespace TypedNumber
open LongLongIntValueFieldWidget

/-- The characters of the sign; `true` is the minus. -/
def signText : Option Bool → QString
  | none => []
  | some false => ['+']
  | some true => ['-']

def text (t : TypedNumber) : QString :=
  signText t.sign ++ t.digits.map fun d => Nat.digitChar d.val

def magnitude (digits : List (Fin 10)) : ℕ := digits.foldl (fun n d => n * 10 + d.val) 0

/-- The number that is spelled; no digits are zero. -/
def value (t : TypedNumber) : ℤ :=
  if t.sign = some true then -(magnitude t.digits : ℤ) else magnitude t.digits

/-- The prefix with the sign and `k` digits. -/
def take (t : TypedNumber) (k : ℕ) : TypedNumber := { t with digits := t.digits.take k }

/-- The value of the longest prefix that fits a signed 64-bit integer. -/
def LongestFit (t : TypedNumber) (val : ℤ) : Prop :=
  ∃ k ≤ t.digits.length, (t.take k).value = val ∧ QString.inLongLong val = true ∧
    ∀ j, k < j → j ≤ t.digits.length → QString.inLongLong (t.take j).value = false

/-- What is displayed is the number cut to what fits. -/
def CutsToFit (t : TypedNumber) : Prop :=
  ∃ val, getDisplayedValue t.text = some val ∧ t.LongestFit val

variable (t : TypedNumber)

theorem digitsVal_digits (digits : List (Fin 10)) (acc : ℕ) :
    QString.digitsVal 10 (digits.map fun d => Nat.digitChar d.val) acc =
      some (digits.foldl (fun n d => n * 10 + d.val) acc) := by
  induction digits generalizing acc with
  | nil => rfl
  | cons d digits ih =>
      have hd : QString.digitVal 10 (Nat.digitChar d.val) = some d.val :=
        QString.digitVal_digitChar (by omega) d.isLt
      rw [List.map_cons, QString.digitsVal, hd, Option.bind_some, ih, List.foldl_cons]

theorem isSpace_of_mem_text : ∀ c ∈ t.text, QString.isSpace c = false := by
  intro c hc
  rcases List.mem_append.mp hc with hc | hc
  · rcases hs : t.sign with _ | _ | _ <;> rw [hs] at hc <;> simp [signText] at hc <;>
      subst hc <;> rfl
  · obtain ⟨d, -, rfl⟩ := List.mem_map.mp hc
    exact QString.isSpace_digitChar (d.isLt.trans (by omega))

/-- The number of a text with digits. -/
theorem integerVal_text (h : t.digits ≠ []) : QString.integerVal 10 t.text = some t.value := by
  obtain ⟨sign, digits⟩ := t
  have hread : QString.unsignedVal 10 (digits.map fun d => Nat.digitChar d.val) =
      some (magnitude digits) := by
    rw [QString.unsignedVal, if_neg (by simpa using h), digitsVal_digits, magnitude]
  have htrim := QString.trimmed_eq (isSpace_of_mem_text ⟨sign, digits⟩)
  unfold QString.integerVal
  rw [htrim]
  cases sign with
  | some b => cases b <;> simp [text, signText, QString.withoutPrefix, hread, value]
  | none =>
      obtain ⟨d, digits, rfl⟩ := List.exists_cons_of_ne_nil h
      have hne := QString.digitChar_ne (d.isLt.trans (by omega : 10 < 16))
      have htext : text ⟨none, d :: digits⟩ =
          Nat.digitChar d.val :: digits.map fun d => Nat.digitChar d.val := rfl
      rw [htext]
      split
      · next heq => exact absurd (List.cons.inj heq).1 hne.1
      · next heq => exact absurd (List.cons.inj heq).1 hne.2.1
      · rw [List.map_cons] at hread
        simp only [QString.withoutPrefix, Nat.reduceEqDiff, if_false, hread, Option.map_some]
        rfl

theorem toLongLong_text (h : t.digits ≠ []) :
    QString.toLongLong 10 t.text =
      if QString.inLongLong t.value = true then some t.value else none := by
  rw [QString.toLongLong, integerVal_text t h]
  cases hfit : QString.inLongLong t.value <;> simp [Option.filter, hfit]

/-! ### The result -/

theorem text_of_nil (h : t.digits = []) :
    t.text = [] ∨ t.text = [' '] ∨ t.text = ['-'] ∨ t.text = ['+'] := by
  obtain ⟨sign, digits⟩ := t
  cases h
  rcases sign with _ | _ | _ <;> simp [text, signText]

theorem text_of_ne_nil (h : t.digits ≠ []) :
    ¬ (t.text = [] ∨ t.text = [' '] ∨ t.text = ['-'] ∨ t.text = ['+']) := by
  intro hspecial
  have hnone : QString.integerVal 10 t.text = none := by
    rcases hspecial with e | e | e | e <;> rw [e] <;> decide
  rw [integerVal_text t h] at hnone
  cases hnone

theorem magnitude_concat (digits : List (Fin 10)) (d : Fin 10) :
    magnitude (digits ++ [d]) = magnitude digits * 10 + d.val := by
  rw [magnitude, List.foldl_append, ← magnitude]
  rfl

theorem magnitude_lt (digits : List (Fin 10)) : magnitude digits < 10 ^ digits.length := by
  induction digits using List.reverseRecOn with
  | nil => decide
  | append_singleton digits d ih =>
      have hd := d.isLt
      rw [magnitude_concat, List.length_append, List.length_singleton, pow_succ]
      omega

/-- A number outside 64 bits has more digits than `MinLength`. -/
theorem length_of_not_fits (h : QString.inLongLong t.value = false) :
    MinLength < t.text.length := by
  by_contra hle
  have hlen : t.digits.length ≤ 18 := by
    have hcount : t.text.length = (signText t.sign).length + t.digits.length := by simp [text]
    simp only [MinLength] at hle
    omega
  have hlt := (magnitude_lt t.digits).trans_le (Nat.pow_le_pow_right (by omega) hlen)
  have hfit := of_decide_eq_false h
  unfold value at hfit
  split_ifs at hfit <;> omega

/-- What is displayed: the number if it fits, and zero if not. -/
theorem getDisplayedValue_text :
    getDisplayedValue t.text =
      some (if QString.inLongLong t.value = true then t.value else 0) := by
  by_cases hnil : t.digits = []
  · rw [getDisplayedValue, if_pos (text_of_nil t hnil)]
    have hzero : t.value = 0 := by simp [value, hnil, magnitude]
    rw [hzero, ite_self]
  · have hread := toLongLong_text t hnil
    rw [getDisplayedValue, if_neg (text_of_ne_nil t hnil)]
    cases hfit : QString.inLongLong t.value with
    | true => simp [hread, hfit]
    | false =>
        have hnone : QString.toLongLong 10 t.text = none := by simp [hread, hfit]
        simp [hnone, length_of_not_fits t hfit, shorten_of_none hnone]

theorem value_take_length : (t.take t.digits.length).value = t.value := by
  simp [take, value]

/-- A prefix of value zero is not the longest that fits: the next digit fits as well. -/
theorem not_longestFit_zero (h : QString.inLongLong t.value = false) : ¬ t.LongestFit 0 := by
  rintro ⟨k, hk, hzero, -, hlongest⟩
  rcases Nat.lt_or_ge k t.digits.length with hlt | hge
  · have hnext := of_decide_eq_false (hlongest (k + 1) (by omega) hlt)
    have hdigit := (t.digits[k]).isLt
    have hmag : magnitude (t.digits.take k) = 0 := by
      unfold value take at hzero
      split_ifs at hzero <;> simpa using hzero
    have hcut : magnitude (t.digits.take (k + 1)) = (t.digits[k]).val := by
      rw [List.take_succ_eq_append_getElem hlt, magnitude_concat, hmag, Nat.zero_mul, Nat.zero_add]
    unfold value take at hnext
    rw [hcut] at hnext
    split_ifs at hnext <;> omega
  · obtain rfl : k = t.digits.length := by omega
    rw [value_take_length] at hzero
    rw [hzero] at h
    cases h

/-- **Typed 64-bit numbers.**  The function returns without a failed assertion on every text of a
sign and digits, and the result is the value of the longest prefix that fits exactly if the whole
number fits. -/
theorem cutsToFit_iff :
    (getDisplayedValue t.text).isSome = true ∧
      (t.CutsToFit ↔ QString.inLongLong t.value = true) := by
  refine ⟨by rw [getDisplayedValue_text]; rfl, ?_, ?_⟩
  · rintro ⟨val, hval, hlongest⟩
    by_contra hfit
    rw [Bool.not_eq_true] at hfit
    rw [getDisplayedValue_text, hfit] at hval
    obtain rfl := Option.some.inj hval
    exact not_longestFit_zero t hfit hlongest
  · intro hfit
    refine ⟨t.value, by rw [getDisplayedValue_text, if_pos hfit], t.digits.length, le_rfl,
      value_take_length t, hfit, ?_⟩
    intro j hj hle
    omega

/-- One more than the largest 64-bit integer. -/
def overflow : TypedNumber :=
  ⟨none, [9, 2, 2, 3, 3, 7, 2, 0, 3, 6, 8, 5, 4, 7, 7, 5, 8, 0, 8]⟩

/-- It is displayed as zero, although its first 18 digits fit. -/
theorem overflow_gives_zero : ¬ overflow.CutsToFit := by
  rintro ⟨val, hval, hlongest⟩
  have hfit : QString.inLongLong overflow.value = false := by
    rw [show overflow.value = 2 ^ 63 by rfl]
    rfl
  rw [getDisplayedValue_text, hfit] at hval
  obtain rfl := Option.some.inj hval
  exact not_longestFit_zero _ hfit hlongest

end TypedNumber

end CcToolsQt
