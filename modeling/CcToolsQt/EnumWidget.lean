import CcToolsQt.FieldWidget
import Mathlib.Tactic.IntervalCases
import Mathlib.Tactic.NormNum

/-! # Enum fields

The combo box of an enum field lists the named values below an entry `???` for every other value.
`EnumValueFieldWidget::populateComboBox` looks for a value for that entry one past the largest name,
at the largest value of the length, and downwards from there.

* `invValue_named_iff`: the value of the entry is named if there is no gap to find.
* `refresh_keeps_iff`: when showing a value leaves it as it is.
* `apart_iff`: when the entry differs from every named value. -/

namespace CcToolsQt

/-- An enum field.  Its value is a `long long`; `setValue` gives what is held after setting one. -/
structure ToolsEnumField where
  values : List (QString × ℤ)
  length : ℕ
  one_le_length : 1 ≤ length
  setValue : ℤ → ℤ
  setSerialisedString : ℤ → QString → ℤ
  valid : ℤ → Bool
  canWrite : ℤ → Bool
  resetValue : ℤ
  isReadOnly : Bool

namespace EnumValueFieldWidget

/-! ### The value of the placeholder -/

section placeholder
variable (values : List (QString × ℤ)) (len : ℕ)

def maxValue : ℤ := values.foldl (fun maxValue val => max maxValue val.2) (-2 ^ 63)

def maxAllowedValue : ℤ := if len < 8 then 2 ^ (len * 8) - 1 else 2 ^ 63 - 1

/-- The search downwards for a value that is not stored. -/
def lowered (storedValues : List ℤ) : ℕ → ℕ
  | 0 => 0
  | invValue + 1 =>
      if ((invValue + 1 : ℕ) : ℤ) ∈ storedValues then lowered storedValues invValue
      else invValue + 1

/-- The value `populateComboBox` finds for the placeholder. -/
def invValue : ℤ :=
  let maxValue := maxValue values
  let maxAllowedValue := maxAllowedValue len
  let invValue := if maxValue < 2 ^ 63 - 1 then maxValue + 1 else -2 ^ 63
  if invValue < 0 ∧ maxValue < maxAllowedValue then maxAllowedValue
  else if 0 ≤ invValue ∧ invValue ≤ maxAllowedValue then invValue
  else
    let invValue := maxAllowedValue - 1
    if 0 < invValue then lowered (values.map (·.2)) invValue.toNat else invValue

/-- The value is one of the named ones. -/
def Named (value : ℤ) : Prop := value ∈ values.map (·.2)

instance (value : ℤ) : Decidable (Named values value) := inferInstanceAs (Decidable (_ ∈ _))

variable {values len}

theorem foldl_max_spec (m : ℤ) :
    m ≤ values.foldl (fun maxValue val => max maxValue val.2) m ∧
      (∀ value, Named values value →
        value ≤ values.foldl (fun maxValue val => max maxValue val.2) m) ∧
      (values.foldl (fun maxValue val => max maxValue val.2) m = m ∨
        Named values (values.foldl (fun maxValue val => max maxValue val.2) m)) := by
  induction values generalizing m with
  | nil => exact ⟨le_refl m, fun value hmem => absurd hmem List.not_mem_nil, .inl rfl⟩
  | cons val values ih =>
      obtain ⟨hle, hall, hmem⟩ := ih (max m val.2)
      refine ⟨(le_max_left _ _).trans hle, fun value hvalue => ?_, ?_⟩
      · rcases List.mem_cons.mp hvalue with rfl | hvalue
        · exact (le_max_right _ _).trans hle
        · exact hall value hvalue
      · rw [List.foldl_cons]
        rcases hmem with heq | hmem
        · rw [heq]
          rcases max_choice m val.2 with hm | hval
          · exact .inl hm
          · exact .inr (List.mem_cons.mpr (.inl hval))
        · exact .inr (List.mem_cons_of_mem _ hmem)

theorem le_maxValue {value : ℤ} (h : Named values value) : value ≤ maxValue values :=
  (foldl_max_spec _).2.1 value h

theorem maxValue_eq_or_named : maxValue values = -2 ^ 63 ∨ Named values (maxValue values) :=
  (foldl_max_spec _).2.2

/-- The search ends at the largest value that is not stored, or at zero. -/
theorem lowered_spec (storedValues : List ℤ) (n : ℕ) :
    lowered storedValues n ≤ n ∧
      (lowered storedValues n = 0 ∨ (lowered storedValues n : ℤ) ∉ storedValues) ∧
      ∀ k, lowered storedValues n < k → k ≤ n → (k : ℤ) ∈ storedValues := by
  induction n with
  | zero => exact ⟨le_refl 0, .inl rfl, fun k hlt hle => absurd hlt (by omega)⟩
  | succ n ih =>
      obtain ⟨hle, hnot, hall⟩ := ih
      rw [lowered]
      split_ifs with hmem
      · refine ⟨by omega, hnot, fun k hlt hk => ?_⟩
        rcases Nat.lt_or_ge n k with hgt | hkn
        · obtain rfl : k = n + 1 := by omega
          exact hmem
        · exact hall k hlt hkn
      · exact ⟨le_refl _, .inr hmem, fun k hlt hk => absurd hlt (by omega)⟩

theorem maxAllowedValue_bounds (hlen : 1 ≤ len) :
    255 ≤ maxAllowedValue len ∧ maxAllowedValue len ≤ 2 ^ 63 - 1 := by
  rw [maxAllowedValue]
  split_ifs with hlt
  · interval_cases len <;> norm_num
  · norm_num

/-- **The search for the placeholder**: one past the names, the largest value of the length, or the
largest gap below it. -/
theorem invValue_cases (hlen : 1 ≤ len) :
    (maxValue values < -1 ∧ invValue values len = maxAllowedValue len) ∨
      (-1 ≤ maxValue values ∧ maxValue values < maxAllowedValue len ∧
        invValue values len = maxValue values + 1) ∨
      (maxAllowedValue len ≤ maxValue values ∧ invValue values len =
        lowered (values.map (·.2)) (maxAllowedValue len - 1).toNat) := by
  obtain ⟨hlow, hhigh⟩ := maxAllowedValue_bounds hlen
  simp only [invValue]
  split_ifs <;> omega

theorem invValue_bounds (hlen : 1 ≤ len) :
    0 ≤ invValue values len ∧ invValue values len ≤ maxAllowedValue len := by
  obtain ⟨hlow, -⟩ := maxAllowedValue_bounds hlen
  rcases @invValue_cases values len hlen with ⟨-, hinv⟩ | ⟨_, _, hinv⟩ | ⟨-, hinv⟩
  · omega
  · omega
  · have hle := (lowered_spec (values.map (·.2)) (maxAllowedValue len - 1).toNat).1
    omega

variable (values len) in
/-- The names end below the largest value of the length, or leave a gap below it. -/
def Gap : Prop :=
  (∀ value, Named values value → value < maxAllowedValue len) ∨
    ∃ value, 0 ≤ value ∧ value < maxAllowedValue len ∧ ¬ Named values value

theorem maxValue_lt_iff (hlen : 1 ≤ len) : maxValue values < maxAllowedValue len ↔
    ∀ value, Named values value → value < maxAllowedValue len := by
  obtain ⟨hlow, -⟩ := maxAllowedValue_bounds hlen
  refine ⟨fun hmax value hvalue => (le_maxValue hvalue).trans_lt hmax, fun hall => ?_⟩
  rcases @maxValue_eq_or_named values with heq | hnamed
  · omega
  · exact hall _ hnamed

theorem invValue_named_iff (hlen : 1 ≤ len) :
    Named values (invValue values len) ↔ ¬ Gap values len := by
  obtain ⟨hlow, -⟩ := maxAllowedValue_bounds hlen
  rw [Gap, ← maxValue_lt_iff hlen]
  rcases @invValue_cases values len hlen with ⟨hmax, hinv⟩ | ⟨_, hmax, hinv⟩ | ⟨hmax, hinv⟩
  · refine iff_of_false (fun h => ?_) (not_not.mpr (.inl (by omega)))
    have hle := le_maxValue h
    omega
  · refine iff_of_false (fun h => ?_) (not_not.mpr (.inl hmax))
    have hle := le_maxValue h
    omega
  · obtain ⟨hle, hnot, hall⟩ := lowered_spec (values.map (·.2)) (maxAllowedValue len - 1).toNat
    rw [hinv]
    constructor
    · rintro hnamed (hlt | ⟨value, hpos, hlt, hunnamed⟩)
      · omega
      · obtain ⟨k, rfl⟩ := Int.eq_ofNat_of_zero_le hpos
        refine hunnamed ?_
        rcases Nat.lt_or_ge (lowered (values.map (·.2)) (maxAllowedValue len - 1).toNat) k with
          hgt | hge
        · exact hall k hgt (by omega)
        · rcases hnot with hzero | hnot
          · obtain rfl : k = 0 := by omega
            rwa [hzero] at hnamed
          · exact absurd hnamed hnot
    · intro hgap
      by_contra hunnamed
      exact hgap (.inr ⟨_, Int.natCast_nonneg _, by omega, hunnamed⟩)

end placeholder

/-! ### Values stored in a field -/

/-- What is read back from a field of so many bytes; eight unsigned bytes are read as a
`long long`. -/
def wrapped (isSigned : Bool) (bytes : ℕ) (value : ℤ) : ℤ :=
  if isSigned = true ∨ bytes = 8 then value.bmod (2 ^ (bytes * 8)) else value % 2 ^ (bytes * 8)

theorem wrapped_signed {bytes : ℕ} (hpos : 1 ≤ bytes) (hlt : bytes < 8) {value : ℤ}
    (hlow : 0 ≤ value) (hhigh : value ≤ maxAllowedValue bytes) :
    wrapped true bytes value =
      if value < 2 ^ (bytes * 8 - 1) then value else value - 2 ^ (bytes * 8) := by
  rw [wrapped, if_pos (.inl rfl), Int.bmod_def]
  rw [maxAllowedValue, if_pos hlt] at hhigh
  interval_cases bytes <;> norm_num at hhigh ⊢ <;> split_ifs <;> omega

/-- Only a signed field can give back another value for one that is not above the largest. -/
theorem wrapped_eq {isSigned : Bool} {len bytes : ℕ} (hlen : 1 ≤ len) (hle : len ≤ bytes)
    (hbytes : bytes ≤ 8) (hkind : ¬ (isSigned = true ∧ bytes = len ∧ len < 8)) {value : ℤ}
    (hlow : 0 ≤ value) (hhigh : value ≤ maxAllowedValue len) :
    wrapped isSigned bytes value = value := by
  have hbmod : 2 * value < 2 ^ (bytes * 8) → value.bmod (2 ^ (bytes * 8)) = value := by
    intro hlt
    refine Int.bmod_eq_of_le_mul_two ?_ ?_ <;> push_cast <;> omega
  rw [maxAllowedValue] at hhigh
  rw [wrapped]
  rcases Nat.lt_or_ge len bytes with hlt | hge
  · have hpow : (2 : ℤ) ^ (len * 8 + 1) ≤ 2 ^ (bytes * 8) :=
      pow_le_pow_right₀ (by norm_num) (by omega)
    rw [if_pos (by omega)] at hhigh
    rw [pow_succ] at hpow
    split_ifs
    · exact hbmod (by omega)
    · exact Int.emod_eq_of_lt hlow (by omega)
  · obtain rfl : bytes = len := by omega
    rcases Nat.lt_or_ge bytes 8 with hlt | hge
    · rw [if_pos hlt] at hhigh
      rw [if_neg (by rintro (hsigned | heq); exacts [hkind ⟨hsigned, rfl, hlt⟩, by omega])]
      exact Int.emod_eq_of_lt hlow (by omega)
    · obtain rfl : bytes = 8 := by omega
      rw [if_neg (by omega)] at hhigh
      rw [if_pos (.inr rfl)]
      exact hbmod (by norm_num; omega)

/-! ### The combo box -/

section combo
variable (F : ToolsEnumField)

def InvalidValueComboText : QString := "???".toList

def EnumValuesStartIndex : ℕ := 2

/-- The items `populateComboBox` leaves in the box. -/
def populateComboBox : List ComboItem :=
  let items := F.values.map fun val => ⟨val.1, some val.2⟩
  let invValue := invValue F.values F.length
  if 0 ≤ invValue then ⟨InvalidValueComboText, some invValue⟩ :: ⟨[], none⟩ :: items else items

def idxOffset : ℕ := if 0 ≤ invValue F.values F.length then EnumValuesStartIndex else 0

/-- The current item after `populateComboBox`: the first one added is moved by those inserted. -/
def startIndex : ℕ := if F.values = [] then 0 else idxOffset F

def itemData (idx : ℕ) : Option ℤ := (populateComboBox F)[idx]?.bind (·.data)

/-- The search of `refreshImpl` among the named values. -/
def foundMatch (value : ℤ) : Option ℕ :=
  (((populateComboBox F).drop (idxOffset F)).findIdx? fun item => item.data == some value).map
    (· + idxOffset F)

/-- The index `refreshImpl` leaves current; `none` is a failed assertion. -/
def selected (value : ℤ) (comboIdx : ℕ) : Option ℕ :=
  if F.valid value = false ∧ comboIdx < idxOffset F then some comboIdx
  else
    (itemData F comboIdx).map fun comboValue =>
      if value = comboValue then comboIdx else (foundMatch F value).getD 0

variable {F}

theorem populateComboBox_eq : populateComboBox F =
    ⟨InvalidValueComboText, some (invValue F.values F.length)⟩ :: ⟨[], none⟩ ::
      F.values.map fun val => ⟨val.1, some val.2⟩ := by
  rw [populateComboBox, if_pos (invValue_bounds F.one_le_length).1]

@[simp] theorem idxOffset_eq : idxOffset F = 2 := if_pos (invValue_bounds F.one_le_length).1

theorem itemData_zero : itemData F 0 = some (invValue F.values F.length) := by
  rw [itemData, populateComboBox_eq]
  rfl

theorem itemData_add_two (idx : ℕ) : itemData F (idx + 2) = F.values[idx]?.map (·.2) := by
  rw [itemData, populateComboBox_eq, List.getElem?_cons_succ, List.getElem?_cons_succ,
    List.getElem?_map]
  cases F.values[idx]? <;> rfl

theorem named_of_itemData {idx : ℕ} {value : ℤ} (hidx : 2 ≤ idx)
    (h : itemData F idx = some value) : Named F.values value := by
  obtain ⟨k, rfl⟩ := Nat.exists_eq_add_of_le' hidx
  rw [itemData_add_two] at h
  obtain ⟨val, hval, rfl⟩ := Option.map_eq_some_iff.mp h
  exact List.mem_map_of_mem (List.mem_of_getElem? hval)

/-- The placeholder, or the entry of a named value. -/
def IsEntry (F : ToolsEnumField) (idx : ℕ) : Prop := ∃ value, itemData F idx = some value

theorem IsEntry.cases {idx : ℕ} (h : IsEntry F idx) : idx = 0 ∨ 2 ≤ idx := by
  obtain ⟨value, hvalue⟩ := h
  rcases idx with - | - | idx
  · exact .inl rfl
  · rw [itemData, populateComboBox_eq] at hvalue
    cases hvalue
  · exact .inr (by omega)

theorem foundMatch_eq (value : ℤ) :
    foundMatch F value = (F.values.findIdx? fun val => val.2 == value).map (· + 2) := by
  rw [foundMatch, populateComboBox_eq, idxOffset_eq, List.drop_succ_cons, List.drop_succ_cons,
    List.drop_zero, List.findIdx?_map]
  rfl

theorem foundMatch_some {value : ℤ} {idx : ℕ} (h : foundMatch F value = some idx) :
    2 ≤ idx ∧ itemData F idx = some value := by
  rw [foundMatch_eq] at h
  obtain ⟨k, hk, rfl⟩ := Option.map_eq_some_iff.mp h
  obtain ⟨hlt, hval, -⟩ := List.findIdx?_eq_some_iff_getElem.mp hk
  refine ⟨by omega, ?_⟩
  rw [itemData_add_two, List.getElem?_eq_getElem hlt, Option.map_some, eq_of_beq hval]

theorem foundMatch_eq_none {value : ℤ} (h : foundMatch F value = none) :
    ¬ Named F.values value := by
  rw [foundMatch_eq, Option.map_eq_none_iff, List.findIdx?_eq_none_iff] at h
  intro hnamed
  obtain ⟨val, hval, rfl⟩ := List.mem_map.mp hnamed
  exact absurd (h val hval) (by simp)

/-! ### Showing the value -/

/-- The field, the current item and how often `sigFieldUpdated` was emitted. -/
structure State where
  value : ℤ
  comboIdx : ℕ
  emitted : ℕ

variable (F) in
/-- What the slot writes for an item. -/
def written (value : ℤ) : Option ℤ := setOrReset F.canWrite F.resetValue (F.setValue value)

variable (F) in
/-- `valueUpdated`, up to the `refresh()` at its end. -/
def valueUpdated (isEditEnabled : Bool) (s : State) : Option (Settle.Pass State) :=
  if F.valid s.value = false ∧ s.comboIdx < idxOffset F then some (.done s)
  else if isEditEnabled then
    (itemData F s.comboIdx).bind fun value =>
      if value = s.value then some (.done s)
      else (written F value).map fun value =>
        .again { s with value := value, emitted := s.emitted + 1 }
  else some (.again s)

variable (F) in
/-- `refreshImpl`: a change of the current item calls the slot. -/
def refresh (isEditEnabled : Bool) (s : State) : Option (Settle.Pass State) :=
  if F.canWrite s.value then
    (selected F s.value s.comboIdx).bind fun comboIdx =>
      if comboIdx = s.comboIdx then some (.done s)
      else valueUpdated F isEditEnabled { s with comboIdx := comboIdx }
  else none

variable (F) in
/-- The constructor refreshes before it connects the slot. -/
def construct (value : ℤ) : Option State :=
  if F.canWrite value then
    (selected F value (startIndex F)).map fun comboIdx => ⟨value, comboIdx, 0⟩
  else none

variable (F) in
/-- Showing the value at an item selects the placeholder for another value, and the placeholder is
taken for an edit. -/
def TakenForEdit (isEditEnabled : Bool) (s : State) : Prop :=
  isEditEnabled = true ∧ F.valid s.value = true ∧ s.comboIdx ≠ 0 ∧ ¬ Named F.values s.value ∧
    s.value ≠ invValue F.values F.length

variable {s : State} {isEditEnabled : Bool}

/-- What `refreshImpl` selects. -/
theorem selected_cases (hentry : IsEntry F s.comboIdx) :
    (selected F s.value s.comboIdx = some s.comboIdx ∧
        (F.valid s.value = false ∧ s.comboIdx = 0 ∨ itemData F s.comboIdx = some s.value)) ∨
      (∃ idx, selected F s.value s.comboIdx = some idx ∧ idx ≠ s.comboIdx ∧ 2 ≤ idx ∧
        itemData F idx = some s.value) ∨
      (selected F s.value s.comboIdx = some 0 ∧ ¬ Named F.values s.value ∧
        (F.valid s.value = true ∨ s.comboIdx ≠ 0) ∧ itemData F s.comboIdx ≠ some s.value) := by
  have hcases := hentry.cases
  obtain ⟨comboValue, hdata⟩ := hentry
  rw [selected, hdata, idxOffset_eq]
  by_cases hinvalid : F.valid s.value = false ∧ s.comboIdx < 2
  · rw [if_pos hinvalid]
    exact .inl ⟨rfl, .inl ⟨hinvalid.1, by omega⟩⟩
  · rw [if_neg hinvalid, Option.map_some]
    by_cases heq : s.value = comboValue
    · rw [if_pos heq]
      exact .inl ⟨rfl, .inr (by rw [heq])⟩
    · rw [if_neg heq]
      have hne : some comboValue ≠ some s.value := fun h => heq (Option.some.inj h).symm
      cases hfound : foundMatch F s.value with
      | none =>
          refine .inr (.inr ⟨rfl, foundMatch_eq_none hfound, ?_, hne⟩)
          by_contra hneither
          push Not at hneither
          exact hinvalid ⟨by simpa using hneither.1, by omega⟩
      | some idx =>
          obtain ⟨hidx, hvalue⟩ := foundMatch_some hfound
          refine .inr (.inl ⟨idx, rfl, ?_, hidx, hvalue⟩)
          rintro rfl
          exact hne (hdata.symm.trans hvalue)

theorem settles_of_stays (hwrite : F.canWrite s.value = true)
    (hsel : selected F s.value s.comboIdx = some s.comboIdx) (t : State) :
    Settle.Settles (refresh F isEditEnabled) s t ↔ t = s := by
  apply Settle.settles_of_done
  rw [refresh, if_pos hwrite, hsel, Option.bind_some, if_pos rfl]

/-- A named value is shown by its own entry. -/
theorem settles_of_found (hwrite : F.canWrite s.value = true) {idx : ℕ}
    (hsel : selected F s.value s.comboIdx = some idx) (hne : idx ≠ s.comboIdx) (hidx : 2 ≤ idx)
    (hdata : itemData F idx = some s.value) (t : State) :
    Settle.Settles (refresh F isEditEnabled) s t ↔ t = { s with comboIdx := idx } := by
  have hrefresh : refresh F isEditEnabled s =
      valueUpdated F isEditEnabled { s with comboIdx := idx } := by
    rw [refresh, if_pos hwrite, hsel, Option.bind_some, if_neg hne]
  have hvalid : ¬ (F.valid s.value = false ∧ idx < idxOffset F) := by
    rw [idxOffset_eq]
    omega
  rw [valueUpdated, if_neg hvalid] at hrefresh
  cases isEditEnabled with
  | true =>
      rw [if_pos rfl, hdata, Option.bind_some, if_pos rfl] at hrefresh
      exact Settle.settles_of_done hrefresh
  | false =>
      have hsel' : selected F s.value idx = some idx := by
        rw [selected, if_neg hvalid, hdata, Option.map_some, if_pos rfl]
      rw [if_neg Bool.false_ne_true] at hrefresh
      rw [Settle.settles_of_again hrefresh]
      exact settles_of_stays (s := { s with comboIdx := idx }) hwrite hsel' t

variable (isEditEnabled) in
/-- At the placeholder no value is taken for an edit. -/
theorem settles_at_placeholder (hwrite : F.canWrite s.value = true) (hidx : s.comboIdx = 0) :
    ∃ t : State, t.value = s.value ∧
      ∀ u, Settle.Settles (refresh F isEditEnabled) s u ↔ u = t := by
  have hentry : IsEntry F s.comboIdx := ⟨_, by rw [hidx]; exact itemData_zero⟩
  rcases selected_cases hentry with ⟨hsel, -⟩ | ⟨idx, hsel, hne, hle, hdata⟩ | ⟨hsel, -, -, -⟩
  · exact ⟨s, rfl, settles_of_stays hwrite hsel⟩
  · exact ⟨{ s with comboIdx := idx }, rfl, settles_of_found hwrite hsel hne hle hdata⟩
  · exact ⟨s, rfl, settles_of_stays hwrite (by rw [hsel, hidx])⟩

theorem settles_of_not_taken (hentry : IsEntry F s.comboIdx)
    (hwrite : F.canWrite s.value = true) (htaken : ¬ TakenForEdit F isEditEnabled s) :
    ∃ t : State, t.value = s.value ∧
      ∀ u, Settle.Settles (refresh F isEditEnabled) s u ↔ u = t := by
  rcases selected_cases hentry with ⟨hsel, -⟩ | ⟨idx, hsel, hne, hle, hdata⟩ |
    ⟨hsel, hnamed, -, -⟩
  · exact ⟨s, rfl, settles_of_stays hwrite hsel⟩
  · exact ⟨{ s with comboIdx := idx }, rfl, settles_of_found hwrite hsel hne hle hdata⟩
  · by_cases hzero : s.comboIdx = 0
    · exact settles_at_placeholder _ hwrite hzero
    · have hrefresh : refresh F isEditEnabled s =
          valueUpdated F isEditEnabled { s with comboIdx := 0 } := by
        rw [refresh, if_pos hwrite, hsel, Option.bind_some, if_neg (Ne.symm hzero)]
      rw [valueUpdated, idxOffset_eq] at hrefresh
      by_cases hvalid : F.valid s.value = true
      · rw [if_neg (by simp [hvalid])] at hrefresh
        cases isEditEnabled with
        | true =>
            have hinv : invValue F.values F.length = s.value := by
              by_contra hne
              exact htaken ⟨rfl, hvalid, hzero, hnamed, Ne.symm hne⟩
            rw [if_pos rfl, itemData_zero, Option.bind_some, if_pos hinv] at hrefresh
            exact ⟨{ s with comboIdx := 0 }, rfl, fun u => Settle.settles_of_done hrefresh⟩
        | false =>
            rw [if_neg Bool.false_ne_true] at hrefresh
            obtain ⟨t, hvalue, hall⟩ :=
              settles_at_placeholder false (s := { s with comboIdx := 0 }) hwrite rfl
            exact ⟨t, hvalue, fun u => (Settle.settles_of_again hrefresh).trans (hall u)⟩
      · rw [if_pos ⟨by simpa using hvalid, Nat.zero_lt_two⟩] at hrefresh
        exact ⟨{ s with comboIdx := 0 }, rfl, fun u => Settle.settles_of_done hrefresh⟩

/-- The placeholder is written to the field. -/
theorem refresh_of_taken (hentry : IsEntry F s.comboIdx) (hwrite : F.canWrite s.value = true)
    (htaken : TakenForEdit F isEditEnabled s) :
    refresh F isEditEnabled s = (written F (invValue F.values F.length)).map fun value =>
      .again { value := value, comboIdx := 0, emitted := s.emitted + 1 } := by
  obtain ⟨rfl, hvalid, hzero, hnamed, hinv⟩ := htaken
  have hidx : 2 ≤ s.comboIdx := hentry.cases.resolve_left hzero
  rcases selected_cases hentry with ⟨-, ⟨hinvalid, -⟩ | hdata⟩ | ⟨idx, -, -, hle, hdata⟩ |
    ⟨hsel, -, -, -⟩
  · rw [hvalid] at hinvalid
    cases hinvalid
  · exact absurd (named_of_itemData hidx hdata) hnamed
  · exact absurd (named_of_itemData hle hdata) hnamed
  · rw [refresh, if_pos hwrite, hsel, Option.bind_some, if_neg (Ne.symm hzero), valueUpdated,
      if_neg (by simp [hvalid]), if_pos rfl, itemData_zero, Option.bind_some,
      if_neg (Ne.symm hinv)]

/-- **When showing a value leaves it as it is**: unless the placeholder is taken for an edit. -/
theorem refresh_keeps_iff (hentry : IsEntry F s.comboIdx) :
    (∃ t, Settle.Settles (refresh F isEditEnabled) s t ∧ t.value = s.value) ↔
      F.canWrite s.value = true ∧
        (TakenForEdit F isEditEnabled s →
          written F (invValue F.values F.length) = some s.value) := by
  by_cases hwrite : F.canWrite s.value = true
  · by_cases htaken : TakenForEdit F isEditEnabled s
    · have hrefresh := refresh_of_taken hentry hwrite htaken
      cases hwritten : written F (invValue F.values F.length) with
      | none =>
          rw [hwritten] at hrefresh
          refine iff_of_false (fun ⟨t, ht, _⟩ => Settle.not_settles_of_none hrefresh ht) ?_
          rintro ⟨-, h⟩
          cases h htaken
      | some value =>
          rw [hwritten] at hrefresh
          obtain ⟨t, hvalue, hall⟩ := settles_at_placeholder isEditEnabled
            (s := ⟨value, 0, s.emitted + 1⟩) (setOrReset_spec hwritten).1 rfl
          constructor
          · rintro ⟨u, hu, hkeeps⟩
            rw [Settle.settles_of_again hrefresh, hall] at hu
            refine ⟨hwrite, fun _ => ?_⟩
            rw [← hkeeps, hu, hvalue]
          · rintro ⟨-, h⟩
            refine ⟨t, (Settle.settles_of_again hrefresh).mpr ((hall t).mpr rfl), ?_⟩
            rw [hvalue]
            exact Option.some.inj (h htaken)
    · obtain ⟨t, hvalue, hall⟩ := settles_of_not_taken hentry hwrite htaken
      exact iff_of_true ⟨t, (hall t).mpr rfl, hvalue⟩ ⟨hwrite, fun h => absurd h htaken⟩
  · have hnone : refresh F isEditEnabled s = none := by rw [refresh, if_neg hwrite]
    refine iff_of_false (fun ⟨t, ht, _⟩ => Settle.not_settles_of_none hnone ht) ?_
    exact fun h => hwrite h.1

/-! ### Placeholder and named values -/

variable (F) in
/-- The placeholder differs from the named values, also after it was stored, no placeholder is
left out unless every value is named, and a named value is shown by its own entry. -/
structure Apart : Prop where
  unnamed : idxOffset F ≠ 0 → ∀ value, itemData F 0 = some value →
    ¬ Named F.values value ∧ ¬ Named F.values (F.setValue value)
  complete : idxOffset F = 0 → ∀ value, F.setValue value = value → Named F.values value
  shown : ∀ s isEditEnabled, IsEntry F s.comboIdx → Named F.values s.value →
    F.canWrite s.value = true → ∃ t, Settle.Settles (refresh F isEditEnabled) s t ∧
      t.value = s.value ∧ idxOffset F ≤ t.comboIdx ∧ itemData F t.comboIdx = some s.value

variable (F) in
/-- The names take both ends of a signed field stored in as many bytes as it is serialised in. -/
def TakesEnds (isSigned : Bool) (bytes : ℕ) : Prop :=
  isSigned = true ∧ bytes = F.length ∧ F.length < 8 ∧
    Named F.values (2 ^ (F.length * 8 - 1) - 1) ∧ Named F.values (-2 ^ (F.length * 8 - 1))

variable (F) in
theorem two_pow_length : (2 : ℤ) ^ (F.length * 8) = 2 * 2 ^ (F.length * 8 - 1) := by
  have hpos := F.one_le_length
  rw [← pow_succ', Nat.sub_add_cancel (by omega)]

/-- In a signed field only the value one past the upper end wraps to a named one. -/
theorem named_wrapped_iff (hlt : F.length < 8)
    (hends : ∀ value, Named F.values value → value < 2 ^ (F.length * 8 - 1))
    (hunnamed : ¬ Named F.values (invValue F.values F.length)) :
    Named F.values (wrapped true F.length (invValue F.values F.length)) ↔
      Named F.values (2 ^ (F.length * 8 - 1) - 1) ∧ Named F.values (-2 ^ (F.length * 8 - 1)) := by
  obtain ⟨hlow, hhigh⟩ := invValue_bounds F.one_le_length
  have hhalf := two_pow_length F
  have hallowed : maxAllowedValue F.length = 2 * 2 ^ (F.length * 8 - 1) - 1 := by
    rw [maxAllowedValue, if_pos hlt, hhalf]
  rw [wrapped_signed F.one_le_length hlt hlow hhigh, hhalf]
  have hmax := @maxValue_eq_or_named F.values
  rcases @invValue_cases F.values F.length F.one_le_length with
    ⟨hmax, hinv⟩ | ⟨hge, -, hinv⟩ | ⟨hge, -⟩
  · have hone : 2 * 2 ^ (F.length * 8 - 1) - 1 - 2 * 2 ^ (F.length * 8 - 1) = (-1 : ℤ) := by
      omega
    rw [if_neg (by omega), hinv, hallowed, hone]
    refine iff_of_false (fun h => ?_) fun h => ?_
    · exact absurd (le_maxValue h) (by omega)
    · exact absurd (le_maxValue h.1) (by omega)
  · -- the entry is one past the largest name, which wraps only past the upper end
    rw [hinv]
    split_ifs with hbelow
    · refine iff_of_false (by rwa [hinv] at hunnamed) fun h => ?_
      exact absurd (le_maxValue h.1) (by omega)
    · have hnamed := hmax.resolve_left (by omega)
      have htop := hends _ hnamed
      have heq : maxValue F.values = 2 ^ (F.length * 8 - 1) - 1 := by omega
      have hwrap : maxValue F.values + 1 - 2 * 2 ^ (F.length * 8 - 1) =
          -2 ^ (F.length * 8 - 1) := by omega
      rw [hwrap]
      rw [heq] at hnamed
      exact ⟨fun h => ⟨hnamed, h⟩, fun h => h.2⟩
  · rcases hmax with hmax | hmax
    · omega
    · have hlt := hends _ hmax
      omega

/-- A placeholder that is not named is stored as a named value if the names take both ends. -/
theorem named_setValue_iff {isSigned : Bool} {bytes : ℕ} (hle : F.length ≤ bytes)
    (hbytes : bytes ≤ 8) (hset : ∀ value, F.setValue value = wrapped isSigned bytes value)
    (hfit : ∀ value, Named F.values value → F.setValue value = value)
    (hunnamed : ¬ Named F.values (invValue F.values F.length)) :
    Named F.values (F.setValue (invValue F.values F.length)) ↔ TakesEnds F isSigned bytes := by
  obtain ⟨hlow, hhigh⟩ := invValue_bounds F.one_le_length
  by_cases hkind : isSigned = true ∧ bytes = F.length ∧ F.length < 8
  · obtain ⟨rfl, rfl, hlt⟩ := hkind
    have hends : ∀ value, Named F.values value → value < 2 ^ (F.length * 8 - 1) := by
      intro value hvalue
      have hhalf := two_pow_length F
      have heq := hfit value hvalue
      have hbound := Int.bmod_le (x := value) (m := 2 ^ (F.length * 8)) (Nat.two_pow_pos _)
      rw [hset, wrapped, if_pos (.inl rfl)] at heq
      rw [heq] at hbound
      push_cast at hbound
      omega
    rw [hset, named_wrapped_iff hlt hends hunnamed]
    exact ⟨fun h => ⟨rfl, rfl, hlt, h⟩, fun h => h.2.2.2⟩
  · rw [hset, wrapped_eq F.one_le_length hle hbytes hkind hlow hhigh]
    exact iff_of_false hunnamed fun h => hkind ⟨h.1, h.2.1, h.2.2.1⟩

/-- **When the placeholder is apart** from the named values. -/
theorem apart_iff (isSigned : Bool) (bytes : ℕ) (hle : F.length ≤ bytes)
    (hbytes : bytes ≤ 8) (hset : ∀ value, F.setValue value = wrapped isSigned bytes value)
    (hfit : ∀ value, Named F.values value → F.setValue value = value) :
    Apart F ↔ Gap F.values F.length ∧ ¬ TakesEnds F isSigned bytes ∧
      ∀ value, Named F.values value → F.canWrite value = true → F.valid value = true := by
  have hinv := @invValue_named_iff F.values F.length F.one_le_length
  have hstored := named_setValue_iff hle hbytes hset hfit
  constructor
  · rintro ⟨hunnamed, -, hshown⟩
    obtain ⟨hnot, hnot'⟩ := hunnamed (by simp) _ itemData_zero
    refine ⟨by_contra fun h => hnot (hinv.mpr h), fun h => hnot' ((hstored hnot).mpr h), ?_⟩
    intro value hvalue hwrite
    by_contra hvalid
    have hsel : selected F value 0 = some 0 := if_pos ⟨by simpa using hvalid, by simp⟩
    obtain ⟨t, ht, -, hidx, -⟩ := hshown ⟨value, 0, 0⟩ true ⟨_, itemData_zero⟩ hvalue hwrite
    obtain rfl := (settles_of_stays hwrite hsel t).mp ht
    exact absurd hidx (by simp)
  · rintro ⟨hgap, hends, hvalid⟩
    have hnot : ¬ Named F.values (invValue F.values F.length) := fun h => hinv.mp h hgap
    refine ⟨?_, fun h => absurd h (by simp), ?_⟩
    · intro _ value hvalue
      rw [itemData_zero] at hvalue
      obtain rfl := Option.some.inj hvalue
      exact ⟨hnot, fun h => hends ((hstored hnot).mp h)⟩
    · intro s isEditEnabled hentry hnamed hwrite
      rw [idxOffset_eq]
      rcases selected_cases hentry with ⟨hsel, ⟨hinvalid, -⟩ | hdata⟩ |
        ⟨idx, hsel, hne, hidx, hdata⟩ | ⟨-, hunnamed, -, -⟩
      · rw [hvalid _ hnamed hwrite] at hinvalid
        cases hinvalid
      · refine ⟨s, (settles_of_stays hwrite hsel s).mpr rfl, rfl, ?_, hdata⟩
        refine hentry.cases.resolve_left fun hzero => ?_
        rw [hzero, itemData_zero] at hdata
        exact hnot (by rwa [Option.some.inj hdata])
      · exact ⟨_, (settles_of_found hwrite hsel hne hidx hdata _).mpr rfl, rfl, hidx, hdata⟩
      · exact absurd hnamed hunnamed

end combo

/-- A field whose values are its names. -/
def namedField (isSigned : Bool) (values : List (QString × ℤ)) : ToolsEnumField where
  values := values
  length := 1
  one_le_length := le_refl 1
  setValue := wrapped isSigned 1
  setSerialisedString := fun value text =>
    ((QString.integerVal 16 text).map (wrapped isSigned 1)).getD value
  valid := fun value => decide (Named values value)
  canWrite := fun _ => true
  resetValue := 0
  isReadOnly := false

theorem off_on_apart : Apart (namedField false [("Off".toList, 0), ("On".toList, 1)]) :=
  (apart_iff false 1 (le_refl 1) (by decide) (fun _ => rfl) (by unfold Named; decide)).mpr
    ⟨.inl (by unfold Named; decide), fun h => absurd h.1 (by decide),
      fun _ hnamed _ => decide_eq_true hnamed⟩

/-- Names at both ends of a signed byte: the placeholder 128 is stored as -128. -/
theorem low_high_not_apart :
    ¬ ∀ (F : ToolsEnumField) (isSigned : Bool), F.length ≤ 8 →
      (∀ value, F.setValue value = wrapped isSigned F.length value) →
      (∀ value, Named F.values value →
        F.setValue value = value ∧ F.valid value = true ∧ F.canWrite value = true) →
      Apart F := by
  intro h
  have hapart := h (namedField true [("Low".toList, -128), ("High".toList, 127)]) true
    (by decide) (fun _ => rfl) (by unfold Named; decide)
  exact (hapart.unnamed (by decide) 128 (by decide)).2 (by decide)

end EnumValueFieldWidget

end CcToolsQt
