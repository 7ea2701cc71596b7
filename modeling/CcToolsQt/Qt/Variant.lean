import CcToolsQt.Qt.Text

/-! # Variants and property maps

`QVariant` with the conversions the properties of this program use, `QVariantMap` as the list
of its entries in key order, and `ToolsMsgPropBase`, a named and typed entry of such a map.

* `value_insert_self`, `value_insert_of_ne` say what a map holds after an insertion.
* `getFrom_setTo` and `getFrom_insert_of_ne` are the same for typed properties.

Floating-point variants are left out: no property of this program has such a type, so the numbers
of a file or a map that is read are integers here. -/

namespace CcToolsQt

/-- `QVariant`; `invalid` is the default-constructed one. -/
inductive QVariant where
  | invalid
  | bool (b : Bool)
  | number (n : ℤ)
  | string (s : QString)
  | list (l : List QVariant)
  | map (m : List (QString × QVariant))

/-- `QVariantMap`: the entries, ordered by key. -/
abbrev QVariantMap := List (QString × QVariant)

namespace QVariant

/-- `value<T>()` for an unsigned type of the given width; `none` when `canConvert` says no. -/
def toUnsigned (bits : ℕ) : QVariant → Option ℕ
  | number n => some (n % 2 ^ bits).toNat
  | bool b => some b.toNat
  | string s =>
      -- read as `qulonglong` and truncated; zero if that fails
      some (((QString.toULongLong 10 s).getD 0) % 2 ^ bits)
  | _ => none

/-- `value<QString>()`. -/
def toQString : QVariant → Option QString
  | string s => some s
  | number n => some (QString.number10 n)
  | bool b => some (toString b).toList
  | _ => none

/-- `value<QVariantMap>()`. -/
def toMap : QVariant → Option QVariantMap
  | map m => some m
  | _ => none

end QVariant

namespace QVariantMap

/-- `QMap::value`: the invalid variant when there is no such key. -/
def value (key : QString) : QVariantMap → QVariant
  | [] => .invalid
  | (k, v) :: m => if k = key then v else value key m

/-- `QMap::insert`: an entry of the same key is replaced. -/
def insert (key : QString) (v : QVariant) : QVariantMap → QVariantMap
  | [] => [(key, v)]
  | (k, w) :: m =>
      if k = key then (key, v) :: m
      else if key < k then (key, v) :: (k, w) :: m
      else (k, w) :: insert key v m

@[simp] theorem value_insert_self (key : QString) (v : QVariant) (m : QVariantMap) :
    value key (insert key v m) = v := by
  induction m with
  | nil => simp [insert, value]
  | cons e m ih =>
      obtain ⟨k, w⟩ := e
      simp only [insert]
      split_ifs with hk hlt
      · simp [value]
      · simp [value]
      · simpa [value, hk] using ih

theorem value_insert_of_ne {key key' : QString} (h : key' ≠ key) (v : QVariant)
    (m : QVariantMap) : value key (insert key' v m) = value key m := by
  induction m with
  | nil => simp [insert, value, h]
  | cons e m ih =>
      obtain ⟨k, w⟩ := e
      simp only [insert]
      split_ifs with hk hlt
      · subst hk
        simp [value, h]
      · simp [value, h]
      · simp [value, ih]

theorem insert_ne_nil (key : QString) (v : QVariant) (m : QVariantMap) : insert key v m ≠ [] := by
  cases m with
  | nil => simp [insert]
  | cons e m =>
      obtain ⟨k, w⟩ := e
      simp only [insert]
      split_ifs <;> simp

end QVariantMap

/-! ### Typed properties of a map -/

/-- `property::message::ToolsMsgPropBase<TValue>` on a `QVariantMap`: a value put into a variant
is read back from it. -/
structure ToolsMsgPropBase (τ : Type) where
  m_propName : QString
  fromValue : τ → QVariant
  value : QVariant → Option τ
  value_fromValue : ∀ v, value (fromValue v) = some v

namespace ToolsMsgPropBase
variable {τ : Type} (P : ToolsMsgPropBase τ)

def setTo (val : τ) (map : QVariantMap) : QVariantMap :=
  QVariantMap.insert P.m_propName (P.fromValue val) map

def getFrom (map : QVariantMap) (defaultVal : τ) : τ :=
  (P.value (QVariantMap.value P.m_propName map)).getD defaultVal

@[simp] theorem getFrom_setTo (val : τ) (map : QVariantMap) (d : τ) :
    P.getFrom (P.setTo val map) d = val := by
  simp [getFrom, setTo, P.value_fromValue val]

/-- A property is not touched by setting one of another name. -/
theorem getFrom_setTo_of_ne {τ' : Type} (Q : ToolsMsgPropBase τ')
    (h : Q.m_propName ≠ P.m_propName) (val : τ') (map : QVariantMap) (d : τ) :
    P.getFrom (Q.setTo val map) d = P.getFrom map d := by
  simp [getFrom, setTo, QVariantMap.value_insert_of_ne h]

theorem setTo_ne_nil (val : τ) (map : QVariantMap) : P.setTo val map ≠ [] :=
  QVariantMap.insert_ne_nil _ _ _

/-- A property of type `unsigned`. -/
def ofUInt32 (name : QString) : ToolsMsgPropBase UInt32 where
  m_propName := name
  fromValue n := .number n.toNat
  value v := (v.toUnsigned 32).map UInt32.ofNat
  value_fromValue n := by
    have e : ((n.toNat : ℤ) % 2 ^ 32).toNat = n.toNat := by
      have := n.toNat_lt
      omega
    simp only [QVariant.toUnsigned, e, Option.map_some, UInt32.ofNat_toNat]

/-- A property of type `unsigned long long`. -/
def ofUInt64 (name : QString) : ToolsMsgPropBase UInt64 where
  m_propName := name
  fromValue n := .number n.toNat
  value v := (v.toUnsigned 64).map UInt64.ofNat
  value_fromValue n := by
    have e : ((n.toNat : ℤ) % 2 ^ 64).toNat = n.toNat := by
      have := n.toNat_lt
      omega
    simp only [QVariant.toUnsigned, e, Option.map_some, UInt64.ofNat_toNat]

/-- A property of type `QString`. -/
def ofQString (name : QString) : ToolsMsgPropBase QString where
  m_propName := name
  fromValue := .string
  value := QVariant.toQString
  value_fromValue _ := rfl

/-- A property of type `QVariantMap`. -/
def ofMap (name : QString) : ToolsMsgPropBase QVariantMap where
  m_propName := name
  fromValue := .map
  value := QVariant.toMap
  value_fromValue _ := rfl

end ToolsMsgPropBase

end CcToolsQt
