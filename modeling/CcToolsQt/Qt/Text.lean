import Mathlib.Data.List.Basic
import Mathlib.Data.Nat.Basic
import Mathlib.Data.Int.Order.Basic
import Mathlib.Tactic.Common
import Mathlib.Tactic.IntervalCases

/-! # Numbers as text

The part of `QString` that message ids and hexadecimal payload go through: the texts
`QString::arg(number)` writes and the numbers `QString::toLongLong` reads back.

* `number10`, `number16` are the digits written in base 10 (with a sign) and base 16 (a
  negative number is written as its 64-bit two's complement), `leftPadded` pads to a width.
* `toLongLong` skips white space at both ends, takes one sign and, in base 16, an `0x`
  prefix, and fails on anything else than digits and on values outside 64 bits.

`toLongLong_number10` and `toLongLong_16_hexId_iff` are the two round trips. -/

namespace CcToolsQt

/-- `QString` as a list of its characters. -/
abbrev QString := List Char

namespace QString

/-! ### Writing -/

/-- `QString("%1").arg(n)` for a signed number. -/
def number10 (n : ℤ) : QString :=
  if n < 0 then '-' :: Nat.toDigits 10 n.natAbs else Nat.toDigits 10 n.natAbs

/-- The digits of `n` in base 16; only base 10 knows a sign. -/
def number16 (n : ℤ) : QString := Nat.toDigits 16 (n % 2 ^ 64).toNat

/-- Padding on the left, the field width and fill character of `QString::arg`. -/
def leftPadded (fieldWidth : ℕ) (fillChar : Char) (s : QString) : QString :=
  List.replicate (fieldWidth - s.length) fillChar ++ s

/-! ### Reading -/

/-- The white space `toLongLong` skips. -/
def isSpace (c : Char) : Bool := c == ' ' || (9 ≤ c.toNat && c.toNat ≤ 13)

def trimmed (s : QString) : QString :=
  ((s.dropWhile isSpace).reverse.dropWhile isSpace).reverse

/-- Value of a character as a digit. -/
def digitVal (base : ℕ) (c : Char) : Option ℕ :=
  let v :=
    if '0' ≤ c ∧ c ≤ '9' then c.toNat - '0'.toNat
    else if 'a' ≤ c ∧ c ≤ 'z' then c.toNat - 'a'.toNat + 10
    else if 'A' ≤ c ∧ c ≤ 'Z' then c.toNat - 'A'.toNat + 10
    else base
  if v < base then some v else none

/-- Value of digits read after a number `acc`. -/
def digitsVal (base : ℕ) : List Char → ℕ → Option ℕ
  | [], acc => some acc
  | c :: cs, acc => (digitVal base c).bind fun d => digitsVal base cs (acc * base + d)

/-- At least one digit, and nothing else. -/
def unsignedVal (base : ℕ) (s : QString) : Option ℕ :=
  if s.isEmpty then none else digitsVal base s 0

/-- The prefix base 16 allows. -/
def withoutPrefix (base : ℕ) (s : QString) : QString :=
  if base = 16 then
    match s with
    | '0' :: 'x' :: r => r
    | '0' :: 'X' :: r => r
    | _ => s
  else s

/-- The values of `qlonglong`. -/
def inLongLong (n : ℤ) : Bool := decide (-2 ^ 63 ≤ n ∧ n < 2 ^ 63)

/-- The number a text spells: white space around it, one sign, a prefix, digits. -/
def integerVal (base : ℕ) (s : QString) : Option ℤ :=
  match trimmed s with
  | '-' :: r => (unsignedVal base (withoutPrefix base r)).map fun n : ℕ => -(n : ℤ)
  | '+' :: r => (unsignedVal base (withoutPrefix base r)).map fun n : ℕ => (n : ℤ)
  | r => (unsignedVal base (withoutPrefix base r)).map fun n : ℕ => (n : ℤ)

/-- `QString::toLongLong(&ok, base)`: `none` is `ok = false`. -/
def toLongLong (base : ℕ) (s : QString) : Option ℤ := (integerVal base s).filter inLongLong

/-- `QString::toULongLong(&ok, base)`; a text with a minus sign is no such number. -/
def toULongLong (base : ℕ) (s : QString) : Option ℕ :=
  if (trimmed s).head? = some '-' then none
  else ((integerVal base s).map Int.toNat).filter fun n => decide (n < 2 ^ 64)

/-! ### Digits read back -/

theorem digitVal_digitChar {base d : ℕ} (hb : base ≤ 16) (hd : d < base) :
    digitVal base (Nat.digitChar d) = some d := by
  have h16 : d < 16 := hd.trans_le hb
  interval_cases d <;> simp [digitVal, Nat.digitChar, hd]

theorem digitsVal_append (base : ℕ) (s t : List Char) (acc : ℕ) :
    digitsVal base (s ++ t) acc = (digitsVal base s acc).bind (digitsVal base t) := by
  induction s generalizing acc with
  | nil => rfl
  | cons c s ih =>
      simp only [List.cons_append, digitsVal]
      cases digitVal base c with
      | none => rfl
      | some d => exact ih _

/-- The digits of `n` read as `n`. -/
theorem digitsVal_toDigits {base : ℕ} (h1 : 1 < base) (hb : base ≤ 16) (n : ℕ) :
    digitsVal base (Nat.toDigits base n) 0 = some n := by
  induction n using Nat.strong_induction_on with
  | _ n ih =>
      rw [Nat.toDigits_eq_if h1]
      split_ifs with hn
      · simp [digitsVal, digitVal_digitChar hb hn]
      · have hlt : n / base < n := Nat.div_lt_self (by omega) h1
        have hmod : n % base < base := Nat.mod_lt _ (by omega)
        rw [digitsVal_append, ih _ hlt, Option.bind_some]
        simp [digitsVal, digitVal_digitChar hb hmod, Nat.div_add_mod']

theorem toDigits_ne_nil {base : ℕ} (h1 : 1 < base) (n : ℕ) : Nat.toDigits base n ≠ [] := by
  rw [Nat.toDigits_eq_if h1]
  split_ifs <;> simp

theorem unsignedVal_toDigits {base : ℕ} (h1 : 1 < base) (hb : base ≤ 16) (n : ℕ) :
    unsignedVal base (Nat.toDigits base n) = some n := by
  simp [unsignedVal, toDigits_ne_nil h1 n, digitsVal_toDigits h1 hb]

theorem digitsVal_zeros (base k : ℕ) (hb : 0 < base) (s : List Char) :
    digitsVal base (List.replicate k '0' ++ s) 0 = digitsVal base s 0 := by
  induction k with
  | zero => rfl
  | succ k ih =>
      have h0 : digitVal base '0' = some 0 := by simp [digitVal, hb]
      simpa [List.replicate_succ, digitsVal, h0] using ih

/-- Zeros in front do not change the value. -/
theorem unsignedVal_leftPadded {base : ℕ} (h1 : 1 < base) (hb : base ≤ 16) (w n : ℕ) :
    unsignedVal base (leftPadded w '0' (Nat.toDigits base n)) = some n := by
  have hne : leftPadded w '0' (Nat.toDigits base n) ≠ [] := by
    simp [leftPadded, toDigits_ne_nil h1 n]
  simp only [unsignedVal, List.isEmpty_iff, hne, if_false]
  rw [leftPadded, digitsVal_zeros _ _ (by omega), digitsVal_toDigits h1 hb]

/-- Every digit character has a digit value. -/
theorem digitVal_of_mem_toDigits {base : ℕ} (h1 : 1 < base) (hb : base ≤ 16) (n : ℕ) :
    ∀ c ∈ Nat.toDigits base n, ∃ d < base, c = Nat.digitChar d := by
  induction n using Nat.strong_induction_on with
  | _ n ih =>
      rw [Nat.toDigits_eq_if h1]
      split_ifs with hn
      · intro c hc
        exact ⟨n, hn, List.mem_singleton.mp hc⟩
      · intro c hc
        rcases List.mem_append.mp hc with hc | hc
        · exact ih _ (Nat.div_lt_self (by omega) h1) c hc
        · exact ⟨n % base, Nat.mod_lt _ (by omega), List.mem_singleton.mp hc⟩

theorem isSpace_digitChar {d : ℕ} (h : d < 16) : isSpace (Nat.digitChar d) = false := by
  interval_cases d <;> rfl

theorem isSpace_of_mem_toDigits {base : ℕ} (h1 : 1 < base) (hb : base ≤ 16) {n : ℕ} {c : Char}
    (hc : c ∈ Nat.toDigits base n) : isSpace c = false := by
  obtain ⟨d, hd, rfl⟩ := digitVal_of_mem_toDigits h1 hb n c hc
  exact isSpace_digitChar (hd.trans_le hb)

theorem dropWhile_isSpace {s : QString} (h : ∀ c ∈ s, isSpace c = false) :
    s.dropWhile isSpace = s := by
  cases s with
  | nil => rfl
  | cons c s => simp [h c (List.mem_cons_self)]

/-- A text without white space is left as it is. -/
theorem trimmed_eq {s : QString} (h : ∀ c ∈ s, isSpace c = false) : trimmed s = s := by
  unfold trimmed
  rw [dropWhile_isSpace h, dropWhile_isSpace (fun c hc => h c (List.mem_reverse.mp hc)),
    List.reverse_reverse]

/-- The digits of a number start with neither sign. -/
theorem head_toDigits {base : ℕ} (h1 : 1 < base) (hb : base ≤ 16) (n : ℕ) :
    ∃ d < base, ∃ r, Nat.toDigits base n = Nat.digitChar d :: r := by
  cases hs : Nat.toDigits base n with
  | nil => exact absurd hs (toDigits_ne_nil h1 n)
  | cons c r =>
      have hc : c ∈ Nat.toDigits base n := hs ▸ List.mem_cons_self
      obtain ⟨d, hd, rfl⟩ := digitVal_of_mem_toDigits h1 hb n c hc
      exact ⟨d, hd, r, rfl⟩

/-- The reading of an unsigned text without white space. -/
theorem toLongLong_of_unsigned {base : ℕ} {s : QString} (hs : ∀ c ∈ s, isSpace c = false)
    (hm : s.head? ≠ some '-') (hp : s.head? ≠ some '+') :
    toLongLong base s =
      ((unsignedVal base (withoutPrefix base s)).map fun n : ℕ => (n : ℤ)).filter inLongLong := by
  unfold toLongLong integerVal
  rw [trimmed_eq hs]
  split
  · simp at hm
  · simp at hp
  · rfl

theorem filter_inLongLong {n : ℤ} (hlo : -2 ^ 63 ≤ n) (hhi : n < 2 ^ 63) :
    (some n).filter inLongLong = some n := by
  have h : inLongLong n = true := decide_eq_true ⟨hlo, hhi⟩
  simp [Option.filter, h]

theorem digitChar_ne {d : ℕ} (h : d < 16) :
    Nat.digitChar d ≠ '-' ∧ Nat.digitChar d ≠ '+' ∧ Nat.digitChar d ≠ 'x' ∧
      Nat.digitChar d ≠ 'X' := by
  interval_cases d <;> decide

/-- **Decimal round trip**: a 64-bit number is read back from its decimal text. -/
theorem toLongLong_number10 {n : ℤ} (hlo : -2 ^ 63 ≤ n) (hhi : n < 2 ^ 63) :
    toLongLong 10 (number10 n) = some n := by
  have hd : unsignedVal 10 (Nat.toDigits 10 n.natAbs) = some n.natAbs :=
    unsignedVal_toDigits (by omega) (by omega) _
  unfold number10
  split_ifs with hn
  · have ht : trimmed ('-' :: Nat.toDigits 10 n.natAbs) = '-' :: Nat.toDigits 10 n.natAbs := by
      apply trimmed_eq
      intro c hc
      rcases List.mem_cons.mp hc with rfl | hc
      · rfl
      · exact isSpace_of_mem_toDigits (by omega) (by omega) hc
    have e : -(n.natAbs : ℤ) = n := by omega
    have hw : withoutPrefix 10 (Nat.toDigits 10 n.natAbs) = Nat.toDigits 10 n.natAbs := by
      simp [withoutPrefix]
    simp only [toLongLong, integerVal, ht, hw, hd, Option.map_some, e]
    exact filter_inLongLong hlo hhi
  · obtain ⟨d, hd10, r, hr⟩ := head_toDigits (by omega : 1 < 10) (by omega) n.natAbs
    have hne := digitChar_ne (hd10.trans (by omega))
    have e : (n.natAbs : ℤ) = n := by omega
    rw [toLongLong_of_unsigned (fun c hc => isSpace_of_mem_toDigits (by omega) (by omega) hc)
      (by simp [hr, hne.1]) (by simp [hr, hne.2.1])]
    have hw : withoutPrefix 10 (Nat.toDigits 10 n.natAbs) = Nat.toDigits 10 n.natAbs := by
      simp [withoutPrefix]
    rw [hw, hd, Option.map_some, e]
    exact filter_inLongLong hlo hhi

/-- The text `0x` followed by the padded hexadecimal digits of a number. -/
def hexId (fieldWidth : ℕ) (n : ℤ) : QString := '0' :: 'x' :: leftPadded fieldWidth '0' (number16 n)

theorem isSpace_of_mem_hexId {w : ℕ} {n : ℤ} {c : Char} (hc : c ∈ hexId w n) :
    isSpace c = false := by
  simp only [hexId, leftPadded, List.mem_cons, List.mem_append, List.mem_replicate] at hc
  rcases hc with rfl | rfl | ⟨_, rfl⟩ | hc
  · rfl
  · rfl
  · rfl
  · exact isSpace_of_mem_toDigits (by omega) (by omega) hc

/-- A hexadecimal id spells no decimal number. -/
theorem toLongLong_10_hexId (w : ℕ) (n : ℤ) : toLongLong 10 (hexId w n) = none := by
  rw [toLongLong_of_unsigned (fun c hc => isSpace_of_mem_hexId hc) (by simp [hexId])
    (by simp [hexId])]
  simp [withoutPrefix, hexId, unsignedVal, digitsVal, digitVal]

/-- A hexadecimal id is read in base 16 as the 64-bit pattern of the number. -/
theorem toLongLong_16_hexId (w : ℕ) (n : ℤ) :
    toLongLong 16 (hexId w n) = if n % 2 ^ 64 < 2 ^ 63 then some (n % 2 ^ 64) else none := by
  have hnn : 0 ≤ n % 2 ^ 64 := Int.emod_nonneg _ (by norm_num)
  have hv : unsignedVal 16 (leftPadded w '0' (number16 n)) = some (n % 2 ^ 64).toNat :=
    unsignedVal_leftPadded (by omega) (by omega) _ _
  rw [toLongLong_of_unsigned (fun c hc => isSpace_of_mem_hexId hc) (by simp [hexId])
    (by simp [hexId])]
  have hp : withoutPrefix 16 (hexId w n) = leftPadded w '0' (number16 n) := by
    simp [withoutPrefix, hexId]
  rw [hp, hv, Option.map_some, Int.toNat_of_nonneg hnn]
  have hlo : -2 ^ 63 ≤ n % 2 ^ 64 := by omega
  split_ifs with h
  · exact filter_inLongLong hlo h
  · have hf : inLongLong (n % 2 ^ 64) = false := decide_eq_false fun hc => h hc.2
    simp only [Option.filter, hf, Bool.false_eq_true, if_false]

/-- **Hexadecimal round trip**: exactly the non-negative 64-bit numbers are read back. -/
theorem toLongLong_16_hexId_iff {w : ℕ} {n : ℤ} (hlo : -2 ^ 63 ≤ n) (hhi : n < 2 ^ 63) :
    toLongLong 16 (hexId w n) = some n ↔ 0 ≤ n := by
  rw [toLongLong_16_hexId]
  constructor
  · intro h
    split_ifs at h with hlt
    have := Option.some.inj h
    omega
  · intro h
    have e : n % 2 ^ 64 = n := Int.emod_eq_of_lt h (by omega)
    rw [e, if_pos hhi]

/-! ### Id texts read back -/

/-- The number an id text stands for: base 10 first, then base 16. -/
def spelledId (s : QString) : Option ℤ := (toLongLong 10 s).or (toLongLong 16 s)

theorem spelledId_number10 {n : ℤ} (h : inLongLong n = true) :
    spelledId (number10 n) = some n := by
  obtain ⟨hlo, hhi⟩ := of_decide_eq_true h
  simp [spelledId, toLongLong_number10 hlo hhi]

/-- A negative id is not read back from its hexadecimal text. -/
theorem spelledId_hexId (w : ℕ) {n : ℤ} (h : inLongLong n = true) :
    spelledId (hexId w n) = if 0 ≤ n then some n else none := by
  obtain ⟨hlo, hhi⟩ := of_decide_eq_true h
  rw [spelledId, toLongLong_10_hexId, Option.none_or]
  split_ifs with hn
  · exact (toLongLong_16_hexId_iff hlo hhi).mpr hn
  · rw [toLongLong_16_hexId, if_neg (by omega)]

theorem number10_ne_nil (n : ℤ) : number10 n ≠ [] := by
  unfold number10
  split_ifs
  · simp
  · exact toDigits_ne_nil (by omega) _

theorem number10_inj {m n : ℤ} (hm : inLongLong m = true) (hn : inLongLong n = true)
    (h : number10 m = number10 n) : m = n := by
  have e := spelledId_number10 hm
  rw [h, spelledId_number10 hn] at e
  exact (Option.some.inj e).symm

/-- Different 64-bit numbers have different hexadecimal texts. -/
theorem hexId_inj {w : ℕ} {m n : ℤ} (hm : inLongLong m = true) (hn : inLongLong n = true)
    (h : hexId w m = hexId w n) : m = n := by
  have hdigits : leftPadded w '0' (number16 m) = leftPadded w '0' (number16 n) := by
    simpa [hexId] using h
  have h16 : 1 < 16 := by omega
  have e := unsignedVal_leftPadded h16 le_rfl w (m % 2 ^ 64).toNat
  have e' := unsignedVal_leftPadded h16 le_rfl w (n % 2 ^ 64).toNat
  rw [number16, number16] at hdigits
  rw [hdigits, e'] at e
  have heq := Option.some.inj e
  obtain ⟨hm1, hm2⟩ := of_decide_eq_true hm
  obtain ⟨hn1, hn2⟩ := of_decide_eq_true hn
  omega

end QString

end CcToolsQt
