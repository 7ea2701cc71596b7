import CcToolsQt.LoadRecv

/-! # The bytes of a data text

`createMsgObjectFrom` filters the characters of a data text with `QChar::isDigit` and reads the
rest with `toInt`, which knows ASCII digits only.

* `parsesHex_iff`: which texts are read as the pairs of their hexadecimal digits.
* The texts that are written for bytes are among them, and give the bytes back. -/

namespace CcToolsQt

namespace ToolsMsgFileMgr
variable {File : Type} (Q : QtFiles File)

/-- Two digits are a byte. -/
def pairBytes : List ℕ → DataSeq
  | d :: e :: l => UInt8.ofNat (d * 16 + e) :: pairBytes l
  | _ => []

/-- The bytes that the ASCII hexadecimal digits of a text spell, the first one alone if their
number is odd. -/
def hexBytes (s : QString) : DataSeq :=
  let digits := s.filterMap (QString.digitVal 16)
  pairBytes (if digits.length % 2 ≠ 0 then 0 :: digits else digits)

/-- No assertion fails, and the bytes are those of the digits. -/
structure ParsesHex (s : QString) : Prop where
  asserted : BytesAsserted (stripedData Q s)
  bytes : dataFromStr Q s = hexBytes s

/-- The two recognisers of digits agree on every character but the digits of other scripts. -/
theorem isDataChar_eq_isSome {c : Char} (h : Q.isDigit c = true → c.toNat < 128) :
    isDataChar Q c = (QString.digitVal 16 c).isSome := by
  by_cases hc : c.toNat < 128
  · have hall : ∀ n < 128, (QString.digitVal 16 (Char.ofNat n)).isSome = true →
        ((Char.ofNat n).isDigit || ('A' ≤ Char.ofNat n && Char.ofNat n ≤ 'F') ||
          ('a' ≤ Char.ofNat n && Char.ofNat n ≤ 'f')) = true := by decide
    have hn := hall c.toNat hc
    rw [Char.ofNat_toNat] at hn
    rw [Bool.eq_iff_iff]
    refine ⟨digitVal_of_isDataChar Q hc, fun hd => ?_⟩
    rw [isDataChar, Q.isDigit_ascii c hc]
    exact hn hd
  · have hdigit : Q.isDigit c = false := Bool.eq_false_iff.mpr fun hd => hc (h hd)
    have hletter : ∀ d : Char, d.toNat < 128 → ¬ c ≤ d := fun d hd hle =>
      hc (lt_of_le_of_lt (show c.toNat ≤ d.toNat from hle) hd)
    rw [QString.digitVal_of_not_ascii (Nat.le_of_not_lt hc)]
    simp [isDataChar, hdigit, hletter 'F' (by decide), hletter 'f' (by decide)]

/-- What the filter keeps and what is read are the same characters. -/
theorem filterMap_filter_isDataChar {s : QString}
    (h : ∀ c ∈ s, Q.isDigit c = true → c.toNat < 128) :
    (s.filter (isDataChar Q)).filterMap (QString.digitVal 16) =
        s.filterMap (QString.digitVal 16) ∧
      (s.filter (isDataChar Q)).length = (s.filterMap (QString.digitVal 16)).length := by
  induction s with
  | nil => exact ⟨rfl, rfl⟩
  | cons c s ih =>
      obtain ⟨hc, hs⟩ := List.forall_mem_cons.mp h
      have hkept := isDataChar_eq_isSome Q hc
      cases hd : QString.digitVal 16 c with
      | none =>
          rw [List.filter_cons_of_neg (by simp [hkept, hd]), List.filterMap_cons_none hd]
          exact ih hs
      | some d =>
          rw [List.filter_cons_of_pos (by simp [hkept, hd]), List.filterMap_cons_some hd,
            List.filterMap_cons_some hd, (ih hs).1, List.length_cons, List.length_cons, (ih hs).2]
          exact ⟨rfl, rfl⟩

/-- Pairs of kept ASCII characters are read as pairs of digits. -/
theorem bytesOf_eq_pairBytes {s : QString} (hs : ∀ c ∈ s, isDataChar Q c = true)
    (hascii : ∀ c ∈ s, c.toNat < 128) :
    bytesOf s = pairBytes (s.filterMap (QString.digitVal 16)) := by
  match s with
  | [] => rfl
  | [a] =>
      cases hd : QString.digitVal 16 a with
      | none => rw [List.filterMap_cons_none hd]; rfl
      | some d => rw [List.filterMap_cons_some hd]; rfl
  | a :: b :: s =>
      obtain ⟨ha, hs⟩ := List.forall_mem_cons.mp hs
      obtain ⟨hb, hs⟩ := List.forall_mem_cons.mp hs
      obtain ⟨haa, hascii⟩ := List.forall_mem_cons.mp hascii
      obtain ⟨hba, hascii⟩ := List.forall_mem_cons.mp hascii
      obtain ⟨d, hd⟩ := Option.isSome_iff_exists.mp (digitVal_of_isDataChar Q haa ha)
      obtain ⟨e, he⟩ := Option.isSome_iff_exists.mp (digitVal_of_isDataChar Q hba hb)
      obtain ⟨hsa, hminus, hplus, -, -⟩ := isDataChar_ne Q ha
      obtain ⟨hsb, -, -, hx, hX⟩ := isDataChar_ne Q hb
      have hval : QString.integerVal 16 [a, b] = some ((d * 16 + e : ℕ) : ℤ) := by
        rw [QString.integerVal_two hsa hsb hminus hplus hx hX, hd, he]
        rfl
      rw [bytesOf, hval, bytesOf_eq_pairBytes hs hascii, List.filterMap_cons_some hd,
        List.filterMap_cons_some he, pairBytes, Option.getD_some, Int.toNat_natCast]

/-- The digits of the padded text. -/
theorem dataFromStr_eq_hexBytes {s : QString} (h : ∀ c ∈ s, Q.isDigit c = true → c.toNat < 128) :
    dataFromStr Q s = hexBytes s := by
  obtain ⟨hdigits, hlen⟩ := filterMap_filter_isDataChar Q h
  have hkept : ∀ c ∈ s.filter (isDataChar Q), isDataChar Q c = true := fun c hc =>
    (List.mem_filter.mp hc).2
  have hascii : ∀ c ∈ s.filter (isDataChar Q), c.toNat < 128 := by
    intro c hc
    by_contra hge
    obtain ⟨hc, hd⟩ := List.mem_filter.mp hc
    rw [isDataChar_eq_isSome Q (h c hc), QString.digitVal_of_not_ascii (Nat.le_of_not_lt hge)] at hd
    cases hd
  have hzero : isDataChar Q '0' = true := isDataChar_digitChar Q (show 0 < 16 by omega)
  have hval : QString.digitVal 16 '0' = some 0 := by decide
  unfold dataFromStr hexBytes
  simp only [hlen]
  split_ifs with hodd
  · rw [bytesOf_eq_pairBytes Q (List.forall_mem_cons.mpr ⟨hzero, hkept⟩)
      (List.forall_mem_cons.mpr ⟨by decide, hascii⟩), List.filterMap_cons_some hval, hdigits]
  · rw [bytesOf_eq_pairBytes Q hkept hascii, hdigits]

/-- A text of bytes has no other digits. -/
theorem dataStr_ascii (data : DataSeq) : ∀ c ∈ dataStr data, c.toNat < 128 := by
  have hbyte : ∀ b : UInt8, ∀ c ∈ byteStr b, c.toNat < 128 := by
    intro b c hc
    have hb : b.toNat < 256 := b.toNat_lt
    have hdigit : ∀ d < 16, (Nat.digitChar d).toNat < 128 := by decide
    rw [byteStr_eq] at hc
    rcases List.mem_pair.mp hc with rfl | rfl
    · exact hdigit _ (by omega)
    · exact hdigit _ (by omega)
  suffices h : ∀ s : QString, (∀ c ∈ s, c.toNat < 128) →
      ∀ c ∈ data.foldl (fun s b => (if s.isEmpty then s else s ++ [' ']) ++ byteStr b) s,
        c.toNat < 128 from h [] (by simp)
  induction data with
  | nil => exact fun s hs => hs
  | cons b data ih =>
      intro s hs
      refine ih _ fun c hc => ?_
      rcases List.mem_append.mp hc with hc | hc
      · split_ifs at hc
        · exact hs c hc
        · rcases List.mem_append.mp hc with hc | hc
          · exact hs c hc
          · rw [List.mem_singleton.mp hc]
            decide
      · exact hbyte b c hc

/-- **Which data texts are parsed exactly**: those without a digit of another script; among them
is the text of any bytes, which gives the bytes back. -/
theorem parsesHex_iff :
    (∀ s, ParsesHex Q s ↔ ∀ c ∈ s, Q.isDigit c = true → c.toNat < 128) ∧
      ∀ data, ParsesHex Q (dataStr data) ∧ dataFromStr Q (dataStr data) = data := by
  have hiff : ∀ s, ParsesHex Q s ↔ ∀ c ∈ s, Q.isDigit c = true → c.toNat < 128 := fun s =>
    ⟨fun h => (stripedData_asserted_iff Q s).mp h.asserted,
      fun h => ⟨(stripedData_asserted_iff Q s).mpr h, dataFromStr_eq_hexBytes Q h⟩⟩
  exact ⟨hiff, fun data => ⟨(hiff _).mpr fun c hc _ => dataStr_ascii data c hc,
    dataFromStr_dataStr Q data⟩⟩

/-- Files with the Arabic-Indic digits besides the ASCII ones. -/
def arabicFiles : QtFiles (List QVariant) where
  __ := sampleFiles
  isDigit c := c.isDigit || (Nat.ble 0x660 c.toNat && Nat.ble c.toNat 0x669)
  isDigit_ascii c hc := by
    have hlt : Nat.ble 0x660 c.toNat = false := by
      rw [← Bool.not_eq_true, Nat.ble_eq]
      omega
    simp only [hlt, Bool.false_and, Bool.or_false]

/-- The Arabic-Indic digit three is kept and cannot be read. -/
theorem arabic_digit_asserts : ¬ ParsesHex arabicFiles ['a', 'b', Char.ofNat 0x663] := by
  intro h
  have hascii := (stripedData_asserted_iff arabicFiles _).mp h.asserted (Char.ofNat 0x663) (by simp)
  exact absurd (hascii (by decide)) (by decide)

end ToolsMsgFileMgr

end CcToolsQt
