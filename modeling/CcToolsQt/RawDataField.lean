import CcToolsQt.MsgFile
import Mathlib.Tactic.FinCases

/-! # Raw data fields

A list of bytes is edited as a hexadecimal text.  `ToolsRawDataFieldImpl::setValueImpl` reads bytes
from the text, and the shared `ToolsFieldBase::setSerialisedValueImpl` puts the size in front of
them and the suffix behind them and has the field read the whole.

* `readUntil_iff`: bytes up to a terminator are read back unless a terminator starts among them.
* `showBytes_iff`: the text shows all bytes if its length fits the bound computed for it.
* `takes_iff`: which bytes a field takes. -/

namespace CcToolsQt

/-! ### The field of the protocol -/

/-- A field in front of the data that holds its size: what is written is read back. -/
structure PrefixField where
  maxLength : ℕ
  length : ℕ → ℕ
  write : ℕ → Option DataSeq
  read : DataSeq → Option (ℕ × DataSeq)
  length_write : ∀ n bytes, write n = some bytes → bytes.length = length n
  read_write : ∀ n bytes rest, write n = some bytes → read (bytes ++ rest) = some (n, rest)

/-- What says where the data ends. -/
inductive Sizing where
  | sizeFieldPrefix (field : PrefixField)
  | serLengthFieldPrefix (field : PrefixField)
  | fixedSize (size : ℕ) (h : size < 2 ^ 31)
  | noLimits

inductive Suffix where
  | none
  | trailing (bytes : DataSeq)
  | termination (bytes : DataSeq)

/-- A field of raw bytes; `failedRead` is what a read that fails leaves of it. -/
structure RawDataField where
  sizing : Sizing
  suffix : Suffix
  maxStorage : ℕ
  failedRead : DataSeq → DataSeq

namespace RawDataField

def suffixBytes : Suffix → DataSeq
  | .none => []
  | .trailing bytes => bytes
  | .termination bytes => bytes

/-- The data in front of a terminator. -/
def readUntil (term : DataSeq) : DataSeq → Option DataSeq
  | [] => if term = [] then some [] else none
  | byte :: seq =>
      if term.isPrefixOf (byte :: seq) then some []
      else (readUntil term seq).map (byte :: ·)

/-- The data of a known size, and its suffix. -/
def readSized (suffix : Suffix) (size : ℕ) (seq : DataSeq) : Option DataSeq :=
  if seq.length < size then none
  else
    match suffix with
    | .none => some (seq.take size)
    | .trailing bytes =>
        if (seq.drop size).length < bytes.length then none else some (seq.take size)
    | .termination bytes =>
        if bytes.isPrefixOf (seq.drop size) then some (seq.take size) else none

/-- The data that goes on to the end, to the trailing field or to the terminator. -/
def readUnsized (suffix : Suffix) (seq : DataSeq) : Option DataSeq :=
  match suffix with
  | .none => some seq
  | .trailing bytes =>
      if seq.length < bytes.length then none else some (seq.take (seq.length - bytes.length))
  | .termination bytes => readUntil bytes seq

variable (F : RawDataField)

/-- `m_field.read()`. -/
def read (seq : DataSeq) : Option DataSeq :=
  match F.sizing with
  | .sizeFieldPrefix field =>
      (field.read seq).bind fun (size, rest) => readSized F.suffix size rest
  | .serLengthFieldPrefix field =>
      (field.read seq).bind fun (size, rest) => readSized F.suffix size rest
  | .fixedSize size _ => readSized F.suffix size seq
  | .noLimits => readUnsized F.suffix seq

/-- `m_field.length()` for a value. -/
def length (value : DataSeq) : ℕ :=
  let front :=
    match F.sizing with
    | .sizeFieldPrefix field => field.length value.length
    | .serLengthFieldPrefix field => field.length value.length
    | _ => 0
  front + value.length + (suffixBytes F.suffix).length

/-! ### Setting the serialised value -/

/-- `writeSerialisedSize` and `writeSerialisedLength`. -/
def writePrefix (size : ℕ) : Option DataSeq :=
  match F.sizing with
  | .sizeFieldPrefix field => field.write size
  | .serLengthFieldPrefix field => field.write size
  | _ => some []

/-- `ToolsFieldBase::setSerialisedValueImpl`, as the value the field has afterwards; without prefix
and suffix the bytes are read as they are. -/
def setSerialisedValue (old value : DataSeq) : DataSeq :=
  if value.isEmpty then old
  else
    match F.writePrefix value.length with
    | none => old
    | some newVal =>
        let newVal := newVal ++ value ++ suffixBytes F.suffix
        (F.read newVal).getD (F.failedRead newVal)

/-! ### Texts -/

/-- The characters `setValueImpl` does not skip. -/
def isHexChar (ch : Char) : Bool :=
  !((ch < '0' || '9' < ch) && (ch.toLower < 'a' || 'f' < ch.toLower))

/-- `addByteToData`, on the bytes read so far and the characters of the next one. -/
def addByteToData (s : DataSeq × QString) : DataSeq × QString :=
  match (QString.integerVal 16 s.2).filter fun n => decide (-2 ^ 31 ≤ n ∧ n < 2 ^ 31) with
  | none => s
  | some intVal => (s.1 ++ [UInt8.ofNat (intVal % 256).toNat], [])

/-- One round of the loop of `setValueImpl`. -/
def addChar (s : DataSeq × QString) (ch : Char) : DataSeq × QString :=
  if !isHexChar ch then s
  else
    let s := (s.1, s.2 ++ [ch])
    if 2 ≤ s.2.length then addByteToData s else s

/-- The bytes of a text; half a byte is completed by a zero. -/
def textBytes (val : QString) : DataSeq :=
  let s := val.foldl addChar ([], [])
  if s.2.isEmpty then s.1 else (addByteToData (s.1, s.2 ++ ['0'])).1

/-- `setValueImpl`. -/
def setValue (old : DataSeq) (val : QString) : DataSeq := F.setSerialisedValue old (textBytes val)

def TruncateLength : ℕ := 128

def isTruncated (forcedShowAll : Bool) (value : DataSeq) : Bool :=
  !forcedShowAll && decide (TruncateLength < F.length value)

/-- The bytes shown while the text is shorter than `maxLen`. -/
def showBytes (maxLen : ℤ) (value : DataSeq) (retStr : QString) : QString :=
  value.foldl
    (fun retStr byte =>
      if maxLen ≤ retStr.length then retStr else retStr ++ ToolsMsgFileMgr.byteStr byte)
    retStr

/-- `getValueImpl`; the bound is an `int`. -/
def getValue (forcedShowAll : Bool) (value : DataSeq) : QString :=
  let maxLen :=
    if F.isTruncated forcedShowAll value then (TruncateLength * 2 : ℤ)
    else (F.length value * 2 : ℤ).bmod (2 ^ 32)
  showBytes maxLen value []

/-- `maxSizeByPrefix`. -/
def maxSizeByPrefix (field : PrefixField) : ℕ :=
  if 4 ≤ field.maxLength then 2 ^ 31 - 1 else 2 ^ (field.maxLength * 8) - 1

def maxSize : ℕ :=
  match F.sizing with
  | .sizeFieldPrefix field => maxSizeByPrefix field
  | .serLengthFieldPrefix field => maxSizeByPrefix field
  | .fixedSize size _ => size
  | .noLimits => min (2 ^ 31 - 1) F.maxStorage

def minSize : ℕ :=
  match F.sizing with
  | .fixedSize size _ => size
  | _ => 0

/-! ### The bytes of a text -/

/-- The lower-case hexadecimal text of bytes. -/
def hexText (b : DataSeq) : QString := b.flatMap ToolsMsgFileMgr.byteStr

theorem toNat_toLower (c : Char) :
    c.toLower.toNat = if 65 ≤ c.toNat ∧ c.toNat ≤ 90 then c.toNat + 32 else c.toNat := by
  have hiff : (c.val ≥ 'A'.val ∧ c.val ≤ 'Z'.val) ↔ 65 ≤ c.toNat ∧ c.toNat ≤ 90 := Iff.rfl
  unfold Char.toLower
  split_ifs with h h' h'
  · have hlt : c.toNat + 32 < 2 ^ 32 := by omega
    exact Nat.mod_eq_of_lt hlt
  · exact absurd (hiff.mp h) h'
  · exact absurd (hiff.mpr h') h
  · rfl

theorem mem_of_isHexChar {c : Char} (h : isHexChar c = true) :
    c ∈ "0123456789abcdefABCDEF".toList := by
  have hof : Char.ofNat c.toNat = c := Char.ofNat_toNat c
  have hlower := toNat_toLower c
  have hrange : (48 ≤ c.toNat ∧ c.toNat ≤ 57) ∨ (97 ≤ c.toLower.toNat ∧ c.toLower.toNat ≤ 102) := by
    simp only [isHexChar, Bool.not_eq_true', Bool.and_eq_false_iff, Bool.or_eq_false_iff,
      decide_eq_false_iff_not, Char.not_lt] at h
    exact h
  have hmem : c.toNat ∈ "0123456789abcdefABCDEF".toList.map Char.toNat := by
    split_ifs at hlower <;> simp <;> omega
  rw [← hof]
  revert hmem
  generalize c.toNat = n
  revert n
  decide

/-- What a digit is worth in either case, and that it is nothing but a digit. -/
theorem digit_of_isHexChar {c : Char} (h : isHexChar c = true) :
    QString.digitVal 16 c = QString.digitVal 16 c.toLower ∧ QString.isSpace c = false ∧
      (c ≠ '-' ∧ c ≠ '+') ∧ c ≠ 'x' ∧ c ≠ 'X' := by
  have hmem := mem_of_isHexChar h
  fin_cases hmem <;> decide

theorem foldl_addChar_filter (val : QString) (s : DataSeq × QString) :
    (val.filter isHexChar).foldl addChar s = val.foldl addChar s := by
  induction val generalizing s with
  | nil => rfl
  | cons ch val ih =>
      cases hch : isHexChar ch with
      | true => rw [List.filter_cons_of_pos hch, List.foldl_cons, List.foldl_cons, ih]
      | false =>
          rw [List.filter_cons_of_neg (by simp [hch]), List.foldl_cons, ih]
          simp [addChar, hch]

/-- The two characters of a byte. -/
theorem foldl_addChar_byteStr {c c' : Char} {byte : UInt8} (data : DataSeq)
    (hc : isHexChar c = true) (hc' : isHexChar c' = true)
    (h : [c.toLower, c'.toLower] = ToolsMsgFileMgr.byteStr byte) :
    [c, c'].foldl addChar (data, []) = (data ++ [byte], []) := by
  have hlt : byte.toNat < 256 := byte.toNat_lt
  have hval : QString.integerVal 16 [c, c'] = some (byte.toNat : ℤ) := by
    obtain ⟨hdigit, hspace, hsign, -⟩ := digit_of_isHexChar hc
    obtain ⟨hdigit', hspace', -, hx⟩ := digit_of_isHexChar hc'
    rw [ToolsMsgFileMgr.byteStr_eq] at h
    obtain ⟨hhigh, hlow⟩ := List.cons.inj h
    rw [hhigh, QString.digitVal_digitChar le_rfl (by omega)] at hdigit
    rw [List.singleton_inj.mp hlow, QString.digitVal_digitChar le_rfl (by omega)] at hdigit'
    have hspaces : ∀ ch ∈ [c, c'], QString.isSpace ch = false := by
      intro ch hch
      rcases List.mem_pair.mp hch with rfl | rfl
      · exact hspace
      · exact hspace'
    rw [ToolsMsgFileMgr.integerVal_chars hspaces hsign hx hdigit hdigit', Nat.div_add_mod']
  have hbyte : UInt8.ofNat ((byte.toNat : ℤ) % 256).toNat = byte := by
    rw [Int.emod_eq_of_lt (by omega) (by omega), Int.toNat_natCast, UInt8.ofNat_toNat]
  have hint : (some (byte.toNat : ℤ)).filter (fun n => decide (-2 ^ 31 ≤ n ∧ n < 2 ^ 31)) =
      some (byte.toNat : ℤ) := by
    rw [Option.filter, if_pos (decide_eq_true ⟨by omega, by omega⟩)]
  have hadd : addByteToData (data, [c, c']) = (data ++ [byte], []) := by
    simp only [addByteToData, hval, hint, hbyte]
  simp [addChar, hc, hc', hadd]

theorem foldl_addChar_hexText {val : QString} {b : DataSeq} (data : DataSeq)
    (hchars : ∀ c ∈ val, isHexChar c = true) (h : val.map Char.toLower = hexText b) :
    val.foldl addChar (data, []) = (data ++ b, []) := by
  induction b generalizing val data with
  | nil =>
      obtain rfl := List.map_eq_nil_iff.mp h
      rw [List.append_nil]
      rfl
  | cons byte b ih =>
      rw [hexText, List.flatMap_cons, ← hexText] at h
      obtain ⟨head, rest, rfl, hhead, hrest⟩ := List.map_eq_append_iff.mp h
      have htwo := congrArg List.length hhead
      rw [ToolsMsgFileMgr.byteStr_eq, List.length_map] at htwo
      obtain ⟨c, c', rfl⟩ := List.length_eq_two.mp htwo
      have hc := hchars c (by simp)
      have hc' := hchars c' (by simp)
      rw [List.foldl_append, foldl_addChar_byteStr data hc hc' hhead,
        ih _ (fun c hmem => hchars c (List.mem_append_right _ hmem)) hrest, List.append_assoc]
      rfl

/-- A text spells bytes if they are what is left without other characters, in either case. -/
def Spells (val : QString) (b : DataSeq) : Prop :=
  (val.filter isHexChar).map Char.toLower = hexText b

instance (val : QString) (b : DataSeq) : Decidable (Spells val b) :=
  inferInstanceAs (Decidable (_ = _))

theorem textBytes_eq {val : QString} {b : DataSeq} (h : Spells val b) : textBytes val = b := by
  have hchars : ∀ c ∈ val.filter isHexChar, isHexChar c = true := fun c hc =>
    (List.mem_filter.mp hc).2
  rw [textBytes, ← foldl_addChar_filter, foldl_addChar_hexText [] hchars h]
  rfl

/-! ### Reading the bytes back -/

/-- No terminator starts among the bytes in front of the terminator. -/
def EndsThere (term b : DataSeq) : Prop :=
  ∀ k < b.length, ¬ term <+: (b ++ term).drop k

/-- **Bytes up to a terminator** are read back unless a terminator starts among them. -/
theorem readUntil_iff (term b : DataSeq) :
    readUntil term (b ++ term) = some b ↔ EndsThere term b := by
  induction b with
  | nil =>
      refine iff_of_true ?_ fun k hk => absurd hk (Nat.not_lt_zero k)
      cases term with
      | nil => rfl
      | cons byte term => simp [readUntil]
  | cons byte b ih =>
      rw [List.cons_append, readUntil]
      constructor
      · intro h k hk hstart
        split_ifs at h with hprefix
        · cases h
        · obtain ⟨rest, hrest, heq⟩ := Option.map_eq_some_iff.mp h
          obtain rfl := (List.cons.inj heq).2
          cases k with
          | zero => exact hprefix (List.isPrefixOf_iff_prefix.mpr hstart)
          | succ k => exact ih.mp hrest k (Nat.lt_of_succ_lt_succ hk) hstart
      · intro h
        have hhead : ¬ term.isPrefixOf (byte :: (b ++ term)) = true := fun hprefix =>
          h 0 (Nat.succ_pos _) (List.isPrefixOf_iff_prefix.mp hprefix)
        have htail : EndsThere term b := fun k hk => h (k + 1) (Nat.succ_lt_succ hk)
        rw [if_neg hhead, ih.mpr htail]
        rfl

theorem readSized_append (suffix : Suffix) (b : DataSeq) :
    readSized suffix b.length (b ++ suffixBytes suffix) = some b := by
  cases suffix <;> simp [readSized, suffixBytes]

/-- Only a terminator that starts among the bytes keeps a field from reading them. -/
def ReadsBack (b : DataSeq) : Prop :=
  match F.sizing, F.suffix with
  | .noLimits, .termination term => EndsThere term b
  | _, _ => True

variable {F} {b : DataSeq}

theorem exists_readUntil (term b : DataSeq) : ∃ value, readUntil term (b ++ term) = some value := by
  induction b with
  | nil => exact ⟨[], (readUntil_iff term []).mpr fun k hk => absurd hk (Nat.not_lt_zero k)⟩
  | cons byte b ih =>
      obtain ⟨value, hvalue⟩ := ih
      rw [List.cons_append, readUntil]
      split_ifs with hprefix
      · exact ⟨[], rfl⟩
      · exact ⟨byte :: value, by rw [hvalue, Option.map_some]⟩

/-- Within the sizes of the field the read succeeds. -/
theorem exists_read {front : DataSeq} (hfront : F.writePrefix b.length = some front)
    (hmin : F.minSize ≤ b.length) (hmax : b.length ≤ F.maxSize) :
    ∃ value, F.read (front ++ b ++ suffixBytes F.suffix) = some value ∧
      (value = b ↔ F.ReadsBack b) := by
  obtain ⟨sizing, suffix, maxStorage, failedRead⟩ := F
  cases sizing with
  | sizeFieldPrefix field =>
      refine ⟨b, ?_, iff_of_true rfl (by simp [ReadsBack])⟩
      rw [read, List.append_assoc]
      simp only [field.read_write _ _ _ hfront, Option.bind_some, readSized_append]
  | serLengthFieldPrefix field =>
      refine ⟨b, ?_, iff_of_true rfl (by simp [ReadsBack])⟩
      rw [read, List.append_assoc]
      simp only [field.read_write _ _ _ hfront, Option.bind_some, readSized_append]
  | fixedSize size h =>
      obtain rfl : size = b.length := le_antisymm hmin hmax
      obtain rfl := Option.some.inj hfront
      refine ⟨b, ?_, iff_of_true rfl (by simp [ReadsBack])⟩
      rw [read, List.nil_append]
      exact readSized_append suffix b
  | noLimits =>
      obtain rfl := Option.some.inj hfront
      rw [read, List.nil_append]
      cases suffix with
      | none => exact ⟨b, by simp [readUnsized, suffixBytes], by simp [ReadsBack]⟩
      | trailing bytes => exact ⟨b, by simp [readUnsized, suffixBytes], by simp [ReadsBack]⟩
      | termination term =>
          obtain ⟨value, hvalue⟩ := exists_readUntil term b
          have hiff := readUntil_iff term b
          rw [hvalue, Option.some.injEq] at hiff
          exact ⟨value, hvalue, hiff⟩

/-! ### Showing the bytes -/

/-- **The text shows all bytes** if its length before the last one is below the bound. -/
theorem showBytes_iff (maxLen : ℤ) (value : DataSeq) (retStr : QString) :
    showBytes maxLen value retStr = retStr ++ hexText value ↔
      value = [] ∨ retStr.length + 2 * value.length < maxLen + 2 := by
  induction value generalizing retStr with
  | nil => simp [showBytes, hexText]
  | cons byte value ih =>
      have hlen : (ToolsMsgFileMgr.byteStr byte).length = 2 := by
        rw [ToolsMsgFileMgr.byteStr_eq]
        rfl
      rw [showBytes, List.foldl_cons, ← showBytes]
      split_ifs with hfull
      · have hstays : ∀ value : DataSeq, showBytes maxLen value retStr = retStr := by
          intro value
          induction value with
          | nil => rfl
          | cons byte value ih => rw [showBytes, List.foldl_cons, if_pos hfull]; exact ih
        refine iff_of_false (fun h => ?_) ?_
        · rw [hstays, hexText, List.flatMap_cons] at h
          have hl := congrArg List.length h
          simp only [List.length_append, hlen] at hl
          omega
        · rw [false_or, List.length_cons]
          omega
      · rw [hexText, List.flatMap_cons, ← hexText, ← List.append_assoc, ih, false_or,
          List.length_append, hlen, List.length_cons]
        cases value with
        | nil =>
            refine iff_of_true (.inl rfl) ?_
            rw [List.length_nil]
            omega
        | cons byte' value =>
            rw [or_iff_right (List.cons_ne_nil byte' value)]
            omega

/-! ### What a field takes -/

variable (F)

/-- The field holds the bytes of the text, and shows them all. -/
structure Takes (old b : DataSeq) (val : QString) : Prop where
  holds : F.setValue old val = b
  shows : F.getValue true (F.setValue old val) = hexText b

/-- No bytes, or a size that cannot be written, leave the field as it is; otherwise the bytes have
to be read back.  Twice the length of the field has to fit an `int`. -/
structure Fits (old b : DataSeq) : Prop where
  kept : b = [] ∨ F.writePrefix b.length = none → old = b
  readsBack : b ≠ [] → F.writePrefix b.length ≠ none → F.ReadsBack b
  shown : b = [] ∨ F.length b % 2 ^ 31 < 2 ^ 30 ∧ b.length ≤ F.length b % 2 ^ 31

theorem getValue_iff : F.getValue true b = hexText b ↔
    b = [] ∨ F.length b % 2 ^ 31 < 2 ^ 30 ∧ b.length ≤ F.length b % 2 ^ 31 := by
  have hbound := showBytes_iff ((F.length b * 2 : ℤ).bmod (2 ^ 32)) b []
  have hmod : (F.length b * 2 : ℤ).bmod (2 ^ 32) =
      if F.length b % 2 ^ 31 < 2 ^ 30 then (F.length b % 2 ^ 31 * 2 : ℤ)
      else (F.length b % 2 ^ 31 * 2 : ℤ) - 2 ^ 32 := by
    rw [Int.bmod_def]
    split_ifs <;> omega
  rw [List.nil_append, List.length_nil, hmod] at hbound
  have hgot : F.getValue true b = showBytes ((F.length b * 2 : ℤ).bmod (2 ^ 32)) b [] := by
    simp [getValue, isTruncated]
  rw [hgot, hmod, hbound]
  refine or_congr_right ?_
  split_ifs with hlt <;> omega

variable {F}

theorem setValue_iff (old : DataSeq) {val : QString} (hval : Spells val b)
    (hmin : F.minSize ≤ b.length) (hmax : b.length ≤ F.maxSize) :
    F.setValue old val = b ↔
      (b = [] ∨ F.writePrefix b.length = none → old = b) ∧
        (b ≠ [] → F.writePrefix b.length ≠ none → F.ReadsBack b) := by
  rw [setValue, textBytes_eq hval, setSerialisedValue]
  by_cases hb : b = []
  · rw [if_pos (List.isEmpty_iff.mpr hb)]
    exact ⟨fun h => ⟨fun _ => h, fun hne => absurd hb hne⟩, fun h => h.1 (.inl hb)⟩
  · rw [if_neg (by rwa [List.isEmpty_iff])]
    cases hfront : F.writePrefix b.length with
    | none => exact ⟨fun h => ⟨fun _ => h, fun _ hne => absurd rfl hne⟩, fun h => h.1 (.inr rfl)⟩
    | some front =>
        obtain ⟨value, hread, hvalue⟩ := exists_read hfront hmin hmax
        simp only [hread, Option.getD_some, hvalue]
        exact ⟨fun h => ⟨fun hno => by simp [hb] at hno, fun _ _ => h⟩, fun h => h.2 hb nofun⟩

/-- **Which bytes a field takes.** -/
theorem takes_iff (old : DataSeq) {val : QString} (hval : Spells val b)
    (hmin : F.minSize ≤ b.length) (hmax : b.length ≤ F.maxSize) :
    F.Takes old b val ↔ F.Fits old b := by
  have hset := setValue_iff old hval hmin hmax
  constructor
  · rintro ⟨hholds, hshows⟩
    rw [hholds] at hshows
    obtain ⟨hkept, hreads⟩ := hset.mp hholds
    exact ⟨hkept, hreads, (getValue_iff F).mp hshows⟩
  · rintro ⟨hkept, hreads, hshown⟩
    have hholds := hset.mpr ⟨hkept, hreads⟩
    refine ⟨hholds, ?_⟩
    rw [hholds]
    exact (getValue_iff F).mpr hshown

/-- A field without prefix, suffix and limit. -/
def plainField : RawDataField := ⟨.noLimits, .none, 2 ^ 31 - 1, fun _ => []⟩

theorem takes_upper_case : plainField.Takes [1] [0xab, 0x0c] "AB-0c".toList :=
  (takes_iff [1] (by decide) (by decide) (by decide)).mpr
    ⟨fun h => by simp [plainField, writePrefix] at h, fun _ _ => trivial, .inr (by decide)⟩

/-- The empty text leaves the bytes of the field. -/
theorem empty_not_taken :
    ¬ ∀ (F : RawDataField) (old b : DataSeq) (val : QString), Spells val b →
      F.minSize ≤ b.length → b.length ≤ F.maxSize →
      (∀ term, F.suffix = .termination term → ¬ term <:+: b) → F.Takes old b val := by
  intro h
  have htakes := h plainField [1] [] [] (by decide) (by decide) (by decide) nofun
  exact absurd htakes.holds (by decide)

end RawDataField

end CcToolsQt
