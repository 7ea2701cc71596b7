import CcToolsQt.Garbage
import CcToolsQt.Clones
import CcToolsQt.Reload

/-! # Loading received messages from any file

The entries of a file of received messages pass the file manager, the message manager and
`GuiAppMgr`, each with assertions of its own.  A digit of another script among the bytes, the
extra info of garbage and the number of a type are checked by none of them.

* `createAsserted_iff`: which entries keep the assertions of `createMsgObjectFrom`.
* `loadedSafely_iff`: which files are loaded without a failed assertion, and with received and sent
  messages only. -/

namespace CcToolsQt

namespace QString

/-- Two characters without a sign or a prefix are read as two digits. -/
theorem integerVal_two {a b : Char} (ha : isSpace a = false) (hb : isSpace b = false)
    (hminus : a ≠ '-') (hplus : a ≠ '+') (hx : b ≠ 'x') (hX : b ≠ 'X') :
    integerVal 16 [a, b] = (digitVal 16 a).bind fun d => (digitVal 16 b).map fun e =>
      ((d * 16 + e : ℕ) : ℤ) := by
  have htrim : trimmed [a, b] = [a, b] := by
    apply trimmed_eq
    intro c hc
    rcases List.mem_pair.mp hc with rfl | rfl
    · exact ha
    · exact hb
  have hstripped : withoutPrefix 16 [a, b] = [a, b] := by
    simp only [withoutPrefix, if_true]
    split <;> simp_all
  unfold integerVal
  rw [htrim]
  split
  · simp_all
  · simp_all
  · rw [hstripped, unsignedVal]
    simp only [List.isEmpty_cons, Bool.false_eq_true, if_false, digitsVal]
    cases digitVal 16 a with
    | none => rfl
    | some d => cases digitVal 16 b <;> simp

theorem digitVal_of_not_ascii {base : ℕ} {c : Char} (h : 128 ≤ c.toNat) :
    digitVal base c = none := by
  have hnot : ∀ d : Char, d.toNat < 128 → ¬ c ≤ d := by
    intro d hd hc
    have hle : c.toNat ≤ d.toNat := hc
    omega
  have h9 := hnot '9' (by decide)
  have hz := hnot 'z' (by decide)
  have hZ := hnot 'Z' (by decide)
  simp [digitVal, h9, hz, hZ]

theorem digitVal_lt {base d : ℕ} {c : Char} (h : digitVal base c = some d) : d < base := by
  unfold digitVal at h
  dsimp only at h
  generalize (if '0' ≤ c ∧ c ≤ '9' then _ else _ : ℕ) = v at h
  split_ifs at h with hv
  obtain rfl := Option.some.inj h
  exact hv

/-- The hexadecimal digits among the ASCII characters. -/
theorem digitVal_16_isSome (c : Char) (hc : c.toNat < 128)
    (h : (c.isDigit || ('A' ≤ c && c ≤ 'F') || ('a' ≤ c && c ≤ 'f')) = true) :
    (digitVal 16 c).isSome = true := by
  have hall : ∀ n < 128, ((Char.ofNat n).isDigit || ('A' ≤ Char.ofNat n && Char.ofNat n ≤ 'F') ||
      ('a' ≤ Char.ofNat n && Char.ofNat n ≤ 'f')) = true →
      (digitVal 16 (Char.ofNat n)).isSome = true := by decide
  have hn := hall c.toNat hc
  rw [Char.ofNat_toNat] at hn
  exact hn h

end QString

namespace ToolsMsgFileMgr
variable {φ α File : Type}

/-! ### The assertions about the bytes -/

/-- The assertions about each pair of digits. -/
def BytesAsserted : QString → Prop
  | a :: b :: s =>
      (∃ byte, QString.integerVal 16 [a, b] = some byte ∧ 0 ≤ byte ∧ byte ≤ 0xff) ∧ BytesAsserted s
  | _ => True

section
variable (Q : QtFiles File)

/-- The digits of a data text. -/
def stripedData (s : QString) : QString :=
  let striped := s.filter (isDataChar Q)
  if striped.length % 2 ≠ 0 then '0' :: striped else striped

/-- An ASCII character that is kept is a hexadecimal digit. -/
theorem digitVal_of_isDataChar {c : Char} (hc : c.toNat < 128) (h : isDataChar Q c = true) :
    (QString.digitVal 16 c).isSome = true := by
  rw [isDataChar, Q.isDigit_ascii c hc] at h
  exact QString.digitVal_16_isSome c hc h

/-- A kept character is no blank, no sign and no part of a prefix. -/
theorem isDataChar_ne {c : Char} (h : isDataChar Q c = true) :
    QString.isSpace c = false ∧ c ≠ '-' ∧ c ≠ '+' ∧ c ≠ 'x' ∧ c ≠ 'X' := by
  by_cases hc : c.toNat < 128
  · have hd := digitVal_of_isDataChar Q hc h
    have hall : ∀ n < 128, (QString.digitVal 16 (Char.ofNat n)).isSome = true →
        QString.isSpace (Char.ofNat n) = false ∧ Char.ofNat n ≠ '-' ∧ Char.ofNat n ≠ '+' ∧
          Char.ofNat n ≠ 'x' ∧ Char.ofNat n ≠ 'X' := by decide
    have hn := hall c.toNat hc
    rw [Char.ofNat_toNat] at hn
    exact hn hd
  · refine ⟨?_, ?_, ?_, ?_, ?_⟩
    · unfold QString.isSpace
      have hblank : c ≠ ' ' := fun e => hc (by rw [e]; decide)
      simp [hblank]
      omega
    all_goals
      rintro rfl
      exact hc (by decide)

/-- A pair of kept characters is a byte if and only if both are ASCII characters. -/
theorem byte_iff {a b : Char} (ha : isDataChar Q a = true) (hb : isDataChar Q b = true) :
    (∃ byte, QString.integerVal 16 [a, b] = some byte ∧ 0 ≤ byte ∧ byte ≤ 0xff) ↔
      a.toNat < 128 ∧ b.toNat < 128 := by
  obtain ⟨hsa, hminus, hplus, -, -⟩ := isDataChar_ne Q ha
  obtain ⟨hsb, -, -, hx, hX⟩ := isDataChar_ne Q hb
  rw [QString.integerVal_two hsa hsb hminus hplus hx hX]
  constructor
  · rintro ⟨byte, h, -, -⟩
    obtain ⟨d, hd, h⟩ := Option.bind_eq_some_iff.mp h
    obtain ⟨e, he, -⟩ := Option.map_eq_some_iff.mp h
    constructor
    · by_contra hge
      rw [QString.digitVal_of_not_ascii (Nat.le_of_not_lt hge)] at hd
      cases hd
    · by_contra hge
      rw [QString.digitVal_of_not_ascii (Nat.le_of_not_lt hge)] at he
      cases he
  · rintro ⟨hca, hcb⟩
    obtain ⟨d, hd⟩ := Option.isSome_iff_exists.mp (digitVal_of_isDataChar Q hca ha)
    obtain ⟨e, he⟩ := Option.isSome_iff_exists.mp (digitVal_of_isDataChar Q hcb hb)
    have hd16 := QString.digitVal_lt hd
    have he16 := QString.digitVal_lt he
    refine ⟨((d * 16 + e : ℕ) : ℤ), by rw [hd, he]; rfl, by omega, by omega⟩

/-- **All pairs are bytes** if and only if there is no digit of another script. -/
theorem bytesAsserted_iff {s : QString} (hs : ∀ c ∈ s, isDataChar Q c = true)
    (heven : s.length % 2 = 0) : BytesAsserted s ↔ ∀ c ∈ s, c.toNat < 128 := by
  match s with
  | [] => simp [BytesAsserted]
  | [a] => simp at heven
  | a :: b :: s =>
      have hrest : BytesAsserted s ↔ ∀ c ∈ s, c.toNat < 128 := by
        apply bytesAsserted_iff
        · exact fun c hc => hs c (by simp [hc])
        · simp only [List.length_cons] at heven
          omega
      rw [BytesAsserted, byte_iff Q (hs a (by simp)) (hs b (by simp)), hrest]
      simp [and_assoc]

theorem stripedData_asserted_iff (s : QString) : BytesAsserted (stripedData Q s) ↔
    ∀ c ∈ s, Q.isDigit c = true → c.toNat < 128 := by
  have hzero : isDataChar Q '0' = true := isDataChar_digitChar Q (show 0 < 16 by omega)
  rw [bytesAsserted_iff Q]
  · have hmem : (∀ c ∈ stripedData Q s, c.toNat < 128) ↔
        ∀ c ∈ s.filter (isDataChar Q), c.toNat < 128 := by
      unfold stripedData
      dsimp only
      split_ifs
      · rw [List.forall_mem_cons, and_iff_right (by decide)]
      · rfl
    rw [hmem]
    constructor
    · intro h c hc hd
      exact h c (List.mem_filter.mpr ⟨hc, by simp [isDataChar, hd]⟩)
    · intro h c hc
      obtain ⟨hc, hd⟩ := List.mem_filter.mp hc
      by_contra hge
      -- a letter between `A` and `f` is an ASCII character
      have hletter : ∀ d : Char, d.toNat < 128 → ¬ c ≤ d := by
        intro d hd hle
        exact hge (lt_of_le_of_lt (show c.toNat ≤ d.toNat from hle) hd)
      have hF := hletter 'F' (by decide)
      have hf := hletter 'f' (by decide)
      simp only [isDataChar, hF, hf, decide_false, Bool.and_false, Bool.or_false] at hd
      exact hge (h c hc hd)
  · intro c hc
    unfold stripedData at hc
    dsimp only at hc
    split_ifs at hc
    · rcases List.mem_cons.mp hc with rfl | hc
      · exact hzero
      · exact (List.mem_filter.mp hc).2
    · exact (List.mem_filter.mp hc).2
  · unfold stripedData
    dsimp only
    split_ifs with h
    · rw [List.length_cons]
      omega
    · omega

end

/-! ### One entry -/

section
variable (P : ToolsProtocol φ α) (Q : QtFiles File) (decodesTransport : DataSeq → Bool)

/-- The bytes of an entry. -/
def entryData (msgMap : QVariantMap) : DataSeq := dataFromStr Q (DataProp.getFrom msgMap [])

/-- The message `createMsgObjectFrom` passes to `updateMessage`, if it does. -/
def entryToUpdate (msgMap : QVariantMap) : Option (ToolsMessage φ α) :=
  let msgId := IdProp.getFrom msgMap []
  let extraInfo := ExtraPropsProp.getFrom msgMap []
  if msgId.isEmpty then
    if extraInfo.isEmpty then none
    else some (withExtraInfo extraInfo (P.createInvalidMessage (entryData Q msgMap)))
  else
    (createFromData P msgId (MsgIdxProp.getFrom msgMap 0) (entryData Q msgMap)).map
      (withExtraInfo extraInfo)

/-- The assertions of `createMsgObjectFrom`. -/
def CreateAsserted (msgMapVar : QVariant) : Prop :=
  match msgMapVar.toMap with
  | none => True
  | some msgMap =>
      IdProp.getFrom msgMap [] = [] ∧ DataProp.getFrom msgMap [] = [] ∨
        BytesAsserted (stripedData Q (DataProp.getFrom msgMap [])) ∧
          ∀ msg ∈ entryToUpdate P Q msgMap, P.UpdateAsserted decodesTransport msg

/-- The id text of the message an entry gives. -/
def entryIdText (msgMap : QVariantMap) : QString :=
  let msgId := IdProp.getFrom msgMap []
  P.classes.idAsStringImpl (if msgId.isEmpty then 0 else (QString.spelledId msgId).getD 0)

/-- An entry gives a message: it has bytes if it has no id, else a form of its id reads them. -/
def GivesMessage (msgMap : QVariantMap) : Prop :=
  let msgId := IdProp.getFrom msgMap []
  if msgId.isEmpty then DataProp.getFrom msgMap [] ≠ []
  else ∃ f ∈ P.m_frame.m_factory.formsOfText msgId,
    (P.classes.doRead f (entryData Q msgMap)).isSome = true

/-- An entry that every component takes as it is. -/
structure EntryFits (msgMap : QVariantMap) : Prop where
  digits : ∀ c ∈ DataProp.getFrom msgMap [], Q.isDigit c = true → c.toNat < 128
  /-- Bytes without an id get no extra info, or no transport fields are read from them, or they
  can be. -/
  garbage : IdProp.getFrom msgMap [] = [] → DataProp.getFrom msgMap [] ≠ [] →
    ExtraPropsProp.getFrom msgMap [] ≠ [] →
    P.classes.idAsStringImpl 0 = [] ∨ decodesTransport (entryData Q msgMap) = true
  /-- The frame writes the message read and decodes what it wrote. -/
  framed : IdProp.getFrom msgMap [] ≠ [] → ∀ f c,
    firstDecoding P.classes (entryData Q msgMap) (attempts (MsgIdxProp.getFrom msgMap 0)
      (P.m_frame.m_factory.formsOfText (IdProp.getFrom msgMap []))) = some (.prot f c) →
    entryIdText P msgMap ≠ [] →
    P.m_frame.WriteSucceeds f (P.classes.doRefresh f c).1 ∧
      decodesTransport (P.m_frame.writeProtMsgImpl f (P.classes.doRefresh f c).1) = true
  typed : GivesMessage P Q msgMap → TimestampProp.getFrom msgMap 0 ≠ 0 →
    TypeProp.getFrom msgMap 0 = MsgType.Received.value ∨
      TypeProp.getFrom msgMap 0 = MsgType.Sent.value ∧ entryIdText P msgMap ≠ []

theorem updateAsserted_garbage (extraInfo : QVariantMap) (data : DataSeq) :
    P.UpdateAsserted decodesTransport (withExtraInfo extraInfo (P.createInvalidMessage data)) ↔
      P.classes.idAsStringImpl 0 = [] ∨ decodesTransport data = true := by
  have hbody : (withExtraInfo extraInfo (P.createInvalidMessage data)).body = .invalid ∧
      (withExtraInfo extraInfo (P.createInvalidMessage data)).rawDataMsg = some data := by
    unfold withExtraInfo
    split_ifs <;> exact ⟨rfl, rfl⟩
  generalize withExtraInfo extraInfo (P.createInvalidMessage data) = msg at hbody
  obtain ⟨hbody, hraw⟩ := hbody
  have hid : msg.idAsString P.classes = P.classes.idAsStringImpl 0 := by
    simp [ToolsMessage.idAsString, ToolsMessage.numericId, hbody]
  unfold ToolsProtocol.UpdateAsserted
  rw [hid, ToolsProtocol.refreshMsg_invalid _ hbody, or_iff_not_imp_left]
  refine imp_congr_right fun _ => ⟨fun h => ?_, fun h => ⟨fun f c e => ?_, fun _ => ?_, ?_⟩⟩
  · simpa [ToolsFrame.encodeFramed, ToolsMessage.encodeData, hbody, hraw] using h.decoded
  · rw [hbody] at e
    cases e
  · rw [hraw]
    rfl
  · simpa [ToolsFrame.encodeFramed, ToolsMessage.encodeData, hbody, hraw] using h

theorem updateAsserted_prot {msg : ToolsMessage φ α} {f : φ} {c : α} (h : msg.body = .prot f c) :
    P.UpdateAsserted decodesTransport msg ↔
      (P.classes.idAsStringImpl (P.classes.numericIdImpl f) ≠ [] →
        P.m_frame.WriteSucceeds f (P.classes.doRefresh f c).1 ∧
          decodesTransport (P.m_frame.writeProtMsgImpl f (P.classes.doRefresh f c).1) = true) := by
  have hid : msg.idAsString P.classes = P.classes.idAsStringImpl (P.classes.numericIdImpl f) := by
    simp [ToolsMessage.idAsString, ToolsMessage.numericId, h]
  have hbody : (msg.refreshMsg P.classes).1.body = .prot f (P.classes.doRefresh f c).1 := by
    simp [ToolsMessage.refreshMsg, h]
  unfold ToolsProtocol.UpdateAsserted
  rw [hid]
  refine imp_congr_right fun _ => ⟨fun hu => ⟨hu.written _ _ hbody, ?_⟩, fun hu =>
    ⟨fun f' c' e => ?_, fun e => ?_, ?_⟩⟩
  · simpa [ToolsFrame.encodeFramed, hbody] using hu.decoded
  · obtain ⟨rfl, rfl⟩ := Body.prot.inj (hbody.symm.trans e)
    exact hu.1
  · rw [hbody] at e
    cases e
  · simpa [ToolsFrame.encodeFramed, hbody] using hu.2

/-- A form that reads the bytes is one of the id. -/
theorem firstDecoding_attempts {data : DataSeq} {msgIdx : UInt32} {forms : List φ} {f : φ} {c : α}
    {C : MsgClasses φ α} (h : firstDecoding C data (attempts msgIdx forms) = some (.prot f c)) :
    f ∈ forms ∧ C.doRead f data = some c := by
  obtain ⟨g, hg, h⟩ := List.exists_of_findSome?_eq_some h
  obtain ⟨d, hd, h⟩ := Option.map_eq_some_iff.mp h
  obtain ⟨rfl, rfl⟩ := Body.prot.inj h
  refine ⟨?_, hd⟩
  rcases List.mem_append.mp hg with hg | hg
  · split_ifs at hg
    · cases hg
    · exact List.mem_of_getElem? (Option.mem_toList.mp hg)
  · exact hg

theorem entryIdText_of_form {msgMap : QVariantMap} (hid : IdProp.getFrom msgMap [] ≠ []) {f : φ}
    (hf : f ∈ P.m_frame.m_factory.formsOfText (IdProp.getFrom msgMap [])) :
    entryIdText P msgMap = P.classes.idAsStringImpl (P.classes.numericIdImpl f) := by
  unfold entryIdText
  unfold ToolsMsgFactory.formsOfText at hf
  dsimp only
  rw [if_neg (by simpa using hid)]
  cases hs : QString.spelledId (IdProp.getFrom msgMap []) with
  | none => simp [hs] at hf
  | some id =>
      simp only [hs, ToolsMsgFactory.formsOf, List.mem_filter, decide_eq_true_eq] at hf
      rw [Option.getD_some, hf.2]

/-- **The assertions of `createMsgObjectFrom`**, entry by entry. -/
theorem createAsserted_iff (msgMap : QVariantMap) :
    CreateAsserted P Q decodesTransport (.map msgMap) ↔
      (∀ c ∈ DataProp.getFrom msgMap [], Q.isDigit c = true → c.toNat < 128) ∧
      (IdProp.getFrom msgMap [] = [] → DataProp.getFrom msgMap [] ≠ [] →
        ExtraPropsProp.getFrom msgMap [] ≠ [] →
        P.classes.idAsStringImpl 0 = [] ∨ decodesTransport (entryData Q msgMap) = true) ∧
      (IdProp.getFrom msgMap [] ≠ [] → ∀ f c,
        firstDecoding P.classes (entryData Q msgMap) (attempts (MsgIdxProp.getFrom msgMap 0)
          (P.m_frame.m_factory.formsOfText (IdProp.getFrom msgMap []))) = some (.prot f c) →
        entryIdText P msgMap ≠ [] →
        P.m_frame.WriteSucceeds f (P.classes.doRefresh f c).1 ∧
          decodesTransport (P.m_frame.writeProtMsgImpl f (P.classes.doRefresh f c).1) = true) := by
  show _ ∧ _ ∨ BytesAsserted _ ∧ _ ↔ _
  rw [stripedData_asserted_iff]
  unfold entryToUpdate
  dsimp only
  by_cases hid : IdProp.getFrom msgMap [] = []
  · by_cases hdata : DataProp.getFrom msgMap [] = []
    · simp [hid, hdata]
    · by_cases hextra : ExtraPropsProp.getFrom msgMap [] = []
      · simp [hid, hdata, hextra]
      · simp [hid, hdata, hextra, updateAsserted_garbage]
  · have hne : (IdProp.getFrom msgMap []).isEmpty = false := by simpa using hid
    obtain ⟨i, hi⟩ := createFromData_eq P (IdProp.getFrom msgMap [])
      (MsgIdxProp.getFrom msgMap 0) (entryData Q msgMap)
    simp only [hid, hne, false_and, false_or, Bool.false_eq_true, if_false, hi, false_implies,
      true_and, ne_eq, not_false_eq_true, forall_const]
    refine and_congr_right fun _ => ?_
    constructor
    · intro h f c hfc htext
      have hf := (firstDecoding_attempts hfc).1
      rw [hfc] at h
      refine (updateAsserted_prot P decodesTransport ?_).mp (h _ rfl) ?_
      · unfold withExtraInfo
        split_ifs <;> rfl
      · rwa [← entryIdText_of_form P hid hf]
    · intro h msg hmsg
      obtain ⟨m, hm, rfl⟩ := Option.map_eq_some_iff.mp hmsg
      obtain ⟨b, hb, rfl⟩ := Option.map_eq_some_iff.mp hm
      obtain ⟨f, -, hbody⟩ := List.exists_of_findSome?_eq_some hb
      obtain ⟨c, -, rfl⟩ := Option.map_eq_some_iff.mp hbody
      have hf := (firstDecoding_attempts hb).1
      refine (updateAsserted_prot P decodesTransport (f := f) (c := c) ?_).mpr fun htext => ?_
      · unfold withExtraInfo
        split_ifs <;> rfl
      · exact h f c hb (by rwa [entryIdText_of_form P hid hf])

/-- The object inside the message of an entry, before it is refreshed. -/
def entryBody (msgMap : QVariantMap) : Option (Body φ α) :=
  if (IdProp.getFrom msgMap []).isEmpty then
    if DataProp.getFrom msgMap [] = [] then none else some .invalid
  else
    firstDecoding P.classes (entryData Q msgMap) (attempts (MsgIdxProp.getFrom msgMap 0)
      (P.m_frame.m_factory.formsOfText (IdProp.getFrom msgMap [])))

theorem entryBody_isSome (msgMap : QVariantMap) :
    (entryBody P Q msgMap).isSome = true ↔ GivesMessage P Q msgMap := by
  unfold entryBody GivesMessage
  dsimp only
  split_ifs with hid hdata
  · simp [hdata]
  · simp [hdata]
  · constructor
    · intro h
      obtain ⟨b, hb⟩ := Option.isSome_iff_exists.mp h
      obtain ⟨f, -, hbody⟩ := List.exists_of_findSome?_eq_some hb
      obtain ⟨c, hc, rfl⟩ := Option.map_eq_some_iff.mp hbody
      exact ⟨f, (firstDecoding_attempts hb).1, by rw [hc]; rfl⟩
    · rintro ⟨f, hf, hread⟩
      rw [firstDecoding, List.findSome?_isSome_iff]
      exact ⟨f, List.mem_append_right _ hf, by rw [Option.isSome_map]; exact hread⟩

/-- An object of the form an update was given. -/
theorem createMsgObjectFrom_form (msgMap : QVariantMap) :
    (createMsgObjectFrom P Q (.map msgMap)).map ToolsMessage.form =
      (entryBody P Q msgMap).map fun b => ToolsMessage.form { body := b } := by
  have hextra : ∀ (e : QVariantMap) (m : ToolsMessage φ α), (withExtraInfo e m).form = m.form := by
    intro e m
    unfold withExtraInfo
    split_ifs <;> rfl
  unfold createMsgObjectFrom entryBody
  simp only [QVariant.toMap]
  by_cases hid : IdProp.getFrom msgMap [] = []
  · by_cases hdata : DataProp.getFrom msgMap [] = []
    · simp [hid, hdata]
    · have hne : (DataProp.getFrom msgMap []).isEmpty = false := by simpa using hdata
      simp only [hid, hdata, hne, List.isEmpty_nil, Bool.and_false, Bool.false_eq_true, if_false,
        if_true]
      split_ifs
      · rfl
      · simp only [Option.map_some, ToolsMessage.form_updateMessage, hextra]
        rfl
  · have hne : (IdProp.getFrom msgMap []).isEmpty = false := by simpa using hid
    obtain ⟨i, hi⟩ := createFromData_eq P (IdProp.getFrom msgMap [])
      (MsgIdxProp.getFrom msgMap 0) (entryData Q msgMap)
    unfold entryData at hi ⊢
    simp only [hne, Bool.false_and, Bool.false_eq_true, if_false, hi, Option.map_map]
    congr 1
    funext b
    simp only [Function.comp_apply, ToolsMessage.form_updateMessage, hextra]
    rfl

/-- What an entry gives, if anything, has the id text of the entry. -/
theorem createMsgObjectFrom_idAsString {msgMap : QVariantMap} {m : ToolsMessage φ α}
    (hm : createMsgObjectFrom P Q (.map msgMap) = some m) :
    m.idAsString P.classes = entryIdText P msgMap := by
  have hform := createMsgObjectFrom_form P Q msgMap
  rw [hm, Option.map_some] at hform
  obtain ⟨b, hb, hbm⟩ := Option.map_eq_some_iff.mp hform.symm
  rw [← ToolsMessage.idAsString_of_form P.classes hbm]
  unfold entryBody at hb
  split_ifs at hb with hid hdata
  · obtain rfl := Option.some.inj hb
    simp [ToolsMessage.idAsString, ToolsMessage.numericId, entryIdText, hid]
  · obtain ⟨f, -, hbody⟩ := List.exists_of_findSome?_eq_some hb
    obtain ⟨c, -, rfl⟩ := Option.map_eq_some_iff.mp hbody
    rw [entryIdText_of_form P (by simpa using hid) (firstDecoding_attempts hb).1]
    rfl

theorem createMsgObjectFrom_isSome (msgMap : QVariantMap) :
    (createMsgObjectFrom P Q (.map msgMap)).isSome = true ↔ GivesMessage P Q msgMap := by
  have h := congrArg Option.isSome (createMsgObjectFrom_form P Q msgMap)
  rw [Option.isSome_map, Option.isSome_map] at h
  rw [h, entryBody_isSome]

/-- **The assertions of `msgAdded`** about the message an entry gives. -/
theorem recvMsgFrom_asserted_iff (msgMap : QVariantMap) :
    (∀ m ∈ recvMsgFrom P Q (.map msgMap), GuiAppMgr.Asserted P.classes m) ↔
      (GivesMessage P Q msgMap → TimestampProp.getFrom msgMap 0 ≠ 0 →
        TypeProp.getFrom msgMap 0 = MsgType.Received.value ∨
          TypeProp.getFrom msgMap 0 = MsgType.Sent.value ∧ entryIdText P msgMap ≠ []) := by
  rw [← createMsgObjectFrom_isSome]
  cases hm : createMsgObjectFrom P Q (.map msgMap) with
  | none =>
      have hnone : recvMsgFrom P Q (.map msgMap) = none := by
        unfold recvMsgFrom
        rw [hm]
        rfl
      simp [hnone]
  | some m =>
      have hread : recvMsgFrom P Q (.map msgMap) =
          if TimestampProp.getFrom msgMap 0 = 0 then none
          else
            some
              { m with
                timestamp := some (TimestampProp.getFrom msgMap 0)
                type := some ⟨TypeProp.getFrom msgMap 0⟩
                comment := some (CommentProp.getFrom msgMap []) } := by
        unfold recvMsgFrom
        rw [hm]
        rfl
      rw [hread]
      by_cases hts : TimestampProp.getFrom msgMap 0 = 0
      · simp [hts]
      · have hid := createMsgObjectFrom_idAsString P Q hm
        have hvalue : ∀ (n : UInt32) (t : MsgType), (⟨n⟩ : MsgType) = t ↔ n = t.value :=
          fun n t => ⟨fun h => congrArg MsgType.value h, fun h => by rw [h]⟩
        have hasserted : GuiAppMgr.Asserted P.classes { m with
            timestamp := some (TimestampProp.getFrom msgMap 0)
            type := some ⟨TypeProp.getFrom msgMap 0⟩
            comment := some (CommentProp.getFrom msgMap []) } ↔
            (TypeProp.getFrom msgMap 0 = MsgType.Received.value ∨
              TypeProp.getFrom msgMap 0 = MsgType.Sent.value) ∧
              (entryIdText P msgMap = [] → TypeProp.getFrom msgMap 0 = MsgType.Received.value) := by
          rw [← hid, ← hvalue, ← hvalue]
          rfl
        have hne : MsgType.Received.value ≠ MsgType.Sent.value := by decide
        rw [if_neg hts]
        simp only [Option.mem_def, Option.some.injEq, forall_eq', hasserted, ne_eq, hts,
          not_false_eq_true, forall_const, Option.isSome_some]
        constructor
        · rintro ⟨ht | ht, hempty⟩
          · exact .inl ht
          · exact .inr ⟨ht, fun e => hne ((hempty e).symm.trans ht)⟩
        · rintro (ht | ⟨ht, hnonempty⟩)
          · exact ⟨.inl ht, fun _ => ht⟩
          · exact ⟨.inr ht, fun e => absurd e hnonempty⟩

end

end ToolsMsgFileMgr

/-! ### The store -/

/-- A message without the number the store gives it. -/
def ToolsMessage.unnumbered {φ α : Type} (m : ToolsMessage φ α) : ToolsMessage φ α :=
  { m with num := none }

theorem ToolsMessage.getType_congr {φ α : Type} {m m' : ToolsMessage φ α}
    (h : m.unnumbered = m'.unnumbered) : m.getType = m'.getType := by
  have hu : m.unnumbered.getType = m'.unnumbered.getType := by rw [h]
  exact hu

theorem ToolsMessage.getTimestamp_congr {φ α : Type} {m m' : ToolsMessage φ α}
    (h : m.unnumbered = m'.unnumbered) : m.getTimestamp = m'.getTimestamp := by
  have hu : m.unnumbered.getTimestamp = m'.unnumbered.getTimestamp := by rw [h]
  exact hu

namespace MsgMgr
variable {φ α σ : Type}

/-- A message that has a time is only numbered. -/
theorem AddedAs.unnumbered {m m' : ToolsMessage φ α} (h : AddedAs m m')
    (htime : m.getTimestamp ≠ 0) : m'.unnumbered = m.unnumbered := by
  obtain ⟨num, timestamp, rfl, ht⟩ := h
  rw [ht htime]
  rfl

/-- **What `addMsgs` does with messages that have a time**: those with a valid type are stored and
announced in their order, and numbered. -/
theorem addMsgs_timed (ps : List MsgPtr) (now : ℕ) (s : MsgMgr φ α σ)
    (htime : ∀ p ∈ ps, (s.objs p).getTimestamp ≠ 0) :
    ((s.addMsgs (ps.map fun p => (some p, now)) true).m_allMsgs =
        s.m_allMsgs ++ ps.filter fun p => decide ((s.objs p).getType ≠ MsgType.Invalid)) ∧
      (∀ q ∈ ps, ((s.addMsgs (ps.map fun p => (some p, now)) true).objs q).unnumbered =
        (s.objs q).unnumbered) ∧
      ∃ told, (s.addMsgs (ps.map fun p => (some p, now)) true).added = s.added ++ told ∧
        told.map (fun a => a.2.unnumbered) =
          (ps.filter fun p => decide ((s.objs p).getType ≠ MsgType.Invalid)).map fun p =>
            (s.objs p).unnumbered := by
  have hvalid : validMsgs s.objs (ps.map fun p => (some p, now)) =
      ps.filter fun p => decide ((s.objs p).getType ≠ MsgType.Invalid) := by
    unfold validMsgs
    rw [List.filterMap_map]
    exact congrArg _ List.filterMap_some
  obtain ⟨hall, hobjs, told, hadded, htold⟩ := s.addMsgs_addedAs (ps.map fun p => (some p, now))
  rw [hvalid] at hall htold
  refine ⟨hall, fun q hq => (hobjs q).unnumbered (htime q hq), told, hadded, ?_⟩
  have hmap := congrArg (List.map Prod.snd) (map_addedAs ToolsMessage.unnumbered htold
    fun p hp m hm => hm.unnumbered (htime p (List.mem_of_mem_filter hp)))
  rw [List.map_map, List.map_map] at hmap
  exact hmap

end MsgMgr

/-! ### Loading a file -/

namespace GuiAppMgr
variable {φ α σ File : Type}

/-- The heap with the objects `load` makes, one after the other from a pointer on. -/
def allocated (base : MsgPtr) (msgs : List (ToolsMessage φ α)) (objs : MsgPtr → ToolsMessage φ α)
    (p : MsgPtr) : ToolsMessage φ α :=
  if base ≤ p then (msgs[p - base]?).getD (objs p) else objs p

theorem map_allocated (base : MsgPtr) (msgs : List (ToolsMessage φ α))
    (objs : MsgPtr → ToolsMessage φ α) :
    (List.range' base msgs.length).map (allocated base msgs objs) = msgs := by
  apply List.ext_getElem
  · simp
  · intro i h h'
    simp [allocated, h']

/-- `recvLoadMsgsFromFile`, with the pointers and the clock of the new messages. -/
def recvLoadFile (Q : QtFiles File) (base : MsgPtr) (now : ℕ) (file : File)
    (g : GuiAppMgr φ α σ) : GuiAppMgr φ α σ :=
  match g.msgMgr.m_protocol with
  | none => g
  | some P =>
      let msgs := ToolsMsgFileMgr.load P Q .Recv file
      let g := { g with msgMgr := { g.msgMgr with objs := allocated base msgs g.msgMgr.objs } }
      g.recvLoadMsgsFromFile ((List.range' base msgs.length).map fun p => (some p, now))

/-- A received or a sent message. -/
def receivedOrSent (m : ToolsMessage φ α) : Bool :=
  decide (m.getType = MsgType.Received ∨ m.getType = MsgType.Sent)

/-- The entries of a file are loaded without a failed assertion of the three components, and the
store holds the received and the sent messages among them, in the order of the file. -/
structure LoadedSafely (P : ToolsProtocol φ α) (Q : QtFiles File)
    (decodesTransport : DataSeq → Bool) (entries : List QVariant) (g g' : GuiAppMgr φ α σ) :
    Prop where
  created : ∀ v ∈ entries, ToolsMsgFileMgr.CreateAsserted P Q decodesTransport v
  valid : ∀ m ∈ ToolsMsgFileMgr.recvMsgListFrom P Q entries, m.getType ≠ MsgType.Invalid
  announced : ∀ a ∈ g'.msgMgr.added.drop g.msgMgr.added.length, Asserted g.classes a.2
  stored : (g'.msgMgr.m_allMsgs.map fun p => (g'.msgMgr.objs p).unnumbered) =
    ((ToolsMsgFileMgr.recvMsgListFrom P Q entries).filter receivedOrSent).map
      ToolsMessage.unnumbered
  typed : ∀ p ∈ g'.msgMgr.m_allMsgs, receivedOrSent (g'.msgMgr.objs p) = true
  timed : ∀ p ∈ g'.msgMgr.m_allMsgs, (g'.msgMgr.objs p).getTimestamp ≠ 0

theorem recvLoadMsgsFromFile_msgMgr (g : GuiAppMgr φ α σ) (msgs : List (Option MsgPtr × ℕ)) :
    (g.recvLoadMsgsFromFile msgs).msgMgr = g.msgMgr.deleteAllMsgs.addMsgs msgs true := by
  have hmgr : g.dropAllMsgs.msgMgr = g.msgMgr.deleteAllMsgs :=
    congrArg MsgMgr.deleteAllMsgs (clearRecvList_emptied [] g).mgr
  unfold recvLoadMsgsFromFile
  rw [report_msgMgr, hmgr]

section
variable (P : ToolsProtocol φ α) (Q : QtFiles File)

/-- Only messages with a time are loaded. -/
theorem recvMsgListFrom_timed {entries : List QVariant} {m : ToolsMessage φ α}
    (hm : m ∈ ToolsMsgFileMgr.recvMsgListFrom P Q entries) : m.getTimestamp ≠ 0 := by
  obtain ⟨v, -, hm⟩ := List.mem_filterMap.mp hm
  obtain ⟨m', -, hm⟩ := Option.bind_eq_some_iff.mp hm
  dsimp only at hm
  split_ifs at hm with hts
  obtain rfl := Option.some.inj hm
  exact hts

variable {P Q} {file : File} {g : GuiAppMgr φ α σ} (base : MsgPtr) (now : ℕ)

/-- What loading a file does to the message manager. -/
theorem recvLoadFile_msgMgr (hP : g.msgMgr.m_protocol = some P) {msgs : List (ToolsMessage φ α)}
    (hmsgs : ToolsMsgFileMgr.load P Q .Recv file = msgs)
    (htime : ∀ m ∈ msgs, m.getTimestamp ≠ 0) :
    ((g.recvLoadFile Q base now file).msgMgr.m_allMsgs.map fun p =>
        ((g.recvLoadFile Q base now file).msgMgr.objs p).unnumbered) =
      (msgs.filter fun m => decide (m.getType ≠ MsgType.Invalid)).map ToolsMessage.unnumbered ∧
    ((g.recvLoadFile Q base now file).msgMgr.added.drop g.msgMgr.added.length).map
        (fun a => a.2.unnumbered) =
      (msgs.filter fun m => decide (m.getType ≠ MsgType.Invalid)).map ToolsMessage.unnumbered := by
  set mgr := { g.msgMgr with objs := allocated base msgs g.msgMgr.objs, m_allMsgs := [] } with hmgr
  set ps := List.range' base msgs.length with hps
  have hobjs : ps.map mgr.objs = msgs := map_allocated base msgs g.msgMgr.objs
  have hload : (g.recvLoadFile Q base now file).msgMgr =
      mgr.addMsgs (ps.map fun p => (some p, now)) true := by
    unfold recvLoadFile
    rw [hP]
    dsimp only
    rw [recvLoadMsgsFromFile_msgMgr, hmsgs]
    rfl
  have htimes : ∀ p ∈ ps, (mgr.objs p).getTimestamp ≠ 0 := by
    intro p hp
    apply htime
    rw [← hobjs]
    exact List.mem_map_of_mem hp
  obtain ⟨hall, hsame, told, hadded, htold⟩ := mgr.addMsgs_timed ps now htimes
  have hkept : (ps.filter fun p => decide ((mgr.objs p).getType ≠ MsgType.Invalid)).map
      (fun p => (mgr.objs p).unnumbered) =
      (msgs.filter fun m => decide (m.getType ≠ MsgType.Invalid)).map ToolsMessage.unnumbered := by
    rw [← hobjs, List.filter_map, List.map_map]
    rfl
  rw [hload, hall, hadded]
  constructor
  · show (ps.filter _).map _ = _
    rw [← hkept]
    exact List.map_congr_left fun p hp => hsame p (List.mem_of_mem_filter hp)
  · show ((g.msgMgr.added ++ told).drop _).map _ = _
    rw [List.drop_left, htold, hkept]

/-- All entries keep the assertions about their type. -/
theorem recvMsgListFrom_asserted_iff (entries : List QVariant) :
    (∀ m ∈ ToolsMsgFileMgr.recvMsgListFrom P Q entries, Asserted P.classes m) ↔
      ∀ v ∈ entries, ∀ m ∈ ToolsMsgFileMgr.recvMsgFrom P Q v, Asserted P.classes m := by
  unfold ToolsMsgFileMgr.recvMsgListFrom
  simp only [List.mem_filterMap]
  constructor
  · intro h v hv m hm
    exact h m ⟨v, hv, hm⟩
  · rintro h m ⟨v, hv, hm⟩
    exact h v hv m hm

/-- An entry fits if and only if it keeps all assertions. -/
theorem entryFits_iff (decodesTransport : DataSeq → Bool) (v : QVariant) :
    (∀ msgMap, v.toMap = some msgMap →
        ToolsMsgFileMgr.EntryFits P Q decodesTransport msgMap) ↔
      ToolsMsgFileMgr.CreateAsserted P Q decodesTransport v ∧
        ∀ m ∈ ToolsMsgFileMgr.recvMsgFrom P Q v, Asserted P.classes m := by
  cases v with
  | map msgMap =>
      have hmap : ∀ msgMap', (QVariant.map msgMap).toMap = some msgMap' ↔ msgMap = msgMap' :=
        fun _ => Option.some_inj
      rw [ToolsMsgFileMgr.createAsserted_iff, ToolsMsgFileMgr.recvMsgFrom_asserted_iff]
      simp only [hmap, forall_eq']
      constructor
      · intro h
        exact ⟨⟨h.digits, h.garbage, h.framed⟩, h.typed⟩
      · rintro ⟨⟨hdigits, hgarbage, hframed⟩, htyped⟩
        exact ⟨hdigits, hgarbage, hframed, htyped⟩
  | _ =>
      refine iff_of_true (fun msgMap h => ?_) ⟨trivial, fun m hm => ?_⟩
      · cases h
      · cases hm

/-- **A file of received messages is loaded safely** if and only if every entry of it fits. -/
theorem loadedSafely_iff (decodesTransport : DataSeq → Bool) {entries : List QVariant}
    (hP : g.msgMgr.m_protocol = some P) (hC : g.classes = P.classes)
    (hfile : Q.fromJson file = some entries) :
    LoadedSafely P Q decodesTransport entries g (g.recvLoadFile Q base now file) ↔
      ∀ v ∈ entries, ∀ msgMap, v.toMap = some msgMap →
        ToolsMsgFileMgr.EntryFits P Q decodesTransport msgMap := by
  have hmsgs : ToolsMsgFileMgr.load P Q .Recv file =
      ToolsMsgFileMgr.recvMsgListFrom P Q entries := by
    simp only [ToolsMsgFileMgr.load, hfile]
  obtain ⟨hstored, hadded⟩ := recvLoadFile_msgMgr base now hP hmsgs
    fun m hm => recvMsgListFrom_timed P Q hm
  simp only [entryFits_iff]
  set msgs := ToolsMsgFileMgr.recvMsgListFrom P Q entries with hmsgs'
  set mgr := (g.recvLoadFile Q base now file).msgMgr with hmgr
  have hvalid : ∀ m : ToolsMessage φ α, Asserted P.classes m → m.getType ≠ MsgType.Invalid := by
    rintro m ⟨h | h, -⟩ hinv
    · exact absurd (h.symm.trans hinv) (by decide)
    · exact absurd (h.symm.trans hinv) (by decide)
  constructor
  · intro h v hv
    refine ⟨h.created v hv, ?_⟩
    refine (recvMsgListFrom_asserted_iff entries).mp (fun m hm => ?_) v hv
    -- a message that is not skipped is announced, up to its number
    have hmem : m.unnumbered ∈ (mgr.added.drop g.msgMgr.added.length).map
        (fun a => a.2.unnumbered) := by
      rw [hadded]
      exact List.mem_map_of_mem (List.mem_filter.mpr ⟨hm, decide_eq_true (h.valid m hm)⟩)
    obtain ⟨a, ha, hnum⟩ := List.mem_map.mp hmem
    have has := h.announced a ha
    rw [hC] at has
    have hasn : Asserted P.classes a.2.unnumbered := has
    rw [hnum] at hasn
    exact hasn
  · intro h
    have has : ∀ m ∈ msgs, Asserted P.classes m :=
      (recvMsgListFrom_asserted_iff entries).mpr fun v hv => (h v hv).2
    have hkept : (msgs.filter fun m => decide (m.getType ≠ MsgType.Invalid)) = msgs :=
      List.filter_eq_self.mpr fun m hm => decide_eq_true (hvalid m (has m hm))
    have hboth : msgs.filter receivedOrSent = msgs :=
      List.filter_eq_self.mpr fun m hm => decide_eq_true (has m hm).1
    rw [hkept] at hstored hadded
    -- what is stored is, up to its number, a message of the file
    have hfrom : ∀ p ∈ mgr.m_allMsgs, ∃ m ∈ msgs, (mgr.objs p).unnumbered = m.unnumbered := by
      intro p hp
      have hmem : (mgr.objs p).unnumbered ∈ msgs.map ToolsMessage.unnumbered := by
        rw [← hstored]
        exact List.mem_map_of_mem (f := fun p => (mgr.objs p).unnumbered) hp
      obtain ⟨m, hm, he⟩ := List.mem_map.mp hmem
      exact ⟨m, hm, he.symm⟩
    refine ⟨fun v hv => (h v hv).1, fun m hm => hvalid m (has m hm), fun a ha => ?_, ?_,
      fun p hp => ?_, fun p hp => ?_⟩
    · have hmem : a.2.unnumbered ∈ msgs.map ToolsMessage.unnumbered := by
        rw [← hadded]
        exact List.mem_map_of_mem (f := fun a : MsgPtr × ToolsMessage φ α => a.2.unnumbered) ha
      obtain ⟨m, hm, he⟩ := List.mem_map.mp hmem
      have hasm : Asserted P.classes m.unnumbered := has m hm
      rw [he] at hasm
      rw [hC]
      exact hasm
    · rw [hboth]
      exact hstored
    · obtain ⟨m, hm, he⟩ := hfrom p hp
      unfold receivedOrSent
      rw [ToolsMessage.getType_congr he]
      exact decide_eq_true (has m hm).1
    · obtain ⟨m, hm, he⟩ := hfrom p hp
      rw [ToolsMessage.getTimestamp_congr he]
      exact recvMsgListFrom_timed P Q hm

end

/-! ### Two sample files -/

/-- A message of one byte, with and without its type. -/
def typedEntry : QVariantMap :=
  [(['d', 'a', 't', 'a'], .string ['0', '5']), (['i', 'd'], .string ['1']),
    (['t', 'i', 'm', 'e', 's', 't', 'a', 'm', 'p'], .number 1), (['t', 'y', 'p', 'e'], .number 1)]

def untypedEntry : QVariantMap :=
  [(['d', 'a', 't', 'a'], .string ['0', '5']), (['i', 'd'], .string ['1']),
    (['t', 'i', 'm', 'e', 's', 't', 'a', 'm', 'p'], .number 1)]

theorem loadedSafely_iff_typed :
    LoadedSafely markedProtocol ToolsMsgFileMgr.sampleFiles ToolsProtocol.decodesSync
      [.map typedEntry] markedApp
      (markedApp.recvLoadFile ToolsMsgFileMgr.sampleFiles 10 0 [.map typedEntry]) := by
  refine (loadedSafely_iff 10 0 ToolsProtocol.decodesSync rfl rfl rfl).mpr
    fun v hv msgMap hmap => ?_
  obtain rfl := List.mem_singleton.mp hv
  obtain rfl := Option.some.inj hmap
  have htext : ToolsMsgFileMgr.DataProp.getFrom typedEntry [] = ['0', '5'] := rfl
  have hid : ToolsMsgFileMgr.IdProp.getFrom typedEntry [] = ['1'] := rfl
  refine ⟨fun c hc _ => ?_, fun h => ?_, fun _ f c h _ => ?_, fun _ _ => .inl rfl⟩
  · rw [htext] at hc
    rcases List.mem_pair.mp hc with rfl | rfl <;> decide
  · rw [hid] at h
    cases h
  obtain ⟨-, hread⟩ := ToolsMsgFileMgr.firstDecoding_attempts h
  obtain rfl : (5 : UInt8) = c := Option.some.inj hread
  exact ⟨trivial, rfl⟩

/-- Without its type the message fails an assertion of `addMsgs`. -/
theorem load_untyped_asserts :
    ¬ LoadedSafely markedProtocol ToolsMsgFileMgr.sampleFiles ToolsProtocol.decodesSync
      [.map untypedEntry] markedApp
      (markedApp.recvLoadFile ToolsMsgFileMgr.sampleFiles 10 0 [.map untypedEntry]) := by
  intro h
  have hread : (ToolsMsgFileMgr.recvMsgListFrom markedProtocol ToolsMsgFileMgr.sampleFiles
      [.map untypedEntry]).map ToolsMessage.getType = [MsgType.Invalid] := rfl
  have hmem : MsgType.Invalid ∈ (ToolsMsgFileMgr.recvMsgListFrom markedProtocol
      ToolsMsgFileMgr.sampleFiles [.map untypedEntry]).map ToolsMessage.getType := by
    rw [hread]
    exact List.mem_cons_self
  obtain ⟨m, hm, ht⟩ := List.mem_map.mp hmem
  exact h.valid m hm ht

end GuiAppMgr

end CcToolsQt
