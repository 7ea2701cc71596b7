import CcToolsQt.Forms

/-! # Messages files

`ToolsMsgFileMgr` writes a list of messages to a JSON array of one object a message and reads it
back: the received messages with timestamp and type, the send list with delays and repeats.  A
message is identified by its id text and its index; its payload is written as hexadecimal bytes.
The opening and renaming of files is left out: `save` is the content written, `load` is given it.

* `dataFromStr_dataStr`: the bytes of a payload are read back.
* `createFromData_eq`: which form a payload is read as. -/

namespace CcToolsQt

/-- What the file manager uses of Qt: `QJsonDocument` with the conversions between JSON arrays
and lists of variants (`none` for a file that is not an array), and `QChar::isDigit`, which is
true of other digits than the ASCII ones as well. -/
structure QtFiles (File : Type) where
  toJson : List QVariant → File
  fromJson : File → Option (List QVariant)
  fromJson_toJson : ∀ l, fromJson (toJson l) = some l
  isDigit : Char → Bool
  isDigit_ascii : ∀ c : Char, c.toNat < 128 → isDigit c = c.isDigit

namespace ToolsMsgFileMgr
variable {φ α File : Type}

/-! ### The entries of an object -/

def IdProp := ToolsMsgPropBase.ofQString ['i', 'd']
def MsgIdxProp := ToolsMsgPropBase.ofUInt32 ['m', 's', 'g', '_', 'i', 'd', 'x']
def DataProp := ToolsMsgPropBase.ofQString ['d', 'a', 't', 'a']
def DelayProp := ToolsMsgPropBase.ofUInt64 ['d', 'e', 'l', 'a', 'y']
def DelayUnitsProp :=
  ToolsMsgPropBase.ofQString ['d', 'e', 'l', 'a', 'y', '_', 'u', 'n', 'i', 't', 's']
def RepeatProp := ToolsMsgPropBase.ofUInt64 ['r', 'e', 'p', 'e', 'a', 't']
def RepeatUnitsProp :=
  ToolsMsgPropBase.ofQString ['r', 'e', 'p', 'e', 'a', 't', '_', 'u', 'n', 'i', 't', 's']
def RepeatCountProp :=
  ToolsMsgPropBase.ofUInt32 ['r', 'e', 'p', 'e', 'a', 't', '_', 'c', 'o', 'u', 'n', 't']
def CommentProp := ToolsMsgPropBase.ofQString ['c', 'o', 'm', 'm', 'e', 'n', 't']
def TimestampProp := ToolsMsgPropBase.ofUInt64 ['t', 'i', 'm', 'e', 's', 't', 'a', 'm', 'p']
def TypeProp := ToolsMsgPropBase.ofUInt32 ['t', 'y', 'p', 'e']
def ExtraPropsProp := ToolsMsgPropBase.ofMap ['e', 'x', 't', 'r', 'a', '_', 'i', 'n', 'f', 'o']

/-- A text or a map is written only when it is not empty. -/
def setNonEmpty {β : Type} (Q : ToolsMsgPropBase (List β)) (val : List β) (map : QVariantMap) :
    QVariantMap :=
  if val.isEmpty then map else Q.setTo val map

/-! ### Payloads -/

/-- One byte: two hexadecimal digits. -/
def byteStr (b : UInt8) : QString := QString.leftPadded 2 '0' (QString.number16 b.toNat)

/-- The bytes of a payload with blanks between them. -/
def dataStr (data : DataSeq) : QString :=
  data.foldl (fun s b => (if s.isEmpty then s else s ++ [' ']) ++ byteStr b) []

/-- `encodeMsgData`. -/
def encodeMsgData (C : MsgClasses φ α) (msg : ToolsMessage φ α) : QString :=
  dataStr (if (msg.idAsString C).isEmpty then msg.rawDataMsg.getD [] else msg.encodeData C)

section
variable (Q : QtFiles File)

/-- The characters that are kept of a data text. -/
def isDataChar (ch : Char) : Bool :=
  Q.isDigit ch || ('A' ≤ ch && ch ≤ 'F') || ('a' ≤ ch && ch ≤ 'f')

/-- The bytes of pairs of digits; a pair that spells no number is a zero byte. -/
def bytesOf : QString → DataSeq
  | a :: b :: s => UInt8.ofNat ((QString.integerVal 16 [a, b]).getD 0).toNat :: bytesOf s
  | _ => []

/-- The payload a data text stands for. -/
def dataFromStr (s : QString) : DataSeq :=
  let striped := s.filter (isDataChar Q)
  bytesOf (if striped.length % 2 ≠ 0 then '0' :: striped else striped)

end

/-! ### Reading a message -/

section
variable (P : ToolsProtocol φ α)

/-- The form of a given number, if it reads the payload. -/
def createDecoded (msgId : QString) (data : DataSeq) (idx : UInt32) : Option (ToolsMessage φ α) :=
  (P.createMessage msgId idx).bind fun msg => msg.decodeData P.classes data

/-- The loop over the forms of an id until one reads the payload, or none is left. -/
def guessForm (msgId : QString) (data : DataSeq) : ℕ → UInt32 → Option (ToolsMessage φ α)
  | 0, _ => none
  | fuel + 1, idx =>
      if (P.createMessage msgId idx).isNone then none
      else
        match createDecoded P msgId data idx with
        | some msg => some msg
        | none => guessForm msgId data fuel (idx + 1)

/-- The form of the stored number is tried first, then all of them; `guessForm_eq` says that the
rounds are enough. -/
def createFromData (msgId : QString) (msgIdx : UInt32) (data : DataSeq) :
    Option (ToolsMessage φ α) :=
  match if msgIdx = 0 then none else createDecoded P msgId data msgIdx with
  | some msg => some msg
  | none => guessForm P msgId data (P.m_frame.m_factory.m_defaultMsgs.length + 1) 0

/-- Extra info is attached only when there is some. -/
def withExtraInfo (extraInfo : QVariantMap) (msg : ToolsMessage φ α) : ToolsMessage φ α :=
  if extraInfo.isEmpty then msg else { msg with extraInfo := some extraInfo }

variable (Q : QtFiles File)

/-- `createMsgObjectFrom`. -/
def createMsgObjectFrom (msgMapVar : QVariant) : Option (ToolsMessage φ α) :=
  match msgMapVar.toMap with
  | none => none
  | some msgMap =>
      let msgId := IdProp.getFrom msgMap []
      let dataText := DataProp.getFrom msgMap []
      if msgId.isEmpty && dataText.isEmpty then none
      else
        let data := dataFromStr Q dataText
        let extraInfo := ExtraPropsProp.getFrom msgMap []
        if msgId.isEmpty then
          let msg := P.createInvalidMessage data
          if extraInfo.isEmpty then some msg
          else some (P.updateMessage (withExtraInfo extraInfo msg)).1
        else
          (createFromData P msgId (MsgIdxProp.getFrom msgMap 0) data).map fun msg =>
            (P.updateMessage (withExtraInfo extraInfo msg)).1

/-! ### Received messages -/

/-- `convertRecvMsg`. -/
def convertRecvMsg (msg : ToolsMessage φ α) : QVariantMap :=
  let idStr := msg.idAsString P.classes
  let dataStr := encodeMsgData P.classes msg
  if idStr.isEmpty && dataStr.isEmpty then []
  else
    let map := if idStr.isEmpty then [] else MsgIdxProp.setTo msg.getIdx (IdProp.setTo idStr [])
    let map := TypeProp.setTo msg.getType.value
      (TimestampProp.setTo msg.getTimestamp (DataProp.setTo dataStr map))
    setNonEmpty ExtraPropsProp msg.getExtraInfo (setNonEmpty CommentProp msg.getComment map)

def convertRecvMsgList (allMsgs : List (ToolsMessage φ α)) : List QVariant :=
  allMsgs.filterMap fun msg =>
    let msgInfoMap := convertRecvMsg P msg
    if msgInfoMap.isEmpty then none else some (.map msgInfoMap)

/-- One round of the reading loop; a message without a timestamp is skipped. -/
def recvMsgFrom (msgMapVar : QVariant) : Option (ToolsMessage φ α) :=
  (createMsgObjectFrom P Q msgMapVar).bind fun msg =>
    let msgMap := msgMapVar.toMap.getD []
    let timestamp := TimestampProp.getFrom msgMap 0
    if timestamp = 0 then none
    else
      some
        { msg with
          timestamp := some timestamp
          type := some ⟨TypeProp.getFrom msgMap 0⟩
          comment := some (CommentProp.getFrom msgMap []) }

def recvMsgListFrom (msgs : List QVariant) : List (ToolsMessage φ α) :=
  msgs.filterMap (recvMsgFrom P Q)

/-! ### The send list -/

/-- The object written for a message of the send list. -/
def convertSendMsg (msg : ToolsMessage φ α) : QVariantMap :=
  let map := MsgIdxProp.setTo msg.getIdx (IdProp.setTo (msg.idAsString P.classes) [])
  let map := DelayProp.setTo msg.getDelay (DataProp.setTo (encodeMsgData P.classes msg) map)
  let map := RepeatProp.setTo msg.getRepeatDuration (DelayUnitsProp.setTo msg.getDelayUnits map)
  let map := RepeatCountProp.setTo (msg.getRepeatCount 1)
    (RepeatUnitsProp.setTo msg.getRepeatDurationUnits map)
  setNonEmpty ExtraPropsProp msg.getExtraInfo (setNonEmpty CommentProp msg.getComment map)

def convertSendMsgList (allMsgs : List (ToolsMessage φ α)) : List QVariant :=
  allMsgs.map fun msg => .map (convertSendMsg P msg)

/-- The delay of a message, its repeat count and the timestamp for the messages after it: a
received message is sent after the time that passed since the one before. -/
def sendTiming (prevTimestamp : UInt64) (msgMap : QVariantMap) : UInt64 × UInt32 × UInt64 :=
  let delay := DelayProp.getFrom msgMap 0
  let repeatCount := RepeatCountProp.getFrom msgMap 0
  if RepeatProp.getFrom msgMap 0 = 0 ∧ repeatCount = 0 then
    let timestamp := TimestampProp.getFrom msgMap 0
    if delay ≠ 0 ∨ timestamp = 0 then (delay, 1, prevTimestamp)
    else
      let prevTimestamp := if prevTimestamp = 0 then timestamp else prevTimestamp
      let delayTmp := timestamp - prevTimestamp
      if delayTmp = 0 then (delay, 1, prevTimestamp) else (delayTmp, 1, timestamp)
  else (delay, repeatCount, prevTimestamp)

/-- The reading loop. -/
def sendMsgListFrom (prevTimestamp : UInt64) : List QVariant → List (ToolsMessage φ α)
  | [] => []
  | msgMapVar :: msgs =>
      match createMsgObjectFrom P Q msgMapVar with
      | none => sendMsgListFrom prevTimestamp msgs
      | some msg =>
          let msgMap := msgMapVar.toMap.getD []
          let timing := sendTiming prevTimestamp msgMap
          { msg with
            delay := some timing.1
            delayUnits := some (DelayUnitsProp.getFrom msgMap [])
            repeatDuration := some (RepeatProp.getFrom msgMap 0)
            repeatDurationUnits := some (RepeatUnitsProp.getFrom msgMap [])
            repeatCount := some timing.2.1
            comment := some (CommentProp.getFrom msgMap []) } :: sendMsgListFrom timing.2.2 msgs

end

/-! ### Files -/

/-- `ToolsMsgFileMgr::Type`. -/
inductive FileType where
  | Recv
  | Send

section
variable (P : ToolsProtocol φ α) (Q : QtFiles File)

/-- `save`: the file that is written. -/
def save (type : FileType) (msgs : List (ToolsMessage φ α)) : File :=
  match type with
  | .Recv => Q.toJson (convertRecvMsgList P msgs)
  | .Send => Q.toJson (convertSendMsgList P msgs)

/-- `load`: no messages from a file that is not an array. -/
def load (type : FileType) (file : File) : List (ToolsMessage φ α) :=
  match Q.fromJson file, type with
  | none, _ => []
  | some msgs, .Recv => recvMsgListFrom P Q msgs
  | some msgs, .Send => sendMsgListFrom P Q 0 msgs

end

/-! ### Payloads are read back -/

theorem byteStr_eq (b : UInt8) :
    byteStr b = [Nat.digitChar (b.toNat / 16), Nat.digitChar (b.toNat % 16)] := by
  have hb : b.toNat < 256 := b.toNat_lt
  have e : ((b.toNat : ℤ) % 2 ^ 64).toNat = b.toNat := by omega
  have hd : b.toNat / 16 < 16 := by omega
  unfold byteStr QString.leftPadded QString.number16
  rw [e, Nat.toDigits_eq_if (by omega)]
  split_ifs with h
  · rw [Nat.div_eq_of_lt h, Nat.mod_eq_of_lt h]
    rfl
  · rw [Nat.toDigits_eq_if (by omega), if_pos hd]
    rfl

/-- A pair of digits is read as a byte. -/
theorem integerVal_chars {c c' : Char} {a b : ℕ}
    (hspace : ∀ ch ∈ [c, c'], QString.isSpace ch = false)
    (hsign : c ≠ '-' ∧ c ≠ '+') (hx : c' ≠ 'x' ∧ c' ≠ 'X') (ha : QString.digitVal 16 c = some a)
    (hb : QString.digitVal 16 c' = some b) :
    QString.integerVal 16 [c, c'] = some ((a * 16 + b : ℕ) : ℤ) := by
  have hstripped : QString.withoutPrefix 16 [c, c'] = [c, c'] := by
    simp only [QString.withoutPrefix, if_true]
    split
    · simp_all
    · simp_all
    · rfl
  unfold QString.integerVal
  rw [QString.trimmed_eq hspace]
  split
  · simp_all
  · simp_all
  · rw [hstripped]
    simp [QString.unsignedVal, QString.digitsVal, ha, hb]

theorem integerVal_pair {a b : ℕ} (ha : a < 16) (hb : b < 16) :
    QString.integerVal 16 [Nat.digitChar a, Nat.digitChar b] = some ((a * 16 + b : ℕ) : ℤ) := by
  obtain ⟨hminus, hplus, -, -⟩ := QString.digitChar_ne ha
  obtain ⟨-, -, hx, hX⟩ := QString.digitChar_ne hb
  refine integerVal_chars ?_ ⟨hminus, hplus⟩ ⟨hx, hX⟩ (QString.digitVal_digitChar le_rfl ha)
    (QString.digitVal_digitChar le_rfl hb)
  intro c hc
  rcases List.mem_pair.mp hc with rfl | rfl
  · exact QString.isSpace_digitChar ha
  · exact QString.isSpace_digitChar hb

section
variable (Q : QtFiles File)

theorem isDataChar_digitChar {d : ℕ} (h : d < 16) : isDataChar Q (Nat.digitChar d) = true := by
  by_cases h10 : d < 10
  · have hd : Q.isDigit (Nat.digitChar d) = true := by
      interval_cases d <;> exact Q.isDigit_ascii _ (by decide)
    simp [isDataChar, hd]
  · -- the digits `a` to `f`
    have hlo : 'a' ≤ Nat.digitChar d ∧ Nat.digitChar d ≤ 'f' := by
      interval_cases d <;> first | omega | decide
    simp [isDataChar, hlo]

theorem isDataChar_blank : isDataChar Q ' ' = false := by
  have hd : Q.isDigit ' ' = false := Q.isDigit_ascii _ (by decide)
  simp [isDataChar, hd]

theorem filter_byteStr (b : UInt8) : (byteStr b).filter (isDataChar Q) = byteStr b := by
  have hb : b.toNat < 256 := b.toNat_lt
  have hdiv : b.toNat / 16 < 16 := by omega
  have hmod : b.toNat % 16 < 16 := by omega
  simp [byteStr_eq, isDataChar_digitChar Q hdiv, isDataChar_digitChar Q hmod]

/-- Without the blanks a data text is the digits of its bytes. -/
theorem filter_dataStr (data : DataSeq) :
    (dataStr data).filter (isDataChar Q) = data.flatMap byteStr := by
  have h : ∀ s : QString,
      (data.foldl (fun s b => (if s.isEmpty then s else s ++ [' ']) ++ byteStr b) s).filter
        (isDataChar Q) = s.filter (isDataChar Q) ++ data.flatMap byteStr := by
    induction data with
    | nil => simp
    | cons b data ih =>
        intro s
        rw [List.foldl_cons, ih, List.filter_append, filter_byteStr, List.flatMap_cons,
          ← List.append_assoc]
        split_ifs
        · rfl
        · simp [List.filter_append, isDataChar_blank]
  exact h []

theorem bytesOf_flatMap (data : DataSeq) : bytesOf (data.flatMap byteStr) = data := by
  induction data with
  | nil => rfl
  | cons b data ih =>
      have hb : b.toNat < 256 := b.toNat_lt
      have e : b.toNat / 16 * 16 + b.toNat % 16 = b.toNat := by omega
      rw [List.flatMap_cons, byteStr_eq]
      simp only [List.cons_append, List.nil_append, bytesOf]
      rw [integerVal_pair (by omega) (by omega), e, ih]
      simp

/-- **A payload is read back** from the text written for it. -/
theorem dataFromStr_dataStr (data : DataSeq) : dataFromStr Q (dataStr data) = data := by
  have hlen : (data.flatMap byteStr).length % 2 = 0 := by
    induction data with
    | nil => rfl
    | cons b data ih =>
        rw [List.flatMap_cons, List.length_append, byteStr_eq]
        simp only [List.length_cons, List.length_nil]
        omega
  simp only [dataFromStr, filter_dataStr, hlen]
  exact bytesOf_flatMap data

end

/-! ### Which form reads a payload -/

/-- The forms in the order they are tried. -/
def attempts (msgIdx : UInt32) (forms : List φ) : List φ :=
  (if msgIdx = 0 then [] else forms[msgIdx.toNat]?.toList) ++ forms

/-- The object of the first form that reads a payload. -/
def firstDecoding (C : MsgClasses φ α) (data : DataSeq) (forms : List φ) : Option (Body φ α) :=
  forms.findSome? fun f => (C.doRead f data).map (.prot f)

section
variable {C : MsgClasses φ α} {data : DataSeq} {f : φ} {fs : List φ}

theorem firstDecoding_cons_some {c : α} (h : C.doRead f data = some c) :
    firstDecoding C data (f :: fs) = some (.prot f c) := by
  simp [firstDecoding, h]

theorem firstDecoding_cons_none (h : C.doRead f data = none) :
    firstDecoding C data (f :: fs) = firstDecoding C data fs := by
  simp [firstDecoding, h]

end

section
variable (P : ToolsProtocol φ α)

theorem createDecoded_eq (msgId : QString) (data : DataSeq) (idx : UInt32) :
    createDecoded P msgId data idx =
      (firstDecoding P.classes data
        ((P.m_frame.m_factory.formsOfText msgId)[idx.toNat]?.toList)).map fun b =>
          { body := b, idx := some idx } := by
  unfold createDecoded firstDecoding
  rw [P.createMessage_eq]
  cases (P.m_frame.m_factory.formsOfText msgId)[idx.toNat]? with
  | none => rfl
  | some f =>
      simp only [Option.map_some, Option.bind_some, ToolsMessage.decodeData, Option.toList_some,
        List.findSome?_cons, List.findSome?_nil]
      cases P.classes.doRead f data <;> rfl

/-- The loop finds the first form from `idx` on that reads the payload. -/
theorem guessForm_eq (msgId : QString) (data : DataSeq) (fuel : ℕ) (idx : UInt32)
    (hfuel : (P.m_frame.m_factory.formsOfText msgId).length < idx.toNat + fuel) :
    ∃ i, guessForm P msgId data fuel idx =
      (firstDecoding P.classes data ((P.m_frame.m_factory.formsOfText msgId).drop idx.toNat)).map
        fun b => { body := b, idx := some i } := by
  induction fuel generalizing idx with
  | zero =>
      rw [List.drop_eq_nil_of_le (by omega)]
      exact ⟨0, rfl⟩
  | succ fuel ih =>
      have hlen := P.m_frame.m_factory.length_formsOfText msgId
      have hbound := P.m_frame.m_factory.length_lt
      unfold guessForm
      rw [P.createMessage_eq, createDecoded_eq]
      set forms := P.m_frame.m_factory.formsOfText msgId
      rcases Nat.lt_or_ge idx.toNat forms.length with hlt | hge
      · have hnext : (idx + 1).toNat = idx.toNat + 1 := by
          rw [UInt32.toNat_add]
          have : (1 : UInt32).toNat = 1 := rfl
          omega
        rw [List.getElem?_eq_getElem hlt, List.drop_eq_getElem_cons hlt]
        cases hread : P.classes.doRead forms[idx.toNat] data with
        | some c =>
            refine ⟨idx, ?_⟩
            rw [Option.toList_some, firstDecoding_cons_some hread, firstDecoding_cons_some hread]
            rfl
        | none =>
            obtain ⟨i, hi⟩ := ih (idx + 1) (by omega)
            rw [hnext] at hi
            refine ⟨i, ?_⟩
            rw [Option.toList_some, firstDecoding_cons_none hread, firstDecoding_cons_none hread]
            exact hi
      · refine ⟨0, ?_⟩
        rw [List.getElem?_eq_none hge, List.drop_eq_nil_of_le hge]
        simp [firstDecoding]

/-- **A payload is read as the first form tried that accepts it.** -/
theorem createFromData_eq (msgId : QString) (msgIdx : UInt32) (data : DataSeq) :
    ∃ i, createFromData P msgId msgIdx data =
      (firstDecoding P.classes data
        (attempts msgIdx (P.m_frame.m_factory.formsOfText msgId))).map
          fun b => { body := b, idx := some i } := by
  have hlen := P.m_frame.m_factory.length_formsOfText msgId
  obtain ⟨i, hi⟩ := guessForm_eq P msgId data (P.m_frame.m_factory.m_defaultMsgs.length + 1) 0
    (by have : (0 : UInt32).toNat = 0 := rfl
        omega)
  have hzero : (0 : UInt32).toNat = 0 := rfl
  rw [hzero, List.drop_zero] at hi
  unfold createFromData attempts
  rw [hi, createDecoded_eq]
  set forms := P.m_frame.m_factory.formsOfText msgId
  split_ifs with h0
  · exact ⟨i, rfl⟩
  · rw [firstDecoding, firstDecoding, firstDecoding, List.findSome?_append]
    cases List.findSome? (fun f => (P.classes.doRead f data).map (Body.prot f))
        forms[msgIdx.toNat]?.toList with
    | none => exact ⟨i, rfl⟩
    | some b => exact ⟨msgIdx, rfl⟩

end

end ToolsMsgFileMgr

end CcToolsQt
