import CcToolsQt.FrameStream

/-! # The protocol object

`ToolsProtocol` puts its own properties on the messages of its frame and clones, refreshes and
creates them.  The branches on an empty `idAsString()`, which the source takes for "this is an
invalid message", are kept as they stand.

* `readAll_eq`: what the protocol reads is what its frame reads, named.
* `updateMessage_eq` and `cloneMessage_eq` say all that these two operations change.
* `IsCopy` is what a message and its clones have in common. -/

namespace CcToolsQt

/-- A protocol plugin's object: its name and its frame. -/
structure ToolsProtocol (φ α : Type) where
  name : QString
  m_frame : ToolsFrame φ α

namespace ToolsProtocol
variable {φ α : Type} (P : ToolsProtocol φ α)

/-- The message classes of the plugin. -/
abbrev classes : MsgClasses φ α := P.m_frame.classes

def setNameToMessageProperties (msg : ToolsMessage φ α) : ToolsMessage φ α :=
  { msg with protocolName := some P.name }

/-- `read`: the frame's messages, each with the name of the protocol. -/
def read (s : FrameState) (dataInfo : ToolsDataInfo) (final : Bool) :
    FrameState × List (ToolsMessage φ α) :=
  let r := P.m_frame.readDataImpl s dataInfo final
  (r.1, r.2.map P.setNameToMessageProperties)

/-- `write`: a message without id text is sent as its raw data. -/
def write (now : ℕ) (msg : ToolsMessage φ α) : Option ToolsDataInfo :=
  if (msg.idAsString P.classes).isEmpty then
    msg.rawDataMsg.map fun data => { m_timestamp := now, m_data := data }
  else
    some
      { m_timestamp := now
        m_data := P.m_frame.encodeFramed msg
        m_extraProperties := msg.getExtraInfo }

/-- `UpdateStatus`. -/
inductive UpdateStatus where
  | NoChange
  | Changed
  deriving DecidableEq

/-- `updateMessage`. -/
def updateMessage (msg : ToolsMessage φ α) : ToolsMessage φ α × UpdateStatus :=
  if (msg.idAsString P.classes).isEmpty then
    if msg.getExtraInfo.isEmpty then ({ msg with extraInfoMsg := none }, .NoChange)
    else ({ msg with extraInfoMsg := some (P.m_frame.toJson msg.getExtraInfo) }, .NoChange)
  else
    let refreshed := msg.refreshMsg P.classes
    (P.m_frame.updateMessageImpl refreshed.1, if refreshed.2 then .Changed else .NoChange)

/-- The loop of `createAllMessages`: messages of one id text in a row are numbered. -/
def numberMessages (prevId : QString) (prevIdx : UInt32) :
    List (ToolsMessage φ α) → List (ToolsMessage φ α)
  | [] => []
  | msg :: msgs =>
      let idx := if prevId = msg.idAsString P.classes then prevIdx + 1 else 0
      let msg' := P.setNameToMessageProperties { msg with idx := some idx }
      (P.updateMessage { msg' with forceExtraInfoExistence := some true }).1 ::
        numberMessages (msg.idAsString P.classes) idx msgs

def createAllMessages : List (ToolsMessage φ α) :=
  P.numberMessages [] 0 P.m_frame.m_factory.createAllMessages

def createMessage (idAsString : QString) (idx : UInt32) : Option (ToolsMessage φ α) :=
  (P.m_frame.m_factory.createMessageFromString idAsString idx).map fun msg =>
    { msg with idx := some idx }

/-- `createInvalidMessage(data)`; the raw-data message accepts any bytes. -/
def createInvalidMessage (data : DataSeq) : ToolsMessage φ α :=
  { P.setNameToMessageProperties ToolsFrame.createInvalidMessage with rawDataMsg := some data }

/-- `copyCommonProperties` of `cloneMessage`. -/
def copyCommonProperties (src dst : ToolsMessage φ α) : ToolsMessage φ α :=
  { dst with
    delay := ToolsMessage.copyFromTo src.delay dst.delay
    delayUnits := ToolsMessage.copyFromTo src.delayUnits dst.delayUnits
    repeatDuration := ToolsMessage.copyFromTo src.repeatDuration dst.repeatDuration
    repeatDurationUnits := ToolsMessage.copyFromTo src.repeatDurationUnits dst.repeatDurationUnits
    repeatCount := ToolsMessage.copyFromTo src.repeatCount dst.repeatCount
    comment := ToolsMessage.copyFromTo src.comment dst.comment }

def cloneMessage (msg : ToolsMessage φ α) : ToolsMessage φ α :=
  if (msg.idAsString P.classes).isEmpty then
    let clonedMsg :=
      match msg.rawDataMsg with
      | some data => P.createInvalidMessage data
      | none => P.setNameToMessageProperties ToolsFrame.createInvalidMessage
    let clonedMsg := copyCommonProperties msg clonedMsg
    if msg.getExtraInfo.isEmpty then clonedMsg
    else (P.updateMessage { clonedMsg with extraInfo := some msg.getExtraInfo }).1
  else
    let clonedMsg := P.setNameToMessageProperties (copyCommonProperties msg msg.clone)
    let clonedMsg := (P.updateMessage clonedMsg).1
    { clonedMsg with extraInfo := ToolsMessage.copyFromTo msg.extraInfo clonedMsg.extraInfo }

/-! ### Reading -/

/-- Successive `read` calls. -/
def readAll (s : FrameState) : List (ToolsDataInfo × Bool) → FrameState × List (ToolsMessage φ α)
  | [] => (s, [])
  | c :: cs =>
      let r := P.read s c.1 c.2
      let r' := readAll r.1 cs
      (r'.1, r.2 ++ r'.2)

theorem readAll_eq (s : FrameState) (calls : List (ToolsDataInfo × Bool)) :
    P.readAll s calls = ((P.m_frame.readAll s calls).1,
      (P.m_frame.readAll s calls).2.map P.setNameToMessageProperties) := by
  induction calls generalizing s with
  | nil => rfl
  | cons c cs ih => simp only [readAll, ToolsFrame.readAll, read, ih, List.map_append]

/-! ### What `updateMessage` changes -/

/-- The object inside an updated message. -/
def updatedBody (msg : ToolsMessage φ α) : Body φ α :=
  if (msg.idAsString P.classes).isEmpty then msg.body else (msg.refreshMsg P.classes).1.body

/-- The raw data of an updated message. -/
def updatedRawData (msg : ToolsMessage φ α) : Option DataSeq :=
  if (msg.idAsString P.classes).isEmpty then msg.rawDataMsg
  else some (P.m_frame.encodeFramed (msg.refreshMsg P.classes).1)

theorem updateMessageImpl_eq (F : ToolsFrame φ α) (msg : ToolsMessage φ α) :
    ∃ t e, F.updateMessageImpl msg =
      { msg with
        rawDataMsg := some (F.encodeFramed msg)
        transportMsg := t
        extraInfoMsg := e } := by
  simp only [ToolsFrame.updateMessageImpl]
  split_ifs <;> exact ⟨_, _, rfl⟩

/-- An update touches the object and its three attached messages only. -/
theorem updateMessage_eq (msg : ToolsMessage φ α) :
    ∃ t e, (P.updateMessage msg).1 =
      { msg with
        body := P.updatedBody msg
        rawDataMsg := P.updatedRawData msg
        transportMsg := t
        extraInfoMsg := e } := by
  unfold updateMessage updatedBody updatedRawData
  split_ifs with hid
  · exact ⟨_, _, rfl⟩
  · exact ⟨_, _, rfl⟩
  · obtain ⟨t, e, h⟩ := updateMessageImpl_eq P.m_frame (msg.refreshMsg P.classes).1
    refine ⟨t, e, h.trans ?_⟩
    unfold ToolsMessage.refreshMsg
    split <;> rfl

section
variable (msg : ToolsMessage φ α)

@[simp] theorem updateMessage_body : (P.updateMessage msg).1.body = P.updatedBody msg := by
  obtain ⟨t, e, h⟩ := P.updateMessage_eq msg
  rw [h]

@[simp] theorem updateMessage_rawDataMsg :
    (P.updateMessage msg).1.rawDataMsg = P.updatedRawData msg := by
  obtain ⟨t, e, h⟩ := P.updateMessage_eq msg
  rw [h]

@[simp] theorem updateMessage_delay : (P.updateMessage msg).1.delay = msg.delay := by
  obtain ⟨t, e, h⟩ := P.updateMessage_eq msg
  rw [h]

@[simp] theorem updateMessage_delayUnits : (P.updateMessage msg).1.delayUnits = msg.delayUnits := by
  obtain ⟨t, e, h⟩ := P.updateMessage_eq msg
  rw [h]

@[simp] theorem updateMessage_repeatDuration :
    (P.updateMessage msg).1.repeatDuration = msg.repeatDuration := by
  obtain ⟨t, e, h⟩ := P.updateMessage_eq msg
  rw [h]

@[simp] theorem updateMessage_repeatDurationUnits :
    (P.updateMessage msg).1.repeatDurationUnits = msg.repeatDurationUnits := by
  obtain ⟨t, e, h⟩ := P.updateMessage_eq msg
  rw [h]

@[simp] theorem updateMessage_repeatCount :
    (P.updateMessage msg).1.repeatCount = msg.repeatCount := by
  obtain ⟨t, e, h⟩ := P.updateMessage_eq msg
  rw [h]

@[simp] theorem updateMessage_comment : (P.updateMessage msg).1.comment = msg.comment := by
  obtain ⟨t, e, h⟩ := P.updateMessage_eq msg
  rw [h]

@[simp] theorem updateMessage_extraInfo : (P.updateMessage msg).1.extraInfo = msg.extraInfo := by
  obtain ⟨t, e, h⟩ := P.updateMessage_eq msg
  rw [h]

end

/-! ### What `cloneMessage` keeps -/

/-- A clone starts without properties, an invalid one with its raw data. -/
theorem clone_eq (msg : ToolsMessage φ α) :
    ∃ r, msg.clone = { body := msg.body, rawDataMsg := r } ∧
      (msg.body = .invalid → r = msg.rawDataMsg) := by
  unfold ToolsMessage.clone
  cases h : msg.body with
  | prot f c => exact ⟨none, rfl, by simp⟩
  | invalid => exact ⟨_, rfl, fun _ => rfl⟩

/-- The object inside a clone. -/
def clonedBody (msg : ToolsMessage φ α) : Body φ α :=
  if (msg.idAsString P.classes).isEmpty then .invalid else (msg.refreshMsg P.classes).1.body

theorem idAsString_congr (C : MsgClasses φ α) {m m' : ToolsMessage φ α} (h : m.body = m'.body) :
    m.idAsString C = m'.idAsString C := by
  simp only [ToolsMessage.idAsString, ToolsMessage.numericId, h]

theorem refreshMsg_congr {m m' : ToolsMessage φ α} (C : MsgClasses φ α) (h : m.body = m'.body) :
    (m.refreshMsg C).1.body = (m'.refreshMsg C).1.body := by
  unfold ToolsMessage.refreshMsg
  rw [h]
  cases hb : m'.body <;> simp [h, hb]

/-- An update of the object depends on the object only. -/
theorem updatedBody_congr {m m' : ToolsMessage φ α} (h : m.body = m'.body) :
    P.updatedBody m = P.updatedBody m' := by
  rw [updatedBody, updatedBody, idAsString_congr _ h, refreshMsg_congr _ h, h]

theorem refreshMsg_invalid {m : ToolsMessage φ α} (C : MsgClasses φ α) (h : m.body = .invalid) :
    (m.refreshMsg C).1 = m := by
  simp only [ToolsMessage.refreshMsg, h]

/-- Updating an invalid message leaves it invalid, with its raw data. -/
theorem updatedBody_invalid {msg : ToolsMessage φ α} (h : msg.body = .invalid) :
    P.updatedBody msg = .invalid := by
  unfold updatedBody
  split_ifs
  · exact h
  · rw [refreshMsg_invalid _ h, h]

theorem updatedRawData_invalid {msg : ToolsMessage φ α} (h : msg.body = .invalid) :
    (P.updatedRawData msg).getD [] = msg.rawData := by
  unfold updatedRawData
  split_ifs
  · rfl
  · simp [refreshMsg_invalid _ h, ToolsFrame.encodeFramed, ToolsMessage.encodeData, h,
      ToolsMessage.rawData]

theorem clonedBody_invalid {msg : ToolsMessage φ α}
    (h : msg.body = .invalid ∨ msg.idAsString P.classes = []) : P.clonedBody msg = .invalid := by
  rcases h with h | h
  · simp [clonedBody, refreshMsg_invalid _ h, h]
  · simp [clonedBody, h]

/-- A regular message with an id text is refreshed by an update and by a clone. -/
theorem updatedBody_prot {msg : ToolsMessage φ α} {f : φ} {c : α}
    (hid : msg.idAsString P.classes ≠ []) (h : msg.body = .prot f c) :
    P.updatedBody msg = .prot f (P.classes.doRefresh f c).1 := by
  simp [updatedBody, hid, ToolsMessage.refreshMsg, h]

theorem clonedBody_prot {msg : ToolsMessage φ α} {f : φ} {c : α}
    (hid : msg.idAsString P.classes ≠ []) (h : msg.body = .prot f c) :
    P.clonedBody msg = .prot f (P.classes.doRefresh f c).1 := by
  simp [clonedBody, hid, ToolsMessage.refreshMsg, h]

/-- A message with the timing properties and the comment of `msg`, and no others. -/
def withTiming (msg : ToolsMessage φ α) (body : Body φ α) (protocolName : Option QString)
    (rawDataMsg : Option DataSeq) : ToolsMessage φ α where
  body := body
  protocolName := protocolName
  rawDataMsg := rawDataMsg
  delay := msg.delay
  delayUnits := msg.delayUnits
  repeatDuration := msg.repeatDuration
  repeatDurationUnits := msg.repeatDurationUnits
  repeatCount := msg.repeatCount
  comment := msg.comment

theorem copyCommonProperties_bare (msg : ToolsMessage φ α) (b : Body φ α) (n : Option QString)
    (r : Option DataSeq) :
    copyCommonProperties msg { body := b, protocolName := n, rawDataMsg := r } =
      withTiming msg b n r := by
  simp [copyCommonProperties, ToolsMessage.copyFromTo, withTiming]

/-- **A clone has the timing, the comment and the extra info of its original**, and the same
object: refreshed if it has an id text, else the raw data. -/
theorem cloneMessage_eq (msg : ToolsMessage φ α) :
    ∃ e n t r i, P.cloneMessage msg =
      { withTiming msg (P.clonedBody msg) n r with
        transportMsg := t
        extraInfoMsg := i
        extraInfo := e } ∧
      e.getD [] = msg.getExtraInfo ∧
      (P.clonedBody msg = .invalid → r.getD [] = msg.rawData) := by
  unfold cloneMessage clonedBody
  by_cases hid : (msg.idAsString P.classes).isEmpty = true
  · -- the branch for messages without id text
    simp only [hid, if_true]
    obtain ⟨n, hc⟩ : ∃ n, copyCommonProperties msg
        (match msg.rawDataMsg with
          | some data => P.createInvalidMessage data
          | none => P.setNameToMessageProperties ToolsFrame.createInvalidMessage) =
        withTiming msg .invalid n msg.rawDataMsg := by
      cases h : msg.rawDataMsg with
      | some data => exact ⟨_, copyCommonProperties_bare _ _ _ _⟩
      | none => exact ⟨_, copyCommonProperties_bare _ _ _ _⟩
    rw [hc]
    split_ifs with he
    · exact ⟨none, n, none, _, none, rfl, by simpa using (List.isEmpty_iff.mp he).symm,
        fun _ => rfl⟩
    · obtain ⟨t, i, hu⟩ := P.updateMessage_eq
        { withTiming msg .invalid n msg.rawDataMsg with extraInfo := some msg.getExtraInfo }
      rw [hu, P.updatedBody_invalid rfl]
      exact ⟨some msg.getExtraInfo, n, t, _, i, rfl, rfl, fun _ => P.updatedRawData_invalid rfl⟩
  · -- the branch for messages with id text
    simp only [hid, Bool.false_eq_true, if_false]
    obtain ⟨r, hc, hr⟩ := clone_eq msg
    rw [hc, copyCommonProperties_bare]
    set cloned := P.setNameToMessageProperties (withTiming msg msg.body none r) with hcl
    obtain ⟨t, i, hu⟩ := P.updateMessage_eq cloned
    have hb : P.updatedBody cloned = (msg.refreshMsg P.classes).1.body := by
      unfold updatedBody
      have hcloned : cloned.idAsString P.classes = msg.idAsString P.classes :=
        idAsString_congr P.classes rfl
      rw [hcloned, if_neg hid]
      exact refreshMsg_congr P.classes rfl
    rw [hu, hb]
    refine ⟨_, _, t, _, i, rfl, by simp [hcl, setNameToMessageProperties, withTiming,
      ToolsMessage.copyFromTo, ToolsMessage.getExtraInfo], fun hinv => ?_⟩
    have hm : msg.body = .invalid := by
      cases h : msg.body with
      | prot f c => simp [ToolsMessage.refreshMsg, h] at hinv
      | invalid => rfl
    have hcloned : cloned.body = .invalid := hm
    rw [P.updatedRawData_invalid hcloned]
    simp [hcl, setNameToMessageProperties, withTiming, ToolsMessage.rawData, hr hm]

section
variable (msg : ToolsMessage φ α)

@[simp] theorem cloneMessage_body : (P.cloneMessage msg).body = P.clonedBody msg := by
  obtain ⟨e, n, t, r, i, h, -⟩ := P.cloneMessage_eq msg
  rw [h]
  rfl

@[simp] theorem cloneMessage_delay : (P.cloneMessage msg).delay = msg.delay := by
  obtain ⟨e, n, t, r, i, h, -⟩ := P.cloneMessage_eq msg
  rw [h]
  rfl

@[simp] theorem cloneMessage_delayUnits : (P.cloneMessage msg).delayUnits = msg.delayUnits := by
  obtain ⟨e, n, t, r, i, h, -⟩ := P.cloneMessage_eq msg
  rw [h]
  rfl

@[simp] theorem cloneMessage_repeatDuration :
    (P.cloneMessage msg).repeatDuration = msg.repeatDuration := by
  obtain ⟨e, n, t, r, i, h, -⟩ := P.cloneMessage_eq msg
  rw [h]
  rfl

@[simp] theorem cloneMessage_repeatDurationUnits :
    (P.cloneMessage msg).repeatDurationUnits = msg.repeatDurationUnits := by
  obtain ⟨e, n, t, r, i, h, -⟩ := P.cloneMessage_eq msg
  rw [h]
  rfl

@[simp] theorem cloneMessage_repeatCount :
    (P.cloneMessage msg).repeatCount = msg.repeatCount := by
  obtain ⟨e, n, t, r, i, h, -⟩ := P.cloneMessage_eq msg
  rw [h]
  rfl

@[simp] theorem cloneMessage_comment : (P.cloneMessage msg).comment = msg.comment := by
  obtain ⟨e, n, t, r, i, h, -⟩ := P.cloneMessage_eq msg
  rw [h]
  rfl

@[simp] theorem cloneMessage_getExtraInfo :
    (P.cloneMessage msg).getExtraInfo = msg.getExtraInfo := by
  obtain ⟨e, n, t, r, i, h, he, -⟩ := P.cloneMessage_eq msg
  rw [h]
  exact he

/-- Copying the common properties once more changes nothing. -/
theorem copyCommonProperties_cloneMessage :
    copyCommonProperties msg (P.cloneMessage msg) = P.cloneMessage msg := by
  obtain ⟨e, n, t, r, i, h, -⟩ := P.cloneMessage_eq msg
  rw [h]
  simp [copyCommonProperties, withTiming, ToolsMessage.copyFromTo]

theorem cloneMessage_rawData (hb : P.clonedBody msg = .invalid) :
    (P.cloneMessage msg).rawData = msg.rawData := by
  obtain ⟨e, n, t, r, i, h, -, hr⟩ := P.cloneMessage_eq msg
  rw [h]
  exact hr hb

end

end ToolsProtocol

end CcToolsQt
