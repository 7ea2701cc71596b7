import CcToolsQt.Qt.Variant

/-! # Message objects

A `ToolsMessage` is an object of one of the classes a protocol plugin generates (its form, with
the content of the COMMS message it wraps) or of the class `ToolsInvalidMessage`, together with
the dynamic properties attached to it.  `MsgClasses` holds what the generated classes override.

The transport, raw-data and extra-info messages attached to a message have a single payload
field each, or a payload that is a function of the bytes they were decoded from, so they are
represented by those bytes; a null pointer stored as a property is the absent property, since
`getFrom` reads both alike. -/

namespace CcToolsQt

abbrev DataSeq := List UInt8

/-- `ToolsMessage::Type`, an open enumeration: files may hold any number. -/
structure MsgType where
  value : UInt32
  deriving DecidableEq, Repr

namespace MsgType
def Invalid : MsgType := ⟨0⟩
def Received : MsgType := ⟨1⟩
def Sent : MsgType := ⟨2⟩
end MsgType

/-- The object inside a message: a generated class with its content, or `ToolsInvalidMessage`. -/
inductive Body (φ α : Type) where
  | prot (form : φ) (content : α)
  | invalid
  deriving DecidableEq

/-- What the generated message classes `φ` with content `α` override. -/
structure MsgClasses (φ α : Type) where
  /-- A `qlonglong`. -/
  numericIdImpl : φ → ℤ
  inLongLong : ∀ f, QString.inLongLong (numericIdImpl f) = true
  /-- How the base class of all messages spells a numeric id. -/
  idAsStringImpl : ℤ → QString
  nameImpl : φ → QString
  defaultMsg : φ → α
  doRefresh : φ → α → α × Bool
  doWrite : φ → α → DataSeq
  doRead : φ → DataSeq → Option α

/-- A message object and its properties. -/
structure ToolsMessage (φ α : Type) where
  body : Body φ α
  num : Option ℕ := none
  type : Option MsgType := none
  idx : Option UInt32 := none
  timestamp : Option UInt64 := none
  protocolName : Option QString := none
  transportMsg : Option DataSeq := none
  rawDataMsg : Option DataSeq := none
  extraInfoMsg : Option DataSeq := none
  extraInfo : Option QVariantMap := none
  forceExtraInfoExistence : Option Bool := none
  delay : Option UInt64 := none
  delayUnits : Option QString := none
  repeatDuration : Option UInt64 := none
  repeatDurationUnits : Option QString := none
  repeatCount : Option UInt32 := none
  comment : Option QString := none

namespace ToolsMessage
variable {φ α : Type} (C : MsgClasses φ α)

/-! ### The virtual functions -/

/-- `numericIdImpl`; `ToolsInvalidMessage` returns 0. -/
def numericId (m : ToolsMessage φ α) : ℤ :=
  match m.body with
  | .prot f _ => C.numericIdImpl f
  | .invalid => 0

/-- No class overrides `idAsStringImpl` again: an invalid message spells its id 0 as well. -/
def idAsString (m : ToolsMessage φ α) : QString := C.idAsStringImpl (m.numericId C)

/-- `nameImpl`; an invalid message with transport fields is told from plain garbage. -/
def name (m : ToolsMessage φ α) : QString :=
  match m.body with
  | .prot f _ => C.nameImpl f
  | .invalid => if m.transportMsg.isSome then ['?', '?', '?'] else ['-', '#', '-']

def refreshMsg (m : ToolsMessage φ α) : ToolsMessage φ α × Bool :=
  match m.body with
  | .prot f c => ({ m with body := .prot f (C.doRefresh f c).1 }, (C.doRefresh f c).2)
  | .invalid => (m, false)

def encodeData (m : ToolsMessage φ α) : DataSeq :=
  match m.body with
  | .prot f c => C.doWrite f c
  | .invalid => m.rawDataMsg.getD []

/-- `decodeData`, `none` for `false`; an invalid message has no fields to read. -/
def decodeData (m : ToolsMessage φ α) (data : DataSeq) : Option (ToolsMessage φ α) :=
  match m.body with
  | .prot f _ => (C.doRead f data).map fun c => { m with body := .prot f c }
  | .invalid => some m

/-- The copy constructor leaves the properties behind; `ToolsInvalidMessage` copies its bytes. -/
def clone (m : ToolsMessage φ α) : ToolsMessage φ α :=
  match m.body with
  | .prot f c => { body := .prot f c }
  | .invalid => { body := .invalid, rawDataMsg := m.rawDataMsg }

def assignProtMessage (m : ToolsMessage φ α) (content : α) : ToolsMessage φ α :=
  match m.body with
  | .prot f _ => { m with body := .prot f content }
  | .invalid => m

/-- `ToolsMsgPropBase::copyFromTo`: only a set property overwrites. -/
def copyFromTo {τ : Type} (src dst : Option τ) : Option τ := src.or dst

/-! ### Defaults of `getFrom` -/

def getType (m : ToolsMessage φ α) : MsgType := m.type.getD MsgType.Invalid
def getIdx (m : ToolsMessage φ α) : UInt32 := m.idx.getD 0
def getTimestamp (m : ToolsMessage φ α) : UInt64 := m.timestamp.getD 0
def getDelay (m : ToolsMessage φ α) : UInt64 := m.delay.getD 0
def getDelayUnits (m : ToolsMessage φ α) : QString := m.delayUnits.getD []
def getRepeatDuration (m : ToolsMessage φ α) : UInt64 := m.repeatDuration.getD 0
def getRepeatDurationUnits (m : ToolsMessage φ α) : QString := m.repeatDurationUnits.getD []
def getRepeatCount (m : ToolsMessage φ α) (defaultVal : UInt32) : UInt32 :=
  m.repeatCount.getD defaultVal
def getComment (m : ToolsMessage φ α) : QString := m.comment.getD []
def getExtraInfo (m : ToolsMessage φ α) : QVariantMap := m.extraInfo.getD []
def getForceExtraInfoExistence (m : ToolsMessage φ α) : Bool :=
  m.forceExtraInfoExistence.getD false

/-- The bytes the raw-data message shows. -/
def rawData (m : ToolsMessage φ α) : DataSeq := m.rawDataMsg.getD []

/-! ### The class -/

/-- The class of a message object, `none` for `ToolsInvalidMessage`. -/
def form (m : ToolsMessage φ α) : Option φ :=
  match m.body with
  | .prot f _ => some f
  | .invalid => none

theorem form_of_body {m m' : ToolsMessage φ α} (h : m'.body = m.body) : m'.form = m.form := by
  unfold form
  rw [h]

theorem exists_body_of_form {m : ToolsMessage φ α} {f : φ} (h : m.form = some f) :
    ∃ c, m.body = .prot f c := by
  unfold form at h
  split at h
  · rename_i hbody
    obtain rfl := Option.some.inj h
    exact ⟨_, hbody⟩
  · cases h

/-- The id is that of the class. -/
theorem numericId_of_form {m m' : ToolsMessage φ α} (h : m'.form = m.form) :
    m'.numericId C = m.numericId C := by
  unfold form at h
  unfold numericId
  cases hm : m.body with
  | prot f c => cases hm' : m'.body <;> simp_all
  | invalid => cases hm' : m'.body <;> simp_all

theorem idAsString_of_form {m m' : ToolsMessage φ α} (h : m'.form = m.form) :
    m'.idAsString C = m.idAsString C := by
  rw [idAsString, numericId_of_form C h, idAsString]

end ToolsMessage

end CcToolsQt
