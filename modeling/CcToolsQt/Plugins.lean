import CcToolsQt.Forms

/-! # The protocols of the repository

The demo protocol and the raw-data protocol: their message classes, the texts of their ids and
the frames' factories.  The COMMS code of the demo messages and the COMMS frames are parameters
(`ProtCode`); the one message of the raw-data protocol is a list of bytes. -/

namespace CcToolsQt

/-- What the COMMS library and the field definitions of a protocol provide, and the JSON writer
of its frame. -/
structure ProtCode (φ α : Type) where
  defaultMsg : φ → α
  doRefresh : φ → α → α × Bool
  doWrite : φ → α → DataSeq
  doRead : φ → DataSeq → Option α
  m_frame : ProtFrame φ α
  toJson : QVariantMap → DataSeq

/-! ### The demo protocol -/

/-- `demo::MsgId`. -/
inductive DemoMsgId where
  | IntValues
  | EnumValues
  | BitmaskValues
  | Bitfields
  | Strings
  | Lists
  | Optionals
  | FloatValues
  | Variants
  | Bundles
  deriving DecidableEq, Repr

namespace DemoMsgId

def value : DemoMsgId → ℤ
  | IntValues => 0
  | EnumValues => 1
  | BitmaskValues => 2
  | Bitfields => 3
  | Strings => 4
  | Lists => 5
  | Optionals => 6
  | FloatValues => 7
  | Variants => 8
  | Bundles => 9

/-- `doName` of the message classes. -/
def doName : DemoMsgId → QString
  | IntValues => ['I', 'n', 't', 'V', 'a', 'l', 'u', 'e', 's']
  | EnumValues => ['E', 'n', 'u', 'm', 'V', 'a', 'l', 'u', 'e', 's']
  | BitmaskValues => ['B', 'i', 't', 'm', 'a', 's', 'k', 'V', 'a', 'l', 'u', 'e', 's']
  | Bitfields => ['B', 'i', 't', 'f', 'i', 'e', 'l', 'd', 's']
  | Strings => ['S', 't', 'r', 'i', 'n', 'g', 's']
  | Lists => ['L', 'i', 's', 't', 's']
  | Optionals => ['O', 'p', 't', 'i', 'o', 'n', 'a', 'l', 's']
  | FloatValues => ['F', 'l', 'o', 'a', 't', 'V', 'a', 'l', 'u', 'e', 's']
  | Variants => ['V', 'a', 'r', 'i', 'a', 'n', 't', 's']
  | Bundles => ['B', 'u', 'n', 'd', 'l', 'e', 's']

/-- `demo::cc_plugin::AllMessages`. -/
def AllMessages : List DemoMsgId :=
  [IntValues, EnumValues, BitmaskValues, Bitfields, Strings, Lists, Optionals, FloatValues,
    Variants, Bundles]

theorem inLongLong (f : DemoMsgId) : QString.inLongLong f.value = true := by cases f <;> rfl

end DemoMsgId

namespace DemoProtocol
variable {α : Type} (G : ProtCode DemoMsgId α)

/-- The classes over `DemoMessage`, whose `idAsStringImpl` writes `0x` and two or more digits. -/
def messages : MsgClasses DemoMsgId α where
  numericIdImpl := DemoMsgId.value
  inLongLong := DemoMsgId.inLongLong
  idAsStringImpl := QString.hexId 2
  nameImpl := DemoMsgId.doName
  defaultMsg := G.defaultMsg
  doRefresh := G.doRefresh
  doWrite := G.doWrite
  doRead := G.doRead

def protocol : ToolsProtocol DemoMsgId α where
  name := ['D', 'e', 'm', 'o']
  m_frame :=
    { classes := messages G
      m_frame := G.m_frame
      m_factory :=
        { m_defaultMsgs := DemoMsgId.AllMessages
          sorted := by
            show DemoMsgId.AllMessages.Pairwise fun f g => f.value ≤ g.value
            decide
          length_lt := by decide }
      toJson := G.toJson }

/-- Each demo message has an id of its own, which is read back from its text. -/
theorem formsOfText_id (f : DemoMsgId) :
    (protocol G).m_frame.m_factory.formsOfText (QString.hexId 2 f.value) = [f] := by
  have hpos : 0 ≤ f.value := by cases f <;> decide
  unfold ToolsMsgFactory.formsOfText
  rw [QString.spelledId_hexId 2 f.inLongLong, if_pos hpos]
  cases f <;> rfl

end DemoProtocol

/-! ### The raw-data protocol -/

namespace RawDataProtocol

theorem inLongLong (_ : Unit) : QString.inLongLong 0 = true := rfl

/-- The one class over `RawDataProtocolMessage`, whose `idAsStringImpl` is a dash. -/
def messages : MsgClasses Unit DataSeq where
  numericIdImpl _ := 0
  inLongLong := inLongLong
  idAsStringImpl _ := ['-']
  nameImpl _ := ['R', 'a', 'w', ' ', 'D', 'a', 't', 'a']
  defaultMsg _ := []
  doRefresh _ data := (data, false)
  doWrite _ data := data
  doRead _ data := some data

/-- `raw_data_protocol::AllMessages`. -/
def AllMessages : List Unit := [()]

variable (frame : ProtFrame Unit DataSeq) (toJson : QVariantMap → DataSeq)

def protocol : ToolsProtocol Unit DataSeq where
  name := ['R', 'a', 'w', ' ', 'D', 'a', 't', 'a', ' ', 'P', 'r', 'o', 't', 'o', 'c', 'o', 'l']
  m_frame :=
    { classes := messages
      m_frame := frame
      m_factory :=
        { m_defaultMsgs := AllMessages, sorted := by simp [AllMessages], length_lt := by decide }
      toJson := toJson }

/-- A dash spells no number, so no message is created from the id text. -/
theorem formsOfText_id :
    (protocol frame toJson).m_frame.m_factory.formsOfText ['-'] = [] := by
  have h : QString.spelledId ['-'] = none := by decide
  unfold ToolsMsgFactory.formsOfText
  rw [h]

end RawDataProtocol

/-! ### Sample code -/

/-- A frame without transport fields that reads nothing. -/
def bareFrame {φ α : Type} (doWrite : φ → α → DataSeq) : ProtFrame φ α where
  read _ := .notEnoughData
  write f c := (.success, doWrite f c)
  update _ _ data := (.success, data)
  consumed_le := by
    intro buf msgId msgIdx msg n h
    cases h

/-- Demo messages kept as the bytes they are written as; `IntValues` has at least 21 of them. -/
def sampleDemo : ProtCode DemoMsgId DataSeq where
  defaultMsg f := if f = .IntValues then List.replicate 21 0 else []
  doRefresh _ data := (data, false)
  doWrite _ data := data
  doRead f data := if f = .IntValues ∧ data.length < 21 then none else some data
  m_frame := bareFrame fun _ data => data
  toJson _ := []

end CcToolsQt
