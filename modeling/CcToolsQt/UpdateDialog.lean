import CcToolsQt.ExtraInfo
import CcToolsQt.FormIds
import CcToolsQt.Qt.SpinBox
import CcToolsQt.SendMgr

/-! # The dialog that edits a message

`MessageUpdateDialog` is opened on a message of the send list or on none.  It makes a new message
of the same class, shows the delay and the repetition of the old one in its widgets, and when it is
accepted gives the new message what the widgets hold.  The new message is also displayed: the
widgets made over its fields may write into them (a spin box puts a value outside its range to an
end), and what they leave of a payload is a parameter, `display`.

* `accept_opened` says what becomes of a message that is not edited.
* `unchanged_iff`: which messages come out as they went in. -/

namespace CcToolsQt

/-! ### Durations -/

/-- `Duration`; a combo box of durations has these entries in this order. -/
inductive Duration where
  | Milliseconds
  | Seconds
  | Minutes
  | Hours
  | Days
  deriving DecidableEq

def durationToString : Duration → QString
  | .Milliseconds => "millisec".toList
  | .Seconds => "sec".toList
  | .Minutes => "min".toList
  | .Hours => "hours".toList
  | .Days => "days".toList

/-- The map of `stringToDuration`. -/
def durationNames : List (QString × Duration) :=
  [("milliseconds".toList, .Milliseconds),
    ("millisecond".toList, .Milliseconds),
    ("millisec".toList, .Milliseconds),
    ("ms".toList, .Milliseconds),
    ("seconds".toList, .Seconds),
    ("second".toList, .Seconds),
    ("sec".toList, .Seconds),
    ("s".toList, .Seconds),
    ("minutes".toList, .Minutes),
    ("minute".toList, .Minutes),
    ("min".toList, .Minutes),
    ("m".toList, .Minutes),
    ("hours".toList, .Hours),
    ("hour".toList, .Hours),
    ("h".toList, .Hours),
    ("days".toList, .Days),
    ("day".toList, .Days),
    ("d".toList, .Days)]

def stringToDuration (value : QString) : Duration :=
  (durationNames.lookup value).getD .Milliseconds

def DurationMul : Duration → UInt64
  | .Milliseconds => 1
  | .Seconds => 1000
  | .Minutes => 1000 * 60
  | .Hours => 1000 * 60 * 60
  | .Days => 1000 * 60 * 60 * 24

def durationToMs (value : ℤ) (dur : Duration) : UInt64 := DurationMul dur * UInt64.ofInt value

def msToDurationUnits (value : UInt64) (dur : Duration) : ℤ :=
  SendMgr.toInt (value / DurationMul dur)

/-- Every name the dialog writes is one it knows. -/
theorem stringToDuration_durationToString (dur : Duration) :
    stringToDuration (durationToString dur) = dur := by
  cases dur <;> decide

theorem DurationMul_pos (dur : Duration) : 0 < (DurationMul dur).toNat := by
  cases dur <;> decide

theorem DurationMul_le (dur : Duration) : (DurationMul dur).toNat ≤ 86400000 := by
  cases dur <;> decide

/-- An `int` of units never overflows. -/
theorem durationToMs_toNat {value : ℤ} (h0 : 0 ≤ value) (hmax : value ≤ SendMgr.INT_MAX)
    (dur : Duration) : (durationToMs value dur).toNat = (DurationMul dur).toNat * value.toNat := by
  have hvalue : (UInt64.ofInt value).toNat = value.toNat := by
    unfold SendMgr.INT_MAX at hmax
    rw [UInt64.ofInt, UInt64.toNat_ofNat']
    omega
  have hmul : (DurationMul dur).toNat * value.toNat ≤ 86400000 * SendMgr.INT_MAX := by
    apply Nat.mul_le_mul (DurationMul_le dur)
    omega
  rw [durationToMs, UInt64.toNat_mul, hvalue]
  apply Nat.mod_eq_of_lt
  unfold SendMgr.INT_MAX at hmul
  omega

/-- The number of units of a duration. -/
theorem toNat_eq_mul {value : UInt64} {dur : Duration} (hdvd : value % DurationMul dur = 0) :
    value.toNat = (DurationMul dur).toNat * (value / DurationMul dur).toNat := by
  have hmod : value.toNat % (DurationMul dur).toNat = 0 := by
    rw [← UInt64.toNat_mod, hdvd]
    rfl
  rw [UInt64.toNat_div, Nat.mul_div_cancel' (Nat.dvd_of_mod_eq_zero hmod)]

theorem msToDurationUnits_eq_zero_iff {value : UInt64} {dur : Duration}
    (hdvd : value % DurationMul dur = 0)
    (hmax : (value / DurationMul dur).toNat ≤ SendMgr.INT_MAX) :
    msToDurationUnits value dur = 0 ↔ value = 0 := by
  have hvalue := toNat_eq_mul hdvd
  have hpos := DurationMul_pos dur
  rw [msToDurationUnits, SendMgr.toInt_eq_iff.mpr hmax, ← UInt64.toNat_inj, hvalue,
    Int.natCast_eq_zero, UInt64.toNat_zero, Nat.mul_eq_zero]
  omega

/-- A duration in units that the spin box can hold, under the name the dialog has for them. -/
structure FitsWidgets (value : UInt64) (units : QString) : Prop where
  number : (value / DurationMul (stringToDuration units)).toNat ≤ SendMgr.INT_MAX
  name : durationToString (stringToDuration units) = units

/-- The number of units, shown at least as 1, is that of the duration. -/
theorem durationToMs_max_eq_iff {value : UInt64} {dur : Duration}
    (hdvd : value % DurationMul dur = 0) (hne : msToDurationUnits value dur ≠ 0) :
    durationToMs (max 1 (msToDurationUnits value dur)) dur = value ↔
      (value / DurationMul dur).toNat ≤ SendMgr.INT_MAX := by
  have hmax := SendMgr.toInt_le (value / DurationMul dur)
  have hnonneg : 0 ≤ max 1 (msToDurationUnits value dur) := by omega
  have hms := durationToMs_toNat hnonneg (max_le (by decide) hmax) dur
  have hvalue := toNat_eq_mul hdvd
  have hiff := SendMgr.toInt_eq_iff (d := value / DurationMul dur)
  have hone : 1 ≤ SendMgr.INT_MAX := by decide
  rw [← hiff, ← UInt64.toNat_inj, hms, hvalue,
    Nat.mul_left_cancel_iff (DurationMul_pos dur)]
  unfold msToDurationUnits at hne ⊢
  omega

namespace ToolsMessage
variable {φ α : Type} [DecidableEq φ]

/-- `assign`: a message takes the fields of one of its own class, and no properties. -/
def assign (msg other : ToolsMessage φ α) : Option (ToolsMessage φ α) :=
  match msg.body, other.body with
  | .prot f _, .prot g c => if g = f then some { msg with body := .prot f c } else none
  | _, _ => none

variable {msg other : ToolsMessage φ α} {f : φ}

theorem assign_of_form (hother : other.form = some f) (hmsg : msg.form = some f) :
    msg.assign other = some { msg with body := other.body } := by
  obtain ⟨c, hc⟩ := exists_body_of_form hother
  obtain ⟨c', hc'⟩ := exists_body_of_form hmsg
  rw [assign, hc, hc']
  exact if_pos rfl

theorem assign_of_ne (hother : other.form = some f) (hmsg : msg.form ≠ some f) :
    msg.assign other = none := by
  obtain ⟨c, hc⟩ := exists_body_of_form hother
  unfold assign form at *
  rw [hc]
  cases hbody : msg.body with
  | prot g c' =>
      rw [hbody] at hmsg
      exact if_neg fun h => hmsg (congrArg some h.symm)
  | invalid => rfl

theorem assign_invalid (hother : other.form = none) : msg.assign other = none := by
  have hbody : other.body = .invalid := by
    unfold form at hother
    split at hother
    · cases hother
    · assumption
  unfold assign
  rw [hbody]
  cases msg.body <;> rfl

end ToolsMessage

/-! ### The widgets of a duration -/

/-- The widgets that show a duration, and the value to show when they are enabled: the delay and
the repetition have such widgets each. -/
structure DurationWidgets where
  checkBox : CheckState := .Unchecked
  spinBox : QSpinBox := QSpinBox.new.setRange 0 SendMgr.INT_MAX
  unitsComboBox : Duration := .Milliseconds
  prev : ℤ

namespace DurationWidgets

/-- The part of `refreshDelayInfo` and `refreshRepeatInfo` about these widgets. -/
def refresh (disabledValue : ℤ) (checkboxValue : CheckState) (w : DurationWidgets) :
    DurationWidgets :=
  if checkboxValue = .Unchecked then
    { w with spinBox := (w.spinBox.setMinimum 0).setValue disabledValue }
  else { w with spinBox := (w.spinBox.setValue w.prev).setMinimum 1 }

/-- The constructor puts a duration in its units into the widgets. -/
def load (value : UInt64) (units : QString) (w : DurationWidgets) : DurationWidgets :=
  let dur := stringToDuration units
  let number := msToDurationUnits value dur
  if number ≠ 0 then { w with prev := number, unitsComboBox := dur, checkBox := .Checked } else w

/-- The duration the widgets hold. -/
def toMs (w : DurationWidgets) : UInt64 := durationToMs w.spinBox.value w.unitsComboBox

/-- The name of its units. -/
def units (w : DurationWidgets) : QString := durationToString w.unitsComboBox

/-- The widgets after the constructor. -/
def shown (value : UInt64) (units : QString) : DurationWidgets :=
  let w := load value units { prev := 1 }
  w.refresh 0 w.checkBox

theorem load_of_zero {value : UInt64} {units : QString}
    (h : msToDurationUnits value (stringToDuration units) = 0) (w : DurationWidgets) :
    load value units w = w := by
  simp only [load, h, ne_eq, not_true_eq_false, if_false]

theorem load_of_ne {value : UInt64} {units : QString}
    (h : msToDurationUnits value (stringToDuration units) ≠ 0) (w : DurationWidgets) :
    load value units w =
      { w with
        prev := msToDurationUnits value (stringToDuration units)
        unitsComboBox := stringToDuration units
        checkBox := .Checked } := by
  simp only [load, h, ne_eq, not_false_eq_true, if_true]

theorem shown_of_zero {value : UInt64} {units : QString}
    (h : msToDurationUnits value (stringToDuration units) = 0) :
    (shown value units).spinBox.value = 0 ∧
      (shown value units).unitsComboBox = .Milliseconds := by
  rw [shown, load_of_zero h]
  exact ⟨rfl, rfl⟩

theorem shown_of_ne {value : UInt64} {units : QString}
    (h : msToDurationUnits value (stringToDuration units) ≠ 0) :
    (shown value units).spinBox.value =
        max 1 (msToDurationUnits value (stringToDuration units)) ∧
      (shown value units).unitsComboBox = stringToDuration units := by
  have hmax : msToDurationUnits value (stringToDuration units) ≤ SendMgr.INT_MAX :=
    SendMgr.toInt_le _
  rw [shown, load_of_ne h]
  generalize msToDurationUnits value (stringToDuration units) = number at h hmax
  exact ⟨QSpinBox.setValue_setMinimum _ (show (0 : ℤ) ≤ 1 by decide) hmax, rfl⟩

/-- **Which durations come out of the widgets as they went in**: those that fit, and no duration
if its units are the first ones. -/
theorem shown_eq_iff {value : UInt64} {units : QString}
    (hdvd : value % DurationMul (stringToDuration units) = 0) :
    (shown value units).toMs = value ∧ (shown value units).units = units ↔
      (value = 0 → units = durationToString .Milliseconds) ∧ FitsWidgets value units := by
  by_cases h : msToDurationUnits value (stringToDuration units) = 0
  · obtain ⟨hspin, hcombo⟩ := shown_of_zero h
    rw [toMs, DurationWidgets.units, hspin, hcombo]
    constructor
    · rintro ⟨rfl, rfl⟩
      exact ⟨fun _ => rfl, by decide, rfl⟩
    · rintro ⟨hfirst, hfits⟩
      obtain rfl := (msToDurationUnits_eq_zero_iff hdvd hfits.number).mp h
      exact ⟨rfl, (hfirst rfl).symm⟩
  · obtain ⟨hspin, hcombo⟩ := shown_of_ne h
    rw [toMs, DurationWidgets.units, hspin, hcombo, durationToMs_max_eq_iff hdvd h]
    constructor
    · rintro ⟨hnumber, hname⟩
      have hne := mt (msToDurationUnits_eq_zero_iff hdvd hnumber).mpr h
      exact ⟨fun h0 => absurd h0 hne, hnumber, hname⟩
    · rintro ⟨-, hfits⟩
      exact ⟨hfits.number, hfits.name⟩

end DurationWidgets

/-! ### The dialog -/

namespace MessageUpdateDialog

def DisabledDelayValue : ℤ := 0
def DisabledRepeatDuration : ℤ := 0
def DisabledRepeatCount : ℤ := 1
def EnabledMinRepeatCount : ℤ := 2
def DisabledSendIndefinitelyState : CheckState := .Unchecked

end MessageUpdateDialog

open MessageUpdateDialog in
/-- `MessageUpdateDialog` with its widgets.  The search text is empty, so the rows of the list are
the messages of `m_allMsgs`. -/
structure MessageUpdateDialog (φ α : Type) where
  m_allMsgs : List (ToolsMessage φ α)
  /-- The row of the current item. -/
  currentRow : Option ℕ := none
  delay : DurationWidgets := { prev := DisabledDelayValue + 1 }
  repeatDuration : DurationWidgets := { prev := DisabledRepeatDuration + 1 }
  m_repeatCountSpinBox : QSpinBox := QSpinBox.new.setRange 0 SendMgr.INT_MAX
  m_indefinitelyCheckBox : CheckState := .Unchecked
  m_prevRepeatCount : ℤ := EnabledMinRepeatCount
  m_sendIndefinitelyState : CheckState := DisabledSendIndefinitelyState

namespace MessageUpdateDialog
variable {φ α : Type}

def refreshDelayInfo (checkboxValue : CheckState) (d : MessageUpdateDialog φ α) :
    MessageUpdateDialog φ α :=
  { d with delay := d.delay.refresh DisabledDelayValue checkboxValue }

def refreshRepeatInfo (checkboxValue : CheckState) (d : MessageUpdateDialog φ α) :
    MessageUpdateDialog φ α :=
  if checkboxValue = .Unchecked then
    { d with
      repeatDuration := d.repeatDuration.refresh DisabledRepeatDuration checkboxValue
      m_repeatCountSpinBox :=
        (d.m_repeatCountSpinBox.setMinimum DisabledRepeatCount).setValue DisabledRepeatCount
      m_indefinitelyCheckBox := DisabledSendIndefinitelyState }
  else
    { d with
      repeatDuration := d.repeatDuration.refresh DisabledRepeatDuration checkboxValue
      m_indefinitelyCheckBox := d.m_sendIndefinitelyState
      m_repeatCountSpinBox :=
        if d.m_sendIndefinitelyState = .Unchecked then
          (d.m_repeatCountSpinBox.setValue d.m_prevRepeatCount).setMinimum EnabledMinRepeatCount
        else (d.m_repeatCountSpinBox.setMinimum 0).setValue 0 }

/-- The constructor calls both. -/
def refreshInfo (d : MessageUpdateDialog φ α) : MessageUpdateDialog φ α :=
  (d.refreshDelayInfo d.delay.checkBox).refreshRepeatInfo d.repeatDuration.checkBox

/-- The constructor puts the repeat count of a message into the dialog. -/
def loadRepeatCount (repeatCount : ℤ) (d : MessageUpdateDialog φ α) : MessageUpdateDialog φ α :=
  if repeatCount ≠ 0 then { d with m_prevRepeatCount := repeatCount }
  else { d with m_sendIndefinitelyState := .Checked }

/-- The constructor puts the timing of a message into the dialog. -/
def loadTiming (m : ToolsMessage φ α) (d : MessageUpdateDialog φ α) : MessageUpdateDialog φ α :=
  loadRepeatCount (SendMgr.toInt (m.getRepeatCount 0).toUInt64)
    { d with
      delay := d.delay.load m.getDelay m.getDelayUnits
      repeatDuration := d.repeatDuration.load m.getRepeatDuration m.getRepeatDurationUnits }

section
variable (display : φ → α → Option α)

/-- What is left of a message that is displayed with its widgets enabled; nothing if one of the
widgets fails an assertion. -/
def displayedBody : Body φ α → Option (Body φ α)
  | .prot f c => (display f c).map (.prot f)
  | .invalid => some .invalid

/-- The message of a row, displayed. -/
def displayMessage (row : ℕ) (msgs : List (ToolsMessage φ α)) : Option (List (ToolsMessage φ α)) :=
  msgs[row]?.bind fun msg =>
    (displayedBody display msg.body).map fun body => msgs.set row { msg with body := body }

variable [DecidableEq φ] (P : ToolsProtocol φ α)

/-- The new message `msgTmp` made equal to the edited one, if it is of its class. -/
def takeFrom (m msgTmp : ToolsMessage φ α) : Option (ToolsMessage φ α) :=
  if msgTmp.idAsString P.classes = m.idAsString P.classes then
    (msgTmp.assign m).map fun msgTmp =>
      (P.updateMessage
        { msgTmp with extraInfo := ToolsMessage.copyFromTo m.extraInfo msgTmp.extraInfo }).1
  else none

/-- The loop of the constructor: the messages after it and `msgIdx`. -/
def findMsg (m : ToolsMessage φ α) :
    List (ToolsMessage φ α) → List (ToolsMessage φ α) × Option ℕ
  | [] => ([], none)
  | msgTmp :: msgs =>
      match takeFrom P m msgTmp with
      | some msg => (msg :: msgs, some 0)
      | none => (msgTmp :: (findMsg m msgs).1, (findMsg m msgs).2.map (· + 1))

/-- The constructor, on a message to edit or on none. -/
def opened (m_msg : Option (ToolsMessage φ α)) : Option (MessageUpdateDialog φ α) :=
  match m_msg with
  | none => some (refreshInfo { m_allMsgs := P.createAllMessages })
  | some m =>
      match findMsg P m P.createAllMessages with
      | (msgs, none) => some (refreshInfo { m_allMsgs := msgs })
      | (msgs, some msgIdx) =>
          (displayMessage display msgIdx msgs).map fun msgs =>
            (loadTiming m { m_allMsgs := msgs, currentRow := some msgIdx }).refreshInfo

end

def currentItem (d : MessageUpdateDialog φ α) : Option (ToolsMessage φ α) :=
  d.currentRow.bind fun row => d.m_allMsgs[row]?

/-- The extra info in the text of an extra-info message. -/
def extraInfoOf (fromJson : DataSeq → QVariantMap) (extraData : DataSeq) : QVariantMap :=
  if extraData.isEmpty then [] else fromJson extraData

/-- What `accept` does to the message of the current item; `fromJson` is the object
`QJsonDocument::fromJson` reads. -/
def acceptMsg (fromJson : DataSeq → QVariantMap) (d : MessageUpdateDialog φ α)
    (msg : ToolsMessage φ α) : ToolsMessage φ α :=
  let msg :=
    { msg with
      delay := some d.delay.toMs
      delayUnits := some d.delay.units
      repeatDuration := some d.repeatDuration.toMs
      repeatDurationUnits := some d.repeatDuration.units
      repeatCount := some (UInt32.ofInt d.m_repeatCountSpinBox.value) }
  match msg.extraInfoMsg with
  | none => msg
  | some extraData => { msg with extraInfo := some (extraInfoOf fromJson extraData) }

/-- `accept`, which leaves its message in `m_msg`; without a current item the button is disabled. -/
def accept (fromJson : DataSeq → QVariantMap) (d : MessageUpdateDialog φ α) :
    Option (ToolsMessage φ α) :=
  d.currentItem.map (acceptMsg fromJson d)

/-! ### What the dialog shows -/

/-- What the repeat count is shown as while the repetition is enabled. -/
def shownCount (repeatCount : UInt32) : ℤ :=
  if SendMgr.toInt repeatCount.toUInt64 = 0 then 0
  else max EnabledMinRepeatCount (SendMgr.toInt repeatCount.toUInt64)

/-- A count comes out as it went in unless it is 1 or not in an `int`. -/
theorem shownCount_eq_iff (repeatCount : UInt32) :
    UInt32.ofInt (shownCount repeatCount) = repeatCount ↔
      repeatCount ≠ 1 ∧ repeatCount.toNat ≤ SendMgr.INT_MAX := by
  have hlt := repeatCount.toNat_lt
  have hmax := SendMgr.toInt_le repeatCount.toUInt64
  have hiff := SendMgr.toInt_eq_iff (d := repeatCount.toUInt64)
  rw [UInt32.toNat_toUInt64] at hiff
  have hne : repeatCount ≠ 1 ↔ repeatCount.toNat ≠ 1 := by
    rw [ne_eq, ← UInt32.toNat_inj]
    rfl
  unfold shownCount EnabledMinRepeatCount
  generalize SendMgr.toInt repeatCount.toUInt64 = n at hmax hiff
  rw [hne, ← UInt32.toNat_inj, UInt32.ofInt, UInt32.toNat_ofNat']
  unfold SendMgr.INT_MAX at *
  split_ifs <;> omega

/-- The same for the property: it has to be set, since its readers assume different defaults. -/
theorem shownCount_getD_iff (repeatCount : Option UInt32) :
    (∀ defaultVal, UInt32.ofInt (shownCount (repeatCount.getD 0)) = repeatCount.getD defaultVal) ↔
      ∃ n, repeatCount = some n ∧ n ≠ 1 ∧ n.toNat ≤ SendMgr.INT_MAX := by
  cases repeatCount with
  | none =>
      constructor
      · intro h
        exact absurd ((h 0).symm.trans (h 1)) (by decide)
      · rintro ⟨n, hn, -⟩
        cases hn
  | some n =>
      simp only [Option.getD_some, forall_const, shownCount_eq_iff, Option.some.injEq,
        exists_eq_left']

section
variable (n : ℤ) (d : MessageUpdateDialog φ α)

theorem loadRepeatCount_delay : (loadRepeatCount n d).delay = d.delay := by
  unfold loadRepeatCount
  split_ifs <;> rfl

theorem loadRepeatCount_repeatDuration :
    (loadRepeatCount n d).repeatDuration = d.repeatDuration := by
  unfold loadRepeatCount
  split_ifs <;> rfl

theorem loadRepeatCount_currentItem : (loadRepeatCount n d).currentItem = d.currentItem := by
  unfold loadRepeatCount
  split_ifs <;> rfl

theorem refreshInfo_delay :
    d.refreshInfo.delay = d.delay.refresh DisabledDelayValue d.delay.checkBox := by
  unfold refreshInfo refreshRepeatInfo
  split_ifs <;> rfl

theorem refreshInfo_repeatDuration :
    d.refreshInfo.repeatDuration =
      d.repeatDuration.refresh DisabledRepeatDuration d.repeatDuration.checkBox := by
  unfold refreshInfo refreshRepeatInfo
  split_ifs <;> rfl

theorem refreshInfo_currentItem : d.refreshInfo.currentItem = d.currentItem := by
  unfold refreshInfo refreshRepeatInfo
  split_ifs <;> rfl

/-- A repetition without end is shown as 0, any other count at least as 2. -/
theorem refreshInfo_count (hn : n ≤ SendMgr.INT_MAX)
    (hspin : d.m_repeatCountSpinBox = QSpinBox.new.setRange 0 SendMgr.INT_MAX)
    (hstate : d.m_sendIndefinitelyState = .Unchecked)
    (hbox : d.repeatDuration.checkBox = .Checked) :
    (loadRepeatCount n d).refreshInfo.m_repeatCountSpinBox.value =
      if n = 0 then 0 else max EnabledMinRepeatCount n := by
  have hchecked : CheckState.Checked ≠ .Unchecked := by decide
  rw [refreshInfo, refreshRepeatInfo, loadRepeatCount_repeatDuration, hbox, if_neg hchecked]
  unfold loadRepeatCount
  by_cases h : n = 0
  · simp only [refreshDelayInfo, h, ne_eq, not_true_eq_false, if_false, if_true, if_neg hchecked]
    rw [QSpinBox.setValue_value_eq_iff]
    exact ⟨le_rfl, le_max_left _ _⟩
  · simp only [refreshDelayInfo, h, ne_eq, not_false_eq_true, if_true, if_false, hstate, hspin]
    apply QSpinBox.setValue_setMinimum
    · exact (show (0 : ℤ) ≤ 2 by decide)
    · exact hn.trans (le_max_right _ _)

end

variable (P : ToolsProtocol φ α) (fromJson : DataSeq → QVariantMap) {m t : ToolsMessage φ α}

/-! ### What is accepted -/

/-- The extra info a message is accepted with. -/
def acceptedExtraInfo (msg : ToolsMessage φ α) : QVariantMap :=
  match msg.extraInfoMsg with
  | none => msg.getExtraInfo
  | some extraData => extraInfoOf fromJson extraData

/-- An updated message is accepted with what its extra info reads as after it was written. -/
theorem acceptedExtraInfo_updateMessage (msg : ToolsMessage φ α) :
    acceptedExtraInfo fromJson (P.updateMessage msg).1 =
      if msg.getExtraInfo = [] then []
      else extraInfoOf fromJson (P.m_frame.toJson msg.getExtraInfo) := by
  have hinfo : (P.updateMessage msg).1.getExtraInfo = msg.getExtraInfo := by
    rw [ToolsMessage.getExtraInfo, ToolsProtocol.updateMessage_extraInfo, ToolsMessage.getExtraInfo]
  unfold acceptedExtraInfo
  rw [hinfo]
  by_cases he : msg.getExtraInfo = []
  · rw [if_pos he, he]
    rcases updateMessage_noExtraInfo P he with h | h
    · rw [h]
    · rw [h]
      rfl
  · have hshown := (updateMessage_shown P (.inr he)).shows (by rwa [hinfo])
    rw [if_neg he, hshown, hinfo]

theorem acceptMsg_eq (d : MessageUpdateDialog φ α) (msg : ToolsMessage φ α) :
    ∃ e, acceptMsg fromJson d msg =
      { msg with
        delay := some d.delay.toMs
        delayUnits := some d.delay.units
        repeatDuration := some d.repeatDuration.toMs
        repeatDurationUnits := some d.repeatDuration.units
        repeatCount := some (UInt32.ofInt d.m_repeatCountSpinBox.value)
        extraInfo := e } ∧ e.getD [] = acceptedExtraInfo fromJson msg := by
  unfold acceptMsg acceptedExtraInfo
  cases h : msg.extraInfoMsg with
  | none => exact ⟨_, rfl, rfl⟩
  | some extraData => exact ⟨_, rfl, rfl⟩

variable (display : φ → α → Option α)

/-- What accepting the dialog on `m` at once gives. -/
structure Unedited (m m' : ToolsMessage φ α) : Prop where
  body : displayedBody display (P.updatedBody m) = some m'.body
  delay : m'.getDelay = (DurationWidgets.shown m.getDelay m.getDelayUnits).toMs
  delayUnits : m'.getDelayUnits = (DurationWidgets.shown m.getDelay m.getDelayUnits).units
  repeatDuration : m'.getRepeatDuration =
    (DurationWidgets.shown m.getRepeatDuration m.getRepeatDurationUnits).toMs
  repeatDurationUnits : m'.getRepeatDurationUnits =
    (DurationWidgets.shown m.getRepeatDuration m.getRepeatDurationUnits).units
  repeatCount :
    msToDurationUnits m.getRepeatDuration (stringToDuration m.getRepeatDurationUnits) ≠ 0 →
      m'.repeatCount = some (UInt32.ofInt (shownCount (m.getRepeatCount 0)))
  comment : m'.getComment = []
  extraInfo : m'.getExtraInfo =
    if m.getExtraInfo = [] then []
    else extraInfoOf fromJson (P.m_frame.toJson m.getExtraInfo)

theorem Unedited.getRepeatCount_iff {m' : ToolsMessage φ α}
    (h : Unedited P fromJson display m m')
    (hne : msToDurationUnits m.getRepeatDuration (stringToDuration m.getRepeatDurationUnits) ≠ 0) :
    (∀ defaultVal, m'.getRepeatCount defaultVal = m.getRepeatCount defaultVal) ↔
      ∃ n, m.repeatCount = some n ∧ n ≠ 1 ∧ n.toNat ≤ SendMgr.INT_MAX := by
  rw [← shownCount_getD_iff]
  unfold ToolsMessage.getRepeatCount
  rw [h.repeatCount hne]
  rfl

/-! ### The message that is edited -/

/-- What the constructor makes of a new message. -/
def takenFrom (m t : ToolsMessage φ α) : ToolsMessage φ α :=
  (P.updateMessage
    { t with body := m.body, extraInfo := ToolsMessage.copyFromTo m.extraInfo t.extraInfo }).1

theorem takenFrom_body : (takenFrom P m t).body = P.updatedBody m :=
  (P.updateMessage_body _).trans (P.updatedBody_congr rfl)

variable [DecidableEq φ]

/-- Only a message of the same class is taken. -/
theorem takeFrom_eq {f : φ} (hm : m.form = some f) :
    takeFrom P m t = if t.form = some f then some (takenFrom P m t) else none := by
  unfold takeFrom
  by_cases ht : t.form = some f
  · rw [if_pos ht, if_pos (ToolsMessage.idAsString_of_form _ (ht.trans hm.symm)),
      ToolsMessage.assign_of_form hm ht]
    rfl
  · rw [if_neg ht, ToolsMessage.assign_of_ne hm ht]
    exact ite_self none

theorem takeFrom_invalid (hm : m.form = none) : takeFrom P m t = none := by
  rw [takeFrom, ToolsMessage.assign_invalid hm]
  exact ite_self none

/-- The loop takes the first message it can. -/
theorem findMsg_cases (m : ToolsMessage φ α) (msgs : List (ToolsMessage φ α)) :
    (∀ t ∈ msgs, takeFrom P m t = none) ∧ findMsg P m msgs = (msgs, none) ∨
      ∃ t ∈ msgs, ∃ msg, takeFrom P m t = some msg ∧
        ∃ msgs' k, findMsg P m msgs = (msgs', some k) ∧ msgs'[k]? = some msg := by
  induction msgs with
  | nil => exact .inl ⟨by simp, rfl⟩
  | cons t msgs ih =>
      rw [findMsg]
      cases ht : takeFrom P m t with
      | some msg => exact .inr ⟨t, List.mem_cons_self, msg, ht, _, 0, rfl, rfl⟩
      | none =>
          rcases ih with ⟨hnone, hfind⟩ | ⟨t', ht', msg, htake, msgs', k, hfind, hk⟩
          · rw [hfind]
            exact .inl ⟨List.forall_mem_cons.mpr ⟨ht, hnone⟩, rfl⟩
          · rw [hfind]
            exact .inr ⟨t', List.mem_cons_of_mem _ ht', msg, htake, _, k + 1, rfl, hk⟩

section
variable {msgs : List (ToolsMessage φ α)} {k : ℕ} {msg : ToolsMessage φ α}
  (hfind : findMsg P m P.createAllMessages = (msgs, some k)) (hk : msgs[k]? = some msg)
include hfind hk

theorem opened_eq : opened display P (some m) =
    (displayedBody display msg.body).map fun body =>
      refreshInfo (loadTiming m
        { m_allMsgs := msgs.set k { msg with body := body }, currentRow := some k }) := by
  simp only [opened, hfind, displayMessage, hk, Option.bind_some, Option.map_map, Function.comp_def]

variable {d : MessageUpdateDialog φ α} (hd : opened display P (some m) = some d)
include hd

/-- The current item is the message that was taken, displayed. -/
theorem opened_currentItem : ∃ body, displayedBody display msg.body = some body ∧
    d.currentItem = some { msg with body := body } := by
  rw [opened_eq P display hfind hk] at hd
  obtain ⟨body, hbody, rfl⟩ := Option.map_eq_some_iff.mp hd
  refine ⟨body, hbody, ?_⟩
  have hlt := (List.getElem?_eq_some_iff.mp hk).1
  rw [refreshInfo_currentItem, loadTiming, loadRepeatCount_currentItem]
  exact List.getElem?_set_self hlt

theorem opened_delay : d.delay = DurationWidgets.shown m.getDelay m.getDelayUnits := by
  rw [opened_eq P display hfind hk] at hd
  obtain ⟨body, -, rfl⟩ := Option.map_eq_some_iff.mp hd
  rw [refreshInfo_delay, loadTiming, loadRepeatCount_delay]
  simp only [DisabledDelayValue, zero_add, DurationWidgets.shown]

theorem opened_repeatDuration :
    d.repeatDuration = DurationWidgets.shown m.getRepeatDuration m.getRepeatDurationUnits := by
  rw [opened_eq P display hfind hk] at hd
  obtain ⟨body, -, rfl⟩ := Option.map_eq_some_iff.mp hd
  rw [refreshInfo_repeatDuration, loadTiming, loadRepeatCount_repeatDuration]
  simp only [DisabledRepeatDuration, zero_add, DurationWidgets.shown]

theorem opened_repeatCount
    (hne : msToDurationUnits m.getRepeatDuration (stringToDuration m.getRepeatDurationUnits) ≠ 0) :
    d.m_repeatCountSpinBox.value = shownCount (m.getRepeatCount 0) := by
  rw [opened_eq P display hfind hk] at hd
  obtain ⟨body, -, rfl⟩ := Option.map_eq_some_iff.mp hd
  rw [loadTiming, refreshInfo_count _ _ (SendMgr.toInt_le _) rfl rfl, shownCount]
  rw [DurationWidgets.load_of_ne hne]

end

/-- The loop takes a message of the class of `m` if the protocol has the class. -/
theorem findMsg_of_form {f : φ} (hm : m.form = some f)
    (hf : f ∈ P.m_frame.m_factory.m_defaultMsgs) :
    ∃ t ∈ P.createAllMessages, ∃ msgs k, findMsg P m P.createAllMessages = (msgs, some k) ∧
      msgs[k]? = some (takenFrom P m t) := by
  obtain ⟨t, ht, hform⟩ : ∃ t ∈ P.createAllMessages, t.form = some f := by
    have hmem : some f ∈ P.createAllMessages.map ToolsMessage.form := by
      rw [P.createAllMessages_form]
      exact List.mem_map_of_mem hf
    exact List.mem_map.mp hmem
  rcases findMsg_cases P m P.createAllMessages with
    ⟨hnone, -⟩ | ⟨t, ht, msg, htake, msgs, k, hfind, hk⟩
  · have := hnone t ht
    rw [takeFrom_eq P hm, if_pos hform] at this
    cases this
  · rw [takeFrom_eq P hm] at htake
    split_ifs at htake
    obtain rfl := Option.some.inj htake
    exact ⟨t, ht, msgs, k, hfind, hk⟩

/-- **The message the dialog on `m` gives**: a new one with the fields that the widgets leave and
the extra info of `m`, with the timing that the widgets show, and without a comment. -/
theorem accept_opened {d : MessageUpdateDialog φ α} (hd : opened display P (some m) = some d)
    {f : φ} (hm : m.form = some f) (hf : f ∈ P.m_frame.m_factory.m_defaultMsgs) :
    ∃ m', accept fromJson d = some m' ∧ Unedited P fromJson display m m' := by
  obtain ⟨t, ht, msgs, k, hfind, hk⟩ := findMsg_of_form P hm hf
  obtain ⟨hextra, hcomment⟩ := P.createAllMessages_bare ht
  obtain ⟨body, hbody, hitem⟩ := opened_currentItem P display hfind hk hd
  obtain ⟨e, haccept, he⟩ := acceptMsg_eq fromJson d { takenFrom P m t with body := body }
  refine ⟨_, congrArg (Option.map _) hitem, ?_⟩
  have hdelay := opened_delay P display hfind hk hd
  have hrepeat := opened_repeatDuration P display hfind hk hd
  rw [haccept]
  constructor
  · rw [← takenFrom_body P (t := t)]
    exact hbody
  · show d.delay.toMs = _
    rw [hdelay]
  · show d.delay.units = _
    rw [hdelay]
  · show d.repeatDuration.toMs = _
    rw [hrepeat]
  · show d.repeatDuration.units = _
    rw [hrepeat]
  · intro hne
    rw [← opened_repeatCount P display hfind hk hd hne]
  · show (takenFrom P m t).comment.getD [] = []
    rw [takenFrom, ToolsProtocol.updateMessage_comment]
    simp only [hcomment, Option.getD_none]
  · have hinfo : ToolsMessage.getExtraInfo { t with
        body := m.body
        extraInfo := ToolsMessage.copyFromTo m.extraInfo t.extraInfo } = m.getExtraInfo := by
      rw [hextra]
      simp only [ToolsMessage.getExtraInfo, ToolsMessage.copyFromTo, Option.or_none]
    refine he.trans ?_
    show acceptedExtraInfo fromJson (takenFrom P m t) = _
    rw [takenFrom, acceptedExtraInfo_updateMessage, hinfo]

/-- The dialog opens if the widgets can be made. -/
theorem exists_opened {f : φ} (hm : m.form = some f) (hf : f ∈ P.m_frame.m_factory.m_defaultMsgs)
    {body : Body φ α} (hbody : displayedBody display (P.updatedBody m) = some body) :
    ∃ d, opened display P (some m) = some d := by
  obtain ⟨t, -, msgs, k, hfind, hk⟩ := findMsg_of_form P hm hf
  rw [opened_eq P display hfind hk, takenFrom_body, hbody]
  exact ⟨_, rfl⟩

/-- Without a class of the protocol there is no current item. -/
theorem exists_form_of_accept {d : MessageUpdateDialog φ α} {m' : ToolsMessage φ α}
    (hd : opened display P (some m) = some d) (h : accept fromJson d = some m') :
    ∃ f ∈ P.m_frame.m_factory.m_defaultMsgs, m.form = some f := by
  rcases findMsg_cases P m P.createAllMessages with
    ⟨-, hfind⟩ | ⟨t, ht, msg, htake, -⟩
  · have hitem : d.currentItem = none := by
      simp only [opened, hfind, Option.some.injEq] at hd
      rw [← hd, refreshInfo_currentItem]
      rfl
    rw [accept, hitem] at h
    cases h
  · cases hm : m.form with
    | none =>
        rw [takeFrom_invalid P hm] at htake
        cases htake
    | some f =>
        rw [takeFrom_eq P hm] at htake
        split_ifs at htake with hform
        have hmem := List.mem_map_of_mem (f := ToolsMessage.form) ht
        rw [P.createAllMessages_form, hform] at hmem
        obtain ⟨g, hg, hgf⟩ := List.mem_map.mp hmem
        exact ⟨g, hg, hgf.symm⟩

/-! ### What is carried -/

/-- The parts of a message that an edit should not change by itself; the readers of a repeat count
do not all assume the same default. -/
structure Unchanged (m m' : ToolsMessage φ α) : Prop where
  /-- The form and the payload. -/
  body : m'.body = m.body
  delay : m'.getDelay = m.getDelay
  delayUnits : m'.getDelayUnits = m.getDelayUnits
  repeatDuration : m'.getRepeatDuration = m.getRepeatDuration
  repeatDurationUnits : m'.getRepeatDurationUnits = m.getRepeatDurationUnits
  repeatCount : ∀ defaultVal, m'.getRepeatCount defaultVal = m.getRepeatCount defaultVal
  comment : m'.getComment = m.getComment
  extraInfo : m'.getExtraInfo = m.getExtraInfo

/-- What the dialog can carry of a message. -/
structure Carried (m : ToolsMessage φ α) : Prop where
  form : ∃ f ∈ P.m_frame.m_factory.m_defaultMsgs, m.form = some f
  /-- A refresh and the widgets made after it leave the payload as it is. -/
  body : displayedBody display (P.updatedBody m) = some m.body
  noDelay : m.getDelay = 0 → m.getDelayUnits = durationToString .Milliseconds
  delay : FitsWidgets m.getDelay m.getDelayUnits
  repeatDuration : FitsWidgets m.getRepeatDuration m.getRepeatDurationUnits
  repeatCount : ∃ n, m.repeatCount = some n ∧ n ≠ 1 ∧ n.toNat ≤ SendMgr.INT_MAX
  comment : m.getComment = []
  /-- The extra info is read back from its text. -/
  extraInfo : m.getExtraInfo ≠ [] →
    extraInfoOf fromJson (P.m_frame.toJson m.getExtraInfo) = m.getExtraInfo

/-- **Accepting at once changes nothing** of a message with a repetition if and only if the dialog
can carry the message. -/
theorem unchanged_iff (m : ToolsMessage φ α)
    (hdelay : m.getDelay % DurationMul (stringToDuration m.getDelayUnits) = 0)
    (hrepeat : m.getRepeatDuration % DurationMul (stringToDuration m.getRepeatDurationUnits) = 0)
    (hpos : 0 < m.getRepeatDuration) :
    (∃ d m', opened display P (some m) = some d ∧ accept fromJson d = some m' ∧
        Unchanged m m') ↔
      Carried P fromJson display m := by
  have hne : FitsWidgets m.getRepeatDuration m.getRepeatDurationUnits →
      msToDurationUnits m.getRepeatDuration (stringToDuration m.getRepeatDurationUnits) ≠ 0 := by
    intro hfits
    rw [ne_eq, msToDurationUnits_eq_zero_iff hrepeat hfits.number]
    exact (UInt64.pos_iff_ne_zero).mp hpos
  constructor
  · rintro ⟨d, m', hd, haccept, hsame⟩
    obtain ⟨f, hf, hm⟩ := exists_form_of_accept P fromJson display hd haccept
    obtain ⟨m'', haccept', hedit⟩ := accept_opened P fromJson display hd hm hf
    obtain rfl := Option.some.inj (haccept.symm.trans haccept')
    obtain ⟨hnone, hfits⟩ := (DurationWidgets.shown_eq_iff hdelay).mp
      ⟨hedit.delay.symm.trans hsame.delay, hedit.delayUnits.symm.trans hsame.delayUnits⟩
    obtain ⟨-, hfits'⟩ := (DurationWidgets.shown_eq_iff hrepeat).mp
      ⟨hedit.repeatDuration.symm.trans hsame.repeatDuration,
        hedit.repeatDurationUnits.symm.trans hsame.repeatDurationUnits⟩
    exact
      { form := ⟨f, hf, hm⟩
        body := hedit.body.trans (congrArg some hsame.body)
        noDelay := hnone
        delay := hfits
        repeatDuration := hfits'
        repeatCount :=
          (hedit.getRepeatCount_iff P fromJson display (hne hfits')).mp hsame.repeatCount
        comment := hsame.comment.symm.trans hedit.comment
        extraInfo := fun he => by
          have := hedit.extraInfo.symm.trans hsame.extraInfo
          rwa [if_neg he] at this }
  · intro h
    obtain ⟨f, hf, hm⟩ := h.form
    obtain ⟨d, hd⟩ := exists_opened P display hm hf h.body
    obtain ⟨m', haccept, hedit⟩ := accept_opened P fromJson display hd hm hf
    obtain ⟨hms, hunits⟩ := (DurationWidgets.shown_eq_iff hdelay).mpr ⟨h.noDelay, h.delay⟩
    obtain ⟨hms', hunits'⟩ := (DurationWidgets.shown_eq_iff hrepeat).mpr
      ⟨fun h0 => absurd h0 (UInt64.pos_iff_ne_zero.mp hpos), h.repeatDuration⟩
    refine ⟨d, m', hd, haccept, ?_⟩
    exact
      { body := Option.some.inj (hedit.body.symm.trans h.body)
        delay := hedit.delay.trans hms
        delayUnits := hedit.delayUnits.trans hunits
        repeatDuration := hedit.repeatDuration.trans hms'
        repeatDurationUnits := hedit.repeatDurationUnits.trans hunits'
        repeatCount :=
          (hedit.getRepeatCount_iff P fromJson display (hne h.repeatDuration)).mpr h.repeatCount
        comment := hedit.comment.trans h.comment.symm
        extraInfo := by
          rw [hedit.extraInfo]
          split_ifs with he
          · exact he.symm
          · exact h.extraInfo he }

/-! ### Two messages -/

def sampleProtocol : ToolsProtocol Unit UInt8 where
  name := []
  m_frame := syncFrame

/-- The byte in a spin box that shows it with an offset: a byte that the offset takes out of the
range is cut. -/
def byteDisplay (displayOffset : ℤ) (_ : Unit) (c : UInt8) : Option UInt8 :=
  let spinBox := (QSpinBox.new.setRange 0 255).setValue (c.toNat + displayOffset)
  some (UInt8.ofInt (spinBox.value - displayOffset))

example : byteDisplay 10 () 250 = some 245 := by decide

/-- Sent after two seconds, and then every minute without end. -/
def sampleMsg : ToolsMessage Unit UInt8 where
  body := .prot () 5
  delay := some 2000
  delayUnits := some "sec".toList
  repeatDuration := some 60000
  repeatDurationUnits := some "min".toList
  repeatCount := some 0

theorem unchanged_iff_sample :
    ∃ d m', opened (byteDisplay 0) sampleProtocol (some sampleMsg) = some d ∧
      accept (fun _ => []) d = some m' ∧ Unchanged sampleMsg m' :=
  (unchanged_iff sampleProtocol (fun _ => []) (byteDisplay 0) sampleMsg (by decide) (by decide)
    (by decide)).mpr
    { form := ⟨(), List.mem_cons_self, rfl⟩
      body := rfl
      noDelay := fun h => absurd h (by decide)
      delay := ⟨by decide, by decide⟩
      repeatDuration := ⟨by decide, by decide⟩
      repeatCount := ⟨0, rfl, by decide, by decide⟩
      comment := rfl
      extraInfo := fun h => absurd rfl h }

/-- The comment of a message is lost. -/
theorem comment_is_lost :
    ¬ ∀ m : ToolsMessage Unit UInt8,
      m.getDelay % DurationMul (stringToDuration m.getDelayUnits) = 0 →
      m.getRepeatDuration % DurationMul (stringToDuration m.getRepeatDurationUnits) = 0 →
      0 < m.getRepeatDuration →
      ∃ d m', opened (byteDisplay 0) sampleProtocol (some m) = some d ∧
        accept (fun _ => []) d = some m' ∧ Unchanged m m' := by
  intro h
  obtain ⟨d, m', hd, haccept, hsame⟩ := h { sampleMsg with comment := some ['c'] } (by decide)
    (by decide) (by decide)
  obtain ⟨m'', haccept', hedit⟩ := accept_opened sampleProtocol (fun _ => []) (byteDisplay 0) hd
    (f := ()) rfl List.mem_cons_self
  obtain rfl := Option.some.inj (haccept.symm.trans haccept')
  exact absurd (hsame.comment.symm.trans hedit.comment) (by decide)

end MessageUpdateDialog

end CcToolsQt
