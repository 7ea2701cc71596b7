import CcToolsQt.Forms
import CcToolsQt.SendMgr

/-! # Clones

`cloneMessage` clones a message, updates the clone and copies some properties over.  An invalid
message with an id text is taken for a regular one, so that its raw bytes are decoded as a framed
message.  `cloneMessage_preserves_iff` says which messages survive.

Whether the transport message of the protocol decodes given bytes is a parameter. -/

namespace CcToolsQt

variable {φ α : Type}

/-! ### The assertions -/

/-- `writeProtMsgImpl` gets to its end with a success. -/
def ToolsFrame.WriteSucceeds (F : ToolsFrame φ α) (form : φ) (content : α) : Prop :=
  match F.m_frame.write form content with
  | (.success, _) => True
  | (.error, _) => False
  | (.updateRequired, data) =>
      match F.m_frame.update form content data with
      | (.success, _) => True
      | _ => False

/-- The assertions of `updateMessageImpl`: the message is written, an invalid one from the raw
data it must have, and the transport message decodes what was written. -/
structure ToolsFrame.UpdateAsserted (F : ToolsFrame φ α) (decodesTransport : DataSeq → Bool)
    (msg : ToolsMessage φ α) : Prop where
  written : ∀ form content, msg.body = .prot form content → F.WriteSucceeds form content
  raw : msg.body = .invalid → msg.rawDataMsg.isSome = true
  decoded : decodesTransport (F.encodeFramed msg) = true

namespace ToolsProtocol
variable (P : ToolsProtocol φ α)

/-- The assertions of `updateMessage`. -/
def UpdateAsserted (decodesTransport : DataSeq → Bool) (msg : ToolsMessage φ α) : Prop :=
  msg.idAsString P.classes ≠ [] →
    P.m_frame.UpdateAsserted decodesTransport (msg.refreshMsg P.classes).1

/-- The clone `cloneMessage` passes to `updateMessage`, if it does. -/
def clonedToUpdate (msg : ToolsMessage φ α) : Option (ToolsMessage φ α) :=
  if (msg.idAsString P.classes).isEmpty then
    let clonedMsg :=
      match msg.rawDataMsg with
      | some data => P.createInvalidMessage data
      | none => P.setNameToMessageProperties ToolsFrame.createInvalidMessage
    if msg.getExtraInfo.isEmpty then none
    else some { copyCommonProperties msg clonedMsg with extraInfo := some msg.getExtraInfo }
  else some (P.setNameToMessageProperties (copyCommonProperties msg msg.clone))

/-- The assertions of `cloneMessage`. -/
def CloneAsserted (decodesTransport : DataSeq → Bool) (msg : ToolsMessage φ α) : Prop :=
  ∀ clonedMsg ∈ P.clonedToUpdate msg, P.UpdateAsserted decodesTransport clonedMsg

/-! ### The messages there are -/

/-- The messages the protocol makes, with whatever is done to their content and to their
properties, and their clones. -/
inductive Obtained : ToolsMessage φ α → Prop where
  | read {s : FrameState} {dataInfo : ToolsDataInfo} {final : Bool} {msg : ToolsMessage φ α} :
      msg ∈ (P.read s dataInfo final).2 → Obtained msg
  | createInvalidMessage (data : DataSeq) : Obtained (P.createInvalidMessage data)
  | createMessage {idAsString : QString} {idx : UInt32} {msg : ToolsMessage φ α} :
      P.createMessage idAsString idx = some msg → Obtained msg
  | assigned {msg : ToolsMessage φ α} (content : α) :
      Obtained msg → Obtained (msg.assignProtMessage content)
  | edited {msg : ToolsMessage φ α} (delay : Option UInt64) (delayUnits : Option QString)
      (repeatDuration : Option UInt64) (repeatDurationUnits : Option QString)
      (repeatCount : Option UInt32) (comment : Option QString) (extraInfo : Option QVariantMap) :
      Obtained msg → Obtained
        { msg with
          delay := delay
          delayUnits := delayUnits
          repeatDuration := repeatDuration
          repeatDurationUnits := repeatDurationUnits
          repeatCount := repeatCount
          comment := comment
          extraInfo := extraInfo }
  | cloneMessage {msg : ToolsMessage φ α} : Obtained msg → Obtained (P.cloneMessage msg)

/-- What a clone has in common with its original. -/
structure Preserved (decodesTransport : DataSeq → Bool) (msg : ToolsMessage φ α) : Prop where
  asserted : P.CloneAsserted decodesTransport msg
  form : (P.cloneMessage msg).form = msg.form
  numericId : (P.cloneMessage msg).numericId P.classes = msg.numericId P.classes
  idAsString : (P.cloneMessage msg).idAsString P.classes = msg.idAsString P.classes
  payload : msg.body ≠ .invalid →
    (P.cloneMessage msg).encodeData P.classes = msg.encodeData P.classes
  rawData : msg.body = .invalid → (P.cloneMessage msg).rawData = msg.rawData
  name : (P.cloneMessage msg).name P.classes = msg.name P.classes
  delay : (P.cloneMessage msg).delay = msg.delay
  delayUnits : (P.cloneMessage msg).delayUnits = msg.delayUnits
  repeatDuration : (P.cloneMessage msg).repeatDuration = msg.repeatDuration
  repeatDurationUnits : (P.cloneMessage msg).repeatDurationUnits = msg.repeatDurationUnits
  repeatCount : (P.cloneMessage msg).repeatCount = msg.repeatCount
  comment : (P.cloneMessage msg).comment = msg.comment
  extraInfo : (P.cloneMessage msg).getExtraInfo = msg.getExtraInfo

/-- An invalid message has raw data and, if the id 0 has a text, a transport message and bytes
that are those of a framed message; a regular one has an id text, is left alone by a refresh,
and the frame writes it and decodes what it wrote. -/
def Clonable (decodesTransport : DataSeq → Bool) (msg : ToolsMessage φ α) : Prop :=
  match msg.body with
  | .invalid =>
      msg.rawDataMsg.isSome = true ∧
        (msg.idAsString P.classes = [] ∨
          msg.transportMsg.isSome = true ∧ decodesTransport msg.rawData = true)
  | .prot f c =>
      msg.idAsString P.classes ≠ [] ∧
        P.classes.doWrite f (P.classes.doRefresh f c).1 = P.classes.doWrite f c ∧
        P.m_frame.WriteSucceeds f (P.classes.doRefresh f c).1 ∧
        decodesTransport (P.m_frame.writeProtMsgImpl f (P.classes.doRefresh f c).1) = true

/-! ### Which message is updated -/

section
variable {P} {msg : ToolsMessage φ α}

theorem cloneMessage_of_idAsString (hid : msg.idAsString P.classes ≠ []) :
    ∃ r, P.clonedToUpdate msg =
        some (P.setNameToMessageProperties (withTiming msg msg.body none r)) ∧
      (msg.body = .invalid → r = msg.rawDataMsg) ∧
      P.cloneMessage msg =
        { (P.updateMessage (P.setNameToMessageProperties (withTiming msg msg.body none r))).1 with
          extraInfo := msg.extraInfo } := by
  have hne : (msg.idAsString P.classes).isEmpty = false := by simpa using hid
  obtain ⟨r, hc, hr⟩ := clone_eq msg
  refine ⟨r, ?_, hr, ?_⟩
  · simp only [clonedToUpdate, hne, Bool.false_eq_true, if_false, hc, copyCommonProperties_bare]
  · simp only [cloneMessage, hne, Bool.false_eq_true, if_false, hc, copyCommonProperties_bare]
    obtain ⟨t, e, hu⟩ := P.updateMessage_eq
      (P.setNameToMessageProperties (withTiming msg msg.body none r))
    rw [hu]
    simp [setNameToMessageProperties, withTiming, ToolsMessage.copyFromTo]

/-- An update sets a transport message, but only if there is an id text. -/
theorem updateMessage_transportMsg (hid : msg.idAsString P.classes ≠ []) :
    (P.updateMessage msg).1.transportMsg.isSome = true := by
  have hne : (msg.idAsString P.classes).isEmpty = false := by simpa using hid
  simp only [updateMessage, hne, Bool.false_eq_true, if_false, ToolsFrame.updateMessageImpl]
  split_ifs <;> rfl

theorem updateMessage_transportMsg_of_nil (hid : msg.idAsString P.classes = []) :
    (P.updateMessage msg).1.transportMsg = msg.transportMsg := by
  simp only [updateMessage, hid, List.isEmpty_nil, if_true]
  split_ifs <;> rfl

theorem updateMessage_rawDataMsg_of_nil (hid : msg.idAsString P.classes = []) :
    (P.updateMessage msg).1.rawDataMsg = msg.rawDataMsg := by
  rw [P.updateMessage_rawDataMsg, updatedRawData, if_pos (by simpa using hid)]

theorem cloneMessage_transportMsg (hid : msg.idAsString P.classes ≠ []) :
    (P.cloneMessage msg).transportMsg.isSome = true := by
  obtain ⟨r, -, -, hc⟩ := cloneMessage_of_idAsString hid
  rw [hc]
  apply updateMessage_transportMsg
  exact fun h => hid ((idAsString_congr P.classes rfl).symm.trans h)

/-- Without an id text, neither of the message nor of the clone, no transport is set. -/
theorem cloneMessage_of_nil (hid : msg.idAsString P.classes = [])
    (hclone : (P.cloneMessage msg).idAsString P.classes = []) :
    (P.cloneMessage msg).transportMsg = none ∧
      (P.cloneMessage msg).rawDataMsg = msg.rawDataMsg := by
  have hbody : (P.cloneMessage msg).body = .invalid := by
    rw [P.cloneMessage_body, P.clonedBody_invalid (.inr hid)]
  have hzero : ∀ m : ToolsMessage φ α, m.body = .invalid → m.idAsString P.classes = [] :=
    fun m hm => (idAsString_congr P.classes (hm.trans hbody.symm)).trans hclone
  unfold cloneMessage
  simp only [hid, List.isEmpty_nil, if_true]
  split_ifs
  · cases msg.rawDataMsg <;> exact ⟨rfl, rfl⟩
  · rw [updateMessage_transportMsg_of_nil (hzero _ (by cases msg.rawDataMsg <;> rfl)),
      updateMessage_rawDataMsg_of_nil (hzero _ (by cases msg.rawDataMsg <;> rfl))]
    cases msg.rawDataMsg <;> exact ⟨rfl, rfl⟩

end

/-! ### Raw messages -/

/-- An invalid message with given raw data. -/
structure IsRaw (data : DataSeq) (msg : ToolsMessage φ α) : Prop where
  body : msg.body = .invalid
  rawDataMsg : msg.rawDataMsg = some data

namespace IsRaw
variable {P} {data : DataSeq} {msg : ToolsMessage φ α}

theorem rawData (h : IsRaw data msg) : msg.rawData = data := by
  rw [ToolsMessage.rawData, h.rawDataMsg]
  rfl

theorem update (h : IsRaw data msg) : IsRaw data (P.updateMessage msg).1 where
  body := by rw [P.updateMessage_body, P.updatedBody_invalid h.body]
  rawDataMsg := by
    rw [P.updateMessage_rawDataMsg]
    have hd := P.updatedRawData_invalid h.body
    unfold updatedRawData at hd ⊢
    split_ifs at hd ⊢
    · exact h.rawDataMsg
    · rw [h.rawData] at hd
      exact congrArg some hd

theorem clone (h : IsRaw data msg) : IsRaw data (P.cloneMessage msg) := by
  by_cases hid : msg.idAsString P.classes = []
  · unfold cloneMessage
    simp only [hid, List.isEmpty_nil, if_true, h.rawDataMsg]
    split_ifs
    · exact ⟨rfl, rfl⟩
    · apply IsRaw.update
      exact ⟨rfl, rfl⟩
  · obtain ⟨r, -, hr, hc⟩ := cloneMessage_of_idAsString hid
    rw [hc]
    have hu : IsRaw data
        (P.updateMessage (P.setNameToMessageProperties (withTiming msg msg.body none r))).1 := by
      apply IsRaw.update
      exact ⟨h.body, (hr h.body).trans h.rawDataMsg⟩
    exact ⟨hu.body, hu.rawDataMsg⟩

/-- A raw message is written as its bytes, with and without an id text. -/
theorem write (h : IsRaw data msg) (now : ℕ) : ∃ d, P.write now msg = some d ∧ d.m_data = data := by
  unfold ToolsProtocol.write
  split_ifs
  · rw [h.rawDataMsg]
    exact ⟨_, rfl, rfl⟩
  · refine ⟨_, rfl, ?_⟩
    simp [ToolsFrame.encodeFramed, ToolsMessage.encodeData, h.body, h.rawDataMsg]

end IsRaw

end ToolsProtocol

/-! ### What the scheduler sends -/

namespace SendMgr
variable (P : ToolsProtocol φ α)

/-- The messages the scheduler sends for a message: clones, put back with other delays and
counts. -/
inductive SentFor (msg : ToolsMessage φ α) : ToolsMessage φ α → Prop where
  | start : SentFor msg (startClone P msg)
  | again {m : ToolsMessage φ α} : SentFor msg m → SentFor msg (sentClone P m)
  | rescheduled {m : ToolsMessage φ α} (delay : Option UInt64) (repeatCount : Option UInt32) :
      SentFor msg m → SentFor msg { m with delay := delay, repeatCount := repeatCount }

/-- Everything in a list is sent for one of the given messages. -/
def AllSentFor (msgs q : List (ToolsMessage φ α)) : Prop :=
  ∀ m ∈ q, ∃ msg ∈ msgs, SentFor P msg m

/-- Everything queued and everything sent is for one of the given messages. -/
structure ForGiven (msgs : List (ToolsMessage φ α)) (s : SendMgr φ α) : Prop where
  queued : AllSentFor P msgs s.m_msgsToSend
  sent : ∀ b ∈ s.batches, AllSentFor P msgs b.2

section
variable {P} {msgs : List (ToolsMessage φ α)}

theorem reinsert_sentFor {q : List (ToolsMessage φ α)} {m msg : ToolsMessage φ α}
    (hmsg : msg ∈ msgs) (hm : SentFor P msg m) (hq : AllSentFor P msgs q) (d : UInt64) :
    AllSentFor P msgs (reinsert d m q) := by
  have hm' : ∃ x ∈ msgs, SentFor P x { m with delay := some d } :=
    ⟨msg, hmsg, .rescheduled (some d) m.repeatCount hm⟩
  induction q generalizing d with
  | nil =>
      intro x hx
      rw [List.mem_singleton.mp hx]
      exact hm'
  | cons y q ih =>
      unfold reinsert
      have hy := hq y List.mem_cons_self
      have hq' : AllSentFor P msgs q := fun x hx => hq x (List.mem_cons_of_mem _ hx)
      intro x hx
      split_ifs at hx
      · rcases List.mem_cons.mp hx with rfl | hx
        · exact hm'
        · rcases List.mem_cons.mp hx with rfl | hx
          · obtain ⟨z, hz, hzy⟩ := hy
            exact ⟨z, hz, .rescheduled _ y.repeatCount hzy⟩
          · exact hq' x hx
      · rcases List.mem_cons.mp hx with rfl | hx
        · exact hy
        · exact ih hq' _ ⟨msg, hmsg, .rescheduled _ m.repeatCount hm⟩ x hx

theorem countDown_sentFor {m msg : ToolsMessage φ α} (h : SentFor P msg m) :
    SentFor P msg (countDown m) := by
  unfold countDown
  split_ifs
  · exact .rescheduled m.delay _ h
  · exact h

theorem sendLoop_sentFor {ms q : List (ToolsMessage φ α)} (hms : AllSentFor P msgs ms)
    (hq : AllSentFor P msgs q) :
    AllSentFor P msgs (sendLoop P ms q).1 ∧ AllSentFor P msgs (sendLoop P ms q).2 := by
  induction ms generalizing q with
  | nil => exact ⟨by simp [sendLoop, AllSentFor], hq⟩
  | cons m ms ih =>
      obtain ⟨msg, hmsg, hm⟩ := hms m List.mem_cons_self
      have hms' : AllSentFor P msgs ms := fun x hx => hms x (List.mem_cons_of_mem _ hx)
      unfold sendLoop
      split_ifs
      · obtain ⟨h₁, h₂⟩ := ih hms' (reinsert_sentFor hmsg (countDown_sentFor hm) hq _)
        refine ⟨fun x hx => ?_, h₂⟩
        rcases List.mem_cons.mp hx with rfl | hx
        · exact ⟨msg, hmsg, hm.again⟩
        · exact h₁ x hx
      · obtain ⟨h₁, h₂⟩ := ih hms' hq
        refine ⟨fun x hx => ?_, h₂⟩
        rcases List.mem_cons.mp hx with rfl | hx
        · exact ⟨msg, hmsg, hm⟩
        · exact h₁ x hx

theorem zeroHeadDelay_sentFor {q : List (ToolsMessage φ α)} (hq : AllSentFor P msgs q) :
    AllSentFor P msgs (zeroHeadDelay q) := by
  cases q with
  | nil => exact hq
  | cons m q =>
      intro x hx
      rcases List.mem_cons.mp hx with rfl | hx
      · obtain ⟨msg, hmsg, hm⟩ := hq m List.mem_cons_self
        exact ⟨msg, hmsg, .rescheduled _ m.repeatCount hm⟩
      · exact hq x (List.mem_cons_of_mem _ hx)

theorem sendPendingAndWait_forGiven {s : SendMgr φ α} (h : ForGiven P msgs s) :
    ForGiven P msgs (sendPendingAndWait P s) := by
  obtain ⟨h₁, h₂⟩ := sendLoop_sentFor
    (fun m hm => h.queued m ((List.takeWhile_sublist _).subset hm))
    (fun m hm => h.queued m ((List.dropWhile_sublist _).subset hm))
  refine ⟨zeroHeadDelay_sentFor h₂, fun b hb => ?_⟩
  unfold sendPendingAndWait at hb
  dsimp only at hb
  split_ifs at hb
  · exact h.sent b hb
  · rcases List.mem_append.mp hb with hb | hb
    · exact h.sent b hb
    · rw [List.mem_singleton.mp hb]
      exact h₁

theorem run_forGiven (P : ToolsProtocol φ α) (msgs : List (ToolsMessage φ α)) (n : ℕ) :
    ForGiven P msgs (run P msgs n) := by
  induction n with
  | zero =>
      apply sendPendingAndWait_forGiven
      refine ⟨fun m hm => ?_, by simp⟩
      obtain ⟨msg, hmsg, rfl⟩ := List.mem_map.mp hm
      exact ⟨msg, hmsg, .start⟩
  | succ n ih =>
      unfold run timeout
      split
      · exact ih
      · apply sendPendingAndWait_forGiven
        exact ⟨ih.queued, ih.sent⟩

theorem SentFor.isRaw {msg m : ToolsMessage φ α} {data : DataSeq}
    (hraw : ToolsProtocol.IsRaw data msg) (h : SentFor P msg m) : ToolsProtocol.IsRaw data m := by
  have hupdate : ∀ (x : ToolsMessage φ α) (e : QVariantMap), ToolsProtocol.IsRaw data x →
      ToolsProtocol.IsRaw data (P.updateMessage { x with extraInfo := some e }).1 := by
    intro x e hx
    apply ToolsProtocol.IsRaw.update
    exact ⟨hx.body, hx.rawDataMsg⟩
  induction h with
  | start =>
      unfold startClone
      dsimp only
      rw [P.copyCommonProperties_cloneMessage]
      split_ifs
      · exact hraw.clone
      · exact hupdate _ _ hraw.clone
  | again hm ih =>
      unfold sentClone
      dsimp only
      split_ifs
      · exact ih.clone
      · exact hupdate _ _ ih.clone
  | rescheduled delay repeatCount hm ih => exact ⟨ih.body, ih.rawDataMsg⟩

end

end SendMgr

namespace ToolsProtocol
variable (P : ToolsProtocol φ α)

/-! ### Which messages survive -/

section
variable {P} {decodesTransport : DataSeq → Bool} {msg : ToolsMessage φ α}

theorem updateAsserted_congr {F : ToolsFrame φ α} {m m' : ToolsMessage φ α}
    (hb : m'.body = m.body) (hr : m.body = .invalid → m'.rawDataMsg = m.rawDataMsg)
    (h : F.UpdateAsserted decodesTransport m) : F.UpdateAsserted decodesTransport m' where
  written form content e := h.written form content (hb.symm.trans e)
  raw e := by
    rw [hr (hb.symm.trans e)]
    exact h.raw (hb.symm.trans e)
  decoded := by
    have he : F.encodeFramed m' = F.encodeFramed m := by
      unfold ToolsFrame.encodeFramed ToolsMessage.encodeData
      rw [hb]
      cases hm : m.body with
      | prot f c => rfl
      | invalid => simp only [hr hm]
    rw [he]
    exact h.decoded

/-- With an id text, the assertions of a clone are those of an update of its original. -/
theorem cloneAsserted_iff (hid : msg.idAsString P.classes ≠ []) :
    P.CloneAsserted decodesTransport msg ↔
      P.m_frame.UpdateAsserted decodesTransport (msg.refreshMsg P.classes).1 := by
  obtain ⟨r, hupd, hr, -⟩ := cloneMessage_of_idAsString hid
  set cloned := P.setNameToMessageProperties (withTiming msg msg.body none r) with hcl
  have hid' : cloned.idAsString P.classes ≠ [] :=
    fun h => hid ((idAsString_congr P.classes rfl).symm.trans h)
  have hbody : (cloned.refreshMsg P.classes).1.body = (msg.refreshMsg P.classes).1.body :=
    refreshMsg_congr P.classes rfl
  have hraw : (msg.refreshMsg P.classes).1.body = .invalid →
      (cloned.refreshMsg P.classes).1.rawDataMsg = (msg.refreshMsg P.classes).1.rawDataMsg := by
    intro hinv
    have hm : msg.body = .invalid := by
      cases hm : msg.body with
      | prot f c => simp [ToolsMessage.refreshMsg, hm] at hinv
      | invalid => rfl
    rw [refreshMsg_invalid _ hm, refreshMsg_invalid (m := cloned) _ hm]
    exact hr hm
  have hiff : P.CloneAsserted decodesTransport msg ↔ P.UpdateAsserted decodesTransport cloned := by
    unfold CloneAsserted
    rw [hupd]
    simp
  rw [hiff]
  exact ⟨fun h => updateAsserted_congr hbody.symm
      (fun e => (hraw (hbody.symm.trans e)).symm) (h hid'),
    fun h _ => updateAsserted_congr hbody hraw h⟩

/-- Messages that tell nothing of a transport have none. -/
theorem Obtained.transportMsg (h : P.Obtained msg) (hb : msg.body = .invalid)
    (hid : msg.idAsString P.classes = []) : msg.transportMsg = none := by
  induction h with
  | @read s dataInfo final msg hm =>
      obtain ⟨m₁, hm₁, rfl⟩ := List.mem_map.mp hm
      obtain ⟨m₀, h₀, rfl⟩ := P.m_frame.readDataImpl_asRead hm₁
      have hbody : m₀.body = .invalid := by
        rw [← P.m_frame.attachExtraProperties_body dataInfo.m_extraProperties m₀]
        exact hb
      cases h₀ with
      | garbage data =>
          unfold ToolsFrame.attachExtraProperties setNameToMessageProperties
          split_ifs <;> rfl
      | regular form content data => cases hbody
  | createInvalidMessage data => rfl
  | createMessage hm =>
      rw [P.createMessage_eq] at hm
      obtain ⟨f, -, rfl⟩ := Option.map_eq_some_iff.mp hm
      cases hb
  | @assigned m content _ ih =>
      have hbody : m.body = .invalid := by
        cases hm : m.body with
        | prot f c => simp [ToolsMessage.assignProtMessage, hm] at hb
        | invalid => rfl
      have hsame : m.assignProtMessage content = m := by
        simp only [ToolsMessage.assignProtMessage, hbody]
      rw [hsame] at hid ⊢
      exact ih hbody hid
  | edited _ _ _ _ _ _ _ _ ih => exact ih hb hid
  | @cloneMessage m _ _ =>
      by_cases hm : m.idAsString P.classes = []
      · exact (cloneMessage_of_nil hm hid).1
      · -- the clone is invalid as its original is, and has its id text
        exfalso
        have hform : m.body = .invalid := by
          cases hmb : m.body with
          | prot f c =>
              rw [P.cloneMessage_body, P.clonedBody_prot hm hmb] at hb
              cases hb
          | invalid => rfl
        exact hm ((idAsString_congr P.classes (hform.trans hb.symm)).trans hid)

/-- A clone with the object of its original, up to a refresh that leaves the payload alone. -/
theorem preserved_of_body (hasserted : P.CloneAsserted decodesTransport msg)
    (hform : (P.cloneMessage msg).form = msg.form)
    (hpayload : msg.body ≠ .invalid →
      (P.cloneMessage msg).encodeData P.classes = msg.encodeData P.classes)
    (hraw : msg.body = .invalid → (P.cloneMessage msg).rawData = msg.rawData)
    (hname : msg.body = .invalid →
      (P.cloneMessage msg).transportMsg.isSome = msg.transportMsg.isSome) :
    P.Preserved decodesTransport msg := by
  have hnameEq : (P.cloneMessage msg).name P.classes = msg.name P.classes := by
    unfold ToolsMessage.form at hform
    unfold ToolsMessage.name
    cases hm : msg.body <;> cases hc : (P.cloneMessage msg).body <;> simp_all
  exact
    { asserted := hasserted
      form := hform
      numericId := ToolsMessage.numericId_of_form _ hform
      idAsString := ToolsMessage.idAsString_of_form _ hform
      payload := hpayload
      rawData := hraw
      name := hnameEq
      delay := P.cloneMessage_delay msg
      delayUnits := P.cloneMessage_delayUnits msg
      repeatDuration := P.cloneMessage_repeatDuration msg
      repeatDurationUnits := P.cloneMessage_repeatDurationUnits msg
      repeatCount := P.cloneMessage_repeatCount msg
      comment := P.cloneMessage_comment msg
      extraInfo := P.cloneMessage_getExtraInfo msg }

/-- A regular message. -/
theorem preserved_prot_iff {f : φ} {c : α} (hm : msg.body = .prot f c) :
    P.Preserved decodesTransport msg ↔ P.Clonable decodesTransport msg := by
  have hclonable : P.Clonable decodesTransport msg ↔ msg.idAsString P.classes ≠ [] ∧
      P.classes.doWrite f (P.classes.doRefresh f c).1 = P.classes.doWrite f c ∧
      P.m_frame.WriteSucceeds f (P.classes.doRefresh f c).1 ∧
      decodesTransport (P.m_frame.writeProtMsgImpl f (P.classes.doRefresh f c).1) = true := by
    unfold Clonable
    rw [hm]
  have hrefresh : (msg.refreshMsg P.classes).1.body = .prot f (P.classes.doRefresh f c).1 := by
    simp only [ToolsMessage.refreshMsg, hm]
  have hframed : P.m_frame.encodeFramed (msg.refreshMsg P.classes).1 =
      P.m_frame.writeProtMsgImpl f (P.classes.doRefresh f c).1 := by
    unfold ToolsFrame.encodeFramed
    rw [hrefresh]
  rw [hclonable]
  constructor
  · intro h
    have hid : msg.idAsString P.classes ≠ [] := by
      intro hid
      have hform := h.form
      unfold ToolsMessage.form at hform
      rw [P.cloneMessage_body, P.clonedBody_invalid (.inr hid), hm] at hform
      cases hform
    have hpayload := h.payload (by rw [hm]; simp)
    unfold ToolsMessage.encodeData at hpayload
    rw [P.cloneMessage_body, P.clonedBody_prot hid hm, hm] at hpayload
    have hu := (cloneAsserted_iff hid).mp h.asserted
    exact ⟨hid, hpayload, hu.written _ _ hrefresh, hframed ▸ hu.decoded⟩
  · rintro ⟨hid, hpayload, hwrite, hdecode⟩
    have hbody : (P.cloneMessage msg).body = .prot f (P.classes.doRefresh f c).1 := by
      rw [P.cloneMessage_body, P.clonedBody_prot hid hm]
    have hnot : msg.body ≠ .invalid := by
      rw [hm]
      simp
    apply preserved_of_body
    · refine (cloneAsserted_iff hid).mpr ⟨fun form content e => ?_, fun e => ?_, hframed ▸ hdecode⟩
      · rw [hrefresh] at e
        cases e
        exact hwrite
      · rw [hrefresh] at e
        cases e
    · simp only [ToolsMessage.form, hbody, hm]
    · intro _
      simp only [ToolsMessage.encodeData, hbody, hm]
      exact hpayload
    · exact fun e => absurd e hnot
    · exact fun e => absurd e hnot

/-- An invalid message: its clone is invalid with the same raw data. -/
theorem preserved_of_invalid (hm : msg.body = .invalid)
    (hasserted : P.CloneAsserted decodesTransport msg)
    (hname : (P.cloneMessage msg).transportMsg.isSome = msg.transportMsg.isSome) :
    P.Preserved decodesTransport msg := by
  have hbody := P.clonedBody_invalid (.inl hm)
  apply preserved_of_body hasserted
  · simp only [ToolsMessage.form, P.cloneMessage_body, hbody, hm]
  · exact fun hne => absurd hm hne
  · exact fun _ => P.cloneMessage_rawData msg hbody
  · exact fun _ => hname

/-- Without id text and raw data, what the scheduler sends is not written. -/
theorem write_startClone_none (hm : msg.body = .invalid) (hid : msg.idAsString P.classes = [])
    (hnone : msg.rawDataMsg = none) (now : ℕ) :
    P.write now (SendMgr.startClone P msg) = none := by
  have hnil : ∀ m : ToolsMessage φ α, m.body = .invalid → m.idAsString P.classes = [] :=
    fun m h => (idAsString_congr P.classes (h.trans hm.symm)).trans hid
  have hcb : (P.cloneMessage msg).body = .invalid := by
    rw [P.cloneMessage_body, P.clonedBody_invalid (.inl hm)]
  have hclone : (P.cloneMessage msg).rawDataMsg = none :=
    (cloneMessage_of_nil hid (hnil _ hcb)).2.trans hnone
  have hraw : (SendMgr.startClone P msg).rawDataMsg = none ∧
      (SendMgr.startClone P msg).body = .invalid := by
    unfold SendMgr.startClone
    dsimp only
    rw [P.copyCommonProperties_cloneMessage]
    split_ifs
    · exact ⟨hclone, hcb⟩
    · refine ⟨(updateMessage_rawDataMsg_of_nil ?_).trans hclone, ?_⟩
      · exact hnil _ hcb
      · exact (P.updateMessage_body _).trans (P.updatedBody_invalid hcb)
  unfold ToolsProtocol.write
  simp [hnil _ hraw.2, hraw.1]

/-- The assertions do not look at a clone without id text that has raw data. -/
theorem cloneAsserted_of_nil (hm : msg.body = .invalid) (hid : msg.idAsString P.classes = [])
    {data : DataSeq} (hdata : msg.rawDataMsg = some data) :
    P.CloneAsserted decodesTransport msg := by
  intro cloned hcloned hne
  refine absurd ((idAsString_congr P.classes ?_).trans hid) hne
  unfold clonedToUpdate at hcloned
  simp only [hid, List.isEmpty_nil, if_true, hdata] at hcloned
  split_ifs at hcloned
  · cases hcloned
  · cases hcloned
    exact hm.symm

/-- With an id text they are that the raw data is there and decodes as a transport message. -/
theorem cloneAsserted_invalid_iff (hm : msg.body = .invalid)
    (hid : msg.idAsString P.classes ≠ []) : P.CloneAsserted decodesTransport msg ↔
      msg.rawDataMsg.isSome = true ∧ decodesTransport msg.rawData = true := by
  have hframed : P.m_frame.encodeFramed msg = msg.rawData := by
    simp only [ToolsFrame.encodeFramed, ToolsMessage.encodeData, hm, ToolsMessage.rawData]
  rw [cloneAsserted_iff hid, refreshMsg_invalid _ hm]
  constructor
  · exact fun h => ⟨h.raw hm, hframed ▸ h.decoded⟩
  · rintro ⟨hsome, hdecode⟩
    refine ⟨fun form content e => ?_, fun _ => hsome, hframed ▸ hdecode⟩
    rw [hm] at e
    cases e

/-- An invalid message, as the protocol makes them, with all that the scheduler sends for it. -/
theorem preserved_invalid_iff (h : P.Obtained msg) (hm : msg.body = .invalid) :
    (P.Preserved decodesTransport msg ∧ ∀ m, SendMgr.SentFor P msg m → ∀ now,
        ∃ d, P.write now m = some d ∧ d.m_data = msg.rawData) ↔
      P.Clonable decodesTransport msg := by
  have hclonable : P.Clonable decodesTransport msg ↔ msg.rawDataMsg.isSome = true ∧
      (msg.idAsString P.classes = [] ∨
        msg.transportMsg.isSome = true ∧ decodesTransport msg.rawData = true) := by
    unfold Clonable
    rw [hm]
  have hwritten : msg.rawDataMsg.isSome = true → ∀ m, SendMgr.SentFor P msg m → ∀ now,
      ∃ d, P.write now m = some d ∧ d.m_data = msg.rawData := by
    intro hsome m hsent now
    obtain ⟨data, hdata⟩ := Option.isSome_iff_exists.mp hsome
    have hraw : IsRaw data msg := ⟨hm, hdata⟩
    exact hraw.rawData ▸ (hsent.isRaw hraw).write now
  have hcb : (P.cloneMessage msg).body = .invalid := by
    rw [P.cloneMessage_body, P.clonedBody_invalid (.inl hm)]
  rw [hclonable]
  by_cases hid : msg.idAsString P.classes = []
  · simp only [hid, true_or, and_true]
    constructor
    · rintro ⟨-, hsent⟩
      by_contra hnone
      obtain ⟨d, hd, -⟩ := hsent _ .start 0
      rw [write_startClone_none hm hid (by simpa using hnone)] at hd
      cases hd
    · intro hsome
      obtain ⟨data, hdata⟩ := Option.isSome_iff_exists.mp hsome
      have hcid := (idAsString_congr P.classes (hcb.trans hm.symm)).trans hid
      refine ⟨preserved_of_invalid hm (cloneAsserted_of_nil hm hid hdata) ?_, hwritten hsome⟩
      rw [(cloneMessage_of_nil hid hcid).1, h.transportMsg hm hid]
  · simp only [hid, false_or]
    constructor
    · rintro ⟨hp, -⟩
      obtain ⟨hsome, hdecode⟩ := (cloneAsserted_invalid_iff hm hid).mp hp.asserted
      refine ⟨hsome, ?_, hdecode⟩
      have hname := hp.name
      unfold ToolsMessage.name at hname
      rw [hcb, hm, if_pos (cloneMessage_transportMsg hid)] at hname
      by_contra hnone
      rw [if_neg hnone] at hname
      exact absurd (List.cons.inj hname).1 (by decide)
    · rintro ⟨hsome, htrans, hdecode⟩
      have hasserted := (cloneAsserted_invalid_iff hm hid).mpr ⟨hsome, hdecode⟩
      refine ⟨preserved_of_invalid hm hasserted ?_, hwritten hsome⟩
      rw [cloneMessage_transportMsg hid, htrans]

end

/-- **A clone preserves its original, and raw messages are sent byte for byte**, if and only if the
message is clonable; the messages the scheduler sends are those it makes for the given ones. -/
theorem cloneMessage_preserves_iff (decodesTransport : DataSeq → Bool) :
    (∀ msg, P.Obtained msg →
      (P.Preserved decodesTransport msg ∧ (msg.body = .invalid → ∀ m, SendMgr.SentFor P msg m →
          ∀ now, ∃ d, P.write now m = some d ∧ d.m_data = msg.rawData) ↔
        P.Clonable decodesTransport msg)) ∧
    ∀ msgs n, ∀ e ∈ (SendMgr.run P msgs n).sent, ∃ msg ∈ msgs, SendMgr.SentFor P msg e.2 := by
  constructor
  · intro msg h
    cases hm : msg.body with
    | prot f c => simpa using preserved_prot_iff hm
    | invalid => simpa using preserved_invalid_iff h hm
  · intro msgs n e he
    obtain ⟨b, hb, he⟩ := List.mem_flatMap.mp he
    obtain ⟨m, hm, rfl⟩ := List.mem_map.mp he
    exact (SendMgr.run_forGiven P msgs n).sent b hb m hm

/-! ### A sample protocol -/

def syncProtocol : ToolsProtocol Unit UInt8 where
  name := []
  m_frame := syncFrame

/-- The transport message of `syncFrame` is the two bytes of a message. -/
def decodesSync : DataSeq → Bool
  | [b, _] => b == syncByte
  | _ => false

theorem cloneMessage_preserves_iff_sync :
    syncProtocol.Preserved decodesSync { body := .prot () 0, idx := some 0 } :=
  (((cloneMessage_preserves_iff syncProtocol decodesSync).1 _ (.createMessage
    (show syncProtocol.createMessage ['0'] 0 = _ from rfl))).mpr
      ⟨by decide, rfl, trivial, by decide⟩).1

/-- A clone of the byte 7 is named like a message with transport fields, and an assertion fails
before that. -/
theorem clone_takes_raw_for_framed :
    syncProtocol.Obtained (syncProtocol.createInvalidMessage [7]) ∧
      (syncProtocol.createInvalidMessage [7]).name syncFrame.classes = ['-', '#', '-'] ∧
      (syncProtocol.cloneMessage (syncProtocol.createInvalidMessage [7])).name syncFrame.classes =
        ['?', '?', '?'] ∧
      ¬ syncProtocol.CloneAsserted decodesSync (syncProtocol.createInvalidMessage [7]) := by
  refine ⟨.createInvalidMessage [7], rfl, rfl, fun h => ?_⟩
  have hid : (syncProtocol.createInvalidMessage [7]).idAsString syncProtocol.classes ≠ [] := by
    decide
  exact absurd ((cloneAsserted_iff hid).mp h).decoded (by decide)

end ToolsProtocol

end CcToolsQt
