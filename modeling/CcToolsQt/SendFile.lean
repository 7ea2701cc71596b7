import CcToolsQt.Reload
import CcToolsQt.Plugins
import CcToolsQt.SendMgr

/-! # Files of the send list

What becomes of a send list that is saved and loaded, for protocols with decimal or hexadecimal
id texts.

* `SendBuilt` are the messages the application puts into the list; the number stored in one is
  that of its form (`SendBuilt.numbered`), or none.
* `sendFile_iff` says which lists are read back, `sendFile_roundTrip_iff` says it of the lists
  the application builds: those without raw data in which the stored number or the payload tells
  each form from the forms of the same id before it.
* `scheduled_congr`: a list that is read back is sent at the same times. -/

namespace CcToolsQt

namespace ToolsMsgFileMgr
variable {φ α File : Type} (P : ToolsProtocol φ α) (Q : QtFiles File)

/-! ### The entries of a message to send -/

/-- The map written for a message to send. -/
structure SendEntries (map : QVariantMap) (m : ToolsMessage φ α) : Prop
    extends Describes P map m where
  timestamp : TimestampProp.getFrom map 0 = 0
  delay : DelayProp.getFrom map 0 = m.getDelay
  delayUnits : DelayUnitsProp.getFrom map [] = m.getDelayUnits
  repeatDuration : RepeatProp.getFrom map 0 = m.getRepeatDuration
  repeatUnits : RepeatUnitsProp.getFrom map [] = m.getRepeatDurationUnits
  repeatCount : RepeatCountProp.getFrom map 0 = m.getRepeatCount 1
  comment : CommentProp.getFrom map [] = m.getComment

theorem convertSendMsg_entries (m : ToolsMessage φ α) : SendEntries P (convertSendMsg P m) m := by
  unfold convertSendMsg
  dsimp only
  set map := RepeatCountProp.setTo (m.getRepeatCount 1)
    (RepeatUnitsProp.setTo m.getRepeatDurationUnits (RepeatProp.setTo m.getRepeatDuration
      (DelayUnitsProp.setTo m.getDelayUnits (DelayProp.setTo m.getDelay
        (DataProp.setTo (encodeMsgData P.classes m)
          (MsgIdxProp.setTo m.getIdx (IdProp.setTo (m.idAsString P.classes) []))))))) with hmap
  have hc : CommentProp.getFrom map [] = [] := by
    simp (disch := decide) only [hmap, ToolsMsgPropBase.getFrom_setTo_of_ne]
    rfl
  have he : ExtraPropsProp.getFrom map [] = [] := by
    simp (disch := decide) only [hmap, ToolsMsgPropBase.getFrom_setTo_of_ne]
    rfl
  obtain ⟨hcomment, hextra⟩ := getFrom_comment m.getComment m.getExtraInfo hc he
  refine ⟨⟨?_, ?_, ?_, hextra⟩, ?_, ?_, ?_, ?_, ?_, ?_, hcomment⟩
  case refine_4 =>
    simp (disch := decide) only [hmap, getFrom_setNonEmpty_of_ne,
      ToolsMsgPropBase.getFrom_setTo_of_ne]
    rfl
  all_goals
    simp (disch := decide) only [hmap, getFrom_setNonEmpty_of_ne,
      ToolsMsgPropBase.getFrom_setTo_of_ne, ToolsMsgPropBase.getFrom_setTo]

/-! ### Saved and loaded -/

/-- The repeat count of a message; without a repeat duration 0 stands for one send. -/
def normalCount (m : ToolsMessage φ α) : UInt32 :=
  if m.getRepeatDuration = 0 ∧ m.getRepeatCount 1 = 0 then 1 else m.getRepeatCount 1

/-- What a message to send and the one loaded for it have to agree on. -/
structure SameSend (m m' : ToolsMessage φ α) : Prop where
  body : m'.body = m.body
  rawData : m.body = .invalid → m'.rawData = m.rawData
  delay : m'.getDelay = m.getDelay
  delayUnits : m'.getDelayUnits = m.getDelayUnits
  repeatDuration : m'.getRepeatDuration = m.getRepeatDuration
  repeatUnits : m'.getRepeatDurationUnits = m.getRepeatDurationUnits
  repeatCount : m'.getRepeatCount 1 = normalCount m
  comment : m'.getComment = m.getComment
  extraInfo : m'.getExtraInfo = m.getExtraInfo

/-- The message that is loaded for a saved one. -/
def loadedSend (m : ToolsMessage φ α) : Option (ToolsMessage φ α) :=
  (createMsgObjectFrom P Q (.map (convertSendMsg P m))).map fun msg =>
    { msg with
      delay := some m.getDelay
      delayUnits := some m.getDelayUnits
      repeatDuration := some m.getRepeatDuration
      repeatDurationUnits := some m.getRepeatDurationUnits
      repeatCount := some (normalCount m)
      comment := some m.getComment }

/-- A saved message has no timestamp, so its delay stays and nothing is carried on. -/
theorem sendTiming_eq {map : QVariantMap} {m : ToolsMessage φ α} (h : SendEntries P map m)
    (prevTimestamp : UInt64) :
    sendTiming prevTimestamp map = (m.getDelay, normalCount m, prevTimestamp) := by
  unfold sendTiming normalCount
  rw [h.delay, h.repeatCount, h.repeatDuration, h.timestamp]
  split_ifs <;> simp_all

theorem sendMsgListFrom_convert (prevTimestamp : UInt64) (L : List (ToolsMessage φ α)) :
    sendMsgListFrom P Q prevTimestamp (convertSendMsgList P L) = L.filterMap (loadedSend P Q) := by
  induction L with
  | nil => rfl
  | cons m L ih =>
      have hent := convertSendMsg_entries P m
      rw [convertSendMsgList, List.map_cons, sendMsgListFrom, ← convertSendMsgList]
      cases hm : createMsgObjectFrom P Q (.map (convertSendMsg P m)) with
      | none =>
          rw [List.filterMap_cons_none (by simp [loadedSend, hm])]
          exact ih
      | some msg =>
          simp only [QVariant.toMap, Option.getD_some, sendTiming_eq P hent, hent.delayUnits,
            hent.repeatDuration, hent.repeatUnits, hent.comment, ih]
          rw [List.filterMap_cons_some]
          simp only [loadedSend, hm, Option.map_some]

/-- The messages of the file are written and read one by one. -/
theorem load_save_send (L : List (ToolsMessage φ α)) :
    load P Q .Send (save P Q .Send L) = L.filterMap (loadedSend P Q) := by
  simp only [load, save, Q.fromJson_toJson, sendMsgListFrom_convert]

section
variable {P} (hne : ∀ n, P.classes.idAsStringImpl n ≠ [])
include hne

/-- A message is read back if and only if it is reloaded as it was. -/
theorem loadedSend_iff (m : ToolsMessage φ α) :
    (∃ m', loadedSend P Q m = some m' ∧ SameSend m m') ↔ reloaded P m = some m.body := by
  have hent := (convertSendMsg_entries P m).toDescribes
  obtain ⟨hbody, hextra⟩ := createMsgObjectFrom_describes Q hne hent
  unfold loadedSend
  rw [← hbody]
  cases hm' : createMsgObjectFrom P Q (.map (convertSendMsg P m)) with
  | none => simp
  | some m' =>
      simp only [Option.map_some, Option.some.injEq]
      constructor
      · rintro ⟨m'', rfl, hsame⟩
        exact hsame.body
      · intro hb
        refine ⟨_, rfl, hb, ?_, rfl, rfl, rfl, rfl, rfl, rfl, hextra m' hm'⟩
        exact fun hinv => absurd (hb.trans hinv) (body_ne_invalid_of_describes Q hne hent hm')

/-- **Which send lists are read back**, for any protocol. -/
theorem sendFile_iff (L : List (ToolsMessage φ α)) :
    List.Forall₂ SameSend L (load P Q .Send (save P Q .Send L)) ↔
      ∀ m ∈ L, reloaded P m = some m.body := by
  rw [load_save_send, forall₂_filterMap_iff]
  exact forall₂_congr fun m _ => loadedSend_iff Q hne m

end

/-! ### The schedule of a list that is read back -/

/-- Lists that agree on a property have the same list of its values. -/
theorem map_congr_forall₂ {β γ : Type} {R : β → β → Prop} {g : β → γ}
    (hg : ∀ b b', R b b' → g b' = g b) {l l' : List β} (h : List.Forall₂ R l l') :
    l'.map g = l.map g := by
  induction h with
  | nil => rfl
  | cons h _ ih => rw [List.map_cons, List.map_cons, hg _ _ h, ih]

theorem dueTime_congr {L L' : List (ToolsMessage φ α)} (h : List.Forall₂ SameSend L L') (i : ℕ) :
    SendMgr.dueTime L' i = SendMgr.dueTime L i := by
  have hmap : L'.map (fun m => m.getDelay.toNat) = L.map fun m => m.getDelay.toNat :=
    map_congr_forall₂ (fun m m' hm => by rw [hm.delay]) h
  rw [SendMgr.dueTime, SendMgr.dueTime, List.map_take, List.map_take, hmap]

/-- **A list that is read back is sent at the same times.** -/
theorem scheduled_congr {L L' : List (ToolsMessage φ α)} (h : List.Forall₂ SameSend L L') {i : ℕ}
    {m m' : ToolsMessage φ α} (hm : L[i]? = some m) (hm' : L'[i]? = some m') (t : ℕ) :
    SendMgr.Scheduled L' i m' t ↔ SendMgr.Scheduled L i m t := by
  obtain ⟨hi, rfl⟩ := List.getElem?_eq_some_iff.mp hm
  obtain ⟨hi', rfl⟩ := List.getElem?_eq_some_iff.mp hm'
  have hsame := h.get hi hi'
  simp only [List.get_eq_getElem] at hsame
  unfold SendMgr.Scheduled
  rw [dueTime_congr h, hsame.repeatDuration, hsame.repeatCount]
  refine exists_congr fun k => and_congr_left fun _ => ?_
  -- the count matters only with a repeat duration
  unfold SendMgr.Occurs normalCount
  split_ifs with h0 hcount <;> simp_all

/-! ### The lists the application builds -/

/-- The messages of the send list: picked from those of the protocol, edited in their fields,
their timing or their comment, entered as raw data, or duplicated from a message of either list. -/
inductive SendBuilt : ToolsMessage φ α → Prop where
  | picked {m : ToolsMessage φ α} (h : m ∈ P.createAllMessages) : SendBuilt m
  | edited {m : ToolsMessage φ α} (content : α) (h : SendBuilt m) :
      SendBuilt (P.updateMessage (m.assignProtMessage content)).1
  | scheduled {m : ToolsMessage φ α} (delay repeatDuration : UInt64)
      (delayUnits repeatDurationUnits : QString) (repeatCount : UInt32) (h : SendBuilt m) :
      SendBuilt
        { m with
          delay := some delay
          delayUnits := some delayUnits
          repeatDuration := some repeatDuration
          repeatDurationUnits := some repeatDurationUnits
          repeatCount := some repeatCount }
  | annotated {m : ToolsMessage φ α} (comment : QString) (extraInfo : QVariantMap)
      (h : SendBuilt m) :
      SendBuilt { m with comment := some comment, extraInfo := some extraInfo }
  | raw (data : DataSeq) : SendBuilt (P.createInvalidMessage data)
  | duplicated (m : ToolsMessage φ α) : SendBuilt (P.cloneMessage m)

/-- The id texts of the decimal default and of the demo protocol. -/
def NumericIds (C : MsgClasses φ α) : Prop :=
  C.idAsStringImpl = QString.number10 ∨ C.idAsStringImpl = QString.hexId 2

namespace NumericIds
variable {C : MsgClasses φ α} (h : NumericIds C)
include h

theorem ne_nil (n : ℤ) : C.idAsStringImpl n ≠ [] := by
  rcases h with h | h
  · rw [h]
    exact QString.number10_ne_nil n
  · rw [h, QString.hexId]
    simp

theorem inj (f g : φ)
    (e : C.idAsStringImpl (C.numericIdImpl f) = C.idAsStringImpl (C.numericIdImpl g)) :
    C.numericIdImpl f = C.numericIdImpl g := by
  rcases h with h | h
  · rw [h] at e
    exact QString.number10_inj (C.inLongLong f) (C.inLongLong g) e
  · rw [h] at e
    exact QString.hexId_inj (C.inLongLong f) (C.inLongLong g) e

theorem spelledId_some {f : φ}
    (hpos : C.idAsStringImpl = QString.number10 ∨ 0 ≤ C.numericIdImpl f) :
    QString.spelledId (C.idAsStringImpl (C.numericIdImpl f)) = some (C.numericIdImpl f) := by
  rcases h with h | h
  · rw [h]
    exact QString.spelledId_number10 (C.inLongLong f)
  · rcases hpos with hten | hpos
    · rw [hten]
      exact QString.spelledId_number10 (C.inLongLong f)
    · rw [h, QString.spelledId_hexId 2 (C.inLongLong f), if_pos hpos]

/-- The hexadecimal text of a negative id is not read back. -/
theorem spelledId_none {f : φ}
    (hneg : ¬ (C.idAsStringImpl = QString.number10 ∨ 0 ≤ C.numericIdImpl f)) :
    QString.spelledId (C.idAsStringImpl (C.numericIdImpl f)) = none := by
  rw [not_or] at hneg
  rw [h.resolve_left hneg.1, QString.spelledId_hexId 2 (C.inLongLong f), if_neg hneg.2]

end NumericIds

theorem assignProtMessage_idx (m : ToolsMessage φ α) (content : α) :
    (m.assignProtMessage content).idx = m.idx := by
  unfold ToolsMessage.assignProtMessage
  split <;> rfl

theorem cloneMessage_idx (m : ToolsMessage φ α) : (P.cloneMessage m).idx = none := by
  obtain ⟨e, n, t, r, i, h, -⟩ := P.cloneMessage_eq m
  rw [h]
  rfl

/-- The number stored in a message of the list is that of its form. -/
theorem SendBuilt.numbered (hid : NumericIds P.classes) {m : ToolsMessage φ α}
    (h : SendBuilt P m) :
    ∀ f c, m.body = .prot f c → m.idx = none ∨ ∃ j, P.NumberedAs m f j := by
  induction h with
  | picked h =>
      intro f c hm
      obtain ⟨f', c', j, hm', hnum⟩ := P.createAllMessages_numbered hid.ne_nil hid.inj h
      obtain ⟨rfl, -⟩ := Body.prot.inj (hm.symm.trans hm')
      exact Or.inr ⟨j, hnum⟩
  | @edited m content _ ih =>
      intro f c hm
      cases hb : m.body with
      | invalid =>
          have hinv : (m.assignProtMessage content).body = .invalid := by
            simp [ToolsMessage.assignProtMessage, hb]
          rw [P.updateMessage_body, P.updatedBody_invalid hinv] at hm
          cases hm
      | prot f' c' =>
          have hassign : (m.assignProtMessage content).body = .prot f' content := by
            simp [ToolsMessage.assignProtMessage, hb]
          rw [P.updateMessage_body, P.updatedBody_prot (hid.ne_nil _) hassign] at hm
          obtain ⟨rfl, -⟩ := Body.prot.inj hm
          unfold ToolsProtocol.NumberedAs
          rw [P.updateMessage_idx, assignProtMessage_idx]
          exact ih f' c' hb
  | scheduled _ _ _ _ _ _ ih => exact ih
  | annotated _ _ _ ih => exact ih
  | raw data =>
      intro f c hm
      cases hm
  | duplicated m => exact fun _ _ _ => Or.inl (cloneMessage_idx P m)

/-- The index saved for a message of the list is 0 or that of its form. -/
theorem SendBuilt.getIdx (hid : NumericIds P.classes) {m : ToolsMessage φ α}
    (h : SendBuilt P m) {f : φ} {c : α} (hm : m.body = .prot f c) :
    m.getIdx = 0 ∨
      (P.m_frame.m_factory.formsOf (P.classes.numericIdImpl f))[m.getIdx.toNat]? = some f := by
  rcases h.numbered P hid f c hm with h | ⟨j, hj, hstored⟩
  · exact Or.inl (by simp [ToolsMessage.getIdx, h])
  · -- a number below the number of forms fits into the index
    have hlt := (List.getElem?_eq_some_iff.mp hj).1
    have hlen := P.m_frame.m_factory.length_formsOf (P.classes.numericIdImpl f)
    have hbound := P.m_frame.m_factory.length_lt
    have e : m.getIdx.toNat = j := by
      rw [ToolsMessage.getIdx, hstored, Option.getD_some, UInt32.toNat_ofNat',
        Nat.mod_eq_of_lt (by omega)]
    exact Or.inr (by rw [e, hj])

/-! ### Which form is found again -/

/-- With no number stored, or that of a form which reads the payload, that form is found if and
only if it has the number or no form before it reads the payload. -/
theorem firstDecoding_attempts_iff {C : MsgClasses φ α} {forms : List φ} {idx : UInt32} {f : φ}
    {c : α} {data : DataSeq} (hread : C.doRead f data = some c)
    (hidx : idx = 0 ∨ forms[idx.toNat]? = some f) :
    firstDecoding C data (attempts idx forms) = some (.prot f c) ↔
      ∃ j, forms[j]? = some f ∧
        (idx.toNat = j ∨ ∀ i g, i < j → forms[i]? = some g → C.doRead g data = none) := by
  by_cases h0 : idx = 0
  · have hzero : idx.toNat = 0 := by rw [h0]; rfl
    rw [attempts, if_pos h0, List.nil_append, firstDecoding, List.findSome?_eq_some_iff]
    constructor
    · rintro ⟨before, g, after, hsplit, hg, hbefore⟩
      obtain ⟨c', -, hc⟩ := Option.map_eq_some_iff.mp hg
      obtain ⟨rfl, -⟩ := Body.prot.inj hc
      refine ⟨before.length, by simp [hsplit], Or.inr fun i k hi hk => ?_⟩
      rw [hsplit, List.getElem?_append_left hi] at hk
      exact Option.map_eq_none_iff.mp (hbefore k (List.mem_of_getElem? hk))
    · rintro ⟨j, hj, hfirst⟩
      obtain ⟨hlt, rfl⟩ := List.getElem?_eq_some_iff.mp hj
      refine ⟨forms.take j, forms[j], forms.drop (j + 1), ?_, by simp [hread], fun g hg => ?_⟩
      · rw [← List.drop_eq_getElem_cons hlt, List.take_append_drop]
      · obtain ⟨i, hi⟩ := List.mem_iff_getElem?.mp hg
        have hij : i < j := by
          have := (List.getElem?_eq_some_iff.mp hi).1
          rw [List.length_take] at this
          omega
        rw [List.getElem?_take_of_lt hij] at hi
        rcases hfirst with hj0 | hfirst
        · omega
        · rw [hfirst i g hij hi, Option.map_none]
  · have hf := hidx.resolve_left h0
    rw [attempts, if_neg h0, hf, Option.toList_some, List.singleton_append,
      firstDecoding_cons_some hread]
    exact iff_of_true rfl ⟨idx.toNat, hf, Or.inl rfl⟩

/-- What a file tells a message by: it is a regular message that refreshing leaves alone, its id
text is read back, and the number stored in it is that of its form, or no form of the same id
before it reads its payload. -/
def Identified (m : ToolsMessage φ α) : Prop :=
  ∃ f c, m.body = .prot f c ∧ (P.classes.doRefresh f c).1 = c ∧
    (P.classes.idAsStringImpl = QString.number10 ∨ 0 ≤ P.classes.numericIdImpl f) ∧
    ∃ j, (P.m_frame.m_factory.formsOf (P.classes.numericIdImpl f))[j]? = some f ∧
      (m.getIdx.toNat = j ∨
        ∀ i g, i < j → (P.m_frame.m_factory.formsOf (P.classes.numericIdImpl f))[i]? = some g →
          P.classes.doRead g (P.classes.doWrite f c) = none)

/-- The condition on a regular message: its form is the first of those tried that reads it. -/
theorem identified_prot_iff {m : ToolsMessage φ α} {f : φ} {c : α} (hm : m.body = .prot f c)
    (hread : P.classes.doRead f (P.classes.doWrite f c) = some c)
    (hidx : m.getIdx = 0 ∨
      (P.m_frame.m_factory.formsOf (P.classes.numericIdImpl f))[m.getIdx.toNat]? = some f) :
    Identified P m ↔
      (P.classes.doRefresh f c).1 = c ∧
        (P.classes.idAsStringImpl = QString.number10 ∨ 0 ≤ P.classes.numericIdImpl f) ∧
        firstDecoding P.classes (P.classes.doWrite f c)
          (attempts m.getIdx (P.m_frame.m_factory.formsOf (P.classes.numericIdImpl f))) =
            some (.prot f c) := by
  rw [firstDecoding_attempts_iff hread hidx]
  constructor
  · rintro ⟨f', c', hm', hrest⟩
    obtain ⟨rfl, rfl⟩ := Body.prot.inj (hm.symm.trans hm')
    exact hrest
  · exact fun hrest => ⟨f, c, hm, hrest⟩

/-- The messages a file tells by are those that are reloaded as they were. -/
theorem reloaded_iff_identified (hid : NumericIds P.classes) {m : ToolsMessage φ α}
    (hbuilt : SendBuilt P m)
    (hcodec : ∀ f c, m.body = .prot f c → P.classes.doRead f (P.classes.doWrite f c) = some c) :
    reloaded P m = some m.body ↔ Identified P m := by
  cases hm : m.body with
  | invalid => simp [reloaded_ne_invalid, Identified, hm]
  | prot f c =>
      have hread := hcodec f c hm
      have htext : m.idAsString P.classes =
          P.classes.idAsStringImpl (P.classes.numericIdImpl f) := by
        simp only [ToolsMessage.idAsString, ToolsMessage.numericId, hm]
      rw [← hm, reloaded_prot_iff P hm hread, identified_prot_iff P hm hread
        (hbuilt.getIdx P hid hm), htext, ToolsMsgFactory.formsOfText]
      by_cases hpos : P.classes.idAsStringImpl = QString.number10 ∨ 0 ≤ P.classes.numericIdImpl f
      · simp only [hid.spelledId_some hpos, hpos, true_and]
        exact and_comm
      · -- nothing is created from a text that is not read back
        have hnone : firstDecoding P.classes (P.classes.doWrite f c) (attempts m.getIdx []) =
            none := by
          unfold attempts
          split_ifs <;> rfl
        simp [hid.spelledId_none hpos, hpos, hnone]

/-- **Which send lists round-trip**: of the lists the application builds, those of messages the
file can tell by; such a list is sent at the same times as before. -/
theorem sendFile_roundTrip_iff (hid : NumericIds P.classes) {L : List (ToolsMessage φ α)}
    (hbuilt : ∀ m ∈ L, SendBuilt P m)
    (hcodec : ∀ m ∈ L, ∀ f c, m.body = .prot f c →
      P.classes.doRead f (P.classes.doWrite f c) = some c) :
    (List.Forall₂ SameSend L (load P Q .Send (save P Q .Send L)) ↔ ∀ m ∈ L, Identified P m) ∧
      ((∀ m ∈ L, Identified P m) → ∀ i m m', L[i]? = some m →
        (load P Q .Send (save P Q .Send L))[i]? = some m' →
        ∀ t, SendMgr.Scheduled (load P Q .Send (save P Q .Send L)) i m' t ↔
          SendMgr.Scheduled L i m t) := by
  have hiff : List.Forall₂ SameSend L (load P Q .Send (save P Q .Send L)) ↔
      ∀ m ∈ L, Identified P m := by
    rw [sendFile_iff Q hid.ne_nil L]
    exact forall₂_congr fun m hm => reloaded_iff_identified P hid (hbuilt m hm) (hcodec m hm)
  refine ⟨hiff, fun h i m m' hm hm' t => ?_⟩
  exact scheduled_congr (hiff.mpr h) hm hm' t

theorem twinProtocol_length : [false, true].length < 2 ^ 32 := by decide

/-- A protocol with two forms of one byte that share the id 0. -/
def twinProtocol : ToolsProtocol Bool UInt8 where
  name := ['T', 'w', 'i', 'n']
  m_frame :=
    { classes :=
        { numericIdImpl := fun _ => 0
          inLongLong := fun _ => rfl
          idAsStringImpl := QString.number10
          nameImpl := fun f => if f then ['B'] else ['A']
          defaultMsg := fun _ => 0
          doRefresh := fun _ c => (c, false)
          doWrite := fun _ c => [c]
          doRead := fun _ data => data.head? }
      m_frame := bareFrame fun _ c => [c]
      m_factory :=
        { m_defaultMsgs := [false, true], sorted := by simp, length_lt := twinProtocol_length }
      toJson := fun _ => [] }

/-- The messages picked from the protocol are read back, the second one by its number. -/
theorem sendFile_roundTrip_iff_sample :
    List.Forall₂ SameSend twinProtocol.createAllMessages
      (load twinProtocol sampleFiles .Send
        (save twinProtocol sampleFiles .Send twinProtocol.createAllMessages)) := by
  refine (sendFile_roundTrip_iff twinProtocol sampleFiles (Or.inl rfl)
    (fun m hm => .picked hm) ?_).1.mpr ?_
  · intro m _ f c _
    rfl
  · have hbodies : twinProtocol.createAllMessages.map (fun m => (m.body, m.getIdx.toNat)) =
        [(.prot false 0, 0), (.prot true 0, 1)] := rfl
    intro m hm
    have hmem := List.mem_map_of_mem (f := fun m => (m.body, m.getIdx.toNat)) hm
    rw [hbodies, List.mem_pair] at hmem
    rcases hmem with h | h
    · obtain ⟨hb, hi⟩ := Prod.mk.inj h
      exact ⟨_, _, hb, rfl, Or.inl rfl, 0, rfl, Or.inl hi⟩
    · obtain ⟨hb, hi⟩ := Prod.mk.inj h
      exact ⟨_, _, hb, rfl, Or.inl rfl, 1, rfl, Or.inl hi⟩

/-- A duplicate of a message of the second form. -/
def sampleDuplicate : ToolsMessage Bool UInt8 := twinProtocol.cloneMessage { body := .prot true 5 }

/-- Raw data is loaded as a message of the first form of the id 0, and so is a duplicate of a
message of the second form. -/
theorem sendFile_confuses :
    ¬ List.Forall₂ SameSend [twinProtocol.createInvalidMessage [7]]
        (load twinProtocol sampleFiles .Send
          (save twinProtocol sampleFiles .Send [twinProtocol.createInvalidMessage [7]])) ∧
      ¬ List.Forall₂ SameSend [sampleDuplicate]
        (load twinProtocol sampleFiles .Send
          (save twinProtocol sampleFiles .Send [sampleDuplicate])) := by
  have hraw : (load twinProtocol sampleFiles .Send (save twinProtocol sampleFiles .Send
      [twinProtocol.createInvalidMessage [7]])).map ToolsMessage.body = [.prot false 7] := rfl
  have hdup : (load twinProtocol sampleFiles .Send (save twinProtocol sampleFiles .Send
      [sampleDuplicate])).map ToolsMessage.body = [.prot false 5] := rfl
  constructor
  · intro h
    have hbody := map_congr_forall₂ (g := ToolsMessage.body) (fun _ _ hm => hm.body) h
    rw [hraw] at hbody
    exact absurd hbody (by decide)
  · intro h
    have hbody := map_congr_forall₂ (g := ToolsMessage.body) (fun _ _ hm => hm.body) h
    rw [hdup] at hbody
    exact absurd hbody (by decide)

end ToolsMsgFileMgr

end CcToolsQt
