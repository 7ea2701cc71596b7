import CcToolsQt.Reload
import CcToolsQt.MsgMgr

/-! # Extra info and the message that shows it

The extra info of a message is kept twice: as a map, and as an attached message with the JSON
text of the map.  `extraInfoShown_iff` says after which operations the two agree. -/

namespace CcToolsQt

/-- The attached message exists exactly when there is extra info or its existence is forced, and
it shows the extra info. -/
structure ExtraInfoShown {φ α : Type} (F : ToolsFrame φ α) (m : ToolsMessage φ α) : Prop where
  isSome_iff : m.extraInfoMsg.isSome = true ↔
    m.getExtraInfo ≠ [] ∨ m.getForceExtraInfoExistence = true
  shows : m.getExtraInfo ≠ [] → m.extraInfoMsg = some (F.toJson m.getExtraInfo)

/-- The operations that make or change messages with their extra info; the last one merges the
extra properties of a data block into the message it is sent for. -/
inductive MsgOp (φ α σ : Type) where
  | readDataImpl (s : FrameState) (dataInfo : ToolsDataInfo) (final : Bool)
  | updateMessage (msg : ToolsMessage φ α)
  | cloneMessage (msg : ToolsMessage φ α)
  | createMsgObjectFrom (msgMapVar : QVariant)
  | sendMsgs (mgr : MsgMgr φ α σ) (msg : MsgPtr) (dataInfo : ToolsDataInfo)

namespace MsgOp
variable {φ α σ File : Type} (P : ToolsProtocol φ α) (Q : QtFiles File)

/-- The messages an operation makes or changes. -/
def results : MsgOp φ α σ → List (ToolsMessage φ α)
  | readDataImpl s dataInfo final => (P.m_frame.readDataImpl s dataInfo final).2
  | updateMessage msg => [(P.updateMessage msg).1]
  | cloneMessage msg => [P.cloneMessage msg]
  | createMsgObjectFrom msgMapVar => (ToolsMsgFileMgr.createMsgObjectFrom P Q msgMapVar).toList
  | sendMsgs mgr msg dataInfo =>
      if dataInfo.m_extraProperties.isEmpty then []
      else [(MsgMgr.sendToSocket msg { mgr with m_protocol := some P } dataInfo).objs msg]

/-- Where an operation keeps the two in step: an update of a message without id text forgets that
the attached message is forced, a clone of a message with id text is updated too early. -/
def KeepsInStep : MsgOp φ α σ → Prop
  | updateMessage msg => msg.idAsString P.classes = [] → msg.getExtraInfo = [] →
      msg.getForceExtraInfoExistence = false
  | cloneMessage msg => msg.idAsString P.classes = [] ∨ msg.getExtraInfo = []
  | _ => True

end MsgOp

/-! ### Without extra info -/

section
variable {φ α : Type} {F : ToolsFrame φ α} {m : ToolsMessage φ α}

theorem extraInfoShown_of_none (he : m.getExtraInfo = [])
    (hf : m.getForceExtraInfoExistence = false) (hm : m.extraInfoMsg = none) :
    ExtraInfoShown F m :=
  ⟨by simp [he, hf, hm], fun h => absurd he h⟩

theorem extraInfoShown_of_some (he : m.getExtraInfo ≠ [])
    (hm : m.extraInfoMsg = some (F.toJson m.getExtraInfo)) : ExtraInfoShown F m :=
  ⟨by simp [he, hm], fun _ => hm⟩

theorem ExtraInfoShown.ne_none (h : ExtraInfoShown F m) (he : m.getExtraInfo ≠ []) :
    m.extraInfoMsg ≠ none := by
  rw [h.shows he]
  exact Option.some_ne_none _

/-! ### Reading -/

theorem readDataImpl_shown {s : FrameState} {d : ToolsDataInfo} {final : Bool}
    (h : m ∈ (F.readDataImpl s d final).2) : ExtraInfoShown F m := by
  obtain ⟨m₀, h₀, rfl⟩ := F.readDataImpl_asRead h
  unfold ToolsFrame.attachExtraProperties
  split_ifs with hp
  · cases h₀ with
    | garbage data => exact extraInfoShown_of_none rfl rfl rfl
    | regular form content data => exact extraInfoShown_of_none rfl rfl rfl
  · apply extraInfoShown_of_some
    · simpa [ToolsMessage.getExtraInfo, ToolsFrame.updateExtraInfoInternal] using hp
    · rfl

/-! ### Updating -/

theorem updateMessageImpl_shown (F : ToolsFrame φ α) (m : ToolsMessage φ α) :
    ExtraInfoShown F (F.updateMessageImpl m) := by
  simp only [ToolsFrame.updateMessageImpl]
  generalize ToolsFrame.updateRawDataInternal (F.encodeFramed m)
    (ToolsFrame.updateTransportInternal (F.encodeFramed m) m) = m₁
  by_cases he : m₁.getExtraInfo = []
  · by_cases hf : m₁.getForceExtraInfoExistence = true
    · simp only [he, hf, List.isEmpty_nil, Bool.not_true, Bool.and_false, Bool.false_eq_true,
        if_false, if_true]
      exact ⟨⟨fun _ => .inr hf, fun _ => rfl⟩, fun h => absurd he h⟩
    · simp only [he, hf, List.isEmpty_nil, Bool.not_false, Bool.and_true, if_true]
      exact extraInfoShown_of_none he ((Bool.not_eq_true _).mp hf) rfl
  · have hne : m₁.getExtraInfo.isEmpty = false := by simpa using he
    simp only [hne, Bool.false_and, Bool.false_eq_true, if_false]
    exact extraInfoShown_of_some he rfl

/-- Without extra info a message has no extra-info message, or an empty one. -/
theorem updateMessageImpl_noExtraInfo (he : m.getExtraInfo = []) :
    (F.updateMessageImpl m).extraInfoMsg = none ∨
      (F.updateMessageImpl m).extraInfoMsg = some [] := by
  have hempty : (ToolsFrame.updateRawDataInternal (F.encodeFramed m)
      (ToolsFrame.updateTransportInternal (F.encodeFramed m) m)).getExtraInfo.isEmpty = true :=
    List.isEmpty_iff.mpr he
  simp only [ToolsFrame.updateMessageImpl, hempty, Bool.true_and]
  split_ifs
  · exact .inl rfl
  · exact .inr rfl

variable (P : ToolsProtocol φ α)

theorem updateMessage_noExtraInfo (he : m.getExtraInfo = []) :
    (P.updateMessage m).1.extraInfoMsg = none ∨
      (P.updateMessage m).1.extraInfoMsg = some [] := by
  have hrefreshed : (m.refreshMsg P.classes).1.getExtraInfo = [] := by
    unfold ToolsMessage.refreshMsg
    split <;> exact he
  unfold ToolsProtocol.updateMessage
  rw [he]
  split_ifs
  · exact .inl rfl
  · exact absurd rfl ‹_›
  · exact updateMessageImpl_noExtraInfo hrefreshed

theorem updateMessage_shown_iff (msg : ToolsMessage φ α) :
    ExtraInfoShown P.m_frame (P.updateMessage msg).1 ↔
      (msg.idAsString P.classes = [] → msg.getExtraInfo = [] →
        msg.getForceExtraInfoExistence = false) := by
  unfold ToolsProtocol.updateMessage
  by_cases hid : msg.idAsString P.classes = []
  · by_cases he : msg.getExtraInfo = []
    · simp only [hid, he, List.isEmpty_nil, if_true, forall_const]
      constructor
      · intro h
        have hno := h.isSome_iff.not.mp (by simp)
        exact Bool.not_eq_true _ ▸ fun hf => hno (.inr hf)
      · exact fun hf => extraInfoShown_of_none he hf rfl
    · have hne : msg.getExtraInfo.isEmpty = false := by simpa using he
      simp only [hid, hne, List.isEmpty_nil, if_true, Bool.false_eq_true, if_false]
      exact ⟨fun _ _ h => absurd h he, fun _ => extraInfoShown_of_some he rfl⟩
  · have hne : (msg.idAsString P.classes).isEmpty = false := by simpa using hid
    simp only [hne, Bool.false_eq_true, if_false]
    exact ⟨fun _ h => absurd h hid, fun _ => updateMessageImpl_shown _ _⟩

/-- An update of a message whose attached message is not forced. -/
theorem updateMessage_shown {msg : ToolsMessage φ α}
    (h : msg.getForceExtraInfoExistence = false ∨ msg.getExtraInfo ≠ []) :
    ExtraInfoShown P.m_frame (P.updateMessage msg).1 :=
  (updateMessage_shown_iff P msg).mpr fun _ he => h.resolve_right fun hne => hne he

/-! ### Cloning -/

/-- A message with id text is updated while the clone has no extra info yet. -/
theorem cloneMessage_extraInfoMsg {msg : ToolsMessage φ α}
    (hid : msg.idAsString P.classes ≠ []) :
    (P.cloneMessage msg).extraInfoMsg = none ∧
      (P.cloneMessage msg).getForceExtraInfoExistence = false := by
  have hne : (msg.idAsString P.classes).isEmpty = false := by simpa using hid
  unfold ToolsProtocol.cloneMessage
  simp only [hne, Bool.false_eq_true, if_false]
  obtain ⟨r, hc, -⟩ := ToolsProtocol.clone_eq msg
  rw [hc, ToolsProtocol.copyCommonProperties_bare]
  set cloned := P.setNameToMessageProperties (ToolsProtocol.withTiming msg msg.body none r)
    with hcl
  have hbare : cloned.extraInfo = none ∧ cloned.forceExtraInfoExistence = none := ⟨rfl, rfl⟩
  have hforce : cloned.getForceExtraInfoExistence = false := by
    rw [ToolsMessage.getForceExtraInfoExistence, hbare.2]
    rfl
  have hshown := updateMessage_shown P (.inl hforce)
  obtain ⟨t, e, hu⟩ := P.updateMessage_eq cloned
  rw [hu] at hshown ⊢
  refine ⟨?_, by simp [ToolsMessage.getForceExtraInfoExistence, hbare.2]⟩
  have hno := hshown.isSome_iff.not.mpr (by
    simp [ToolsMessage.getExtraInfo, ToolsMessage.getForceExtraInfoExistence, hbare.1, hbare.2])
  simpa using hno

theorem cloneMessage_shown_iff (msg : ToolsMessage φ α) :
    ExtraInfoShown P.m_frame (P.cloneMessage msg) ↔
      msg.idAsString P.classes = [] ∨ msg.getExtraInfo = [] := by
  have hinfo := P.cloneMessage_getExtraInfo msg
  by_cases hid : msg.idAsString P.classes = []
  · simp only [hid, true_or, iff_true]
    unfold ToolsProtocol.cloneMessage
    simp only [hid, List.isEmpty_nil, if_true]
    split_ifs with he
    · cases msg.rawDataMsg <;> exact extraInfoShown_of_none rfl rfl rfl
    · apply updateMessage_shown
      exact .inr (by simpa [ToolsMessage.getExtraInfo] using he)
  · obtain ⟨hm, hf⟩ := cloneMessage_extraInfoMsg P hid
    simp only [hid, false_or]
    constructor
    · intro h
      by_contra he
      exact h.ne_none (hinfo ▸ he) hm
    · exact fun he => extraInfoShown_of_none (hinfo.trans he) hf hm

/-! ### Loading and sending -/

theorem createFromData_force {msgId : QString} {msgIdx : UInt32} {data : DataSeq}
    {msg : ToolsMessage φ α} (h : ToolsMsgFileMgr.createFromData P msgId msgIdx data = some msg) :
    msg.forceExtraInfoExistence = none := by
  obtain ⟨i, hi⟩ := ToolsMsgFileMgr.createFromData_eq P msgId msgIdx data
  rw [hi] at h
  obtain ⟨b, -, rfl⟩ := Option.map_eq_some_iff.mp h
  rfl

theorem withExtraInfo_force (e : QVariantMap) (msg : ToolsMessage φ α) :
    (ToolsMsgFileMgr.withExtraInfo e msg).forceExtraInfoExistence =
      msg.forceExtraInfoExistence := by
  unfold ToolsMsgFileMgr.withExtraInfo
  split_ifs <;> rfl

theorem createMsgObjectFrom_shown {File : Type} {Q : QtFiles File} {msgMapVar : QVariant}
    {msg : ToolsMessage φ α} (h : ToolsMsgFileMgr.createMsgObjectFrom P Q msgMapVar = some msg) :
    ExtraInfoShown P.m_frame msg := by
  -- what is updated is new, so nothing is forced
  have hnew : ∀ (e : QVariantMap) (m₀ : ToolsMessage φ α), m₀.forceExtraInfoExistence = none →
      ExtraInfoShown P.m_frame
        (P.updateMessage (ToolsMsgFileMgr.withExtraInfo e m₀)).1 := by
    intro e m₀ h₀
    apply updateMessage_shown
    exact .inl (by rw [ToolsMessage.getForceExtraInfoExistence, withExtraInfo_force, h₀]; rfl)
  unfold ToolsMsgFileMgr.createMsgObjectFrom at h
  cases hmap : msgMapVar.toMap with
  | none => simp [hmap] at h
  | some msgMap =>
      simp only [hmap] at h
      split_ifs at h
      · cases h
        exact extraInfoShown_of_none rfl rfl rfl
      · cases h
        exact hnew _ _ rfl
      · obtain ⟨m₀, h₀, rfl⟩ := Option.map_eq_some_iff.mp h
        exact hnew _ _ (createFromData_force P h₀)

theorem insertAll_ne_nil {props map : QVariantMap} (h : props ≠ [] ∨ map ≠ []) :
    MsgMgr.insertAll props map ≠ [] := by
  unfold MsgMgr.insertAll
  induction props generalizing map with
  | nil => simpa using h
  | cons e props ih =>
      rw [List.foldl_cons]
      exact ih (.inr (QVariantMap.insert_ne_nil _ _ _))

theorem sendToSocket_shown {σ : Type} (mgr : MsgMgr φ α σ) (msg : MsgPtr) {d : ToolsDataInfo}
    (hd : d.m_extraProperties ≠ []) :
    ExtraInfoShown P.m_frame
      ((MsgMgr.sendToSocket msg { mgr with m_protocol := some P } d).objs msg) := by
  have hne : d.m_extraProperties.isEmpty = false := by simpa using hd
  unfold MsgMgr.sendToSocket
  simp only [hne, Bool.false_eq_true, if_false, MsgMgr.modify, Function.update_self]
  apply updateMessage_shown
  exact .inr (insertAll_ne_nil (.inl hd))

end

/-- **Extra info and the message that shows it agree** after an operation, in all messages it
makes or changes, if and only if it keeps them in step. -/
theorem extraInfoShown_iff {φ α σ File : Type} (P : ToolsProtocol φ α) (Q : QtFiles File)
    (op : MsgOp φ α σ) :
    (∀ m ∈ op.results P Q, ExtraInfoShown P.m_frame m) ↔ op.KeepsInStep P := by
  cases op with
  | readDataImpl s dataInfo final => exact iff_of_true (fun m hm => readDataImpl_shown hm) trivial
  | updateMessage msg =>
      simp only [MsgOp.results, MsgOp.KeepsInStep, List.forall_mem_singleton]
      exact updateMessage_shown_iff P msg
  | cloneMessage msg =>
      simp only [MsgOp.results, MsgOp.KeepsInStep, List.forall_mem_singleton]
      exact cloneMessage_shown_iff P msg
  | createMsgObjectFrom msgMapVar =>
      refine iff_of_true (fun m hm => ?_) trivial
      exact createMsgObjectFrom_shown P (Option.mem_toList.mp hm)
  | sendMsgs mgr msg dataInfo =>
      refine iff_of_true (fun m hm => ?_) trivial
      simp only [MsgOp.results] at hm
      split_ifs at hm with hd
      · simp at hm
      · rw [List.mem_singleton.mp hm]
        exact sendToSocket_shown P mgr msg (by simpa using hd)

/-- A clone with extra info that no attached message shows. -/
theorem clone_not_shown :
    ¬ ExtraInfoShown syncFrame
      (ToolsProtocol.cloneMessage { name := [], m_frame := syncFrame }
        { body := .prot () 5, extraInfo := some [(['k'], .number 1)] }) :=
  fun h => h.ne_none (by decide) rfl

end CcToolsQt
