import CcToolsQt.MsgFile
import Mathlib.Data.List.Forall2

/-! # What a saved message is loaded as

`reloaded` is the object the file manager makes of a message it has written: that of the first
form tried which reads the payload, refreshed.  It is never an invalid message, as an invalid
message has an id text too.

* `forall₂_filterMap_iff` is the general fact about files written and read record by record.
* `createMsgObjectFrom_describes` says that `reloaded` is what `createMsgObjectFrom` makes of the
  entries of a message, received or to be sent. -/

namespace CcToolsQt

/-- Records that are read one by one are read back when each of them is. -/
theorem forall₂_filterMap_iff {β γ : Type} {R : β → γ → Prop} {f : β → Option γ} {l : List β} :
    List.Forall₂ R l (l.filterMap f) ↔ ∀ b ∈ l, ∃ c, f b = some c ∧ R b c := by
  induction l with
  | nil => simp
  | cons b l ih =>
      cases hb : f b with
      | none =>
          rw [List.filterMap_cons_none hb]
          constructor
          · intro h
            have hlen := h.length_eq
            have := List.length_filterMap_le f l
            simp only [List.length_cons] at hlen
            omega
          · intro h
            obtain ⟨c, hc, -⟩ := h b List.mem_cons_self
            simp [hb] at hc
      | some c =>
          rw [List.filterMap_cons_some hb, List.forall₂_cons, ih, List.forall_mem_cons]
          simp [hb]

namespace ToolsMsgFileMgr
variable {φ α File : Type} (P : ToolsProtocol φ α) (Q : QtFiles File)

/-! ### Entries are read back -/

section
variable {β : Type} (R : ToolsMsgPropBase (List β))

theorem getFrom_setNonEmpty (val : List β) {map : QVariantMap} (h : R.getFrom map [] = []) :
    R.getFrom (setNonEmpty R val map) [] = val := by
  unfold setNonEmpty
  split_ifs with hv
  · rw [h, List.isEmpty_iff.mp hv]
  · exact R.getFrom_setTo val map []

theorem getFrom_setNonEmpty_of_ne {τ : Type} (S : ToolsMsgPropBase τ)
    (h : R.m_propName ≠ S.m_propName) (val : List β) (map : QVariantMap) (d : τ) :
    S.getFrom (setNonEmpty R val map) d = S.getFrom map d := by
  unfold setNonEmpty
  split_ifs
  · rfl
  · exact S.getFrom_setTo_of_ne R h val map d

theorem setNonEmpty_ne_nil (val : List β) {map : QVariantMap} (h : map ≠ []) :
    setNonEmpty R val map ≠ [] := by
  unfold setNonEmpty
  split_ifs
  · exact h
  · exact R.setTo_ne_nil val map

end

/-- A map with a comment and extra info added. -/
theorem getFrom_comment (comment : QString) (extraInfo : QVariantMap) {map : QVariantMap}
    (hc : CommentProp.getFrom map [] = []) (he : ExtraPropsProp.getFrom map [] = []) :
    CommentProp.getFrom
        (setNonEmpty ExtraPropsProp extraInfo (setNonEmpty CommentProp comment map)) [] = comment ∧
      ExtraPropsProp.getFrom
        (setNonEmpty ExtraPropsProp extraInfo (setNonEmpty CommentProp comment map)) [] =
          extraInfo := by
  constructor
  · rw [getFrom_setNonEmpty_of_ne _ _ (by decide), getFrom_setNonEmpty _ _ hc]
  · refine getFrom_setNonEmpty _ _ ?_
    rw [getFrom_setNonEmpty_of_ne _ _ (by decide), he]

/-- The entries of a map from which the object of a message is made. -/
structure Describes (map : QVariantMap) (m : ToolsMessage φ α) : Prop where
  id : IdProp.getFrom map [] = m.idAsString P.classes
  idx : MsgIdxProp.getFrom map 0 = m.getIdx
  data : DataProp.getFrom map [] = encodeMsgData P.classes m
  extraInfo : ExtraPropsProp.getFrom map [] = m.getExtraInfo

/-! ### The object that is made -/

section
variable {C : MsgClasses φ α} {data : DataSeq} {forms : List φ}

/-- What is decoded is a regular message of one of the forms, with the content it reads. -/
theorem firstDecoding_eq_some {b : Body φ α} (h : firstDecoding C data forms = some b) :
    ∃ f c, f ∈ forms ∧ C.doRead f data = some c ∧ b = .prot f c := by
  obtain ⟨f, hf, hb⟩ := List.exists_of_findSome?_eq_some h
  obtain ⟨c, hc, rfl⟩ := Option.map_eq_some_iff.mp hb
  exact ⟨f, c, hf, hc, rfl⟩

end

/-- The object of a refreshed message. -/
def refreshedBody (C : MsgClasses φ α) : Body φ α → Body φ α
  | .prot f c => .prot f (C.doRefresh f c).1
  | .invalid => .invalid

/-- The object a saved message is loaded as. -/
def reloaded (m : ToolsMessage φ α) : Option (Body φ α) :=
  (firstDecoding P.classes (m.encodeData P.classes)
    (attempts m.getIdx (P.m_frame.m_factory.formsOfText (m.idAsString P.classes)))).map
      (refreshedBody P.classes)

/-- No message is reloaded as an invalid one. -/
theorem reloaded_ne_invalid (m : ToolsMessage φ α) : reloaded P m ≠ some .invalid := by
  intro h
  obtain ⟨b, hb, hr⟩ := Option.map_eq_some_iff.mp h
  obtain ⟨f, c, -, -, rfl⟩ := firstDecoding_eq_some hb
  cases hr

@[simp] theorem withExtraInfo_body (e : QVariantMap) (m : ToolsMessage φ α) :
    (withExtraInfo e m).body = m.body := by
  unfold withExtraInfo
  split_ifs <;> rfl

theorem withExtraInfo_getExtraInfo {e : QVariantMap} {m : ToolsMessage φ α}
    (h : m.extraInfo = none) : (withExtraInfo e m).getExtraInfo = e := by
  unfold withExtraInfo ToolsMessage.getExtraInfo
  split_ifs with he
  · rw [h, List.isEmpty_iff.mp he]
    rfl
  · rfl

section
variable {P} (hne : ∀ n, P.classes.idAsStringImpl n ≠ [])
include hne

/-- A message made from the entries of another has the object `reloaded`, and its extra info. -/
theorem createMsgObjectFrom_describes {map : QVariantMap} {m : ToolsMessage φ α}
    (h : Describes P map m) :
    (createMsgObjectFrom P Q (.map map)).map ToolsMessage.body = reloaded P m ∧
      ∀ m', createMsgObjectFrom P Q (.map map) = some m' →
        m'.getExtraInfo = m.getExtraInfo := by
  have hid : (m.idAsString P.classes).isEmpty = false := List.isEmpty_eq_false_iff.mpr (hne _)
  have hdata : encodeMsgData P.classes m = dataStr (m.encodeData P.classes) := by
    simp [encodeMsgData, hid]
  obtain ⟨i, hi⟩ := createFromData_eq P (m.idAsString P.classes) m.getIdx (m.encodeData P.classes)
  have hfrom : createMsgObjectFrom P Q (.map map) =
      (createFromData P (m.idAsString P.classes) m.getIdx (m.encodeData P.classes)).map fun msg =>
        (P.updateMessage (withExtraInfo m.getExtraInfo msg)).1 := by
    simp only [createMsgObjectFrom, QVariant.toMap, h.id, h.idx, h.data, h.extraInfo, hid, hdata,
      dataFromStr_dataStr, Bool.false_and, Bool.false_eq_true, if_false]
  rw [hfrom, hi, reloaded]
  cases hdec : firstDecoding P.classes (m.encodeData P.classes)
      (attempts m.getIdx (P.m_frame.m_factory.formsOfText (m.idAsString P.classes))) with
  | none => simp
  | some b =>
      obtain ⟨f, c, -, -, rfl⟩ := firstDecoding_eq_some hdec
      constructor
      · rw [Option.map_some, Option.map_some, Option.map_some, Option.map_some,
          P.updateMessage_body]
        congr 1
        exact P.updatedBody_prot (hne _) (withExtraInfo_body _ _)
      · intro m' hm'
        obtain rfl := Option.some.inj hm'
        rw [ToolsMessage.getExtraInfo, P.updateMessage_extraInfo]
        exact withExtraInfo_getExtraInfo rfl

theorem body_ne_invalid_of_describes {map : QVariantMap} {m m' : ToolsMessage φ α}
    (h : Describes P map m) (hm' : createMsgObjectFrom P Q (.map map) = some m') :
    m'.body ≠ .invalid := by
  intro hinv
  have hbody := (createMsgObjectFrom_describes Q hne h).1
  rw [hm', Option.map_some, hinv] at hbody
  exact reloaded_ne_invalid P m hbody.symm

end

/-- A regular message whose payload its own form reads back is loaded as it was if and only if
that form is the first one to read it, and refreshing the content does nothing. -/
theorem reloaded_prot_iff {m : ToolsMessage φ α} {f : φ} {c : α} (hm : m.body = .prot f c)
    (hcodec : P.classes.doRead f (P.classes.doWrite f c) = some c) :
    reloaded P m = some m.body ↔
      firstDecoding P.classes (P.classes.doWrite f c)
          (attempts m.getIdx (P.m_frame.m_factory.formsOfText (m.idAsString P.classes))) =
        some (.prot f c) ∧ (P.classes.doRefresh f c).1 = c := by
  have hdata : m.encodeData P.classes = P.classes.doWrite f c := by
    simp only [ToolsMessage.encodeData, hm]
  rw [reloaded, hdata, hm, Option.map_eq_some_iff]
  constructor
  · rintro ⟨b, hb, hr⟩
    obtain ⟨f', c', -, hread, rfl⟩ := firstDecoding_eq_some hb
    obtain ⟨rfl, hc⟩ := Body.prot.inj hr
    obtain rfl := Option.some.inj (hread.symm.trans hcodec)
    exact ⟨hb, hc⟩
  · rintro ⟨hb, hc⟩
    exact ⟨_, hb, by rw [refreshedBody, hc]⟩

/-- Files kept as the list of their objects. -/
def sampleFiles : QtFiles (List QVariant) where
  toJson := id
  fromJson := some
  fromJson_toJson _ := rfl
  isDigit := Char.isDigit
  isDigit_ascii _ _ := rfl

end ToolsMsgFileMgr

end CcToolsQt
