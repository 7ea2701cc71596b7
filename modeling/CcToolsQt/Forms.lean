import CcToolsQt.Protocol

/-! # The forms of an id

Several message classes of a protocol may share one numeric id; a message is then identified by
its id and its number among the forms of that id.

* `createMessage_eq`: the factory creates the form of a given number.
* `createAllMessages_numbered`: `ToolsProtocol::createAllMessages` stores that number in each
  message, provided that different ids have different texts. -/

namespace CcToolsQt

/-- In a sorted list the elements with a key are those from its lower bound on. -/
theorem getElem?_filter_sorted {φ : Type} {key : φ → ℤ} {l : List φ}
    (h : l.Pairwise fun f g => key f ≤ key g) (id : ℤ) (j : ℕ) (f : φ) :
    (l.filter fun f => decide (key f = id))[j]? = some f ↔
      l[(l.findIdx fun f => !decide (key f < id)) + j]? = some f ∧ key f = id := by
  induction l generalizing j with
  | nil => simp
  | cons a l ih =>
      obtain ⟨ha, hl⟩ := List.pairwise_cons.mp h
      rcases lt_trichotomy (key a) id with hlt | heq | hgt
      · -- the lower bound is behind `a`
        have hne : ¬ key a = id := hlt.ne
        simp only [List.filter_cons, hne, decide_false, Bool.false_eq_true, if_false,
          List.findIdx_cons, hlt, decide_true, Bool.not_true, cond_false, ih hl]
        rw [Nat.add_right_comm, List.getElem?_cons_succ]
      · -- the lower bound is `a`, and that of the rest its head
        have hz : (l.findIdx fun f => !decide (key f < id)) = 0 := by
          cases l with
          | nil => rfl
          | cons b l =>
              have hb := ha b List.mem_cons_self
              simp [List.findIdx_cons, show ¬ key b < id by omega]
        cases j with
        | zero => simp +contextual [List.findIdx_cons, heq, eq_comm]
        | succ j =>
            have hj := ih hl j
            rw [hz, Nat.zero_add] at hj
            simpa [List.findIdx_cons, heq] using hj
      · -- nothing has the key
        have hall : ∀ b ∈ a :: l, id < key b := by
          intro b hb
          rcases List.mem_cons.mp hb with rfl | hb
          · exact hgt
          · exact hgt.trans_le (ha b hb)
        constructor
        · intro hf
          have hmem := List.mem_filter.mp (List.mem_of_getElem? hf)
          have := hall f hmem.1
          have : key f = id := of_decide_eq_true hmem.2
          omega
        · rintro ⟨hf, hid⟩
          have := hall f (List.mem_of_getElem? hf)
          omega

/-- Where a filter keeps an element: behind those it keeps before it. -/
theorem getElem?_filter_take {φ : Type} {l : List φ} {k : ℕ} {f : φ} (p : φ → Bool)
    (hk : l[k]? = some f) (hf : p f = true) :
    (l.filter p)[((l.take k).filter p).length]? = some f := by
  obtain ⟨hlt, rfl⟩ := List.getElem?_eq_some_iff.mp hk
  have hsplit : l.filter p = (l.take k).filter p ++ l[k] :: (l.drop (k + 1)).filter p := by
    rw [← List.filter_cons_of_pos hf, ← List.filter_append, List.cons_getElem_drop_succ,
      List.take_append_drop]
  rw [hsplit]
  simp

namespace ToolsMsgFactory
variable {φ α : Type} {C : MsgClasses φ α} (F : ToolsMsgFactory C)

/-- The forms that have an id. -/
def formsOf (id : ℤ) : List φ := F.m_defaultMsgs.filter fun f => decide (C.numericIdImpl f = id)

theorem length_formsOf (id : ℤ) : (F.formsOf id).length ≤ F.m_defaultMsgs.length :=
  List.length_filter_le _ _

/-- The factory creates the form of the given number. -/
theorem createMessage_eq (id : ℤ) (idx : UInt32) :
    F.createMessage id idx = ((F.formsOf id)[idx.toNat]?).map (defaultMsg C) := by
  ext m
  rw [createMessage_eq_some_iff, Option.map_eq_some_iff]
  constructor
  · rintro ⟨f, hf, hid, rfl⟩
    exact ⟨f, (getElem?_filter_sorted F.sorted id idx.toNat f).mpr ⟨hf, hid⟩, rfl⟩
  · rintro ⟨f, hf, rfl⟩
    obtain ⟨hf, hid⟩ := (getElem?_filter_sorted F.sorted id idx.toNat f).mp hf
    exact ⟨f, hf, hid, rfl⟩

theorem createMessageFromString_eq (s : QString) (idx : UInt32) :
    F.createMessageFromString s idx =
      (QString.spelledId s).bind fun id => F.createMessage id idx := by
  unfold createMessageFromString QString.spelledId
  cases QString.toLongLong 10 s with
  | some n => rfl
  | none => cases QString.toLongLong 16 s <;> rfl

/-- The forms an id text stands for. -/
def formsOfText (s : QString) : List φ :=
  match QString.spelledId s with
  | some id => F.formsOf id
  | none => []

theorem length_formsOfText (s : QString) : (F.formsOfText s).length ≤ F.m_defaultMsgs.length := by
  unfold formsOfText
  split
  · exact F.length_formsOf _
  · simp

end ToolsMsgFactory

namespace ToolsProtocol
variable {φ α : Type} (P : ToolsProtocol φ α)

/-- A message created from an id text. -/
theorem createMessage_eq (s : QString) (idx : UInt32) :
    P.createMessage s idx = ((P.m_frame.m_factory.formsOfText s)[idx.toNat]?).map fun f =>
      { body := .prot f (P.classes.defaultMsg f), idx := some idx } := by
  unfold createMessage
  rw [ToolsMsgFactory.createMessageFromString_eq, ToolsMsgFactory.formsOfText]
  cases QString.spelledId s with
  | none => rfl
  | some id =>
      simp only [Option.bind_some, ToolsMsgFactory.createMessage_eq, Option.map_map]
      rfl

@[simp] theorem updateMessage_idx (msg : ToolsMessage φ α) :
    (P.updateMessage msg).1.idx = msg.idx := by
  obtain ⟨t, e, h⟩ := P.updateMessage_eq msg
  rw [h]

/-- The class of a message is never changed by an update. -/
theorem updateMessage_form (msg : ToolsMessage φ α) :
    (P.updateMessage msg).1.form = msg.form := by
  unfold ToolsMessage.form
  rw [updateMessage_body, updatedBody]
  split_ifs
  · rfl
  · unfold ToolsMessage.refreshMsg
    cases h : msg.body <;> simp [h]

theorem numberMessages_form (prevId : QString) (prevIdx : UInt32)
    (msgs : List (ToolsMessage φ α)) :
    (P.numberMessages prevId prevIdx msgs).map ToolsMessage.form =
      msgs.map ToolsMessage.form := by
  induction msgs generalizing prevId prevIdx with
  | nil => rfl
  | cons msg msgs ih =>
      rw [numberMessages, List.map_cons, List.map_cons, ih, updateMessage_form]
      rfl

theorem numberMessages_extraInfo {prevId : QString} {prevIdx : UInt32}
    {msgs : List (ToolsMessage φ α)} (h : ∀ m ∈ msgs, m.extraInfo = none ∧ m.comment = none) :
    ∀ m ∈ P.numberMessages prevId prevIdx msgs, m.extraInfo = none ∧ m.comment = none := by
  induction msgs generalizing prevId prevIdx with
  | nil => simp [numberMessages]
  | cons msg msgs ih =>
      obtain ⟨hmsg, hmsgs⟩ := List.forall_mem_cons.mp h
      rw [numberMessages, List.forall_mem_cons, updateMessage_extraInfo, updateMessage_comment]
      exact ⟨hmsg, ih hmsgs⟩

/-- The messages of `createAllMessages` have neither extra info nor a comment. -/
theorem createAllMessages_bare {msg : ToolsMessage φ α} (h : msg ∈ P.createAllMessages) :
    msg.extraInfo = none ∧ msg.comment = none := by
  refine P.numberMessages_extraInfo ?_ msg h
  intro m hm
  obtain ⟨f, -, rfl⟩ := List.mem_map.mp hm
  exact ⟨rfl, rfl⟩

/-- The index stored in a message, if any, is its number among the forms of its id. -/
def NumberedAs (m : ToolsMessage φ α) (f : φ) (j : ℕ) : Prop :=
  (P.m_frame.m_factory.formsOf (P.classes.numericIdImpl f))[j]? = some f ∧
    m.idx = some (UInt32.ofNat j)

/-- The loop of `createAllMessages` after the forms `pre`: the next form is numbered by those of
its id among them. -/
def Counted (pre : List φ) (prevId : QString) (prevIdx : UInt32) : Prop :=
  ∀ f, (∀ g ∈ pre, P.classes.numericIdImpl g ≤ P.classes.numericIdImpl f) →
    (if prevId = P.classes.idAsStringImpl (P.classes.numericIdImpl f) then prevIdx + 1 else 0) =
      UInt32.ofNat
        (pre.filter fun g => decide (P.classes.numericIdImpl g = P.classes.numericIdImpl f)).length

section
variable (hne : ∀ n, P.classes.idAsStringImpl n ≠ [])
variable (hinj : ∀ f g, P.classes.idAsStringImpl (P.classes.numericIdImpl f) =
  P.classes.idAsStringImpl (P.classes.numericIdImpl g) →
    P.classes.numericIdImpl f = P.classes.numericIdImpl g)
include hinj

/-- One round of the loop. -/
theorem Counted.step {pre : List φ} {prevId : QString} {prevIdx : UInt32} {f : φ}
    (h : P.Counted pre prevId prevIdx)
    (hpre : ∀ g ∈ pre, P.classes.numericIdImpl g ≤ P.classes.numericIdImpl f) :
    P.Counted (pre ++ [f]) (P.classes.idAsStringImpl (P.classes.numericIdImpl f))
      (if prevId = P.classes.idAsStringImpl (P.classes.numericIdImpl f) then prevIdx + 1
        else 0) := by
  intro g hg
  rw [h f hpre]
  by_cases hid : P.classes.numericIdImpl f = P.classes.numericIdImpl g
  · simp [hid, List.filter_append, UInt32.ofNat_add]
  · -- no form up to `f` has the id of `g`
    have hlt := lt_of_le_of_ne (hg f (by simp)) hid
    have hnone : pre.filter (fun k => decide (P.classes.numericIdImpl k =
        P.classes.numericIdImpl g)) = [] := by
      apply List.filter_eq_nil_iff.mpr
      intro k hk
      have := hpre k hk
      simp only [decide_eq_true_eq]
      omega
    simp [hid, List.filter_append, hnone, mt (hinj f g) hid]

include hne

/-- The messages of the loop after the forms `pre`, one by one: the forms in their order, each with
the number of forms of its id before it. -/
theorem numberMessages_getElem? (pre rest : List φ) (prevId : QString) (prevIdx : UInt32)
    (hsplit : pre ++ rest = P.m_frame.m_factory.m_defaultMsgs)
    (hcount : P.Counted pre prevId prevIdx) (k : ℕ) :
    ∀ m, (P.numberMessages prevId prevIdx
        (rest.map (ToolsMsgFactory.defaultMsg P.classes)))[k]? = some m →
      ∃ f c, rest[k]? = some f ∧ m.body = .prot f c ∧
        m.idx = some (UInt32.ofNat ((pre ++ rest.take k).filter fun g =>
          decide (P.classes.numericIdImpl g = P.classes.numericIdImpl f)).length) := by
  induction rest generalizing pre prevId prevIdx k with
  | nil => simp [numberMessages]
  | cons f rest ih =>
      have hsorted := P.m_frame.m_factory.sorted
      rw [← hsplit] at hsorted
      have hpre : ∀ g ∈ pre, P.classes.numericIdImpl g ≤ P.classes.numericIdImpl f :=
        fun g hg => (List.pairwise_append.mp hsorted).2.2 g hg f List.mem_cons_self
      intro m hm
      rw [List.map_cons, numberMessages] at hm
      cases k with
      | zero =>
          obtain rfl := Option.some.inj hm
          refine ⟨f, (P.classes.doRefresh f (P.classes.defaultMsg f)).1, rfl, ?_, ?_⟩
          · rw [updateMessage_body]
            exact P.updatedBody_prot (hne _) rfl
          · rw [updateMessage_idx, List.take_zero, List.append_nil, ← hcount f hpre]
            rfl
      | succ k =>
          obtain ⟨g, c, hg, hbody, hidx⟩ := ih (pre ++ [f]) _ _ (by simpa using hsplit)
            (Counted.step P hinj hcount hpre) k m hm
          refine ⟨g, c, hg, hbody, ?_⟩
          rw [hidx, List.append_assoc, List.singleton_append, List.take_succ_cons]

/-- The messages of `createAllMessages`, one by one. -/
theorem createAllMessages_getElem? {k : ℕ} {m : ToolsMessage φ α}
    (hm : P.createAllMessages[k]? = some m) :
    ∃ f c, P.m_frame.m_factory.m_defaultMsgs[k]? = some f ∧ m.body = .prot f c ∧
      m.idx = some (UInt32.ofNat ((P.m_frame.m_factory.m_defaultMsgs.take k).filter fun g =>
        decide (P.classes.numericIdImpl g = P.classes.numericIdImpl f)).length) :=
  P.numberMessages_getElem? hne hinj [] _ [] 0 rfl (fun f _ => by simp [(hne _).symm]) k m hm

/-- **Every message of `createAllMessages` knows its number** among the forms of its id. -/
theorem createAllMessages_numbered {m : ToolsMessage φ α} (hm : m ∈ P.createAllMessages) :
    ∃ f c j, m.body = .prot f c ∧ P.NumberedAs m f j := by
  obtain ⟨k, hk⟩ := List.getElem?_of_mem hm
  obtain ⟨f, c, hf, hbody, hidx⟩ := P.createAllMessages_getElem? hne hinj hk
  refine ⟨f, c, _, hbody, ?_, hidx⟩
  rw [ToolsMsgFactory.formsOf]
  exact getElem?_filter_take _ hf (decide_eq_true rfl)

end

end ToolsProtocol

end CcToolsQt
