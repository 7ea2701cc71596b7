import CcToolsQt.SendFile

/-! # Message ids

The id text and the index of a message name its class: `createAllMessages` assigns the index by
comparing id texts in a row, `createMessage` takes it for an offset behind the lower bound of the
number the text spells.

* `createMessage_eq_none_iff`: when nothing is created.
* `messageIds_roundTrip`: the names are different, and each leads back to its class. -/

namespace CcToolsQt

namespace ToolsProtocol
variable {φ α : Type} (P : ToolsProtocol φ α)

/-- The numeric ids of the messages of `createAllMessages`. -/
def messageIds : List ℤ := P.createAllMessages.map (ToolsMessage.numericId P.classes)

/-- The forms of an id counted before a position fit into the index. -/
theorem toNat_formIdx {k : ℕ} (p : φ → Bool) :
    (UInt32.ofNat ((P.m_frame.m_factory.m_defaultMsgs.take k).filter p).length).toNat =
      ((P.m_frame.m_factory.m_defaultMsgs.take k).filter p).length := by
  have hfilter := List.length_filter_le p (P.m_frame.m_factory.m_defaultMsgs.take k)
  have htake := List.length_take_le' k P.m_frame.m_factory.m_defaultMsgs
  have hlt := P.m_frame.m_factory.length_lt
  rw [UInt32.toNat_ofNat', Nat.mod_eq_of_lt (by omega)]

/-- There is one message of each class, in the order of the factory. -/
theorem createAllMessages_form :
    P.createAllMessages.map ToolsMessage.form = P.m_frame.m_factory.m_defaultMsgs.map some := by
  rw [createAllMessages, P.numberMessages_form, ToolsMsgFactory.createAllMessages, List.map_map]
  rfl

theorem messageIds_eq :
    P.messageIds = P.m_frame.m_factory.m_defaultMsgs.map P.classes.numericIdImpl := by
  have h := congrArg (List.map fun f => (f.map P.classes.numericIdImpl).getD 0)
    P.createAllMessages_form
  rw [List.map_map, List.map_map] at h
  calc P.messageIds
      = P.createAllMessages.map
          ((fun f => (f.map P.classes.numericIdImpl).getD 0) ∘ ToolsMessage.form) := by
        apply List.map_congr_left
        intro m _
        simp only [ToolsMessage.numericId, Function.comp_apply, ToolsMessage.form]
        cases m.body <;> rfl
    _ = P.m_frame.m_factory.m_defaultMsgs.map P.classes.numericIdImpl := h

/-- The number of forms of an id. -/
theorem count_messageIds (id : ℤ) :
    P.messageIds.count id = (P.m_frame.m_factory.formsOf id).length := by
  rw [P.messageIds_eq, List.count, List.countP_map, List.countP_eq_length_filter]
  rfl

/-- **When `createMessage` returns null**: the text spells no number, or the number of no message,
or the index is not below the number of forms. -/
theorem createMessage_eq_none_iff (s : QString) (idx : UInt32) :
    P.createMessage s idx = none ↔
      QString.spelledId s = none ∨
        ∃ id, QString.spelledId s = some id ∧
          (id ∉ P.messageIds ∨ P.messageIds.count id ≤ idx.toNat) := by
  rw [P.createMessage_eq, Option.map_eq_none_iff, ToolsMsgFactory.formsOfText]
  cases hs : QString.spelledId s with
  | none => simp
  | some id =>
      rw [List.getElem?_eq_none_iff, ← P.count_messageIds id]
      constructor
      · intro h
        exact Or.inr ⟨id, rfl, Or.inr h⟩
      · rintro (h | ⟨id', h, hnone⟩)
        · cases h
        · obtain rfl := Option.some.inj h
          rcases hnone with hnone | hle
          · rw [List.count_eq_zero_of_not_mem hnone]
            exact Nat.zero_le _
          · exact hle

section
variable (hid : ToolsMsgFileMgr.NumericIds P.classes)
include hid

/-- A message created by the id text and the index of one of `createAllMessages`. -/
theorem createMessage_idAsString {m : ToolsMessage φ α} (hm : m ∈ P.createAllMessages)
    (hpos : 0 ≤ m.numericId P.classes) :
    ∃ f c idx, m.body = .prot f c ∧ m.idx = some idx ∧
      P.createMessage (m.idAsString P.classes) idx =
        some { body := .prot f (P.classes.defaultMsg f), idx := some idx } := by
  obtain ⟨k, hk⟩ := List.getElem?_of_mem hm
  obtain ⟨f, c, hf, hbody, hidx⟩ := P.createAllMessages_getElem? hid.ne_nil hid.inj hk
  have hnum : m.numericId P.classes = P.classes.numericIdImpl f := by
    simp [ToolsMessage.numericId, hbody]
  refine ⟨f, c, _, hbody, hidx, ?_⟩
  rw [hnum] at hpos
  rw [P.createMessage_eq, ToolsMessage.idAsString, hnum, ToolsMsgFactory.formsOfText,
    hid.spelledId_some (Or.inr hpos), P.toNat_formIdx]
  have hform : (P.m_frame.m_factory.formsOf (P.classes.numericIdImpl f))[
      ((P.m_frame.m_factory.m_defaultMsgs.take k).filter fun g =>
        decide (P.classes.numericIdImpl g = P.classes.numericIdImpl f)).length]? = some f :=
    getElem?_filter_take _ hf (decide_eq_true rfl)
  rw [hform]
  rfl

/-- Different messages of `createAllMessages` have different id texts or different indices. -/
theorem createAllMessages_nodup :
    (P.createAllMessages.map fun m => (m.idAsString P.classes, m.getIdx)).Nodup := by
  refine List.pairwise_iff_getElem.mpr ?_
  intro j k hj hk hjk heq
  rw [List.length_map] at hj hk
  rw [List.getElem_map, List.getElem_map] at heq
  obtain ⟨htext, hindex⟩ := Prod.mk.inj heq
  obtain ⟨f, c, hf, hfbody, hfidx⟩ :=
    P.createAllMessages_getElem? hid.ne_nil hid.inj (List.getElem?_eq_getElem hj)
  obtain ⟨g, d, hg, hgbody, hgidx⟩ :=
    P.createAllMessages_getElem? hid.ne_nil hid.inj (List.getElem?_eq_getElem hk)
  have hids : P.classes.numericIdImpl f = P.classes.numericIdImpl g := by
    apply hid.inj f g
    simpa [ToolsMessage.idAsString, ToolsMessage.numericId, hfbody, hgbody] using htext
  -- the earlier form is among those counted for the later one
  simp only [ToolsMessage.getIdx, hfidx, hgidx, Option.getD_some] at hindex
  have hcount := congrArg UInt32.toNat hindex
  rw [P.toNat_formIdx, P.toNat_formIdx, hids] at hcount
  obtain ⟨hlt, rfl⟩ := List.getElem?_eq_some_iff.mp hf
  have hsub : P.m_frame.m_factory.m_defaultMsgs.take j ++
      [P.m_frame.m_factory.m_defaultMsgs[j]] <+: P.m_frame.m_factory.m_defaultMsgs.take k := by
    rw [List.take_append_getElem hlt]
    exact List.take_prefix_take_left hjk
  have hle := (hsub.sublist.filter fun h =>
    decide (P.classes.numericIdImpl h = P.classes.numericIdImpl g)).length_le
  simp only [List.filter_append, List.filter_cons, List.filter_nil, hids, decide_true, if_true,
    List.length_append, List.length_cons, List.length_nil] at hle
  omega

/-- **Message ids round-trip through the factory**, where they are not negative. -/
theorem messageIds_roundTrip
    (hpos : ∀ f ∈ P.m_frame.m_factory.m_defaultMsgs, 0 ≤ P.classes.numericIdImpl f) :
    P.createAllMessages.map ToolsMessage.form = P.m_frame.m_factory.m_defaultMsgs.map some ∧
      (∀ m ∈ P.createAllMessages, ∃ f c idx, m.body = .prot f c ∧ m.idx = some idx ∧
        P.createMessage (m.idAsString P.classes) idx =
          some { body := .prot f (P.classes.defaultMsg f), idx := some idx }) ∧
      (P.createAllMessages.map fun m => (m.idAsString P.classes, m.getIdx)).Nodup ∧
      ∀ s idx, P.createMessage s idx = none ↔
        QString.spelledId s = none ∨
          ∃ id, QString.spelledId s = some id ∧
            (id ∉ P.messageIds ∨ P.messageIds.count id ≤ idx.toNat) := by
  refine ⟨P.createAllMessages_form, fun m hm => P.createMessage_idAsString hid hm ?_,
    P.createAllMessages_nodup hid, P.createMessage_eq_none_iff⟩
  have hmem : m.numericId P.classes ∈ P.messageIds := List.mem_map_of_mem hm
  rw [P.messageIds_eq] at hmem
  obtain ⟨f, hf, hnum⟩ := List.mem_map.mp hmem
  rw [← hnum]
  exact hpos f hf

end

end ToolsProtocol

/-- Two classes with one id are told apart by the index, and there is no third one. -/
theorem messageIds_roundTrip_twin :
    (ToolsMsgFileMgr.twinProtocol.createAllMessages.map fun m =>
        (m.idAsString ToolsMsgFileMgr.twinProtocol.classes, m.getIdx)).Nodup ∧
      ToolsMsgFileMgr.twinProtocol.createMessage ['0'] 2 = none := by
  obtain ⟨-, -, hnodup, hnone⟩ := ToolsMsgFileMgr.twinProtocol.messageIds_roundTrip (Or.inl rfl) (by
    intro f _
    exact le_refl (0 : ℤ))
  exact ⟨hnodup, (hnone ['0'] 2).mpr (Or.inr ⟨0, by decide, Or.inr (by decide)⟩)⟩

end CcToolsQt
