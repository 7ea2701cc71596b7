import CcToolsQt.MsgRuns

/-! # What the manager has been given

`Records` traces the announcements and the stored messages of an operation back to the messages
handed over in it, and each of these forward to an announcement.  The message objects need not be
distinct: a message may be sent again while it is still being received. -/

namespace CcToolsQt

namespace ToolsMessage
variable {φ α : Type}

theorem form_updateMessage (P : ToolsProtocol φ α) (m : ToolsMessage φ α) :
    (P.updateMessage m).1.form = m.form := by
  unfold form
  rw [P.updateMessage_body]
  unfold ToolsProtocol.updatedBody refreshMsg
  split_ifs
  · rfl
  · cases h : m.body <;> simp [h]

end ToolsMessage

namespace MsgMgr
variable {φ α σ : Type}

/-- What an operation records: the messages handed over and the announcements, in their order. -/
structure Records (s s' : MsgMgr φ α σ) (given : List (MsgPtr × MsgType))
    (told : List (MsgPtr × ToolsMessage φ α)) : Prop where
  handed : s'.handed = s.handed ++ given
  added : s'.added = s.added ++ told
  form : ∀ p, (s'.objs p).form = (s.objs p).form
  typed : ∀ p, (s'.objs p).getType = (s.objs p).getType ∨ (p, (s'.objs p).getType) ∈ given
  /-- The type of a message handed over is one it was handed over with. -/
  last : ∀ e ∈ given, (e.1, (s'.objs e.1).getType) ∈ given
  origin : ∀ a ∈ told, a.2.form = (s.objs a.1).form ∧ (a.1, a.2.getType) ∈ given
  /-- A received message may be sent before it is announced, all others are announced as given. -/
  announced : ∀ e ∈ given, e.2 ≠ MsgType.Received → ∃ a ∈ told, a.1 = e.1 ∧ a.2.getType = e.2
  stored : ∀ p ∈ s'.m_allMsgs, p ∈ s.m_allMsgs ∨ p ∈ given.map Prod.fst

namespace Records
variable {s s₁ s₂ : MsgMgr φ α σ} {given given' : List (MsgPtr × MsgType)}
  {told told' : List (MsgPtr × ToolsMessage φ α)}

theorem refl (s : MsgMgr φ α σ) : Records s s [] [] where
  handed := by simp
  added := by simp
  form _ := rfl
  typed _ := .inl rfl
  last := by simp
  origin := by simp
  announced := by simp
  stored _ hp := .inl hp

theorem trans (h₁ : Records s s₁ given told) (h₂ : Records s₁ s₂ given' told') :
    Records s s₂ (given ++ given') (told ++ told') where
  handed := by rw [h₂.handed, h₁.handed, List.append_assoc]
  added := by rw [h₂.added, h₁.added, List.append_assoc]
  form p := (h₂.form p).trans (h₁.form p)
  typed p := by
    rcases h₂.typed p with h | h
    · rw [h]
      exact (h₁.typed p).imp_right fun hp => List.mem_append_left _ hp
    · exact .inr (List.mem_append_right _ h)
  last e he := by
    rcases List.mem_append.mp he with he | he
    · rcases h₂.typed e.1 with h | h
      · rw [h]
        exact List.mem_append_left _ (h₁.last e he)
      · exact List.mem_append_right _ h
    · exact List.mem_append_right _ (h₂.last e he)
  origin a ha := by
    rcases List.mem_append.mp ha with ha | ha
    · exact (h₁.origin a ha).imp_right fun h => List.mem_append_left _ h
    · obtain ⟨hf, ht⟩ := h₂.origin a ha
      exact ⟨hf.trans (h₁.form a.1), List.mem_append_right _ ht⟩
  announced e he hne := by
    rcases List.mem_append.mp he with he | he
    · obtain ⟨a, ha, h⟩ := h₁.announced e he hne
      exact ⟨a, List.mem_append_left _ ha, h⟩
    · obtain ⟨a, ha, h⟩ := h₂.announced e he hne
      exact ⟨a, List.mem_append_right _ ha, h⟩
  stored p hp := by
    rw [List.map_append]
    rcases h₂.stored p hp with hp | hp
    · exact (h₁.stored p hp).imp_right fun h => List.mem_append_left _ h
    · exact .inr (List.mem_append_right _ hp)

/-- An announcement of a message that was handed over. -/
theorem tell (h : Records s s₁ given told) {p : MsgPtr}
    (hp : (p, (s₁.objs p).getType) ∈ given) :
    Records s (s₁.reportMsgAdded p) given (told ++ [(p, s₁.objs p)]) :=
  { h with
    added := by
      show s₁.added ++ [(p, s₁.objs p)] = _
      rw [h.added, List.append_assoc]
    origin := fun a ha => by
      rcases List.mem_append.mp ha with ha | ha
      · exact h.origin a ha
      · rw [List.mem_singleton.mp ha]
        exact ⟨h.form p, hp⟩
    announced := fun e he hne => by
      obtain ⟨a, ha, hae⟩ := h.announced e he hne
      exact ⟨a, List.mem_append_left _ ha, hae⟩ }

end Records

/-! ### Sending -/

theorem sendToSocket_records (p : MsgPtr) (s : MsgMgr φ α σ) (d : ToolsDataInfo) :
    Records s (sendToSocket p s d) [] [] := by
  have hq := quiet_sendToSocket p s d
  have hself : ((sendToSocket p s d).objs p).form = (s.objs p).form ∧
      ((sendToSocket p s d).objs p).getType = (s.objs p).getType := by
    unfold sendToSocket
    dsimp only
    split_ifs
    · exact ⟨rfl, rfl⟩
    · simp only [modify, Function.update_self]
      cases s.m_protocol with
      | none => exact ⟨rfl, rfl⟩
      | some P =>
          refine ⟨ToolsMessage.form_updateMessage P _, ?_⟩
          obtain ⟨t, e, hu⟩ := P.updateMessage_eq { s.objs p with
            extraInfo := some (insertAll d.m_extraProperties (s.objs p).getExtraInfo) }
          dsimp only
          rw [hu]
          rfl
  have hobj : ∀ q, ((sendToSocket p s d).objs q).form = (s.objs q).form ∧
      ((sendToSocket p s d).objs q).getType = (s.objs q).getType := by
    intro q
    by_cases h : q = p
    · exact h ▸ hself
    · rw [hq.frame q h]
      exact ⟨rfl, rfl⟩
  exact
    { handed := by rw [hq.handed, List.append_nil]
      added := by rw [hq.added, List.append_nil]
      form := fun q => (hobj q).1
      typed := fun q => .inl (hobj q).2
      last := by simp
      origin := by simp
      announced := by simp
      stored := fun q h => .inl (hq.all ▸ h) }

theorem sendToSockets_records (p : MsgPtr) (ds : List ToolsDataInfo) (s : MsgMgr φ α σ) :
    Records s (ds.foldl (sendToSocket p) s) [] [] := by
  induction ds generalizing s with
  | nil => exact .refl s
  | cons d ds ih => exact (sendToSocket_records p s d).trans (ih _)

/-- A message is done with, after whatever was recorded since it was handed over. -/
theorem recordSent_records {s s₂ : MsgMgr φ α σ} {p : MsgPtr} {given : List (MsgPtr × MsgType)}
    {told : List (MsgPtr × ToolsMessage φ α)}
    (h : Records (s.hand p MsgType.Sent) s₂ given told) (now : ℕ) :
    Records s (s₂.recordSent p now) ((p, MsgType.Sent) :: given)
      (told ++ [(p, (s₂.recordSent p now).objs p)]) := by
  have hobj : ∀ q, q ≠ p → (s₂.recordSent p now).objs q = s₂.objs q :=
    fun q hqp => recordSent_objs_of_ne hqp s₂ now
  have hself := recordSent_objs_self s₂ p now
  have hform : ((s₂.recordSent p now).objs p).form = (s.objs p).form := by
    rw [hself]
    exact h.form p
  have htype : ((s₂.recordSent p now).objs p).getType = MsgType.Sent := by
    rw [hself]
    rfl
  exact
    { handed := by
        show s₂.handed = _
        rw [h.handed]
        simp [hand]
      added := by
        show s₂.added ++ [(p, (s₂.recordSent p now).objs p)] = _
        rw [h.added, List.append_assoc]
        rfl
      form := by
        intro q
        by_cases hq : q = p
        · exact hq ▸ hform
        · rw [hobj q hq]
          exact h.form q
      typed := by
        intro q
        by_cases hq : q = p
        · rw [hq, htype]
          exact .inr List.mem_cons_self
        · rw [hobj q hq]
          exact (h.typed q).imp_right fun hm => List.mem_cons_of_mem _ hm
      last := by
        intro e he
        by_cases hq : e.1 = p
        · rw [hq, htype]
          exact List.mem_cons_self
        · rw [hobj e.1 hq]
          rcases List.mem_cons.mp he with rfl | he
          · exact absurd rfl hq
          · exact List.mem_cons_of_mem _ (h.last e he)
      origin := by
        intro a ha
        rcases List.mem_append.mp ha with ha | ha
        · exact (h.origin a ha).imp_right fun hm => List.mem_cons_of_mem _ hm
        · rw [List.mem_singleton.mp ha]
          exact ⟨hform, by rw [htype]; exact List.mem_cons_self⟩
      announced := by
        intro e he hne
        rcases List.mem_cons.mp he with rfl | he
        · exact ⟨_, List.mem_append_right _ List.mem_cons_self, rfl, htype⟩
        · obtain ⟨a, ha, hae⟩ := h.announced e he hne
          exact ⟨a, List.mem_append_left _ ha, hae⟩
      stored := by
        intro q hq
        rw [List.map_cons]
        rcases List.mem_append.mp hq with hq | hq
        · exact (h.stored q hq).imp_right fun hm => List.mem_cons_of_mem _ hm
        · rw [List.mem_singleton.mp hq]
          exact .inr List.mem_cons_self }

mutual
theorem sendOne_records (r : SendReq) (s : MsgMgr φ α σ) :
    ∃ given told, Records s (sendOne r s) given told := by
  match r with
  | .mk none write requests now =>
      rw [sendOne]
      exact ⟨_, _, .refl s⟩
  | .mk (some p) none requests now =>
      rw [sendOne]
      exact ⟨_, _, recordSent_records (.refl _) now⟩
  | .mk (some p) (some dataInfo) requests now =>
      rw [sendOne]
      have hf : Records (s.hand p MsgType.Sent) { s.hand p MsgType.Sent with
          m_filters := (ToolsFilter.sendChain (s.hand p MsgType.Sent).m_filters dataInfo).1 }
          [] [] := { Records.refl (s.hand p MsgType.Sent) with }
      split_ifs
      · exact ⟨_, _, recordSent_records hf now⟩
      · have hs := hf.trans (sendToSockets_records p
          (ToolsFilter.sendChain (s.hand p MsgType.Sent).m_filters dataInfo).2 _)
        obtain ⟨given, told, hin⟩ := sendLoop_records requests _
        exact ⟨_, _, recordSent_records (hs.trans hin) now⟩

theorem sendLoop_records (rs : List SendReq) (s : MsgMgr φ α σ) :
    ∃ given told, Records s (sendLoop rs s) given told := by
  match rs with
  | [] => exact ⟨_, _, .refl s⟩
  | r :: rs =>
      obtain ⟨given₁, told₁, h₁⟩ := sendOne_records r s
      obtain ⟨given₂, told₂, h₂⟩ := sendLoop_records rs (sendOne r s)
      exact ⟨_, _, h₁.trans h₂⟩
end

/-! ### Receiving -/

/-- What is done to a received message before anything is sent in reply to it. -/
theorem stampReceived_records (s : MsgMgr φ α σ) (p : MsgPtr) (timestamp : ℕ) :
    Records s (((s.hand p MsgType.Received).updateInternalId p).setTypeAndTime p
      MsgType.Received timestamp) [(p, MsgType.Received)] [] := by
  set s₁ := ((s.hand p MsgType.Received).updateInternalId p).setTypeAndTime p
    MsgType.Received timestamp
  have hself := stamped_objs_self (s.hand p MsgType.Received) p MsgType.Received timestamp
  have hframe : ∀ q, q ≠ p → s₁.objs q = s.objs q :=
    fun q hq => stamped_objs_of_ne hq _ _ _
  refine ⟨rfl, (List.append_nil _).symm, ?_, ?_, ?_, by simp, ?_, fun q hq => .inl hq⟩
  · intro q
    by_cases hq : q = p
    · rw [hq, hself]
      rfl
    · rw [hframe q hq]
  · intro q
    by_cases hq : q = p
    · rw [hq, hself]
      exact .inr List.mem_cons_self
    · rw [hframe q hq]
      exact .inl rfl
  · intro e he
    rw [List.mem_singleton.mp he, hself]
    exact List.mem_cons_self
  · intro e he hne
    rw [List.mem_singleton.mp he] at hne
    exact absurd rfl hne

theorem receiveOne_records (dataInfo : ToolsDataInfo) (s : MsgMgr φ α σ) (m : RecvMsg) :
    ∃ given told, Records s (receiveOne dataInfo s m) given told ∧
      m.msg ∈ given.map Prod.fst := by
  have h₁ := stampReceived_records s m.msg (m.timestamp dataInfo)
  obtain ⟨given, told, hin⟩ := sendLoop_records m.requests _
  have h := h₁.trans hin
  have hlast := h.last (m.msg, MsgType.Received) (List.mem_append_left _ List.mem_cons_self)
  exact ⟨_, _, h.tell hlast, List.mem_cons_self⟩

theorem receiveLoop_records (dataInfo : ToolsDataInfo) (msgs : List RecvMsg)
    (s : MsgMgr φ α σ) :
    ∃ given told, Records s (msgs.foldl (receiveOne dataInfo) s) given told ∧
      ∀ m ∈ msgs, m.msg ∈ given.map Prod.fst := by
  induction msgs generalizing s with
  | nil => exact ⟨_, _, .refl s, by simp⟩
  | cons m msgs ih =>
      obtain ⟨given₁, told₁, h₁, hm⟩ := receiveOne_records dataInfo s m
      obtain ⟨given₂, told₂, h₂, hms⟩ := ih (receiveOne dataInfo s m)
      refine ⟨_, _, h₁.trans h₂, fun m' hm' => ?_⟩
      rw [List.map_append]
      rcases List.mem_cons.mp hm' with rfl | hm'
      · exact List.mem_append_left _ hm
      · exact List.mem_append_right _ (hms m' hm')

theorem receiveAll_records (dataInfo : ToolsDataInfo) (msgs : List RecvMsg)
    (s : MsgMgr φ α σ) : ∃ given told, Records s (s.receiveAll dataInfo msgs) given told := by
  obtain ⟨given, told, h, hms⟩ := receiveLoop_records dataInfo msgs s
  refine ⟨given, told, { h with stored := fun p hp => ?_ }⟩
  rcases List.mem_append.mp hp with hp | hp
  · exact h.stored p hp
  · obtain ⟨m, hm, rfl⟩ := List.mem_map.mp hp
    exact .inr (hms m hm)

theorem socketDataReceived_records (dataInfo : Option ToolsDataInfo)
    (reads : List (List RecvMsg)) (s : MsgMgr φ α σ) :
    ∃ given told, Records s (s.socketDataReceived dataInfo reads) given told := by
  unfold socketDataReceived
  cases dataInfo with
  | none => exact ⟨_, _, .refl s⟩
  | some dataInfo =>
      dsimp only
      split_ifs
      · exact ⟨_, _, .refl s⟩
      · exact ⟨_, _, { Records.refl s with }⟩
      · obtain ⟨given, told, h⟩ := receiveAll_records dataInfo (s.received dataInfo reads)
          { s with m_filters := (ToolsFilter.recvChain s.m_filters dataInfo).1 }
        exact ⟨given, told, { h with }⟩

/-! ### Adding -/

theorem addOne_records (s : MsgMgr φ α σ) (m : Option MsgPtr × ℕ) :
    ∃ given told, Records s (addOne true s m) given told := by
  obtain ⟨_ | p, now⟩ := m
  · exact ⟨_, _, .refl s⟩
  · by_cases hinv : (s.objs p).getType = MsgType.Invalid
    · simp only [addOne, hinv, if_true]
      exact ⟨_, _, .refl s⟩
    · obtain ⟨s₁, hs₁, hq, hbody, htype, -⟩ := addOne_timestamp s p (s.objs p).getType now
      set s' := ((s₁.updateInternalId p).reportMsgAdded p).pushBack p with hs'
      have hres : addOne true s (some p, now) = s' := by
        rw [hs', ← hs₁]
        simp only [addOne, hinv, if_false, if_true]
      have hself : s'.objs p = { s₁.objs p with num := some s₁.m_nextMsgNum } :=
        updateInternalId_objs_self s₁ p
      have hall : ∀ q, (s'.objs q).form = (s.objs q).form ∧
          (s'.objs q).getType = (s.objs q).getType := by
        intro q
        by_cases hqp : q = p
        · rw [hqp, hself]
          exact ⟨ToolsMessage.form_of_body hbody, congrArg (Option.getD · _) htype⟩
        · have hobj : s'.objs q = s₁.objs q := updateInternalId_objs_of_ne hqp s₁
          rw [hobj, hq.frame q hqp]
          exact ⟨rfl, rfl⟩
      rw [hres]
      refine ⟨[(p, (s.objs p).getType)], [(p, s'.objs p)], hq.handed, ?_,
        fun q => (hall q).1, fun q => .inl (hall q).2, ?_, ?_, ?_, ?_⟩
      · show s₁.added ++ _ = _
        rw [hq.added]
        rfl
      · intro e he
        rw [List.mem_singleton.mp he, (hall p).2]
        exact List.mem_cons_self
      · intro a ha
        rw [List.mem_singleton.mp ha]
        exact ⟨(hall p).1, by rw [(hall p).2]; exact List.mem_cons_self⟩
      · intro e he _
        rw [List.mem_singleton.mp he]
        exact ⟨_, List.mem_cons_self, rfl, (hall p).2⟩
      · intro q hmem
        rcases List.mem_append.mp hmem with hmem | hmem
        · exact .inl (hq.all ▸ hmem)
        · exact .inr hmem

theorem addMsgs_records (msgs : List (Option MsgPtr × ℕ)) (s : MsgMgr φ α σ) :
    ∃ given told, Records s (s.addMsgs msgs true) given told := by
  unfold addMsgs
  induction msgs generalizing s with
  | nil => exact ⟨_, _, .refl s⟩
  | cons m msgs ih =>
      obtain ⟨given₁, told₁, h₁⟩ := addOne_records s m
      obtain ⟨given₂, told₂, h₂⟩ := ih (addOne true s m)
      exact ⟨_, _, h₁.trans h₂⟩

/-- A message in the store as it was before it was added: only its number and a missing time are
new. -/
def AddedAs (m m' : ToolsMessage φ α) : Prop :=
  ∃ num timestamp, m' = { m with num := num, timestamp := timestamp } ∧
    (m.getTimestamp ≠ 0 → timestamp = m.timestamp)

theorem AddedAs.refl (m : ToolsMessage φ α) : AddedAs m m := ⟨m.num, m.timestamp, rfl, fun _ => rfl⟩

theorem AddedAs.trans {m m' m'' : ToolsMessage φ α} (h : AddedAs m m') (h' : AddedAs m' m'') :
    AddedAs m m'' := by
  obtain ⟨num, timestamp, rfl, ht⟩ := h
  obtain ⟨num', timestamp', rfl, ht'⟩ := h'
  refine ⟨num', timestamp', rfl, fun hne => ?_⟩
  have hkept := ht hne
  subst hkept
  exact ht' hne

theorem AddedAs.getType {m m' : ToolsMessage φ α} (h : AddedAs m m') : m'.getType = m.getType := by
  obtain ⟨num, timestamp, rfl, -⟩ := h
  rfl

/-- What the announcements of stored messages have in common with them. -/
theorem map_addedAs {β : Type} {objs : MsgPtr → ToolsMessage φ α} (f : ToolsMessage φ α → β)
    {ps : List MsgPtr} {told : List (MsgPtr × ToolsMessage φ α)}
    (h : List.Forall₂ (fun p a => a.1 = p ∧ AddedAs (objs p) a.2) ps told)
    (hf : ∀ p ∈ ps, ∀ m, AddedAs (objs p) m → f m = f (objs p)) :
    told.map (fun a => (a.1, f a.2)) = ps.map fun p => (p, f (objs p)) := by
  induction h with
  | nil => rfl
  | @cons p a ps told ha _ ih =>
      obtain ⟨rfl, ha⟩ := ha
      rw [List.map_cons, List.map_cons, ih fun q hq => hf q (List.mem_cons_of_mem _ hq),
        hf a.1 List.mem_cons_self a.2 ha]

/-- One message passed to `addMsgs`: it is skipped, or stored and announced. -/
theorem addOne_addedAs (s : MsgMgr φ α σ) (p : MsgPtr) (now : ℕ) :
    (∀ q, AddedAs (s.objs q) ((addOne true s (some p, now)).objs q)) ∧
      if (s.objs p).getType = MsgType.Invalid then addOne true s (some p, now) = s
      else (addOne true s (some p, now)).m_allMsgs = s.m_allMsgs ++ [p] ∧
        ∃ m, AddedAs (s.objs p) m ∧
          (addOne true s (some p, now)).added = s.added ++ [(p, m)] := by
  by_cases hinv : (s.objs p).getType = MsgType.Invalid
  · have e : addOne true s (some p, now) = s := by simp [addOne, hinv]
    rw [if_pos hinv, e]
    exact ⟨fun q => .refl _, rfl⟩
  · rw [if_neg hinv]
    have hone : ∃ m, AddedAs (s.objs p) m ∧
        (addOne true s (some p, now)).objs = Function.update s.objs p m ∧
        (addOne true s (some p, now)).m_allMsgs = s.m_allMsgs ++ [p] ∧
        (addOne true s (some p, now)).added = s.added ++ [(p, m)] := by
      by_cases htime : (s.objs p).getTimestamp = 0
      · refine ⟨{ s.objs p with
            num := some s.m_nextMsgNum, timestamp := some (milliseconds now) }, ?_, ?_, ?_, ?_⟩
        · exact ⟨_, _, rfl, fun hne => absurd htime hne⟩
        all_goals simp [addOne, hinv, hand, htime, updateInternalId, modify, reportMsgAdded,
          pushBack]
      · refine ⟨{ s.objs p with num := some s.m_nextMsgNum }, ?_, ?_, ?_, ?_⟩
        · exact ⟨_, _, rfl, fun _ => rfl⟩
        all_goals simp [addOne, hinv, hand, htime, updateInternalId, modify, reportMsgAdded,
          pushBack]
    obtain ⟨m, hm, hobjs, hall, hadded⟩ := hone
    refine ⟨fun q => ?_, hall, m, hm, hadded⟩
    rw [hobjs]
    by_cases hq : q = p
    · rw [hq, Function.update_self]
      exact hm
    · rw [Function.update_of_ne hq]
      exact .refl _

/-- The messages of a list `addMsgs` does not skip. -/
def validMsgs (objs : MsgPtr → ToolsMessage φ α) (msgs : List (Option MsgPtr × ℕ)) : List MsgPtr :=
  (msgs.filterMap Prod.fst).filter fun p => decide ((objs p).getType ≠ MsgType.Invalid)

/-- **What `addMsgs` stores and announces**: the messages with a valid type, in their order. -/
theorem addMsgs_addedAs (msgs : List (Option MsgPtr × ℕ)) (s : MsgMgr φ α σ) :
    (s.addMsgs msgs true).m_allMsgs = s.m_allMsgs ++ validMsgs s.objs msgs ∧
      (∀ q, AddedAs (s.objs q) ((s.addMsgs msgs true).objs q)) ∧
      ∃ told, (s.addMsgs msgs true).added = s.added ++ told ∧
        List.Forall₂ (fun p a => a.1 = p ∧ AddedAs (s.objs p) a.2) (validMsgs s.objs msgs)
          told := by
  induction msgs generalizing s with
  | nil => exact ⟨(List.append_nil _).symm, fun q => .refl _, [], (List.append_nil _).symm, .nil⟩
  | cons m msgs ih =>
      obtain ⟨_ | p, now⟩ := m
      · exact ih s
      · obtain ⟨hobjs, hone⟩ := addOne_addedAs s p now
        obtain ⟨hall, hobjs', told, hadded, htold⟩ := ih (addOne true s (some p, now))
        have hcons : s.addMsgs ((some p, now) :: msgs) true =
            (addOne true s (some p, now)).addMsgs msgs true := rfl
        have hvalid :
            validMsgs (addOne true s (some p, now)).objs msgs = validMsgs s.objs msgs := by
          unfold validMsgs
          apply List.filter_congr
          intro q _
          rw [(hobjs q).getType]
        have hrest : List.Forall₂ (fun p a => a.1 = p ∧ AddedAs (s.objs p) a.2)
            (validMsgs s.objs msgs) told := by
          rw [← hvalid]
          exact htold.imp fun q a ha => ⟨ha.1, (hobjs q).trans ha.2⟩
        rw [hvalid] at hall
        rw [hcons, hall, hadded]
        refine ⟨?_, fun q => (hobjs q).trans (hobjs' q), ?_⟩
        · split_ifs at hone with hinv
          · rw [hone]
            simp [validMsgs, hinv]
          · rw [hone.1]
            simp [validMsgs, hinv]
        · split_ifs at hone with hinv
          · refine ⟨told, by rw [hone], ?_⟩
            simpa [validMsgs, hinv] using hrest
          · obtain ⟨-, m, hm, hone⟩ := hone
            refine ⟨(p, m) :: told, by rw [hone, List.append_assoc]; rfl, ?_⟩
            simp only [validMsgs, List.filterMap_cons, hinv, ne_eq, not_false_eq_true, decide_true,
              List.filter_cons_of_pos]
            exact .cons ⟨rfl, hm⟩ hrest

/-- **What one event records**, if messages that are added are announced. -/
theorem step_records (s : MsgMgr φ α σ) (ev : Event) (h : ev.Reports) :
    ∃ given told, Records s (s.step ev) given told := by
  cases ev with
  | socketDataReceived dataInfo reads => exact socketDataReceived_records dataInfo reads s
  | sendMsgs msgs =>
      show ∃ given told, Records s (s.sendMsgs msgs) given told
      unfold sendMsgs
      split_ifs
      · exact ⟨_, _, .refl s⟩
      · exact sendLoop_records msgs s
  | addMsgs msgs reportAdded =>
      obtain rfl : reportAdded = true := h
      exact addMsgs_records msgs s

end MsgMgr

end CcToolsQt
