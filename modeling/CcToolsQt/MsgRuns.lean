import CcToolsQt.MsgStore
import Mathlib.Data.List.Flatten

/-! # Runs of the message manager

Sequences of `socketDataReceived`, `sendMsgs` and `addMsgs`, with whatever the protocol sends
while they are handled.

* `run_records`: every message that enters the manager, from outside or from inside a report of the
  protocol, is stored exactly once, and announced exactly once unless `addMsgs` was told not to.
* `store_ordered_iff`: the store stays in the order of the numbers and of the announcements if
  and only if nothing is ever sent from inside `messageReceivedReport()`.  A reply is numbered
  after the message it replies to and stored before it.
* `deleteLoop_eq_filter_iff`: which lists `deleteMsgs` removes whole.
* `eraseRuns_eq`: the iterators of its loop stay inside the store. -/

namespace CcToolsQt

/-- A call of the manager from outside. -/
inductive Event where
  | socketDataReceived (dataInfo : Option ToolsDataInfo) (reads : List (List RecvMsg))
  | sendMsgs (msgs : List SendReq)
  | addMsgs (msgs : List (Option MsgPtr × ℕ)) (reportAdded : Bool)

namespace Event

/-- All pointers an event brings in. -/
def ptrs : Event → List MsgPtr
  | socketDataReceived _ reads => reads.flatten.flatMap RecvMsg.ptrs
  | sendMsgs msgs => SendReq.allPtrs msgs
  | addMsgs msgs _ => msgs.flatMap fun m => m.1.toList

/-- The times the messages of an event may get. -/
def clocks : Event → List ℕ
  | socketDataReceived none _ => []
  | socketDataReceived (some dataInfo) reads => reads.flatten.flatMap (RecvMsg.clocks dataInfo)
  | sendMsgs msgs => SendReq.allClocks msgs
  | addMsgs msgs _ => msgs.map Prod.snd

/-- Of the messages of a chunk at most the first one is replied to from inside
`messageReceivedReport()`. -/
def AnswersFirst : Event → Prop
  | socketDataReceived _ reads => ∀ m ∈ reads.flatten.tail, m.NoReply
  | _ => True

/-- Messages that are added are to be announced. -/
def Reports : Event → Prop
  | addMsgs _ reportAdded => reportAdded = true
  | _ => True

end Event

namespace MsgMgr
variable {φ α σ : Type}

def step (s : MsgMgr φ α σ) : Event → MsgMgr φ α σ
  | .socketDataReceived dataInfo reads => s.socketDataReceived dataInfo reads
  | .sendMsgs msgs => s.sendMsgs msgs
  | .addMsgs msgs reportAdded => s.addMsgs msgs reportAdded

def run (s : MsgMgr φ α σ) (evs : List Event) : MsgMgr φ α σ := evs.foldl step s

/-- Socket and protocol are set and receiving is enabled. -/
def Enabled (s : MsgMgr φ α σ) : Prop :=
  s.m_socket = true ∧ s.m_recvEnabled = true ∧ s.m_protocol.isSome = true

mutual
/-- The messages passed to `sendMsgs` while a request is handled, and the filters after it.  Those
the protocol sends from inside `messageSentReport()` are among them if there is data to send. -/
def passedOne : SendReq → List (ToolsFilter σ) → List MsgPtr × List (ToolsFilter σ)
  | .mk none _ _ _, fs => ([], fs)
  | .mk (some p) none _ _, fs => ([p], fs)
  | .mk (some p) (some dataInfo) requests _, fs =>
      let r := ToolsFilter.sendChain fs dataInfo
      if r.2.isEmpty then ([p], r.1)
      else
        let x := passedAll requests r.1
        (p :: x.1, x.2)

def passedAll : List SendReq → List (ToolsFilter σ) → List MsgPtr × List (ToolsFilter σ)
  | [], fs => ([], fs)
  | r :: rs, fs =>
      let x := passedOne r fs
      let y := passedAll rs x.2
      (x.1 ++ y.1, y.2)
end

/-- The messages decoded from a chunk, and those passed to `sendMsgs` while they are reported. -/
def decodedAll : List RecvMsg → List (ToolsFilter σ) → List (MsgPtr × MsgType)
  | [], _ => []
  | m :: ms, fs =>
      let x := passedAll m.requests fs
      (m.msg, MsgType.Received) :: (x.1.map fun p => (p, MsgType.Sent)) ++ decodedAll ms x.2

/-- The messages that enter the manager in an event, with the type each is to get: decoded from the
data, passed to `sendMsgs` or `addMsgs`, or sent by the protocol from inside
`messageReceivedReport()` or `messageSentReport()`, at any depth. -/
def entering (s : MsgMgr φ α σ) : Event → List (MsgPtr × MsgType)
  | .socketDataReceived none _ => []
  | .socketDataReceived (some dataInfo) reads =>
      decodedAll (s.received dataInfo reads) (ToolsFilter.recvChain s.m_filters dataInfo).1
  | .sendMsgs msgs => (passedAll msgs s.m_filters).1.map fun p => (p, MsgType.Sent)
  | .addMsgs msgs _ =>
      ((msgs.filterMap Prod.fst).filter fun p => (s.objs p).getType ≠ MsgType.Invalid).map
        fun p => (p, (s.objs p).getType)

/-- The protocol sends nothing from inside `messageReceivedReport()` in this event. -/
def NoReplies (s : MsgMgr φ α σ) : Event → Prop
  | .socketDataReceived (some dataInfo) reads =>
      s.Enabled → ∀ m ∈ s.received dataInfo reads, m.NoReply
  | _ => True

/-- The store is in the order of the numbers and of the announcements. -/
def Ordered (s : MsgMgr φ α σ) : Prop :=
  (s.m_allMsgs.map s.seqNumber).Pairwise (· < ·) ∧ (s.added.map Prod.fst).Sublist s.m_allMsgs

instance (s : MsgMgr φ α σ) : Decidable s.Ordered := by
  unfold Ordered
  infer_instance

/-! ### What enters -/

mutual
/-- What is handed over while a request is handled. -/
theorem sendOne_handed (r : SendReq) (s : MsgMgr φ α σ) :
    (sendOne r s).handed =
        s.handed ++ (passedOne r s.m_filters).1.map (fun p => (p, MsgType.Sent)) ∧
      (sendOne r s).m_filters = (passedOne r s.m_filters).2 := by
  match r with
  | .mk none _ _ _ =>
      simp only [sendOne, passedOne, List.map_nil, List.append_nil, and_self]
  | .mk (some p) none _ now =>
      rw [sendOne, passedOne]
      exact ⟨rfl, rfl⟩
  | .mk (some p) (some dataInfo) requests now =>
      by_cases hempty : (ToolsFilter.sendChain s.m_filters dataInfo).2.isEmpty = true
      · simp only [sendOne, passedOne, hand_filters, hempty, if_true]
        exact ⟨rfl, rfl⟩
      · simp only [sendOne, passedOne, hand_filters, hempty, if_false, Bool.false_eq_true]
        set s₁ : MsgMgr φ α σ := { s.hand p MsgType.Sent with
          m_filters := (ToolsFilter.sendChain s.m_filters dataInfo).1 }
        set s₂ := (ToolsFilter.sendChain s.m_filters dataInfo).2.foldl (sendToSocket p) s₁
        have hfilters : s₂.m_filters = s₁.m_filters := (sendToSockets_fields p s₁ _).1
        obtain ⟨hhanded, hrest⟩ := sendLoop_handed requests s₂
        rw [hfilters] at hhanded hrest
        refine ⟨?_, hrest⟩
        show (sendLoop requests s₂).handed = _
        rw [hhanded, show s₂.handed = s₁.handed from (quiet_sendToSockets p s₁ _).handed]
        show (s.handed ++ [(p, MsgType.Sent)]) ++ _ = _
        rw [List.append_assoc]
        rfl

theorem sendLoop_handed (rs : List SendReq) (s : MsgMgr φ α σ) :
    (sendLoop rs s).handed =
        s.handed ++ (passedAll rs s.m_filters).1.map (fun p => (p, MsgType.Sent)) ∧
      (sendLoop rs s).m_filters = (passedAll rs s.m_filters).2 := by
  match rs with
  | [] => simp only [sendLoop, passedAll, List.map_nil, List.append_nil, and_self]
  | r :: rs =>
      obtain ⟨hhanded, hfilters⟩ := sendOne_handed r s
      obtain ⟨ihhanded, ihfilters⟩ := sendLoop_handed rs (sendOne r s)
      rw [sendLoop, passedAll, ihhanded, ihfilters, hhanded, hfilters]
      exact ⟨by rw [List.map_append, List.append_assoc], rfl⟩
end

/-- What is handed over while a chunk of messages is received. -/
theorem receiveLoop_handed (dataInfo : ToolsDataInfo) (msgs : List RecvMsg) (s : MsgMgr φ α σ) :
    (msgs.foldl (receiveOne dataInfo) s).handed = s.handed ++ decodedAll msgs s.m_filters := by
  induction msgs generalizing s with
  | nil => exact (List.append_nil _).symm
  | cons m msgs ih =>
      obtain ⟨hhanded, hfilters⟩ := sendLoop_handed m.requests
        (((s.hand m.msg MsgType.Received).updateInternalId m.msg).setTypeAndTime m.msg
          MsgType.Received (m.timestamp dataInfo))
      have hone : (receiveOne dataInfo s m).handed = s.handed ++ (m.msg, MsgType.Received) ::
          (passedAll m.requests s.m_filters).1.map (fun p => (p, MsgType.Sent)) := by
        refine hhanded.trans ?_
        show (s.handed ++ [(m.msg, MsgType.Received)]) ++ _ = _
        rw [List.append_assoc]
        rfl
      have hrest : (receiveOne dataInfo s m).m_filters = (passedAll m.requests s.m_filters).2 :=
        hfilters
      rw [List.foldl_cons, ih, hone, hrest, decodedAll, List.append_assoc]

/-! ### One event -/

/-- What one event records. -/
structure StepRecord (s : MsgMgr φ α σ) (ev : Event) (F : Footprint) : Prop where
  touched : F.touched = ev.ptrs
  clocks : F.clocks = ev.clocks
  stored : F.stored.Perm F.numbered
  announced : ev.Reports → F.announced.Perm F.numbered
  silent : ¬ ev.Reports → F.announced = []
  entering : s.Enabled → ∀ e ∈ s.entering ev, e ∈ F.handed
  ordered : s.NoReplies ev → F.stored = F.numbered ∧ F.announced.Sublist F.numbered
  answersFirst : ev.AnswersFirst → ev.Reports → F.announced = F.stored
  disordered : ¬ s.NoReplies ev → ¬ (F.stored.map (s.step ev).seqNumber).Pairwise (· < ·)

/-- An event that changes nothing. -/
theorem stepRecord_idle {s : MsgMgr φ α σ} {ev : Event} (hn : s.NoReplies ev)
    (he : s.Enabled → s.entering ev = []) :
    StepRecord s ev { touched := ev.ptrs, clocks := ev.clocks } :=
  ⟨rfl, rfl, .refl _, fun _ => .refl _, fun _ => rfl, fun h e hm => by simp [he h] at hm,
    fun _ => ⟨rfl, .slnil⟩, fun _ _ => rfl, fun h => absurd hn h⟩

/-- The guard of `socketDataReceived`. -/
theorem enabled_iff (s : MsgMgr φ α σ) :
    s.Enabled ↔ ¬ (!s.m_socket || !s.m_recvEnabled || s.m_protocol.isNone) = true := by
  unfold Enabled
  cases s.m_socket <;> cases s.m_recvEnabled <;> cases s.m_protocol <;> simp

/-- What a chunk records, when messages are received from it. -/
theorem stepRecord_received {s : MsgMgr φ α σ} {dataInfo : ToolsDataInfo}
    {reads : List (List RecvMsg)} {F : Footprint} (hen : s.Enabled)
    (hF : ReceivedLoop dataInfo (s.received dataInfo reads)
      (s.step (.socketDataReceived (some dataInfo) reads)) F)
    (hhanded : F.handed = s.entering (.socketDataReceived (some dataInfo) reads)) :
    StepRecord s (.socketDataReceived (some dataInfo) reads)
      { F with
        stored := F.stored ++ (s.received dataInfo reads).map RecvMsg.msg
        touched := (Event.socketDataReceived (some dataInfo) reads).ptrs
        clocks := (Event.socketDataReceived (some dataInfo) reads).clocks } := by
  refine ⟨rfl, rfl, hF.stored, fun _ => hF.announced, fun hsilent => absurd trivial hsilent,
    ?_, ?_, ?_, ?_⟩
  · intro _ x hx
    rw [← hhanded] at hx
    exact hx
  · intro hno
    obtain ⟨h1, h2, h3⟩ := hF.ordered (hno hen)
    simp [h1, h2, h3]
  · intro hfirst _
    refine hF.first fun m hm => hfirst m ?_
    exact ((List.take_sublist _ _).flatten).tail.subset hm
  · intro hyes
    obtain ⟨p, hp, m, hm, hlt⟩ := hF.disordered fun hall => hyes fun _ => hall
    rw [List.map_append, List.pairwise_append]
    rintro ⟨-, -, hcross⟩
    have hle := hcross _ (List.mem_map_of_mem hp) _
      (List.mem_map_of_mem (List.mem_map_of_mem hm))
    omega

theorem socketDataReceived_effect (s : MsgMgr φ α σ) (dataInfo : Option ToolsDataInfo)
    (reads : List (List RecvMsg)) (h : (Event.socketDataReceived dataInfo reads).ptrs.Nodup) :
    ∃ F, Effect s (s.socketDataReceived dataInfo reads) F ∧
      StepRecord s (.socketDataReceived dataInfo reads) F := by
  cases dataInfo with
  | none => exact ⟨_, Effect.refl s _ _, stepRecord_idle trivial fun _ => rfl⟩
  | some dataInfo =>
      have hsub : (s.received dataInfo reads).Sublist reads.flatten :=
        (List.take_sublist _ _).flatten
      by_cases hen : s.Enabled
      · have hdis := (enabled_iff s).mp hen
        set s₀ : MsgMgr φ α σ :=
          { s with m_filters := (ToolsFilter.recvChain s.m_filters dataInfo).1 } with hs₀
        -- the state of the filters is no part of the store
        have hlift : ∀ {s' : MsgMgr φ α σ} {F : Footprint}, Effect s₀ s' F → Effect s s' F :=
          fun he => { he with }
        by_cases hrd : (s.received dataInfo reads).isEmpty = true
        · have hnil : s.received dataInfo reads = [] := List.isEmpty_iff.mp hrd
          have e : s.socketDataReceived (some dataInfo) reads = s₀ := by
            simp only [socketDataReceived, hdis, if_false, hrd, if_true, hs₀, Bool.false_eq_true]
          rw [e]
          exact ⟨_, hlift (Effect.refl s₀ _ _), stepRecord_idle (by simp [NoReplies, hnil])
            fun _ => by simp [entering, hnil, decodedAll]⟩
        · obtain ⟨F, he, hF⟩ := receiveAll_effect dataInfo (s.received dataInfo reads) s₀
            ((hsub.flatMap _).nodup h)
          have e : s.socketDataReceived (some dataInfo) reads =
              s₀.receiveAll dataInfo (s.received dataInfo reads) := by
            simp only [socketDataReceived, hdis, if_false, hrd, hs₀, Bool.false_eq_true]
          have hloop : ReceivedLoop dataInfo (s.received dataInfo reads)
              (s.step (.socketDataReceived (some dataInfo) reads)) F := by
            show ReceivedLoop _ _ (s.socketDataReceived (some dataInfo) reads) F
            rw [e]
            exact hF
          have hhanded : F.handed = s.entering (.socketDataReceived (some dataInfo) reads) :=
            List.append_cancel_left (he.handed.symm.trans (receiveLoop_handed dataInfo _ s₀))
          rw [e]
          refine ⟨_, (hlift he).weaken _ _ ?_ ?_, stepRecord_received hen hloop hhanded⟩
          · rw [show F.touched = _ from hF.touched]
            exact (hsub.flatMap _).subset
          · rw [show F.clocks = _ from hF.clocks]
            exact (hsub.flatMap _).subset
      · have hdis := not_not.mp (mt (enabled_iff s).mpr hen)
        simp only [socketDataReceived, hdis, if_true]
        exact ⟨_, Effect.refl s _ _, stepRecord_idle (fun he => absurd he hen)
          fun he => absurd he hen⟩

theorem step_effect (s : MsgMgr φ α σ) (ev : Event) (h : ev.ptrs.Nodup) :
    ∃ F, Effect s (s.step ev) F ∧ StepRecord s ev F := by
  match ev, h with
  | .socketDataReceived dataInfo reads, h => exact s.socketDataReceived_effect dataInfo reads h
  | .sendMsgs msgs, h =>
      by_cases hdis : (msgs.isEmpty || !s.m_socket || s.m_protocol.isNone) = true
      · have e : s.step (.sendMsgs msgs) = s := by simp only [step, sendMsgs, hdis, if_true]
        rw [e]
        refine ⟨_, Effect.refl s _ _, stepRecord_idle trivial fun hen => ?_⟩
        have hempty : msgs = [] := by
          rw [hen.1, Option.isNone_eq_false_iff.mpr hen.2.2] at hdis
          simpa using hdis
        simp [entering, hempty, passedAll]
      · have e : s.step (.sendMsgs msgs) = sendLoop msgs s := by
          simp only [step, sendMsgs, hdis, if_false, Bool.false_eq_true]
        obtain ⟨sent, handed, he, -, -⟩ := sendLoop_effect msgs s h
        have hhanded : handed = s.entering (.sendMsgs msgs) :=
          List.append_cancel_left (he.handed.symm.trans (sendLoop_handed msgs s).1)
        rw [e]
        refine ⟨_, he, rfl, rfl, .refl _, fun _ => .refl _, fun hsilent => absurd trivial hsilent,
          ?_, fun _ => ⟨rfl, .refl _⟩, fun _ _ => rfl, fun hn => absurd trivial hn⟩
        intro _ x hx
        rw [← hhanded] at hx
        exact hx
  | .addMsgs msgs reportAdded, h =>
      obtain ⟨F, he, hF⟩ := addMsgs_effect reportAdded msgs s h
      refine ⟨F, he, hF.touched, hF.clocks, by rw [hF.stored], ?_, ?_, ?_, ?_, ?_,
        fun hn => absurd trivial hn⟩
      · intro hrep
        have hr : reportAdded = true := hrep
        rw [hF.announced, if_pos hr]
      · intro hsilent
        have hr : ¬ reportAdded = true := hsilent
        rw [hF.announced, if_neg hr]
      · intro _ x hx
        obtain ⟨p, hp, rfl⟩ := List.mem_map.mp hx
        obtain ⟨hp, hvalid⟩ := List.mem_filter.mp hp
        obtain ⟨m, hm, hmp⟩ := List.mem_filterMap.mp hp
        exact hF.added m hm p hmp (by simpa using hvalid)
      · intro _
        refine ⟨hF.stored, ?_⟩
        rw [hF.announced]
        split_ifs
        · exact .refl _
        · exact List.nil_sublist _
      · intro _ hrep
        have hr : reportAdded = true := hrep
        rw [hF.announced, hF.stored, if_pos hr]

/-! ### A sample manager -/

/-- Everything is set up, nothing has happened yet. -/
def sampleMgr : MsgMgr Unit UInt8 Unit where
  objs _ := { body := .prot () 1 }
  m_recvEnabled := true
  m_socket := true
  m_protocol := some { name := [], m_frame := syncFrame }

/-- Two messages arrive in one chunk; the protocol answers the second one. -/
def replyEvent : Event :=
  .socketDataReceived (some { m_timestamp := 5000000, m_data := [syncByte, 1, syncByte, 1] })
    [[{ msg := 1, requests := [], now := 5000000 },
      { msg := 2, requests := [.mk (some 3) (some { m_data := [syncByte, 1] }) [] 6000000],
        now := 5000000 }]]

theorem Effect.enabled {s s' : MsgMgr φ α σ} {F : Footprint} (h : Effect s s' F)
    (hs : s.Enabled) : s'.Enabled :=
  ⟨h.socket.trans hs.1, h.recvEnabled.trans hs.2.1, by rw [h.protocol]; exact hs.2.2⟩

/-! ### Nothing is lost or duplicated -/

/-- What a run records. -/
structure RunRecord (s : MsgMgr φ α σ) (evs : List Event) (F : Footprint) : Prop where
  touched : F.touched = evs.flatMap Event.ptrs
  clocks : F.clocks = evs.flatMap Event.clocks
  stored : F.stored.Perm F.numbered
  /-- What enters is announced by the event that brings it in, if it is announced at all. -/
  entering : s.Enabled → ∀ n ev, evs[n]? = some ev →
    ∀ e ∈ (s.run (evs.take n)).entering ev, e ∈ F.handed ∧
      (ev.Reports → F.announced.count e.1 = 1) ∧ (¬ ev.Reports → F.announced.count e.1 = 0)

theorem run_effect (evs : List Event) (s : MsgMgr φ α σ) (h : (evs.flatMap Event.ptrs).Nodup) :
    ∃ F, Effect s (s.run evs) F ∧ RunRecord s evs F := by
  induction evs generalizing s with
  | nil => exact ⟨_, Effect.refl s [] [], rfl, rfl, .refl _, by simp⟩
  | cons ev evs ih =>
      rw [List.flatMap_cons] at h
      obtain ⟨h₁, h₂, hd⟩ := List.nodup_append'.mp h
      obtain ⟨F, he₁, hF⟩ := s.step_effect ev h₁
      obtain ⟨G, he₂, hG⟩ := ih (s.step ev) h₂
      have hd' : F.touched.Disjoint G.touched := by rw [hF.touched, hG.touched]; exact hd
      refine ⟨_, he₁.trans he₂ hd', ?_, ?_, hF.stored.append hG.stored, ?_⟩
      · simp [Footprint.append_def, hF.touched, hG.touched]
      · simp [Footprint.append_def, hF.clocks, hG.clocks]
      · intro hen n e hn x hx
        simp only [Footprint.append_def, List.count_append]
        cases n with
        | zero =>
            -- brought in by the first event, and not announced later
            obtain rfl : ev = e := by simpa using hn
            have hxF := hF.entering hen x hx
            have hnumbered : x.1 ∈ F.numbered := he₁.perm.mem_iff.mp (List.mem_map_of_mem hxF)
            have hlater : G.announced.count x.1 = 0 := List.count_eq_zero.mpr fun hx' =>
              hd' (he₁.mem_handed hxF) (he₂.announced_sub x.1 hx')
            refine ⟨List.mem_append_left _ hxF, fun hrep => ?_, fun hsilent => ?_⟩
            · rw [(hF.announced hrep).count_eq,
                List.count_eq_one_of_mem he₁.numbered_nodup hnumbered, hlater]
            · rw [hF.silent hsilent, hlater]
              rfl
        | succ n =>
            obtain ⟨hxG, hrep, hsilent⟩ := hG.entering (he₁.enabled hen) n e (by simpa using hn) x hx
            have hearlier : F.announced.count x.1 = 0 := List.count_eq_zero.mpr fun hx' =>
              hd' (he₁.announced_sub x.1 hx') (he₂.mem_handed hxG)
            rw [hearlier, Nat.zero_add]
            exact ⟨List.mem_append_right _ hxG, hrep, hsilent⟩

/-- **No message is lost or duplicated.**  In a run with distinct message objects and a clock
that is not zero, every message that enters the manager, from outside or from inside a report of
the protocol, is stored once and has the type it was handed over with and a timestamp.  It is
announced once, or never if it was passed to `addMsgs` with `reportAdded` unset. -/
theorem run_records (s : MsgMgr φ α σ) (hen : s.Enabled) (hall : s.m_allMsgs = [])
    (hadded : s.added = []) (evs : List Event) (hnd : (evs.flatMap Event.ptrs).Nodup)
    (hclock : ∀ c ∈ evs.flatMap Event.clocks, milliseconds c ≠ 0) :
    let s' := s.run evs
    ∀ n ev, evs[n]? = some ev → ∀ e ∈ (s.run (evs.take n)).entering ev,
      s'.m_allMsgs.count e.1 = 1 ∧
        (ev.Reports → (s'.added.map Prod.fst).count e.1 = 1) ∧
        (¬ ev.Reports → (s'.added.map Prod.fst).count e.1 = 0) ∧
        (s'.objs e.1).type = some e.2 ∧ (s'.objs e.1).getTimestamp ≠ 0 := by
  obtain ⟨F, he, hF⟩ := run_effect evs s hnd
  have ha : (s.run evs).m_allMsgs = F.stored := by rw [he.all, hall, List.nil_append]
  have hn : (s.run evs).added.map Prod.fst = F.announced := by
    rw [he.added, hadded, List.nil_append, List.map_map]
    exact List.map_id _
  intro s' n ev hev e hmem
  obtain ⟨heF, hrep, hsilent⟩ := hF.entering hen n ev hev e hmem
  have hp : e.1 ∈ F.numbered := he.perm.mem_iff.mp (List.mem_map_of_mem heF)
  refine ⟨?_, ?_, ?_, he.typed e heF, he.timed (hF.clocks ▸ hclock) e heF⟩
  · rw [ha, hF.stored.count_eq]
    exact List.count_eq_one_of_mem he.numbered_nodup hp
  · rw [hn]
    exact hrep
  · rw [hn]
    exact hsilent

/-- Message 4 is sent, 5 from inside `messageSentReport()` for it and 6 from inside the one for 5. -/
def nestedEvent : Event :=
  .sendMsgs [.mk (some 4) (some { m_data := [syncByte, 1] })
    [.mk (some 5) (some { m_data := [syncByte, 1] }) [.mk (some 6) none [] 7000000] 7000000] 7000000]

theorem run_records_sample :
    let s' := sampleMgr.run [replyEvent, nestedEvent]
    sampleMgr.entering replyEvent = [(1, .Received), (2, .Received), (3, .Sent)] ∧
      ∀ p ∈ [4, 5, 6], s'.m_allMsgs.count p = 1 ∧ (s'.added.map Prod.fst).count p = 1 ∧
        (s'.objs p).type = some .Sent ∧ (s'.objs p).getTimestamp ≠ 0 := by
  intro s'
  refine ⟨by decide, fun p hp => ?_⟩
  have hentering : (p, MsgType.Sent) ∈ (sampleMgr.run [replyEvent]).entering nestedEvent := by
    have heq : (sampleMgr.run [replyEvent]).entering nestedEvent =
        [4, 5, 6].map fun p => (p, MsgType.Sent) := by decide
    rw [heq]
    exact List.mem_map_of_mem hp
  obtain ⟨hstored, hannounced, -, htype, htime⟩ := run_records sampleMgr ⟨rfl, rfl, rfl⟩ rfl rfl
    [replyEvent, nestedEvent] (by decide) (by decide) 1 nestedEvent rfl _ hentering
  exact ⟨hstored, hannounced trivial, htype, htime⟩

/-- A received message that is loaded without being announced. -/
theorem silent_not_announced :
    let s : MsgMgr Unit UInt8 Unit :=
      { sampleMgr with objs := fun _ => { body := .prot () 1, type := some .Received } }
    let ev := Event.addMsgs [(some 1, 5000000)] false
    s.entering ev = [(1, .Received)] ∧ (s.step ev).m_allMsgs = [1] ∧
      ((s.step ev).added.map Prod.fst).count 1 = 0 := by
  decide

/-! ### The order of the store -/

/-- Everything stored was brought in by earlier events and has a number already given out, and no
two have the same number. -/
structure Known (earlier : List MsgPtr) (s : MsgMgr φ α σ) : Prop where
  mem : ∀ p ∈ s.m_allMsgs, p ∈ earlier
  lt : ∀ p ∈ s.m_allMsgs, s.seqNumber p < s.m_nextMsgNum
  nodup : (s.m_allMsgs.map s.seqNumber).Nodup

/-- Numbers of messages that an effect numbered. -/
theorem Effect.seqNumber_getElem {s s' : MsgMgr φ α σ} {F : Footprint} (h : Effect s s' F)
    {i : ℕ} (hi : i < F.numbered.length) :
    s'.seqNumber F.numbered[i] = s.m_nextMsgNum + i := by
  rw [seqNumber, h.num i _ (List.getElem?_eq_getElem hi)]
  rfl

theorem Effect.seqNumber_bounds {s s' : MsgMgr φ α σ} {F : Footprint} (h : Effect s s' F)
    {p : MsgPtr} (hp : p ∈ F.numbered) :
    s.m_nextMsgNum ≤ s'.seqNumber p ∧ s'.seqNumber p < s'.m_nextMsgNum := by
  obtain ⟨i, hi, rfl⟩ := List.mem_iff_getElem.mp hp
  rw [h.seqNumber_getElem hi, h.next]
  omega

/-- Messages numbered one after the other are in the order of their numbers. -/
theorem Effect.numbered_pairwise {s s' : MsgMgr φ α σ} {F : Footprint} (h : Effect s s' F) :
    (F.numbered.map s'.seqNumber).Pairwise (· < ·) := by
  rw [List.pairwise_map, List.pairwise_iff_getElem]
  intro i j hi hj hij
  rw [h.seqNumber_getElem hi, h.seqNumber_getElem hj]
  omega

theorem known_step {earlier : List MsgPtr} {s : MsgMgr φ α σ} {ev : Event} {F : Footprint}
    (hk : Known earlier s) (he : Effect s (s.step ev) F) (hF : StepRecord s ev F)
    (hd : earlier.Disjoint ev.ptrs) : Known (earlier ++ ev.ptrs) (s.step ev) := by
  have hold : ∀ p ∈ s.m_allMsgs, (s.step ev).seqNumber p = s.seqNumber p := by
    intro p hp
    rw [seqNumber, he.frame p fun hF' => hd (hk.mem p hp) (hF.touched ▸ hF')]
    rfl
  have hnext : s.m_nextMsgNum ≤ (s.step ev).m_nextMsgNum := by
    rw [he.next]
    exact Nat.le_add_right _ _
  constructor
  · intro p hp
    rw [he.all] at hp
    rcases List.mem_append.mp hp with hp | hp
    · exact List.mem_append_left _ (hk.mem p hp)
    · exact List.mem_append_right _ (hF.touched ▸ he.stored_sub p hp)
  · intro p hp
    rw [he.all] at hp
    rcases List.mem_append.mp hp with hp | hp
    · rw [hold p hp]
      exact (hk.lt p hp).trans_le hnext
    · exact (he.seqNumber_bounds (hF.stored.mem_iff.mp hp)).2
  · rw [he.all, List.map_append, List.nodup_append', List.map_congr_left hold]
    refine ⟨hk.nodup, (hF.stored.map _).nodup_iff.mpr ?_, ?_⟩
    · exact he.numbered_pairwise.imp fun h => h.ne
    · rintro a ha hb
      obtain ⟨p, hp, rfl⟩ := List.mem_map.mp ha
      obtain ⟨q, hq, heq⟩ := List.mem_map.mp hb
      have hlt := hk.lt p hp
      have hle := (he.seqNumber_bounds (hF.stored.mem_iff.mp hq)).1
      omega

/-- An event without replies keeps the order. -/
theorem ordered_step {earlier : List MsgPtr} {s : MsgMgr φ α σ} {ev : Event} {F : Footprint}
    (hk : Known earlier s) (ho : s.Ordered) (he : Effect s (s.step ev) F)
    (hF : StepRecord s ev F) (hd : earlier.Disjoint ev.ptrs) (hno : s.NoReplies ev) :
    (s.step ev).Ordered := by
  obtain ⟨hst, hann⟩ := hF.ordered hno
  have hold : s.m_allMsgs.map (s.step ev).seqNumber = s.m_allMsgs.map s.seqNumber := by
    apply List.map_congr_left
    intro p hp
    rw [seqNumber, he.frame p fun hF' => hd (hk.mem p hp) (hF.touched ▸ hF')]
    rfl
  constructor
  · rw [he.all, List.map_append, List.pairwise_append, hold, hst]
    refine ⟨ho.1, he.numbered_pairwise, ?_⟩
    rintro a ha b hb
    obtain ⟨p, hp, rfl⟩ := List.mem_map.mp ha
    obtain ⟨q, hq, rfl⟩ := List.mem_map.mp hb
    exact (hk.lt p hp).trans_le (he.seqNumber_bounds hq).1
  · rw [he.added, he.all, List.map_append, List.map_map, hst]
    refine ho.2.append ?_
    simpa [Function.comp_def] using hann

/-- An event with a reply destroys the order. -/
theorem not_ordered_step {s : MsgMgr φ α σ} {ev : Event} {F : Footprint}
    (he : Effect s (s.step ev) F) (hF : StepRecord s ev F) (hyes : ¬ s.NoReplies ev) :
    ¬ (s.step ev).Ordered := by
  rintro ⟨ho, -⟩
  rw [he.all, List.map_append, List.pairwise_append] at ho
  exact hF.disordered hyes ho.2.1

/-- **The order of the store.**  In a run with distinct message objects the store is ordered in
every state reached if and only if nothing is sent from inside `messageReceivedReport()`. -/
theorem store_ordered_iff (s : MsgMgr φ α σ) (hall : s.m_allMsgs = []) (hadded : s.added = [])
    (evs : List Event) (hnd : (evs.flatMap Event.ptrs).Nodup) :
    (∀ n, (s.run (evs.take n)).Ordered) ↔
      ∀ n ev, evs[n]? = some ev → (s.run (evs.take n)).NoReplies ev := by
  -- generalised to runs that go on from an ordered state
  suffices hgen : ∀ (evs : List Event) (s : MsgMgr φ α σ) (earlier : List MsgPtr),
      Known earlier s → s.Ordered → (earlier ++ evs.flatMap Event.ptrs).Nodup →
      ((∀ n, (s.run (evs.take n)).Ordered) ↔
        ∀ n ev, evs[n]? = some ev → (s.run (evs.take n)).NoReplies ev) by
    refine hgen evs s [] ⟨by simp [hall], by simp [hall], by simp [hall]⟩
      ⟨by simp [hall], by simp [hadded]⟩ ?_
    simpa using hnd
  intro evs
  induction evs with
  | nil => intro s earlier _ ho _; simpa [run] using ho
  | cons ev evs ih =>
      intro s earlier hk ho hnd
      rw [List.flatMap_cons, ← List.append_assoc] at hnd
      have hnd₁ := (List.nodup_append'.mp hnd).1
      obtain ⟨-, hev, hd⟩ := List.nodup_append'.mp hnd₁
      obtain ⟨F, he, hF⟩ := s.step_effect ev hev
      constructor
      · intro h n e hn
        have hno : s.NoReplies ev := by
          by_contra hyes
          exact not_ordered_step he hF hyes (h 1)
        cases n with
        | zero =>
            obtain rfl : ev = e := by simpa using hn
            exact hno
        | succ n =>
            have hih := ih (s.step ev) (earlier ++ ev.ptrs) (known_step hk he hF hd)
              (ordered_step hk ho he hF hd hno) hnd
            exact hih.mp (fun k => h (k + 1)) n e (by simpa using hn)
      · intro h n
        have hno : s.NoReplies ev := h 0 ev rfl
        cases n with
        | zero => exact ho
        | succ n =>
            have hih := ih (s.step ev) (earlier ++ ev.ptrs) (known_step hk he hF hd)
              (ordered_step hk ho he hF hd hno) hnd
            exact hih.mpr (fun k e hk => h (k + 1) e (by simpa using hk)) n

theorem store_ordered_iff_sample :
    (∀ n, (sampleMgr.run ([replyEvent].take n)).Ordered) ↔
      ∀ n ev, [replyEvent][n]? = some ev → (sampleMgr.run ([replyEvent].take n)).NoReplies ev :=
  store_ordered_iff sampleMgr rfl rfl [replyEvent] (by decide)

/-- The reply has the number 3, stands first in the store and was announced second. -/
theorem reply_not_ordered :
    (sampleMgr.run [replyEvent]).m_allMsgs = [3, 1, 2] ∧
      (sampleMgr.run [replyEvent]).m_allMsgs.map (sampleMgr.run [replyEvent]).seqNumber =
        [3, 1, 2] ∧
      (sampleMgr.run [replyEvent]).added.map Prod.fst = [1, 3, 2] ∧
      ¬ (sampleMgr.run [replyEvent]).Ordered := by
  decide

/-! ### Deleting -/

theorem deleteLoop_sublist (num : MsgPtr → ℕ) (msgs stored : List MsgPtr) :
    (deleteLoop num msgs stored).Sublist stored := by
  fun_induction deleteLoop num msgs stored with
  | case1 stored => exact .refl _
  | case2 => exact .refl _
  | case3 l ls p stored h ih => exact ih.cons _
  | case4 l ls p stored h ih => exact ih.cons_cons _

/-- **The one-pass merge** of `deleteMsgs` removes a list of stored messages if and only if the
list is in the order of the store. -/
theorem deleteLoop_eq_filter_iff (num : MsgPtr → ℕ) (msgs stored : List MsgPtr)
    (hnum : (stored.map num).Nodup) (hsub : msgs ⊆ stored) (hnd : msgs.Nodup) :
    deleteLoop num msgs stored = stored.filter (fun p => !msgs.contains p) ↔
      msgs.Sublist stored := by
  fun_induction deleteLoop num msgs stored with
  | case1 stored => simp
  | case2 l ls => simp at hsub
  | case3 l ls p stored h ih =>
      have hpl : l = p := by
        rcases List.mem_cons.mp (hsub List.mem_cons_self) with e | hl
        · exact e
        · rw [List.map_cons, List.nodup_cons] at hnum
          exact absurd (List.mem_map.mpr ⟨l, hl, h.symm⟩) hnum.1
      subst hpl
      obtain ⟨hnot, hnd'⟩ := List.nodup_cons.mp hnd
      rw [List.map_cons, List.nodup_cons] at hnum
      have hstored : l ∉ stored := fun hl => hnum.1 (List.mem_map_of_mem hl)
      have hsub' : ls ⊆ stored := by
        intro q hq
        rcases List.mem_cons.mp (hsub (List.mem_cons_of_mem _ hq)) with rfl | hq'
        · exact absurd hq hnot
        · exact hq'
      have hfilter : (l :: stored).filter (fun p => !(l :: ls).contains p) =
          stored.filter fun p => !ls.contains p := by
        rw [List.filter_cons_of_neg (by simp)]
        apply List.filter_congr
        intro q hq
        have : q ≠ l := fun e => hstored (e ▸ hq)
        simp [this]
      rw [hfilter, ih hnum.2 hsub' hnd', List.cons_sublist_cons]
  | case4 l ls p stored h ih =>
      have hpl : l ≠ p := fun e => h (by rw [e])
      rw [List.map_cons, List.nodup_cons] at hnum
      have hstored : p ∉ stored := fun hp => hnum.1 (List.mem_map_of_mem hp)
      have hcons : (l :: ls).Sublist (p :: stored) ↔ (l :: ls).Sublist stored := by
        constructor
        · intro hs
          cases hs with
          | cons _ hs => exact hs
          | cons_cons _ _ => exact absurd rfl hpl
        · exact fun hs => hs.cons _
      rw [hcons]
      by_cases hp : p ∈ ls
      · -- the message is passed over and stays
        constructor
        · intro e
          have hmem : p ∈ (p :: stored).filter fun p => !(l :: ls).contains p :=
            e ▸ List.mem_cons_self
          simp [hp] at hmem
        · exact fun hs => absurd (hs.subset (List.mem_cons_of_mem _ hp)) hstored
      · have hsub' : (l :: ls) ⊆ stored := by
          intro q hq
          rcases List.mem_cons.mp (hsub hq) with rfl | hq'
          · rcases List.mem_cons.mp hq with rfl | hq
            · exact absurd rfl hpl
            · exact absurd hq hp
          · exact hq'
        rw [List.filter_cons_of_pos (by simp [hp, Ne.symm hpl]), List.cons_inj_right]
        exact ih hnum.2 hsub' hnd

/-! ### The iterators of `deleteMsgs` -/

/-- `erase(first, last)` with the positions of the two iterators; `none` outside the list. -/
def eraseRange (l : List MsgPtr) (first last : ℕ) : Option (List MsgPtr) :=
  if first ≤ last ∧ last ≤ l.length then some (l.take first ++ l.drop last) else none

/-- The loop of `deleteMsgs` with the rest of the list and the positions of `prevStoredIter` and
`storedIter`; `none` when an erase fails or the rounds do not do. -/
def eraseRuns (num : MsgPtr → ℕ) : ℕ → List MsgPtr → List MsgPtr → ℕ → ℕ → Option (List MsgPtr)
  | 0, _, _, _, _ => none
  | _ + 1, [], all, prev, stored => eraseRange all prev stored
  | rounds + 1, l :: ls, all, prev, stored =>
      match all[stored]? with
      | none => eraseRange all prev stored
      | some p =>
          if num p = num l then eraseRuns num rounds ls all prev (stored + 1)
          else
            -- the erased messages stand before `storedIter`, which is at `prev` afterwards
            match eraseRange all prev stored with
            | none => none
            | some all => eraseRuns num rounds (l :: ls) all (prev + 1) (prev + 1)

theorem eraseRange_run (kept run rest : List MsgPtr) :
    eraseRange (kept ++ run ++ rest) kept.length (kept.length + run.length) =
      some (kept ++ rest) := by
  have hle : kept.length + run.length ≤ (kept ++ run ++ rest).length := by
    simp only [List.length_append]
    omega
  have htake : (kept ++ run ++ rest).take kept.length = kept := by
    rw [List.append_assoc, List.take_left]
  have hdrop : (kept ++ run ++ rest).drop (kept.length + run.length) = rest := by
    rw [← List.length_append, List.drop_left]
  rw [eraseRange, if_pos ⟨Nat.le_add_right _ _, hle⟩, htake, hdrop]

/-- The loop behind the messages that stay and the run that matches so far. -/
theorem eraseRuns_from (num : MsgPtr → ℕ) (rounds : ℕ) (ls kept run rest : List MsgPtr)
    (h : rest.length < rounds) :
    eraseRuns num rounds ls (kept ++ run ++ rest) kept.length (kept.length + run.length) =
      some (kept ++ deleteLoop num ls rest) := by
  induction rounds generalizing ls kept run rest with
  | zero => omega
  | succ rounds ih =>
      cases ls with
      | nil => rw [eraseRuns, eraseRange_run, deleteLoop]
      | cons l ls =>
          have hat : (kept ++ run ++ rest)[kept.length + run.length]? = rest[0]? := by
            rw [← List.length_append, List.getElem?_append_right le_rfl, Nat.sub_self]
          rw [eraseRuns, hat]
          cases rest with
          | nil => exact eraseRange_run kept run []
          | cons p rest =>
              have hlen : rest.length < rounds := by simpa using h
              simp only [List.getElem?_cons_zero, deleteLoop]
              split_ifs with hp
              · -- the run grows
                have hnext := ih ls kept (run ++ [p]) rest hlen
                rw [List.length_append, ← Nat.add_assoc] at hnext
                simpa using hnext
              · -- the run is erased, and `p` stays
                have hnext := ih (l :: ls) (kept ++ [p]) [] rest hlen
                rw [eraseRange_run]
                simpa using hnext

/-- **The iterators do what the merge does**, and no range is outside the list. -/
theorem eraseRuns_eq (num : MsgPtr → ℕ) (msgs stored : List MsgPtr) :
    eraseRuns num (stored.length + 1) msgs stored 0 0 = some (deleteLoop num msgs stored) :=
  eraseRuns_from num _ msgs [] [] stored (Nat.lt_succ_self _)

/-- **`deleteMsgs` removes exactly the given messages** of an ordered store. -/
theorem deleteMsgs_exact (s : MsgMgr φ α σ)
    (hnum : (s.m_allMsgs.map s.seqNumber).Pairwise (· < ·)) {msgs : List MsgPtr}
    (hsub : msgs.Sublist s.m_allMsgs) :
    eraseRuns s.seqNumber (s.m_allMsgs.length + 1) msgs s.m_allMsgs 0 0 =
        some (s.deleteMsgs msgs).m_allMsgs ∧
      (s.deleteMsgs msgs).m_allMsgs = s.m_allMsgs.filter fun p => !msgs.contains p := by
  have hnd : (s.m_allMsgs.map s.seqNumber).Nodup := hnum.imp fun h => h.ne
  refine ⟨eraseRuns_eq _ _ _, ?_⟩
  exact (deleteLoop_eq_filter_iff s.seqNumber msgs s.m_allMsgs hnd hsub.subset
    (hsub.nodup hnd.of_map)).mpr hsub

/-- A store of five messages. -/
def sampleStore : MsgMgr Unit UInt8 Unit :=
  { sampleMgr with
    objs := fun p => { body := .prot () 1, num := some p }
    m_allMsgs := [1, 2, 3, 4, 5] }

/-- Every other one of them is deleted. -/
theorem deleteMsgs_exact_sample :
    eraseRuns sampleStore.seqNumber 6 [1, 3, 5] sampleStore.m_allMsgs 0 0 =
        some (sampleStore.deleteMsgs [1, 3, 5]).m_allMsgs ∧
      (sampleStore.deleteMsgs [1, 3, 5]).m_allMsgs = [2, 4] :=
  deleteMsgs_exact sampleStore (by decide) (by decide)

/-- `deleteMsg` removes the message it is given. -/
theorem deleteMsg_eq_erase (s : MsgMgr φ α σ) {p : MsgPtr} (hp : p ∈ s.m_allMsgs)
    (hnum : (s.m_allMsgs.map s.seqNumber).Nodup) :
    (s.deleteMsg p).m_allMsgs = s.m_allMsgs.erase p := by
  show s.m_allMsgs.eraseP (fun q => s.seqNumber q == s.seqNumber p) = _
  generalize s.m_allMsgs = l at hp hnum
  induction l with
  | nil => rfl
  | cons q l ih =>
      by_cases hq : q = p
      · simp [hq]
      · have hpl : p ∈ l := (List.mem_cons.mp hp).resolve_left (Ne.symm hq)
        rw [List.map_cons, List.nodup_cons] at hnum
        have hne : s.seqNumber q ≠ s.seqNumber p := fun e =>
          hnum.1 (List.mem_map.mpr ⟨p, hpl, e.symm⟩)
        rw [List.eraseP_cons_of_neg (by simpa using hne), ih hpl hnum.2,
          List.erase_cons_tail (by simpa using hq)]

end MsgMgr

end CcToolsQt
