import CcToolsQt.GuiStore
import CcToolsQt.MsgLog

/-! # What the received list takes for garbage

`canAddToRecvList` takes a message without id text for garbage, and asserts that garbage is only
received.  `recognised_iff` says which protocols spell their ids so that this is right, and
`run_asserted_iff` which runs keep the assertions. -/

namespace CcToolsQt

namespace ToolsProtocol
variable {φ α : Type} (P : ToolsProtocol φ α)

/-- The invalid messages `readDataImpl` and the two `createInvalidMessage` make. -/
inductive Garbage : ToolsMessage φ α → Prop where
  | read (s : FrameState) (dataInfo : ToolsDataInfo) (final : Bool) {m : ToolsMessage φ α} :
      m ∈ (P.m_frame.readDataImpl s dataInfo final).2 → m.body = .invalid → Garbage m
  | empty : Garbage (P.setNameToMessageProperties ToolsFrame.createInvalidMessage)
  | created (data : DataSeq) : Garbage (P.createInvalidMessage data)

theorem Garbage.body {P : ToolsProtocol φ α} {m : ToolsMessage φ α} (h : P.Garbage m) :
    m.body = .invalid := by
  cases h with
  | read _ _ _ _ hb => exact hb
  | empty => rfl
  | created => rfl

/-- The id text tells the messages of the protocol from garbage. -/
structure TellsGarbage : Prop where
  invalid : P.classes.idAsStringImpl 0 = []
  regular : ∀ f, P.classes.idAsStringImpl (P.classes.numericIdImpl f) ≠ []

theorem TellsGarbage.idAsString_eq_nil {P : ToolsProtocol φ α} (h : P.TellsGarbage)
    (m : ToolsMessage φ α) : m.idAsString P.classes = [] ↔ m.body = .invalid := by
  unfold ToolsMessage.idAsString ToolsMessage.numericId
  cases m.body with
  | prot f c => simpa using h.regular f
  | invalid => simpa using h.invalid

end ToolsProtocol

namespace GuiAppMgr
variable {φ α σ : Type}

/-! ### The view -/

/-- The application with another mode and filter. -/
def withView (g : GuiAppMgr φ α σ) (mode : UInt32) (filteredMessages : List QString) :
    GuiAppMgr φ α σ :=
  { g with m_recvListMode := mode, m_filteredMessages := filteredMessages }

/-- The mode with and without garbage, as the button sets it. -/
def withGarbage (mode : UInt32) (checked : Bool) : UInt32 :=
  if checked then mode ||| RecvListMode.ShowGarbage else mode &&& ~~~RecvListMode.ShowGarbage

/-- Garbage that is received is shown with `ShowGarbage` only, all other messages are shown
whatever `ShowGarbage` says. -/
structure Recognised (P : ToolsProtocol φ α) (g : GuiAppMgr φ α σ) : Prop where
  garbage : ∀ m, P.Garbage m → ∀ num timestamp mode filteredMessages,
    (g.withView mode filteredMessages).canAddToRecvList
        { m with num := some num, type := some MsgType.Received, timestamp := some timestamp } =
      (g.withView mode filteredMessages).recvListShowsGarbage
  regular : ∀ m : ToolsMessage φ α, m.body ≠ .invalid → ∀ mode filteredMessages,
    (g.withView (withGarbage mode true) filteredMessages).canAddToRecvList m =
      (g.withView (withGarbage mode false) filteredMessages).canAddToRecvList m

/-- The button changes the one bit of the mode. -/
theorem withGarbage_and (mode mask : UInt32) (checked : Bool)
    (h : mask &&& RecvListMode.ShowGarbage = 0) (h' : ~~~RecvListMode.ShowGarbage &&& mask = mask) :
    withGarbage mode checked &&& mask = mode &&& mask := by
  cases checked with
  | true =>
      show (mode ||| RecvListMode.ShowGarbage) &&& mask = _
      have hdistrib : (mode ||| RecvListMode.ShowGarbage) &&& mask =
          mode &&& mask ||| RecvListMode.ShowGarbage &&& mask := by
        apply UInt32.toBitVec_inj.mp
        simp only [UInt32.toBitVec_or, UInt32.toBitVec_and, BitVec.and_or_distrib_right]
      rw [hdistrib, UInt32.and_comm RecvListMode.ShowGarbage, h, UInt32.or_zero]
  | false =>
      show mode &&& ~~~RecvListMode.ShowGarbage &&& mask = _
      rw [UInt32.and_assoc, h']

/-- With an id text, what is shown depends on the three other bits. -/
theorem canAddToRecvList_congr {g g' : GuiAppMgr φ α σ} {m : ToolsMessage φ α}
    (hid : m.idAsString g.classes ≠ []) (hc : g'.classes = g.classes)
    (hf : g'.m_filteredMessages = g.m_filteredMessages)
    (hr : g'.recvListShowsReceived = g.recvListShowsReceived)
    (hs : g'.recvListShowsSent = g.recvListShowsSent)
    (ha : g'.recvListApplyFilter = g.recvListApplyFilter) :
    g'.canAddToRecvList m = g.canAddToRecvList m := by
  unfold canAddToRecvList messageDesc
  rw [hc, hf, hr, hs, ha]
  simp [hid]

theorem canAddToRecvList_withGarbage (g : GuiAppMgr φ α σ) {m : ToolsMessage φ α}
    (hid : m.idAsString g.classes ≠ []) (mode : UInt32) (filteredMessages : List QString)
    (checked : Bool) :
    (g.withView (withGarbage mode checked) filteredMessages).canAddToRecvList m =
      (g.withView mode filteredMessages).canAddToRecvList m := by
  apply canAddToRecvList_congr
  · exact hid
  · rfl
  · rfl
  · apply decide_eq_decide.mpr
    show withGarbage mode checked &&& _ ≠ 0 ↔ mode &&& _ ≠ 0
    rw [withGarbage_and _ _ _ (by decide) (by decide)]
  · apply decide_eq_decide.mpr
    show withGarbage mode checked &&& _ ≠ 0 ↔ mode &&& _ ≠ 0
    rw [withGarbage_and _ _ _ (by decide) (by decide)]
  · apply decide_eq_decide.mpr
    show withGarbage mode checked &&& _ ≠ 0 ↔ mode &&& _ ≠ 0
    rw [withGarbage_and _ _ _ (by decide) (by decide)]

/-- Garbage has no id text, if it is shown with the garbage. -/
theorem Recognised.invalidId {P : ToolsProtocol φ α} {g : GuiAppMgr φ α σ} (h : Recognised P g)
    (m : ToolsMessage φ α) (hm : m.body = .invalid) : m.idAsString g.classes = [] := by
  -- shown with `ShowGarbage` alone, so not for being a received message
  have hshown := h.garbage _ (.created []) 0 0 RecvListMode.ShowGarbage []
  by_contra hid
  have hid' : ∀ m' : ToolsMessage φ α, m'.body = .invalid →
      ¬ (m'.idAsString g.classes).isEmpty = true := by
    intro m' hm' he
    apply hid
    simpa [ToolsMessage.idAsString, ToolsMessage.numericId, hm, hm'] using he
  have hshow : (g.withView RecvListMode.ShowGarbage []).recvListShowsGarbage = true :=
    decide_eq_true (by show RecvListMode.ShowGarbage &&& RecvListMode.ShowGarbage ≠ 0; decide)
  have hrecv : (g.withView RecvListMode.ShowGarbage []).recvListShowsReceived = false :=
    decide_eq_false (by
      show ¬ RecvListMode.ShowGarbage &&& RecvListMode.ShowReceived ≠ 0
      decide)
  have hsent : MsgType.Received ≠ MsgType.Sent := by decide
  rw [hshow] at hshown
  unfold canAddToRecvList at hshown
  rw [hrecv, if_neg] at hshown
  · simp [ToolsMessage.getType, hsent] at hshown
  · exact hid' _ rfl

/-- A message of the protocol has an id text, if the garbage option is not its option. -/
theorem Recognised.id_ne_nil {P : ToolsProtocol φ α} {g : GuiAppMgr φ α σ} (h : Recognised P g)
    (m : ToolsMessage φ α) (hm : m.body ≠ .invalid) : m.idAsString g.classes ≠ [] := by
  intro hid
  have hsame := h.regular m hm 0 []
  unfold canAddToRecvList at hsame
  simp only [withView, hid, List.isEmpty_nil, if_true, recvListShowsGarbage] at hsame
  have hon : withGarbage 0 true &&& RecvListMode.ShowGarbage ≠ 0 := by decide
  have hoff : ¬ withGarbage 0 false &&& RecvListMode.ShowGarbage ≠ 0 := by decide
  exact hoff ((decide_eq_decide.mp hsame).mp hon)

/-- **The view tells garbage** if and only if the id texts do. -/
theorem recognised_iff (P : ToolsProtocol φ α) (g : GuiAppMgr φ α σ)
    (hP : g.classes = P.classes) : Recognised P g ↔ P.TellsGarbage := by
  constructor
  · intro h
    refine ⟨?_, fun f hf => ?_⟩
    · rw [← hP]
      simpa [ToolsMessage.idAsString, ToolsMessage.numericId] using
        h.invalidId { body := .invalid } rfl
    · apply h.id_ne_nil { body := .prot f (P.classes.defaultMsg f) } (by simp)
      rw [hP]
      exact hf
  · intro h
    refine ⟨fun m hm num timestamp mode filteredMessages => ?_,
      fun m hm mode filteredMessages => ?_⟩
    · have hid : m.idAsString g.classes = [] := by
        rw [hP]
        exact (h.idAsString_eq_nil m).mpr hm.body
      unfold canAddToRecvList
      rw [if_pos]
      exact List.isEmpty_iff.mpr hid
    · have hid : m.idAsString g.classes ≠ [] := by
        rw [hP]
        exact fun e => hm ((h.idAsString_eq_nil m).mp e)
      rw [canAddToRecvList_withGarbage g hid, canAddToRecvList_withGarbage g hid]

/-! ### The assertions -/

/-- The assertions of `msgAdded` and `canAddToRecvList` about a message. -/
def Asserted (C : MsgClasses φ α) (m : ToolsMessage φ α) : Prop :=
  (m.getType = MsgType.Received ∨ m.getType = MsgType.Sent) ∧
    (m.idAsString C = [] → m.getType = MsgType.Received)

/-- The events that call `refreshRecvList`. -/
def refreshes (g : GuiAppMgr φ α σ) : GuiEvent → Bool
  | .recvShowRecvToggled _ => true
  | .recvShowSentToggled _ => true
  | .recvShowGarbageToggled _ => true
  | .recvApplyFilterToggled _ => true
  | .setFilteredMessages filteredMessages =>
      decide (filteredMessages ≠ g.m_filteredMessages) && g.recvListApplyFilter
  | _ => false

/-- The messages `canAddToRecvList` is asked about while an event is handled, as they are then:
those that are announced, and all that are stored when the list is refreshed. -/
def asked (g : GuiAppMgr φ α σ) (ev : GuiEvent) : List (ToolsMessage φ α) :=
  ((g.step ev).msgMgr.added.drop g.msgMgr.added.length).map Prod.snd ++
    if g.refreshes ev then g.msgMgr.m_allMsgs.map g.msgMgr.objs else []

/-- No assertion fails in a run. -/
def NoFailedAssertion (g : GuiAppMgr φ α σ) (evs : List GuiEvent) : Prop :=
  ∀ n ev, evs[n]? = some ev → ∀ m ∈ (g.run (evs.take n)).asked ev, Asserted g.classes m

/-- What a message may be handed over as: received or sent, and without id text received only. -/
def Fitting (C : MsgClasses φ α) (objs : MsgPtr → ToolsMessage φ α) (e : MsgPtr × MsgType) : Prop :=
  (e.2 = MsgType.Received ∨ e.2 = MsgType.Sent) ∧
    ((objs e.1).idAsString C = [] → e.2 = MsgType.Received)

/-- Everything stored was handed over with the type it has. -/
def StoredAsGiven (g : GuiAppMgr φ α σ) : Prop :=
  ∀ p ∈ g.msgMgr.m_allMsgs, (p, (g.msgMgr.objs p).getType) ∈ g.msgMgr.handed

theorem asserted_iff_fitting (C : MsgClasses φ α) (objs : MsgPtr → ToolsMessage φ α)
    {p : MsgPtr} {m : ToolsMessage φ α} (h : m.form = (objs p).form) :
    Asserted C m ↔ Fitting C objs (p, m.getType) := by
  unfold Asserted Fitting
  rw [ToolsMessage.idAsString_of_form C h]

/-- What an event does to the messages handed over and stored, and what it asks about. -/
structure Given (g : GuiAppMgr φ α σ) (ev : GuiEvent) (given : List (MsgPtr × MsgType)) : Prop where
  classes : (g.step ev).classes = g.classes
  handed : (g.step ev).msgMgr.handed = g.msgMgr.handed ++ given
  form : ∀ p, ((g.step ev).msgMgr.objs p).form = (g.msgMgr.objs p).form
  stored : g.StoredAsGiven → (g.step ev).StoredAsGiven
  /-- Each message asked about was handed over with the type it has. -/
  origin : g.StoredAsGiven → ∀ m ∈ g.asked ev, ∃ p, m.form = (g.msgMgr.objs p).form ∧
    (p, m.getType) ∈ g.msgMgr.handed ++ given
  announced : ∀ e ∈ given, e.2 ≠ MsgType.Received →
    ∃ m ∈ g.asked ev, m.form = (g.msgMgr.objs e.1).form ∧ m.getType = e.2

/-- An event that hands messages over does not refresh the list. -/
theorem handing_refreshes (g : GuiAppMgr φ α σ) {ev : GuiEvent} {ev' : Event}
    (h : handing ev = some ev') : g.refreshes ev = false := by
  cases ev <;> simp only [handing, reduceCtorEq] at h <;> rfl

theorem step_given (g : GuiAppMgr φ α σ) (ev : GuiEvent) : ∃ given, Given g ev given := by
  have hstep := step_storeKept g ev
  cases hev : handing ev with
  | none =>
      simp only [hev] at hstep
      have hasked : g.asked ev =
          if g.refreshes ev then g.msgMgr.m_allMsgs.map g.msgMgr.objs else [] := by
        rw [asked, hstep.added, List.drop_length]
        rfl
      refine ⟨[], hstep.classes, by rw [hstep.handed, List.append_nil],
        fun p => by rw [hstep.objs], fun hst p hp => ?_, fun hst m hm => ?_, by simp⟩
      · rw [hstep.objs, hstep.handed]
        exact hst p (hstep.allMsgs hp)
      · rw [hasked] at hm
        split_ifs at hm
        · obtain ⟨p, hp, rfl⟩ := List.mem_map.mp hm
          exact ⟨p, rfl, by simpa using hst p hp⟩
        · simp at hm
  | some ev' =>
      simp only [hev] at hstep
      obtain ⟨g₁, hg₁, hcls, hmgr⟩ := hstep
      obtain ⟨given, told, hr⟩ := g₁.msgMgr.step_records ev' (handing_reports hev)
      have hform : ∀ p, ((g.step ev).msgMgr.objs p).form = (g.msgMgr.objs p).form := by
        intro p
        rw [hmgr, hr.form p, hg₁.objs]
      have hhanded : (g.step ev).msgMgr.handed = g.msgMgr.handed ++ given := by
        rw [hmgr, hr.handed, hg₁.handed]
      have hasked : g.asked ev = told.map Prod.snd := by
        rw [asked, handing_refreshes g hev, hmgr, hr.added, hg₁.added, List.drop_left]
        simp
      refine ⟨given, hcls, hhanded, hform, fun hst p hp => ?_, fun _ m hm => ?_,
        fun e he hne => ?_⟩
      · rw [hhanded]
        rw [hmgr] at hp ⊢
        rcases hr.stored p hp with hp | hp
        · rcases hr.typed p with ht | ht
          · rw [ht, hg₁.objs]
            exact List.mem_append_left _ (hst p (hg₁.allMsgs hp))
          · exact List.mem_append_right _ ht
        · obtain ⟨e, he, rfl⟩ := List.mem_map.mp hp
          exact List.mem_append_right _ (hr.last e he)
      · rw [hasked] at hm
        obtain ⟨a, ha, rfl⟩ := List.mem_map.mp hm
        obtain ⟨hf, ht⟩ := hr.origin a ha
        exact ⟨a.1, by rw [hf, hg₁.objs], List.mem_append_right _ ht⟩
      · obtain ⟨a, ha, hp, ht⟩ := hr.announced e he hne
        refine ⟨a.2, by rw [hasked]; exact List.mem_map_of_mem ha, ?_, ht⟩
        rw [(hr.origin a ha).1, hg₁.objs, hp]

/-- **One event** keeps the assertions if and only if what it hands over fits. -/
theorem asked_asserted_iff {g : GuiAppMgr φ α σ} {ev : GuiEvent}
    {given : List (MsgPtr × MsgType)} (hst : g.StoredAsGiven) (h : Given g ev given)
    (hfit : ∀ e ∈ g.msgMgr.handed, Fitting g.classes g.msgMgr.objs e) :
    (∀ m ∈ g.asked ev, Asserted g.classes m) ↔
      ∀ e ∈ given, Fitting g.classes g.msgMgr.objs e := by
  constructor
  · intro hall e he
    by_cases hne : e.2 = MsgType.Received
    · exact ⟨.inl hne, fun _ => hne⟩
    · obtain ⟨m, hm, hf, ht⟩ := h.announced e he hne
      have hfe := (asserted_iff_fitting g.classes g.msgMgr.objs hf).mp (hall m hm)
      rw [ht] at hfe
      exact hfe
  · intro hall m hm
    obtain ⟨p, hf, hp⟩ := h.origin hst m hm
    rw [asserted_iff_fitting g.classes g.msgMgr.objs hf]
    rcases List.mem_append.mp hp with hp | hp
    · exact hfit _ hp
    · exact hall _ hp

theorem fitting_congr {C : MsgClasses φ α} {objs objs' : MsgPtr → ToolsMessage φ α}
    (h : ∀ p, (objs' p).form = (objs p).form) (e : MsgPtr × MsgType) :
    Fitting C objs' e ↔ Fitting C objs e := by
  unfold Fitting
  rw [ToolsMessage.idAsString_of_form C (h e.1)]

/-- What was handed over stays in the record. -/
theorem handed_prefix (evs : List GuiEvent) (g : GuiAppMgr φ α σ) :
    g.msgMgr.handed <+: (g.run evs).msgMgr.handed := by
  induction evs generalizing g with
  | nil => exact List.prefix_refl _
  | cons ev evs ih =>
      obtain ⟨given, h⟩ := step_given g ev
      exact (h.handed ▸ List.prefix_append _ _).trans (ih (g.step ev))

theorem noFailedAssertion_cons (g : GuiAppMgr φ α σ) (ev : GuiEvent) (evs : List GuiEvent)
    (hc : (g.step ev).classes = g.classes) :
    NoFailedAssertion g (ev :: evs) ↔
      (∀ m ∈ g.asked ev, Asserted g.classes m) ∧ NoFailedAssertion (g.step ev) evs := by
  constructor
  · intro h
    refine ⟨h 0 ev rfl, fun n e he => ?_⟩
    rw [hc]
    exact h (n + 1) e he
  · rintro ⟨h₀, h⟩ n e he
    cases n with
    | zero =>
        obtain rfl : ev = e := by simpa using he
        exact h₀
    | succ n =>
        rw [← hc]
        exact h n e he

/-- **A run keeps the assertions** if and only if everything handed over in it fits. -/
theorem run_asserted_iff (evs : List GuiEvent) {g : GuiAppMgr φ α σ} (hst : g.StoredAsGiven)
    (hfit : ∀ e ∈ g.msgMgr.handed, Fitting g.classes g.msgMgr.objs e) :
    NoFailedAssertion g evs ↔
      ∀ e ∈ (g.run evs).msgMgr.handed, Fitting g.classes g.msgMgr.objs e := by
  induction evs generalizing g with
  | nil => exact ⟨fun _ => hfit, fun _ n ev hev => by simp at hev⟩
  | cons ev evs ih =>
      obtain ⟨given, h⟩ := step_given g ev
      rw [noFailedAssertion_cons g ev evs h.classes, asked_asserted_iff hst h hfit]
      have hcongr : ∀ e, Fitting (g.step ev).classes (g.step ev).msgMgr.objs e ↔
          Fitting g.classes g.msgMgr.objs e := by
        intro e
        rw [h.classes]
        exact fitting_congr h.form e
      have hrun := handed_prefix evs (g.step ev)
      constructor
      · rintro ⟨hgiven, hno⟩ e he
        refine (hcongr e).mp ((ih (h.stored hst) fun e he => ?_).mp hno e he)
        rw [h.handed] at he
        exact (hcongr e).mpr ((List.mem_append.mp he).elim (hfit e) (hgiven e))
      · intro hall
        have hgiven : ∀ e ∈ (g.step ev).msgMgr.handed, Fitting g.classes g.msgMgr.objs e :=
          fun e he => hall e (hrun.subset he)
        refine ⟨fun e he => hgiven e (h.handed ▸ List.mem_append_right _ he), ?_⟩
        exact (ih (h.stored hst) fun e he => (hcongr e).mpr (hgiven e he)).mpr
          fun e he => (hcongr e).mpr (hall e he)

/-- **Garbage is recognised as garbage, and no assertion about it fails in a run**, if and only if
the id texts tell it from the messages of the protocol, everything handed over in the run is
received or sent, and no invalid message is sent. -/
theorem garbage_recognised_iff (P : ToolsProtocol φ α) (g : GuiAppMgr φ α σ)
    (hP : g.classes = P.classes) (hall : g.msgMgr.m_allMsgs = []) (hhanded : g.msgMgr.handed = [])
    (evs : List GuiEvent) :
    Recognised P g ∧ NoFailedAssertion g evs ↔
      P.TellsGarbage ∧ ∀ e ∈ (g.run evs).msgMgr.handed,
        (e.2 = MsgType.Received ∨ e.2 = MsgType.Sent) ∧
          ((g.msgMgr.objs e.1).body = .invalid → e.2 = MsgType.Received) := by
  rw [recognised_iff P g hP,
    run_asserted_iff evs (fun p hp => by simp [hall] at hp) (fun e he => by simp [hhanded] at he)]
  refine and_congr_right fun htells => forall₂_congr fun e _ => ?_
  unfold Fitting
  rw [hP, htells.idAsString_eq_nil]

/-! ### Two sample protocols -/

theorem markedFrame_length : [()].length < 2 ^ 32 := by decide

/-- The message of `syncFrame` with the id 1; the id 0 has no text. -/
def markedFrame : ToolsFrame Unit UInt8 where
  classes :=
    { syncFrame.classes with
      numericIdImpl := fun _ => 1
      inLongLong := fun _ => rfl
      idAsStringImpl := fun id => if id = 0 then [] else QString.number10 id }
  m_frame :=
    { syncFrame.m_frame with
      read := fun buf =>
        match readSync buf with
        | .success _ msgIdx payload n => .success 1 msgIdx payload n
        | r => r
      consumed_le := by
        intro buf msgId msgIdx msg n h
        split at h
        · rename_i hread
          cases h
          exact syncFrame.m_frame.consumed_le hread
        · exact syncFrame.m_frame.consumed_le h }
  m_factory := { m_defaultMsgs := [()], sorted := by simp, length_lt := markedFrame_length }
  toJson := fun _ => []

def markedProtocol : ToolsProtocol Unit UInt8 where
  name := []
  m_frame := markedFrame

theorem markedProtocol_tellsGarbage : markedProtocol.TellsGarbage where
  invalid := rfl
  regular f := by
    cases f
    decide

/-- Object 1 is raw data, all others are messages of the protocol. -/
def markedApp : GuiAppMgr Unit UInt8 Unit where
  classes := markedFrame.classes
  msgMgr :=
    { objs := fun p =>
        if p = 1 then { body := .invalid, rawDataMsg := some [7] } else { body := .prot () 5 }
      m_recvEnabled := true
      m_socket := true
      m_protocol := some markedProtocol }
  pluginMgr := { isProtocolType := fun _ => true, loadPlugin := fun _ => none }

/-- Garbage and a message arrive, a message is sent, and two buttons are pressed. -/
def markedEvents : List GuiEvent :=
  [.socketDataReceived (some { m_timestamp := 5000000, m_data := [7, syncByte, 5] })
      [[{ msg := 1, requests := [], now := 5000000 },
        { msg := 2, requests := [], now := 5000000 }]],
    .recvShowGarbageToggled false,
    .sendMsgs [.mk (some 3) (some { m_data := [syncByte, 5] }) [] 6000000],
    .recvShowSentToggled false]

theorem garbage_recognised_iff_marked :
    Recognised markedProtocol markedApp ∧ NoFailedAssertion markedApp markedEvents :=
  (garbage_recognised_iff markedProtocol markedApp rfl rfl rfl markedEvents).mpr
    ⟨markedProtocol_tellsGarbage, by decide⟩

/-- With the id text `0` for garbage it is not told apart; without one, sending raw data fails an
assertion. -/
theorem garbage_not_recognised :
    ¬ Recognised { name := [], m_frame := pairFrame } sampleApp ∧
      ¬ NoFailedAssertion markedApp [.sendMsgs [.mk (some 1) none [] 6000000]] := by
  constructor
  · rw [recognised_iff _ _ rfl]
    intro h
    exact absurd h.invalid (by decide)
  · intro h
    have hm := h 0 _ rfl
      ((markedApp.step (.sendMsgs [.mk (some 1) none [] 6000000])).msgMgr.objs 1)
      List.mem_cons_self
    exact absurd (hm.2 rfl) (by decide)

end GuiAppMgr

end CcToolsQt
