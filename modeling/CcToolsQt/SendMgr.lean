import CcToolsQt.Lib.DeltaQueue
import CcToolsQt.Protocol

/-! # The send scheduler

`ToolsMsgSendMgrImpl` keeps the messages still to be sent in a list whose delays are relative to
the message before, sends the ones without delay, puts the ones that repeat back into the list
and arms a timer for the delay of the head.  The timer is ideal: it fires after the interval it
was armed with.

* `IsCopy` is what the copies handed to the send callback share with the message they stand for.
* `Rel` ties the scheduler to the machine of `DeltaQueue` on entries that remember the position
  of their message; `sendPendingAndWait_rel` and `timeout_rel` are the steps of the simulation.
* `run_realises_schedule` is the schedule in absolute times. -/

namespace CcToolsQt

variable {φ α : Type}

/-! ### Copies of a message -/

/-- The object inside a copy: the same bytes for an invalid message (or one without id text,
which is cloned as one), the same class with a refreshed content for every other. -/
def SameObject (P : ToolsProtocol φ α) (m m' : ToolsMessage φ α) : Prop :=
  ((m.body = .invalid ∨ m.idAsString P.classes = []) ∧ m'.body = .invalid ∧
      m'.rawData = m.rawData) ∨
    ∃ f c k, m.idAsString P.classes ≠ [] ∧ m.body = .prot f c ∧
      m'.body = .prot f ((fun c => (P.classes.doRefresh f c).1)^[k] c)

/-- What a copy of a message shares with it: all but its place in the schedule. -/
structure IsCopy (P : ToolsProtocol φ α) (m m' : ToolsMessage φ α) : Prop where
  object : SameObject P m m'
  delayUnits : m'.delayUnits = m.delayUnits
  repeatDuration : m'.repeatDuration = m.repeatDuration
  repeatDurationUnits : m'.repeatDurationUnits = m.repeatDurationUnits
  comment : m'.comment = m.comment
  extraInfo : m'.getExtraInfo = m.getExtraInfo

namespace IsCopy
variable {P : ToolsProtocol φ α} {m m' : ToolsMessage φ α}

theorem of_clone (m : ToolsMessage φ α) : IsCopy P m (P.cloneMessage m) where
  object := by
    by_cases hi : m.body = .invalid ∨ m.idAsString P.classes = []
    · have hb := P.clonedBody_invalid hi
      exact Or.inl ⟨hi, by rw [P.cloneMessage_body, hb], P.cloneMessage_rawData m hb⟩
    · rw [not_or] at hi
      cases hm : m.body with
      | invalid => exact absurd hm hi.1
      | prot f c =>
          exact Or.inr ⟨f, c, 1, hi.2, hm,
            by rw [P.cloneMessage_body, P.clonedBody_prot hi.2 hm]; rfl⟩
  delayUnits := by simp
  repeatDuration := by simp
  repeatDurationUnits := by simp
  comment := by simp
  extraInfo := by simp

/-- The id text of a copied regular message is that of the original. -/
theorem idAsString_prot {f : φ} {c c' : α} (hm : m.body = .prot f c) (hm' : m'.body = .prot f c') :
    m'.idAsString P.classes = m.idAsString P.classes := by
  simp only [ToolsMessage.idAsString, ToolsMessage.numericId, hm, hm']

theorem clone (h : IsCopy P m m') : IsCopy P m (P.cloneMessage m') where
  object := by
    rcases h.object with ⟨hi, hb', hr⟩ | ⟨f, c, k, hid, hm, hm'⟩
    · have hb := P.clonedBody_invalid (Or.inl hb')
      exact Or.inl ⟨hi, by rw [P.cloneMessage_body, hb], (P.cloneMessage_rawData m' hb).trans hr⟩
    · have hid' : m'.idAsString P.classes ≠ [] := by rwa [idAsString_prot hm hm']
      refine Or.inr ⟨f, c, k + 1, hid, hm, ?_⟩
      rw [Function.iterate_succ_apply', P.cloneMessage_body, P.clonedBody_prot hid' hm']
  delayUnits := by simp [h.delayUnits]
  repeatDuration := by simp [h.repeatDuration]
  repeatDurationUnits := by simp [h.repeatDurationUnits]
  comment := by simp [h.comment]
  extraInfo := by simp [h.extraInfo]

/-- Setting the extra info again and updating the message. -/
theorem update (h : IsCopy P m m') {e : QVariantMap} (he : e = m.getExtraInfo) :
    IsCopy P m (P.updateMessage { m' with extraInfo := some e }).1 where
  object := by
    rcases h.object with ⟨hi, hb', hr⟩ | ⟨f, c, k, hid, hm, hm'⟩
    · refine Or.inl ⟨hi, ?_, ?_⟩
      · rw [P.updateMessage_body]
        exact P.updatedBody_invalid hb'
      · rw [ToolsMessage.rawData, P.updateMessage_rawDataMsg]
        have hinv : ({ m' with extraInfo := some e } : ToolsMessage φ α).body = .invalid := hb'
        exact (P.updatedRawData_invalid hinv).trans hr
    · have hid' : ToolsMessage.idAsString P.classes { m' with extraInfo := some e } ≠ [] := by
        have hbody : ({ m' with extraInfo := some e } : ToolsMessage φ α).body = m'.body := rfl
        rwa [idAsString_prot hm (hbody.trans hm')]
      refine Or.inr ⟨f, c, k + 1, hid, hm, ?_⟩
      rw [Function.iterate_succ_apply', P.updateMessage_body, P.updatedBody_prot hid' hm']
  delayUnits := by simp [h.delayUnits]
  repeatDuration := by simp [h.repeatDuration]
  repeatDurationUnits := by simp [h.repeatDurationUnits]
  comment := by simp [h.comment]
  extraInfo := by simp [ToolsMessage.getExtraInfo, he]

/-- Delay and count are the place in the schedule. -/
theorem reschedule (h : IsCopy P m m') (d : Option UInt64) (c : Option UInt32) :
    IsCopy P m { m' with delay := d, repeatCount := c } :=
  ⟨h.object, h.delayUnits, h.repeatDuration, h.repeatDurationUnits, h.comment, h.extraInfo⟩

end IsCopy

/-! ### The scheduler -/

/-- `ToolsMsgSendMgrImpl`, with the time and the calls of its two callbacks. -/
structure SendMgr (φ α : Type) where
  m_msgsToSend : List (ToolsMessage φ α) := []
  /-- The interval the timer is armed with. -/
  m_timer : Option ℤ := none
  now : ℕ := 0
  batches : List (ℕ × List (ToolsMessage φ α)) := []
  completions : ℕ := 0

namespace SendMgr

/-- `static_cast<int>` of an `unsigned long long`. -/
def toInt (d : UInt64) : ℤ := (d.toNat : ℤ).bmod (2 ^ 32)

def INT_MAX : ℕ := 2 ^ 31 - 1

/-- The `reinsert` flag of `sendPendingAndWait`. -/
def needsReinsert (msg : ToolsMessage φ α) : Bool :=
  0 < msg.getRepeatDuration && (msg.getRepeatCount 1 == 0 || 1 < msg.getRepeatCount 1)

/-- The search for `reinsertIter`, the patch of the message found and the insertion. -/
def reinsert (newDelay : UInt64) (msg : ToolsMessage φ α) :
    List (ToolsMessage φ α) → List (ToolsMessage φ α)
  | [] => [{ msg with delay := some newDelay }]
  | m :: ms =>
      if newDelay < m.getDelay then
        { msg with delay := some newDelay } ::
          { m with delay := some (m.getDelay - newDelay) } :: ms
      else m :: reinsert (newDelay - m.getDelay) msg ms

/-- The clone that is sent in place of a message that is put back. -/
def sentClone (P : ToolsProtocol φ α) (msg : ToolsMessage φ α) : ToolsMessage φ α :=
  let clonedMsg := P.cloneMessage msg
  if msg.getExtraInfo.isEmpty then clonedMsg
  else (P.updateMessage { clonedMsg with extraInfo := some msg.getExtraInfo }).1

/-- The count of a message that is put back; 0 stands for ever. -/
def countDown (msg : ToolsMessage φ α) : ToolsMessage φ α :=
  if msg.getRepeatCount 1 ≠ 0 then
    { msg with repeatCount := some (msg.getRepeatCount 1 - 1) }
  else msg

/-- The loop over `nextMsgsToSend`: what is sent and what `m_msgsToSend` becomes. -/
def sendLoop (P : ToolsProtocol φ α) :
    List (ToolsMessage φ α) → List (ToolsMessage φ α) →
      List (ToolsMessage φ α) × List (ToolsMessage φ α)
  | [], q => ([], q)
  | m :: ms, q =>
      if needsReinsert m then
        let r := sendLoop P ms (reinsert m.getRepeatDuration (countDown m) q)
        (sentClone P m :: r.1, r.2)
      else
        let r := sendLoop P ms q
        (m :: r.1, r.2)

/-- The delay of the head becomes the interval of the timer. -/
def zeroHeadDelay : List (ToolsMessage φ α) → List (ToolsMessage φ α)
  | [] => []
  | m :: ms => { m with delay := some 0 } :: ms

/-- `sendPendingAndWait`. -/
def sendPendingAndWait (P : ToolsProtocol φ α) (s : SendMgr φ α) : SendMgr φ α :=
  let r := sendLoop P (s.m_msgsToSend.takeWhile fun m => m.getDelay == 0)
    (s.m_msgsToSend.dropWhile fun m => m.getDelay == 0)
  { m_msgsToSend := zeroHeadDelay r.2
    m_timer := r.2.head?.map fun m => toInt m.getDelay
    now := s.now
    batches := if r.1.isEmpty then s.batches else s.batches ++ [(s.now, r.1)]
    completions := if r.2.isEmpty then s.completions + 1 else s.completions }

/-- The clone `start` puts into the list. -/
def startClone (P : ToolsProtocol φ α) (m : ToolsMessage φ α) : ToolsMessage φ α :=
  let clonedMsg := P.cloneMessage m
  let clonedMsg := ToolsProtocol.copyCommonProperties m clonedMsg
  if m.getExtraInfo.isEmpty then clonedMsg
  else (P.updateMessage { clonedMsg with extraInfo := some m.getExtraInfo }).1

/-- `start` on an idle scheduler. -/
def start (P : ToolsProtocol φ α) (msgs : List (ToolsMessage φ α)) : SendMgr φ α :=
  sendPendingAndWait P { m_msgsToSend := msgs.map (startClone P) }

/-- The timer fires, if it is armed. -/
def timeout (P : ToolsProtocol φ α) (s : SendMgr φ α) : SendMgr φ α :=
  match s.m_timer with
  | none => s
  | some d => sendPendingAndWait P { s with now := s.now + d.toNat }

/-- `start` and `n` firings of the timer. -/
def run (P : ToolsProtocol φ α) (msgs : List (ToolsMessage φ α)) : ℕ → SendMgr φ α
  | 0 => start P msgs
  | n + 1 => timeout P (run P msgs n)

/-- The messages handed to the send callback, each with its time. -/
def sent (s : SendMgr φ α) : List (ℕ × ToolsMessage φ α) :=
  s.batches.flatMap fun b => b.2.map fun m => (b.1, m)

/-! ### The simulation -/

/-- What the schedule knows of a queued message: the position of the message it is a copy of,
its repeat duration and the count left. -/
structure Job where
  label : ℕ
  period : ℕ
  count : ℕ

/-- A job comes back as long as its count is 0 or more than 1. -/
def jobs : Repeater Job where
  next j :=
    if 0 < j.period ∧ (j.count = 0 ∨ 1 < j.count) then
      some (j.period, { j with count := j.count - 1 })
    else none
  period_pos := by
    intro j p j' h
    split_ifs at h with hp
    cases h
    exact hp.1

section Simulation
variable (P : ToolsProtocol φ α) (msgs : List (ToolsMessage φ α))

/-- `m` is a copy of the message the job is about. -/
def CopyOf (m : ToolsMessage φ α) (j : Job) : Prop :=
  ∃ orig, msgs[j.label]? = some orig ∧ IsCopy P orig m

/-- A message and its job, the delay aside. -/
structure Carries (m : ToolsMessage φ α) (j : Job) : Prop where
  period : m.getRepeatDuration.toNat = j.period
  count : (m.getRepeatCount 1).toNat = j.count
  copy : CopyOf P msgs m j

/-- A message in the list and an entry of the delta queue. -/
structure Queued (m : ToolsMessage φ α) (e : ℕ × Job) : Prop where
  carries : Carries P msgs m e.2
  delay : m.getDelay.toNat = e.1

variable {P msgs} {m : ToolsMessage φ α} {j : Job}

theorem Carries.needsReinsert_iff (h : Carries P msgs m j) :
    needsReinsert m = true ↔ 0 < j.period ∧ (j.count = 0 ∨ 1 < j.count) := by
  have hc : m.getRepeatCount 1 = 0 ↔ j.count = 0 := by
    rw [← h.count, ← UInt32.toNat_inj]
    rfl
  simp only [needsReinsert, Bool.and_eq_true, Bool.or_eq_true, decide_eq_true_eq, beq_iff_eq,
    UInt64.lt_iff_toNat_lt, UInt32.lt_iff_toNat_lt, hc, h.period, h.count]
  rfl

theorem Carries.setDelay (h : Carries P msgs m j) (d : Option UInt64) :
    Carries P msgs { m with delay := d } j where
  period := h.period
  count := h.count
  copy := by
    obtain ⟨orig, ho, hc⟩ := h.copy
    exact ⟨orig, ho, hc.reschedule d m.repeatCount⟩

theorem Carries.countDown (h : Carries P msgs m j) :
    Carries P msgs (SendMgr.countDown m) { j with count := j.count - 1 } := by
  unfold SendMgr.countDown
  split_ifs with h0
  · refine ⟨h.period, ?_, ?_⟩
    · have hle : (1 : UInt32) ≤ m.getRepeatCount 1 := by
        rw [UInt32.le_iff_toNat_le]
        have : (m.getRepeatCount 1).toNat ≠ 0 := fun e => h0 (UInt32.toNat_inj.mp e)
        exact Nat.one_le_iff_ne_zero.mpr this
      have hsub := UInt32.toNat_sub_of_le _ _ hle
      rw [h.count] at hsub
      exact hsub
    · obtain ⟨orig, ho, hc⟩ := h.copy
      exact ⟨orig, ho, hc.reschedule m.delay _⟩
  · have hz : j.count = 0 := by
      rw [← h.count, not_not.mp h0]
      rfl
    refine ⟨h.period, ?_, h.copy⟩
    simpa [hz] using h.count

/-- The walk of the source is an insertion into the delta queue. -/
theorem reinsert_queued (h : Carries P msgs m j) {q : List (ToolsMessage φ α)}
    {aq : List (ℕ × Job)} (hq : List.Forall₂ (Queued P msgs) q aq) (d : UInt64) :
    List.Forall₂ (Queued P msgs) (reinsert d m q) (DeltaQueue.insert d.toNat j aq) := by
  induction hq generalizing d with
  | nil => exact .cons ⟨h.setDelay _, rfl⟩ .nil
  | @cons x e q aq hx hq ih =>
      obtain ⟨e, k⟩ := e
      have hxd : x.getDelay.toNat = e := hx.delay
      simp only [reinsert, DeltaQueue.insert, UInt64.lt_iff_toNat_lt, hxd]
      split_ifs with hlt
      · have hsub : (x.getDelay - d).toNat = e - d.toNat := by
          rw [UInt64.toNat_sub_of_le _ _ (by rw [UInt64.le_iff_toNat_le]; omega), hxd]
        exact .cons ⟨h.setDelay _, rfl⟩ (.cons ⟨hx.carries.setDelay _, hsub⟩ hq)
      · have hsub : (d - x.getDelay).toNat = d.toNat - e := by
          rw [UInt64.toNat_sub_of_le _ _ (by rw [UInt64.le_iff_toNat_le]; omega), hxd]
        rw [← hsub]
        exact .cons hx (ih _)

theorem sentClone_copy (h : CopyOf P msgs m j) : CopyOf P msgs (sentClone P m) j := by
  obtain ⟨orig, ho, hc⟩ := h
  refine ⟨orig, ho, ?_⟩
  simp only [sentClone]
  split_ifs
  · exact hc.clone
  · exact hc.clone.update hc.extraInfo

/-- The loop sends a copy for every job and puts back the jobs that repeat. -/
theorem sendLoop_rel {ms : List (ToolsMessage φ α)} {js : List Job}
    (hms : List.Forall₂ (Carries P msgs) ms js) {q : List (ToolsMessage φ α)}
    {aq : List (ℕ × Job)} (hq : List.Forall₂ (Queued P msgs) q aq) :
    List.Forall₂ (CopyOf P msgs) (sendLoop P ms q).1 js ∧
      List.Forall₂ (Queued P msgs) (sendLoop P ms q).2
        (js.foldl (fun q x => jobs.requeue x q) aq) := by
  induction hms generalizing q aq with
  | nil => exact ⟨.nil, hq⟩
  | @cons m j ms js hm hms ih =>
      simp only [sendLoop, List.foldl_cons]
      by_cases hr : needsReinsert m = true
      · have hn : jobs.next j = some (j.period, { j with count := j.count - 1 }) :=
          if_pos (hm.needsReinsert_iff.mp hr)
        have hins := reinsert_queued hm.countDown hq m.getRepeatDuration
        rw [hm.period] at hins
        obtain ⟨h1, h2⟩ := ih hins
        simp only [hr, if_true, Repeater.requeue, hn]
        exact ⟨.cons (sentClone_copy hm.copy) h1, h2⟩
      · have hn : jobs.next j = none := if_neg fun hp => hr (hm.needsReinsert_iff.mpr hp)
        obtain ⟨h1, h2⟩ := ih hq
        simp only [hr, Bool.false_eq_true, if_false, Repeater.requeue, hn]
        exact ⟨.cons hm.copy h1, h2⟩

theorem forall₂_takeWhile {β γ : Type} {R : β → γ → Prop} {p : β → Bool} {p' : γ → Bool}
    (hp : ∀ b c, R b c → p b = p' c) {l : List β} {l' : List γ} (h : List.Forall₂ R l l') :
    List.Forall₂ R (l.takeWhile p) (l'.takeWhile p') ∧
      List.Forall₂ R (l.dropWhile p) (l'.dropWhile p') := by
  induction h with
  | nil => exact ⟨.nil, .nil⟩
  | @cons b c l l' hb hl ih =>
      simp only [List.takeWhile_cons, List.dropWhile_cons, ← hp b c hb]
      split_ifs
      · exact ⟨.cons hb ih.1, ih.2⟩
      · exact ⟨.nil, .cons hb hl⟩

variable (P msgs)

/-- What was sent, entry by entry, with the time of its batch. -/
def LogRel (e : ℕ × ToolsMessage φ α) (f : ℕ × Job) : Prop :=
  e.1 = f.1 ∧ CopyOf P msgs e.2 f.2

/-- A scheduler that waits for its timer and the machine in the same state. -/
structure Rel (s : SendMgr φ α) (a : Timeline Job) : Prop where
  now : s.now = a.now
  queue : List.Forall₂ (Queued P msgs) s.m_msgsToSend (DeltaQueue.zeroHead a.queue)
  timer : s.m_timer = a.queue.head?.map fun e => (e.1 : ℤ)
  sent : List.Forall₂ (LogRel P msgs) s.sent a.log
  batches : (s.batches.map Prod.fst).Pairwise (· < ·) ∧ ∀ t ∈ s.batches.map Prod.fst, t ≤ s.now
  completions : s.completions = if a.queue = [] then 1 else 0

variable {P msgs}

theorem toInt_le (d : UInt64) : toInt d ≤ INT_MAX := by
  unfold toInt INT_MAX
  have := Int.bmod_lt (x := (d.toNat : ℤ)) (m := 2 ^ 32) (by norm_num)
  omega

/-- The conversion keeps the values of an `int`, and no other. -/
theorem toInt_eq_iff {d : UInt64} : toInt d = d.toNat ↔ d.toNat ≤ INT_MAX := by
  refine ⟨fun h => ?_, fun h => ?_⟩
  · have hle := toInt_le d
    omega
  · unfold INT_MAX at h
    exact Int.bmod_eq_of_le (by omega) (by omega)

/-- Only the head of the list changes its delay. -/
theorem zeroHead_queued {q : List (ToolsMessage φ α)} {aq : List (ℕ × Job)}
    (h : List.Forall₂ (Queued P msgs) q aq) :
    List.Forall₂ (Queued P msgs) (zeroHeadDelay q) (DeltaQueue.zeroHead aq) := by
  cases h with
  | nil => exact .nil
  | cons hm hq => exact .cons ⟨hm.carries.setDelay _, rfl⟩ hq

/-- The loop of `sendPendingAndWait` over the messages that are due. -/
theorem sendLoop_fire {s : SendMgr φ α} {a : Timeline Job}
    (hq : List.Forall₂ (Queued P msgs) s.m_msgsToSend a.queue) :
    let r := sendLoop P (s.m_msgsToSend.takeWhile fun m => m.getDelay == 0)
      (s.m_msgsToSend.dropWhile fun m => m.getDelay == 0)
    List.Forall₂ (CopyOf P msgs) r.1 ((a.queue.takeWhile fun e => e.1 == 0).map Prod.snd) ∧
      List.Forall₂ (Queued P msgs) r.2 (jobs.fire a).queue := by
  have hdelay : ∀ (m : ToolsMessage φ α) (e : ℕ × Job), Queued P msgs m e →
      (m.getDelay == 0) = (e.1 == 0) := by
    intro m e h
    rw [Bool.eq_iff_iff, beq_iff_eq, beq_iff_eq, ← h.delay, ← UInt64.toNat_inj]
    rfl
  obtain ⟨htake, hdrop⟩ := forall₂_takeWhile hdelay hq
  have hready : List.Forall₂ (Carries P msgs) (s.m_msgsToSend.takeWhile fun m => m.getDelay == 0)
      ((a.queue.takeWhile fun e => e.1 == 0).map Prod.snd) :=
    List.forall₂_map_right_iff.mpr (htake.imp fun _ _ h => h.carries)
  exact sendLoop_rel hready hdrop

/-- **One firing**: `sendPendingAndWait` fires the machine, if the timer can wait for the head. -/
theorem sendPendingAndWait_rel {s : SendMgr φ α} {a : Timeline Job} (hnow : s.now = a.now)
    (hq : List.Forall₂ (Queued P msgs) s.m_msgsToSend a.queue)
    (hhead : ∀ e ∈ (jobs.fire a).queue.head?, e.1 ≤ INT_MAX)
    (hsent : List.Forall₂ (LogRel P msgs) s.sent a.log)
    (hsorted : (s.batches.map Prod.fst).Pairwise (· < ·))
    (hpast : ∀ t ∈ s.batches.map Prod.fst, t < s.now) (hcomp : s.completions = 0) :
    Rel P msgs (sendPendingAndWait P s) (jobs.fire a) := by
  obtain ⟨hout, hqueue⟩ := sendLoop_fire hq
  unfold sendPendingAndWait
  generalize sendLoop P (s.m_msgsToSend.takeWhile fun m => m.getDelay == 0)
    (s.m_msgsToSend.dropWhile fun m => m.getDelay == 0) = r at hout hqueue
  obtain ⟨out, q⟩ := r
  have hempty : q.isEmpty = true ↔ (jobs.fire a).queue = [] := by
    rw [List.isEmpty_iff, ← List.length_eq_zero_iff, hqueue.length_eq, List.length_eq_zero_iff]
  have hnew : List.Forall₂ (LogRel P msgs) (out.map fun m => (s.now, m))
      (((a.queue.takeWhile fun e => e.1 == 0).map Prod.snd).map fun x => (a.now, x)) :=
    List.forall₂_map_left_iff.mpr (List.forall₂_map_right_iff.mpr
      (hout.imp fun _ _ h => ⟨hnow, h⟩))
  refine ⟨hnow, zeroHead_queued hqueue, ?_, ?_, ?_, by simp only [hempty, hcomp]⟩
  · generalize (jobs.fire a).queue = aq at hqueue hhead
    cases hqueue with
    | nil => rfl
    | cons hm _ =>
        have hle := hhead _ rfl
        rw [← hm.delay] at hle
        simp only [List.head?_cons, Option.map_some, toInt_eq_iff.mpr hle, hm.delay]
  · -- the new batch is logged behind the old ones
    have e : (if out.isEmpty then s.batches else s.batches ++ [(s.now, out)]).flatMap
        (fun b => b.2.map fun m => (b.1, m)) = s.sent ++ out.map fun m => (s.now, m) := by
      split_ifs with h
      · simp [SendMgr.sent, List.isEmpty_iff.mp h]
      · simp [SendMgr.sent]
    rw [SendMgr.sent, e]
    exact List.rel_append hsent hnew
  · dsimp only
    split_ifs
    · exact ⟨hsorted, fun t ht => (hpast t ht).le⟩
    · simp only [List.map_append, List.map_cons, List.map_nil]
      refine ⟨List.pairwise_append.mpr ⟨hsorted, List.pairwise_singleton _ _, ?_⟩, ?_⟩
      · intro t ht u hu
        rw [List.mem_singleton.mp hu]
        exact hpast t ht
      · intro t ht
        rcases List.mem_append.mp ht with ht | ht
        · exact (hpast t ht).le
        · exact (List.mem_singleton.mp ht).le

/-- **One period of the timer**: the machine waits and fires. -/
theorem timeout_rel {s : SendMgr φ α} {a : Timeline Job} (h : Rel P msgs s a)
    (hpos : DeltaQueue.HeadPos a.queue)
    (hhead : ∀ e ∈ (jobs.fire (Repeater.wait a)).queue.head?, e.1 ≤ INT_MAX) :
    Rel P msgs (timeout P s) (jobs.fire (Repeater.wait a)) := by
  cases hq : a.queue with
  | nil =>
      -- nothing is queued: the timer is not armed and the machine stands still
      have ht : s.m_timer = none := by simp [h.timer, hq]
      have ha : jobs.fire (Repeater.wait a) = a := by
        cases a
        simp_all [Repeater.wait, Repeater.fire]
      rw [ha]
      simpa [timeout, ht] using h
  | cons e aq =>
      obtain ⟨d, x⟩ := e
      have hd : 0 < d := hpos (d, x) (by simp [hq])
      have ht : s.m_timer = some (d : ℤ) := by simp [h.timer, hq]
      have hw : Repeater.wait a = { a with now := a.now + d, queue := (0, x) :: aq } := by
        simp [Repeater.wait, hq]
      have hqueue := h.queue
      rw [hq] at hqueue
      rw [hw] at hhead ⊢
      simp only [timeout, ht, Int.toNat_natCast]
      refine sendPendingAndWait_rel ?_ hqueue hhead h.sent h.batches.1 ?_ ?_
      · rw [h.now]
      · intro t htm
        have := h.batches.2 t htm
        show t < s.now + d
        omega
      · simpa [hq] using h.completions

end Simulation

/-! ### The absolute schedule -/

/-- Which repeats there are: `k = 0` only without a repeat duration, else all below the count,
and all without end for the count 0. -/
def Occurs (repeatMs repeatCount k : ℕ) : Prop :=
  if repeatMs = 0 then k = 0 else repeatCount = 0 ∨ k < repeatCount

/-- The sum of the delays of the messages up to the `i`-th. -/
def dueTime (msgs : List (ToolsMessage φ α)) (i : ℕ) : ℕ :=
  ((msgs.take (i + 1)).map fun m => m.getDelay.toNat).sum

/-- `t` is a time at which the `i`-th message `m` is to be sent. -/
def Scheduled (msgs : List (ToolsMessage φ α)) (i : ℕ) (m : ToolsMessage φ α) (t : ℕ) : Prop :=
  ∃ k, Occurs m.getRepeatDuration.toNat (m.getRepeatCount 1).toNat k ∧
    t = dueTime msgs i + k * m.getRepeatDuration.toNat

/-- `t` is a time at which some message is to be sent. -/
def Due (msgs : List (ToolsMessage φ α)) (t : ℕ) : Prop :=
  ∃ i m, msgs[i]? = some m ∧ Scheduled msgs i m t

/-- The firings of a job are its repeats. -/
theorem mem_occ_iff (T : ℕ) (e : ℕ × Job) (t : ℕ) :
    t ∈ (jobs.occ T e).map Prod.fst ↔
      t ≤ T ∧ ∃ k, Occurs e.2.period e.2.count k ∧ t = e.1 + k * e.2.period := by
  induction e using jobs.occ_induction T with
  | late e hlt =>
      rw [jobs.occ_of_lt hlt]
      simp only [List.map_nil, List.not_mem_nil, false_iff, not_and, not_exists]
      intro hT k _ ht
      have := Nat.le_add_right e.1 (k * e.2.period)
      omega
  | last e hle hn =>
      have hnot : ¬ (0 < e.2.period ∧ (e.2.count = 0 ∨ 1 < e.2.count)) := by
        intro hp
        simp [jobs, hp] at hn
      have hk : ∀ k, Occurs e.2.period e.2.count k ↔ k = 0 := by
        intro k
        unfold Occurs
        split_ifs with hp <;> omega
      rw [jobs.occ_of_none hle hn]
      simp only [List.map_cons, List.map_nil, List.mem_singleton, hk, exists_eq_left, Nat.zero_mul,
        Nat.add_zero]
      exact ⟨fun h => ⟨h ▸ hle, h⟩, fun h => h.2⟩
  | again e p x' hle hn ih =>
      obtain ⟨t₀, ⟨l, r, c⟩⟩ := e
      obtain ⟨hp, hc⟩ : 0 < r ∧ (c = 0 ∨ 1 < c) := by
        by_contra hnot
        simp [jobs, hnot] at hn
      obtain ⟨rfl, rfl⟩ : r = p ∧ ({ label := l, period := r, count := c - 1 } : Job) = x' := by
        simpa [jobs, hp, hc] using hn
      have hk : ∀ k, Occurs r c (k + 1) ↔ Occurs r (c - 1) k := by
        intro k
        simp only [Occurs, Nat.pos_iff_ne_zero.mp hp, if_false]
        omega
      have h0 : Occurs r c 0 := by
        simp only [Occurs, Nat.pos_iff_ne_zero.mp hp, if_false]
        omega
      have hstep : ∀ k, t₀ + r + k * r = t₀ + (k + 1) * r := by
        intro k
        rw [Nat.succ_mul]
        omega
      rw [jobs.occ_of_some hle hn, List.map_cons, List.mem_cons, ih]
      dsimp only at hle ⊢
      constructor
      · rintro (rfl | ⟨hT, k, hO, rfl⟩)
        · exact ⟨hle, 0, h0, by omega⟩
        · exact ⟨hT, k + 1, (hk k).mpr hO, hstep k⟩
      · rintro ⟨hT, k, hO, rfl⟩
        cases k with
        | zero => exact Or.inl (by omega)
        | succ k => exact Or.inr ⟨hT, k, (hk k).mp hO, (hstep k).symm⟩

/-- A job keeps its label. -/
theorem label_of_mem_occ (T : ℕ) (e : ℕ × Job) : ∀ f ∈ jobs.occ T e, f.2.label = e.2.label := by
  induction e using jobs.occ_induction T with
  | late e hlt => simp [jobs.occ_of_lt hlt]
  | last e hle hn => simp [jobs.occ_of_none hle hn]
  | again e p x' hle hn ih =>
      have hl : x'.label = e.2.label := by
        simp only [jobs] at hn
        split_ifs at hn
        cases hn
        rfl
      rw [jobs.occ_of_some hle hn]
      intro f hf
      rcases List.mem_cons.mp hf with rfl | hf
      · rfl
      · rw [ih f hf, hl]

/-- The delta queue `start` begins with. -/
def initialQueue (msgs : List (ToolsMessage φ α)) : List (ℕ × Job) :=
  msgs.mapIdx fun i m =>
    (m.getDelay.toNat,
      { label := i, period := m.getRepeatDuration.toNat, count := (m.getRepeatCount 1).toNat })

theorem getElem?_due_initialQueue (msgs : List (ToolsMessage φ α)) (i : ℕ) :
    (DeltaQueue.due 0 (initialQueue msgs))[i]? = msgs[i]?.map fun m =>
      (dueTime msgs i,
        { label := i, period := m.getRepeatDuration.toNat,
          count := (m.getRepeatCount 1).toNat }) := by
  have hmap : ∀ n, ((initialQueue msgs).take n).map Prod.fst =
      (msgs.take n).map fun m => m.getDelay.toNat := by
    intro n
    apply List.ext_getElem?
    intro j
    simp only [initialQueue, List.getElem?_map, List.getElem?_take, List.getElem?_mapIdx]
    split_ifs <;> simp [Function.comp_def]
  rw [DeltaQueue.getElem?_due, hmap, Nat.zero_add]
  simp [initialQueue, dueTime, Option.map_map, Function.comp_def]

/-- The times of the schedule are those of the firings of the delta queue. -/
theorem exists_occ_iff (msgs : List (ToolsMessage φ α)) {T t : ℕ} (hT : t ≤ T) :
    (∃ f ∈ (DeltaQueue.due 0 (initialQueue msgs)).flatMap (jobs.occ T), f.1 = t) ↔
      Due msgs t := by
  constructor
  · rintro ⟨f, hf, rfl⟩
    obtain ⟨e, he, hfe⟩ := List.mem_flatMap.mp hf
    obtain ⟨i, hi⟩ := List.mem_iff_getElem?.mp he
    rw [getElem?_due_initialQueue] at hi
    obtain ⟨m, hm, rfl⟩ := Option.map_eq_some_iff.mp hi
    exact ⟨i, m, hm, ((mem_occ_iff T _ _).mp (List.mem_map_of_mem hfe)).2⟩
  · rintro ⟨i, m, hi, hs⟩
    obtain ⟨f, hf, rfl⟩ := List.mem_map.mp ((mem_occ_iff T (dueTime msgs i,
      { label := i, period := m.getRepeatDuration.toNat,
        count := (m.getRepeatCount 1).toNat }) t).mpr ⟨hT, hs⟩)
    have he := getElem?_due_initialQueue msgs i
    rw [hi, Option.map_some] at he
    exact ⟨f, List.mem_flatMap.mpr ⟨_, List.mem_of_getElem? he, hf⟩, rfl⟩

/-- The entries of one label in a list put together from one sublist for each label. -/
theorem filter_flatMap_label {β γ : Type} (f : β → List γ) (g : γ → ℕ) (l : List β) (k i : ℕ)
    (h : ∀ (j : ℕ) (b : β), l[j]? = some b → ∀ c ∈ f b, g c = k + j) :
    (l.flatMap f).filter (fun c => g c == k + i) = (l[i]?.map f).getD [] := by
  induction l generalizing k i with
  | nil => rfl
  | cons b l ih =>
      have hb : ∀ c ∈ f b, g c = k := fun c hc => h 0 b rfl c hc
      have hl : ∀ (j : ℕ) (b : β), l[j]? = some b → ∀ c ∈ f b, g c = k + 1 + j := by
        intro j b' hj c hc
        rw [h (j + 1) b' (by simpa using hj) c hc]
        omega
      rw [List.flatMap_cons, List.filter_append]
      cases i with
      | zero =>
          have hnone : (l.flatMap f).filter (fun c => g c == k + 0) = [] := by
            apply List.filter_eq_nil_iff.mpr
            intro c hc
            obtain ⟨b', hb', hc⟩ := List.mem_flatMap.mp hc
            obtain ⟨j, hj⟩ := List.mem_iff_getElem?.mp hb'
            have := hl j b' hj c hc
            simp only [beq_iff_eq]
            omega
          have hall : (f b).filter (fun c => g c == k + 0) = f b := by
            apply List.filter_eq_self.mpr
            intro c hc
            simp [hb c hc]
          rw [hnone, hall, List.append_nil]
          rfl
      | succ i =>
          have hnone : (f b).filter (fun c => g c == k + (i + 1)) = [] := by
            apply List.filter_eq_nil_iff.mpr
            intro c hc
            simp [hb c hc]
          have hi := ih (k + 1) i hl
          rw [show k + 1 + i = k + (i + 1) by omega] at hi
          simp [hnone, hi]

/-- A clone of `start` has the delay and the repetitions of its original. -/
theorem startClone_timing (P : ToolsProtocol φ α) (m : ToolsMessage φ α) :
    (startClone P m).delay = m.delay ∧ (startClone P m).repeatDuration = m.repeatDuration ∧
      (startClone P m).repeatCount = m.repeatCount := by
  simp only [startClone, P.copyCommonProperties_cloneMessage]
  split_ifs <;> simp

/-- The clones of `start` are queued with the delays of their originals. -/
theorem start_queued (P : ToolsProtocol φ α) (msgs : List (ToolsMessage φ α)) :
    List.Forall₂ (Queued P msgs) (msgs.map (startClone P)) (initialQueue msgs) := by
  refine List.forall₂_iff_get.mpr ⟨by simp [initialQueue], fun i hi hi' => ?_⟩
  have hi₀ : i < msgs.length := by simpa using hi
  set m := msgs[i] with hm
  have hclone : startClone P m = sentClone P m := by
    simp only [startClone, sentClone, P.copyCommonProperties_cloneMessage]
  have hc : IsCopy P m (sentClone P m) := by
    simp only [sentClone]
    split_ifs
    · exact .of_clone m
    · exact (IsCopy.of_clone m).update rfl
  obtain ⟨hdelay, -, hcount⟩ := startClone_timing P m
  rw [hclone] at hdelay hcount
  have hq : Queued P msgs (sentClone P m) (m.getDelay.toNat,
      { label := i, period := m.getRepeatDuration.toNat,
        count := (m.getRepeatCount 1).toNat }) := by
    refine ⟨⟨?_, ?_, m, ?_, hc⟩, ?_⟩
    · rw [ToolsMessage.getRepeatDuration, hc.repeatDuration]
      rfl
    · rw [ToolsMessage.getRepeatCount, hcount]
      rfl
    · rw [hm, List.getElem?_eq_getElem hi₀]
    · rw [ToolsMessage.getDelay, hdelay]
      rfl
  rw [← hclone] at hq
  simpa [initialQueue] using hq

/-- Every state of a run whose timer can wait for each head is simulated by the machine. -/
theorem run_rel_of_heads (P : ToolsProtocol φ α) (msgs : List (ToolsMessage φ α)) (n : ℕ)
    (hhead : ∀ k ≤ n, ∀ e ∈ (jobs.firing ⟨0, initialQueue msgs, []⟩ k).queue.head?,
      e.1 ≤ INT_MAX) :
    Rel P msgs (run P msgs n) (jobs.firing ⟨0, initialQueue msgs, []⟩ n) := by
  induction n with
  | zero =>
      exact sendPendingAndWait_rel rfl (start_queued P msgs) (hhead 0 le_rfl) .nil .nil (by simp)
        rfl
  | succ n ih =>
      exact timeout_rel (ih fun k hk => hhead k (Nat.le_succ_of_le hk))
        (jobs.firing_fired _ n).headPos (hhead (n + 1) le_rfl)

/-- Every state of the run is simulated by the machine started on the messages. -/
theorem run_rel (P : ToolsProtocol φ α) (msgs : List (ToolsMessage φ α))
    (hbound : ∀ m ∈ msgs, m.getDelay.toNat ≤ INT_MAX ∧ m.getRepeatDuration.toNat ≤ INT_MAX)
    (n : ℕ) :
    Rel P msgs (run P msgs n) (jobs.firing ⟨0, initialQueue msgs, []⟩ n) := by
  have hjobs : ∀ {x : Job} {p : ℕ} {x' : Job}, x.period ≤ INT_MAX → jobs.next x = some (p, x') →
      p ≤ INT_MAX ∧ x'.period ≤ INT_MAX := by
    intro x p x' hx hn
    simp only [jobs] at hn
    split_ifs at hn
    cases hn
    exact ⟨hx, hx⟩
  have hinit : DeltaQueue.Within INT_MAX (fun j : Job => j.period ≤ INT_MAX)
      (initialQueue msgs) := by
    intro e he
    obtain ⟨i, hi, rfl⟩ := List.mem_mapIdx.mp he
    exact hbound _ (List.getElem_mem hi)
  refine run_rel_of_heads P msgs n fun k _ e he => ?_
  exact (jobs.firing_within hjobs hinit k e (List.mem_of_mem_head? he)).1

/-- What a run for `msgs` looks like after `start` and `n` firings of the timer. -/
structure RealisesSchedule (P : ToolsProtocol φ α) (msgs : List (ToolsMessage φ α)) (n : ℕ)
    (s : SendMgr φ α) : Prop where
  /-- Copies of the `i`-th message were sent at its scheduled times up to now, once each. -/
  sends : ∃ log : List (ℕ × ℕ),
    List.Forall₂ (fun e l => e.1 = l.1 ∧ ∃ m, msgs[l.2]? = some m ∧ IsCopy P m e.2) s.sent log ∧
      ∀ i m, msgs[i]? = some m →
        let times := (log.filter fun l => l.2 == i).map Prod.fst
        times.Pairwise (· < ·) ∧ ∀ t, t ∈ times ↔ t ≤ s.now ∧ Scheduled msgs i m t
  /-- The batches are in order of time. -/
  batches : (s.batches.map Prod.fst).Pairwise (· < ·)
  /-- The timer is armed with positive intervals. -/
  timer : ∀ d, s.m_timer = some d → 0 < d
  /-- Time goes on until nothing remains. -/
  progress : s.completions = 1 ∨ n ≤ s.now
  completions_le : s.completions ≤ 1
  /-- The completion callback was called if and only if no send remains. -/
  completed : s.completions = 1 ↔
    ∀ i m, msgs[i]? = some m → ∀ t, Scheduled msgs i m t → t ≤ s.now

/-- The firings of the `i`-th message in the schedule, by time. -/
theorem filter_label_occ {msgs : List (ToolsMessage φ α)} {i : ℕ} {m : ToolsMessage φ α}
    (hi : msgs[i]? = some m) (T : ℕ) :
    (((DeltaQueue.due 0 (initialQueue msgs)).flatMap (jobs.occ T)).filter
        fun f => f.2.label == i) =
      jobs.occ T (dueTime msgs i,
        { label := i, period := m.getRepeatDuration.toNat,
          count := (m.getRepeatCount 1).toNat }) := by
  have h := filter_flatMap_label (jobs.occ T) (fun f => f.2.label)
    (DeltaQueue.due 0 (initialQueue msgs)) 0 i (by
      intro j e he f hf
      rw [getElem?_due_initialQueue] at he
      obtain ⟨m', -, rfl⟩ := Option.map_eq_some_iff.mp he
      rw [label_of_mem_occ T _ f hf, Nat.zero_add])
  simpa [getElem?_due_initialQueue, hi] using h

section fired
variable {msgs : List (ToolsMessage φ α)} {a : Timeline Job}

/-- The log of the machine has the scheduled times of a message, in order and once each. -/
theorem times_of_fired
    (h : jobs.Fired (fun T => (DeltaQueue.due 0 (initialQueue msgs)).flatMap (jobs.occ T)) a)
    {i : ℕ} {m : ToolsMessage φ α} (hi : msgs[i]? = some m) :
    ((a.log.filter fun f => f.2.label == i).map Prod.fst).Pairwise (· < ·) ∧
      ∀ t, t ∈ (a.log.filter fun f => f.2.label == i).map Prod.fst ↔
        t ≤ a.now ∧ Scheduled msgs i m t := by
  have hperm := (h.log_perm.filter fun f => f.2.label == i).map Prod.fst
  rw [filter_label_occ hi] at hperm
  refine ⟨?_, fun t => ?_⟩
  · -- in order, and without repetition as the schedule has none
    have hle : ((a.log.filter fun f => f.2.label == i).map Prod.fst).Pairwise (· ≤ ·) :=
      List.pairwise_map.mpr (h.sorted.filter _)
    have hnd : ((a.log.filter fun f => f.2.label == i).map Prod.fst).Nodup := by
      refine hperm.nodup_iff.mpr ?_
      exact (List.pairwise_map.mpr (jobs.occ_sorted _ _)).imp fun h => h.ne
    exact (hle.and hnd).imp fun h => lt_of_le_of_ne h.1 h.2
  · rw [hperm.mem_iff, mem_occ_iff]
    rfl

/-- The queue of the machine is empty if and only if no scheduled time is left. -/
theorem queue_eq_nil_iff_scheduled
    (h : jobs.Fired (fun T => (DeltaQueue.due 0 (initialQueue msgs)).flatMap (jobs.occ T)) a) :
    a.queue = [] ↔ ∀ i m, msgs[i]? = some m → ∀ t, Scheduled msgs i m t → t ≤ a.now := by
  rw [h.queue_eq_nil_iff]
  constructor
  · intro h i m hi t ht
    obtain ⟨f, hf, rfl⟩ := (exists_occ_iff msgs (le_max_right a.now t)).mpr ⟨i, m, hi, ht⟩
    exact h _ (le_max_left _ _) f hf
  · intro h T _ f hf
    have hle : f.1 ≤ T := by
      obtain ⟨e, -, hfe⟩ := List.mem_flatMap.mp hf
      exact (jobs.mem_occ_bounds hfe).2
    obtain ⟨i, m, hm, ht⟩ := (exists_occ_iff msgs hle).mp ⟨f, hf, rfl⟩
    exact h i m hm f.1 ht

end fired

/-- **The scheduler realises the absolute schedule** of every list of messages with delays and
repeat durations up to `INT_MAX`. -/
theorem run_realises_schedule (P : ToolsProtocol φ α) (msgs : List (ToolsMessage φ α))
    (hbound : ∀ m ∈ msgs, m.getDelay.toNat ≤ INT_MAX ∧ m.getRepeatDuration.toNat ≤ INT_MAX)
    (n : ℕ) : RealisesSchedule P msgs n (run P msgs n) := by
  have hrel := run_rel P msgs hbound n
  have hfired := jobs.firing_fired (initialQueue msgs) n
  have hprog := jobs.firing_progress (initialQueue msgs) n
  generalize run P msgs n = s at hrel
  generalize jobs.firing ⟨0, initialQueue msgs, []⟩ n = a at hrel hfired hprog
  have hdone : s.completions = 1 ↔ a.queue = [] := by
    rw [hrel.completions]
    split_ifs with hq <;> simp [hq]
  refine ⟨⟨a.log.map fun f => (f.1, f.2.label), ?_, ?_⟩, hrel.batches.1, ?_, ?_, ?_, ?_⟩
  · exact List.forall₂_map_right_iff.mpr (hrel.sent.imp fun _ _ h => h)
  · intro i m hi
    have e : ((a.log.map fun f => (f.1, f.2.label)).filter fun l => l.2 == i).map Prod.fst =
        (a.log.filter fun f => f.2.label == i).map Prod.fst := by
      rw [List.filter_map, List.map_map]
      rfl
    dsimp only
    rw [e, hrel.now]
    exact times_of_fired hfired hi
  · intro d hd
    rw [hrel.timer] at hd
    obtain ⟨e, he, rfl⟩ := Option.map_eq_some_iff.mp hd
    exact_mod_cast hfired.headPos e he
  · rw [hdone, hrel.now]
    exact hprog
  · rw [hrel.completions]
    split_ifs <;> simp
  · rw [hdone, hrel.now]
    exact queue_eq_nil_iff_scheduled hfired

/-- Three sends every 5 ms, and one message 5 ms after the first of them. -/
def sampleMsgs : List (ToolsMessage Unit UInt8) :=
  [{ body := .prot () 1, repeatDuration := some 5, repeatCount := some 3 },
    { body := .prot () 2, delay := some 5 }]

theorem run_realises_schedule_sample :
    RealisesSchedule { name := [], m_frame := syncFrame } sampleMsgs 2
      (run { name := [], m_frame := syncFrame } sampleMsgs 2) :=
  run_realises_schedule _ sampleMsgs (by decide) 2

example : (run { name := [], m_frame := syncFrame } sampleMsgs 2).sent.map
      (fun e => (e.1, e.2.body)) =
    [(0, .prot () 1), (5, .prot () 2), (5, .prot () 1), (10, .prot () 1)] := by
  decide

end SendMgr

end CcToolsQt
