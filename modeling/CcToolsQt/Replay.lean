import CcToolsQt.SendFile
import CcToolsQt.RecvFile
import Mathlib.Data.List.MinMax

/-! # A received log as a send list

Entries with a timestamp and neither delay nor repeat, as a file of received messages has them,
are sent with the delays that passed between them.  The difference of two timestamps is taken in
unsigned arithmetic, so a timestamp before the one of the previous entry is taken for a very late
one.

* `convertRecvMsg_recorded`: the entries that are written for received messages are such.
* `keepsTiming_iff`: the delays are right if and only if the timestamps never decrease. -/

namespace CcToolsQt

namespace ToolsMsgFileMgr
variable {φ α File : Type} (P : ToolsProtocol φ α) (Q : QtFiles File)

/-! ### Recorded entries -/

/-- An entry with a timestamp, without delay and repeat. -/
structure Recorded (entry : QVariant) : Prop where
  delay : DelayProp.getFrom (entry.toMap.getD []) 0 = 0
  repeatDuration : RepeatProp.getFrom (entry.toMap.getD []) 0 = 0
  repeatCount : RepeatCountProp.getFrom (entry.toMap.getD []) 0 = 0
  timestamp : TimestampProp.getFrom (entry.toMap.getD []) 0 ≠ 0

/-- The entries of a saved list of received messages are recorded ones. -/
theorem convertRecvMsg_recorded {m : ToolsMessage φ α} (hid : m.idAsString P.classes ≠ [])
    (hts : m.getTimestamp ≠ 0) : Recorded (.map (convertRecvMsg P m)) := by
  have hent := (convertRecvMsg_entries P hid).timestamp
  have hid' : (m.idAsString P.classes).isEmpty = false := List.isEmpty_eq_false_iff.mpr hid
  refine ⟨?_, ?_, ?_, by rw [QVariant.toMap, Option.getD_some, hent]; exact hts⟩
  all_goals
    simp only [QVariant.toMap, Option.getD_some, convertRecvMsg, hid', Bool.false_and,
      Bool.false_eq_true, if_false]
    simp (disch := decide) only [getFrom_setNonEmpty_of_ne, ToolsMsgPropBase.getFrom_setTo_of_ne]
    rfl

/-- The timestamps of the entries that give a message. -/
def logTimes (L : List QVariant) : List UInt64 :=
  (L.filter fun entry => (createMsgObjectFrom P Q entry).isSome).map fun entry =>
    TimestampProp.getFrom (entry.toMap.getD []) 0

/-- The delays of the messages loaded for the send list. -/
def replayDelays (L : List QVariant) : List UInt64 :=
  (sendMsgListFrom P Q 0 L).map ToolsMessage.getDelay

/-! ### The timing of a log -/

/-- The latest of the first `k` timestamps. -/
def latest (ts : List UInt64) (k : ℕ) : ℕ := ((ts.take k).map UInt64.toNat).foldr max 0

/-- Each message waits for the time that passed since the latest one before it. -/
def KeepsTiming (ts ds : List UInt64) : Prop :=
  ∀ k, ds[k]?.map UInt64.toNat =
    ts[k]?.map fun t => if k = 0 then 0 else t.toNat - latest ts k

/-- Differences of successive timestamps; nothing is before the first one. -/
def steps : UInt64 → List UInt64 → List UInt64
  | _, [] => []
  | prev, t :: ts => (if prev = 0 then 0 else t - prev) :: steps t ts

theorem getElem?_steps (prev : UInt64) (ts : List UInt64) (k : ℕ) :
    (steps prev ts)[k]? = ts[k]?.map fun t =>
      if (prev :: ts)[k]?.getD 0 = 0 then 0 else t - (prev :: ts)[k]?.getD 0 := by
  induction ts generalizing prev k with
  | nil => simp [steps]
  | cons t ts ih =>
      cases k with
      | zero => simp [steps]
      | succ k => simp [steps, ih]

theorem le_latest {ts : List UInt64} {k : ℕ} {t : UInt64} (h : t ∈ ts.take k) :
    t.toNat ≤ latest ts k :=
  List.le_max_of_le (List.mem_map_of_mem h) le_rfl

theorem latest_le {ts : List UInt64} {k b : ℕ} (h : ∀ t ∈ ts.take k, t.toNat ≤ b) :
    latest ts k ≤ b := by
  refine List.max_le_of_forall_le _ _ fun n hn => ?_
  obtain ⟨t, ht, rfl⟩ := List.mem_map.mp hn
  exact h t ht

/-- In a log that never goes back the latest timestamp is the last one. -/
theorem latest_of_sorted {ts : List UInt64} (hs : ts.Pairwise (· ≤ ·)) {k : ℕ}
    (hk : k < ts.length) : latest ts (k + 1) = ts[k].toNat := by
  refine le_antisymm (latest_le fun t ht => ?_) (le_latest ?_)
  · obtain ⟨j, hj, rfl⟩ := List.mem_take_iff_getElem.mp ht
    rcases Nat.lt_or_eq_of_le (show j ≤ k by omega) with hlt | rfl
    · exact List.pairwise_iff_getElem.mp hs j k (by omega) hk hlt
    · exact le_rfl
  · exact List.mem_take_iff_getElem.mpr ⟨k, by omega, rfl⟩

/-- A difference of timestamps is the time that passed only if the second is not before the
first. -/
theorem le_of_sub_eq {p t : UInt64} {b : ℕ} (hb : p.toNat ≤ b)
    (h : (t - p).toNat = t.toNat - b) : p ≤ t := by
  have hp := p.toNat_lt
  have ht := t.toNat_lt
  rw [UInt64.toNat_sub] at h
  rw [UInt64.le_iff_toNat_le]
  omega

/-- **Differences keep the timing** of the logs that never go back. -/
theorem keepsTiming_steps_iff {ts : List UInt64} (hts : ∀ t ∈ ts, t ≠ 0) :
    KeepsTiming ts (steps 0 ts) ↔ ts.Pairwise (· ≤ ·) := by
  have hne : ∀ k (hk : k < ts.length), ts[k] ≠ 0 := fun k hk => hts _ (List.getElem_mem hk)
  constructor
  · intro h
    rw [← List.isChain_iff_pairwise, List.isChain_iff_getElem]
    intro k hk
    have hstep := h (k + 1)
    rw [getElem?_steps, List.getElem?_eq_getElem hk, List.getElem?_cons_succ,
      List.getElem?_eq_getElem (by omega)] at hstep
    simp only [Option.map_some, Option.getD_some, hne, if_false, Option.some.injEq,
      Nat.add_eq_zero_iff, one_ne_zero, and_false] at hstep
    refine le_of_sub_eq (le_latest ?_) hstep
    exact List.mem_take_iff_getElem.mpr ⟨k, by omega, rfl⟩
  · intro hs k
    rw [getElem?_steps]
    rcases Nat.lt_or_ge k ts.length with hk | hk
    · rw [List.getElem?_eq_getElem hk]
      cases k with
      | zero => simp
      | succ k =>
          have hle : ts[k] ≤ ts[k + 1] :=
            List.pairwise_iff_getElem.mp hs k (k + 1) (by omega) hk (Nat.lt_succ_self k)
          rw [List.getElem?_cons_succ, List.getElem?_eq_getElem (by omega)]
          simp only [Option.map_some, Option.getD_some, hne, if_false, Nat.add_eq_zero_iff,
            one_ne_zero, and_false, latest_of_sorted hs (show k < ts.length by omega),
            UInt64.toNat_sub_of_le _ _ hle]
    · simp [List.getElem?_eq_none hk]

/-- The delays up to a message add up to the time since the first one. -/
theorem sum_steps {ts : List UInt64} (hts : ∀ t ∈ ts, t ≠ 0) (hs : ts.Pairwise (· ≤ ·)) {k : ℕ}
    {t₁ t : UInt64} (h₁ : ts[0]? = some t₁) (ht : ts[k]? = some t) :
    (((steps 0 ts).take (k + 1)).map UInt64.toNat).sum = t.toNat - t₁.toNat := by
  have hkeep := (keepsTiming_steps_iff hts).mpr hs
  induction k generalizing t with
  | zero =>
      obtain rfl : t₁ = t := Option.some.inj (h₁.symm.trans ht)
      have h0 := hkeep 0
      rw [h₁, Option.map_some, if_pos rfl] at h0
      obtain ⟨d, hd, hz⟩ := Option.map_eq_some_iff.mp h0
      rw [List.take_add_one, hd]
      simp [hz]
  | succ k ih =>
      obtain ⟨hk, rfl⟩ := List.getElem?_eq_some_iff.mp ht
      have hprev := ih (List.getElem?_eq_getElem (show k < ts.length by omega))
      have hstep := hkeep (k + 1)
      rw [ht, Option.map_some, if_neg (Nat.succ_ne_zero k),
        latest_of_sorted hs (show k < ts.length by omega)] at hstep
      obtain ⟨d, hd, hdt⟩ := Option.map_eq_some_iff.mp hstep
      have hle₁ : t₁ ≤ ts[k] := by
        obtain ⟨h0, rfl⟩ := List.getElem?_eq_some_iff.mp h₁
        rcases Nat.eq_zero_or_pos k with rfl | hpos
        · exact UInt64.le_refl ts[0]
        · exact List.pairwise_iff_getElem.mp hs 0 k h0 (by omega) hpos
      have hle : ts[k] ≤ ts[k + 1] :=
        List.pairwise_iff_getElem.mp hs k (k + 1) (by omega) hk (Nat.lt_succ_self k)
      rw [UInt64.le_iff_toNat_le] at hle₁ hle
      rw [List.take_add_one, hd, List.map_append, List.sum_append, hprev]
      simp only [Option.toList_some, List.map_cons, List.map_nil, List.sum_singleton, hdt]
      omega

/-! ### Loading a log -/

/-- The timing of a recorded entry behind one with the timestamp `prev`, 0 for none. -/
theorem sendTiming_recorded {entry : QVariant} (h : Recorded entry) (prev : UInt64) :
    sendTiming prev (entry.toMap.getD []) =
      (if prev = 0 then 0 else TimestampProp.getFrom (entry.toMap.getD []) 0 - prev, 1,
        TimestampProp.getFrom (entry.toMap.getD []) 0) := by
  have hsub : ∀ a b : UInt64, a - b = 0 → a = b := by
    intro a b hab
    have h0 := congrArg UInt64.toNat hab
    have ha := a.toNat_lt
    have hb := b.toNat_lt
    rw [UInt64.toNat_sub, UInt64.toNat_zero] at h0
    exact UInt64.toNat_inj.mp (by omega)
  unfold sendTiming
  simp only [h.delay, h.repeatDuration, h.repeatCount, h.timestamp, ne_eq, not_true_eq_false,
    or_self, and_self, if_true, if_false]
  by_cases hp : prev = 0
  · simp [hp]
  · simp only [hp, if_false]
    split_ifs with h0
    · rw [h0, hsub _ _ h0]
    · rfl

/-- The delays of a log are the differences of its timestamps. -/
theorem replayDelays_from (prev : UInt64) {L : List QVariant} (hL : ∀ e ∈ L, Recorded e) :
    (sendMsgListFrom P Q prev L).map ToolsMessage.getDelay = steps prev (logTimes P Q L) := by
  induction L generalizing prev with
  | nil => rfl
  | cons entry L ih =>
      obtain ⟨he, hL⟩ := List.forall_mem_cons.mp hL
      rw [sendMsgListFrom]
      cases hm : createMsgObjectFrom P Q entry with
      | none =>
          rw [logTimes, List.filter_cons_of_neg (by simp [hm])]
          exact ih prev hL
      | some m =>
          have hlog : logTimes P Q (entry :: L) =
              TimestampProp.getFrom (entry.toMap.getD []) 0 :: logTimes P Q L := by
            rw [logTimes, List.filter_cons_of_pos (by simp [hm]), List.map_cons, ← logTimes]
          rw [hlog, steps]
          simp only [List.map_cons, sendTiming_recorded he, ih _ hL]
          rfl

/-- **When a log keeps its timing**: when its timestamps never decrease; then the delays up to a
message add up to the time since the first one. -/
theorem keepsTiming_iff {L : List QVariant} (hL : ∀ e ∈ L, Recorded e) :
    (KeepsTiming (logTimes P Q L) (replayDelays P Q L) ↔ (logTimes P Q L).Pairwise (· ≤ ·)) ∧
      ((logTimes P Q L).Pairwise (· ≤ ·) → ∀ k t₁ t, (logTimes P Q L)[0]? = some t₁ →
        (logTimes P Q L)[k]? = some t →
        (((replayDelays P Q L).take (k + 1)).map UInt64.toNat).sum = t.toNat - t₁.toNat) := by
  have hne : ∀ t ∈ logTimes P Q L, t ≠ 0 := by
    intro t ht
    obtain ⟨e, he, rfl⟩ := List.mem_map.mp ht
    exact (hL e (List.mem_filter.mp he).1).timestamp
  rw [replayDelays, replayDelays_from P Q 0 hL]
  exact ⟨keepsTiming_steps_iff hne, fun hs k t₁ t h₁ ht => sum_steps hne hs h₁ ht⟩

/-- The entries of two messages of the demo protocol. -/
def sampleLog (t₁ t₂ : UInt64) : List QVariant :=
  [.map (convertRecvMsg (DemoProtocol.protocol sampleDemo)
      { sampleIntValues with timestamp := some t₁ }),
    .map (convertRecvMsg (DemoProtocol.protocol sampleDemo)
      { sampleIntValues with timestamp := some t₂ })]

theorem sampleLog_recorded {t₁ t₂ : UInt64} (h₁ : t₁ ≠ 0) (h₂ : t₂ ≠ 0) :
    ∀ e ∈ sampleLog t₁ t₂, Recorded e := by
  intro e he
  have hid : sampleIntValues.idAsString (DemoProtocol.protocol sampleDemo).classes ≠ [] := by decide
  rcases List.mem_pair.mp he with rfl | rfl
  · exact convertRecvMsg_recorded _ hid h₁
  · exact convertRecvMsg_recorded _ hid h₂

theorem keepsTiming_iff_sample :
    KeepsTiming (logTimes (DemoProtocol.protocol sampleDemo) sampleFiles (sampleLog 5 12))
      (replayDelays (DemoProtocol.protocol sampleDemo) sampleFiles (sampleLog 5 12)) :=
  (keepsTiming_iff _ sampleFiles (sampleLog_recorded (by decide) (by decide))).1.mpr (by decide)

/-- A timestamp that goes back adds a delay of almost `2 ^ 64` milliseconds. -/
theorem backward_timestamp_delays :
    (∀ e ∈ sampleLog 12 5, Recorded e) ∧
      ¬ KeepsTiming (logTimes (DemoProtocol.protocol sampleDemo) sampleFiles (sampleLog 12 5))
        (replayDelays (DemoProtocol.protocol sampleDemo) sampleFiles (sampleLog 12 5)) := by
  refine ⟨sampleLog_recorded (by decide) (by decide), fun h => ?_⟩
  have hlog : logTimes (DemoProtocol.protocol sampleDemo) sampleFiles (sampleLog 12 5) =
      [12, 5] := rfl
  have hdelays : replayDelays (DemoProtocol.protocol sampleDemo) sampleFiles (sampleLog 12 5) =
      [0, 5 - 12] := rfl
  rw [hlog, hdelays] at h
  exact absurd (h 1) (by decide)

end ToolsMsgFileMgr

end CcToolsQt
