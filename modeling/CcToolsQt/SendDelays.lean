import CcToolsQt.SendMgr

/-! # How long the scheduler waits

The delays of messages are counted in 64 bits, the interval of the timer is an `int`.

* `heads_iff_gapsFit`: the delays in front of the queue fit into an `int` if and only if the
  schedule leaves no longer gaps.
* `waitsForAll_iff`: those are the lists for which every delay is waited for in full. -/

namespace CcToolsQt

namespace SendMgr
variable {φ α : Type} (P : ToolsProtocol φ α) (msgs : List (ToolsMessage φ α))

/-- The messages that are left when `sendPendingAndWait` looks for the next delay. -/
def leftToSend (s : SendMgr φ α) : List (ToolsMessage φ α) :=
  (sendLoop P (s.m_msgsToSend.takeWhile fun m => m.getDelay == 0)
    (s.m_msgsToSend.dropWhile fun m => m.getDelay == 0)).2

/-- `sendPendingAndWait` arms the timer with the remaining delay of the head. -/
def WaitsInFull (s : SendMgr φ α) : Prop :=
  (sendPendingAndWait P s).m_timer = (leftToSend P s).head?.map fun m => (m.getDelay.toNat : ℤ)

/-- The state in which `start`, or the `n`-th firing of the timer, calls `sendPendingAndWait`. -/
def calling : ℕ → Option (SendMgr φ α)
  | 0 => some { m_msgsToSend := msgs.map (startClone P) }
  | n + 1 => (run P msgs n).m_timer.map fun d =>
      { run P msgs n with now := (run P msgs n).now + d.toNat }

/-- Every delay of the list is waited for in full. -/
def WaitsForAll : Prop := ∀ n, ∀ s ∈ calling P msgs n, WaitsInFull P s

/-- From the start, and from every time of the schedule, an `int` holds the milliseconds up to the
next time of the schedule. -/
def GapsFit : Prop :=
  ∀ t, (t = 0 ∨ Due msgs t) → (∃ u, t < u ∧ Due msgs u) → ∃ u, t < u ∧ u < t + 2 ^ 31 ∧ Due msgs u

/-! ### The delays in front of the queue -/

/-- The machine started on the list, after the first firing and `n` more. -/
def machine (n : ℕ) : Timeline Job := jobs.firing ⟨0, initialQueue msgs, []⟩ n

theorem machine_fired (n : ℕ) :
    jobs.Fired (fun T => (DeltaQueue.due 0 (initialQueue msgs)).flatMap (jobs.occ T))
      (machine msgs n) :=
  jobs.firing_fired (initialQueue msgs) n

/-- The machine stops at the start and at the times of the schedule. -/
theorem exists_machine_now_iff (t : ℕ) :
    (∃ n, (machine msgs n).now = t) ↔ t = 0 ∨ Due msgs t := by
  constructor
  · rintro ⟨n, rfl⟩
    refine (jobs.firing_now (initialQueue msgs) n).imp id ?_
    rintro ⟨e, he, hnow⟩
    have hmem := (machine_fired msgs n).log_perm.mem_iff.mp he
    exact (exists_occ_iff msgs le_rfl).mp ⟨e, hmem, hnow⟩
  · rintro (rfl | h)
    · exact ⟨0, rfl⟩
    · obtain ⟨f, hf, rfl⟩ := (exists_occ_iff msgs le_rfl).mpr h
      exact jobs.firing_reaches (initialQueue msgs) hf

/-- The head of the queue is what is due next. -/
theorem machine_next {n : ℕ} {e : ℕ × Job} (he : e ∈ (machine msgs n).queue.head?) :
    Due msgs ((machine msgs n).now + e.1) ∧
      ∀ u, (machine msgs n).now < u → Due msgs u → (machine msgs n).now + e.1 ≤ u := by
  obtain ⟨q, hq⟩ := List.head?_eq_some_iff.mp he
  obtain ⟨hmem, hmin⟩ := (machine_fired msgs n).next_due hq
  refine ⟨(exists_occ_iff msgs le_rfl).mp ⟨_, hmem, rfl⟩, fun u hlt hu => ?_⟩
  obtain ⟨f, hf, rfl⟩ := (exists_occ_iff msgs le_rfl).mpr hu
  exact hmin _ hlt.le f hf hlt

/-- Something is queued as long as something is due. -/
theorem machine_queue_ne_nil {n u : ℕ} (hlt : (machine msgs n).now < u) (hu : Due msgs u) :
    ∃ e, e ∈ (machine msgs n).queue.head? := by
  cases hq : (machine msgs n).queue with
  | nil =>
      obtain ⟨f, hf, rfl⟩ := (exists_occ_iff msgs le_rfl).mpr hu
      have hle := (machine_fired msgs n).queue_eq_nil_iff.mp hq _ hlt.le f hf
      exact absurd hlt (Nat.not_lt.mpr hle)
  | cons e q => exact ⟨e, rfl⟩

/-- **The delays of the queue and the schedule**: they fit into an `int` if and only if the gaps
of the schedule do. -/
theorem heads_iff_gapsFit :
    (∀ n, ∀ e ∈ (machine msgs n).queue.head?, e.1 ≤ INT_MAX) ↔ GapsFit msgs := by
  constructor
  · rintro h t ht ⟨u, hlt, hu⟩
    obtain ⟨n, rfl⟩ := (exists_machine_now_iff msgs t).mpr ht
    obtain ⟨e, he⟩ := machine_queue_ne_nil msgs hlt hu
    have hpos := (machine_fired msgs n).headPos e he
    have hle := h n e he
    unfold INT_MAX at hle
    exact ⟨_, by omega, by omega, (machine_next msgs he).1⟩
  · intro h n e he
    obtain ⟨hdue, hmin⟩ := machine_next msgs he
    have hpos := (machine_fired msgs n).headPos e he
    obtain ⟨u, hlt, hfit, hu⟩ :=
      h _ ((exists_machine_now_iff msgs _).mp ⟨n, rfl⟩) ⟨_, by omega, hdue⟩
    have hle := hmin u hlt hu
    unfold INT_MAX
    omega

/-! ### The scheduler -/

variable {P msgs}

/-- One call waits in full if and only if the delay in front fits. -/
theorem waitsInFull_iff {s : SendMgr φ α} {a : Timeline Job}
    (hq : List.Forall₂ (Queued P msgs) s.m_msgsToSend a.queue) :
    WaitsInFull P s ↔ ∀ e ∈ (jobs.fire a).queue.head?, e.1 ≤ INT_MAX := by
  have hqueue : List.Forall₂ (Queued P msgs) (leftToSend P s) (jobs.fire a).queue :=
    (sendLoop_fire hq).2
  have htimer : (sendPendingAndWait P s).m_timer =
      (leftToSend P s).head?.map fun m => toInt m.getDelay := rfl
  rw [WaitsInFull, htimer]
  generalize leftToSend P s = q, (jobs.fire a).queue = aq at hqueue
  cases hqueue with
  | nil => simp
  | cons hm _ => simp [toInt_eq_iff, ← hm.delay]

/-- As long as the delays in front have fitted, the scheduler makes the calls of the machine. -/
theorem calling_cases {n : ℕ}
    (h : ∀ k < n, ∀ e ∈ (machine msgs k).queue.head?, e.1 ≤ INT_MAX) :
    (calling P msgs n = none ∧ (machine msgs n).queue = []) ∨
      ∃ s a, calling P msgs n = some s ∧ List.Forall₂ (Queued P msgs) s.m_msgsToSend a.queue ∧
        jobs.fire a = machine msgs n := by
  cases n with
  | zero => exact Or.inr ⟨_, ⟨0, initialQueue msgs, []⟩, rfl, start_queued P msgs, rfl⟩
  | succ n =>
      have hrel := run_rel_of_heads P msgs n fun k hk => h k (Nat.lt_succ_of_le hk)
      have htimer := hrel.timer
      cases hq : (machine msgs n).queue with
      | nil =>
          rw [machine] at hq
          rw [hq] at htimer
          left
          refine ⟨by rw [calling, htimer]; rfl, ?_⟩
          simp [machine, Repeater.firing, Repeater.wait, hq, Repeater.fire]
      | cons e q =>
          rw [machine] at hq
          rw [hq] at htimer
          right
          refine ⟨_, Repeater.wait (machine msgs n), by rw [calling, htimer]; rfl, ?_, rfl⟩
          rw [Repeater.wait_queue]
          exact hrel.queue

variable (P msgs)

/-- **Which delays are waited for**: those of the lists whose schedule leaves no gap that an `int`
does not hold. -/
theorem waitsForAll_iff : WaitsForAll P msgs ↔ GapsFit msgs := by
  rw [← heads_iff_gapsFit]
  constructor
  · intro h n
    -- the delays in front so far have fitted, so the next call is that of the machine
    induction n using Nat.strong_induction_on with
    | _ n ih =>
        rcases calling_cases (P := P) ih with ⟨-, hnil⟩ | ⟨s, a, hs, hq, ha⟩
        · simp [hnil]
        · rw [← ha]
          exact (waitsInFull_iff hq).mp (h n s hs)
  · intro h n s hs
    rcases calling_cases (P := P) (n := n) fun k _ => h k with ⟨hnone, -⟩ | ⟨s', a, hs', hq, ha⟩
    · cases hnone.symm.trans hs
    · cases hs'.symm.trans hs
      rw [waitsInFull_iff hq, ha]
      exact h n

/-- A message 25 days after the start. -/
theorem delay_of_days_truncated :
    ¬ WaitsForAll { name := [], m_frame := syncFrame }
      [{ body := .prot () 1, delay := some (25 * 24 * 60 * 60 * 1000) }] := by
  intro h
  exact absurd (h 0 _ rfl) (by unfold WaitsInFull; decide)

end SendMgr

end CcToolsQt
