import Mathlib.Algebra.GroupWithZero.Nat
import Mathlib.Data.List.Perm.Basic
import Mathlib.Data.List.Flatten
import Mathlib.Data.List.TakeWhile
import Mathlib.Data.Nat.Basic
import Mathlib.Data.Nat.Find
import Mathlib.Tactic.Common

/-! # Timer queues of relative delays

A delta queue holds for every entry the delay behind the entry before it.  `due` turns it into
absolute times, `insert` walks down the queue, subtracting the delays it passes and patching the
delay of the entry it stops at.

A `Repeater` says which entries come back and after how long.  `Timeline` is the machine that
fires all entries without delay, puts the ones that come back into the queue again, and then
waits for the head of the queue.

* `due_insert`: an insertion adds the entry at its time and moves no other.
* `fire_fired`, `wait_pending`: one round keeps the account of what was fired and what will be.
* `firing_fired`: so does every run; `Fired.log_perm` reads the account off. -/

namespace DeltaQueue
variable {κ : Type}

/-- The entries with their absolute times, the queue starting at time `t`. -/
def due (t : ℕ) : List (ℕ × κ) → List (ℕ × κ)
  | [] => []
  | (d, x) :: q => (t + d, x) :: due (t + d) q

/-- Insertion of `x` with delay `d`, behind the entries of the same time. -/
def insert (d : ℕ) (x : κ) : List (ℕ × κ) → List (ℕ × κ)
  | [] => [(d, x)]
  | (e, y) :: q => if d < e then (d, x) :: (e - d, y) :: q else (e, y) :: insert (d - e) x q

/-- The delay of the head is waited for elsewhere. -/
def zeroHead : List (ℕ × κ) → List (ℕ × κ)
  | [] => []
  | (_, x) :: q => (0, x) :: q

/-- No delay is above `B`, and `I` holds of the entries. -/
def Within (B : ℕ) (I : κ → Prop) (q : List (ℕ × κ)) : Prop := ∀ e ∈ q, e.1 ≤ B ∧ I e.2

/-- The head of the queue, if there is one, has a delay. -/
def HeadPos (q : List (ℕ × κ)) : Prop := ∀ e ∈ q.head?, 0 < e.1

theorem due_append (t : ℕ) (q r : List (ℕ × κ)) :
    due t (q ++ r) = due t q ++ due (t + (q.map Prod.fst).sum) r := by
  induction q generalizing t with
  | nil => simp [due]
  | cons e q ih => simp [due, ih, Nat.add_assoc]

/-- Entries without delay are due at once. -/
theorem due_of_zero (t : ℕ) (q : List (ℕ × κ)) (h : ∀ e ∈ q, e.1 = 0) :
    due t q = q.map fun e => (t, e.2) := by
  induction q with
  | nil => rfl
  | cons e q ih =>
      obtain ⟨d, x⟩ := e
      obtain rfl : d = 0 := h _ List.mem_cons_self
      simp only [due, List.map_cons, Nat.add_zero]
      rw [ih fun e he => h e (List.mem_cons_of_mem _ he)]

/-- The time of an entry is the sum of the delays up to it. -/
theorem getElem?_due (t : ℕ) (q : List (ℕ × κ)) (i : ℕ) :
    (due t q)[i]? = q[i]?.map fun e => (t + ((q.take (i + 1)).map Prod.fst).sum, e.2) := by
  induction q generalizing t i with
  | nil => rfl
  | cons e q ih =>
      cases i with
      | zero => simp [due]
      | succ i => simp [due, ih, Nat.add_assoc]

/-- **Insertion**: the new entry is due after its delay, all others when they were. -/
theorem due_insert (t d : ℕ) (x : κ) (q : List (ℕ × κ)) :
    (due t (insert d x q)).Perm ((t + d, x) :: due t q) := by
  induction q generalizing t d with
  | nil => exact .refl _
  | cons e q ih =>
      obtain ⟨e, y⟩ := e
      simp only [insert]
      split_ifs with h
      · have hsum : t + d + (e - d) = t + e := by omega
        simp [due, hsum]
      · have hsum : t + e + (d - e) = t + d := by omega
        have hi := ih (t + e) (d - e)
        rw [hsum] at hi
        exact (hi.cons (t + e, y)).trans (.swap _ _ _)

theorem insert_headPos {d : ℕ} (x : κ) {q : List (ℕ × κ)} (hd : 0 < d) (h : HeadPos q) :
    HeadPos (insert d x q) := by
  cases q with
  | nil => simpa [HeadPos, insert] using hd
  | cons e q =>
      obtain ⟨e, y⟩ := e
      have he : 0 < e := h (e, y) rfl
      simp only [insert]
      split_ifs
      · simpa [HeadPos] using hd
      · simpa [HeadPos] using he

theorem Within.insert {B : ℕ} {I : κ → Prop} {q : List (ℕ × κ)} (h : Within B I q) {d : ℕ} {x : κ}
    (hd : d ≤ B) (hx : I x) : Within B I (insert d x q) := by
  induction q generalizing d with
  | nil => simpa [Within, DeltaQueue.insert] using ⟨hd, hx⟩
  | cons e q ih =>
      obtain ⟨e, y⟩ := e
      obtain ⟨hey, hq⟩ := List.forall_mem_cons.mp h
      simp only [DeltaQueue.insert]
      split_ifs
      · exact List.forall_mem_cons.mpr ⟨⟨hd, hx⟩,
          List.forall_mem_cons.mpr ⟨⟨(Nat.sub_le _ _).trans hey.1, hey.2⟩, hq⟩⟩
      · exact List.forall_mem_cons.mpr ⟨hey, ih hq ((Nat.sub_le _ _).trans hd)⟩

/-- Every entry is due at or after the start of the queue. -/
theorem le_of_mem_due {t : ℕ} {q : List (ℕ × κ)} {e : ℕ × κ} (h : e ∈ due t q) : t ≤ e.1 := by
  induction q generalizing t with
  | nil => cases h
  | cons f q ih =>
      obtain ⟨d, x⟩ := f
      rcases List.mem_cons.mp h with rfl | h
      · exact Nat.le_add_right t d
      · exact le_trans (Nat.le_add_right t d) (ih h)

/-- If the head has a delay then nothing is due yet. -/
theorem lt_of_mem_due {t : ℕ} {q : List (ℕ × κ)} {e : ℕ × κ} (hq : HeadPos q)
    (h : e ∈ due t q) : t < e.1 := by
  cases q with
  | nil => cases h
  | cons f q =>
      obtain ⟨d, x⟩ := f
      have hd : 0 < d := hq (d, x) rfl
      rcases List.mem_cons.mp h with rfl | h
      · exact Nat.lt_add_of_pos_right hd
      · exact lt_of_lt_of_le (Nat.lt_add_of_pos_right hd) (le_of_mem_due h)

end DeltaQueue

open DeltaQueue

/-- Which entries come back after they fired, and after what period. -/
structure Repeater (κ : Type) where
  next : κ → Option (ℕ × κ)
  period_pos : ∀ {x p x'}, next x = some (p, x') → 0 < p

namespace Repeater
variable {κ : Type} (A : Repeater κ)

/-- All firings up to time `T` of an entry due at `t`. -/
def occ (T : ℕ) (e : ℕ × κ) : List (ℕ × κ) :=
  if _h : e.1 ≤ T then
    e :: match _hx : A.next e.2 with
      | none => []
      | some (p, x') => occ T (e.1 + p, x')
  else []
termination_by T + 1 - e.1
decreasing_by
  have := A.period_pos _hx
  omega

theorem occ_of_lt {T : ℕ} {e : ℕ × κ} (h : T < e.1) : A.occ T e = [] := by
  rw [occ, dif_neg (Nat.not_le.mpr h)]

theorem occ_of_none {T : ℕ} {e : ℕ × κ} (h : e.1 ≤ T) (hn : A.next e.2 = none) :
    A.occ T e = [e] := by
  rw [occ, dif_pos h]
  split
  · rfl
  · rename_i heq
    rw [hn] at heq
    cases heq

theorem occ_of_some {T p : ℕ} {e : ℕ × κ} {x' : κ} (h : e.1 ≤ T)
    (hn : A.next e.2 = some (p, x')) : A.occ T e = e :: A.occ T (e.1 + p, x') := by
  rw [occ, dif_pos h]
  split
  · rename_i heq
    rw [hn] at heq
    cases heq
  · rename_i heq
    rw [hn] at heq
    cases heq
    rfl

/-- Induction along the firings of an entry: it is late, it ends, or it comes back. -/
theorem occ_induction (T : ℕ) {motive : ℕ × κ → Prop}
    (late : ∀ e, T < e.1 → motive e)
    (last : ∀ e, e.1 ≤ T → A.next e.2 = none → motive e)
    (again : ∀ e p x', e.1 ≤ T → A.next e.2 = some (p, x') → motive (e.1 + p, x') → motive e)
    (e : ℕ × κ) : motive e := by
  obtain ⟨k, hk⟩ : ∃ k, T + 1 - e.1 ≤ k := ⟨_, le_rfl⟩
  induction k generalizing e with
  | zero => exact late e (by omega)
  | succ k ih =>
      rcases Nat.lt_or_ge T e.1 with h | h
      · exact late e h
      · cases hn : A.next e.2 with
        | none => exact last e h hn
        | some r =>
            obtain ⟨p, x'⟩ := r
            have hp := A.period_pos hn
            exact again e p x' h hn (ih _ (by omega))

theorem mem_occ_bounds {T : ℕ} {e f : ℕ × κ} (h : f ∈ A.occ T e) : e.1 ≤ f.1 ∧ f.1 ≤ T := by
  induction e using A.occ_induction T with
  | late e hlt => rw [A.occ_of_lt hlt] at h; cases h
  | last e hle hn =>
      rw [A.occ_of_none hle hn] at h
      obtain rfl := List.mem_singleton.mp h
      exact ⟨le_rfl, hle⟩
  | again e p x' hle hn ih =>
      rw [A.occ_of_some hle hn] at h
      rcases List.mem_cons.mp h with rfl | h
      · exact ⟨le_rfl, hle⟩
      · exact ⟨le_trans (Nat.le_add_right _ _) (ih h).1, (ih h).2⟩

/-- An entry fires at later and later times. -/
theorem occ_sorted (T : ℕ) (e : ℕ × κ) : (A.occ T e).Pairwise fun f g => f.1 < g.1 := by
  induction e using A.occ_induction T with
  | late e hlt => rw [A.occ_of_lt hlt]; exact .nil
  | last e hle hn => rw [A.occ_of_none hle hn]; exact List.pairwise_singleton _ _
  | again e p x' hle hn ih =>
      rw [A.occ_of_some hle hn]
      refine .cons (fun f hf => ?_) ih
      have := (A.mem_occ_bounds hf).1
      have := A.period_pos hn
      omega

/-- Back into the queue, if the entry comes back at all. -/
def requeue (x : κ) (q : List (ℕ × κ)) : List (ℕ × κ) :=
  match A.next x with
  | none => q
  | some (p, x') => insert p x' q

theorem requeue_headPos {x : κ} {q : List (ℕ × κ)} (h : HeadPos q) : HeadPos (A.requeue x q) := by
  unfold requeue
  split
  · exact h
  · rename_i p x' hn
    exact insert_headPos x' (A.period_pos hn) h

/-- An entry due at `t` fires now and, requeued, at all its later times. -/
theorem occ_requeue {T t : ℕ} (h : t ≤ T) (x : κ) (q : List (ℕ × κ)) :
    ((t, x) :: (due t (A.requeue x q)).flatMap (A.occ T)).Perm
      (A.occ T (t, x) ++ (due t q).flatMap (A.occ T)) := by
  unfold requeue
  cases hn : A.next x with
  | none => simp [A.occ_of_none (e := (t, x)) h hn]
  | some r =>
      obtain ⟨p, x'⟩ := r
      rw [A.occ_of_some (e := (t, x)) h hn, List.cons_append]
      have hd := (due_insert t p x' q).flatMap_right (A.occ T)
      rw [List.flatMap_cons] at hd
      exact hd.cons _

end Repeater

/-! ### The machine -/

/-- A clock, the queue in front of it and what was fired when. -/
structure Timeline (κ : Type) where
  now : ℕ
  queue : List (ℕ × κ)
  log : List (ℕ × κ)

namespace Repeater
variable {κ : Type} (A : Repeater κ)

/-- All entries at the front without delay are fired, then put back one after the other. -/
def fire (s : Timeline κ) : Timeline κ :=
  let ready := (s.queue.takeWhile fun e => e.1 == 0).map Prod.snd
  { now := s.now
    queue := ready.foldl (fun q x => A.requeue x q) (s.queue.dropWhile fun e => e.1 == 0)
    log := s.log ++ ready.map fun x => (s.now, x) }

/-- Time passes until the head of the queue is due. -/
def wait (s : Timeline κ) : Timeline κ :=
  match s.queue with
  | [] => s
  | (d, x) :: q => { s with now := s.now + d, queue := (0, x) :: q }

theorem wait_queue (s : Timeline κ) : (wait s).queue = zeroHead s.queue := by
  unfold wait
  split <;> simp [zeroHead, *]

/-- The state after the first firing and `n` more. -/
def firing (s : Timeline κ) : ℕ → Timeline κ
  | 0 => A.fire s
  | n + 1 => A.fire (wait (firing s n))

/-- What was fired and what the queue stands for make up the schedule `E`. -/
structure Pending (E : ℕ → List (ℕ × κ)) (s : Timeline κ) : Prop where
  account : ∀ T, s.now ≤ T → (s.log ++ (due s.now s.queue).flatMap (A.occ T)).Perm (E T)
  past : ∀ e ∈ s.log, e.1 ≤ s.now
  sorted : s.log.Pairwise fun e f => e.1 ≤ f.1

/-- The same after a firing, when nothing in the queue is due. -/
structure Fired (E : ℕ → List (ℕ × κ)) (s : Timeline κ) : Prop extends A.Pending E s where
  headPos : HeadPos s.queue

theorem requeueAll_headPos (ready : List κ) {q : List (ℕ × κ)} (h : HeadPos q) :
    HeadPos (ready.foldl (fun q x => A.requeue x q) q) := by
  induction ready generalizing q with
  | nil => exact h
  | cons x ready ih => exact ih (A.requeue_headPos h)

/-- Firing a batch and putting it back accounts for all its firings. -/
theorem occ_requeueAll {T t : ℕ} (h : t ≤ T) (ready : List κ) (q : List (ℕ × κ)) :
    ((ready.map fun x => (t, x)) ++
        (due t (ready.foldl (fun q x => A.requeue x q) q)).flatMap (A.occ T)).Perm
      ((ready.map fun x => (t, x)).flatMap (A.occ T) ++ (due t q).flatMap (A.occ T)) := by
  induction ready generalizing q with
  | nil => exact .refl _
  | cons x ready ih =>
      simp only [List.map_cons, List.foldl_cons, List.flatMap_cons, List.cons_append,
        List.append_assoc]
      refine ((ih (A.requeue x q)).cons (t, x)).trans ?_
      refine (List.perm_middle.symm).trans ?_
      refine ((A.occ_requeue h x q).append_left _).trans ?_
      rw [← List.append_assoc, ← List.append_assoc]
      exact List.perm_append_comm.append_right _

theorem fire_fired {E : ℕ → List (ℕ × κ)} {s : Timeline κ} (h : A.Pending E s) :
    A.Fired E (A.fire s) where
  account T hT := by
    set ready := (s.queue.takeWhile fun e => e.1 == 0).map Prod.snd with hr
    set rest := s.queue.dropWhile fun e => e.1 == 0 with hrest
    have hzero : ∀ e ∈ s.queue.takeWhile (fun e => e.1 == 0), e.1 = 0 := by
      intro e he
      simpa using List.mem_takeWhile_imp he
    have hsum : ((s.queue.takeWhile fun e => e.1 == 0).map Prod.fst).sum = 0 := by
      apply List.sum_eq_zero_iff_forall_eq_nat.mpr
      intro d hd
      obtain ⟨e, he, rfl⟩ := List.mem_map.mp hd
      exact hzero e he
    have hdue : due s.now s.queue = (ready.map fun x => (s.now, x)) ++ due s.now rest := by
      conv_lhs => rw [← List.takeWhile_append_dropWhile (p := fun e => e.1 == 0) (l := s.queue)]
      rw [due_append, hsum, Nat.add_zero, due_of_zero _ _ hzero, hr, List.map_map]
      rfl
    refine List.Perm.trans ?_ (h.account T hT)
    simp only [fire, List.append_assoc]
    refine List.Perm.append_left _ ?_
    rw [hdue, List.flatMap_append]
    exact A.occ_requeueAll hT ready rest
  past e he := by
    rcases List.mem_append.mp he with he | he
    · exact h.past e he
    · obtain ⟨x, -, rfl⟩ := List.mem_map.mp he
      exact le_rfl
  sorted := by
    refine List.pairwise_append.mpr ⟨h.sorted, ?_, ?_⟩
    · rw [List.pairwise_map]
      exact List.pairwise_of_forall fun _ _ => le_rfl
    · intro e he f hf
      obtain ⟨x, -, rfl⟩ := List.mem_map.mp hf
      exact h.past e he
  headPos := by
    apply A.requeueAll_headPos _
    intro e he
    have hne := List.head?_dropWhile_not (fun e : ℕ × κ => e.1 == 0) s.queue
    rw [Option.mem_def.mp he] at hne
    simpa [Nat.pos_iff_ne_zero] using hne

theorem wait_pending {E : ℕ → List (ℕ × κ)} {s : Timeline κ} (h : A.Fired E s) :
    A.Pending E (wait s) := by
  unfold wait
  split
  · exact h.toPending
  · rename_i d x q hq
    refine ⟨fun T hT => ?_, fun e he => ?_, h.sorted⟩
    · have hacc := h.account T (le_trans (Nat.le_add_right _ _) hT)
      rw [hq] at hacc
      exact hacc
    · exact le_trans (h.past e he) (Nat.le_add_right _ _)

/-- **Every run keeps the account**: started on `q`, it realises the schedule of `q`. -/
theorem firing_fired (q : List (ℕ × κ)) (n : ℕ) :
    A.Fired (fun T => (due 0 q).flatMap (A.occ T)) (A.firing ⟨0, q, []⟩ n) := by
  induction n with
  | zero => exact A.fire_fired ⟨fun T _ => .refl _, by simp, .nil⟩
  | succ n ih => exact A.fire_fired (A.wait_pending ih)

/-- At any time what was fired is exactly what was due up to then. -/
theorem Fired.log_perm {A : Repeater κ} {E : ℕ → List (ℕ × κ)} {s : Timeline κ}
    (h : A.Fired E s) : s.log.Perm (E s.now) := by
  have hnone : (due s.now s.queue).flatMap (A.occ s.now) = [] := by
    apply List.flatMap_eq_nil_iff.mpr
    intro e he
    exact A.occ_of_lt (lt_of_mem_due h.headPos he)
  simpa [hnone] using h.account s.now le_rfl

/-- The head of the queue is the next entry of the schedule. -/
theorem Fired.next_due {A : Repeater κ} {E : ℕ → List (ℕ × κ)} {s : Timeline κ}
    (h : A.Fired E s) {d : ℕ} {x : κ} {q : List (ℕ × κ)} (hq : s.queue = (d, x) :: q) :
    (s.now + d, x) ∈ E (s.now + d) ∧
      ∀ T, s.now ≤ T → ∀ e ∈ E T, s.now < e.1 → s.now + d ≤ e.1 := by
  constructor
  · refine (h.account _ (Nat.le_add_right _ _)).mem_iff.mp ?_
    refine List.mem_append_right _ (List.mem_flatMap.mpr ⟨(s.now + d, x), ?_, ?_⟩)
    · simp [hq, due]
    · rw [occ, dif_pos le_rfl]
      exact List.mem_cons_self
  · intro T hT e he hlt
    rcases List.mem_append.mp ((h.account T hT).mem_iff.mpr he) with he | he
    · exact absurd (h.past e he) (Nat.not_le.mpr hlt)
    · obtain ⟨f, hf, hef⟩ := List.mem_flatMap.mp he
      refine le_trans ?_ (A.mem_occ_bounds hef).1
      rw [hq] at hf
      rcases List.mem_cons.mp hf with rfl | hf
      · exact le_rfl
      · exact le_of_mem_due hf

/-- The queue is empty exactly when the schedule holds nothing later than now. -/
theorem Fired.queue_eq_nil_iff {A : Repeater κ} {E : ℕ → List (ℕ × κ)} {s : Timeline κ}
    (h : A.Fired E s) : s.queue = [] ↔ ∀ T, s.now ≤ T → ∀ e ∈ E T, e.1 ≤ s.now := by
  constructor
  · intro hq T hT e he
    have hacc := h.account T hT
    rw [hq] at hacc
    exact h.past e (by simpa [due] using hacc.mem_iff.mpr he)
  · intro hE
    cases hq : s.queue with
    | nil => rfl
    | cons f q =>
        obtain ⟨d, x⟩ := f
        have hd : 0 < d := h.headPos (d, x) (by simp [hq])
        have hlt : s.now + d ≤ s.now := hE _ (Nat.le_add_right _ _) _ (h.next_due hq).1
        omega

/-- Time goes on until the queue is empty. -/
theorem firing_progress (q : List (ℕ × κ)) (n : ℕ) :
    (A.firing ⟨0, q, []⟩ n).queue = [] ∨ n ≤ (A.firing ⟨0, q, []⟩ n).now := by
  induction n with
  | zero => exact Or.inr (Nat.zero_le _)
  | succ n ih =>
      have hf := (A.firing_fired q n).headPos
      cases hq : (A.firing ⟨0, q, []⟩ n).queue with
      | nil =>
          left
          simp [firing, wait, hq, fire]
      | cons f r =>
          obtain ⟨d, x⟩ := f
          have hd : 0 < d := hf (d, x) (by simp [hq])
          right
          have hn : n ≤ (A.firing ⟨0, q, []⟩ n).now := by simpa [hq] using ih
          simp only [firing, wait, hq, fire]
          omega

/-- A run stops only at times of the schedule. -/
theorem firing_now (q : List (ℕ × κ)) (n : ℕ) :
    (A.firing ⟨0, q, []⟩ n).now = 0 ∨
      ∃ e ∈ (A.firing ⟨0, q, []⟩ n).log, e.1 = (A.firing ⟨0, q, []⟩ n).now := by
  induction n with
  | zero => exact Or.inl rfl
  | succ n ih =>
      cases hq : (A.firing ⟨0, q, []⟩ n).queue with
      | nil => simpa [firing, wait, hq, fire] using ih
      | cons f r =>
          obtain ⟨d, x⟩ := f
          right
          refine ⟨((A.firing ⟨0, q, []⟩ n).now + d, x), ?_, ?_⟩ <;> simp [firing, wait, hq, fire]

/-- A run stops at every time of the schedule. -/
theorem firing_reaches (q : List (ℕ × κ)) {T : ℕ} {e : ℕ × κ}
    (he : e ∈ (due 0 q).flatMap (A.occ T)) : ∃ n, (A.firing ⟨0, q, []⟩ n).now = e.1 := by
  have hT : e.1 ≤ T := by
    obtain ⟨f, -, hf⟩ := List.mem_flatMap.mp he
    exact (A.mem_occ_bounds hf).2
  have hex : ∃ n, e.1 ≤ (A.firing ⟨0, q, []⟩ n).now := by
    rcases A.firing_progress q e.1 with hq | hle
    · refine ⟨e.1, ?_⟩
      by_contra hlt
      have hall := (A.firing_fired q e.1).queue_eq_nil_iff.mp hq T (by omega) e he
      omega
    · exact ⟨e.1, hle⟩
  -- the first stop at or behind `e.1`
  refine ⟨Nat.find hex, le_antisymm ?_ (Nat.find_spec hex)⟩
  cases hn : Nat.find hex with
  | zero => exact Nat.zero_le _
  | succ k =>
      have hlt : (A.firing ⟨0, q, []⟩ k).now < e.1 :=
        Nat.lt_of_not_le (Nat.find_min hex (hn ▸ Nat.lt_succ_self k))
      cases hq : (A.firing ⟨0, q, []⟩ k).queue with
      | nil => simpa [firing, wait, hq, fire] using hlt.le
      | cons f r =>
          obtain ⟨d, x⟩ := f
          have hnext := ((A.firing_fired q k).next_due hq).2 T (by omega) e he hlt
          simpa [firing, wait, hq, fire] using hnext

theorem requeueAll_within {B : ℕ} {I : κ → Prop}
    (hA : ∀ {x p x'}, I x → A.next x = some (p, x') → p ≤ B ∧ I x') {ready : List κ}
    {q : List (ℕ × κ)} (hready : ∀ x ∈ ready, I x) (hq : Within B I q) :
    Within B I (ready.foldl (fun q x => A.requeue x q) q) := by
  induction ready generalizing q with
  | nil => exact hq
  | cons x ready ih =>
      obtain ⟨hx, hready⟩ := List.forall_mem_cons.mp hready
      refine ih hready ?_
      simp only [requeue]
      split
      · exact hq
      · rename_i p x' hn
        exact hq.insert (hA hx hn).1 (hA hx hn).2

/-- Bounds on the delays of the queue and on the periods stay. -/
theorem firing_within {B : ℕ} {I : κ → Prop}
    (hA : ∀ {x p x'}, I x → A.next x = some (p, x') → p ≤ B ∧ I x') {q : List (ℕ × κ)}
    (hq : Within B I q) (n : ℕ) : Within B I (A.firing ⟨0, q, []⟩ n).queue := by
  have hfire : ∀ s : Timeline κ, Within B I s.queue → Within B I (A.fire s).queue := by
    intro s hs
    refine A.requeueAll_within hA ?_ fun e he => hs e (List.dropWhile_subset _ he)
    intro x hx
    obtain ⟨e, he, rfl⟩ := List.mem_map.mp hx
    exact (hs e (List.takeWhile_subset _ he)).2
  induction n with
  | zero => exact hfire _ hq
  | succ n ih =>
      refine hfire _ ?_
      unfold wait
      split
      · exact ih
      · rename_i d x r hr
        rw [hr] at ih
        obtain ⟨hx, hr⟩ := List.forall_mem_cons.mp ih
        exact List.forall_mem_cons.mpr ⟨⟨Nat.zero_le _, hx.2⟩, hr⟩

end Repeater
