import Mathlib.Data.List.Nodup
import Mathlib.Tactic.Common

/-! # Runs

A system is a function `step` from a state and an event to the next state, a run a list of events.
`Always` is about the states of a run, the first and the last one included, `Along` about its
steps.

* `invariant`: what every legal step keeps holds in every state of a run of legal steps.
* `always_iff_along`: a property that a step keeps exactly under a condition holds in every state
  of a run if and only if every step of the run meets the condition.
* `along_iff_along`: the same for two conditions on the steps.

Which steps are legal may depend on a record of the events so far, kept by `next`. -/

namespace Runs
variable {σ ε κ : Type*}

/-- Every state of a run has a property. -/
def Always (step : σ → ε → σ) (s : σ) (evs : List ε) (G : σ → Prop) : Prop :=
  ∀ pre post, evs = pre ++ post → G (pre.foldl step s)

/-- Every step of a run meets a condition on the state before it and its event. -/
def Along (step : σ → ε → σ) (s : σ) (evs : List ε) (K : σ → ε → Prop) : Prop :=
  ∀ pre e post, evs = pre ++ e :: post → K (pre.foldl step s) e

section
variable {step : σ → ε → σ} {s : σ} {e : ε} {evs : List ε}

theorem always_nil {G : σ → Prop} : Always step s [] G ↔ G s := by
  constructor
  · intro h
    exact h [] [] rfl
  · intro h pre post heq
    obtain ⟨rfl, -⟩ := List.append_eq_nil_iff.mp heq.symm
    exact h

theorem always_cons {G : σ → Prop} :
    Always step s (e :: evs) G ↔ G s ∧ Always step (step s e) evs G := by
  constructor
  · intro h
    exact ⟨h [] _ rfl, fun pre post heq => h (e :: pre) post (congrArg (e :: ·) heq)⟩
  · rintro ⟨hs, h⟩ pre post heq
    cases pre with
    | nil => exact hs
    | cons e' pre =>
        obtain ⟨rfl, rfl⟩ := List.cons.inj heq
        exact h pre post rfl

theorem Always.last {G : σ → Prop} (h : Always step s evs G) : G (evs.foldl step s) :=
  h evs [] (List.append_nil _).symm

theorem along_nil {K : σ → ε → Prop} : Along step s [] K := by
  intro pre e post heq
  cases pre <;> cases heq

theorem along_cons {K : σ → ε → Prop} :
    Along step s (e :: evs) K ↔ K s e ∧ Along step (step s e) evs K := by
  constructor
  · intro h
    exact ⟨h [] e evs rfl, fun pre e' post heq => h (e :: pre) e' post (congrArg (e :: ·) heq)⟩
  · rintro ⟨he, h⟩ pre e' post heq
    cases pre with
    | nil =>
        obtain ⟨rfl, rfl⟩ := List.cons.inj heq
        exact he
    | cons e'' pre =>
        obtain ⟨rfl, rfl⟩ := List.cons.inj heq
        exact h pre e' post rfl

theorem Along.mono {K K' : σ → ε → Prop} (h : Along step s evs K)
    (hK : ∀ s e, K s e → K' s e) : Along step s evs K' :=
  fun pre e post heq => hK _ _ (h pre e post heq)

theorem Along.and {K K' : σ → ε → Prop} (h : Along step s evs K) (h' : Along step s evs K') :
    Along step s evs fun s e => K s e ∧ K' s e :=
  fun pre e post heq => ⟨h pre e post heq, h' pre e post heq⟩

/-- What holds of every state holds after every step. -/
theorem Always.along_next {G : σ → Prop} (h : Always step s evs G) :
    Along step s evs fun s e => G (step s e) := by
  intro pre e post heq
  have hnext : G ((pre ++ [e]).foldl step s) := h (pre ++ [e]) post (by simp [heq])
  rwa [List.foldl_append] at hnext

/-- A condition on the events alone. -/
theorem along_iff_forall {K : ε → Prop} : Along step s evs (fun _ e => K e) ↔ ∀ e ∈ evs, K e := by
  constructor
  · intro h e he
    obtain ⟨pre, post, heq⟩ := List.append_of_mem he
    exact h pre e post heq
  · rintro h pre e post rfl
    exact h e (List.mem_append_right _ List.mem_cons_self)

theorem along_congr {K K' : σ → ε → Prop} (hK : ∀ s e, K s e ↔ K' s e) :
    Along step s evs K ↔ Along step s evs K' :=
  ⟨fun h => h.mono fun s e => (hK s e).mp, fun h => h.mono fun s e => (hK s e).mpr⟩

end

/-- What every event of a run brings in, none of it twice, is new at that event. -/
theorem along_fresh {α : Type*} {new : ε → List α} {evs : List ε} {earlier : List α}
    (hnd : (earlier ++ evs.flatMap new).Nodup) :
    Along (fun seen e => seen ++ new e) earlier evs
      fun seen e => (new e).Nodup ∧ seen.Disjoint (new e) := by
  induction evs generalizing earlier with
  | nil => exact along_nil
  | cons e evs ih =>
      rw [List.flatMap_cons, ← List.append_assoc] at hnd
      obtain ⟨-, hnew, hd⟩ := List.nodup_append'.mp (List.nodup_append'.mp hnd).1
      exact along_cons.mpr ⟨⟨hnew, hd⟩, ih hnd⟩

section
variable {step : σ → ε → σ} {next : κ → ε → κ} {I : κ → σ → Prop} {L : κ → ε → Prop}
variable (hstep : ∀ k s e, L k e → I k s → I (next k e) (step s e))
include hstep

/-- **What every legal step keeps** holds in every state of a run of legal steps. -/
theorem invariant {evs : List ε} {k : κ} {s : σ} (hI : I k s) (hL : Along next k evs L) :
    I (evs.foldl next k) (evs.foldl step s) := by
  induction evs generalizing k s with
  | nil => exact hI
  | cons e evs ih =>
      obtain ⟨he, hL⟩ := along_cons.mp hL
      exact ih (hstep k s e he hI) hL

/-- The invariant of the states inside a run. -/
theorem always_invariant {evs : List ε} {k : κ} {s : σ} {G : σ → Prop} (hG : ∀ k s, I k s → G s)
    (hI : I k s) (hL : Along next k evs L) : Always step s evs G := by
  rintro pre post rfl
  exact hG _ _ (invariant hstep hI fun pre' e post' heq =>
    hL pre' e (post' ++ post) (by simp [heq]))

/-- **A property kept exactly under a condition** holds in every state of a run if and only if every
step of the run meets the condition. -/
theorem always_iff_along {G : σ → Prop} {K : σ → ε → Prop}
    (hkeep : ∀ k s e, L k e → I k s → G s → (G (step s e) ↔ K s e))
    {evs : List ε} {k : κ} {s : σ} (hI : I k s) (hG : G s) (hL : Along next k evs L) :
    Always step s evs G ↔ Along step s evs K := by
  induction evs generalizing k s with
  | nil => exact iff_of_true (always_nil.mpr hG) along_nil
  | cons e evs ih =>
      obtain ⟨he, hL⟩ := along_cons.mp hL
      rw [always_cons, along_cons, and_iff_right hG]
      constructor
      · intro h
        have hG' : G (step s e) := h [] evs rfl
        exact ⟨(hkeep k s e he hI hG).mp hG', (ih (hstep k s e he hI) hG' hL).mp h⟩
      · rintro ⟨hK, h⟩
        have hG' : G (step s e) := (hkeep k s e he hI hG).mpr hK
        exact (ih (hstep k s e he hI) hG' hL).mpr h

end

/-- The same for an invariant that does not depend on the events so far. -/
theorem always_iff_along_of_inv {step : σ → ε → σ} {I G : σ → Prop} {K : σ → ε → Prop}
    (hstep : ∀ s e, I s → I (step s e))
    (hkeep : ∀ s e, I s → G s → (G (step s e) ↔ K s e))
    {evs : List ε} {s : σ} (hI : I s) (hG : G s) :
    Always step s evs G ↔ Along step s evs K := by
  have hstep' : ∀ (k : Unit) s e, True → I s → I (step s e) := fun _ s e _ => hstep s e
  have hlegal : Along (fun (_ : Unit) (_ : ε) => ()) () evs fun _ _ => True :=
    fun _ _ _ _ => trivial
  exact always_iff_along hstep' (fun _ s e _ => hkeep s e) hI hG hlegal

/-- What every step keeps holds in every state of a run. -/
theorem always_of_inv {step : σ → ε → σ} {I : σ → Prop} (hstep : ∀ s e, I s → I (step s e))
    {evs : List ε} {s : σ} (hI : I s) : Always step s evs I := by
  induction evs generalizing s with
  | nil => exact always_nil.mpr hI
  | cons e evs ih => exact always_cons.mpr ⟨hI, ih (hstep s e hI)⟩

/-- What a step keeps under a condition holds at the end of a run that meets the condition. -/
theorem along_invariant {step : σ → ε → σ} {I : σ → Prop} {K : σ → ε → Prop}
    (hstep : ∀ s e, I s → K s e → I (step s e)) {evs : List ε} {s : σ} (hI : I s)
    (hK : Along step s evs K) : I (evs.foldl step s) := by
  induction evs generalizing s with
  | nil => exact hI
  | cons e evs ih =>
      obtain ⟨he, hK⟩ := along_cons.mp hK
      exact ih (hstep s e hI he) hK

/-- What a step keeps under a condition on its state, along a run that meets the condition. -/
theorem always_of_along {step : σ → ε → σ} {next : κ → ε → κ} {I : κ → σ → Prop}
    {L : κ → ε → Prop} {K : σ → ε → Prop} {G : σ → Prop}
    (hstep : ∀ k s e, L k e → I k s → K s e → I (next k e) (step s e)) (hG : ∀ k s, I k s → G s)
    {evs : List ε} {k : κ} {s : σ} (hI : I k s) (hL : Along next k evs L)
    (hK : Along step s evs K) : Always step s evs G := by
  induction evs generalizing k s with
  | nil => exact always_nil.mpr (hG k s hI)
  | cons e evs ih =>
      obtain ⟨he, hL⟩ := along_cons.mp hL
      obtain ⟨hKe, hK⟩ := along_cons.mp hK
      exact always_cons.mpr ⟨hG k s hI, ih (hstep k s e he hI hKe) hL hK⟩

/-- **Conditions that agree while one of them is met** are met along the same runs. -/
theorem along_iff_along {step : σ → ε → σ} {next : κ → ε → κ} {I : κ → σ → Prop}
    {L : κ → ε → Prop} {P K : σ → ε → Prop}
    (hstep : ∀ k s e, L k e → I k s → K s e → I (next k e) (step s e))
    (hiff : ∀ k s e, L k e → I k s → (P s e ↔ K s e))
    {evs : List ε} {k : κ} {s : σ} (hI : I k s) (hL : Along next k evs L) :
    Along step s evs P ↔ Along step s evs K := by
  induction evs generalizing k s with
  | nil => exact iff_of_true along_nil along_nil
  | cons e evs ih =>
      obtain ⟨he, hL⟩ := along_cons.mp hL
      rw [along_cons, along_cons, hiff k s e he hI]
      exact and_congr_right fun hKe => ih (hstep k s e he hI hKe) hL

end Runs
