import CcToolsQt.Lib.Runs

/-! # Runs that can stop

A step from a state and an event leads to the next state or stops with an outcome, and a run goes on
as long as none of its steps has stopped.

* `bind_eq_ok`, `map_eq_ok`, `ite_eq_ok`: what a computation went through that has not stopped.
* `StopsBy`: which outcomes a computation can stop with.
* `refines`: a run that has not stopped follows an abstract run, whose steps cannot stop.
* `isOk_iff`: which runs do not stop. -/

namespace Stops
variable {ω σ ε α β : Type*}

theorem bind_eq_ok {x : Except ω α} {f : α → Except ω β} {b : β} :
    x.bind f = .ok b ↔ ∃ a, x = .ok a ∧ f a = .ok b := by
  cases x with
  | error stop =>
      refine iff_of_false (fun h => ?_) ?_
      · cases h
      · rintro ⟨a, h, -⟩
        cases h
  | ok a =>
      constructor
      · intro h
        exact ⟨a, rfl, h⟩
      · rintro ⟨a', h, hb⟩
        rw [Except.ok.inj h]
        exact hb

theorem map_eq_ok {x : Except ω α} {f : α → β} {b : β} :
    x.map f = .ok b ↔ ∃ a, x = .ok a ∧ f a = b := by
  cases x with
  | error stop =>
      refine iff_of_false (fun h => ?_) ?_
      · cases h
      · rintro ⟨a, h, -⟩
        cases h
  | ok a =>
      constructor
      · intro h
        exact ⟨a, rfl, Except.ok.inj h⟩
      · rintro ⟨a', h, rfl⟩
        rw [Except.ok.inj h]
        rfl

theorem ite_eq_ok {p : Prop} [Decidable p] {x : Except ω α} {stop : ω} {a : α} :
    (if p then x else .error stop) = .ok a ↔ p ∧ x = .ok a := by
  split_ifs with hp
  · exact (and_iff_right hp).symm
  · refine iff_of_false (fun h => ?_) fun h => hp h.1
    cases h

theorem isOk_iff_exists {x : Except ω α} : x.isOk = true ↔ ∃ a, x = .ok a := by
  cases x with
  | error stop =>
      refine iff_of_false Bool.false_ne_true ?_
      rintro ⟨a, h⟩
      cases h
  | ok a => exact iff_of_true rfl ⟨a, rfl⟩

/-- A computation stops with outcomes that have a property only. -/
def StopsBy (P : ω → Prop) (x : Except ω α) : Prop := ∀ stop, x = .error stop → P stop

section stopsBy
variable {P : ω → Prop} {x : Except ω α}

theorem stopsBy_ok (a : α) : StopsBy P (.ok a : Except ω α) := by
  intro stop h
  cases h

theorem stopsBy_error {stop : ω} (h : P stop) : StopsBy P (.error stop : Except ω α) := by
  intro stop' h'
  obtain rfl := Except.error.inj h'
  exact h

theorem StopsBy.bind {f : α → Except ω β} (h : StopsBy P x)
    (hf : ∀ a, x = .ok a → StopsBy P (f a)) : StopsBy P (x.bind f) := by
  cases x with
  | error stop => exact stopsBy_error (h stop rfl)
  | ok a => exact hf a rfl

theorem StopsBy.map (h : StopsBy P x) (f : α → β) : StopsBy P (x.map f) := by
  cases x with
  | error stop => exact stopsBy_error (h stop rfl)
  | ok a => exact stopsBy_ok _

theorem stopsBy_ite {p : Prop} [Decidable p] {stop : ω} (hstop : P stop)
    (h : p → StopsBy P x) : StopsBy P (if p then x else .error stop) := by
  split_ifs with hp
  · exact h hp
  · exact stopsBy_error hstop

/-- What stops with such outcomes only does not stop if it has none of them. -/
theorem StopsBy.isOk_iff (h : StopsBy P x) :
    x.isOk = true ↔ ∀ stop, P stop → x ≠ .error stop := by
  cases x with
  | error stop =>
      exact iff_of_false Bool.false_ne_true fun hnot => hnot stop (h stop rfl) rfl
  | ok a =>
      refine iff_of_true rfl fun stop _ heq => ?_
      cases heq

end stopsBy

section refinement
variable {step : σ → ε → Except ω σ} {next : α → ε → α} {abstract : σ → α}
variable {I : σ → Prop} {L : α → ε → Prop}
variable (hstep : ∀ s e s', I s → L (abstract s) e → step s e = .ok s' →
  I s' ∧ abstract s' = next (abstract s) e)
include hstep

/-- **A run that has not stopped** follows the abstract run. -/
theorem refines {evs : List ε} {s s' : σ} (hI : I s) (hL : Runs.Along next (abstract s) evs L)
    (h : evs.foldlM step s = .ok s') : I s' ∧ abstract s' = evs.foldl next (abstract s) := by
  induction evs generalizing s with
  | nil =>
      obtain rfl := Except.ok.inj h
      exact ⟨hI, rfl⟩
  | cons e evs ih =>
      rw [List.foldlM_cons] at h
      obtain ⟨mid, hmid, h⟩ := bind_eq_ok.mp h
      obtain ⟨he, hL⟩ := Runs.along_cons.mp hL
      obtain ⟨hI, habstract⟩ := hstep s e mid hI he hmid
      rw [List.foldl_cons, ← habstract]
      exact ih hI (habstract ▸ hL) h

/-- A run stops with what its steps stop with. -/
theorem stopsBy_foldlM {P : ω → Prop}
    (hstop : ∀ s e, I s → L (abstract s) e → StopsBy P (step s e)) {evs : List ε} {s : σ} (hI : I s)
    (hL : Runs.Along next (abstract s) evs L) : StopsBy P (evs.foldlM step s) := by
  induction evs generalizing s with
  | nil => exact stopsBy_ok s
  | cons e evs ih =>
      rw [List.foldlM_cons]
      obtain ⟨he, hL⟩ := Runs.along_cons.mp hL
      refine (hstop s e hI he).bind fun mid hmid => ?_
      obtain ⟨hI, habstract⟩ := hstep s e mid hI he hmid
      exact ih hI (habstract ▸ hL)

/-- **A run does not stop** if and only if every state of the abstract run has a property, provided
a step does not stop exactly if it leads to a state that has it. -/
theorem isOk_iff {G : α → Prop}
    (hok : ∀ s e, I s → L (abstract s) e →
      ((step s e).isOk = true ↔ G (next (abstract s) e)))
    {evs : List ε} {s : σ} (hI : I s) (hG : G (abstract s))
    (hL : Runs.Along next (abstract s) evs L) :
    (evs.foldlM step s).isOk = true ↔ Runs.Always next (abstract s) evs G := by
  induction evs generalizing s with
  | nil => exact iff_of_true rfl (Runs.always_nil.mpr hG)
  | cons e evs ih =>
      obtain ⟨he, hL⟩ := Runs.along_cons.mp hL
      have hiff := hok s e hI he
      rw [List.foldlM_cons, Runs.always_cons, and_iff_right hG]
      cases hmid : step s e with
      | error stop =>
          rw [hmid] at hiff
          refine iff_of_false (fun h => absurd h Bool.false_ne_true) fun h => ?_
          exact absurd (hiff.mpr (h [] evs rfl)) Bool.false_ne_true
      | ok mid =>
          rw [hmid] at hiff
          obtain ⟨hI, habstract⟩ := hstep s e mid hI he hmid
          rw [← habstract] at hL hiff ⊢
          exact ih hI (hiff.mp rfl) hL

end refinement

end Stops
