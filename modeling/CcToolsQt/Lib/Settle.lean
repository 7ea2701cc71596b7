import Mathlib.Tactic.Common

/-! # Passes repeated until they settle

A pass over a state ends with the final state, or asks to be repeated from another state, or fails.
`run` repeats a pass so many times at most; `Settles` says that some number of times is enough.

* `settles_of_done`, `settles_of_again`: what a state settles to after one pass.
* `Settles.induct`: a relation of the first state and the last one goes through all passes. -/

namespace Settle
variable {σ : Type*}

inductive Pass (σ : Type*) where
  | done (s : σ)
  | again (s : σ)

def run (pass : σ → Option (Pass σ)) : ℕ → σ → Option σ
  | 0, _ => none
  | n + 1, s =>
      match pass s with
      | none => none
      | some (.done t) => some t
      | some (.again t) => run pass n t

def Settles (pass : σ → Option (Pass σ)) (s t : σ) : Prop := ∃ n, run pass n s = some t

variable {pass : σ → Option (Pass σ)} {s t u : σ}

theorem not_settles_of_none (h : pass s = none) : ¬ Settles pass s t := by
  rintro ⟨n, hn⟩
  cases n with
  | zero => cases hn
  | succ n => rw [run, h] at hn; cases hn

theorem settles_of_done (h : pass s = some (.done u)) : Settles pass s t ↔ t = u := by
  constructor
  · rintro ⟨n, hn⟩
    cases n with
    | zero => cases hn
    | succ n => rw [run, h] at hn; exact (Option.some.inj hn).symm
  · rintro rfl
    exact ⟨1, by rw [run, h]⟩

theorem settles_of_again (h : pass s = some (.again u)) : Settles pass s t ↔ Settles pass u t := by
  constructor
  · rintro ⟨n, hn⟩
    cases n with
    | zero => cases hn
    | succ n => rw [run, h] at hn; exact ⟨n, hn⟩
  · rintro ⟨n, hn⟩
    exact ⟨n + 1, by rw [run, h]; exact hn⟩

/-- Induction on the passes, from the last one to the first. -/
theorem Settles.induct {P : σ → σ → Prop} (hdone : ∀ s t, pass s = some (.done t) → P s t)
    (hagain : ∀ s u t, pass s = some (.again u) → P u t → P s t) (h : Settles pass s t) :
    P s t := by
  obtain ⟨n, hn⟩ := h
  induction n generalizing s with
  | zero => cases hn
  | succ n ih =>
      rw [run] at hn
      cases hpass : pass s with
      | none => rw [hpass] at hn; cases hn
      | some p =>
          rw [hpass] at hn
          cases p with
          | done u =>
              obtain rfl := Option.some.inj hn
              exact hdone s u hpass
          | again u => exact hagain s u t hpass (ih hn)

end Settle
