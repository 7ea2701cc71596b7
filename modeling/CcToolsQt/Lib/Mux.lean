import Mathlib.Data.List.Induction
import Mathlib.Tactic.Common

/-! # One machine for several streams

A machine reads one symbol at a time, `step : σ → ι → σ × List ο`.  `run` runs it on one stream;
`runTagged` runs it on several streams at once, whose symbols arrive tagged with the stream they
belong to, in any order.  The machine does not see the tags.

* `runTagged_own`: if the machine is back where it started whenever the stream changes, every
  stream is read as it is alone. -/

namespace Mux
variable {κ σ ι ο : Type}

/-! ### Runs -/

/-- One stream. -/
def run (step : σ → ι → σ × List ο) (s : σ) : List ι → σ × List ο
  | [] => (s, [])
  | i :: is =>
      let r := step s i
      let r' := run step r.1 is
      (r'.1, r.2 ++ r'.2)

/-- Several streams, the output of a symbol tagged as the symbol is. -/
def runTagged (step : σ → ι → σ × List ο) (s : σ) : List (κ × ι) → σ × List (κ × ο)
  | [] => (s, [])
  | e :: es =>
      let r := step s e.2
      let r' := runTagged step r.1 es
      (r'.1, r.2.map (fun o => (e.1, o)) ++ r'.2)

/-- The machine does not see the tags. -/
theorem runTagged_state (step : σ → ι → σ × List ο) (s : σ) (es : List (κ × ι)) :
    (runTagged step s es).1 = (run step s (es.map Prod.snd)).1 := by
  induction es generalizing s with
  | nil => rfl
  | cons e es ih => exact ih _

theorem run_concat (step : σ → ι → σ × List ο) (s : σ) (is : List ι) (i : ι) :
    run step s (is ++ [i]) =
      ((step (run step s is).1 i).1, (run step s is).2 ++ (step (run step s is).1 i).2) := by
  induction is generalizing s with
  | nil => simp [run]
  | cons j is ih => simp only [List.cons_append, run, ih, List.append_assoc]

theorem runTagged_concat (step : σ → ι → σ × List ο) (s : σ) (es : List (κ × ι)) (e : κ × ι) :
    runTagged step s (es ++ [e]) =
      ((step (runTagged step s es).1 e.2).1,
        (runTagged step s es).2 ++
          (step (runTagged step s es).1 e.2).2.map fun o => (e.1, o)) := by
  induction es generalizing s with
  | nil => simp [runTagged]
  | cons e' es ih => simp only [List.cons_append, runTagged, ih, List.append_assoc]

/-! ### One of several streams -/

/-- Whenever the stream changes, the machine is in the state `s`. -/
def Separated (step : σ → ι → σ × List ο) (s : σ) (es : List (κ × ι)) : Prop :=
  ∀ pre e e' post, es = pre ++ e :: e' :: post → e.1 ≠ e'.1 →
    (runTagged step s (pre ++ [e])).1 = s

variable {step : σ → ι → σ × List ο} {s : σ} {es : List (κ × ι)} {e : κ × ι}

theorem Separated.init (h : Separated step s (es ++ [e])) : Separated step s es := by
  intro pre e₁ e₂ post hes hne
  exact h pre e₁ e₂ (post ++ [e]) (by rw [hes]; simp) hne

theorem Separated.change {l : κ × ι} (h : Separated step s ((es ++ [l]) ++ [e]))
    (hne : l.1 ≠ e.1) : (runTagged step s (es ++ [l])).1 = s :=
  h es l e [] (by simp) hne

variable [DecidableEq κ]

/-- The part of stream `k`. -/
def own {τ : Type} (k : κ) (es : List (κ × τ)) : List τ :=
  (es.filter fun e => e.1 = k).map Prod.snd

theorem own_append {τ : Type} (k : κ) (es es' : List (κ × τ)) :
    own k (es ++ es') = own k es ++ own k es' := by
  rw [own, List.filter_append, List.map_append]
  rfl

theorem own_concat_self {τ : Type} (es : List (κ × τ)) (e : κ × τ) :
    own e.1 (es ++ [e]) = own e.1 es ++ [e.2] := by
  rw [own_append]
  simp [own]

theorem own_concat_of_ne {τ : Type} {k : κ} {e : κ × τ} (h : e.1 ≠ k) (es : List (κ × τ)) :
    own k (es ++ [e]) = own k es := by
  rw [own_append]
  simp [own, h]

/-- The symbols of a stream that comes in pieces. -/
theorem flatten_own_concat {τ : Type} (k : κ) (es : List (κ × List τ)) (e : κ × List τ) :
    (own k (es ++ [e])).flatten = (own k es).flatten ++ if e.1 = k then e.2 else [] := by
  rw [own_append, List.flatten_append]
  by_cases h : e.1 = k
  · simp [own, h]
  · simp [own, h]

theorem own_tagged {τ : Type} (k k' : κ) (os : List τ) :
    own k (os.map fun o => (k', o)) = if k' = k then os else [] := by
  induction os with
  | nil => simp [own]
  | cons o os ih =>
      by_cases h : k' = k
      · simpa [own, h] using ih
      · simp [own, h]

/-- The stream that is to be read finds the machine where it left it, and all others are where
they started. -/
theorem Separated.resume (h : Separated step s (es ++ [e])) :
    (runTagged step s es).1 = (run step s (own e.1 es)).1 ∧
      ∀ k, k ≠ e.1 → (run step s (own k es)).1 = s := by
  induction es using List.reverseRecOn generalizing e with
  | nil => exact ⟨rfl, fun _ _ => rfl⟩
  | append_singleton es l ih =>
      obtain ⟨hl, hidle⟩ := ih h.init
      have hafter : (runTagged step s (es ++ [l])).1 = (run step s (own l.1 (es ++ [l]))).1 := by
        rw [runTagged_concat, own_concat_self, run_concat, hl]
      constructor
      · by_cases hne : l.1 = e.1
        · rw [hafter, hne]
        · rw [h.change hne, own_concat_of_ne hne, hidle e.1 (Ne.symm hne)]
      · intro k hk
        by_cases hl : l.1 = k
        · subst hl
          rw [← hafter, h.change hk]
        · rw [own_concat_of_ne hl, hidle k (Ne.symm hl)]

/-- **Streams that do not interfere**: every one of them is read as it is alone. -/
theorem runTagged_own (h : Separated step s es) (k : κ) :
    own k (runTagged step s es).2 = (run step s (own k es)).2 := by
  induction es using List.reverseRecOn with
  | nil => rfl
  | append_singleton es e ih =>
      rw [runTagged_concat, own_append, own_tagged, ih h.init]
      by_cases hk : e.1 = k
      · subst hk
        rw [if_pos rfl, own_concat_self, run_concat, h.resume.1]
      · rw [if_neg hk, own_concat_of_ne hk, List.append_nil]

end Mux
