import Mathlib.Data.List.Basic
import Mathlib.Tactic.Common

/-! # Signals and their observers

A signal tells a value to its observers in the order they were connected.  What an observer does
with it, its slot, may fail, and may tell the observers another value before it returns.  Each
observer keeps the value it was told last.

* `emit_append`: the observers are told one after the other.
* `emit_stores`: observers that only store the value all have it in the end, and nothing else
  changes. -/

namespace Signal
variable {ι V σ ρ : Type*}

/-- The value is told to a list of observers. -/
def emit (slot : ι → V → σ → Option σ) (v : V) : List ι → σ → Option σ
  | [], s => some s
  | o :: os, s => (slot o v s).bind (emit slot v os)

theorem emit_append (slot : ι → V → σ → Option σ) (v : V) (os os' : List ι) (s : σ) :
    emit slot v (os ++ os') s = (emit slot v os s).bind (emit slot v os') := by
  induction os generalizing s with
  | nil => rfl
  | cons o os ih =>
      simp only [List.cons_append, emit]
      cases slot o v s with
      | none => rfl
      | some s' => exact ih s'

theorem emit_congr {slot slot' : ι → V → σ → Option σ} {v : V} {os : List ι}
    (h : ∀ o ∈ os, ∀ s, slot o v s = slot' o v s) (s : σ) :
    emit slot v os s = emit slot' v os s := by
  induction os generalizing s with
  | nil => rfl
  | cons o os ih =>
      obtain ⟨ho, hos⟩ := List.forall_mem_cons.mp h
      simp only [emit, ho]
      cases slot' o v s with
      | none => rfl
      | some s' => exact ih hos s'

/-- An observer keeps the value it is told and changes nothing else; `rest` is what is not kept by
an observer. -/
def Stores (slot : ι → V → σ → Option σ) (cache : σ → ι → V) (rest : σ → ρ) (v : V) (o : ι) :
    Prop :=
  ∀ s, ∃ s', slot o v s = some s' ∧ cache s' o = v ∧ (∀ i ≠ o, cache s' i = cache s i) ∧
    rest s' = rest s

/-- **Observers that store the value** all have it once they have been told. -/
theorem emit_stores {slot : ι → V → σ → Option σ} {cache : σ → ι → V} {rest : σ → ρ} {v : V}
    {os : List ι} (h : ∀ o ∈ os, Stores slot cache rest v o) (s : σ) :
    ∃ s', emit slot v os s = some s' ∧ (∀ o ∈ os, cache s' o = v) ∧ rest s' = rest s := by
  suffices hs : ∃ s', emit slot v os s = some s' ∧ (∀ o ∈ os, cache s' o = v) ∧
      (∀ o, cache s o = v → cache s' o = v) ∧ rest s' = rest s by
    obtain ⟨s', hs', hall, -, hrest⟩ := hs
    exact ⟨s', hs', hall, hrest⟩
  induction os generalizing s with
  | nil => exact ⟨s, rfl, by simp, fun _ => id, rfl⟩
  | cons o os ih =>
      obtain ⟨ho, hos⟩ := List.forall_mem_cons.mp h
      obtain ⟨s₁, hs₁, hown, hother, hrest₁⟩ := ho s
      obtain ⟨s', hs', hall, hkept, hrest⟩ := ih hos s₁
      refine ⟨s', ?_, List.forall_mem_cons.mpr ⟨hkept o hown, hall⟩, ?_, hrest.trans hrest₁⟩
      · rw [emit, hs₁, Option.bind_some, hs']
      · intro i hi
        by_cases hio : i = o
        · exact hkept i (hio ▸ hown)
        · exact hkept i ((hother i hio).trans hi)

end Signal
