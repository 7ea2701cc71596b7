import Mathlib.Data.List.Nodup
import Mathlib.Data.Set.Defs
import Mathlib.Logic.Function.Basic
import Mathlib.Tactic.Common

/-! # Sections of a shared store

Components save their states in one store that all of them share, and load them from it.  Each
component owns the keys it writes and reads (`Owns`).

* `value_saveAll`: after every component of a list has saved, the keys of each hold what it alone
  would have written.
* `loadAll_saveAll`: loading from a store that agrees with the one saved on these keys gives each
  component what it loads from its own section. -/

namespace Sections

/-- A component with states in `S`; saving may change its state. -/
structure Component (M S : Type*) where
  save : S → M → S × M
  load : S → M → S

variable {ι M K V : Type*} {S : ι → Type*} (value : K → M → V)

/-- A component writes and reads these keys only, and what it writes does not depend on what the
store held before. -/
structure Owns {S : Type*} (c : Component M S) (keys : Set K) : Prop where
  frame : ∀ s m k, k ∉ keys → value k (c.save s m).2 = value k m
  writes : ∀ s m m' k, k ∈ keys → value k (c.save s m).2 = value k (c.save s m').2
  reads : ∀ s m m', (∀ k ∈ keys, value k m = value k m') → c.load s m = c.load s m'

variable [DecidableEq ι] (c : ∀ i, Component M (S i))

/-- Every component of a list saves, one after the other. -/
def saveAll : List ι → (∀ i, S i) → M → (∀ i, S i) × M
  | [], s, m => (s, m)
  | i :: is, s, m =>
      let (si, m) := (c i).save (s i) m
      saveAll is (Function.update s i si) m

/-- Every component of a list loads. -/
def loadAll (m : M) : List ι → (∀ i, S i) → (∀ i, S i)
  | [], s => s
  | i :: is, s => loadAll m is (Function.update s i ((c i).load (s i) m))

variable {c} {i : ι} {is : List ι} {m m' m₀ : M} {s t : ∀ i, S i}

theorem loadAll_of_not_mem (h : i ∉ is) : loadAll c m is s i = s i := by
  induction is generalizing s with
  | nil => rfl
  | cons j is ih =>
      rw [List.mem_cons, not_or] at h
      rw [loadAll, ih h.2, Function.update_of_ne h.1]

theorem loadAll_of_mem (hnodup : is.Nodup) (h : i ∈ is) :
    loadAll c m is s i = (c i).load (s i) m := by
  induction is generalizing s with
  | nil => cases h
  | cons j is ih =>
      obtain ⟨hj, hnodup⟩ := List.nodup_cons.mp hnodup
      rw [loadAll]
      rcases List.mem_cons.mp h with rfl | hi
      · rw [loadAll_of_not_mem hj, Function.update_self]
      · have hne : i ≠ j := by
          rintro rfl
          exact hj hi
        rw [ih hnodup hi, Function.update_of_ne hne]

variable {value} {keys : ι → Set K} (hown : ∀ i, Owns value (c i) (keys i))
include hown

theorem value_saveAll_of_not_mem {k : K} (h : ∀ j ∈ is, k ∉ keys j) :
    value k (saveAll c is s m).2 = value k m := by
  induction is generalizing s m with
  | nil => rfl
  | cons j is ih =>
      rw [saveAll, ih fun j hj => h j (List.mem_cons_of_mem _ hj)]
      exact (hown j).frame _ _ _ (h j List.mem_cons_self)

variable (hdisj : ∀ i j, i ≠ j → ∀ k ∈ keys i, k ∉ keys j)
include hdisj

/-- What the keys of a component hold after all have saved. -/
theorem value_saveAll (hnodup : is.Nodup) (h : i ∈ is) {k : K} (hk : k ∈ keys i) :
    value k (saveAll c is s m).2 = value k ((c i).save (s i) m₀).2 := by
  induction is generalizing s m with
  | nil => cases h
  | cons j is ih =>
      obtain ⟨hj, hnodup⟩ := List.nodup_cons.mp hnodup
      rw [saveAll]
      rcases List.mem_cons.mp h with rfl | hi
      · have hother : ∀ j ∈ is, k ∉ keys j := by
          intro j hmem hkj
          have hne : i ≠ j := by
            rintro rfl
            exact hj hmem
          exact hdisj i j hne k hk hkj
        rw [value_saveAll_of_not_mem hown hother]
        exact (hown i).writes _ _ _ _ hk
      · have hne : i ≠ j := by
          rintro rfl
          exact hj hi
        rw [ih hnodup hi, Function.update_of_ne hne]

/-- **Loading what was saved** gives each component what it loads from its own section. -/
theorem loadAll_saveAll (hnodup : is.Nodup) (h : i ∈ is)
    (hm : ∀ k ∈ keys i, value k m' = value k (saveAll c is s m).2) :
    loadAll c m' is t i = (c i).load (t i) ((c i).save (s i) m₀).2 := by
  rw [loadAll_of_mem hnodup h]
  apply (hown i).reads
  intro k hk
  rw [hm k hk]
  exact value_saveAll hown hdisj hnodup h hk

end Sections
