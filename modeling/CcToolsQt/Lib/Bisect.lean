import Mathlib.Data.List.Basic
import Mathlib.Data.List.TakeWhile
import Mathlib.Data.Nat.Basic
import Mathlib.Order.Lattice
import Mathlib.Tactic.Common

/-! # Binary search

The search behind `std::lower_bound` and `std::upper_bound`: the elements in front of the result
have a property and the result and those behind it do not, provided the list is partitioned so.
Nothing but the bounds is known of the result for other lists.

* `partitionPoint_le`: the result is a position of the list or its end.
* `partitionPoint_append`: the search on a partitioned list.
* `mem_iff_getElem?_partitionPoint`: a sorted list has an element if and only if the search for it
  ends there. -/

namespace Bisect
variable {α : Type*}

/-- The loop: `len` elements from `first` on are left. -/
def loop (p : ℕ → Bool) : ℕ → ℕ → ℕ → ℕ
  | 0, first, _ => first
  | fuel + 1, first, len =>
      if len = 0 then first
      else if p (first + len / 2) then loop p fuel (first + len / 2 + 1) (len - len / 2 - 1)
      else loop p fuel first (len / 2)

theorem loop_le (p : ℕ → Bool) (fuel first len : ℕ) : loop p fuel first len ≤ first + len := by
  induction fuel generalizing first len with
  | zero => exact Nat.le_add_right _ _
  | succ fuel ih =>
      unfold loop
      split_ifs with hlen hp
      · exact Nat.le_add_right _ _
      · have h := ih (first + len / 2 + 1) (len - len / 2 - 1)
        omega
      · have h := ih first (len / 2)
        omega

/-- The loop finds `k` if `p` holds in front of it and nowhere behind, each step leaving less than
the elements before. -/
theorem loop_eq {p : ℕ → Bool} {k fuel first len : ℕ} (hfuel : len ≤ fuel) (hfirst : first ≤ k)
    (hk : k ≤ first + len) (hp : ∀ i < first + len, p i = true ↔ i < k) :
    loop p fuel first len = k := by
  induction fuel generalizing first len with
  | zero =>
      rw [loop]
      omega
  | succ fuel ih =>
      unfold loop
      split_ifs with hlen hmid
      · omega
      · have hlt := (hp _ (by omega)).mp hmid
        exact ih (by omega) (by omega) (by omega) fun i hi => hp i (by omega)
      · have hge : ¬ first + len / 2 < k := fun h => hmid ((hp _ (by omega)).mpr h)
        exact ih (by omega) hfirst (by omega) fun i hi => hp i (by omega)

/-- Where the elements with the property end. -/
def partitionPoint (p : α → Bool) (l : List α) : ℕ :=
  loop (fun i => l[i]?.any p) l.length 0 l.length

theorem partitionPoint_le (p : α → Bool) (l : List α) : partitionPoint p l ≤ l.length := by
  have h := loop_le (fun i => l[i]?.any p) l.length 0 l.length
  rwa [Nat.zero_add] at h

/-- **The search on a partitioned list.** -/
theorem partitionPoint_append {p : α → Bool} {l₁ l₂ : List α} (h₁ : ∀ x ∈ l₁, p x = true)
    (h₂ : ∀ x ∈ l₂, p x = false) : partitionPoint p (l₁ ++ l₂) = l₁.length := by
  refine loop_eq le_rfl (Nat.zero_le _) (by simp) fun i hi => ?_
  rw [Nat.zero_add] at hi
  by_cases hlt : i < l₁.length
  · rw [List.getElem?_append_left hlt, List.getElem?_eq_getElem hlt]
    exact iff_of_true (h₁ _ (List.getElem_mem hlt)) hlt
  · have hlt₂ : i - l₁.length < l₂.length := by
      rw [List.length_append] at hi
      omega
    rw [List.getElem?_append_right (not_lt.mp hlt), List.getElem?_eq_getElem hlt₂]
    exact iff_of_false (by simp [h₂ _ (List.getElem_mem hlt₂)]) hlt

/-- The elements behind the front of a partitioned list. -/
theorem mem_dropWhile_false {p : α → Bool} {l : List α}
    (h : l.Pairwise fun x y => p y = true → p x = true) : ∀ y ∈ l.dropWhile p, p y = false := by
  have hpairs := h.sublist (List.dropWhile_sublist p)
  have hhead := List.head?_dropWhile_not p l
  cases hd : l.dropWhile p with
  | nil => exact fun y hy => absurd hy List.not_mem_nil
  | cons z rest =>
      rw [hd, List.head?_cons] at hhead
      rw [hd] at hpairs
      have hz : p z = false := by simpa using hhead
      refine List.forall_mem_cons.mpr ⟨hz, fun y hy => ?_⟩
      rw [← Bool.not_eq_true] at hz ⊢
      exact fun hy' => hz ((List.pairwise_cons.mp hpairs).1 y hy hy')

/-- On a partitioned list the search finds the first element without the property. -/
theorem getElem?_partitionPoint {p : α → Bool} {l : List α}
    (h : l.Pairwise fun x y => p y = true → p x = true) :
    l[partitionPoint p l]? = l.find? fun x => !p x := by
  have hfront : ∀ y ∈ l.takeWhile p, p y = true := fun y hy => List.mem_takeWhile_imp hy
  have hpoint := partitionPoint_append hfront (mem_dropWhile_false h)
  have hfind : (l.takeWhile p ++ l.dropWhile p)[(l.takeWhile p).length]? = (l.dropWhile p)[0]? := by
    rw [List.getElem?_append_right le_rfl, Nat.sub_self]
  rw [List.takeWhile_append_dropWhile] at hpoint hfind
  rw [hpoint, hfind, ← List.head?_eq_getElem?, ← List.find?_not_eq_head?_dropWhile]

/-- The first element of a sorted list that is not less than `v` is `v` itself, should the list
have it. -/
theorem find?_eq_some_iff_mem [LinearOrder α] [DecidableLT α] {l : List α}
    (h : l.Pairwise (· ≤ ·)) (v : α) :
    l.find? (fun x => !decide (x < v)) = some v ↔ v ∈ l := by
  refine ⟨List.mem_of_find?_eq_some, fun hv => ?_⟩
  induction l with
  | nil => cases hv
  | cons x l ih =>
      obtain ⟨hx, hl⟩ := List.pairwise_cons.mp h
      rcases List.mem_cons.mp hv with rfl | hv
      · exact List.find?_cons_of_pos (by simp)
      · by_cases hlt : x < v
        · rw [List.find?_cons_of_neg (by simp [hlt])]
          exact ih hl hv
        · obtain rfl : x = v := le_antisymm (hx v hv) (not_lt.mp hlt)
          exact List.find?_cons_of_pos (by simp)

/-- **The search for an element of a sorted list.** -/
theorem mem_iff_getElem?_partitionPoint [LinearOrder α] [DecidableLT α] {l : List α}
    (h : l.Pairwise (· ≤ ·)) (v : α) :
    l[partitionPoint (fun x => decide (x < v)) l]? = some v ↔ v ∈ l := by
  rw [getElem?_partitionPoint, find?_eq_some_iff_mem h]
  refine h.imp fun hxy hy => ?_
  rw [decide_eq_true_iff] at hy ⊢
  exact hxy.trans_lt hy

end Bisect
