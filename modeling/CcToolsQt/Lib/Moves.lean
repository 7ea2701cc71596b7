import Mathlib.Data.List.InsertIdx
import Mathlib.Data.List.Perm.Basic
import Mathlib.Data.Nat.Basic
import Mathlib.Data.List.Nodup
import Mathlib.Tactic.Common

/-! # Moving one element of a list

`relocate l i j` takes the element at `i` out and puts it back at `j`.

* `relocate_left`, `relocate_right`: the elements between the two places move by one.
* `filter_relocate_iff`: when the elements with a property keep their order. -/

namespace Moves
variable {α : Type*}

/-- The element at `i` goes to `j`. -/
def relocate (l : List α) (i j : ℕ) : List α :=
  match l[i]? with
  | none => l
  | some x => (l.eraseIdx i).insertIdx j x

theorem insertIdx_length (a b : List α) (x : α) : (a ++ b).insertIdx a.length x = a ++ x :: b := by
  induction a with
  | nil => rfl
  | cons y a ih => rw [List.cons_append, List.length_cons, List.insertIdx_succ_cons, ih]; rfl

theorem insertIdx_append_left {l : List α} {j : ℕ} (hj : j ≤ l.length) (r : List α) (x : α) :
    (l ++ r).insertIdx j x = l.insertIdx j x ++ r := by
  have hlen : (l.take j).length = j := by rw [List.length_take, min_eq_left hj]
  have hl := insertIdx_length (l.take j) (l.drop j) x
  have hlr := insertIdx_length (l.take j) (l.drop j ++ r) x
  rw [hlen, List.take_append_drop] at hl
  rw [hlen, ← List.append_assoc, List.take_append_drop] at hlr
  rw [hl, hlr, List.append_assoc, List.cons_append]

theorem relocate_append (a b : List α) (x : α) (j : ℕ) :
    relocate (a ++ x :: b) a.length j = (a ++ b).insertIdx j x := by
  have hx : (a ++ x :: b)[a.length]? = some x := by
    rw [List.getElem?_append_right le_rfl, Nat.sub_self]
    rfl
  rw [relocate, hx]
  dsimp only
  rw [List.eraseIdx_append_of_length_le le_rfl, Nat.sub_self, List.eraseIdx_cons_zero]

/-- **To the left**, past the elements of `b`. -/
theorem relocate_left (a b c : List α) (x : α) :
    relocate (a ++ b ++ x :: c) (a.length + b.length) a.length = a ++ x :: (b ++ c) := by
  rw [← List.length_append, relocate_append, List.append_assoc, insertIdx_length]

/-- **To the right**, past the elements of `b`. -/
theorem relocate_right (a b c : List α) (x : α) :
    relocate (a ++ x :: (b ++ c)) a.length (a.length + b.length) = a ++ b ++ x :: c := by
  rw [relocate_append, ← List.append_assoc, ← List.length_append, insertIdx_length]

theorem relocate_map {β : Type*} (f : α → β) (l : List α) (i j : ℕ) :
    relocate (l.map f) i j = (relocate l i j).map f := by
  unfold relocate
  rw [List.getElem?_map]
  cases l[i]? with
  | none => rfl
  | some x => simp [List.eraseIdx_map, List.map_insertIdx]

/-- What stands behind the list stays there. -/
theorem relocate_append_of_lt {l : List α} {i j : ℕ} (hi : i < l.length) (hj : j < l.length)
    (r : List α) : relocate (l ++ r) i j = relocate l i j ++ r := by
  have hlen : (l.eraseIdx i).length = l.length - 1 := List.length_eraseIdx_of_lt hi
  unfold relocate
  rw [List.getElem?_append_left hi, List.getElem?_eq_getElem hi]
  dsimp only
  rw [List.eraseIdx_append_of_lt_length hi, insertIdx_append_left (by omega)]

theorem mem_of_mem_relocate {l : List α} {i j : ℕ} {y : α} (h : y ∈ relocate l i j) : y ∈ l := by
  unfold relocate at h
  split at h
  · exact h
  · next x hx =>
      rcases List.eq_or_mem_of_mem_insertIdx h with rfl | hy
      · exact List.mem_of_getElem? hx
      · exact (List.eraseIdx_sublist l i).subset hy

theorem length_relocate_le (l : List α) (i j : ℕ) : (relocate l i j).length ≤ l.length := by
  unfold relocate
  cases hx : l[i]? with
  | none => exact le_rfl
  | some x =>
      obtain ⟨hi, -⟩ := List.getElem?_eq_some_iff.mp hx
      have hlen : (l.eraseIdx i).length = l.length - 1 := List.length_eraseIdx_of_lt hi
      dsimp only
      rw [List.length_insertIdx, hlen]
      split_ifs <;> omega

theorem relocate_perm {l : List α} {i j : ℕ} (hj : j < l.length) :
    (relocate l i j).Perm l := by
  unfold relocate
  cases hx : l[i]? with
  | none => exact .refl _
  | some x =>
      obtain ⟨hi, rfl⟩ := List.getElem?_eq_some_iff.mp hx
      have hlen : (l.eraseIdx i).length = l.length - 1 := List.length_eraseIdx_of_lt hi
      refine (List.perm_insertIdx l[i] _ (by omega)).trans ?_
      exact List.getElem_cons_eraseIdx_perm hi

/-- An element and a place at or to the left of it. -/
theorem exists_split_left {l : List α} {i j : ℕ} {x : α} (hx : l[i]? = some x) (hj : j ≤ i) :
    ∃ a b c, l = a ++ b ++ x :: c ∧ a.length = j ∧ a.length + b.length = i := by
  obtain ⟨hi, rfl⟩ := List.getElem?_eq_some_iff.mp hx
  refine ⟨l.take j, (l.take i).drop j, l.drop (i + 1), ?_, ?_, ?_⟩
  · have htake : l.take j = (l.take i).take j := by rw [List.take_take, min_eq_left hj]
    rw [htake, List.take_append_drop, List.getElem_cons_drop, List.take_append_drop]
  · rw [List.length_take]
    omega
  · rw [List.length_drop, List.length_take, List.length_take]
    omega

/-- An element and a place at or to the right of it. -/
theorem exists_split_right {l : List α} {i j : ℕ} {x : α} (hx : l[i]? = some x) (hj : i ≤ j)
    (hlt : j < l.length) :
    ∃ a b c, l = a ++ x :: (b ++ c) ∧ a.length = i ∧ a.length + b.length = j := by
  obtain ⟨hi, rfl⟩ := List.getElem?_eq_some_iff.mp hx
  refine ⟨l.take i, (l.drop (i + 1)).take (j - i), (l.drop (i + 1)).drop (j - i), ?_, ?_, ?_⟩
  · rw [List.take_append_drop, List.getElem_cons_drop, List.take_append_drop]
  · rw [List.length_take]
    omega
  · rw [List.length_take, List.length_take, List.length_drop]
    omega

/-- **An element that passes others** keeps the order of those with a property exactly if it does
not have it or none of the others does. -/
theorem filter_swap_iff {p : α → Bool} {a b c : List α} {x : α} (hx : p x = true → x ∉ b) :
    (a ++ x :: (b ++ c)).filter p = (a ++ b ++ x :: c).filter p ↔
      (p x = true → b.filter p = []) := by
  cases hp : p x with
  | false => simp [hp]
  | true =>
      simp only [List.filter_append, List.filter_cons_of_pos hp, List.append_assoc,
        List.append_cancel_left_eq, forall_const]
      have hnot : x ∉ b.filter p := fun h => hx hp (List.mem_of_mem_filter h)
      constructor
      · intro h
        cases hb : b.filter p with
        | nil => rfl
        | cons y b' =>
            rw [hb, List.cons_append] at h
            rw [hb, (List.cons.inj h).1] at hnot
            exact absurd List.mem_cons_self hnot
      · intro h
        rw [h]
        rfl

end Moves
