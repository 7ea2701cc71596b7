import Mathlib.Data.List.Basic
import Mathlib.Logic.Function.Basic
import Mathlib.Tactic.Common

/-! # Files

A disk with finitely many files: names of type `ν`, contents that are lists of `β`.

* `put`, `remove` and `rename` are the calls that succeed; one lemma each says what a file holds
  afterwards.
* `freeName` is the loop that derives name after name until one is not in use; it ends because
  every derived name is larger than the one before (`lt_size_freeName`).
* `Replaced` is what replacing a file all or nothing means. -/

namespace Files

/-- The files of a disk; `names` lists at least the names in use. -/
structure Disk (ν β : Type*) where
  names : List ν
  content : ν → Option (List β)
  listed : ∀ {n}, (content n).isSome = true → n ∈ names

namespace Disk
variable {ν β : Type*}

/-- A name is in use. -/
def inUse (d : Disk ν β) (n : ν) : Bool := (d.content n).isSome

theorem content_eq_none {d : Disk ν β} {n : ν} : d.content n = none ↔ d.inUse n = false := by
  unfold inUse
  cases d.content n <;> simp

section
variable [DecidableEq ν] (d : Disk ν β)

/-- A file is written: created, or its content replaced. -/
def put (n : ν) (b : List β) : Disk ν β where
  names := n :: d.names
  content := Function.update d.content n (some b)
  listed := by
    intro m hm
    by_cases h : m = n
    · exact h ▸ List.mem_cons_self
    · rw [Function.update_of_ne h] at hm
      exact List.mem_cons_of_mem _ (d.listed hm)

/-- A file is removed. -/
def remove (n : ν) : Disk ν β where
  names := d.names
  content := Function.update d.content n none
  listed := by
    intro m hm
    by_cases h : m = n
    · rw [h, Function.update_self] at hm
      cases hm
    · rw [Function.update_of_ne h] at hm
      exact d.listed hm

/-- A file gets another name; nothing happens without the file. -/
def rename (n m : ν) : Disk ν β :=
  match d.content n with
  | some b => (d.remove n).put m b
  | none => d

variable {d} {n m : ν} {b : List β}

@[simp] theorem content_put : (d.put n b).content n = some b := Function.update_self ..

theorem content_put_of_ne (h : m ≠ n) : (d.put n b).content m = d.content m :=
  Function.update_of_ne h ..

@[simp] theorem content_remove : (d.remove n).content n = none := Function.update_self ..

theorem content_remove_of_ne (h : m ≠ n) : (d.remove n).content m = d.content m :=
  Function.update_of_ne h ..

theorem content_rename (h : d.content n = some b) : (d.rename n m).content m = some b := by
  unfold rename
  rw [h]
  exact content_put

end

/-! ### A name that is not in use -/

/-- The names in use that are larger than `k`. -/
def larger (d : Disk ν β) (size : ν → ℕ) (k : ℕ) : ℕ := d.names.countP (k < size ·)

/-- A larger name in use leaves fewer names above it. -/
theorem larger_lt {d : Disk ν β} {n m : ν} {size : ν → ℕ} (huse : d.inUse m = true)
    (hlt : size n < size m) :
    d.larger size (size m) < d.larger size (size n) := by
  have hmem : m ∈ d.names := d.listed huse
  unfold larger
  obtain ⟨pre, post, hsplit⟩ := List.append_of_mem hmem
  have hle : ∀ l : List ν, l.countP (size m < size ·) ≤ l.countP (size n < size ·) := fun l =>
    List.countP_mono_left fun x _ hx => by
      have hx' : size m < size x := of_decide_eq_true hx
      exact decide_eq_true (Nat.lt_trans hlt hx')
  have hpre := hle pre
  have hpost := hle post
  rw [hsplit, List.countP_append, List.countP_append,
    List.countP_cons_of_neg (by simp), List.countP_cons_of_pos (by simpa using hlt)]
  omega

section
variable {next : ν → ν} {size : ν → ℕ}

/-- Name after name until one is not in use. -/
def freeName (hnext : ∀ n, size n < size (next n)) (d : Disk ν β) (n : ν) : ν :=
  if d.inUse (next n) = true then freeName hnext d (next n) else next n
termination_by d.larger size (size n)
decreasing_by exact larger_lt ‹_› (hnext n)

variable (hnext : ∀ n, size n < size (next n)) (d : Disk ν β) (n : ν)

theorem lt_size_freeName : size n < size (d.freeName hnext n) := by
  induction n using freeName.induct hnext d with
  | case1 n huse ih =>
      rw [freeName, if_pos huse]
      exact Nat.lt_trans (hnext n) ih
  | case2 n hfree =>
      rw [freeName, if_neg hfree]
      exact hnext n

theorem freeName_ne : d.freeName hnext n ≠ n := by
  intro h
  have hlt := lt_size_freeName hnext d n
  rw [h] at hlt
  exact Nat.lt_irrefl _ hlt

end

end Disk

/-- **All or nothing.** A failed replacement of the file `n` leaves it as it was, a successful one
leaves exactly the new content. -/
structure Replaced {ν β : Type*} (n : ν) (b : List β) (ok : Bool) (d d' : Disk ν β) : Prop where
  kept : ok = false → d'.content n = d.content n
  complete : ok = true → d'.content n = some b

namespace Replaced
variable {ν β : Type*} {n : ν} {b : List β} {d d' : Disk ν β}

theorem failed_iff : Replaced n b false d d' ↔ d'.content n = d.content n := by
  constructor
  · intro h
    exact h.kept rfl
  · intro h
    exact ⟨fun _ => h, nofun⟩

theorem succeeded_iff : Replaced n b true d d' ↔ d'.content n = some b := by
  constructor
  · intro h
    exact h.complete rfl
  · intro h
    exact ⟨nofun, fun _ => h⟩

end Replaced

end Files
