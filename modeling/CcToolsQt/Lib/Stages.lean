import Mathlib.Data.List.Forall2
import Mathlib.Tactic.Common

/-! # Stateful stages in a row

A stage is an object with an operation `op : φ → β → φ × List β` that takes one block and gives
the object afterwards with the blocks it puts out, none, one or several.  `passAll` passes a list
of blocks through one stage, `cascade` through a list of stages, the whole output of a stage being
the input of the next one.

* `cascade_append`: passing a second list after a first one is passing both together, so it does
  not matter whether blocks go through the stages one by one or stage by stage.
* `cascade_mirrors`: if every stage is undone by its peer, the stages in reverse order are undone
  by the peers in order.
* `cascade_output`: a cascade that is undone swallows nothing. -/

namespace Stages
variable {φ β : Type}

/-! ### One stage -/

/-- All blocks through one stage. -/
def passAll (op : φ → β → φ × List β) (f : φ) : List β → φ × List β
  | [] => (f, [])
  | d :: ds =>
      let r := op f d
      let r' := passAll op r.1 ds
      (r'.1, r.2 ++ r'.2)

@[simp] theorem passAll_nil (op : φ → β → φ × List β) (f : φ) : passAll op f [] = (f, []) := rfl

theorem passAll_append (op : φ → β → φ × List β) (f : φ) (ds es : List β) :
    passAll op f (ds ++ es) =
      ((passAll op (passAll op f ds).1 es).1,
        (passAll op f ds).2 ++ (passAll op (passAll op f ds).1 es).2) := by
  induction ds generalizing f with
  | nil => rfl
  | cons d ds ih => simp only [List.cons_append, passAll, ih, List.append_assoc]

/-! ### Stages in a row -/

/-- All blocks through the first stage, what comes out through the next one, and so on. -/
def cascade (op : φ → β → φ × List β) : List φ → List β → List φ × List β
  | [], ds => ([], ds)
  | f :: fs, ds =>
      let r := passAll op f ds
      let r' := cascade op fs r.2
      (r.1 :: r'.1, r'.2)

@[simp] theorem cascade_no_stage (op : φ → β → φ × List β) (ds : List β) :
    cascade op [] ds = ([], ds) := rfl

/-- Without blocks nothing happens. -/
@[simp] theorem cascade_nil (op : φ → β → φ × List β) (fs : List φ) :
    cascade op fs [] = (fs, []) := by
  induction fs with
  | nil => rfl
  | cons f fs ih => simp only [cascade, passAll_nil, ih]

/-- Two rows of stages, one behind the other. -/
theorem cascade_stages_append (op : φ → β → φ × List β) (fs gs : List φ) (ds : List β) :
    cascade op (fs ++ gs) ds =
      ((cascade op fs ds).1 ++ (cascade op gs (cascade op fs ds).2).1,
        (cascade op gs (cascade op fs ds).2).2) := by
  induction fs generalizing ds with
  | nil => rfl
  | cons f fs ih => simp only [List.cons_append, cascade, ih]

/-- **One list after another**: the stages keep their own order of blocks. -/
theorem cascade_append (op : φ → β → φ × List β) (fs : List φ) (ds es : List β) :
    cascade op fs (ds ++ es) =
      ((cascade op (cascade op fs ds).1 es).1,
        (cascade op fs ds).2 ++ (cascade op (cascade op fs ds).1 es).2) := by
  induction fs generalizing ds es with
  | nil => rfl
  | cons f fs ih => simp only [cascade, passAll_append, ih]

theorem length_cascade (op : φ → β → φ × List β) (fs : List φ) (ds : List β) :
    (cascade op fs ds).1.length = fs.length := by
  induction fs generalizing ds with
  | nil => rfl
  | cons f fs ih => simp only [cascade, List.length_cons, ih]

/-! ### Stages that are undone -/

/-- Whatever is passed through `send` of the stage is, in total, what `recv` of a copy of the
stage makes of the output, up to `R` on the way and at the end. -/
def Mirrors (R : β → β → Prop) (send recv : φ → β → φ × List β) (f : φ) : Prop :=
  ∀ ds es, List.Forall₂ R (passAll send f ds).2 es → List.Forall₂ R ds (passAll recv f es).2

variable {R : β → β → Prop} {send recv : φ → β → φ × List β} {fs : List φ}

/-- **The cascade is undone by its mirror.** -/
theorem cascade_mirrors (hfs : ∀ f ∈ fs, Mirrors R send recv f) (ds es : List β)
    (h : List.Forall₂ R (cascade send fs.reverse ds).2 es) :
    List.Forall₂ R ds (cascade recv fs es).2 := by
  induction fs generalizing es with
  | nil => simpa using h
  | cons f fs ih =>
      -- the first stage of the receiving side undoes the last one of the sending side
      have hf : Mirrors R send recv f := hfs f List.mem_cons_self
      rw [List.reverse_cons, cascade_stages_append] at h
      have hmid : List.Forall₂ R (cascade send fs.reverse ds).2 (passAll recv f es).2 := hf _ _ h
      exact ih (fun g hg => hfs g (List.mem_cons_of_mem _ hg)) _ hmid

/-- A cascade that is undone puts something out for every block, whatever went before. -/
theorem cascade_output (hR : ∀ d, R d d) (hfs : ∀ f ∈ fs, Mirrors R send recv f) (ds : List β)
    (d : β) : (cascade send (cascade send fs.reverse ds).1 [d]).2 ≠ [] := by
  intro hnil
  set out := (cascade send fs.reverse ds).2 with hout
  have happ : (cascade send fs.reverse (ds ++ [d])).2 = out := by
    rw [cascade_append, hnil, List.append_nil]
  have hrefl : List.Forall₂ R out out := List.forall₂_same.mpr fun x _ => hR x
  have h₁ := (cascade_mirrors hfs ds out hrefl).length_eq
  have h₂ := (cascade_mirrors hfs (ds ++ [d]) out (by rw [happ]; exact hrefl)).length_eq
  rw [List.length_append, List.length_singleton, ← h₁] at h₂
  omega

end Stages
