import Mathlib.Data.List.Basic
import Mathlib.Tactic.Common

/-! # Trees given by their members

A type whose values have a list of members of the same type.  `Everywhere` says a property of a
value and of everything below it, `nodeAt` follows a path of indices, and `updateAt` changes what is
at the end of one.

* `everywhere_iff`: a property holds everywhere if it holds of the value and everywhere below.
* `Everywhere.nodeAt`: what holds everywhere holds everywhere below the end of a path.
* `nodeAt_updateAt`: the end of the path is what it was changed to. -/

namespace Members
variable {τ : Type*}

/-- A property of a value and of all members below it. -/
inductive Everywhere (members : τ → List τ) (P : τ → Prop) : τ → Prop
  | intro (t : τ) (h : P t) (hmembers : ∀ m ∈ members t, Everywhere members P m) :
      Everywhere members P t

section everywhere
variable {members : τ → List τ} {P Q : τ → Prop} {t : τ}

theorem everywhere_iff :
    Everywhere members P t ↔ P t ∧ ∀ m ∈ members t, Everywhere members P m := by
  constructor
  · rintro ⟨_, h, hmembers⟩
    exact ⟨h, hmembers⟩
  · rintro ⟨h, hmembers⟩
    exact .intro t h hmembers

theorem Everywhere.here (h : Everywhere members P t) : P t := (everywhere_iff.mp h).1

theorem Everywhere.member (h : Everywhere members P t) {m : τ} (hm : m ∈ members t) :
    Everywhere members P m := (everywhere_iff.mp h).2 m hm

/-- What follows of a value from a property everywhere below it holds everywhere. -/
theorem Everywhere.imp (h : Everywhere members P t)
    (himp : ∀ t, Everywhere members P t → Q t) : Everywhere members Q t := by
  induction h with
  | intro t h hmembers ih => exact .intro t (himp t (.intro t h hmembers)) ih

end everywhere

/-- The value at the end of a path. -/
def nodeAt (members : τ → List τ) : τ → List ℕ → Option τ
  | t, [] => some t
  | t, i :: path => (members t)[i]?.bind fun m => nodeAt members m path

/-- A change at the end of a path. -/
def updateAt (members : τ → List τ) (withMembers : τ → List τ → τ) (f : τ → τ) :
    τ → List ℕ → τ
  | t, [] => f t
  | t, i :: path =>
      withMembers t ((members t).modify i fun m => updateAt members withMembers f m path)

section paths
variable {members : τ → List τ} {withMembers : τ → List τ → τ} {P : τ → Prop} {f : τ → τ}

theorem Everywhere.nodeAt {t n : τ} (h : Everywhere members P t) {path : List ℕ}
    (hpath : nodeAt members t path = some n) : Everywhere members P n := by
  induction path generalizing t with
  | nil => exact Option.some.inj hpath ▸ h
  | cons i path ih =>
      obtain ⟨m, hm, hpath⟩ := Option.bind_eq_some_iff.mp hpath
      exact ih (h.member (List.mem_of_getElem? hm)) hpath

theorem nodeAt_append {t : τ} {path below : List ℕ} :
    nodeAt members t (path ++ below) =
      (nodeAt members t path).bind fun n => nodeAt members n below := by
  induction path generalizing t with
  | nil => rfl
  | cons i path ih =>
      rw [List.cons_append, nodeAt, nodeAt, Option.bind_assoc]
      exact Option.bind_congr fun m _ => ih

theorem mem_modify {α : Type*} {l : List α} {i : ℕ} {g : α → α} {a : α} (h : a ∈ l.modify i g) :
    a ∈ l ∨ ∃ b, l[i]? = some b ∧ a = g b := by
  obtain ⟨j, hj⟩ := List.mem_iff_getElem?.mp h
  rw [List.getElem?_modify] at hj
  obtain ⟨b, hb, rfl⟩ := Option.map_eq_some_iff.mp hj
  split_ifs with hij
  · exact .inr ⟨b, hij ▸ hb, rfl⟩
  · exact .inl (List.mem_of_getElem? hb)

theorem nodeAt_updateAt (hmembers : ∀ t ms, members (withMembers t ms) = ms) {t n : τ}
    {path : List ℕ} (hpath : nodeAt members t path = some n) :
    nodeAt members (updateAt members withMembers f t path) path = some (f n) := by
  induction path generalizing t with
  | nil => exact congrArg (some ∘ f) (Option.some.inj hpath)
  | cons i path ih =>
      obtain ⟨m, hm, hpath⟩ := Option.bind_eq_some_iff.mp hpath
      rw [updateAt, nodeAt, hmembers, List.getElem?_modify, hm]
      simp only [if_true, Option.map_eq_map, Option.map_some, Option.bind_some]
      exact ih hpath

end paths

end Members
