import Mathlib.Data.List.Forall2
import CcToolsQt.Lib.Members

/-! # Two trees in step

Two trees given by their members are mirrored by a relation if they have the same shape and the
relation holds between the values at the end of every path.

* `mirrored_iff`: the values at the top are related, and the members pairwise mirrored.
* `Mirrored.nodeAt`: what is at the end of a path in one tree is mirrored in the other one. -/

namespace Members
variable {τ υ : Type*} {members : τ → List τ} {members' : υ → List υ} {R : τ → υ → Prop}

/-- Two trees of one shape, related at the end of every path. -/
inductive Mirrored (members : τ → List τ) (members' : υ → List υ) (R : τ → υ → Prop) :
    τ → υ → Prop
  | intro (t : τ) (u : υ) (h : R t u) (hlength : (members t).length = (members' u).length)
      (hmembers : ∀ (i : ℕ) m m', (members t)[i]? = some m → (members' u)[i]? = some m' →
        Mirrored members members' R m m') : Mirrored members members' R t u

theorem forall₂_iff_getElem? {α β : Type*} {S : α → β → Prop} {l : List α} {l' : List β} :
    List.Forall₂ S l l' ↔ l.length = l'.length ∧
      ∀ (i : ℕ) a b, l[i]? = some a → l'[i]? = some b → S a b := by
  induction l generalizing l' with
  | nil =>
      cases l' with
      | nil => simp
      | cons b l' => exact iff_of_false (fun h => by cases h) (by simp)
  | cons a l ih =>
      cases l' with
      | nil => exact iff_of_false (fun h => by cases h) (by simp)
      | cons b l' =>
          rw [List.forall₂_cons, ih, List.length_cons, List.length_cons, Nat.add_right_cancel_iff]
          constructor
          · rintro ⟨hab, hlength, h⟩
            refine ⟨hlength, fun i c d hc hd => ?_⟩
            cases i with
            | zero =>
                obtain rfl := Option.some.inj hc
                obtain rfl := Option.some.inj hd
                exact hab
            | succ i => exact h i c d hc hd
          · rintro ⟨hlength, h⟩
            exact ⟨h 0 a b rfl rfl, hlength, fun i c d hc hd => h (i + 1) c d hc hd⟩

variable {t m : τ} {u m' : υ}

theorem mirrored_iff : Mirrored members members' R t u ↔
    R t u ∧ List.Forall₂ (Mirrored members members' R) (members t) (members' u) := by
  rw [forall₂_iff_getElem?]
  constructor
  · rintro ⟨_, _, h, hlength, hmembers⟩
    exact ⟨h, hlength, hmembers⟩
  · rintro ⟨h, hlength, hmembers⟩
    exact .intro t u h hlength hmembers

theorem Mirrored.here (h : Mirrored members members' R t u) : R t u := (mirrored_iff.mp h).1

theorem Mirrored.pairs (h : Mirrored members members' R t u) :
    List.Forall₂ (Mirrored members members' R) (members t) (members' u) := (mirrored_iff.mp h).2

/-- Trees related by what the relation implies. -/
theorem Mirrored.imp {S : τ → υ → Prop} (h : Mirrored members members' R t u)
    (himp : ∀ t u, R t u → S t u) : Mirrored members members' S t u := by
  induction h with
  | intro t u h hlength _ ih => exact .intro t u (himp t u h) hlength ih

/-- A member has a mirrored one at its place. -/
theorem Mirrored.getElem? (h : Mirrored members members' R t u) {i : ℕ}
    (hm : (members t)[i]? = some m) :
    ∃ m', (members' u)[i]? = some m' ∧ Mirrored members members' R m m' := by
  obtain ⟨hlength, hmembers⟩ := forall₂_iff_getElem?.mp h.pairs
  have hi : i < (members' u).length := hlength ▸ (List.getElem?_eq_some_iff.mp hm).1
  exact ⟨_, List.getElem?_eq_getElem hi, hmembers i m _ hm (List.getElem?_eq_getElem hi)⟩

theorem Mirrored.nodeAt (h : Mirrored members members' R t u) {path : List ℕ}
    (hm : nodeAt members t path = some m) :
    ∃ m', Members.nodeAt members' u path = some m' ∧ Mirrored members members' R m m' := by
  induction path generalizing t u with
  | nil => exact ⟨u, rfl, Option.some.inj hm ▸ h⟩
  | cons i path ih =>
      obtain ⟨n, hn, hm⟩ := Option.bind_eq_some_iff.mp hm
      obtain ⟨n', hn', hmirrored⟩ := h.getElem? hn
      obtain ⟨m', hm', hresult⟩ := ih hmirrored hm
      exact ⟨m', Option.bind_eq_some_iff.mpr ⟨n', hn', hm'⟩, hresult⟩

/-- Related values with mirrored members, one pair of them replaced. -/
theorem forall₂_set {α β : Type*} {S : α → β → Prop} {l : List α} {l' : List β} {a : α} {b : β}
    (h : List.Forall₂ S l l') (i : ℕ) (hab : S a b) : List.Forall₂ S (l.set i a) (l'.set i b) := by
  induction h generalizing i with
  | nil => exact .nil
  | cons hcd h ih =>
      cases i with
      | zero => exact .cons hab h
      | succ i => exact .cons hcd (ih i)

end Members
