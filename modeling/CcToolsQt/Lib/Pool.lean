import CcToolsQt.Lib.Mux
import Mathlib.Data.List.Nodup
import Mathlib.Tactic.Common

/-! # Pools of connections

A server numbers the connections it accepts and keeps the live ones in a list.

* `modify` and `erase` change the entry with a number, or take it out of the list; `find_modify`
  and `find_erase` say what is found afterwards.
* A `Pool` is a system that uses live connections only, and gets new ones only while it listens
  (`Moves`).  Once it does not listen any more, all its traffic has ended if and only if no
  connection is left (`Pool.ended_iff`). -/

namespace Pool

/-! ### A list of numbered entries -/

section
variable {α : Type*} (key : α → ℕ) (i : ℕ)

/-- The entry with a number. -/
def find (l : List α) : Option α := l.find? (key · = i)

/-- The entry with a number is changed. -/
def modify (f : α → α) (l : List α) : List α := l.map fun x => if key x = i then f x else x

/-- The entry with a number is taken out. -/
def erase (l : List α) : List α := l.eraseP (key · = i)

variable {key i} {l : List α} {x : α}

theorem find_mem (h : find key i l = some x) : x ∈ l ∧ key x = i :=
  ⟨List.mem_of_find?_eq_some h, by simpa using List.find?_some h⟩

theorem find_eq_none : find key i l = none ↔ i ∉ l.map key := by
  simp [find, List.find?_eq_none]

theorem exists_find (h : i ∈ l.map key) : ∃ x, find key i l = some x := by
  rw [← Option.ne_none_iff_exists']
  exact fun hnone => find_eq_none.mp hnone h

theorem map_modify {f : α → α} (hf : ∀ y, key (f y) = key y) :
    (modify key i f l).map key = l.map key := by
  unfold modify
  rw [List.map_map]
  refine List.map_congr_left fun y _ => ?_
  show key (if key y = i then f y else y) = key y
  split
  · exact hf y
  · rfl

theorem find_modify {f : α → α} (hf : ∀ y, key (f y) = key y) (j : ℕ) :
    find key j (modify key i f l) = if j = i then (find key j l).map f else find key j l := by
  induction l with
  | nil => simp [find, modify]
  | cons y l ih =>
      unfold find modify at ih ⊢
      by_cases hy : key y = i <;> by_cases hj : key y = j <;> grind

theorem find_concat (j : ℕ) :
    find key j (l ++ [x]) = (find key j l).or (if key x = j then some x else none) := by
  unfold find
  rw [List.find?_append]
  by_cases hx : key x = j <;> simp [hx]

theorem map_erase_sublist : ((erase key i l).map key).Sublist (l.map key) :=
  (List.eraseP_sublist).map key

theorem erase_of_gone (h : i ∉ l.map key) : erase key i l = l := by
  refine List.eraseP_of_forall_not fun x hx => ?_
  have hne : key x ≠ i := fun e => h (e ▸ List.mem_map_of_mem hx)
  simpa using hne

theorem find_erase (hnd : (l.map key).Nodup) (j : ℕ) :
    find key j (erase key i l) = if j = i then none else find key j l := by
  induction l with
  | nil => simp [find, erase]
  | cons y l ih =>
      have hnd' : (l.map key).Nodup := (List.nodup_cons.mp hnd).2
      have hy' : key y ∉ l.map key := (List.nodup_cons.mp hnd).1
      have hnone := find_eq_none.mpr hy'
      specialize ih hnd'
      unfold find at hnone
      unfold find erase at ih ⊢
      by_cases hy : key y = i <;> by_cases hj : key y = j <;> grind

end

end Pool

/-- What is seen of a system with numbered connections: the live ones, the number the next one
gets, whether new ones are accepted, and what each has been used for. -/
structure Pool.View (υ : Type) where
  live : List ℕ
  next : ℕ
  listening : Bool
  trace : List (ℕ × υ)

namespace Pool

/-- What a connection has been used for. -/
def View.uses {υ : Type} (v : View υ) (i : ℕ) : List υ := Mux.own i v.trace

/-- One connection is used. -/
def View.UsedBy {υ : Type} (i : ℕ) (v v' : View υ) : Prop :=
  ∃ new, v' = { v with trace := v.trace ++ new } ∧ ∀ u ∈ new, u.1 = i

theorem View.UsedBy.trans {υ : Type} {i : ℕ} {v v' v'' : View υ} (h : UsedBy i v v')
    (h' : UsedBy i v' v'') : UsedBy i v v'' := by
  obtain ⟨new, rfl, hnew⟩ := h
  obtain ⟨new', rfl, hnew'⟩ := h'
  refine ⟨new ++ new', by simp, fun u hu => ?_⟩
  rcases List.mem_append.mp hu with hu | hu
  · exact hnew u hu
  · exact hnew' u hu

theorem View.UsedBy.refl {υ : Type} (i : ℕ) (v : View υ) : UsedBy i v v :=
  ⟨[], by simp, nofun⟩

/-- Connections come only while the system listens, with the next number; only live ones are
used. -/
structure Moves {υ : Type} (v v' : View υ) : Prop where
  live : ∀ {i}, i ∈ v'.live → i ∈ v.live ∨ v.listening = true ∧ i = v.next
  next : v.next ≤ v'.next
  uses : ∀ {i}, i ∉ v.live → v'.uses i = v.uses i

namespace Moves
variable {υ : Type} {v v' : View υ}

/-- Live connections are used. -/
theorem of_trace {new : List (ℕ × υ)} (hs : v'.live = v.live) (hn : v'.next = v.next)
    (ht : v'.trace = v.trace ++ new) (hnew : ∀ u ∈ new, u.1 ∈ v.live) : Moves v v' := by
  refine ⟨fun hi => .inl (hs ▸ hi), Nat.le_of_eq hn.symm, fun {i} hi => ?_⟩
  have hnone : Mux.own i new = [] := by
    unfold Mux.own
    rw [List.map_eq_nil_iff, List.filter_eq_nil_iff]
    intro u hu heq
    exact hi (of_decide_eq_true heq ▸ hnew u hu)
  unfold View.uses
  rw [ht, Mux.own_append, hnone, List.append_nil]

theorem of_usedBy {i : ℕ} (hi : i ∈ v.live) (h : View.UsedBy i v v') : Moves v v' := by
  obtain ⟨new, rfl, hnew⟩ := h
  exact of_trace rfl rfl rfl fun u hu => hnew u hu ▸ hi

theorem of_eq (hs : v'.live = v.live) (hn : v'.next = v.next) (ht : v'.trace = v.trace) :
    Moves v v' :=
  .of_trace hs hn (ht.trans (List.append_nil _).symm) nofun

/-- Connections go. -/
theorem of_subset (hs : v'.live ⊆ v.live) (hn : v'.next = v.next) (ht : v'.trace = v.trace) :
    Moves v v' := by
  refine ⟨fun hi => .inl (hs hi), Nat.le_of_eq hn.symm, fun _ => ?_⟩
  unfold View.uses
  rw [ht]

/-- A connection comes. -/
theorem of_accept (hl : v.listening = true) (hs : v'.live = v.live ++ [v.next])
    (hn : v'.next = v.next + 1) (ht : v'.trace = v.trace) : Moves v v' := by
  refine ⟨fun {i} hi => ?_, by omega, fun _ => ?_⟩
  · rw [hs, List.mem_append, List.mem_singleton] at hi
    rcases hi with hi | hi
    · exact .inl hi
    · exact .inr ⟨hl, hi⟩
  · unfold View.uses
    rw [ht]

end Moves

end Pool

/-- A system with numbered connections. -/
structure Pool {σ ε : Type*} (step : σ → ε → σ) (υ : Type) where
  view : σ → Pool.View υ
  opens : ε → Prop
  moves : ∀ s e, Pool.Moves (view s) (view (step s e))
  closed_step : ∀ {s e}, (view s).listening = false → ¬ opens e →
    (view (step s e)).listening = false
  /-- a live connection can still be used -/
  usable : ∀ {s i}, i ∈ (view s).live →
    ∃ evs : List ε, (∀ e ∈ evs, ¬ opens e) ∧ (view (evs.foldl step s)).uses i ≠ (view s).uses i

namespace Pool
variable {σ ε : Type*} {υ : Type} {step : σ → ε → σ} (P : Pool step υ)

/-- All traffic has ended: whatever happens, the connections accepted so far are not used any
more, and none is used until the system is opened again. -/
def Ended (s : σ) : Prop :=
  ∀ (evs : List ε) i, (i < (P.view s).next ∨ ∀ e ∈ evs, ¬ P.opens e) →
    (P.view (evs.foldl step s)).uses i = (P.view s).uses i

variable {P} {s : σ}

/-- A connection that is gone is not used again. -/
theorem uses_of_gone {evs : List ε} {i : ℕ} (hgone : i ∉ (P.view s).live)
    (hi : i < (P.view s).next) : (P.view (evs.foldl step s)).uses i = (P.view s).uses i := by
  induction evs generalizing s with
  | nil => rfl
  | cons e evs ih =>
      have hgone' : i ∉ (P.view (step s e)).live := by
        intro h
        rcases (P.moves s e).live h with h | ⟨-, h⟩
        · exact hgone h
        · exact absurd hi (by omega)
      exact (ih hgone' (Nat.lt_of_lt_of_le hi (P.moves s e).next)).trans ((P.moves s e).uses hgone)

/-- Without connections nothing is used until the system is opened. -/
theorem uses_of_closed {evs : List ε} {i : ℕ} (hc : (P.view s).listening = false)
    (hlive : (P.view s).live = []) (hevs : ∀ e ∈ evs, ¬ P.opens e) :
    (P.view (evs.foldl step s)).uses i = (P.view s).uses i := by
  induction evs generalizing s with
  | nil => rfl
  | cons e evs ih =>
      obtain ⟨he, hevs⟩ := List.forall_mem_cons.mp hevs
      have hlive' : (P.view (step s e)).live = [] := by
        rw [List.eq_nil_iff_forall_not_mem] at hlive ⊢
        intro j hj
        rcases (P.moves s e).live hj with h | ⟨hl, -⟩
        · exact hlive j h
        · rw [hc] at hl
          cases hl
      have hstep : (P.view (step s e)).uses i = (P.view s).uses i :=
        (P.moves s e).uses (by rw [hlive]; exact List.not_mem_nil)
      exact (ih (P.closed_step hc he) hlive' hevs).trans hstep

/-- **Closing a system ends its traffic** if and only if no connection is left. -/
theorem ended_iff (hc : (P.view s).listening = false) : P.Ended s ↔ (P.view s).live = [] := by
  constructor
  · intro h
    rw [List.eq_nil_iff_forall_not_mem]
    intro i hi
    obtain ⟨evs, hevs, huse⟩ := P.usable hi
    exact huse (h evs i (.inr hevs))
  · intro hlive evs i hi
    rcases hi with hi | hevs
    · exact uses_of_gone (by rw [hlive]; exact List.not_mem_nil) hi
    · exact uses_of_closed hc hlive hevs

end Pool
