import CcToolsQt.Lib.Scanner
import Mathlib.Data.List.Forall2
import Mathlib.Logic.Function.Basic
import Mathlib.Tactic.Common

/-! # Channels

A channel carries messages as words, one behind the other.  The far end reads it in pieces of any
size with a scanner, which keeps what it cannot read yet, and may read other channels with the same
scanner in between.

* `Carries`: what has been read stands for the first messages sent, and what is held and what is
  on the wire are the words of the others.
* `Carries.write`, `Carries.readPiece`: writing a code word and reading a piece keep that.
* `Carries.follows`: what is read follows what is sent, and has caught up once the wire is empty.
* `Shared.readPiece`: several channels with one scanner, which is between two words whenever it
  turns to another channel. -/

/-- A channel that carries messages `τ` as words over `β` and is read as `γ`. -/
structure Channel (β τ γ : Type) where
  /-- the messages written -/
  sent : List τ := []
  /-- what is written and not yet read -/
  wire : List β := []
  read : List γ := []

namespace Channel
variable {β τ γ σ ο : Type}

def write (c : Channel β τ γ) (m : τ) (word : List β) : Channel β τ γ :=
  { c with sent := c.sent ++ [m], wire := c.wire ++ word }

/-- Some messages are written. -/
def writeAll (word : τ → List β) (c : Channel β τ γ) (ms : List τ) : Channel β τ γ :=
  ms.foldl (fun c m => c.write m (word m)) c

/-- Writing reads nothing. -/
theorem foldl_write_read {ι : Type} (m : ι → τ) (word : ι → List β) (l : List ι)
    (c : Channel β τ γ) : (l.foldl (fun c i => c.write (m i) (word i)) c).read = c.read := by
  induction l generalizing c with
  | nil => rfl
  | cons i l ih => exact ih _

/-- The next `n` symbols are read, as the values of `new`. -/
def readPiece (c : Channel β τ γ) (n : ℕ) (new : List γ) : Channel β τ γ :=
  { c with wire := c.wire.drop n, read := c.read ++ new }

/-- What is read follows what is sent: the values read stand for the first messages, in their
order, and for all of them when the wire is empty. -/
structure Follows (R : τ → γ → Prop) (c : Channel β τ γ) : Prop where
  inOrder : List.Forall₂ R (c.sent.take c.read.length) c.read
  caughtUp : c.wire = [] → c.read.length = c.sent.length

section
variable (A : Scanner β σ ο) (s₀ : σ) (word : τ → List β) (value : τ → ο) (R : τ → γ → Prop)

/-- The reader holds `held` of the channel. -/
def Carries (held : List β) (c : Channel β τ γ) : Prop :=
  ∃ done left, c.sent = done ++ left ∧ List.Forall₂ R done c.read ∧
    A.Awaiting s₀ held (left.map fun m => (word m, value m)) c.wire

variable {A s₀ word value R} {held : List β} {c : Channel β τ γ}

theorem carries_new : Carries A s₀ word value R [] ({} : Channel β τ γ) := by
  refine ⟨[], [], rfl, .nil, ?_⟩
  exact ⟨fun w hw => absurd hw List.not_mem_nil, Or.inl rfl, rfl⟩

theorem Carries.write (h : Carries A s₀ word value R held c) {m : τ}
    (hm : A.Codeword s₀ (word m) (value m)) :
    Carries A s₀ word value R held (c.write m (word m)) := by
  obtain ⟨done, left, hsent, hread, hwait⟩ := h
  refine ⟨done, left ++ [m], ?_, hread, ?_, hwait.halted, ?_⟩
  · show c.sent ++ [m] = _
    rw [hsent, List.append_assoc]
  · intro w hw
    rw [List.map_append, List.mem_append] at hw
    rcases hw with hw | hw
    · exact hwait.codewords w hw
    · obtain rfl := List.mem_singleton.mp hw
      exact hm
  · show held ++ (c.wire ++ word m) = _
    rw [← List.append_assoc, hwait.stream]
    simp

theorem Carries.writeAll (h : Carries A s₀ word value R held c) {ms : List τ}
    (hms : ∀ m ∈ ms, A.Codeword s₀ (word m) (value m)) :
    Carries A s₀ word value R held (c.writeAll word ms) := by
  induction ms generalizing c with
  | nil => exact h
  | cons m ms ih =>
      obtain ⟨hm, hms⟩ := List.forall_mem_cons.mp hms
      exact ih (h.write hm) hms

/-- A piece is read: `f` makes the values out of what the scanner puts out. -/
theorem Carries.readPiece (h : Carries A s₀ word value R held c) (n : ℕ) {f : ο → γ}
    (hf : ∀ m ∈ c.sent, R m (f (value m))) :
    let r := A.scan s₀ (held ++ c.wire.take n)
    r.state = s₀ ∧ Carries A s₀ word value R r.rest (c.readPiece n (r.out.map f)) := by
  intro r
  obtain ⟨done, left, hsent, hread, hwait⟩ := h
  have hbuf : held ++ c.wire.take n ++ c.wire.drop n =
      ((left.map fun m => (word m, value m)).map Prod.fst).flatten := by
    rw [List.append_assoc, List.take_append_drop]
    exact hwait.stream
  obtain ⟨ws₁, ws₂, hsplit, hstate, hout, hrest⟩ :=
    A.scan_codewords (held ++ c.wire.take n) (c.wire.drop n) _ hwait.codewords hbuf
  obtain ⟨now, later, rfl, hnow, rfl⟩ := List.map_eq_append_iff.mp hsplit
  refine ⟨hstate, done ++ now, later, ?_, ?_, hrest⟩
  · show c.sent = _
    rw [hsent, List.append_assoc]
  · show List.Forall₂ R (done ++ now) (c.read ++ r.out.map f)
    have hr : r.out.map f = now.map fun m => f (value m) := by
      show (A.scan s₀ (held ++ c.wire.take n)).out.map f = _
      rw [hout, ← hnow, List.map_map, List.map_map]
      rfl
    rw [hr]
    refine List.rel_append hread (List.forall₂_map_right_iff.mpr (List.forall₂_same.mpr ?_))
    intro m hm
    apply hf
    rw [hsent]
    exact List.mem_append_right _ (List.mem_append_left _ hm)

/-- **Nothing is lost**, written twice or read out of order. -/
theorem Carries.follows (h : Carries A s₀ word value R held c) : c.Follows R := by
  obtain ⟨done, left, hsent, hread, hwait⟩ := h
  have hlen := hread.length_eq
  constructor
  · rw [hsent, ← hlen, List.take_left]
    exact hread
  · intro hwire
    rw [hwire] at hwait
    have hfeed := A.feedAll_codewords held _ [] hwait
    have hnone : left = [] := by
      have hout := congrArg Scanned.out hfeed
      simpa [Scanner.feedAll] using hout.symm
    rw [hsent, hnone, List.append_nil, hlen]

/-! ### Several channels and one reader -/

section
variable {ι : Type} [DecidableEq ι]
variable (A s₀ word value R)

/-- The reader holds something of the channel it has read last, and of no other one. -/
def Shared (held : List β) (last : Option ι) (chan : ι → Channel β τ γ) : Prop :=
  ∀ i, Carries A s₀ word value R (if last = some i then held else []) (chan i)

variable {A s₀ word value R} {last : Option ι} {chan chan' : ι → Channel β τ γ}

theorem shared_new (last : Option ι) :
    Shared A s₀ word value R [] last fun _ => ({} : Channel β τ γ) := by
  intro i
  rw [ite_self]
  exact carries_new

/-- Messages are written on some of the channels. -/
theorem Shared.writeAll (h : Shared A s₀ word value R held last chan) {ms : ι → List τ}
    (hms : ∀ i, ∀ m ∈ ms i, A.Codeword s₀ (word m) (value m))
    (hchan : ∀ i, chan' i = (chan i).writeAll word (ms i)) :
    Shared A s₀ word value R held last chan' := by
  intro i
  rw [hchan i]
  exact (h i).writeAll (hms i)

/-- The reader can go on with a channel if it has read that one last or holds nothing. -/
theorem Shared.turn (h : Shared A s₀ word value R held last chan) {i : ι}
    (hi : last = some i ∨ held = []) : Shared A s₀ word value R held (some i) chan := by
  rcases hi with rfl | rfl
  · exact h
  · intro j
    have hj := h j
    rw [ite_self] at hj ⊢
    exact hj

/-- **One reader for several channels**: a piece of a channel is read by a reader that is between
two words whenever it turns to another channel. -/
theorem Shared.readPiece (h : Shared A s₀ word value R held last chan) {i : ι}
    (hi : last = some i ∨ held = []) (n : ℕ) {f : ο → γ}
    (hf : ∀ m ∈ (chan i).sent, R m (f (value m))) :
    let r := A.scan s₀ (held ++ (chan i).wire.take n)
    r.state = s₀ ∧ Shared A s₀ word value R r.rest (some i)
      (Function.update chan i ((chan i).readPiece n (r.out.map f))) := by
  intro r
  have hturn := h.turn hi
  have hown := hturn i
  rw [if_pos rfl] at hown
  obtain ⟨hstate, hread⟩ := hown.readPiece n hf
  refine ⟨hstate, fun j => ?_⟩
  by_cases hij : i = j
  · subst hij
    rw [if_pos rfl, Function.update_self]
    exact hread
  · have hj := hturn j
    rw [if_neg fun e => hij (Option.some.inj e)] at hj ⊢
    rw [Function.update_of_ne (Ne.symm hij)]
    exact hj

theorem Shared.follows (h : Shared A s₀ word value R held last chan) (i : ι) :
    (chan i).Follows R := (h i).follows

end

end

end Channel
