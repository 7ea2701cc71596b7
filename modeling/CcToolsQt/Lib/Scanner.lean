import Mathlib.Data.List.Infix
import Mathlib.Data.Nat.Basic
import Mathlib.Tactic.Common

/-! # Scanning a buffered stream

A `Scanner` is the body of a loop that reads a buffer from its front: on the unread part of
the buffer a step either stops (`none`, more input is needed) or yields a new state, the
values it puts out and the number of symbols it consumed.  `scan` is the loop, `feedAll` the
same loop fed piece by piece, the unread rest being carried from one piece to the next.

* `scan_induction` is the induction rule of the loop; `scan_invariant`, `scan_out` and
  `scan_conserves` are its rules for a property of the state, for one of the output and for a
  quantity that every step conserves.
* `Stable` says that a step taken on a buffer is taken on every longer buffer as well.  For a
  stable scanner the places where the input is cut do not matter (`feedAll_cons`,
  `feedAll_of_halted`).
* `Codeword` words are read back one by one however their concatenation is cut
  (`feedAll_codewords`).
* `InStep` loops consume alike: they leave the same rest, and a relation that their steps keep
  holds in the end (`InStep.scan_rel`). -/

/-- The body of a loop over a buffer of `β`, with state `σ` and output `ο`. -/
structure Scanner (β σ ο : Type) where
  step : σ → List β → Option (σ × List ο × ℕ)
  progress : ∀ {s buf s' out n}, step s buf = some (s', out, n) → 0 < n ∧ n ≤ buf.length

/-- What a loop leaves behind: state, output in order, unread rest of the buffer. -/
structure Scanned (β σ ο : Type) where
  state : σ
  out : List ο
  rest : List β

namespace Scanned
variable {β σ ο : Type}

/-- Output that was put out before. -/
def prepend (out : List ο) (r : Scanned β σ ο) : Scanned β σ ο := { r with out := out ++ r.out }

@[simp] theorem prepend_state (out : List ο) (r : Scanned β σ ο) :
    (r.prepend out).state = r.state := rfl
@[simp] theorem prepend_out (out : List ο) (r : Scanned β σ ο) :
    (r.prepend out).out = out ++ r.out := rfl
@[simp] theorem prepend_rest (out : List ο) (r : Scanned β σ ο) :
    (r.prepend out).rest = r.rest := rfl
@[simp] theorem prepend_nil (r : Scanned β σ ο) : r.prepend [] = r := rfl

theorem prepend_prepend (out₁ out₂ : List ο) (r : Scanned β σ ο) :
    (r.prepend out₂).prepend out₁ = r.prepend (out₁ ++ out₂) := by
  simp [prepend]

end Scanned

namespace Scanner
variable {β σ ο : Type} (A : Scanner β σ ο)

/-- The loop with a bound on the number of rounds. -/
def scanAux : ℕ → σ → List β → Scanned β σ ο
  | 0, s, buf => ⟨s, [], buf⟩
  | k + 1, s, buf =>
      if buf.isEmpty then ⟨s, [], buf⟩
      else
        match A.step s buf with
        | none => ⟨s, [], buf⟩
        | some (s', out, n) => (scanAux k s' (buf.drop n)).prepend out

/-- The loop: every round consumes a symbol, so the length of the buffer bounds the rounds. -/
def scan (s : σ) (buf : List β) : Scanned β σ ο := A.scanAux buf.length s buf

/-- The loop has nothing to do: the buffer is exhausted or its front is incomplete. -/
def Halted (s : σ) (buf : List β) : Prop := buf = [] ∨ A.step s buf = none

/-- Any bound from the length of the buffer on gives the same result. -/
theorem scanAux_eq_scan : ∀ (k : ℕ) (s : σ) (buf : List β), buf.length ≤ k →
    A.scanAux k s buf = A.scan s buf
  | 0, s, buf, h => by
      obtain rfl : buf = [] := List.length_eq_zero_iff.mp (Nat.le_zero.mp h)
      rfl
  | k + 1, s, [], _ => rfl
  | k + 1, s, b :: l, h => by
      simp only [scan, List.length_cons, scanAux]
      cases hs : A.step s (b :: l) with
      | none => rfl
      | some r =>
          obtain ⟨s', out, n⟩ := r
          have hn := A.progress hs
          have hlen : ((b :: l).drop n).length ≤ l.length := by
            simp only [List.length_drop, List.length_cons] at hn ⊢
            omega
          have hk : l.length ≤ k := by simpa using h
          simp only [List.isEmpty_cons, Bool.false_eq_true, if_false]
          rw [scanAux_eq_scan k s' _ (hlen.trans hk), scanAux_eq_scan l.length s' _ hlen]

theorem scan_of_halted {s : σ} {buf : List β} (h : A.Halted s buf) :
    A.scan s buf = ⟨s, [], buf⟩ := by
  cases buf with
  | nil => rfl
  | cons b l =>
      have hs : A.step s (b :: l) = none := by simpa [Halted] using h
      simp [scan, scanAux, hs]

theorem scan_of_step {s s' : σ} {buf : List β} {out : List ο} {n : ℕ}
    (h : A.step s buf = some (s', out, n)) :
    A.scan s buf = (A.scan s' (buf.drop n)).prepend out := by
  have hn := A.progress h
  cases buf with
  | nil => simp at hn; omega
  | cons b l =>
      have hlen : ((b :: l).drop n).length ≤ l.length := by
        simp only [List.length_drop, List.length_cons] at hn ⊢
        omega
      have e : A.scan s (b :: l) = (A.scanAux l.length s' ((b :: l).drop n)).prepend out := by
        simp [scan, scanAux, h]
      rw [e, A.scanAux_eq_scan _ _ _ hlen]

/-- Induction along the loop: it stops at once, or it takes a step and goes on. -/
theorem scan_induction {motive : σ → List β → Prop}
    (halt : ∀ s buf, A.Halted s buf → motive s buf)
    (step : ∀ s buf s' out n, A.step s buf = some (s', out, n) →
      motive s' (buf.drop n) → motive s buf) :
    ∀ s buf, motive s buf := by
  suffices h : ∀ k s buf, buf.length ≤ k → motive s buf from fun s buf => h _ s buf le_rfl
  intro k
  induction k with
  | zero =>
      intro s buf hk
      exact halt s buf (Or.inl (List.length_eq_zero_iff.mp (Nat.le_zero.mp hk)))
  | succ k ih =>
      intro s buf hk
      cases hs : A.step s buf with
      | none => exact halt s buf (Or.inr hs)
      | some r =>
          obtain ⟨s', out, n⟩ := r
          have hn := A.progress hs
          refine step s buf s' out n hs (ih s' _ ?_)
          rw [List.length_drop]
          omega

/-- The loop ends only where it has nothing left to do. -/
theorem scan_halted (s : σ) (buf : List β) : A.Halted (A.scan s buf).state (A.scan s buf).rest := by
  induction s, buf using A.scan_induction with
  | halt s buf h => rw [A.scan_of_halted h]; exact h
  | step s buf s' out n hs ih => rw [A.scan_of_step hs]; exact ih

/-! ### Rules of the loop -/

/-- A property of the state that every step keeps is kept by the loop. -/
theorem scan_invariant {I : σ → Prop}
    (hstep : ∀ s buf s' out n, A.step s buf = some (s', out, n) → I s → I s')
    (s : σ) (buf : List β) (h : I s) : I (A.scan s buf).state := by
  induction s, buf using A.scan_induction with
  | halt s buf hh => rw [A.scan_of_halted hh]; exact h
  | step s buf s' out n hs ih =>
      rw [A.scan_of_step hs]
      exact ih (hstep s buf s' out n hs h)

/-- A property of all that a step puts out is one of all that the loop puts out. -/
theorem scan_out {Q : ο → Prop}
    (hstep : ∀ s buf s' out n, A.step s buf = some (s', out, n) → ∀ o ∈ out, Q o)
    (s : σ) (buf : List β) : ∀ o ∈ (A.scan s buf).out, Q o := by
  induction s, buf using A.scan_induction with
  | halt s buf hh => simp [A.scan_of_halted hh]
  | step s buf s' out n hs ih =>
      rw [A.scan_of_step hs, Scanned.prepend_out]
      intro o ho
      rcases List.mem_append.mp ho with ho | ho
      · exact hstep s buf s' out n hs o ho
      · exact ih o ho

/-- Conservation: `f` reads the symbols a value stands for, `held` those the state holds.  If
a step puts out or holds exactly what was held and what it consumed, nothing gets lost. -/
theorem scan_conserves (f : ο → List β) (held : σ → List β)
    (hstep : ∀ s buf s' out n, A.step s buf = some (s', out, n) →
      out.flatMap f ++ held s' = held s ++ buf.take n)
    (s : σ) (buf : List β) :
    (A.scan s buf).out.flatMap f ++ held (A.scan s buf).state ++ (A.scan s buf).rest =
      held s ++ buf := by
  induction s, buf using A.scan_induction with
  | halt s buf hh => simp [A.scan_of_halted hh]
  | step s buf s' out n hs ih =>
      rw [A.scan_of_step hs]
      simp only [Scanned.prepend_state, Scanned.prepend_out, Scanned.prepend_rest,
        List.flatMap_append]
      calc
        _ = out.flatMap f ++ ((A.scan s' (buf.drop n)).out.flatMap f ++
              held (A.scan s' (buf.drop n)).state ++ (A.scan s' (buf.drop n)).rest) := by
            simp [List.append_assoc]
        _ = (out.flatMap f ++ held s') ++ buf.drop n := by rw [ih, List.append_assoc]
        _ = held s ++ buf := by
            rw [hstep s buf s' out n hs, List.append_assoc, List.take_append_drop]

/-! ### Feeding the loop piece by piece -/

/-- The loop run once for each piece, with the unread rest kept in front of the next piece. -/
def feedAll (s : σ) (held : List β) : List (List β) → Scanned β σ ο
  | [] => ⟨s, [], held⟩
  | c :: cs =>
      (feedAll (A.scan s (held ++ c)).state (A.scan s (held ++ c)).rest cs).prepend
        (A.scan s (held ++ c)).out

/-- A step taken on a buffer is taken unchanged on every longer one. -/
def Stable : Prop :=
  ∀ s buf ext r, A.step s buf = some r → A.step s (buf ++ ext) = some r

/-- For a stable scanner a longer buffer is scanned by scanning its front first. -/
theorem scan_append (hA : A.Stable) (s : σ) (buf ext : List β) :
    A.scan s (buf ++ ext) =
      (A.scan (A.scan s buf).state ((A.scan s buf).rest ++ ext)).prepend (A.scan s buf).out := by
  induction s, buf using A.scan_induction with
  | halt s buf h => rw [A.scan_of_halted h]; simp
  | step s buf s' out n hs ih =>
      have hn := (A.progress hs).2
      rw [A.scan_of_step hs, A.scan_of_step (hA s buf ext _ hs), List.drop_append_of_le_length hn,
        ih, Scanned.prepend_prepend]
      rfl

theorem feedAll_of_halted (hA : A.Stable) (s : σ) (held : List β) (h : A.Halted s held)
    (cs : List (List β)) : A.feedAll s held cs = A.scan s (held ++ cs.flatten) := by
  induction cs generalizing s held with
  | nil => simp [feedAll, A.scan_of_halted h]
  | cons c cs ih =>
      rw [feedAll, ih _ _ (A.scan_halted _ _), List.flatten_cons, ← List.append_assoc]
      exact (A.scan_append hA s (held ++ c) cs.flatten).symm

/-- **Cutting does not matter**: from any state, once a first piece was fed, the result is
that of one scan over the whole input. -/
theorem feedAll_cons (hA : A.Stable) (s : σ) (held c : List β) (cs : List (List β)) :
    A.feedAll s held (c :: cs) = A.scan s (held ++ (c :: cs).flatten) := by
  rw [feedAll, A.feedAll_of_halted hA _ _ (A.scan_halted _ _), List.flatten_cons,
    ← List.append_assoc]
  exact (A.scan_append hA s (held ++ c) cs.flatten).symm

/-! ### Words that are read back one by one -/

/-- In state `s` the word `w` is read as `o`, whatever follows, and nothing shorter is. -/
structure Codeword (s : σ) (w : List β) (o : ο) : Prop where
  read : ∀ ext, A.step s (w ++ ext) = some (s, [o], w.length)
  incomplete : ∀ p, p <+: w → p ≠ w → A.step s p = none

theorem Codeword.ne_nil {s : σ} {w : List β} {o : ο} (h : A.Codeword s w o) : w ≠ [] := by
  have := (A.progress (h.read [])).1
  rintro rfl
  simp at this

/-- What is left of the words when `held`, a part of the first one, was received already. -/
structure Awaiting (s : σ) (held : List β) (ws : List (List β × ο)) (ext : List β) : Prop where
  codewords : ∀ w ∈ ws, A.Codeword s w.1 w.2
  halted : A.Halted s held
  stream : held ++ ext = (ws.map Prod.fst).flatten

/-- Scanning any front of the stream reads the complete words in it and then awaits the rest. -/
theorem scan_codewords {s : σ} (buf ext : List β) (ws : List (List β × ο))
    (hws : ∀ w ∈ ws, A.Codeword s w.1 w.2) (hbuf : buf ++ ext = (ws.map Prod.fst).flatten) :
    ∃ ws₁ ws₂, ws = ws₁ ++ ws₂ ∧ (A.scan s buf).state = s ∧
      (A.scan s buf).out = ws₁.map Prod.snd ∧ A.Awaiting s (A.scan s buf).rest ws₂ ext := by
  induction ws generalizing buf with
  | nil =>
      obtain ⟨rfl, rfl⟩ : buf = [] ∧ ext = [] := by simpa using hbuf
      exact ⟨[], [], rfl, rfl, rfl, ⟨by simp, Or.inl rfl, rfl⟩⟩
  | cons w ws ih =>
      obtain ⟨w, o⟩ := w
      have hw : A.Codeword s w o := hws _ (List.mem_cons_self)
      have hrest : ∀ v ∈ ws, A.Codeword s v.1 v.2 := fun v hv => hws v (List.mem_cons_of_mem _ hv)
      rw [List.map_cons, List.flatten_cons] at hbuf
      rcases Nat.lt_or_ge buf.length w.length with hlt | hle
      · -- the word is cut: nothing is read
        have hp : buf <+: w := List.prefix_of_prefix_length_le ⟨ext, hbuf⟩ ⟨_, rfl⟩ hlt.le
        have hne : buf ≠ w := fun e => absurd hlt (by rw [e]; exact lt_irrefl _)
        have hh : A.Halted s buf := Or.inr (hw.incomplete buf hp hne)
        rw [A.scan_of_halted hh]
        exact ⟨[], _, rfl, rfl, rfl, ⟨hws, hh, by simpa using hbuf⟩⟩
      · -- the whole word is there: it is read and the scan goes on behind it
        obtain ⟨tail, rfl⟩ : w <+: buf :=
          List.prefix_of_prefix_length_le ⟨_, hbuf.symm⟩ ⟨ext, rfl⟩ hle
        have htail : tail ++ ext = (ws.map Prod.fst).flatten := by
          rw [List.append_assoc] at hbuf
          exact List.append_cancel_left hbuf
        obtain ⟨ws₁, ws₂, e, hs, ho, ha⟩ := ih tail hrest htail
        refine ⟨(w, o) :: ws₁, ws₂, by rw [e]; rfl, ?_⟩
        rw [A.scan_of_step (hw.read tail), List.drop_left]
        exact ⟨hs, by simp [ho], ha⟩

/-- **Code words survive cutting**: their concatenation, cut in any way, is read back word by
word, and nothing is left over. -/
theorem feedAll_codewords {s : σ} (held : List β) (ws : List (List β × ο)) (cs : List (List β))
    (h : A.Awaiting s held ws cs.flatten) :
    A.feedAll s held cs = ⟨s, ws.map Prod.snd, []⟩ := by
  induction cs generalizing held ws with
  | nil =>
      -- no input is outstanding, so `held` would have to be whole words
      have hbuf : held ++ [] = (ws.map Prod.fst).flatten := by simpa using h.stream
      cases ws with
      | nil => obtain rfl : held = [] := by simpa using hbuf
               rfl
      | cons w ws =>
          obtain ⟨w, o⟩ := w
          have hw : A.Codeword s w o := h.codewords _ (List.mem_cons_self)
          have e : held = w ++ (ws.map Prod.fst).flatten := by simpa using hbuf
          rcases h.halted with hn | hn
          · exact absurd (List.append_eq_nil_iff.mp (e.symm.trans hn)).1 (hw.ne_nil)
          · rw [e, hw.read] at hn
            cases hn
  | cons c cs ih =>
      obtain ⟨ws₁, ws₂, rfl, hs, ho, ha⟩ :=
        A.scan_codewords (held ++ c) cs.flatten ws h.codewords (by simpa using h.stream)
      rw [feedAll, hs, ih _ ws₂ ha, ho]
      simp [Scanned.prepend]

/-! ### Two loops in step -/

section
variable {σ' ο' : Type} {B : Scanner β σ' ο'}

/-- Two loops that consume alike, whatever their states. -/
def InStep (A : Scanner β σ ο) (B : Scanner β σ' ο') : Prop :=
  ∀ s t buf, (A.step s buf).map (fun r => r.2.2) = (B.step t buf).map fun r => r.2.2

variable {A}

theorem InStep.halted (h : InStep A B) {s : σ} {buf : List β} (hs : A.Halted s buf) (t : σ') :
    B.Halted t buf := by
  refine hs.imp_right fun hnone => ?_
  have ht := h s t buf
  rw [hnone] at ht
  simpa using ht.symm

theorem InStep.step (h : InStep A B) {s s' : σ} {buf : List β} {out : List ο} {n : ℕ}
    (hs : A.step s buf = some (s', out, n)) (t : σ') :
    ∃ t' out', B.step t buf = some (t', out', n) := by
  have ht := h s t buf
  rw [hs] at ht
  obtain ⟨⟨t', out', n'⟩, hB, hn⟩ := Option.map_eq_some_iff.mp ht.symm
  obtain rfl : n' = n := hn
  exact ⟨t', out', hB⟩

/-- They leave the same rest. -/
theorem InStep.rest_eq (h : InStep A B) (s : σ) (t : σ') (buf : List β) :
    (A.scan s buf).rest = (B.scan t buf).rest := by
  induction s, buf using A.scan_induction generalizing t with
  | halt s buf hs => rw [A.scan_of_halted hs, B.scan_of_halted (h.halted hs t)]
  | step s buf s' out n hs ih =>
      obtain ⟨t', out', ht⟩ := h.step hs t
      rw [A.scan_of_step hs, B.scan_of_step ht]
      exact ih t'

/-- A relation that their steps keep holds of the states they end in. -/
theorem InStep.scan_rel (h : InStep A B) {R : σ → σ' → Prop}
    (hstep : ∀ s t buf s' out t' out' n, A.step s buf = some (s', out, n) →
      B.step t buf = some (t', out', n) → R s t → R s' t')
    {s : σ} {t : σ'} (hR : R s t) (buf : List β) :
    R (A.scan s buf).state (B.scan t buf).state := by
  induction s, buf using A.scan_induction generalizing t with
  | halt s buf hs =>
      rw [A.scan_of_halted hs, B.scan_of_halted (h.halted hs t)]
      exact hR
  | step s buf s' out n hs ih =>
      obtain ⟨t', out', ht⟩ := h.step hs t
      rw [A.scan_of_step hs, B.scan_of_step ht]
      exact ih (hstep s t buf s' out t' out' n hs ht hR)

end

end Scanner
