import CcToolsQt.FrameStream

/-! # The walk of a frame over bytes

Where `readDataImpl` takes messages and stray bytes from does not depend on the garbage that is
pending; only when the garbage is put out does.  `walkLoop` is the loop without its garbage: it
counts the stray bytes since the last message.

* `length_garbage`: what the count says about the garbage left over.
* `read_error_of_suffix`: the garbage left over was read one stray byte at a time.
* `drains_iff`: when a final read leaves nothing in the frame.
* `blocks_of_onlyStray` and `split_of_message`: what is put out when there is no message, and how
  much of it the pending garbage has changed when there is one. -/

namespace CcToolsQt

/-- Whether a message was met, and the stray bytes after the last one. -/
structure Walk where
  message : Bool := false
  strays : ℕ := 0

namespace ProtFrame
variable {φ α : Type} (P : ProtFrame φ α)

/-- The bytes one round of the loop consumes, `none` where it breaks. -/
def pace (buf : DataSeq) : Option ℕ :=
  match P.read buf, buf with
  | .notEnoughData, _ => none
  | .msgAllocFailure, _ => none
  | .error, [] => none
  | .error, _ :: _ => some 1
  | .success _ _ _ n, _ => some n

def walkStep (w : Walk) (buf : DataSeq) : Option (Walk × List Unit × ℕ) :=
  match P.read buf, buf with
  | .notEnoughData, _ => none
  | .msgAllocFailure, _ => none
  | .error, [] => none
  | .error, _ :: _ => some ({ w with strays := w.strays + 1 }, [], 1)
  | .success _ _ _ n, _ => some ({ message := true, strays := 0 }, [], n)

/-- The loop of `readDataImpl` without its garbage. -/
def walkLoop : Scanner UInt8 Walk Unit where
  step := P.walkStep
  progress := by
    intro w buf w' out n h
    unfold walkStep at h
    split at h
    case h_1 => cases h
    case h_2 => cases h
    case h_3 => cases h
    case h_4 => cases h; simp
    case h_5 hread => cases h; exact P.consumed_le hread

/-- The walk over bytes that follow a message. -/
def walk (buf : DataSeq) : Scanned UInt8 Walk Unit := P.walkLoop.scan {} buf

/-- The stray bytes at the end of bytes that are read to the end. -/
def strayTail (buf : DataSeq) : ℕ :=
  if (P.walk buf).rest.isEmpty then (P.walk buf).state.strays else 0

/-- The same where `pending` stray bytes are waiting in front. -/
def strayTailFrom (pending : ℕ) (buf : DataSeq) : ℕ :=
  let r := P.walkLoop.scan { strays := pending } buf
  if r.rest.isEmpty then r.state.strays else 0

/-- Bytes that are stray, all of them. -/
def OnlyStray (buf : DataSeq) : Prop :=
  (P.walk buf).rest = [] ∧ (P.walk buf).state.message = false

theorem walkStep_pace (w : Walk) (buf : DataSeq) :
    (P.walkStep w buf).map (fun r => r.2.2) = P.pace buf := by
  unfold walkStep pace
  split <;> rfl

/-- A message that was met stays met. -/
theorem walk_message {w : Walk} (hw : w.message = true) (buf : DataSeq) :
    (P.walkLoop.scan w buf).state.message = true := by
  refine P.walkLoop.scan_invariant (I := fun w => w.message = true) ?_ w buf hw
  intro w buf w' out n h hw
  simp only [walkLoop, walkStep] at h
  split at h
  case h_1 => cases h
  case h_2 => cases h
  case h_3 => cases h
  case h_4 => cases h; exact hw
  case h_5 => cases h; rfl

end ProtFrame

namespace ToolsFrame
variable {φ α : Type} (F : ToolsFrame φ α)

theorem readStep_pace (g buf : DataSeq) :
    (F.readStep g buf).map (fun r => r.2.2) = F.m_frame.pace buf := by
  unfold readStep ProtFrame.pace
  cases F.m_frame.read buf with
  | notEnoughData => rfl
  | msgAllocFailure => rfl
  | error =>
      cases buf with
      | nil => rfl
      | cons b l =>
          dsimp only
          split_ifs <;> rfl
  | success msgId msgIdx msg n =>
      dsimp only
      cases F.m_factory.createMessage msgId (UInt32.ofNat msgIdx) <;> rfl

theorem inStep_walkLoop : F.readLoop.InStep F.m_frame.walkLoop := fun g w buf =>
  (F.readStep_pace g buf).trans (F.m_frame.walkStep_pace w buf).symm

theorem inStep_self : F.readLoop.InStep F.readLoop := fun g g' buf =>
  (F.readStep_pace g buf).trans (F.readStep_pace g' buf).symm

/-! ### What a round does, once for all -/

/-- A round of both loops: a stray byte or a message. -/
theorem step_cases {g g' buf : DataSeq} {w w' : Walk} {out : List (ToolsMessage φ α)}
    {out' : List Unit} {n : ℕ} (hs : F.readStep g buf = some (g', out, n))
    (ht : F.m_frame.walkStep w buf = some (w', out', n)) :
    (∃ b l, buf = b :: l ∧ F.m_frame.read buf = .error ∧ n = 1 ∧
        w' = { w with strays := w.strays + 1 } ∧
        ((g.length + 1 < GarbageLimit ∧ g' = g ++ [b] ∧ out = []) ∨
          (GarbageLimit ≤ g.length + 1 ∧ g' = [] ∧
            out = [updateRawDataInternal (g ++ [b]) createInvalidMessage]))) ∨
      (F.m_frame.read buf ≠ .error ∧ w' = { message := true, strays := 0 } ∧ g' = [] ∧
        ∃ msgs, out = checkGarbage g ++ msgs ∧
          ∀ g₂, F.readStep g₂ buf = some ([], checkGarbage g₂ ++ msgs, n)) := by
  unfold readStep at hs
  unfold ProtFrame.walkStep at ht
  cases hr : F.m_frame.read buf with
  | notEnoughData => simp [hr] at hs
  | msgAllocFailure => simp [hr] at hs
  | error =>
      cases buf with
      | nil => simp [hr] at hs
      | cons b l =>
          simp only [hr, Option.some.injEq, Prod.mk.injEq] at ht
          obtain ⟨rfl, -, rfl⟩ := ht
          refine Or.inl ⟨b, l, rfl, rfl, rfl, rfl, ?_⟩
          simp only [hr, List.length_append, List.length_singleton] at hs
          split_ifs at hs with hlim
          · simp only [Option.some.injEq, Prod.mk.injEq] at hs
            obtain ⟨rfl, rfl, -⟩ := hs
            exact Or.inr ⟨hlim, rfl, by simp [checkGarbage]⟩
          · simp only [Option.some.injEq, Prod.mk.injEq] at hs
            obtain ⟨rfl, rfl, -⟩ := hs
            exact Or.inl ⟨Nat.lt_of_not_le hlim, rfl, rfl⟩
  | success msgId msgIdx msg k =>
      simp only [hr, Option.some.injEq, Prod.mk.injEq] at ht
      obtain ⟨rfl, -, rfl⟩ := ht
      refine Or.inr ⟨by simp, rfl, ?_⟩
      simp only [readStep, hr] at hs ⊢
      cases hc : F.m_factory.createMessage msgId (UInt32.ofNat msgIdx) with
      | none =>
          simp only [hc, Option.some.injEq, Prod.mk.injEq] at hs
          obtain ⟨rfl, rfl, -⟩ := hs
          exact ⟨rfl, _, rfl, fun _ => rfl⟩
      | some m =>
          simp only [hc, Option.some.injEq, Prod.mk.injEq] at hs
          obtain ⟨rfl, rfl, -⟩ := hs
          exact ⟨rfl, _, rfl, fun _ => rfl⟩

/-! ### What the loop does -/

/-- The garbage left over when `g` was pending. -/
theorem length_garbage_from {g : DataSeq} (hg : g.length < GarbageLimit) (buf : DataSeq) :
    (F.readLoop.scan g buf).state.length =
      (F.m_frame.walkLoop.scan { strays := g.length } buf).state.strays % GarbageLimit := by
  refine F.inStep_walkLoop.scan_rel (R := fun g w => g.length = w.strays % GarbageLimit) ?_
    (Nat.mod_eq_of_lt hg).symm buf
  intro g w buf g' out w' out' n hs ht hR
  rcases F.step_cases hs ht with
    ⟨b, l, -, -, -, rfl, ⟨hlt, rfl, -⟩ | ⟨hle, rfl, -⟩⟩ | ⟨-, rfl, rfl, -⟩
  · simp only [List.length_append, List.length_singleton, GarbageLimit] at hR hlt ⊢
    omega
  · simp only [List.length_nil, GarbageLimit] at hR hle ⊢
    omega
  · rfl

/-- The garbage left over by a fresh frame. -/
theorem length_garbage (buf : DataSeq) :
    (F.readLoop.scan [] buf).state.length = (F.m_frame.walk buf).state.strays % GarbageLimit :=
  F.length_garbage_from (g := []) (Nat.succ_pos _) buf

theorem rest_walk (g buf : DataSeq) : (F.readLoop.scan g buf).rest = (F.m_frame.walk buf).rest :=
  F.inStep_walkLoop.rest_eq g {} buf

/-- The bytes one scan passes on and keeps. -/
theorem scan_conserves (g buf : DataSeq) :
    (F.readLoop.scan g buf).out.flatMap ToolsMessage.rawData ++ (F.readLoop.scan g buf).state ++
      (F.readLoop.scan g buf).rest = g ++ buf :=
  F.readLoop.scan_conserves ToolsMessage.rawData id
    (fun g buf g' out n h => F.readStep_conserves g buf g' out n h) g buf

theorem state_lt {g : DataSeq} (hg : g.length < GarbageLimit) (buf : DataSeq) :
    (F.readLoop.scan g buf).state.length < GarbageLimit :=
  F.readLoop.scan_invariant (I := fun g => g.length < GarbageLimit)
    (fun g buf g' out n hs _ => F.readStep_garbage g buf g' out n hs) g buf hg

/-- The garbage left over was read as one stray byte after the other. -/
theorem read_error_of_suffix (g buf : DataSeq) {t : DataSeq}
    (hrest : (F.readLoop.scan g buf).rest = []) (ht : t <:+ buf) (hne : t ≠ [])
    (hlen : t.length ≤ (F.readLoop.scan g buf).state.length) : F.m_frame.read t = .error := by
  induction g, buf using F.readLoop.scan_induction with
  | halt g buf h =>
      rw [F.readLoop.scan_of_halted h] at hrest
      obtain rfl : buf = [] := hrest
      exact absurd (List.suffix_nil.mp ht) hne
  | step g buf g' out n hs ih =>
      rw [F.readLoop.scan_of_step hs] at hrest hlen
      obtain ⟨w', out', hw⟩ := F.inStep_walkLoop.step hs {}
      rcases F.step_cases hs hw with ⟨b, l, rfl, herr, rfl, -, -⟩ | ⟨-, -, rfl, -⟩
      · rcases List.suffix_cons_iff.mp ht with rfl | ht
        · exact herr
        · exact ih hrest ht hlen
      · -- what is left over comes from behind the message
        have hcons := congrArg List.length (F.scan_conserves [] (buf.drop n))
        simp only [List.length_append, List.nil_append] at hcons
        have hle : t.length ≤ (buf.drop n).length := by
          have hlen' : t.length ≤ (F.readLoop.scan [] (buf.drop n)).state.length := hlen
          omega
        exact ih hrest (List.suffix_of_suffix_length_le ht (List.drop_suffix n buf) hle) hlen

/-- A message that holds as much garbage as is ever collected. -/
def IsBlock (m : ToolsMessage φ α) : Prop :=
  ∃ data : DataSeq, m = updateRawDataInternal data createInvalidMessage ∧
    data.length = GarbageLimit

/-- Without a message on the way only full blocks of garbage are put out. -/
theorem blocks_of_onlyStray {g : DataSeq} (hg : g.length < GarbageLimit) {w : Walk}
    {buf : DataSeq} (hw : (F.m_frame.walkLoop.scan w buf).state.message = false) :
    ∀ m ∈ (F.readLoop.scan g buf).out, IsBlock m := by
  induction g, buf using F.readLoop.scan_induction generalizing w with
  | halt g buf h =>
      rw [F.readLoop.scan_of_halted h]
      intro m hm
      cases hm
  | step g buf g' out n hs ih =>
      obtain ⟨w', out', ht⟩ := F.inStep_walkLoop.step hs w
      rw [F.m_frame.walkLoop.scan_of_step ht] at hw
      have hg' := F.readStep_garbage g buf g' out n hs
      rw [F.readLoop.scan_of_step hs]
      intro m hm
      rcases List.mem_append.mp hm with hm | hm
      · rcases F.step_cases hs ht with ⟨b, l, -, -, -, -, ⟨-, -, rfl⟩ | ⟨hle, -, rfl⟩⟩ | ⟨-, rfl, -⟩
        · cases hm
        · obtain rfl := List.mem_singleton.mp hm
          refine ⟨g ++ [b], rfl, ?_⟩
          rw [List.length_append, List.length_singleton]
          omega
        · have hmet := F.m_frame.walk_message (w := { message := true, strays := 0 }) rfl
            (buf.drop n)
          exact absurd (hw.symm.trans hmet) Bool.false_ne_true
      · exact ih hg' hw m hm

/-- Blocks are told apart by their bytes. -/
theorem blocks_ext {ms ms' : List (ToolsMessage φ α)} (hms : ∀ m ∈ ms, IsBlock m)
    (hms' : ∀ m ∈ ms', IsBlock m)
    (h : ms.flatMap ToolsMessage.rawData = ms'.flatMap ToolsMessage.rawData) : ms = ms' := by
  induction ms generalizing ms' with
  | nil =>
      cases ms' with
      | nil => rfl
      | cons m' ms' =>
          obtain ⟨data, rfl, hdata⟩ := hms' m' List.mem_cons_self
          have hlen := congrArg List.length h
          simp [ToolsMessage.rawData, updateRawDataInternal, hdata, GarbageLimit] at hlen
          omega
  | cons m ms ih =>
      obtain ⟨data, rfl, hdata⟩ := hms m List.mem_cons_self
      cases ms' with
      | nil =>
          have hlen := congrArg List.length h
          simp [ToolsMessage.rawData, updateRawDataInternal, hdata, GarbageLimit] at hlen
      | cons m' ms' =>
          obtain ⟨data', rfl, hdata'⟩ := hms' m' List.mem_cons_self
          obtain ⟨hhead, htail⟩ := List.append_inj h (hdata.trans hdata'.symm)
          obtain rfl : data = data' := hhead
          rw [ih (fun m hm => hms m (List.mem_cons_of_mem _ hm))
            (fun m hm => hms' m (List.mem_cons_of_mem _ hm)) htail]

theorem dvd_length_blocks {ms : List (ToolsMessage φ α)} (hms : ∀ m ∈ ms, IsBlock m) :
    GarbageLimit ∣ (ms.flatMap ToolsMessage.rawData).length := by
  induction ms with
  | nil => exact Nat.dvd_zero _
  | cons m ms ih =>
      obtain ⟨data, rfl, hdata⟩ := hms m List.mem_cons_self
      rw [List.flatMap_cons, List.length_append]
      exact Nat.dvd_add ⟨1, hdata⟩ (ih fun m hm => hms m (List.mem_cons_of_mem _ hm))

/-- With a message on the way, the output up to the first one grows with the garbage that was
pending, and the rest of the output is the same. -/
theorem split_of_message (g g₂ : DataSeq) {w : Walk} {buf : DataSeq} (hw : w.message = false)
    (hm : (F.m_frame.walkLoop.scan w buf).state.message = true) :
    ∃ out₁ out₂ common k, (F.readLoop.scan g buf).out = out₁ ++ common ∧
      (F.readLoop.scan g₂ buf).out = out₂ ++ common ∧
      (out₁.flatMap ToolsMessage.rawData).length = g.length + k ∧
      (out₂.flatMap ToolsMessage.rawData).length = g₂.length + k := by
  induction g, buf using F.readLoop.scan_induction generalizing w g₂ with
  | halt g buf h =>
      rw [F.m_frame.walkLoop.scan_of_halted (F.inStep_walkLoop.halted h w)] at hm
      exact absurd (hw.symm.trans hm) Bool.false_ne_true
  | step g buf g' out n hs ih =>
      obtain ⟨w', out', ht⟩ := F.inStep_walkLoop.step hs w
      obtain ⟨g₂', out₂, hs₂⟩ := F.inStep_self.step hs g₂
      rw [F.m_frame.walkLoop.scan_of_step ht] at hm
      rw [F.readLoop.scan_of_step hs, F.readLoop.scan_of_step hs₂]
      rcases F.step_cases hs ht with ⟨b, l, rfl, -, rfl, rfl, -⟩ | ⟨-, -, rfl, msgs, rfl, hall⟩
      · obtain ⟨X₁, X₂, common, k, h₁, h₂, hl₁, hl₂⟩ :=
          ih g₂' (w := { w with strays := w.strays + 1 }) hw hm
        have hc := congrArg List.length (F.readStep_conserves _ _ _ _ _ hs)
        have hc₂ := congrArg List.length (F.readStep_conserves _ _ _ _ _ hs₂)
        simp only [List.length_append, List.take_succ_cons, List.take_zero,
          List.length_singleton] at hc hc₂
        refine ⟨out ++ X₁, out₂ ++ X₂, common, k + 1, ?_, ?_, ?_, ?_⟩
        · rw [Scanned.prepend_out, h₁, List.append_assoc]
        · rw [Scanned.prepend_out, h₂, List.append_assoc]
        · rw [List.flatMap_append, List.length_append, hl₁]
          omega
        · rw [List.flatMap_append, List.length_append, hl₂]
          omega
      · obtain ⟨rfl, rfl, -⟩ : g₂' = [] ∧ out₂ = checkGarbage g₂ ++ msgs ∧ n = n := by
          have hsame := Option.some.inj (hs₂.symm.trans (hall g₂))
          simpa only [Prod.mk.injEq] using hsame
        refine ⟨checkGarbage g, checkGarbage g₂,
          msgs ++ (F.readLoop.scan [] (buf.drop n)).out, 0, ?_, ?_, ?_, ?_⟩
        · rw [Scanned.prepend_out, List.append_assoc]
        · rw [Scanned.prepend_out, List.append_assoc]
        · rw [flatMap_checkGarbage, Nat.add_zero]
        · rw [flatMap_checkGarbage, Nat.add_zero]

/-! ### The final read -/

/-- After the given calls a final one leaves both buffers empty, and the messages of all calls
hold every byte that was received. -/
structure Drains (calls : List (ToolsDataInfo × Bool)) (d : ToolsDataInfo) : Prop where
  m_inData : (F.readAll {} (calls ++ [(d, true)])).1.m_inData = []
  m_garbage : (F.readAll {} (calls ++ [(d, true)])).1.m_garbage = []
  emitted : (F.readAll {} (calls ++ [(d, true)])).2.flatMap ToolsMessage.rawData =
    (calls ++ [(d, true)]).flatMap fun c => c.1.m_data

/-- A final call puts out the garbage only together with unread bytes. -/
theorem readDataImpl_final (s : FrameState) (d : ToolsDataInfo) :
    let r := F.readLoop.scan s.m_garbage (s.m_inData ++ d.m_data)
    (F.readDataImpl s d true).1 =
      { m_inData := [], m_garbage := if r.rest = [] then r.state else [] } := by
  intro r
  by_cases h : r.rest = []
  · simp only [readDataImpl, Bool.true_and, r] at h ⊢
    simp [h]
  · simp only [readDataImpl, Bool.true_and, r] at h ⊢
    simp [h]

theorem length_garbage_final {s : FrameState} (hs : s.m_garbage.length < GarbageLimit)
    (d : ToolsDataInfo) :
    (F.readDataImpl s d true).1.m_garbage.length =
      F.m_frame.strayTailFrom s.m_garbage.length (s.m_inData ++ d.m_data) % GarbageLimit := by
  have hrest := F.inStep_walkLoop.rest_eq s.m_garbage { strays := s.m_garbage.length }
    (s.m_inData ++ d.m_data)
  have hlen := F.length_garbage_from hs (s.m_inData ++ d.m_data)
  rw [readDataImpl_final, hrest]
  by_cases h : (F.m_frame.walkLoop.scan { strays := s.m_garbage.length }
      (s.m_inData ++ d.m_data)).rest = []
  · simpa [ProtFrame.strayTailFrom, h] using hlen
  · simp [ProtFrame.strayTailFrom, h]

/-- **When a final read drains the frame**: when the stray bytes at the end of the unread input,
with the pending garbage if no message comes before them, are whole blocks of 512. -/
theorem drains_iff (calls : List (ToolsDataInfo × Bool)) (d : ToolsDataInfo) :
    F.Drains calls d ↔
      512 ∣ F.m_frame.strayTailFrom (F.readAll {} calls).1.m_garbage.length
        ((F.readAll {} calls).1.m_inData ++ d.m_data) := by
  have hlen := F.length_garbage_final (F.readAll_conserves_from {} (Nat.succ_pos _) calls).2 d
  have hstate : (F.readAll {} (calls ++ [(d, true)])).1 =
      (F.readDataImpl (F.readAll {} calls).1 d true).1 := by
    rw [readAll_append]
    rfl
  have hin : (F.readAll {} (calls ++ [(d, true)])).1.m_inData = [] := by
    rw [hstate, readDataImpl_final]
  rw [← hstate] at hlen
  rw [Nat.dvd_iff_mod_eq_zero, show 512 = GarbageLimit from rfl, ← hlen,
    List.length_eq_zero_iff]
  refine ⟨fun h => h.m_garbage, fun hg => ⟨hin, hg, ?_⟩⟩
  have hcons := (F.readAll_conserves_from {} (Nat.succ_pos _) (calls ++ [(d, true)])).1
  rwa [hin, hg, List.append_nil, List.append_nil] at hcons

/-- A single stray byte stays behind. -/
theorem stray_byte_not_drained : ¬ syncFrame.Drains [] { m_data := [7] } := by
  intro h
  exact absurd h.m_garbage (by decide)

end ToolsFrame

end CcToolsQt
