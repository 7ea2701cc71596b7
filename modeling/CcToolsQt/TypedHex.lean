import CcToolsQt.FrameWalk
import CcToolsQt.MsgFile

/-! # Typed bytes

`RawHexDataDialog` turns a typed text into messages, on request by the protocol object that also
reads what the socket receives.

* `undisturbed_iff`: when neither side notices the other.  The frame must have nothing pending and
  must have nothing pending afterwards: `final` puts out the unread bytes, but stray bytes at the
  very end of the text stay behind as pending garbage. -/

namespace CcToolsQt

namespace RawHexDataDialog
variable {φ α : Type}

/-! ### The dialog -/

/-- `addValueFunc`: the byte that one or two digits spell. -/
def value (numStr : QString) : UInt8 := UInt8.ofNat ((QString.integerVal 16 numStr).getD 0).toNat

/-- The loop of `accept` for one character, with the bytes so far and the digits of the next. -/
def typeChar (r : DataSeq × QString) (ch : Char) : DataSeq × QString :=
  if QString.isSpace ch then
    if r.2.isEmpty then r else (r.1 ++ [value r.2], [])
  else
    let numStr := r.2 ++ [ch]
    if numStr.length < 2 then (r.1, numStr) else (r.1 ++ [value numStr], [])

/-- The bytes of a text. -/
def typedBytes (str : QString) : DataSeq :=
  let r := str.foldl typeChar ([], [])
  if r.2.isEmpty then r.1 else r.1 ++ [value r.2]

/-- `accept`: the frame and the list of messages of the dialog afterwards. -/
def accept (P : ToolsProtocol φ α) (now : ℕ) (s : FrameState) (msgs : List (ToolsMessage φ α))
    (convert : Bool) (str : QString) : FrameState × List (ToolsMessage φ α) :=
  let dataInfo : ToolsDataInfo := { m_timestamp := now, m_data := typedBytes str }
  if !convert then (s, msgs ++ [P.createInvalidMessage dataInfo.m_data])
  else P.read s dataInfo true

/-- Two digits are one byte. -/
theorem foldl_byteStr (data : DataSeq) (b : UInt8) :
    (ToolsMsgFileMgr.byteStr b).foldl typeChar (data, []) = (data ++ [b], []) := by
  have hdiv : b.toNat / 16 < 16 := Nat.div_lt_of_lt_mul b.toNat_lt
  have hmod : b.toNat % 16 < 16 := Nat.mod_lt _ (by norm_num)
  have hval := ToolsMsgFileMgr.bytesOf_flatMap [b]
  simp only [List.flatMap_cons, List.flatMap_nil, List.append_nil, ToolsMsgFileMgr.byteStr_eq,
    ToolsMsgFileMgr.bytesOf, List.cons.injEq, and_true] at hval
  simp [ToolsMsgFileMgr.byteStr_eq, typeChar, QString.isSpace_digitChar hdiv,
    QString.isSpace_digitChar hmod, value, hval]

/-- Every sequence of bytes can be typed. -/
theorem typedBytes_flatMap (data : DataSeq) :
    typedBytes (data.flatMap ToolsMsgFileMgr.byteStr) = data := by
  suffices h : ∀ done : DataSeq,
      (data.flatMap ToolsMsgFileMgr.byteStr).foldl typeChar (done, []) = (done ++ data, []) by
    rw [typedBytes, h []]
    rfl
  induction data with
  | nil => simp
  | cons b data ih =>
      intro done
      rw [List.flatMap_cons, List.foldl_append, foldl_byteStr, ih, List.append_assoc]
      rfl

/-- Typing and receiving do not notice each other: the messages are those of a fresh frame, and
what is received later is read as if nothing had been typed. -/
structure Undisturbed (P : ToolsProtocol φ α) (s : FrameState) (str : QString) : Prop where
  converted : ∀ now msgs, (accept P now s msgs true str).2 = (accept P now {} msgs true str).2
  reception : ∀ now msgs (chunks : List ToolsDataInfo),
    (P.readAll (accept P now s msgs true str).1 (ToolsFrame.notFinal chunks)).2 =
      (P.readAll s (ToolsFrame.notFinal chunks)).2

end RawHexDataDialog

/-! ### The call of `read` -/

namespace ToolsProtocol
variable {φ α : Type} (P : ToolsProtocol φ α)

theorem flatMap_setName (ms : List (ToolsMessage φ α)) :
    (ms.map P.setNameToMessageProperties).flatMap ToolsMessage.rawData =
      ms.flatMap ToolsMessage.rawData := by
  rw [List.flatMap_map]
  rfl

/-- Bytes that are read to the end leave garbage, other bytes leave nothing. -/
theorem read_final (s : FrameState) (now : ℕ) (b : DataSeq) :
    let r := P.m_frame.readLoop.scan s.m_garbage (s.m_inData ++ b)
    P.read s { m_timestamp := now, m_data := b } true =
      if r.rest = [] then ({ m_garbage := r.state }, r.out.map P.setNameToMessageProperties)
      else ({}, (r.out ++ ToolsFrame.checkGarbage (r.state ++ r.rest)).map
        P.setNameToMessageProperties) := by
  intro r
  have hid : P.m_frame.attachExtraProperties [] = id :=
    funext fun m => P.m_frame.attachExtraProperties_nil m
  simp only [read, ToolsFrame.readDataImpl, hid, List.map_id, Bool.true_and]
  by_cases h : r.rest = []
  · simp only [r] at h ⊢
    simp [h]
  · simp only [r] at h ⊢
    simp [h]

/-- The same call without the final flag. -/
theorem read_notFinal (s : FrameState) (now : ℕ) (b : DataSeq) :
    let r := P.m_frame.readLoop.scan s.m_garbage (s.m_inData ++ b)
    P.read s { m_timestamp := now, m_data := b } false =
      ({ m_inData := r.rest, m_garbage := r.state },
        r.out.map P.setNameToMessageProperties) := by
  have hid : P.m_frame.attachExtraProperties [] = id :=
    funext fun m => P.m_frame.attachExtraProperties_nil m
  simp [read, ToolsFrame.readDataImpl, hid]

/-- A call that reads all of its bytes does the same whether it is the last or not. -/
theorem read_of_rest_nil {s : FrameState} (now : ℕ) {b : DataSeq}
    (hrest : (P.m_frame.readLoop.scan s.m_garbage (s.m_inData ++ b)).rest = []) (final : Bool) :
    P.read s { m_timestamp := now, m_data := b } final =
      ({ m_garbage := (P.m_frame.readLoop.scan s.m_garbage (s.m_inData ++ b)).state },
        (P.m_frame.readLoop.scan s.m_garbage (s.m_inData ++ b)).out.map
          P.setNameToMessageProperties) := by
  cases final with
  | true => exact (P.read_final s now b).trans (if_pos hrest)
  | false =>
      have hread := P.read_notFinal s now b
      dsimp only at hread
      rwa [hrest] at hread

/-- A run of calls passes on the bytes it does not keep. -/
theorem readAll_conserves_from {s : FrameState} (hs : s.m_garbage.length < ToolsFrame.GarbageLimit)
    (calls : List (ToolsDataInfo × Bool)) :
    (P.readAll s calls).2.flatMap ToolsMessage.rawData ++ (P.readAll s calls).1.m_garbage ++
          (P.readAll s calls).1.m_inData =
        s.m_garbage ++ s.m_inData ++ calls.flatMap (fun c => c.1.m_data) ∧
      (P.readAll s calls).1.m_garbage.length < ToolsFrame.GarbageLimit := by
  have h := P.m_frame.readAll_conserves_from s hs calls
  rw [readAll_eq, flatMap_setName]
  exact h

/-- Bytes that a fresh frame reads to the end leave only garbage behind, however often. -/
theorem readAll_replicate {b : DataSeq} (hb : (P.m_frame.m_frame.walk b).rest = [])
    (now : ℕ) (k : ℕ)
    (g : DataSeq) :
    (P.readAll { m_garbage := g } (ToolsFrame.notFinal
      (List.replicate k { m_timestamp := now, m_data := b }))).1.m_inData = [] := by
  induction k generalizing g with
  | zero => rfl
  | succ k ih =>
      have hread := P.read_notFinal { m_garbage := g } now b
      have hrest : (P.m_frame.readLoop.scan g ([] ++ b)).rest = [] := by
        rw [List.nil_append, P.m_frame.rest_walk, hb]
      simp only [hrest] at hread
      simp only [ToolsFrame.notFinal, List.replicate_succ, List.map_cons, readAll, hread]
      exact ih _

end ToolsProtocol

/-! ### When neither notices the other -/

namespace RawHexDataDialog
variable {φ α : Type} (P : ToolsProtocol φ α)

/-- Nothing is left behind in a fresh frame if and only if the stray bytes at the end fill whole
blocks. -/
theorem fresh_after_iff (now : ℕ) (b : DataSeq) :
    (P.read {} { m_timestamp := now, m_data := b } true).1 = {} ↔
      512 ∣ P.m_frame.m_frame.strayTail b := by
  have hread := P.read_final {} now b
  have hrest := P.m_frame.rest_walk [] b
  have hlen := P.m_frame.length_garbage b
  simp only [List.nil_append] at hread
  rw [hread, hrest]
  unfold ProtFrame.strayTail
  by_cases h : (P.m_frame.m_frame.walk b).rest = []
  · rw [if_pos h, if_pos (by simp [h]), Nat.dvd_iff_mod_eq_zero]
    rw [ToolsFrame.GarbageLimit] at hlen
    rw [← hlen, List.length_eq_zero_iff, FrameState.mk.injEq]
    exact and_iff_right rfl
  · rw [if_neg h, if_neg (by simp [h])]
    exact iff_of_true rfl (Nat.dvd_zero _)

/-- Pending garbage and stray bytes that repeat it. -/
theorem read_repeated {s : FrameState} (hs : s.m_garbage.length < ToolsFrame.GarbageLimit)
    (hi : s.m_inData = []) {b : DataSeq} (hb : P.m_frame.m_frame.OnlyStray b)
    (hcomm : s.m_garbage ++ b = b ++ s.m_garbage) (hdvd : 512 ∣ P.m_frame.m_frame.strayTail b)
    (now : ℕ) :
    P.read s { m_timestamp := now, m_data := b } true =
      (s, (P.read {} { m_timestamp := now, m_data := b } true).2) := by
  obtain ⟨i, g⟩ := s
  obtain rfl : i = [] := hi
  have hread := P.read_final ⟨[], g⟩ now b
  have hfresh := P.read_final {} now b
  have hrest := P.m_frame.rest_walk g b
  have hrest₀ := P.m_frame.rest_walk [] b
  rw [hb.1] at hrest hrest₀
  simp only [List.nil_append, hrest, hrest₀, if_true] at hread hfresh
  have hempty := (fresh_after_iff P now b).mpr hdvd
  rw [hfresh, FrameState.mk.injEq] at hempty
  have hc := P.m_frame.scan_conserves g b
  have hc₀ := P.m_frame.scan_conserves [] b
  rw [hrest, List.append_nil] at hc
  rw [hrest₀, hempty.2, List.append_nil, List.append_nil, List.nil_append] at hc₀
  have hblocks := P.m_frame.blocks_of_onlyStray hs hb.2
  have hblocks₀ := P.m_frame.blocks_of_onlyStray (g := []) (Nat.succ_pos _) hb.2
  -- the blocks of both calls are those of `b`, which fills them
  have hlen : (P.m_frame.readLoop.scan g b).state.length = g.length := by
    have hstate := P.m_frame.state_lt hs b
    have hd := ToolsFrame.dvd_length_blocks hblocks
    have hd₀ := ToolsFrame.dvd_length_blocks hblocks₀
    have hsum := congrArg List.length hc
    rw [List.length_append, List.length_append] at hsum
    rw [hc₀] at hd₀
    rw [ToolsFrame.GarbageLimit] at hs hstate hd hd₀
    dsimp only at hs hd hstate
    omega
  have hsplit := List.append_inj' (hc.trans hcomm) hlen
  have hout := ToolsFrame.blocks_ext hblocks hblocks₀ (hsplit.1.trans hc₀.symm)
  have hstate : (P.m_frame.readLoop.scan g b).state = g := hsplit.2
  rw [hread, hfresh, hstate]
  exact congrArg _ (congrArg _ hout)

/-- What one call passes on and keeps. -/
theorem read_conserves (s : FrameState) (now : ℕ) (b : DataSeq) :
    (P.read s { m_timestamp := now, m_data := b } true).2.flatMap ToolsMessage.rawData ++
        (P.read s { m_timestamp := now, m_data := b } true).1.m_garbage ++
        (P.read s { m_timestamp := now, m_data := b } true).1.m_inData =
      s.m_garbage ++ s.m_inData ++ b := by
  have h := P.m_frame.readDataImpl_conserves s { m_timestamp := now, m_data := b } true
  simp only [ToolsProtocol.read, ToolsProtocol.flatMap_setName]
  exact h

/-- If the end of the bytes is flushed, pending bytes would be seen in the messages. -/
theorem eq_fresh_of_flush {s : FrameState} {now : ℕ} {b : DataSeq}
    (hA : (P.read s { m_timestamp := now, m_data := b } true).2 =
      (P.read {} { m_timestamp := now, m_data := b } true).2)
    (hrest : (P.m_frame.readLoop.scan s.m_garbage (s.m_inData ++ b)).rest ≠ []) : s = {} := by
  have hc := congrArg List.length (read_conserves P s now b)
  have hc₀ := congrArg List.length (read_conserves P {} now b)
  have hfinal := P.read_final s now b
  dsimp only at hfinal
  rw [if_neg hrest] at hfinal
  rw [hA, congrArg Prod.fst hfinal] at hc
  simp only [List.length_append, List.length_nil, Nat.add_zero, Nat.zero_add] at hc hc₀
  obtain ⟨i, g⟩ := s
  rw [FrameState.mk.injEq, ← List.length_eq_zero_iff, ← List.length_eq_zero_iff]
  dsimp only at hc
  omega

section
variable {s : FrameState} {now : ℕ} {b : DataSeq}

/-- If reception goes on as if nothing had happened, the same bytes bring the same messages again
and again. -/
theorem outputs_replicate {r : FrameState × List (ToolsMessage φ α)}
    (hread : P.read s { m_timestamp := now, m_data := b } false = r)
    (hB : ∀ chunks, (P.readAll r.1 (ToolsFrame.notFinal chunks)).2 =
      (P.readAll s (ToolsFrame.notFinal chunks)).2) (k : ℕ) :
    (P.readAll s (ToolsFrame.notFinal
      (List.replicate k { m_timestamp := now, m_data := b }))).2 =
        (List.replicate k r.2).flatten := by
  induction k with
  | zero => rfl
  | succ k ih =>
      have hnext := hB (List.replicate k { m_timestamp := now, m_data := b })
      rw [ih] at hnext
      simp only [ToolsFrame.notFinal, List.map_replicate] at hnext
      simp only [ToolsFrame.notFinal, List.replicate_succ, List.map_cons, ToolsProtocol.readAll,
        hread, List.flatten_cons, List.map_replicate]
      rw [hnext]

theorem flatMap_replicate (msgs : List (ToolsMessage φ α)) (k : ℕ) :
    (List.replicate k msgs).flatten.flatMap ToolsMessage.rawData =
      (List.replicate k (msgs.flatMap ToolsMessage.rawData)).flatten := by
  rw [List.flatMap_def, List.map_flatten, List.flatten_flatten]
  simp [List.flatMap_def]

theorem flatMap_notFinal (k : ℕ) :
    (ToolsFrame.notFinal (List.replicate k
      { m_timestamp := now, m_data := b })).flatMap (fun c => c.1.m_data) =
        (List.replicate k b).flatten := by
  simp [ToolsFrame.notFinal, List.flatMap_def]

/-- A frame that is not flushed and goes on as before gets back all that is typed: garbage that is
left over would pile up. -/
theorem fresh_empty (hs : s.m_garbage.length < ToolsFrame.GarbageLimit)
    (hA : (P.read s { m_timestamp := now, m_data := b } true).2 =
      (P.read {} { m_timestamp := now, m_data := b } true).2)
    (hB : ∀ chunks, (P.readAll (P.read s { m_timestamp := now, m_data := b } true).1
        (ToolsFrame.notFinal chunks)).2 = (P.readAll s (ToolsFrame.notFinal chunks)).2)
    (hrest : (P.m_frame.readLoop.scan s.m_garbage (s.m_inData ++ b)).rest = []) :
    (P.read {} { m_timestamp := now, m_data := b } true).1 = {} := by
  have hfresh := P.read_final {} now b
  have hwalk := P.m_frame.rest_walk [] b
  simp only [List.nil_append] at hfresh
  by_cases h₀ : (P.m_frame.m_frame.walk b).rest = []
  · rw [hwalk, if_pos h₀] at hfresh
    have hfinal := P.read_of_rest_nil now hrest true
    have hread := (P.read_of_rest_nil now hrest false).trans hfinal.symm
    have hstate := P.m_frame.state_lt hs (s.m_inData ++ b)
    have hpile : ∀ k, k * (P.m_frame.readLoop.scan [] b).state.length <
        ToolsFrame.GarbageLimit := by
      intro k
      have hout := outputs_replicate P hread hB k
      rw [← hB, congrArg Prod.fst hfinal] at hout
      obtain ⟨hc, hlt⟩ := P.readAll_conserves_from
        (s := { m_garbage := (P.m_frame.readLoop.scan s.m_garbage (s.m_inData ++ b)).state }) hstate
        (ToolsFrame.notFinal (List.replicate k { m_timestamp := now, m_data := b }))
      rw [hout, P.readAll_replicate h₀, flatMap_replicate, flatMap_notFinal, hA] at hc
      have hc₀ := congrArg List.length (read_conserves P {} now b)
      have hlen := congrArg List.length hc
      rw [hfresh] at hc₀ hlen
      simp only [List.length_append, List.length_nil, Nat.add_zero, Nat.zero_add,
        List.length_flatten, List.map_replicate, List.sum_replicate_nat] at hc₀ hlen
      rw [← hc₀, Nat.mul_add] at hlen
      omega
    have hempty : (P.m_frame.readLoop.scan [] b).state.length = 0 := by
      have h512 := hpile 512
      rw [ToolsFrame.GarbageLimit] at h512
      omega
    rw [hfresh, List.length_eq_zero_iff.mp hempty]
  · rw [hwalk, if_neg h₀] at hfresh
    rw [hfresh]

/-- Bytes before a word that repeats are the same on both sides of it. -/
theorem prefix_unique {u v w x : DataSeq} {k : ℕ} (hk : u.length ≤ k * w.length)
    (huv : u.length = v.length)
    (hu : (List.replicate k w).flatten ++ x = u ++ (List.replicate k w).flatten)
    {y : DataSeq} (hv : (List.replicate k w).flatten ++ y = v ++ (List.replicate k w).flatten) :
    u = v := by
  have hlen : u.length ≤ ((List.replicate k w).flatten).length := by
    simpa [List.length_flatten] using hk
  have hu' := congrArg (List.take u.length) hu
  have hv' := congrArg (List.take v.length) hv
  rw [List.take_append_of_le_length hlen, List.take_left] at hu'
  rw [List.take_append_of_le_length (huv ▸ hlen), List.take_left] at hv'
  rw [← hu', ← hv', huv]

/-- What a frame that is not flushed and goes on as before had pending, once it gets back what is
typed: the bytes it keeps are those it had. -/
theorem pending_kept (hs : s.m_garbage.length < ToolsFrame.GarbageLimit)
    (hA : (P.read s { m_timestamp := now, m_data := b } true).2 =
      (P.read {} { m_timestamp := now, m_data := b } true).2)
    (hB : ∀ chunks, (P.readAll (P.read s { m_timestamp := now, m_data := b } true).1
        (ToolsFrame.notFinal chunks)).2 = (P.readAll s (ToolsFrame.notFinal chunks)).2)
    (hrest : (P.m_frame.readLoop.scan s.m_garbage (s.m_inData ++ b)).rest = []) (hb : b ≠ []) :
    (P.m_frame.readLoop.scan s.m_garbage (s.m_inData ++ b)).state = s.m_garbage ++ s.m_inData ∧
      s.m_garbage ++ s.m_inData ++ b = b ++ (s.m_garbage ++ s.m_inData) := by
  have hfinal := P.read_of_rest_nil now hrest true
  have hread := (P.read_of_rest_nil now hrest false).trans hfinal.symm
  -- the messages hold just what was typed
  have hraw : (P.read s { m_timestamp := now, m_data := b } true).2.flatMap
      ToolsMessage.rawData = b := by
    have hc₀ := read_conserves P {} now b
    rw [← hA, fresh_empty P hs hA hB hrest] at hc₀
    simpa using hc₀
  have hc := read_conserves P s now b
  rw [hraw, congrArg Prod.fst hfinal] at hc
  simp only [List.append_nil] at hc
  have hlen := congrArg List.length hc
  simp only [List.length_append] at hlen
  set state := (P.m_frame.readLoop.scan s.m_garbage (s.m_inData ++ b)).state
  have hk : state.length ≤ state.length * b.length :=
    Nat.le_mul_of_pos_right _ (List.length_pos_iff_ne_nil.mpr hb)
  have hout := outputs_replicate P hread hB state.length
  have hs' := (P.readAll_conserves_from hs (ToolsFrame.notFinal
    (List.replicate state.length { m_timestamp := now, m_data := b }))).1
  rw [hout, flatMap_replicate, flatMap_notFinal, hraw, List.append_assoc] at hs'
  rw [← hB, congrArg Prod.fst hfinal] at hout
  have hstate' := (P.readAll_conserves_from (s := { m_garbage := state })
    (P.m_frame.state_lt hs (s.m_inData ++ b)) (ToolsFrame.notFinal
      (List.replicate state.length { m_timestamp := now, m_data := b }))).1
  rw [hout, flatMap_replicate, flatMap_notFinal, hraw, List.append_assoc] at hstate'
  simp only [List.append_nil] at hstate'
  have heq : state = s.m_garbage ++ s.m_inData :=
    prefix_unique hk (by rw [List.length_append]; omega) hstate' hs'
  exact ⟨heq, by rw [← hc, heq]⟩

/-- A frame that is not flushed and goes on as before had only garbage pending, which the typed
bytes, all of them stray, repeat. -/
theorem repeated_of_pending (hs : s.m_garbage.length < ToolsFrame.GarbageLimit)
    (hh : P.m_frame.readLoop.Halted s.m_garbage s.m_inData)
    (hA : (P.read s { m_timestamp := now, m_data := b } true).2 =
      (P.read {} { m_timestamp := now, m_data := b } true).2)
    (hB : ∀ chunks, (P.readAll (P.read s { m_timestamp := now, m_data := b } true).1
        (ToolsFrame.notFinal chunks)).2 = (P.readAll s (ToolsFrame.notFinal chunks)).2)
    (hrest : (P.m_frame.readLoop.scan s.m_garbage (s.m_inData ++ b)).rest = [])
    (hne : s ≠ {}) :
    s.m_inData = [] ∧ P.m_frame.m_frame.OnlyStray b ∧
      s.m_garbage ++ b = b ++ s.m_garbage := by
  by_cases hb : b = []
  · subst hb
    rw [List.append_nil, P.m_frame.readLoop.scan_of_halted hh] at hrest
    exact ⟨hrest, ⟨rfl, rfl⟩, List.append_nil _⟩
  · obtain ⟨hstate, hcomm⟩ := pending_kept P hs hA hB hrest hb
    -- unread input would have been read as garbage, and would not have waited for more
    have hi : s.m_inData = [] := by
      by_contra hi
      have hsuffix : s.m_inData <:+ s.m_inData ++ b := by
        have hleft : s.m_inData <:+ s.m_garbage ++ (s.m_inData ++ b) := by
          rw [← List.append_assoc, hcomm, ← List.append_assoc]
          exact List.suffix_append _ _
        have hright : s.m_inData ++ b <:+ s.m_garbage ++ (s.m_inData ++ b) :=
          List.suffix_append _ _
        exact List.suffix_of_suffix_length_le hleft hright (by rw [List.length_append]; omega)
      have herr := P.m_frame.read_error_of_suffix _ _ hrest hsuffix hi
        (by rw [hstate, List.length_append]; omega)
      have hnone := hh.resolve_left hi
      obtain ⟨x, l, hx⟩ := List.exists_cons_of_ne_nil hi
      rw [hx] at herr hnone
      simp only [ToolsFrame.readLoop, ToolsFrame.readStep, herr] at hnone
      split_ifs at hnone
    rw [hi, List.append_nil] at hcomm
    rw [hi, List.nil_append] at hrest
    have hwalk : (P.m_frame.m_frame.walk b).rest = [] := (P.m_frame.rest_walk _ b).symm.trans hrest
    refine ⟨hi, ⟨hwalk, ?_⟩, hcomm⟩
    -- a message would come with more garbage than it does on a fresh frame
    by_contra hm
    obtain ⟨out₁, out₂, common, k, h₁, h₂, hlen₁, hlen₂⟩ :=
      P.m_frame.split_of_message s.m_garbage [] (w := {}) rfl (Bool.eq_true_of_not_eq_false hm)
    have hfinal := P.read_final s now b
    have hfresh := P.read_final {} now b
    rw [hi] at hfinal
    simp only [List.nil_append, hrest, P.m_frame.rest_walk [] b, hwalk, if_true] at hfinal hfresh
    rw [hfinal, hfresh, h₁, h₂] at hA
    simp only [List.map_append, List.append_cancel_right_eq] at hA
    have hraw := congrArg (List.flatMap ToolsMessage.rawData) hA
    rw [P.flatMap_setName, P.flatMap_setName] at hraw
    rw [hraw, hlen₂, List.length_nil] at hlen₁
    have hg : s.m_garbage = [] := List.length_eq_zero_iff.mp (by omega)
    exact hne (FrameState.ext hi hg)

end

/-- **When neither notices the other**: for every state that earlier calls can leave, exactly when
the stray bytes at the end of what is typed fill whole blocks of 512 bytes (or there are none), and
nothing is pending in the frame.  The one exception is pending garbage that is repeated by the
typed bytes, all of them stray. -/
theorem undisturbed_iff (s : FrameState) (hs : P.m_frame.Reachable s) (str : QString) :
    Undisturbed P s str ↔
      512 ∣ P.m_frame.m_frame.strayTail (typedBytes str) ∧
        (s = {} ∨ s.m_inData = [] ∧ P.m_frame.m_frame.OnlyStray (typedBytes str) ∧
          s.m_garbage ++ typedBytes str = typedBytes str ++ s.m_garbage) := by
  have hh := P.m_frame.halted_of_reachable hs
  have hlt : s.m_garbage.length < ToolsFrame.GarbageLimit := by
    obtain ⟨calls, rfl⟩ := hs
    exact (P.m_frame.readAll_conserves_from {} (Nat.succ_pos _) calls).2
  constructor
  · rintro ⟨hA, hB⟩
    have hA' := hA 0 []
    have hB' := hB 0 []
    by_cases hrest : (P.m_frame.readLoop.scan s.m_garbage
        (s.m_inData ++ typedBytes str)).rest = []
    · refine ⟨(fresh_after_iff P 0 _).mp (fresh_empty P hlt hA' hB' hrest), ?_⟩
      by_cases hne : s = {}
      · exact Or.inl hne
      · exact Or.inr (repeated_of_pending P hlt hh hA' hB' hrest hne)
    · have hfresh := eq_fresh_of_flush P hA' hrest
      refine ⟨(fresh_after_iff P 0 _).mp ?_, Or.inl hfresh⟩
      subst hfresh
      have hfinal := P.read_final {} 0 (typedBytes str)
      dsimp only at hfinal
      rw [if_neg hrest] at hfinal
      rw [hfinal]
  · rintro ⟨hdvd, rfl | ⟨hi, hb, hcomm⟩⟩
    · refine ⟨fun _ _ => rfl, fun now msgs chunks => ?_⟩
      have hempty : (accept P now {} msgs true str).1 = {} := (fresh_after_iff P now _).mpr hdvd
      rw [hempty]
    · have hread := fun now => read_repeated P hlt hi hb hcomm hdvd now
      refine ⟨fun now msgs => ?_, fun now msgs chunks => ?_⟩
      · have hout := congrArg Prod.snd (hread now)
        exact hout
      have hsame : (accept P now s msgs true str).1 = s := congrArg Prod.fst (hread now)
      rw [hsame]

/-- The garbage that is pending goes with a whole message that is typed. -/
theorem undisturbed_iff_whole :
    let P : ToolsProtocol Unit UInt8 := { name := [], m_frame := syncFrame }
    P.m_frame.Reachable { m_garbage := [5] } ∧
      ¬ Undisturbed P { m_garbage := [5] } ['a', 'b', '0', '1'] := by
  intro P
  have hreach : P.m_frame.Reachable { m_garbage := [5] } :=
    ⟨ToolsFrame.notFinal [{ m_data := [5] }], rfl⟩
  refine ⟨hreach, fun h => ?_⟩
  obtain ⟨-, hfresh | ⟨-, -, hcomm⟩⟩ :=
    (undisturbed_iff P { m_garbage := [5] } hreach ['a', 'b', '0', '1']).mp h
  · exact absurd (congrArg FrameState.m_garbage hfresh) (by decide)
  · exact absurd hcomm (by decide)

/-- The start of a message that was received is taken for the start of what is typed. -/
theorem typed_disturbs :
    let P : ToolsProtocol Unit UInt8 := { name := [], m_frame := syncFrame }
    P.m_frame.Reachable { m_inData := [syncByte] } ∧
      ¬ Undisturbed P { m_inData := [syncByte] } ['a', 'b', '0', '1'] := by
  intro P
  refine ⟨⟨ToolsFrame.notFinal [{ m_data := [syncByte] }], rfl⟩, fun h => ?_⟩
  have hbodies := congrArg (List.map ToolsMessage.body) (h.converted 0 [])
  exact absurd hbodies (by decide)

end RawHexDataDialog

end CcToolsQt
