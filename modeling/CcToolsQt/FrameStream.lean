import CcToolsQt.Frame

/-! # Streams through the frame

Runs of `readDataImpl` calls (`readAll`), from any state of the two buffers.

* `readAll_cuts`: without extra properties and final flags, where a byte stream is cut into
  calls does not matter.
* `readAll_conserves`: no byte is lost, duplicated or reordered by any run of calls.
* `readAll_encodeFramed`: the encodings of messages, cut in any way, are read back. -/

namespace CcToolsQt

namespace ToolsFrame
variable {φ α : Type} (F : ToolsFrame φ α)

/-- Successive calls, each with its final flag. -/
def readAll (s : FrameState) : List (ToolsDataInfo × Bool) → FrameState × List (ToolsMessage φ α)
  | [] => (s, [])
  | c :: cs =>
      let r := F.readDataImpl s c.1 c.2
      let r' := readAll r.1 cs
      (r'.1, r.2 ++ r'.2)

/-- The calls that pass the given chunks with `final = false`. -/
def notFinal (chunks : List ToolsDataInfo) : List (ToolsDataInfo × Bool) :=
  chunks.map fun d => (d, false)

/-- The states in which earlier calls, of whatever kind, leave a fresh frame. -/
def Reachable (s : FrameState) : Prop := ∃ calls, s = (F.readAll {} calls).1

theorem readAll_append (s : FrameState) (cs ds : List (ToolsDataInfo × Bool)) :
    F.readAll s (cs ++ ds) =
      ((F.readAll (F.readAll s cs).1 ds).1,
        (F.readAll s cs).2 ++ (F.readAll (F.readAll s cs).1 ds).2) := by
  induction cs generalizing s with
  | nil => rfl
  | cons c cs ih => simp only [List.cons_append, readAll, ih, List.append_assoc]

@[simp] theorem attachExtraProperties_nil (m : ToolsMessage φ α) :
    F.attachExtraProperties [] m = m := rfl

@[simp] theorem attachExtraProperties_body (p : QVariantMap) (m : ToolsMessage φ α) :
    (F.attachExtraProperties p m).body = m.body := by
  unfold attachExtraProperties
  split_ifs <;> rfl

@[simp] theorem attachExtraProperties_rawDataMsg (p : QVariantMap) (m : ToolsMessage φ α) :
    (F.attachExtraProperties p m).rawDataMsg = m.rawDataMsg := by
  unfold attachExtraProperties
  split_ifs <;> rfl

/-! ### Where the stream is cut -/

/-- A call that is not final is one run of the loop. -/
theorem readDataImpl_notFinal (s : FrameState) (d : ToolsDataInfo) :
    F.readDataImpl s d false =
      let r := F.readLoop.scan s.m_garbage (s.m_inData ++ d.m_data)
      ({ m_inData := r.rest, m_garbage := r.state },
        r.out.map (F.attachExtraProperties d.m_extraProperties)) := rfl

/-- Calls that are not final feed the loop piece by piece, up to what extra properties add. -/
theorem readAll_notFinal {γ : Type} (g : ToolsMessage φ α → γ) (s : FrameState)
    (cs : List ToolsDataInfo)
    (hg : ∀ d ∈ cs, ∀ m, g (F.attachExtraProperties d.m_extraProperties m) = g m) :
    let r := F.readLoop.feedAll s.m_garbage s.m_inData (cs.map ToolsDataInfo.m_data)
    (F.readAll s (notFinal cs)).1 = { m_inData := r.rest, m_garbage := r.state } ∧
      (F.readAll s (notFinal cs)).2.map g = r.out.map g := by
  induction cs generalizing s with
  | nil => exact ⟨rfl, rfl⟩
  | cons d cs ih =>
      obtain ⟨hs, ho⟩ := ih (F.readDataImpl s d false).1
        fun d' hd' => hg d' (List.mem_cons_of_mem _ hd')
      rw [readDataImpl_notFinal] at hs ho
      refine ⟨hs, ?_⟩
      have hd : (F.readDataImpl s d false).2.map g =
          (F.readLoop.scan s.m_garbage (s.m_inData ++ d.m_data)).out.map g := by
        rw [readDataImpl_notFinal, List.map_map]
        exact List.map_congr_left fun m _ => hg d (List.mem_cons_self) m
      simp only [notFinal, List.map_cons, readAll, List.map_append, Scanner.feedAll,
        Scanned.prepend_out]
      rw [hd]
      exact congrArg _ ho

/-- A loop over a stable frame is stable. -/
theorem readLoop_stable (h : F.m_frame.Stable) : F.readLoop.Stable := by
  intro s buf ext r hr
  have hne : F.m_frame.read buf ≠ .notEnoughData := by
    intro hnot
    simp [readLoop, readStep, hnot] at hr
  have hread := h buf ext hne
  simp only [readLoop, readStep] at hr ⊢
  rw [hread]
  cases hb : F.m_frame.read buf with
  | notEnoughData => exact absurd hb hne
  | msgAllocFailure => simp [hb] at hr
  | error =>
      cases buf with
      | nil => simp [hb] at hr
      | cons b l => simpa [hb] using hr
  | success msgId msgIdx msg n =>
      have hn := (F.m_frame.consumed_le hb).2
      simpa [hb, List.take_append_of_le_length hn] using hr

/-- Between calls the loop has nothing left to do. -/
theorem halted_of_reachable {s : FrameState} (h : F.Reachable s) :
    F.readLoop.Halted s.m_garbage s.m_inData := by
  obtain ⟨calls, rfl⟩ := h
  rcases List.eq_nil_or_concat calls with rfl | ⟨cs, c, rfl⟩
  · exact Or.inl rfl
  · rw [List.concat_eq_append, readAll_append]
    simp only [readAll, readDataImpl]
    split_ifs
    · exact Or.inl rfl
    · exact F.readLoop.scan_halted _ _

/-- **Chunking invariance**: two ways of cutting one stream give the same messages and leave the
frame in the same state.  From a state no call can leave behind, a cut must make a call. -/
theorem readAll_cuts (h : F.m_frame.Stable) (s : FrameState) (cs ds : List ToolsDataInfo)
    (hcs : ∀ d ∈ cs, d.m_extraProperties = []) (hds : ∀ d ∈ ds, d.m_extraProperties = [])
    (hstream : cs.flatMap ToolsDataInfo.m_data = ds.flatMap ToolsDataInfo.m_data)
    (hs : F.Reachable s ∨ cs ≠ [] ∧ ds ≠ []) :
    F.readAll s (notFinal cs) = F.readAll s (notFinal ds) := by
  have hid : ∀ es : List ToolsDataInfo, (∀ d ∈ es, d.m_extraProperties = []) →
      ∀ d ∈ es, ∀ m, id (F.attachExtraProperties d.m_extraProperties m) = id m := by
    intro es hes d hd m
    rw [hes d hd, attachExtraProperties_nil]
  have hc := F.readAll_notFinal id s cs (hid cs hcs)
  have hd := F.readAll_notFinal id s ds (hid ds hds)
  simp only [List.map_id] at hc hd
  have hstable := F.readLoop_stable h
  have hfeed : F.readLoop.feedAll s.m_garbage s.m_inData (cs.map ToolsDataInfo.m_data) =
      F.readLoop.feedAll s.m_garbage s.m_inData (ds.map ToolsDataInfo.m_data) := by
    rcases hs with hs | ⟨hc0, hd0⟩
    · have hh := F.halted_of_reachable hs
      rw [F.readLoop.feedAll_of_halted hstable _ _ hh, F.readLoop.feedAll_of_halted hstable _ _ hh,
        ← List.flatMap_def, ← List.flatMap_def, hstream]
    · obtain ⟨c, cs, rfl⟩ := List.exists_cons_of_ne_nil hc0
      obtain ⟨d, ds, rfl⟩ := List.exists_cons_of_ne_nil hd0
      rw [List.map_cons, List.map_cons, F.readLoop.feedAll_cons hstable,
        F.readLoop.feedAll_cons hstable, ← List.map_cons, ← List.map_cons, ← List.flatMap_def,
        ← List.flatMap_def, hstream]
  rw [hfeed] at hc
  exact Prod.ext (hc.1.trans hd.1.symm) (hc.2.trans hd.2.symm)

/-- A stray byte and two messages, cut inside the first message and not at all. -/
theorem readAll_cuts_sync :
    syncFrame.readAll {} (notFinal
        [{ m_data := [7, syncByte] }, { m_data := [1, syncByte, 2, syncByte] }]) =
      syncFrame.readAll {} (notFinal
        [{ m_data := [7, syncByte, 1, syncByte, 2, syncByte] }]) :=
  syncFrame.readAll_cuts syncFrame_stable {} _ _ (by simp) (by simp) (by simp)
    (Or.inl ⟨[], rfl⟩)

/-! ### Conservation of bytes -/

theorem flatMap_checkGarbage (g : DataSeq) :
    (checkGarbage g : List (ToolsMessage φ α)).flatMap ToolsMessage.rawData = g := by
  unfold checkGarbage
  split_ifs with h
  · simp [List.isEmpty_iff.mp h]
  · simp [updateRawDataInternal, ToolsMessage.rawData]

/-- One round moves bytes from the input to the garbage or to the messages. -/
theorem readStep_conserves (g buf g' : DataSeq) (out : List (ToolsMessage φ α)) (n : ℕ)
    (h : F.readStep g buf = some (g', out, n)) :
    out.flatMap ToolsMessage.rawData ++ g' = g ++ buf.take n := by
  unfold readStep at h
  split at h
  case h_1 => cases h
  case h_2 => cases h
  case h_3 => cases h
  case h_4 => split_ifs at h <;> (cases h; simp [flatMap_checkGarbage])
  case h_5 =>
    split at h
    · cases h
      simp [flatMap_checkGarbage]
    · cases h
      simp [flatMap_checkGarbage, updateRawDataInternal, ToolsMessage.rawData]

/-- After a round the garbage is below its limit. -/
theorem readStep_garbage (g buf g' : DataSeq) (out : List (ToolsMessage φ α)) (n : ℕ)
    (h : F.readStep g buf = some (g', out, n)) : g'.length < GarbageLimit := by
  unfold readStep at h
  split at h
  case h_1 => cases h
  case h_2 => cases h
  case h_3 => cases h
  case h_4 =>
    split_ifs at h with hlim
    · cases h
      exact Nat.succ_pos _
    · cases h
      exact Nat.lt_of_not_le hlim
  case h_5 => split at h <;> (cases h; exact Nat.succ_pos _)

theorem flatMap_attachExtraProperties (p : QVariantMap) (out : List (ToolsMessage φ α)) :
    (out.map (F.attachExtraProperties p)).flatMap ToolsMessage.rawData =
      out.flatMap ToolsMessage.rawData := by
  rw [List.flatMap_map]
  exact List.flatMap_congr fun m _ => by simp [ToolsMessage.rawData]

/-- One call conserves the bytes. -/
theorem readDataImpl_conserves (s : FrameState) (d : ToolsDataInfo) (final : Bool) :
    let r := F.readDataImpl s d final
    r.2.flatMap ToolsMessage.rawData ++ r.1.m_garbage ++ r.1.m_inData =
      s.m_garbage ++ s.m_inData ++ d.m_data := by
  have hscan := F.readLoop.scan_conserves ToolsMessage.rawData id
    (fun g buf g' out n h => F.readStep_conserves g buf g' out n h) s.m_garbage
    (s.m_inData ++ d.m_data)
  simp only [id_eq] at hscan
  simp only [readDataImpl, flatMap_attachExtraProperties]
  split_ifs
  · simpa [flatMap_checkGarbage] using hscan
  · simpa using hscan

theorem readDataImpl_garbage {s : FrameState} (h : s.m_garbage.length < GarbageLimit)
    (d : ToolsDataInfo) (final : Bool) :
    (F.readDataImpl s d final).1.m_garbage.length < GarbageLimit := by
  simp only [readDataImpl]
  split_ifs
  · exact Nat.succ_pos _
  · exact F.readLoop.scan_invariant (I := fun g => g.length < GarbageLimit)
      (fun g buf g' out n hs _ => F.readStep_garbage g buf g' out n hs) _ _ h

/-- A run of calls conserves the bytes, from any state. -/
theorem readAll_conserves_from (s : FrameState) (h : s.m_garbage.length < GarbageLimit)
    (calls : List (ToolsDataInfo × Bool)) :
    let r := F.readAll s calls
    r.2.flatMap ToolsMessage.rawData ++ r.1.m_garbage ++ r.1.m_inData =
        s.m_garbage ++ s.m_inData ++ calls.flatMap (fun c => c.1.m_data) ∧
      r.1.m_garbage.length < GarbageLimit := by
  induction calls generalizing s with
  | nil => simp [readAll, h]
  | cons c cs ih =>
      obtain ⟨hc, hg⟩ := ih _ (F.readDataImpl_garbage h c.1 c.2)
      have hd := F.readDataImpl_conserves s c.1 c.2
      refine ⟨?_, hg⟩
      set r := F.readDataImpl s c.1 c.2
      set r' := F.readAll r.1 cs
      simp only [readAll, List.flatMap_append, List.flatMap_cons]
      calc
        _ = r.2.flatMap ToolsMessage.rawData ++
              (r'.2.flatMap ToolsMessage.rawData ++ r'.1.m_garbage ++ r'.1.m_inData) := by
            simp only [List.append_assoc, r, r']
        _ = r.2.flatMap ToolsMessage.rawData ++ r.1.m_garbage ++ r.1.m_inData ++
              cs.flatMap (fun c => c.1.m_data) := by rw [hc]; simp only [List.append_assoc]
        _ = _ := by rw [hd]; simp only [List.append_assoc]

/-- **Conservation of bytes**: the raw data of all messages of a run, in order, then the pending
garbage, then the unread input are the bytes passed in; the garbage stays below its limit. -/
theorem readAll_conserves (calls : List (ToolsDataInfo × Bool)) :
    let r := F.readAll {} calls
    r.2.flatMap ToolsMessage.rawData ++ r.1.m_garbage ++ r.1.m_inData =
        calls.flatMap (fun c => c.1.m_data) ∧
      r.1.m_garbage.length < 512 := by
  exact F.readAll_conserves_from {} (Nat.succ_pos _) calls

/-! ### The messages that are read -/

/-- A message as the loop makes it: an invalid one with its bytes, or one of a class with the
bytes it was decoded from. -/
inductive AsRead : ToolsMessage φ α → Prop where
  | garbage (data : DataSeq) : AsRead { body := .invalid, rawDataMsg := some data }
  | regular (form : φ) (content : α) (data : DataSeq) :
      AsRead { body := .prot form content, transportMsg := some data, rawDataMsg := some data }

theorem asRead_checkGarbage {g : DataSeq} {m : ToolsMessage φ α} (h : m ∈ checkGarbage g) :
    AsRead m := by
  unfold checkGarbage at h
  split_ifs at h
  · simp at h
  · rw [List.mem_singleton.mp h]
    exact .garbage g

theorem readStep_asRead (g buf g' : DataSeq) (out : List (ToolsMessage φ α)) (n : ℕ)
    (h : F.readStep g buf = some (g', out, n)) : ∀ m ∈ out, AsRead m := by
  unfold readStep at h
  split at h
  case h_1 => cases h
  case h_2 => cases h
  case h_3 => cases h
  case h_4 =>
    split_ifs at h
    · cases h
      exact fun m hm => asRead_checkGarbage hm
    · cases h
      simp
  case h_5 =>
    split at h
    · cases h
      intro m hm
      exact (List.mem_append.mp hm).elim asRead_checkGarbage asRead_checkGarbage
    · rename_i hmsg
      cases h
      obtain ⟨f, -, -, rfl⟩ := ToolsMsgFactory.createMessage_eq_some_iff F.m_factory |>.mp hmsg
      intro m hm
      rcases List.mem_append.mp hm with hm | hm
      · exact asRead_checkGarbage hm
      · rw [List.mem_singleton.mp hm]
        exact .regular f _ _

/-- What a call returns, the extra properties of its chunk attached. -/
theorem readDataImpl_asRead {s : FrameState} {d : ToolsDataInfo} {final : Bool}
    {m : ToolsMessage φ α} (h : m ∈ (F.readDataImpl s d final).2) :
    ∃ m₀, AsRead m₀ ∧ m = F.attachExtraProperties d.m_extraProperties m₀ := by
  have hout := F.readLoop.scan_out F.readStep_asRead s.m_garbage (s.m_inData ++ d.m_data)
  simp only [readDataImpl] at h
  obtain ⟨m₀, hm₀, rfl⟩ := List.mem_map.mp h
  refine ⟨m₀, ?_, rfl⟩
  split_ifs at hm₀
  · exact (List.mem_append.mp hm₀).elim (hout m₀) asRead_checkGarbage
  · exact hout m₀ hm₀

/-! ### Reading back what was encoded -/

end ToolsFrame

/-- The bytes the COMMS frame writes for a message, length fields updated where it asks for it. -/
def ProtFrame.Writes {φ α : Type} (P : ProtFrame φ α) (form : φ) (content : α) (w : DataSeq) :
    Prop :=
  P.write form content = (.success, w) ∨
    ∃ data, P.write form content = (.updateRequired, data) ∧
      P.update form content data = (.success, w)

namespace ToolsFrame
variable {φ α : Type} (F : ToolsFrame φ α)

/-- The COMMS frame round-trips one message of a form that stands at `pos` in the factory: what
it writes is read as the id, index and content of the message, and as nothing less. -/
structure RoundTrips (form : φ) (content : α) (w : DataSeq) : Prop where
  writes : F.m_frame.Writes form content w
  read : ∃ pos, F.m_factory.m_defaultMsgs[pos]? = some form ∧ ∀ ext,
    F.m_frame.read (w ++ ext) = .success (F.classes.numericIdImpl form)
      (pos - F.m_factory.lowerIter (F.classes.numericIdImpl form)) content w.length
  incomplete : ∀ p, p <+: w → p ≠ w → F.m_frame.read p = .notEnoughData

/-- The message object the frame returns for bytes `w` that hold `content`. -/
def received (form : φ) (content : α) (w : DataSeq) : ToolsMessage φ α :=
  updateRawDataInternal w (updateTransportInternal w { body := .prot form content })

theorem writeProtMsgImpl_of_writes {form : φ} {content : α} {w : DataSeq}
    (h : F.m_frame.Writes form content w) : F.writeProtMsgImpl form content = w := by
  rcases h with h | ⟨data, h, hu⟩
  · simp [writeProtMsgImpl, h]
  · simp [writeProtMsgImpl, h, hu]

/-- The factory knows the id and index of every form it lists. -/
theorem createMessage_pos {pos : ℕ} {form : φ} (h : F.m_factory.m_defaultMsgs[pos]? = some form) :
    F.m_factory.createMessage (F.classes.numericIdImpl form)
        (UInt32.ofNat (pos - F.m_factory.lowerIter (F.classes.numericIdImpl form))) =
      some (ToolsMsgFactory.defaultMsg F.classes form) := by
  have hle := F.m_factory.lowerIter_le h
  have hlt : pos < 2 ^ 32 := (List.getElem?_eq_some_iff.mp h).1.trans F.m_factory.length_lt
  refine F.m_factory.createMessage_eq_some_iff.mpr ⟨form, ?_, rfl, rfl⟩
  rw [UInt32.toNat_ofNat', Nat.mod_eq_of_lt (by omega), Nat.add_sub_cancel' hle]
  exact h

/-- An encoded message is a code word of the loop, with no garbage pending. -/
theorem RoundTrips.codeword {form : φ} {content : α} {w : DataSeq}
    (h : F.RoundTrips form content w) :
    F.readLoop.Codeword [] w (received form content w) where
  read ext := by
    obtain ⟨pos, hpos, hread⟩ := h.read
    have hc := F.createMessage_pos hpos
    have htake : (w ++ ext).take w.length = w := List.take_left
    simp only [readLoop, readStep, hread, hc, htake]
    rfl
  incomplete p hp hne := by
    simp [readLoop, readStep, h.incomplete p hp hne]

/-- **Decoding undoes encoding**: the `encodeFramed` outputs of a list of messages, cut in any
way, are read back as these messages, each with its own bytes, and nothing is left over. -/
theorem readAll_encodeFramed (msgs : List (ToolsMessage φ α))
    (hmsgs : ∀ m ∈ msgs, ∃ form content w, m.body = .prot form content ∧
      F.RoundTrips form content w)
    (chunks : List ToolsDataInfo)
    (hchunks : chunks.flatMap ToolsDataInfo.m_data = msgs.flatMap F.encodeFramed) :
    let r := F.readAll {} (notFinal chunks)
    r.2.map ToolsMessage.body = msgs.map ToolsMessage.body ∧
      (∀ m ∈ r.2, m.body ≠ .invalid) ∧
      r.2.map ToolsMessage.rawDataMsg = msgs.map (fun m => some (F.encodeFramed m)) ∧
      r.1 = {} := by
  -- pair each encoding with the object it is read as
  have hword : ∀ m ∈ msgs, ∃ form content, m.body = .prot form content ∧
      F.RoundTrips form content (F.encodeFramed m) := by
    intro m hm
    obtain ⟨form, content, w, hb, hr⟩ := hmsgs m hm
    have e : F.encodeFramed m = w := by
      simp only [encodeFramed, hb]
      exact F.writeProtMsgImpl_of_writes hr.writes
    exact ⟨form, content, hb, e ▸ hr⟩
  let word (m : ToolsMessage φ α) : DataSeq × ToolsMessage φ α :=
    (F.encodeFramed m,
      updateRawDataInternal (F.encodeFramed m)
        (updateTransportInternal (F.encodeFramed m) { body := m.body }))
  have hawait : F.readLoop.Awaiting [] [] (msgs.map word)
      (chunks.map ToolsDataInfo.m_data).flatten := by
    refine ⟨?_, Or.inl rfl, ?_⟩
    · intro v hv
      obtain ⟨m, hm, rfl⟩ := List.mem_map.mp hv
      obtain ⟨form, content, hb, hr⟩ := hword m hm
      have hcode := RoundTrips.codeword F hr
      simpa [word, received, hb] using hcode
    · simp only [List.nil_append, List.map_map]
      rw [← List.flatMap_def, hchunks, List.flatMap_def]
      rfl
  have hfeed := F.readLoop.feedAll_codewords [] _ _ hawait
  obtain ⟨hs, hbody⟩ := F.readAll_notFinal ToolsMessage.body {} chunks
    fun d _ m => F.attachExtraProperties_body _ m
  obtain ⟨-, hraw⟩ := F.readAll_notFinal ToolsMessage.rawDataMsg {} chunks
    fun d _ m => F.attachExtraProperties_rawDataMsg _ m
  simp only [hfeed, List.map_map] at hs hbody hraw
  have hb : (F.readAll {} (notFinal chunks)).2.map ToolsMessage.body =
      msgs.map ToolsMessage.body := by
    rw [hbody]
    exact List.map_congr_left fun m _ => rfl
  refine ⟨hb, ?_, ?_, hs⟩
  · intro m hm hinv
    have hmem : m.body ∈ msgs.map ToolsMessage.body := hb ▸ List.mem_map_of_mem hm
    obtain ⟨m', hm', e⟩ := List.mem_map.mp hmem
    obtain ⟨form, content, -, hb', -⟩ := hmsgs m' hm'
    rw [hb', hinv] at e
    cases e
  · rw [hraw]
    exact List.map_congr_left fun m _ => rfl

theorem roundTrips_syncFrame (c : UInt8) : syncFrame.RoundTrips () c [syncByte, c] where
  writes := Or.inl rfl
  read := ⟨0, rfl, fun _ => rfl⟩
  incomplete p hp hne := by
    obtain ⟨t, ht⟩ := hp
    match p, ht, hne with
    | [], _, _ => rfl
    | [b], ht, _ =>
        obtain rfl : b = syncByte := by simpa using (List.cons.inj ht).1
        rfl
    | [a, b], ht, hne =>
        obtain rfl : t = [] := by simpa using congrArg List.length ht
        exact absurd (by simpa using ht) hne
    | a :: b :: d :: l, ht, _ => simp at ht

/-- Two messages, the cut inside the first one. -/
theorem readAll_encodeFramed_sync :
    let r := syncFrame.readAll {} (notFinal
      [{ m_data := [syncByte] }, { m_data := [1, syncByte, 2] }])
    r.2.map ToolsMessage.body = [.prot () 1, .prot () 2] ∧ (∀ m ∈ r.2, m.body ≠ .invalid) ∧
      r.2.map ToolsMessage.rawDataMsg = [some [syncByte, 1], some [syncByte, 2]] ∧ r.1 = {} := by
  refine syncFrame.readAll_encodeFramed
    [{ body := .prot () 1 }, { body := .prot () 2 }] ?_ _ rfl
  intro m hm
  simp only [List.mem_cons, List.not_mem_nil, or_false] at hm
  rcases hm with rfl | rfl
  · exact ⟨(), 1, _, rfl, roundTrips_syncFrame 1⟩
  · exact ⟨(), 2, _, rfl, roundTrips_syncFrame 2⟩

end ToolsFrame

end CcToolsQt
