import CcToolsQt.Lib.Stages
import CcToolsQt.MsgRuns

/-! # Data on its way through the filters

`sendMsgs` passes data through the filters from last to first and `socketDataReceived` from first
to last, block by block, each filter with its own state.

* `socketDataReceived_reads_sent`: what a manager sends, a peer with fresh copies of the same
  filters presents to its protocol, if every filter by itself is undone by its copy.
* `filterDataToSendReport_eq_tail`: data a filter raises by itself takes the way that is left of
  the chain of `sendMsgs` behind that filter. -/

namespace CcToolsQt

/-! ### The chains as stages in a row -/

namespace ToolsFilter
variable {σ : Type}

theorem onAll_eq_passAll (op : ToolsFilter σ → ToolsDataInfo → ToolsFilter σ × List ToolsDataInfo)
    (f : ToolsFilter σ) (ds : List ToolsDataInfo) : onAll op f ds = Stages.passAll op f ds := by
  induction ds generalizing f with
  | nil => rfl
  | cons d ds ih => simp only [onAll, Stages.passAll, ih]

/-- To leave the loop for lack of data is the same as to go on with none. -/
theorem chain_eq_cascade (op : ToolsFilter σ → ToolsDataInfo → ToolsFilter σ × List ToolsDataInfo)
    (fs : List (ToolsFilter σ)) (ds : List ToolsDataInfo) :
    chain op fs ds = Stages.cascade op fs ds := by
  induction fs generalizing ds with
  | nil => rfl
  | cons f fs ih =>
      cases ds with
      | nil => rw [Stages.cascade_nil]; rfl
      | cons d ds =>
          simp only [chain, List.isEmpty_cons, Bool.false_eq_true, if_false, ih, onAll_eq_passAll,
            Stages.cascade]

/-- A fresh copy of the filter undoes it: the outputs of any sequence of `sendData` calls, given
to `recvData` of the copy, return the original blocks.  `R` is how far blocks are to agree:
equality, or equality of their bytes. -/
def Mirrors (R : ToolsDataInfo → ToolsDataInfo → Prop) (f : ToolsFilter σ) : Prop :=
  ∀ ds es, List.Forall₂ R (onAll sendData f ds).2 es → List.Forall₂ R ds (onAll recvData f es).2

theorem Mirrors.stage {R : ToolsDataInfo → ToolsDataInfo → Prop} {f : ToolsFilter σ}
    (h : Mirrors R f) : Stages.Mirrors R sendData recvData f := by
  intro ds es hes
  rw [← onAll_eq_passAll] at hes ⊢
  exact h ds es hes

end ToolsFilter

/-! ### Sending -/

namespace SendReq

mutual
/-- The serialised messages of a request in the order in which they are written. -/
def written : SendReq → List ToolsDataInfo
  | mk msg write requests _ =>
      match msg, write with
      | some _, some dataInfo => dataInfo :: allWritten requests
      | _, _ => []
def allWritten : List SendReq → List ToolsDataInfo
  | [] => []
  | r :: rs => r.written ++ allWritten rs
end

end SendReq

namespace MsgMgr
variable {φ α σ φ' α' : Type}

/-- A manager that started with the filters `fs` has passed `done` through them. -/
structure HasSent (fs : List (ToolsFilter σ)) (base done : List ToolsDataInfo)
    (s : MsgMgr φ α σ) : Prop where
  socket : s.m_socket = true
  protocol : s.m_protocol.isSome = true
  filters : s.m_filters.reverse = (Stages.cascade ToolsFilter.sendData fs.reverse done).1
  data : s.socketData = base ++ (Stages.cascade ToolsFilter.sendData fs.reverse done).2

section
variable {R : ToolsDataInfo → ToolsDataInfo → Prop} {fs : List (ToolsFilter σ)}
  {base done : List ToolsDataInfo}

theorem HasSent.recordSent {s : MsgMgr φ α σ} (h : HasSent fs base done s) (p : MsgPtr) (now : ℕ) :
    HasSent fs base done (s.recordSent p now) := ⟨h.socket, h.protocol, h.filters, h.data⟩

theorem HasSent.hand {s : MsgMgr φ α σ} (h : HasSent fs base done s) (p : MsgPtr) (t : MsgType) :
    HasSent fs base done (s.hand p t) := ⟨h.socket, h.protocol, h.filters, h.data⟩

/-- One block goes through the chain and what comes out goes to the socket. -/
theorem HasSent.pass {s : MsgMgr φ α σ} (h : HasSent fs base done s) (p : MsgPtr)
    (d : ToolsDataInfo) :
    HasSent fs base (done ++ [d]) ((ToolsFilter.sendChain s.m_filters d).2.foldl (sendToSocket p)
      { s with m_filters := (ToolsFilter.sendChain s.m_filters d).1 }) := by
  have happ := Stages.cascade_append ToolsFilter.sendData fs.reverse done [d]
  have hchain : ToolsFilter.chain ToolsFilter.sendData s.m_filters.reverse [d] =
      Stages.cascade ToolsFilter.sendData
        (Stages.cascade ToolsFilter.sendData fs.reverse done).1 [d] := by
    rw [ToolsFilter.chain_eq_cascade, h.filters]
  obtain ⟨hf, hs, hp, hd⟩ := sendToSockets_fields p
    { s with m_filters := (ToolsFilter.sendChain s.m_filters d).1 }
    (ToolsFilter.sendChain s.m_filters d).2
  refine ⟨hs.trans h.socket, by rw [hp]; exact h.protocol, ?_, ?_⟩
  · rw [hf, happ]
    simp only [ToolsFilter.sendChain, hchain, List.reverse_reverse]
  · rw [hd, happ]
    simp only [ToolsFilter.sendChain, hchain, h.data, List.append_assoc]

mutual
/-- One message: the block it is written as and then what the protocol sends from inside
`messageSentReport()`, which it calls because no block is swallowed. -/
theorem HasSent.sendOne (hR : ∀ d, R d d) (hfs : ∀ f ∈ fs, ToolsFilter.Mirrors R f) (r : SendReq)
    {base done : List ToolsDataInfo} {s : MsgMgr φ α σ} (h : HasSent fs base done s) :
    HasSent fs base (done ++ r.written) (MsgMgr.sendOne r s) :=
  match r with
  | .mk none _ _ _ => by simpa [MsgMgr.sendOne, SendReq.written] using h
  | .mk (some p) none _ now => by
      simpa [MsgMgr.sendOne, SendReq.written] using (h.hand p MsgType.Sent).recordSent p now
  | .mk (some p) (some d) requests now => by
      have hmirror : ∀ f ∈ fs, Stages.Mirrors R ToolsFilter.sendData ToolsFilter.recvData f :=
        fun f hf => (hfs f hf).stage
      have hout : (ToolsFilter.sendChain s.m_filters d).2 ≠ [] := by
        simp only [ToolsFilter.sendChain, ToolsFilter.chain_eq_cascade, h.filters]
        exact Stages.cascade_output hR hmirror done d
      have hpass := HasSent.sendLoop hR hfs requests ((h.hand p MsgType.Sent).pass p d)
      simp only [MsgMgr.sendOne, SendReq.written, hand_filters, List.isEmpty_iff, hout, if_false]
      rw [List.append_assoc] at hpass
      exact hpass.recordSent p now
theorem HasSent.sendLoop (hR : ∀ d, R d d) (hfs : ∀ f ∈ fs, ToolsFilter.Mirrors R f)
    (rs : List SendReq) {base done : List ToolsDataInfo} {s : MsgMgr φ α σ}
    (h : HasSent fs base done s) :
    HasSent fs base (done ++ SendReq.allWritten rs) (MsgMgr.sendLoop rs s) :=
  match rs with
  | [] => by simpa [MsgMgr.sendLoop, SendReq.allWritten] using h
  | r :: rs => by
      have h₁ := HasSent.sendOne hR hfs r h
      have h₂ := HasSent.sendLoop hR hfs rs h₁
      rw [List.append_assoc] at h₂
      simpa only [MsgMgr.sendLoop, SendReq.allWritten] using h₂
end

/-- Calls of `sendMsgs`. -/
theorem HasSent.sendMsgs (hR : ∀ d, R d d) (hfs : ∀ f ∈ fs, ToolsFilter.Mirrors R f)
    (calls : List (List SendReq)) {base done : List ToolsDataInfo} {s : MsgMgr φ α σ}
    (h : HasSent fs base done s) :
    HasSent fs base (done ++ calls.flatMap SendReq.allWritten) (calls.foldl MsgMgr.sendMsgs s) := by
  induction calls generalizing s done with
  | nil => simpa using h
  | cons msgs calls ih =>
      have h₁ : HasSent fs base (done ++ SendReq.allWritten msgs) (s.sendMsgs msgs) := by
        cases msgs with
        | nil => simpa [MsgMgr.sendMsgs, SendReq.allWritten] using h
        | cons r rs =>
            have hp : s.m_protocol.isNone = false := by
              rw [← Option.not_isSome, h.protocol]
              rfl
            have hloop := HasSent.sendLoop hR hfs (r :: rs) h
            simpa [MsgMgr.sendMsgs, h.socket, hp] using hloop
      rw [List.flatMap_cons, List.foldl_cons, ← List.append_assoc]
      exact ih h₁

end

/-- The blocks that calls of `sendMsgs` hand to the socket. -/
def handedToSocket (s : MsgMgr φ α σ) (calls : List (List SendReq)) : List ToolsDataInfo :=
  (calls.foldl sendMsgs s).socketData.drop s.socketData.length

/-! ### Receiving -/

/-- The blocks for which `socketDataReceived` calls `read()`. -/
def readCalls (s : MsgMgr φ α σ) (dataInfo : ToolsDataInfo) : List ToolsDataInfo :=
  if !s.m_socket || !s.m_recvEnabled || s.m_protocol.isNone then []
  else (ToolsFilter.recvChain s.m_filters dataInfo).2

/-- The blocks presented to the protocol as chunks arrive one after the other, each with the
messages `read()` returns for its blocks. -/
def presented (s : MsgMgr φ α σ) : List (ToolsDataInfo × List (List RecvMsg)) → List ToolsDataInfo
  | [] => []
  | c :: cs => s.readCalls c.1 ++ presented (s.socketDataReceived (some c.1) c.2) cs

/-- A manager that started with the filters `fs` has received `done` through them. -/
structure HasReceived (fs : List (ToolsFilter σ)) (done : List ToolsDataInfo)
    (s : MsgMgr φ α σ) : Prop where
  socket : s.m_socket = true
  recvEnabled : s.m_recvEnabled = true
  protocol : s.m_protocol.isSome = true
  filters : s.m_filters = (Stages.cascade ToolsFilter.recvData fs done).1

theorem sendLoop_null (rs : List SendReq) (h : ∀ r ∈ rs, r.msg = none) (s : MsgMgr φ α σ) :
    sendLoop rs s = s := by
  induction rs generalizing s with
  | nil => rfl
  | cons r rs ih =>
      obtain ⟨msg, write, requests, now⟩ := r
      obtain rfl : msg = none := h _ List.mem_cons_self
      rw [sendLoop, sendOne]
      exact ih (fun r hr => h r (List.mem_cons_of_mem _ hr)) s

section
variable {fs : List (ToolsFilter σ)} {done : List ToolsDataInfo}

/-- Messages that are not replied to leave the filters alone. -/
theorem HasReceived.receiveMsgs {s : MsgMgr φ α σ} (h : HasReceived fs done s) (d : ToolsDataInfo)
    (msgs : List RecvMsg) (hmsgs : ∀ m ∈ msgs, m.NoReply) :
    HasReceived fs done (msgs.foldl (receiveOne d) s) := by
  induction msgs generalizing s with
  | nil => exact h
  | cons m msgs ih =>
      refine ih ?_ fun m' hm' => hmsgs m' (List.mem_cons_of_mem _ hm')
      unfold receiveOne
      dsimp only
      rw [sendLoop_null _ (hmsgs m List.mem_cons_self)]
      exact ⟨h.socket, h.recvEnabled, h.protocol, h.filters⟩

theorem HasReceived.not_disabled {s : MsgMgr φ α σ} (h : HasReceived fs done s) :
    (!s.m_socket || !s.m_recvEnabled || s.m_protocol.isNone) = false := by
  have hp : s.m_protocol.isNone = false := by
    rw [← Option.not_isSome, h.protocol]
    rfl
  rw [h.socket, h.recvEnabled, hp]
  rfl

/-- One chunk: the blocks it is read as and the state the filters are left in. -/
theorem HasReceived.chunk {s : MsgMgr φ α σ} (h : HasReceived fs done s) (d : ToolsDataInfo)
    (reads : List (List RecvMsg)) (hreads : ∀ m ∈ reads.flatten, m.NoReply) :
    HasReceived fs (done ++ [d]) (s.socketDataReceived (some d) reads) ∧
      s.readCalls d = (Stages.cascade ToolsFilter.recvData
        (Stages.cascade ToolsFilter.recvData fs done).1 [d]).2 := by
  have hdis := h.not_disabled
  have hchain : ToolsFilter.recvChain s.m_filters d = Stages.cascade ToolsFilter.recvData
      (Stages.cascade ToolsFilter.recvData fs done).1 [d] := by
    rw [ToolsFilter.recvChain, ToolsFilter.chain_eq_cascade, h.filters]
  have hfilters : HasReceived fs (done ++ [d])
      { s with m_filters := (ToolsFilter.recvChain s.m_filters d).1 } :=
    ⟨h.socket, h.recvEnabled, h.protocol, by rw [hchain, Stages.cascade_append]⟩
  constructor
  · simp only [socketDataReceived, hdis, Bool.false_eq_true, if_false]
    split_ifs
    · exact hfilters
    · have hloop := hfilters.receiveMsgs d (s.received d reads) fun m hm => by
        obtain ⟨msgs, hmsgs, hm⟩ := List.mem_flatten.mp hm
        exact hreads m (List.mem_flatten.mpr ⟨msgs, List.mem_of_mem_take hmsgs, hm⟩)
      exact ⟨hloop.socket, hloop.recvEnabled, hloop.protocol, hloop.filters⟩
  · simp only [readCalls, hdis, Bool.false_eq_true, if_false, hchain]

/-- Chunk after chunk. -/
theorem HasReceived.presented {s : MsgMgr φ α σ} (h : HasReceived fs done s)
    (chunks : List (ToolsDataInfo × List (List RecvMsg)))
    (hreads : ∀ c ∈ chunks, ∀ m ∈ c.2.flatten, m.NoReply) :
    MsgMgr.presented s chunks = (Stages.cascade ToolsFilter.recvData
      (Stages.cascade ToolsFilter.recvData fs done).1 (chunks.map Prod.fst)).2 := by
  induction chunks generalizing s done with
  | nil => rw [List.map_nil, Stages.cascade_nil]; rfl
  | cons c cs ih =>
      obtain ⟨hnext, hcalls⟩ := h.chunk c.1 c.2 (hreads c List.mem_cons_self)
      have hcs := ih hnext fun c' hc' => hreads c' (List.mem_cons_of_mem _ hc')
      have hsplit := Stages.cascade_append ToolsFilter.recvData
        (Stages.cascade ToolsFilter.recvData fs done).1 [c.1] (cs.map Prod.fst)
      have hstate := Stages.cascade_append ToolsFilter.recvData fs done [c.1]
      have hcons : (c :: cs).map Prod.fst = [c.1] ++ cs.map Prod.fst := rfl
      rw [MsgMgr.presented, hcalls, hcs, hstate, hcons, hsplit]

end

/-! ### The way there and back -/

/-- **The chain is undone by its mirror**: the blocks that calls of `sendMsgs` hand to the socket,
received by a peer with fresh copies of the filters, are presented to the peer's protocol as the
serialised messages, those sent from inside `messageSentReport()` included.  The peer only
receives: what its protocol would send would go through the copies as well. -/
theorem socketDataReceived_reads_sent {R : ToolsDataInfo → ToolsDataInfo → Prop}
    (hR : ∀ d, R d d) (s : MsgMgr φ α σ) (hs : s.m_socket = true ∧ s.m_protocol.isSome = true)
    (peer : MsgMgr φ' α' σ) (hpeer : peer.Enabled) (hfilters : peer.m_filters = s.m_filters)
    (hmirrors : ∀ f ∈ s.m_filters, f.Mirrors R) (calls : List (List SendReq))
    (chunks : List (ToolsDataInfo × List (List RecvMsg)))
    (hreads : ∀ c ∈ chunks, ∀ m ∈ c.2.flatten, m.NoReply)
    (hchunks : List.Forall₂ R (s.handedToSocket calls) (chunks.map Prod.fst)) :
    List.Forall₂ R (calls.flatMap SendReq.allWritten) (peer.presented chunks) := by
  have hstages : ∀ f ∈ s.m_filters,
      Stages.Mirrors R ToolsFilter.sendData ToolsFilter.recvData f := fun f hf =>
    (hmirrors f hf).stage
  have hstart : HasSent s.m_filters s.socketData [] s :=
    ⟨hs.1, hs.2, by rw [Stages.cascade_nil], by rw [Stages.cascade_nil, List.append_nil]⟩
  have hsent := hstart.sendMsgs hR hmirrors calls
  have hhanded : s.handedToSocket calls = (Stages.cascade ToolsFilter.sendData
      s.m_filters.reverse (calls.flatMap SendReq.allWritten)).2 := by
    rw [handedToSocket, hsent.data, List.drop_left, List.nil_append]
  have hreceived : HasReceived s.m_filters [] peer :=
    ⟨hpeer.1, hpeer.2.1, hpeer.2.2, by rw [hfilters, Stages.cascade_nil]⟩
  rw [hreceived.presented chunks hreads, Stages.cascade_nil]
  apply Stages.cascade_mirrors hstages
  rw [← hhanded]
  exact hchunks

end MsgMgr

/-! ### Data raised by a filter -/

namespace ToolsFilter
variable {σ : Type}

/-- What a loop over filters leaves behind: the filters it was to go over, the data that came out
and the calls, each with the position of the filter. -/
structure Passed (σ : Type) where
  filters : List (ToolsFilter σ)
  data : List ToolsDataInfo
  calls : List (ℕ × ToolsDataInfo)

/-- The loop of `sendMsgs`, of `filterDataToSendReport` and of `socketDataReceived` over the filters
from some iterator on, each filter with its position in `m_filters`. -/
def passThrough (op : ToolsFilter σ → ToolsDataInfo → ToolsFilter σ × List ToolsDataInfo) :
    List (ToolsFilter σ × ℕ) → List ToolsDataInfo → Passed σ
  | [], data => ⟨[], data, []⟩
  | (f, i) :: fs, data =>
      if data.isEmpty then ⟨f :: fs.map Prod.fst, [], []⟩
      else
        let r := onAll op f data
        let r' := passThrough op fs r.2
        ⟨r.1 :: r'.filters, r'.data, data.map (fun d => (i, d)) ++ r'.calls⟩

/-- The calls `sendMsgs` makes for one block. -/
def sendCalls (fs : List (ToolsFilter σ)) (d : ToolsDataInfo) : List (ℕ × ToolsDataInfo) :=
  (passThrough sendData fs.zipIdx.reverse [d]).calls

/-- The calls `socketDataReceived` makes. -/
def recvCalls (fs : List (ToolsFilter σ)) (d : ToolsDataInfo) : List (ℕ × ToolsDataInfo) :=
  (passThrough recvData fs.zipIdx [d]).calls

section
variable (op : ToolsFilter σ → ToolsDataInfo → ToolsFilter σ × List ToolsDataInfo)

theorem passThrough_nil (fs : List (ToolsFilter σ × ℕ)) :
    passThrough op fs [] = ⟨fs.map Prod.fst, [], []⟩ := by
  cases fs with
  | nil => rfl
  | cons f fs => rfl

/-- The loop is the chain of the filters. -/
theorem chain_eq_passThrough (fs : List (ToolsFilter σ × ℕ)) (data : List ToolsDataInfo) :
    chain op (fs.map Prod.fst) data =
      ((passThrough op fs data).filters, (passThrough op fs data).data) := by
  induction fs generalizing data with
  | nil => rfl
  | cons f fs ih =>
      simp only [List.map_cons, chain, passThrough]
      split_ifs
      · rfl
      · simp only [ih]

/-- The loop over two ranges of filters, one behind the other. -/
theorem passThrough_append (fs gs : List (ToolsFilter σ × ℕ)) (data : List ToolsDataInfo) :
    passThrough op (fs ++ gs) data =
      let head := passThrough op fs data
      let tail := passThrough op gs head.data
      ⟨head.filters ++ tail.filters, tail.data, head.calls ++ tail.calls⟩ := by
  induction fs generalizing data with
  | nil => rfl
  | cons f fs ih =>
      simp only [List.cons_append, passThrough]
      split_ifs
      · simp [passThrough_nil]
      · simp only [ih, List.cons_append, List.append_assoc]

variable {op}

/-- The loop calls the filters it goes over and no others. -/
theorem mem_calls_passThrough {fs : List (ToolsFilter σ × ℕ)} {data : List ToolsDataInfo}
    {c : ℕ × ToolsDataInfo} (h : c ∈ (passThrough op fs data).calls) : c.1 ∈ fs.map Prod.snd := by
  induction fs generalizing data with
  | nil => simp [passThrough] at h
  | cons f fs ih =>
      simp only [passThrough] at h
      split_ifs at h
      · simp at h
      · rcases List.mem_append.mp h with h | h
        · obtain ⟨d, -, rfl⟩ := List.mem_map.mp h
          exact List.mem_cons_self
        · exact List.mem_cons_of_mem _ (ih h)

end

theorem sendChain_eq_passThrough (fs : List (ToolsFilter σ)) (d : ToolsDataInfo) :
    sendChain fs d =
      ((passThrough sendData fs.zipIdx.reverse [d]).filters.reverse,
        (passThrough sendData fs.zipIdx.reverse [d]).data) := by
  have hfst : fs.reverse = fs.zipIdx.reverse.map Prod.fst := by
    rw [List.map_reverse, List.zipIdx_map_fst]
  rw [sendChain, hfst, chain_eq_passThrough]

/-- Filters `i - 1, ..., 0`, in this order: those `sendMsgs` comes to after filter `i`. -/
def below (fs : List (ToolsFilter σ)) (i : ℕ) : List (ToolsFilter σ × ℕ) :=
  (fs.zipIdx.take i).reverse

/-- Filters `n - 1, ..., i`: those `sendMsgs` comes to before, and filter `i` itself. -/
def upTo (fs : List (ToolsFilter σ)) (i : ℕ) : List (ToolsFilter σ × ℕ) :=
  (fs.zipIdx.drop i).reverse

theorem reverse_zipIdx (fs : List (ToolsFilter σ)) (i : ℕ) :
    fs.zipIdx.reverse = upTo fs i ++ below fs i := by
  rw [upTo, below, ← List.reverse_append, List.take_append_drop]

theorem mem_below {fs : List (ToolsFilter σ)} {i j : ℕ} (h : j ∈ (below fs i).map Prod.snd) :
    j < i := by
  rw [below, List.map_reverse, List.mem_reverse, List.map_take, List.zipIdx_map_snd] at h
  obtain ⟨k, hk, rfl⟩ := List.mem_iff_getElem.mp h
  rw [List.length_take] at hk
  rw [List.getElem_take, List.getElem_range']
  omega

end ToolsFilter

namespace MsgMgr
variable {φ α σ : Type}

/-- `filterDataToSendReport` for a report of filter `i`, with the calls it makes: the loop starts
at `m_filters.rbegin() + revIdx`. -/
def filterDataToSendReport (s : MsgMgr φ α σ) (i : ℕ) (dataInfo : Option ToolsDataInfo) :
    MsgMgr φ α σ × List (ℕ × ToolsDataInfo) :=
  match dataInfo with
  | none => (s, [])
  | some dataInfo =>
      if s.m_filters.length ≤ i then (s, [])
      else
        let revIdx := s.m_filters.length - i
        let rbegin := s.m_filters.zipIdx.reverse
        let r := ToolsFilter.passThrough ToolsFilter.sendData (rbegin.drop revIdx) [dataInfo]
        let s := { s with m_filters := ((rbegin.take revIdx).map Prod.fst ++ r.filters).reverse }
        if !s.m_socket then (s, r.calls)
        else ({ s with socketData := s.socketData ++ r.data }, r.calls)

/-- `rbegin() + revIdx` is the filter before the one that raised the report, or `rend()`. -/
theorem drop_revIdx (fs : List (ToolsFilter σ)) (i : ℕ) :
    fs.zipIdx.reverse.drop (fs.length - i) = ToolsFilter.below fs i := by
  rw [ToolsFilter.below, List.drop_reverse, List.length_zipIdx]
  rcases Nat.le_total i fs.length with h | h
  · rw [Nat.sub_sub_self h]
  · rw [Nat.sub_eq_zero_of_le h, Nat.sub_zero, List.take_of_length_le (by simp),
      List.take_of_length_le (by simpa using h)]

theorem take_revIdx {fs : List (ToolsFilter σ)} {i : ℕ} (h : i < fs.length) :
    ((fs.zipIdx.reverse.take (fs.length - i)).map Prod.fst).reverse = fs.drop i := by
  have hsub : fs.length - (fs.length - i) = i := by omega
  rw [List.take_reverse, List.length_zipIdx, hsub, List.map_reverse, List.reverse_reverse,
    List.map_drop, List.zipIdx_map_fst]

/-- **A report takes the way that is left of the chain.**  With `tail` the loop over the filters
`i - 1, ..., 0` on the block alone, the report makes the calls of `tail`, none to filter `i` or to
one after it, leaves the filters as `tail` does and hands its data to the socket.  And for every
message whose way down comes out of filter `i` as just that block, the chain of `sendMsgs` goes on
with the calls of `tail`, leaves the filters before `i` as `tail` does and ends with its data. -/
theorem filterDataToSendReport_eq_tail (s : MsgMgr φ α σ) {i : ℕ} (hi : i < s.m_filters.length)
    (d : ToolsDataInfo) :
    let r := s.filterDataToSendReport i (some d)
    let tail := ToolsFilter.passThrough ToolsFilter.sendData (ToolsFilter.below s.m_filters i) [d]
    (r.2 = tail.calls ∧ (∀ c ∈ r.2, c.1 < i) ∧
        r.1.m_filters = tail.filters.reverse ++ s.m_filters.drop i ∧
        r.1.socketData = if s.m_socket then s.socketData ++ tail.data else s.socketData) ∧
      ∀ dataInfo,
        let head := ToolsFilter.passThrough ToolsFilter.sendData
          (ToolsFilter.upTo s.m_filters i) [dataInfo]
        head.data = [d] →
          ToolsFilter.sendCalls s.m_filters dataInfo = head.calls ++ tail.calls ∧
            ToolsFilter.sendChain s.m_filters dataInfo =
              (tail.filters.reverse ++ head.filters.reverse, tail.data) := by
  intro r tail
  have hle : ¬ s.m_filters.length ≤ i := Nat.not_le_of_lt hi
  have hcalls : r.2 = tail.calls := by
    simp only [r, filterDataToSendReport, hle, if_false, drop_revIdx]
    split_ifs <;> rfl
  refine ⟨⟨hcalls, fun c hc => ?_, ?_, ?_⟩, ?_⟩
  · rw [hcalls] at hc
    exact ToolsFilter.mem_below (ToolsFilter.mem_calls_passThrough hc)
  · simp only [r, filterDataToSendReport, hle, if_false, drop_revIdx]
    split_ifs <;> rw [List.reverse_append, take_revIdx hi]
  · simp only [r, filterDataToSendReport, hle, if_false, drop_revIdx]
    cases s.m_socket <;> rfl
  · intro dataInfo head hhead
    have hsplit : ToolsFilter.passThrough ToolsFilter.sendData s.m_filters.zipIdx.reverse
        [dataInfo] = ⟨head.filters ++ tail.filters, tail.data, head.calls ++ tail.calls⟩ := by
      rw [ToolsFilter.reverse_zipIdx s.m_filters i, ToolsFilter.passThrough_append]
      simp only [head, hhead, tail]
    constructor
    · rw [ToolsFilter.sendCalls, hsplit]
    · rw [ToolsFilter.sendChain_eq_passThrough, hsplit, List.reverse_append]

end MsgMgr

/-! ### A sample filter -/

/-- Every block is sent behind a block of its own that holds the number of the block. -/
def countingFilter : ToolsFilter (UInt8 × Bool) where
  state := (0, false)
  sendDataImpl s d := ((s.1 + 1, s.2), [{ m_data := [s.1] }, d])
  recvDataImpl s d := ((s.1, !s.2), if s.2 then [d] else [])

theorem countingFilter_mirrors : countingFilter.Mirrors Eq := by
  intro ds es h
  rw [List.forall₂_eq_eq_eq] at h ⊢
  rw [← h]
  clear h
  suffices hst : ∀ n m : UInt8,
      (ToolsFilter.onAll ToolsFilter.recvData { countingFilter with state := (m, false) }
        (ToolsFilter.onAll ToolsFilter.sendData
          { countingFilter with state := (n, false) } ds).2).2 = ds from (hst 0 0).symm
  induction ds with
  | nil => exact fun _ _ => rfl
  | cons d ds ih => exact fun n m => congrArg (d :: ·) (ih (n + 1) m)

namespace MsgMgr

/-- A manager with two such filters. -/
def countingMgr : MsgMgr Unit UInt8 (UInt8 × Bool) where
  objs _ := { body := .prot () 1 }
  m_recvEnabled := true
  m_socket := true
  m_protocol := some { name := [], m_frame := syncFrame }
  m_filters := [countingFilter, countingFilter]

/-- A message and one sent from inside `messageSentReport()` for it. -/
def nestedCalls : List (List SendReq) :=
  [[.mk (some 1) (some { m_data := [syncByte, 1] })
    [.mk (some 2) (some { m_data := [syncByte, 2] }) [] 0] 0]]

theorem socketDataReceived_reads_sent_sample :
    List.Forall₂ Eq [{ m_data := [syncByte, 1] }, { m_data := [syncByte, 2] }]
      (countingMgr.presented ((countingMgr.handedToSocket nestedCalls).map fun d => (d, []))) := by
  refine socketDataReceived_reads_sent (fun _ => rfl) countingMgr ⟨rfl, rfl⟩ countingMgr
    ⟨rfl, rfl, rfl⟩ rfl ?_ nestedCalls _ ?_ ?_
  · intro f hf
    simp only [countingMgr, List.mem_cons, List.not_mem_nil, or_false, or_self] at hf
    exact hf ▸ countingFilter_mirrors
  · intro c hc m hm
    obtain ⟨d, -, rfl⟩ := List.mem_map.mp hc
    simp at hm
  · rw [List.forall₂_eq_eq_eq, List.map_map]
    exact (List.map_id _).symm

/-- The second filter raises a block: the first one sends it behind its number. -/
theorem filterDataToSendReport_eq_tail_sample :
    1 < countingMgr.m_filters.length ∧
      (countingMgr.filterDataToSendReport 1 (some { m_data := [7] })).2 =
        [(0, { m_data := [7] })] ∧
      (countingMgr.filterDataToSendReport 1 (some { m_data := [7] })).1.socketData =
        [{ m_data := [0] }, { m_data := [7] }] := by
  have h := filterDataToSendReport_eq_tail countingMgr (i := 1) (by decide) { m_data := [7] }
  exact ⟨by decide, h.1.1, h.1.2.2.2⟩

end MsgMgr

end CcToolsQt
