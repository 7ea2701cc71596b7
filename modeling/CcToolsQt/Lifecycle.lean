import CcToolsQt.FilterChain
import CcToolsQt.Lib.Runs
import CcToolsQt.Socket

/-! # Starting and stopping

`ToolsMsgMgrImpl` with the socket it drives and a record of every call of its filters.  A signal of
the socket is delivered at once, so the signals of one call of the socket are handled by the
manager in their order; none of its slots reads the flags of the socket.

* `filters_used_iff`: when no filter is used while it is not started.  `stop` stops the filters
  before it stops the socket, and the disconnection of the socket is still reported to them. -/

namespace CcToolsQt

/-! ### Which filters a message goes through -/

namespace SendReq
variable {σ : Type}

mutual
/-- The filters after a request was sent, and the calls it made. -/
def sentThrough : SendReq → List (ToolsFilter σ) → List (ToolsFilter σ) × List (ℕ × ToolsDataInfo)
  | mk msg write requests _, fs =>
      match msg, write with
      | some _, some d =>
          let r := ToolsFilter.sendChain fs d
          if r.2.isEmpty then (r.1, ToolsFilter.sendCalls fs d)
          else
            let r' := allSentThrough requests r.1
            (r'.1, ToolsFilter.sendCalls fs d ++ r'.2)
      | _, _ => (fs, [])
def allSentThrough :
    List SendReq → List (ToolsFilter σ) → List (ToolsFilter σ) × List (ℕ × ToolsDataInfo)
  | [], fs => (fs, [])
  | r :: rs, fs =>
      let r' := sentThrough r fs
      let rs' := allSentThrough rs r'.1
      (rs'.1, r'.2 ++ rs'.2)
end

end SendReq

namespace ToolsFilter
variable {σ : Type}

theorem length_sendChain (fs : List (ToolsFilter σ)) (d : ToolsDataInfo) :
    (sendChain fs d).1.length = fs.length := by
  rw [sendChain, chain_eq_cascade, List.length_reverse, Stages.length_cascade, List.length_reverse]

theorem length_recvChain (fs : List (ToolsFilter σ)) (d : ToolsDataInfo) :
    (recvChain fs d).1.length = fs.length := by
  rw [recvChain, chain_eq_cascade, Stages.length_cascade]

theorem mem_sendCalls {fs : List (ToolsFilter σ)} {d : ToolsDataInfo} {c : ℕ × ToolsDataInfo}
    (h : c ∈ sendCalls fs d) : c.1 < fs.length := by
  have hmem := mem_calls_passThrough h
  rw [List.map_reverse, List.mem_reverse, List.zipIdx_map_snd, List.mem_range'_1] at hmem
  omega

theorem mem_recvCalls {fs : List (ToolsFilter σ)} {d : ToolsDataInfo} {c : ℕ × ToolsDataInfo}
    (h : c ∈ recvCalls fs d) : c.1 < fs.length := by
  have hmem := mem_calls_passThrough h
  rw [List.zipIdx_map_snd, List.mem_range'_1] at hmem
  omega

/-- The last filter gets the block. -/
theorem sendCalls_ne_nil {fs : List (ToolsFilter σ)} (h : fs ≠ []) (d : ToolsDataInfo) :
    sendCalls fs d ≠ [] := by
  have hne : fs.zipIdx.reverse ≠ [] := by simpa using h
  obtain ⟨f, rest, hf⟩ := List.exists_cons_of_ne_nil hne
  simp [sendCalls, hf, passThrough]

end ToolsFilter

namespace SendReq
variable {σ : Type}

mutual
theorem sentThrough_spec (r : SendReq) (fs : List (ToolsFilter σ)) :
    (r.sentThrough fs).1.length = fs.length ∧ (∀ c ∈ (r.sentThrough fs).2, c.1 < fs.length) ∧
      (fs ≠ [] → ((r.sentThrough fs).2 = [] ↔ r.written = [])) :=
  match r with
  | .mk none _ _ _ => by simp [sentThrough, written]
  | .mk (some _) none _ _ => by simp [sentThrough, written]
  | .mk (some _) (some d) requests _ => by
      have hlen := ToolsFilter.length_sendChain fs d
      obtain ⟨hl, hm, -⟩ := allSentThrough_spec requests (ToolsFilter.sendChain fs d).1
      simp only [sentThrough, written]
      split_ifs
      · exact ⟨hlen, fun c hc => ToolsFilter.mem_sendCalls hc,
          fun hne => by simp [ToolsFilter.sendCalls_ne_nil hne d]⟩
      · refine ⟨hl.trans hlen, fun c hc => ?_, fun hne => by
          simp [ToolsFilter.sendCalls_ne_nil hne d]⟩
        rcases List.mem_append.mp hc with hc | hc
        · exact ToolsFilter.mem_sendCalls hc
        · exact hlen ▸ hm c hc
theorem allSentThrough_spec (rs : List SendReq) (fs : List (ToolsFilter σ)) :
    (allSentThrough rs fs).1.length = fs.length ∧
      (∀ c ∈ (allSentThrough rs fs).2, c.1 < fs.length) ∧
      (fs ≠ [] → ((allSentThrough rs fs).2 = [] ↔ allWritten rs = [])) :=
  match rs with
  | [] => by simp [allSentThrough, allWritten]
  | r :: rs => by
      obtain ⟨hl, hm, hn⟩ := sentThrough_spec r fs
      obtain ⟨hl', hm', hn'⟩ := allSentThrough_spec rs (r.sentThrough fs).1
      simp only [allSentThrough, allWritten]
      refine ⟨hl'.trans hl, fun c hc => ?_, fun hne => ?_⟩
      · rcases List.mem_append.mp hc with hc | hc
        · exact hm c hc
        · exact hl ▸ hm' c hc
      · have hne' : (r.sentThrough fs).1 ≠ [] := by
          rw [← List.length_pos_iff_ne_nil, hl]
          exact List.length_pos_iff_ne_nil.mpr hne
        rw [List.append_eq_nil_iff, List.append_eq_nil_iff, hn hne, hn' hne']
end

end SendReq

namespace MsgMgr
variable {φ α σ : Type}

mutual
/-- Sending changes the filters as said, and neither socket nor protocol. -/
theorem sendOne_setup (r : SendReq) (s : MsgMgr φ α σ) :
    (sendOne r s).m_filters = (r.sentThrough s.m_filters).1 ∧
      (sendOne r s).m_socket = s.m_socket ∧ (sendOne r s).m_protocol = s.m_protocol :=
  match r with
  | .mk none _ _ _ => by simp [sendOne, SendReq.sentThrough]
  | .mk (some p) none _ now => by
      simp only [sendOne, SendReq.sentThrough]
      exact ⟨rfl, rfl, rfl⟩
  | .mk (some p) (some d) requests now => by
      by_cases hout : (ToolsFilter.sendChain s.m_filters d).2.isEmpty = true
      · simp only [sendOne, SendReq.sentThrough, hand_filters, hout, if_true]
        exact ⟨rfl, rfl, rfl⟩
      · obtain ⟨hf, hs, hp, -⟩ := sendToSockets_fields p
          { s.hand p MsgType.Sent with m_filters := (ToolsFilter.sendChain s.m_filters d).1 }
          (ToolsFilter.sendChain s.m_filters d).2
        obtain ⟨hlf, hls, hlp⟩ := sendLoop_setup requests
          ((ToolsFilter.sendChain s.m_filters d).2.foldl (sendToSocket p)
            { s.hand p MsgType.Sent with m_filters := (ToolsFilter.sendChain s.m_filters d).1 })
        rw [hf] at hlf
        simp only [sendOne, SendReq.sentThrough, hand_filters, hout, Bool.false_eq_true, if_false]
        exact ⟨hlf, hls.trans hs, hlp.trans hp⟩
theorem sendLoop_setup (rs : List SendReq) (s : MsgMgr φ α σ) :
    (sendLoop rs s).m_filters = (SendReq.allSentThrough rs s.m_filters).1 ∧
      (sendLoop rs s).m_socket = s.m_socket ∧ (sendLoop rs s).m_protocol = s.m_protocol :=
  match rs with
  | [] => ⟨rfl, rfl, rfl⟩
  | r :: rs => by
      obtain ⟨hf, hs, hp⟩ := sendOne_setup r s
      obtain ⟨hf', hs', hp'⟩ := sendLoop_setup rs (sendOne r s)
      rw [sendLoop, SendReq.allSentThrough, hf', hf]
      exact ⟨rfl, hs'.trans hs, hp'.trans hp⟩
end

theorem allSentThrough_append {σ : Type} (rs rs' : List SendReq) (fs : List (ToolsFilter σ)) :
    SendReq.allSentThrough (rs ++ rs') fs =
      ((SendReq.allSentThrough rs' (SendReq.allSentThrough rs fs).1).1,
        (SendReq.allSentThrough rs fs).2 ++
          (SendReq.allSentThrough rs' (SendReq.allSentThrough rs fs).1).2) := by
  induction rs generalizing fs with
  | nil => rfl
  | cons r rs ih => simp only [List.cons_append, SendReq.allSentThrough, ih, List.append_assoc]

/-- Messages that arrive change the filters by what is replied to them. -/
theorem receiveMsgs_setup (d : ToolsDataInfo) (msgs : List RecvMsg) (s : MsgMgr φ α σ) :
    (msgs.foldl (receiveOne d) s).m_filters =
        (SendReq.allSentThrough (msgs.flatMap RecvMsg.requests) s.m_filters).1 ∧
      (msgs.foldl (receiveOne d) s).m_socket = s.m_socket ∧
      (msgs.foldl (receiveOne d) s).m_protocol = s.m_protocol := by
  induction msgs generalizing s with
  | nil => exact ⟨rfl, rfl, rfl⟩
  | cons m msgs ih =>
      have hone : (receiveOne d s m).m_filters =
            (SendReq.allSentThrough m.requests s.m_filters).1 ∧
          (receiveOne d s m).m_socket = s.m_socket ∧
          (receiveOne d s m).m_protocol = s.m_protocol := by
        unfold receiveOne
        exact sendLoop_setup m.requests _
      obtain ⟨hf, hs, hp⟩ := ih (receiveOne d s m)
      rw [List.foldl_cons, List.flatMap_cons, allSentThrough_append, hf, hone.1]
      exact ⟨rfl, hs.trans hone.2.1, hp.trans hone.2.2⟩

/-! ### The calls of the filters -/

/-- A message manager that does nothing with data. -/
def sendingDisabled (s : MsgMgr φ α σ) : Bool := !s.m_socket || s.m_protocol.isNone

/-- The calls of `sendData` that `sendMsgs` makes. -/
def sendMsgsCalls (s : MsgMgr φ α σ) (msgs : List SendReq) : List (ℕ × ToolsDataInfo) :=
  if s.sendingDisabled then [] else (SendReq.allSentThrough msgs s.m_filters).2

/-- The requests of the protocol while the messages of a chunk are handled. -/
def replies (s : MsgMgr φ α σ) (d : ToolsDataInfo) (reads : List (List RecvMsg)) : List SendReq :=
  (s.received d reads).flatMap RecvMsg.requests

theorem sendMsgs_setup (s : MsgMgr φ α σ) (msgs : List SendReq) :
    (s.sendMsgs msgs).m_filters.length = s.m_filters.length ∧
      (s.sendMsgs msgs).m_socket = s.m_socket ∧ (s.sendMsgs msgs).m_protocol = s.m_protocol := by
  unfold sendMsgs
  split_ifs
  · exact ⟨rfl, rfl, rfl⟩
  · obtain ⟨hf, hs, hp⟩ := sendLoop_setup msgs s
    exact ⟨hf ▸ (SendReq.allSentThrough_spec msgs s.m_filters).1, hs, hp⟩

theorem socketDataReceived_setup (s : MsgMgr φ α σ) (d : ToolsDataInfo)
    (reads : List (List RecvMsg)) :
    (s.socketDataReceived (some d) reads).m_filters.length = s.m_filters.length ∧
      (s.socketDataReceived (some d) reads).m_socket = s.m_socket ∧
      (s.socketDataReceived (some d) reads).m_protocol = s.m_protocol := by
  have hlen := ToolsFilter.length_recvChain s.m_filters d
  simp only [socketDataReceived]
  split_ifs
  · exact ⟨rfl, rfl, rfl⟩
  · exact ⟨hlen, rfl, rfl⟩
  · obtain ⟨hf, hs, hp⟩ := receiveMsgs_setup d (s.received d reads)
      { s with m_filters := (ToolsFilter.recvChain s.m_filters d).1 }
    refine ⟨?_, hs, hp⟩
    have hspec := (SendReq.allSentThrough_spec ((s.received d reads).flatMap RecvMsg.requests)
      (ToolsFilter.recvChain s.m_filters d).1).1
    exact (congrArg List.length hf).trans (hspec.trans hlen)

theorem mem_sendMsgsCalls {s : MsgMgr φ α σ} {msgs : List SendReq} {c : ℕ × ToolsDataInfo}
    (h : c ∈ s.sendMsgsCalls msgs) : c.1 < s.m_filters.length := by
  unfold sendMsgsCalls at h
  split_ifs at h
  · cases h
  · exact (SendReq.allSentThrough_spec msgs s.m_filters).2.1 c h

/-- `sendMsgs` calls a filter if and only if it writes a message and there is a filter. -/
theorem sendMsgsCalls_eq_nil_iff {s : MsgMgr φ α σ} (hf : s.m_filters ≠ []) (msgs : List SendReq) :
    s.sendMsgsCalls msgs = [] ↔ s.sendingDisabled = true ∨ SendReq.allWritten msgs = [] := by
  unfold sendMsgsCalls
  cases hd : s.sendingDisabled with
  | true => simp
  | false => simpa using (SendReq.allSentThrough_spec msgs s.m_filters).2.2 hf

end MsgMgr

/-! ### Calls of a filter -/

/-- A call of a filter by the manager. -/
inductive FilterCall where
  | start
  | stop
  | recvData (d : ToolsDataInfo)
  | sendData (d : ToolsDataInfo)
  | socketConnectionReport (connected : Bool)

namespace FilterCall

/-- Whether a filter is started once it is called, for a call that makes a difference. -/
def started : FilterCall → Option Bool
  | start => some true
  | stop => some false
  | _ => none

/-- A call that uses a filter. -/
def isUse (c : FilterCall) : Bool := c.started.isNone

/-- Whether the last call of `start` and `stop` of a filter was one of `start`. -/
def startedIn (calls : List (ℕ × FilterCall)) (id : ℕ) : Bool :=
  calls.foldl (fun b c => if c.1 = id then c.2.started.getD b else b) false

/-- No filter is used after its `stop` and before its next `start`, nor before its first one. -/
def UsedStarted (calls : List (ℕ × FilterCall)) : Prop :=
  ∀ pre c post, calls = pre ++ c :: post → c.2.isUse = true → startedIn pre c.1 = true

theorem startedIn_concat (calls : List (ℕ × FilterCall)) (c : ℕ × FilterCall) (id : ℕ) :
    startedIn (calls ++ [c]) id =
      if c.1 = id then c.2.started.getD (startedIn calls id) else startedIn calls id := by
  rw [startedIn, List.foldl_append]
  rfl

/-- A use starts and stops nothing. -/
theorem startedIn_uses {us : List (ℕ × FilterCall)} (hus : ∀ c ∈ us, c.2.isUse = true)
    (calls : List (ℕ × FilterCall)) (id : ℕ) : startedIn (calls ++ us) id = startedIn calls id := by
  induction us generalizing calls with
  | nil => rw [List.append_nil]
  | cons c us ih =>
      have hc : c.2.started = none := Option.isNone_iff_eq_none.mp (hus c List.mem_cons_self)
      rw [List.append_cons, ih fun c' hc' => hus c' (List.mem_cons_of_mem _ hc'), startedIn_concat,
        hc]
      split_ifs <;> rfl

/-- All filters of a list are started, or stopped. -/
theorem startedIn_each {call : FilterCall} {b : Bool} (hcall : call.started = some b)
    (calls : List (ℕ × FilterCall)) (ids : List ℕ) (id : ℕ) :
    startedIn (calls ++ ids.map fun i => (i, call)) id =
      if id ∈ ids then b else startedIn calls id := by
  induction ids generalizing calls with
  | nil => simp
  | cons i ids ih =>
      rw [List.map_cons, List.append_cons, ih, startedIn_concat, hcall]
      by_cases hmem : id ∈ ids
      · simp [hmem]
      · by_cases hi : i = id
        · simp [hi]
        · simp [hmem, hi, Ne.symm hi]

theorem usedStarted_nil : UsedStarted [] := by
  intro pre c post h
  cases pre <;> cases h

theorem usedStarted_concat (calls : List (ℕ × FilterCall)) (c : ℕ × FilterCall) :
    UsedStarted (calls ++ [c]) ↔
      UsedStarted calls ∧ (c.2.isUse = true → startedIn calls c.1 = true) := by
  constructor
  · intro h
    exact ⟨fun pre c' post hc => h pre c' (post ++ [c]) (by rw [hc]; simp), h calls c [] rfl⟩
  · rintro ⟨h, hc⟩ pre c' post heq huse
    rcases List.eq_nil_or_concat post with rfl | ⟨post', x, rfl⟩
    · obtain ⟨rfl, hcc⟩ := List.append_inj' heq rfl
      obtain rfl : c = c' := by simpa using hcc
      exact hc huse
    · have hcons : pre ++ c' :: post'.concat x = (pre ++ c' :: post') ++ [x] := by simp
      exact h pre c' post' (List.append_inj' (heq.trans hcons) rfl).1 huse

/-- Uses are all of filters that were started before them. -/
theorem usedStarted_uses {us : List (ℕ × FilterCall)} (hus : ∀ c ∈ us, c.2.isUse = true)
    (calls : List (ℕ × FilterCall)) :
    UsedStarted (calls ++ us) ↔ UsedStarted calls ∧ ∀ c ∈ us, startedIn calls c.1 = true := by
  induction us using List.reverseRecOn with
  | nil => simp
  | append_singleton us c ih =>
      have hus' : ∀ c' ∈ us, c'.2.isUse = true := fun c' hc' => hus c' (List.mem_append_left _ hc')
      have hc : c.2.isUse = true := hus c (by simp)
      rw [← List.append_assoc, usedStarted_concat, ih hus', startedIn_uses hus', and_assoc]
      apply and_congr_right'
      rw [List.forall_mem_append, List.forall_mem_singleton]
      exact and_congr_right' ⟨fun h => h hc, fun h _ => h⟩

/-- Starting and stopping is no use. -/
theorem usedStarted_each {call : FilterCall} (hcall : call.isUse = false)
    (calls : List (ℕ × FilterCall)) (ids : List ℕ) :
    UsedStarted (calls ++ ids.map fun i => (i, call)) ↔ UsedStarted calls := by
  induction ids using List.reverseRecOn with
  | nil => simp
  | append_singleton ids i ih =>
      rw [List.map_append, ← List.append_assoc, List.map_singleton, usedStarted_concat, ih]
      exact and_iff_left fun h => absurd (hcall.symm.trans h) Bool.false_ne_true

end FilterCall

/-! ### The manager and its socket -/

/-- What is done from inside the handling of a signal: the messages sent, by the protocol or by the
application, and what `read()` returns for received data. -/
structure Reaction where
  requests : List SendReq := []
  reads : List (List RecvMsg) := []

/-- A manager with its running flag and its socket, the filters by the order they were added in,
and the calls of filters so far. -/
structure LiveMgr (φ α σ : Type) where
  mgr : MsgMgr φ α σ
  m_running : Bool := false
  socket : ToolsSocket := {}
  ids : List ℕ := []
  nextId : ℕ := 0
  calls : List (ℕ × FilterCall) := []

namespace LiveMgr
variable {φ α σ : Type}

def called (s : LiveMgr φ α σ) (cs : List (ℕ × FilterCall)) : LiveMgr φ α σ :=
  { s with calls := s.calls ++ cs }

/-- One call for every filter. -/
def each (s : LiveMgr φ α σ) (call : FilterCall) : List (ℕ × FilterCall) :=
  s.ids.map fun id => (id, call)

/-- Calls with data, by the position of the filter. -/
def atPositions (s : LiveMgr φ α σ) (call : ToolsDataInfo → FilterCall)
    (cs : List (ℕ × ToolsDataInfo)) : List (ℕ × FilterCall) :=
  cs.map fun c => (s.ids.getD c.1 0, call c.2)

/-! ### The slots -/

def sendMsgs (s : LiveMgr φ α σ) (msgs : List SendReq) : LiveMgr φ α σ :=
  ({ s with mgr := s.mgr.sendMsgs msgs }).called
    (s.atPositions .sendData (s.mgr.sendMsgsCalls msgs))

def socketDataReceived (s : LiveMgr φ α σ) (d : ToolsDataInfo) (reads : List (List RecvMsg)) :
    LiveMgr φ α σ :=
  if !s.mgr.m_socket || !s.mgr.m_recvEnabled || s.mgr.m_protocol.isNone then s
  else
    let fs := (ToolsFilter.recvChain s.mgr.m_filters d).1
    ({ s with mgr := s.mgr.socketDataReceived (some d) reads }).called
      (s.atPositions .recvData (ToolsFilter.recvCalls s.mgr.m_filters d) ++
        s.atPositions .sendData (SendReq.allSentThrough (s.mgr.replies d reads) fs).2)

/-- The filters, then the protocol and the application. -/
def socketConnectionReport (s : LiveMgr φ α σ) (connected : Bool) (requests : List SendReq) :
    LiveMgr φ α σ :=
  (s.called (s.each (.socketConnectionReport connected))).sendMsgs requests

def onSignal (s : LiveMgr φ α σ) (r : Reaction) : ToolsSocket.Signal → LiveMgr φ α σ
  | .sigDataReceivedReport d => s.socketDataReceived d r.reads
  | .sigErrorReport _ => s
  | .sigConnectionStatusReport connected => s.socketConnectionReport connected r.requests

/-- Signals of the manager's socket, one after the other. -/
def deliver : List ToolsSocket.Signal → List Reaction → LiveMgr φ α σ → LiveMgr φ α σ
  | [], _, s => s
  | signal :: signals, rs, s => deliver signals rs.tail (s.onSignal (rs.headD {}) signal)

/-- A call of the manager's socket, if there is one. -/
def socketStep (s : LiveMgr φ α σ) (op : ToolsSocket.Op) (rs : List Reaction) : LiveMgr φ α σ :=
  if !s.mgr.m_socket then s
  else deliver (s.socket.signals op) rs { s with socket := s.socket.step op }

/-! ### The interface -/

def start (s : LiveMgr φ α σ) (startImpl : Bool) : LiveMgr φ α σ :=
  if s.m_running then s
  else
    let s := s.socketStep (.start startImpl) []
    { s.called (s.each .start) with m_running := true }

/-- The filters are stopped first. -/
def stop (s : LiveMgr φ α σ) (rs : List Reaction) : LiveMgr φ α σ :=
  if !s.m_running then s
  else { (s.called (s.each .stop)).socketStep .stop rs with m_running := false }

def clear (s : LiveMgr φ α σ) (rs : List Reaction) : LiveMgr φ α σ :=
  let s := if s.m_running then s.stop rs else s
  { s with mgr := s.mgr.clear, socket := {}, ids := [] }

/-- A new socket, or none. -/
def setSocket (s : LiveMgr φ α σ) (socket : Bool) : LiveMgr φ α σ :=
  { s with mgr := { s.mgr with m_socket := socket }, socket := {} }

def addFilter (s : LiveMgr φ α σ) (filter : ToolsFilter σ) : LiveMgr φ α σ :=
  { s with
    mgr := { s.mgr with m_filters := s.mgr.m_filters ++ [filter] }
    ids := s.ids ++ [s.nextId]
    nextId := s.nextId + 1 }

def setProtocol (s : LiveMgr φ α σ) (protocol : ToolsProtocol φ α) : LiveMgr φ α σ :=
  { s with mgr := { s.mgr with m_protocol := some protocol } }

def setRecvEnabled (s : LiveMgr φ α σ) (enabled : Bool) : LiveMgr φ α σ :=
  { s with mgr := { s.mgr with m_recvEnabled := enabled } }

/-- A call of the manager, or of its socket by the application or the plugin. -/
inductive Event (φ α σ : Type) where
  | setSocket (socket : Bool)
  | addFilter (filter : ToolsFilter σ)
  | setProtocol (protocol : ToolsProtocol φ α)
  | setRecvEnabled (enabled : Bool)
  | start (startImpl : Bool)
  | stop (rs : List Reaction)
  | clear (rs : List Reaction)
  | sendMsgs (msgs : List SendReq)
  | socketConnect (socketConnectImpl : Bool) (r : Reaction)
  | socketDisconnect (r : Reaction)
  | reportDataReceived (now : ℕ) (d : ToolsDataInfo) (r : Reaction)
  | reportError (msg : QString)
  | reportDisconnected (r : Reaction)

def step (s : LiveMgr φ α σ) : Event φ α σ → LiveMgr φ α σ
  | .setSocket socket => s.setSocket socket
  | .addFilter filter => s.addFilter filter
  | .setProtocol protocol => s.setProtocol protocol
  | .setRecvEnabled enabled => s.setRecvEnabled enabled
  | .start startImpl => s.start startImpl
  | .stop rs => s.stop rs
  | .clear rs => s.clear rs
  | .sendMsgs msgs => s.sendMsgs msgs
  | .socketConnect socketConnectImpl r => s.socketStep (.socketConnect socketConnectImpl) [r]
  | .socketDisconnect r => s.socketStep .socketDisconnect [r]
  | .reportDataReceived now d r => s.socketStep (.reportDataReceived now d) [r]
  | .reportError msg => s.socketStep (.reportError msg) []
  | .reportDisconnected r => s.socketStep .reportDisconnected [r]

def run (s : LiveMgr φ α σ) (evs : List (Event φ α σ)) : LiveMgr φ α σ := evs.foldl step s

/-! ### What the slots do to the filters -/

/-- From `s` to `s'` filters of the manager are used in the calls `us`, and nothing else of the
setup changes. -/
structure Uses (s s' : LiveMgr φ α σ) (us : List (ℕ × FilterCall)) : Prop where
  calls : s'.calls = s.calls ++ us
  use : ∀ c ∈ us, c.2.isUse = true
  mem : ∀ c ∈ us, c.1 ∈ s.ids
  ids : s'.ids = s.ids
  nextId : s'.nextId = s.nextId
  running : s'.m_running = s.m_running
  socket : s'.socket = s.socket
  m_socket : s'.mgr.m_socket = s.mgr.m_socket
  filters : s'.mgr.m_filters.length = s.mgr.m_filters.length

theorem Uses.refl (s : LiveMgr φ α σ) : Uses s s [] :=
  ⟨(List.append_nil _).symm, by simp, by simp, rfl, rfl, rfl, rfl, rfl, rfl⟩

theorem Uses.trans {s s' s'' : LiveMgr φ α σ} {us us' : List (ℕ × FilterCall)}
    (h : Uses s s' us) (h' : Uses s' s'' us') : Uses s s'' (us ++ us') where
  calls := by rw [h'.calls, h.calls, List.append_assoc]
  use c hc := (List.mem_append.mp hc).elim (h.use c) (h'.use c)
  mem c hc := (List.mem_append.mp hc).elim (h.mem c) fun hc => h.ids ▸ h'.mem c hc
  ids := h'.ids.trans h.ids
  nextId := h'.nextId.trans h.nextId
  running := h'.running.trans h.running
  socket := h'.socket.trans h.socket
  m_socket := h'.m_socket.trans h.m_socket
  filters := h'.filters.trans h.filters

/-- Without filters none is used. -/
theorem Uses.eq_nil {s s' : LiveMgr φ α σ} {us : List (ℕ × FilterCall)} (h : Uses s s' us)
    (hids : s.ids = []) : us = [] := by
  rw [List.eq_nil_iff_forall_not_mem]
  intro c hc
  have hmem := h.mem c hc
  rw [hids] at hmem
  cases hmem

/-- The positions of calls are those of filters. -/
theorem mem_atPositions {s : LiveMgr φ α σ} (hlen : s.ids.length = s.mgr.m_filters.length)
    {call : ToolsDataInfo → FilterCall} {cs : List (ℕ × ToolsDataInfo)}
    (hcs : ∀ c ∈ cs, c.1 < s.mgr.m_filters.length) : ∀ c ∈ s.atPositions call cs, c.1 ∈ s.ids := by
  intro c hc
  obtain ⟨c', hc', rfl⟩ := List.mem_map.mp hc
  have hlt : c'.1 < s.ids.length := hlen ▸ hcs c' hc'
  have hget : s.ids.getD c'.1 0 = s.ids[c'.1] := by simp [hlt]
  exact hget ▸ List.getElem_mem hlt

theorem isUse_atPositions (s : LiveMgr φ α σ) {call : ToolsDataInfo → FilterCall}
    (hcall : ∀ d, (call d).isUse = true) (cs : List (ℕ × ToolsDataInfo)) :
    ∀ c ∈ s.atPositions call cs, c.2.isUse = true := by
  intro c hc
  obtain ⟨c', -, rfl⟩ := List.mem_map.mp hc
  exact hcall c'.2

/-- `sendMsgs` looks neither at the running flag nor at the state of the socket. -/
theorem sendMsgs_uses {s : LiveMgr φ α σ} (hlen : s.ids.length = s.mgr.m_filters.length)
    (msgs : List SendReq) :
    Uses s (s.sendMsgs msgs) (s.atPositions .sendData (s.mgr.sendMsgsCalls msgs)) := by
  obtain ⟨hf, hs, -⟩ := s.mgr.sendMsgs_setup msgs
  exact ⟨rfl, s.isUse_atPositions (fun _ => rfl) _,
    mem_atPositions hlen fun _ hc => MsgMgr.mem_sendMsgsCalls hc, rfl, rfl, rfl, rfl, hs, hf⟩

/-- Received data uses filters. -/
theorem socketDataReceived_uses {s : LiveMgr φ α σ}
    (hlen : s.ids.length = s.mgr.m_filters.length) (d : ToolsDataInfo)
    (reads : List (List RecvMsg)) : ∃ us, Uses s (s.socketDataReceived d reads) us := by
  unfold socketDataReceived
  split_ifs
  · exact ⟨[], Uses.refl s⟩
  · obtain ⟨hf, hs, -⟩ := s.mgr.socketDataReceived_setup d reads
    have hrecv := ToolsFilter.length_recvChain s.mgr.m_filters d
    have hreplies := (SendReq.allSentThrough_spec (s.mgr.replies d reads)
      (ToolsFilter.recvChain s.mgr.m_filters d).1).2.1
    rw [hrecv] at hreplies
    refine ⟨_, rfl, fun c hc => ?_, fun c hc => ?_, rfl, rfl, rfl, rfl, hs, hf⟩
    · exact (List.mem_append.mp hc).elim (s.isUse_atPositions (fun _ => rfl) _ c)
        (s.isUse_atPositions (fun _ => rfl) _ c)
    · exact (List.mem_append.mp hc).elim
        (mem_atPositions hlen (fun _ hc => ToolsFilter.mem_recvCalls hc) c)
        (mem_atPositions hlen hreplies c)

/-- A status is reported to every filter. -/
theorem socketConnectionReport_uses {s : LiveMgr φ α σ}
    (hlen : s.ids.length = s.mgr.m_filters.length) (connected : Bool) (requests : List SendReq) :
    ∃ us, Uses s (s.socketConnectionReport connected requests) us ∧ (us = [] ↔ s.ids = []) := by
  have heach : Uses s (s.called (s.each (.socketConnectionReport connected)))
      (s.each (.socketConnectionReport connected)) := by
    refine ⟨rfl, fun c hc => ?_, fun c hc => ?_, rfl, rfl, rfl, rfl, rfl, rfl⟩
    · obtain ⟨id, -, rfl⟩ := List.mem_map.mp hc
      rfl
    · obtain ⟨id, hid, rfl⟩ := List.mem_map.mp hc
      exact hid
  have hsend := sendMsgs_uses (s := s.called (s.each (.socketConnectionReport connected))) hlen
    requests
  have h := heach.trans hsend
  refine ⟨_, h, fun hnil => ?_, h.eq_nil⟩
  exact List.map_eq_nil_iff.mp (List.append_eq_nil_iff.mp hnil).1

theorem onSignal_uses {s : LiveMgr φ α σ} (hlen : s.ids.length = s.mgr.m_filters.length)
    (r : Reaction) (signal : ToolsSocket.Signal) :
    ∃ us, Uses s (s.onSignal r signal) us ∧ (signal.status ≠ none → (us = [] ↔ s.ids = [])) := by
  cases signal with
  | sigDataReceivedReport d =>
      obtain ⟨us, hus⟩ := socketDataReceived_uses hlen d r.reads
      exact ⟨us, hus, fun h => absurd rfl h⟩
  | sigErrorReport msg => exact ⟨[], Uses.refl s, fun h => absurd rfl h⟩
  | sigConnectionStatusReport connected =>
      obtain ⟨us, hus, hnil⟩ := socketConnectionReport_uses hlen connected r.requests
      exact ⟨us, hus, fun _ => hnil⟩

/-- Signals use filters, and one with a status uses them all. -/
theorem deliver_uses {s : LiveMgr φ α σ} (hlen : s.ids.length = s.mgr.m_filters.length)
    (signals : List ToolsSocket.Signal) (rs : List Reaction) :
    ∃ us, Uses s (deliver signals rs s) us ∧
      (∀ signal ∈ signals.head?, signal.status ≠ none → (us = [] ↔ s.ids = [])) ∧
      (signals = [] → us = []) := by
  induction signals generalizing s rs with
  | nil => exact ⟨[], Uses.refl s, by simp, fun _ => rfl⟩
  | cons signal signals ih =>
      obtain ⟨us, hus, hnil⟩ := onSignal_uses hlen (rs.headD {}) signal
      have hlen' : (s.onSignal (rs.headD {}) signal).ids.length =
          (s.onSignal (rs.headD {}) signal).mgr.m_filters.length := by
        rw [hus.ids, hus.filters, hlen]
      obtain ⟨us', hus', -, -⟩ := ih hlen' rs.tail
      have h := hus.trans hus'
      refine ⟨us ++ us', h, ?_, fun hcons => by cases hcons⟩
      intro signal' hsignal hstatus
      obtain rfl : signal = signal' := Option.some.inj hsignal
      exact ⟨fun happ => (hnil hstatus).mp (List.append_eq_nil_iff.mp happ).1, h.eq_nil⟩

/-! ### Runs -/

/-- What holds of the setup and the calls so far in a run of a new manager. -/
structure Consistent (s : LiveMgr φ α σ) : Prop where
  length : s.ids.length = s.mgr.m_filters.length
  started : ∀ id ∈ s.ids, FilterCall.startedIn s.calls id = s.m_running
  socket : s.socket.m_running = true → s.m_running = true ∧ s.mgr.m_socket = true
  ids_lt : ∀ id ∈ s.ids, id < s.nextId
  fresh : ∀ id, s.nextId ≤ id → FilterCall.startedIn s.calls id = false

/-- A manager as it is constructed. -/
def new (objs : MsgPtr → ToolsMessage φ α) : LiveMgr φ α σ := { mgr := { objs := objs } }

theorem consistent_new (objs : MsgPtr → ToolsMessage φ α) :
    Consistent (new objs : LiveMgr φ α σ) :=
  ⟨rfl, fun _ h => (List.not_mem_nil h).elim, fun h => absurd h Bool.false_ne_true,
    fun _ h => (List.not_mem_nil h).elim, fun _ _ => rfl⟩

theorem Uses.consistent {s s' : LiveMgr φ α σ} {us : List (ℕ × FilterCall)} (hu : Uses s s' us)
    (h : s.Consistent) : s'.Consistent where
  length := by rw [hu.ids, hu.filters, h.length]
  started id hid := by
    rw [hu.calls, FilterCall.startedIn_uses hu.use, hu.running]
    exact h.started id (hu.ids ▸ hid)
  socket hs := hu.running ▸ hu.m_socket ▸ h.socket (hu.socket ▸ hs)
  ids_lt id hid := hu.nextId ▸ h.ids_lt id (hu.ids ▸ hid)
  fresh id hid := by
    rw [hu.calls, FilterCall.startedIn_uses hu.use]
    exact h.fresh id (hu.nextId ▸ hid)

/-- Filters may be used when they are started. -/
theorem Uses.usedStarted_iff {s s' : LiveMgr φ α σ} {us : List (ℕ × FilterCall)}
    (hu : Uses s s' us) {b : Bool} (hb : ∀ id ∈ s.ids, FilterCall.startedIn s.calls id = b) :
    FilterCall.UsedStarted s'.calls ↔
      FilterCall.UsedStarted s.calls ∧ (b = false → us = []) := by
  rw [hu.calls, FilterCall.usedStarted_uses hu.use]
  apply and_congr_right'
  constructor
  · intro h hfalse
    rw [List.eq_nil_iff_forall_not_mem]
    intro c hc
    have hc' := (h c hc).symm.trans (hb c.1 (hu.mem c hc))
    rw [hfalse] at hc'
    cases hc'
  · intro h c hc
    rw [hb c.1 (hu.mem c hc)]
    cases b with
    | true => rfl
    | false => rw [h rfl] at hc; cases hc

/-- The calls of the manager's socket. -/
theorem socketStep_uses {s : LiveMgr φ α σ} (hlen : s.ids.length = s.mgr.m_filters.length)
    (op : ToolsSocket.Op) (rs : List Reaction) :
    ∃ socket us, Uses { s with socket := socket } (s.socketStep op rs) us ∧
      (socket = if s.mgr.m_socket then s.socket.step op else s.socket) ∧
      (s.mgr.m_socket = false ∨ s.socket.signals op = [] → us = []) ∧
      (s.mgr.m_socket = true →
        ∀ signal ∈ (s.socket.signals op).head?, signal.status ≠ none → (us = [] ↔ s.ids = [])) := by
  cases hm : s.mgr.m_socket with
  | false =>
      have hstep : s.socketStep op rs = s := by simp [socketStep, hm]
      rw [hstep]
      exact ⟨s.socket, [], Uses.refl s, rfl, fun _ => rfl, fun h => by cases h⟩
  | true =>
      have hstep : s.socketStep op rs =
          deliver (s.socket.signals op) rs { s with socket := s.socket.step op } := by
        simp [socketStep, hm]
      rw [hstep]
      obtain ⟨us, hus, hstatus, hnil⟩ :=
        deliver_uses (s := { s with socket := s.socket.step op }) hlen (s.socket.signals op) rs
      refine ⟨_, us, hus, rfl, fun h => hnil (h.resolve_left Bool.true_eq_false.mp), ?_⟩
      exact fun _ => hstatus

/-- Only `start` makes a socket run. -/
theorem running_step {s : ToolsSocket} {op : ToolsSocket.Op} (hop : ∀ b, op ≠ .start b)
    (h : (s.step op).m_running = true) : s.m_running = true := by
  cases op with
  | start b => exact absurd rfl (hop b)
  | stop => cases h
  | socketConnect b => exact h
  | socketDisconnect => exact h
  | sendData now d =>
      simp only [ToolsSocket.step, ToolsSocket.sendData] at h
      split_ifs at h <;> exact h
  | reportDataReceived now d =>
      simp only [ToolsSocket.step, ToolsSocket.reportDataReceived] at h
      split_ifs at h <;> exact h
  | reportError msg =>
      simp only [ToolsSocket.step, ToolsSocket.reportError] at h
      split_ifs at h <;> exact h
  | reportDisconnected => exact h

/-- A call of the socket that is no `start` keeps the setup. -/
theorem Consistent.with_socket {s : LiveMgr φ α σ} (h : s.Consistent) {op : ToolsSocket.Op}
    (hop : ∀ b, op ≠ .start b) :
    Consistent { s with socket := if s.mgr.m_socket then s.socket.step op else s.socket } := by
  refine ⟨h.length, h.started, fun hr => h.socket ?_, h.ids_lt, h.fresh⟩
  cases hm : s.mgr.m_socket with
  | false => simpa [hm] using hr
  | true => exact running_step hop (by simpa [hm] using hr)

/-- When a call uses no filter that is not started: `stop` and `clear` of a running manager while
its socket is not connected, and what reports a status or sends data while the manager is running,
unless it has no filters. -/
def Allowed (s : LiveMgr φ α σ) : Event φ α σ → Prop
  | .stop _ | .clear _ =>
      s.m_running = true → s.mgr.m_socket = true → s.socket.m_connected = true →
        s.mgr.m_filters = []
  | .socketConnect _ _ | .socketDisconnect _ | .reportDisconnected _ =>
      s.m_running = false → s.mgr.m_socket = true → s.mgr.m_filters = []
  | .sendMsgs msgs =>
      s.m_running = false → s.mgr.sendingDisabled = false → SendReq.allWritten msgs ≠ [] →
        s.mgr.m_filters = []
  | _ => True

/-- What a call is to be shown to do. -/
def Keeps (s s' : LiveMgr φ α σ) (allowed : Prop) : Prop :=
  s'.Consistent ∧
    (FilterCall.UsedStarted s'.calls ↔ FilterCall.UsedStarted s.calls ∧ allowed)

theorem Consistent.filters_nil_iff {s : LiveMgr φ α σ} (h : s.Consistent) :
    s.mgr.m_filters = [] ↔ s.ids = [] := by
  rw [← List.length_eq_zero_iff, ← List.length_eq_zero_iff, h.length]

theorem keeps_start {s : LiveMgr φ α σ} (h : s.Consistent) (startImpl : Bool) :
    Keeps s (s.start startImpl) True := by
  unfold start
  split_ifs with hr
  · exact ⟨h, (and_iff_left trivial).symm⟩
  · have hcalls : (s.socketStep (.start startImpl) []).calls = s.calls ∧
        (s.socketStep (.start startImpl) []).ids = s.ids ∧
        (s.socketStep (.start startImpl) []).nextId = s.nextId ∧
        (s.socketStep (.start startImpl) []).mgr = s.mgr := by
      unfold socketStep
      split_ifs <;> exact ⟨rfl, rfl, rfl, rfl⟩
    obtain ⟨hc, hids, hnext, hmgr⟩ := hcalls
    refine ⟨⟨?_, ?_, fun hrun => ⟨rfl, ?_⟩, ?_, ?_⟩, ?_⟩
    · simp only [called, hids, hmgr, h.length]
    · intro id hid
      simp only [called, each, hids, hc] at hid ⊢
      rw [FilterCall.startedIn_each rfl, if_pos hid]
    · cases hm : s.mgr.m_socket with
      | true => exact (congrArg MsgMgr.m_socket hmgr).trans hm
      | false =>
          have hsame : s.socketStep (.start startImpl) [] = s := by simp [socketStep, hm]
          have hsocket := (h.socket (hsame ▸ hrun)).2
          exact absurd (hm.symm.trans hsocket) Bool.false_ne_true
    · simpa only [called, hids, hnext] using h.ids_lt
    · intro id hid
      simp only [called, each, hids, hc, hnext] at hid ⊢
      have hnot : id ∉ s.ids := fun hmem => absurd (h.ids_lt id hmem) (Nat.not_lt.mpr hid)
      rw [FilterCall.startedIn_each rfl, if_neg hnot]
      exact h.fresh id hid
    · simp only [called, each, hids, hc]
      rw [FilterCall.usedStarted_each rfl, and_iff_left trivial]

/-- Stopping the socket behind the filters stops it, and uses no filter in the allowed cases. -/
theorem socketStop_uses {s : LiveMgr φ α σ} (h : s.Consistent) (hr : s.m_running = true)
    (rs : List Reaction) :
    ∃ socket us, Uses { s.called (s.each .stop) with socket := socket }
        ((s.called (s.each .stop)).socketStep .stop rs) us ∧
      socket.m_running = false ∧ (us = [] ↔ s.Allowed (.stop rs)) := by
  obtain ⟨socket, us, hus, hsocket, hnil, hstatus⟩ :=
    socketStep_uses (s := s.called (s.each .stop)) h.length .stop rs
  refine ⟨socket, us, hus, ?_, ?_, ?_⟩
  · cases hm : s.mgr.m_socket with
    | false =>
        have hrun : ¬ s.socket.m_running = true := fun hrun =>
          Bool.false_ne_true (hm.symm.trans (h.socket hrun).2)
        rw [hsocket]
        simpa [called, hm] using hrun
    | true => simp [hsocket, called, hm, ToolsSocket.step, ToolsSocket.stop]
  · intro hus' _ hm hc
    have hreport := hstatus hm (.sigConnectionStatusReport false)
      (by simp [ToolsSocket.signals, called, hc]) (fun hnone => by cases hnone)
    exact h.filters_nil_iff.mpr (hreport.mp hus')
  · intro hallowed
    cases hm : s.mgr.m_socket with
    | false => exact hnil (Or.inl hm)
    | true =>
        cases hc : s.socket.m_connected with
        | false => exact hnil (Or.inr (by simp [ToolsSocket.signals, called, hc]))
        | true => exact hus.eq_nil (h.filters_nil_iff.mp (hallowed hr hm hc))

/-- A report that follows the `stop` of the filters uses stopped filters. -/
theorem keeps_stop {s : LiveMgr φ α σ} (h : s.Consistent) (rs : List Reaction) :
    Keeps s (s.stop rs) (s.Allowed (.stop rs)) ∧ (s.stop rs).m_running = false := by
  cases hr : s.m_running with
  | false =>
      have hstop : s.stop rs = s := by simp [stop, hr]
      rw [hstop]
      exact ⟨⟨h, (and_iff_left fun hrun => by rw [hr] at hrun; cases hrun).symm⟩, hr⟩
  | true =>
      have hstop : s.stop rs =
          { (s.called (s.each .stop)).socketStep .stop rs with m_running := false } := by
        simp [stop, hr]
      have hstopped : ∀ id ∈ s.ids,
          FilterCall.startedIn (s.called (s.each .stop)).calls id = false := by
        intro id hid
        exact (FilterCall.startedIn_each rfl _ _ _).trans (if_pos hid)
      obtain ⟨socket, us, hus, hsocket, hsilent⟩ := socketStop_uses h hr rs
      have hiff := hus.usedStarted_iff hstopped
      have heach : FilterCall.UsedStarted (s.called (s.each .stop)).calls ↔
          FilterCall.UsedStarted s.calls := FilterCall.usedStarted_each rfl _ _
      have hlast : ∀ id, FilterCall.startedIn
          ((s.called (s.each .stop)).socketStep .stop rs).calls id =
            FilterCall.startedIn (s.called (s.each .stop)).calls id := by
        intro id
        rw [hus.calls, FilterCall.startedIn_uses hus.use]
      rw [hstop]
      refine ⟨⟨⟨?_, ?_, ?_, ?_, ?_⟩, ?_⟩, rfl⟩
      · exact (congrArg List.length hus.ids).trans (h.length.trans hus.filters.symm)
      · intro id hid
        exact (hlast id).trans (hstopped id (hus.ids ▸ hid))
      · intro hrun
        have hrun' := (congrArg ToolsSocket.m_running hus.socket).symm.trans hrun
        exact absurd (hsocket.symm.trans hrun') Bool.false_ne_true
      · intro id hid
        exact Nat.lt_of_lt_of_eq (h.ids_lt id (hus.ids ▸ hid)) hus.nextId.symm
      · intro id hid
        have hid' : s.nextId ≤ id := hus.nextId ▸ hid
        have hnot : id ∉ s.ids := fun hmem => absurd (h.ids_lt id hmem) (Nat.not_lt.mpr hid')
        refine (hlast id).trans ((FilterCall.startedIn_each rfl _ _ _).trans ?_)
        rw [if_neg hnot]
        exact h.fresh id hid'
      · rw [hiff, heach, ← hsilent]
        exact and_congr_right' ⟨fun h => h rfl, fun h _ => h⟩

theorem keeps_clear {s : LiveMgr φ α σ} (h : s.Consistent) (rs : List Reaction) :
    Keeps s (s.clear rs) (s.Allowed (.clear rs)) := by
  obtain ⟨⟨hc, hused⟩, hr⟩ := keeps_stop h rs
  have hstop : (if s.m_running then s.stop rs else s) = s.stop rs := by
    cases hrun : s.m_running with
    | true => rfl
    | false => simp [stop, hrun]
  have hclear : s.clear rs =
      { s.stop rs with mgr := (s.stop rs).mgr.clear, socket := {}, ids := [] } := by
    simp only [clear, hstop]
  rw [hclear]
  refine ⟨⟨rfl, fun id hid => (List.not_mem_nil hid).elim,
    fun hrun => absurd hrun Bool.false_ne_true, fun id hid => (List.not_mem_nil hid).elim,
    hc.fresh⟩, hused⟩

/-- Signals of the socket use filters that are started while the manager is running. -/
theorem keeps_socketStep {s : LiveMgr φ α σ} (h : s.Consistent) {op : ToolsSocket.Op}
    (hop : ∀ b, op ≠ .start b) (rs : List Reaction) :
    ∃ us : List (ℕ × FilterCall), Keeps s (s.socketStep op rs) (s.m_running = false → us = []) ∧
      (s.mgr.m_socket = false ∨ s.socket.signals op = [] → us = []) ∧
      (s.mgr.m_socket = true → ∀ signal ∈ (s.socket.signals op).head?, signal.status ≠ none →
        (us = [] ↔ s.mgr.m_filters = [])) := by
  obtain ⟨socket, us, hus, rfl, hnil, hstatus⟩ := socketStep_uses h.length op rs
  refine ⟨us, ⟨hus.consistent (h.with_socket hop), hus.usedStarted_iff h.started⟩, hnil, ?_⟩
  intro hm signal hsignal hne
  exact (hstatus hm signal hsignal hne).trans h.filters_nil_iff.symm

/-- A status is reported whatever the socket does. -/
theorem keeps_report {s : LiveMgr φ α σ} (h : s.Consistent) {op : ToolsSocket.Op}
    (hop : ∀ b, op ≠ .start b) {connected : Bool}
    (hsignals : s.socket.signals op = [.sigConnectionStatusReport connected]) (r : Reaction) :
    Keeps s (s.socketStep op [r])
      (s.m_running = false → s.mgr.m_socket = true → s.mgr.m_filters = []) := by
  obtain ⟨us, ⟨hc, hused⟩, hnil, hstatus⟩ := keeps_socketStep h hop [r]
  refine ⟨hc, hused.trans (and_congr_right' (imp_congr_right fun _ => ?_))⟩
  cases hm : s.mgr.m_socket with
  | false => exact ⟨fun _ hfalse => absurd hfalse Bool.false_ne_true, fun _ => hnil (Or.inl hm)⟩
  | true =>
      have hreport := hstatus hm (.sigConnectionStatusReport connected) (by rw [hsignals]; rfl)
        (fun hnone => by cases hnone)
      exact ⟨fun hus _ => hreport.mp hus, fun hallowed => hreport.mpr (hallowed rfl)⟩

/-- Data and errors are reported by a running socket only. -/
theorem keeps_guarded {s : LiveMgr φ α σ} (h : s.Consistent) {op : ToolsSocket.Op}
    (hop : ∀ b, op ≠ .start b)
    (hsignals : s.socket.m_running = false → s.socket.signals op = []) (rs : List Reaction) :
    Keeps s (s.socketStep op rs) True := by
  obtain ⟨us, ⟨hc, hused⟩, hnil, -⟩ := keeps_socketStep h hop rs
  refine ⟨hc, hused.trans (and_congr_right' (iff_true_intro fun hr => hnil (Or.inr ?_)))⟩
  apply hsignals
  cases hs : s.socket.m_running with
  | false => rfl
  | true => exact absurd (hr.symm.trans (h.socket hs).1) Bool.false_ne_true

theorem keeps_sendMsgs {s : LiveMgr φ α σ} (h : s.Consistent) (msgs : List SendReq) :
    Keeps s (s.sendMsgs msgs) (s.Allowed (.sendMsgs msgs)) := by
  have hus := sendMsgs_uses h.length msgs
  refine ⟨hus.consistent h,
    (hus.usedStarted_iff h.started).trans (and_congr_right' (imp_congr_right fun _ => ?_))⟩
  by_cases hf : s.mgr.m_filters = []
  · exact ⟨fun _ _ _ => hf, fun _ => hus.eq_nil (h.filters_nil_iff.mp hf)⟩
  · have hcalls := MsgMgr.sendMsgsCalls_eq_nil_iff hf msgs
    rw [atPositions, List.map_eq_nil_iff, hcalls]
    constructor
    · rintro (hd | hw) hd' hw'
      · rw [hd'] at hd
        cases hd
      · exact absurd hw hw'
    · intro hallowed
      by_contra hnot
      push Not at hnot
      exact hf (hallowed (Bool.eq_false_of_not_eq_true hnot.1) hnot.2)

/-- A filter that is added while the manager is stopped is not started. -/
theorem keeps_addFilter {s : LiveMgr φ α σ} (h : s.Consistent) (hr : s.m_running = false)
    (filter : ToolsFilter σ) : Keeps s (s.addFilter filter) True := by
  refine ⟨⟨?_, ?_, h.socket, ?_, ?_⟩, (and_iff_left trivial).symm⟩
  · simp [addFilter, h.length]
  · intro id hid
    rcases List.mem_append.mp hid with hid | hid
    · exact h.started id hid
    · obtain rfl := List.mem_singleton.mp hid
      exact (h.fresh _ le_rfl).trans hr.symm
  · intro id hid
    rcases List.mem_append.mp hid with hid | hid
    · exact Nat.lt_succ_of_lt (h.ids_lt id hid)
    · obtain rfl := List.mem_singleton.mp hid
      exact Nat.lt_succ_self _
  · intro id hid
    exact h.fresh id (Nat.le_of_succ_le hid)

/-- **One call**: it uses no filter that is not started if and only if it is allowed. -/
theorem keeps_step {s : LiveMgr φ α σ} (h : s.Consistent) (ev : Event φ α σ)
    (hadd : ∀ filter, ev = .addFilter filter → s.m_running = false) :
    Keeps s (s.step ev) (s.Allowed ev) := by
  have hsame : ∀ b, FilterCall.UsedStarted b ↔ FilterCall.UsedStarted b ∧ True :=
    fun _ => (and_iff_left trivial).symm
  cases ev with
  | setSocket socket =>
      exact ⟨⟨h.length, h.started, fun hrun => absurd hrun Bool.false_ne_true, h.ids_lt, h.fresh⟩,
        hsame _⟩
  | addFilter filter => exact keeps_addFilter h (hadd filter rfl) filter
  | setProtocol protocol => exact ⟨⟨h.length, h.started, h.socket, h.ids_lt, h.fresh⟩, hsame _⟩
  | setRecvEnabled enabled => exact ⟨⟨h.length, h.started, h.socket, h.ids_lt, h.fresh⟩, hsame _⟩
  | start startImpl => exact keeps_start h startImpl
  | stop rs => exact (keeps_stop h rs).1
  | clear rs => exact keeps_clear h rs
  | sendMsgs msgs => exact keeps_sendMsgs h msgs
  | socketConnect ok r => exact keeps_report h (fun _ hop => by cases hop) rfl r
  | socketDisconnect r => exact keeps_report h (fun _ hop => by cases hop) rfl r
  | reportDataReceived now d r =>
      exact keeps_guarded h (fun _ hop => by cases hop)
        (fun hs => by simp [ToolsSocket.signals, hs]) [r]
  | reportError msg =>
      exact keeps_guarded h (fun _ hop => by cases hop)
        (fun hs => by simp [ToolsSocket.signals, hs]) []
  | reportDisconnected r => exact keeps_report h (fun _ hop => by cases hop) rfl r

/-- A run that configures the manager before it starts it. -/
def ConfiguredStopped (s : LiveMgr φ α σ) (evs : List (Event φ α σ)) : Prop :=
  ∀ pre filter post, evs = pre ++ .addFilter filter :: post → (s.run pre).m_running = false

theorem run_concat (s : LiveMgr φ α σ) (evs : List (Event φ α σ)) (ev : Event φ α σ) :
    s.run (evs ++ [ev]) = (s.run evs).step ev := List.foldl_append

/-- **When no filter is used while stopped**: in a run of a new manager whose filters are added
while it is not running, every use of a filter comes after its `start` and before its next `stop`
if and only if every call of the run is allowed. -/
theorem filters_used_iff (objs : MsgPtr → ToolsMessage φ α) (evs : List (Event φ α σ))
    (hconf : (new objs).ConfiguredStopped evs) :
    FilterCall.UsedStarted ((new objs).run evs).calls ↔
      ∀ pre ev post, evs = pre ++ ev :: post → ((new objs).run pre).Allowed ev := by
  suffices hrun : ((new objs).run evs).Consistent ∧
      (FilterCall.UsedStarted ((new objs).run evs).calls ↔
        ∀ pre ev post, evs = pre ++ ev :: post → ((new objs).run pre).Allowed ev) from hrun.2
  induction evs using List.reverseRecOn with
  | nil =>
      refine ⟨consistent_new objs, iff_of_true FilterCall.usedStarted_nil ?_⟩
      intro pre ev post hnil
      cases pre <;> cases hnil
  | append_singleton evs ev ih =>
      have hconf' : (new objs).ConfiguredStopped evs := fun pre filter post heq =>
        hconf pre filter (post ++ [ev]) (by rw [heq]; simp)
      obtain ⟨hc, hiff⟩ := ih hconf'
      obtain ⟨hc', hstep⟩ := keeps_step hc ev fun filter hev =>
        hconf evs filter [] (by rw [hev])
      rw [run_concat]
      refine ⟨hc', hstep.trans ?_⟩
      rw [hiff]
      constructor
      · rintro ⟨hall, hlast⟩ pre ev' post heq
        rcases List.eq_nil_or_concat post with rfl | ⟨post', x, rfl⟩
        · obtain ⟨rfl, hev⟩ := List.append_inj' heq rfl
          obtain rfl : ev = ev' := by simpa using hev
          exact hlast
        · have hcons : pre ++ ev' :: post'.concat x = (pre ++ ev' :: post') ++ [x] := by simp
          exact hall pre ev' post' (List.append_inj' (heq.trans hcons) rfl).1
      · intro hall
        exact ⟨fun pre ev' post heq => hall pre ev' (post ++ [ev]) (by rw [heq]; simp),
          hall evs ev [] rfl⟩

/-- A run whose filters are added by its first event at most. -/
theorem configuredStopped_cons {s : LiveMgr φ α σ} {ev : Event φ α σ} {evs : List (Event φ α σ)}
    (hs : s.m_running = false) (hevs : ∀ filter, .addFilter filter ∉ evs) :
    s.ConfiguredStopped (ev :: evs) := by
  intro pre filter post h
  cases pre with
  | nil => exact hs
  | cons ev' pre =>
      have htail : evs = pre ++ .addFilter filter :: post := (List.cons.inj h).2
      exact absurd (htail ▸ List.mem_append_right pre List.mem_cons_self) (hevs filter)

/-- A manager with a filter, a socket and a protocol is started, connected, disconnected and
stopped. -/
def stoppedDisconnected : List (Event Unit UInt8 (UInt8 × Bool)) :=
  [.addFilter countingFilter, .setSocket true,
    .setProtocol { name := [], m_frame := syncFrame }, .start true, .socketConnect true {},
    .socketDisconnect {}, .stop []]

theorem filters_used_stoppedDisconnected :
    FilterCall.UsedStarted ((new MsgMgr.countingMgr.objs).run stoppedDisconnected).calls := by
  refine (filters_used_iff MsgMgr.countingMgr.objs stoppedDisconnected ?_).mpr ?_
  · exact configuredStopped_cons rfl fun filter hmem => by simp at hmem
  · refine Runs.along_cons.mpr ⟨trivial, Runs.along_cons.mpr ⟨trivial, Runs.along_cons.mpr
      ⟨trivial, Runs.along_cons.mpr ⟨trivial, ?_⟩⟩⟩⟩
    refine Runs.along_cons.mpr ⟨fun hstopped => Bool.noConfusion hstopped, ?_⟩
    refine Runs.along_cons.mpr ⟨fun hstopped => Bool.noConfusion hstopped, ?_⟩
    exact Runs.along_cons.mpr ⟨fun _ _ hconnected => absurd hconnected Bool.false_ne_true,
      Runs.along_nil⟩

/-- The same manager is stopped while its socket is connected. -/
def stoppedConnected : List (Event Unit UInt8 (UInt8 × Bool)) :=
  [.addFilter countingFilter, .setSocket true,
    .setProtocol { name := [], m_frame := syncFrame }, .start true, .socketConnect true {},
    .stop []]

theorem configuredStopped_stoppedConnected :
    (new MsgMgr.countingMgr.objs).ConfiguredStopped stoppedConnected :=
  configuredStopped_cons rfl fun filter hmem => by simp at hmem

/-- The disconnection, which `stop` of the socket reports, comes to a stopped filter. -/
theorem stop_reports_to_stopped :
    (new MsgMgr.countingMgr.objs).ConfiguredStopped stoppedConnected ∧
      ¬ FilterCall.UsedStarted
        ((new MsgMgr.countingMgr.objs).run stoppedConnected).calls := by
  refine ⟨configuredStopped_stoppedConnected, fun h => ?_⟩
  have hstarted := h [(0, .start), (0, .socketConnectionReport true), (0, .stop)]
    (0, .socketConnectionReport false) [(0, .socketConnectionReport false)] rfl rfl
  exact absurd hstarted (by decide)

end LiveMgr

end CcToolsQt
