import CcToolsQt.Protocol
import CcToolsQt.Socket

/-! # The echo socket

`EchoSocket` keeps what it is sent in a queue and reports it as received from a slot that a timer
of zero length calls through the event loop.  What is sent from inside such a report is queued as
well and reported by the same call of the slot.

* `run_echoes`: in any run the blocks sent are those taken out of the queue followed by those in
  it, and a call of the slot is outstanding whenever there are any.
* `echo_reads_back`: messages sent through a socket that stays started are received as they were
  sent. -/

namespace CcToolsQt

/-- `EchoSocket`, with the state of its timer, the calls of `sendDataPostponed` the event loop still
has to make, and the blocks taken out of the queue, each with `isRunning()` at that moment. -/
structure EchoSocket where
  socket : ToolsSocket := {}
  m_timer : Bool := false
  postponed : ℕ := 0
  m_pendingData : List ToolsDataInfo := []
  m_timerActive : Bool := false
  taken : List (ToolsDataInfo × Bool) := []

namespace EchoSocket

/-- The calls the application makes; the socket keeps the implementations of `ToolsSocket` that
start and connect. -/
inductive Call where
  | start
  | stop
  | socketConnect
  | socketDisconnect
  | sendData (now : ℕ) (dataPtr : ToolsDataInfo)

/-! ### The operations -/

def sendDataImpl (s : EchoSocket) (dataPtr : ToolsDataInfo) : EchoSocket :=
  let s := { s with m_pendingData := s.m_pendingData ++ [dataPtr] }
  if s.m_timerActive then s else { s with m_timerActive := true, m_timer := true }

def call (s : EchoSocket) : Call → EchoSocket
  | .start => { s with socket := s.socket.start true }
  | .stop => { s with socket := s.socket.stop }
  | .socketConnect => { s with socket := s.socket.socketConnect true }
  | .socketDisconnect => { s with socket := s.socket.socketDisconnect }
  | .sendData now dataPtr =>
      if !s.socket.m_connected then s
      else
        { s with socket := s.socket.sendData now dataPtr }.sendDataImpl
          (ToolsSocket.stamped now dataPtr)

/-- One round of the loop of `sendDataPostponed`: a new block with the same content is reported. -/
def report (s : EchoSocket) (now : ℕ) (dataPtr : ToolsDataInfo) : EchoSocket :=
  { s with
    socket := s.socket.reportDataReceived now
      { m_timestamp := now
        m_data := dataPtr.m_data
        m_extraProperties := dataPtr.m_extraProperties }
    taken := s.taken ++ [(dataPtr, s.socket.m_running)] }

/-- The rounds from the `k`-th on for given blocks, when nothing is called from inside them. -/
def reportRest (clock : ℕ → ℕ) : ℕ → List ToolsDataInfo → EchoSocket → EchoSocket
  | _, [], s => s
  | k, d :: ds, s => reportRest clock (k + 1) ds (s.report (clock k) d)

/-- The loop from its `k`-th round on: `reactions` are the calls made from inside the reports, none
from inside those behind its end. -/
def loop (clock : ℕ → ℕ) : ℕ → List (List Call) → EchoSocket → EchoSocket
  | k, [], s => reportRest clock k s.m_pendingData { s with m_pendingData := [] }
  | k, calls :: reactions, s =>
      match s.m_pendingData with
      | [] => s
      | d :: ds =>
          let s := { s with m_pendingData := ds }.report (clock k) d
          loop clock (k + 1) reactions (calls.foldl call s)

/-- A call that returns has made finitely many rounds, so it is one of these. -/
def sendDataPostponed (s : EchoSocket) (clock : ℕ → ℕ) (reactions : List (List Call)) :
    EchoSocket :=
  loop clock 0 reactions { s with m_timerActive := false }

/-- What happens: a call of the application, the end of the timer, and the event loop calling the
slot. -/
inductive Event where
  | call (c : Call)
  | timeout
  | postponed (clock : ℕ → ℕ) (reactions : List (List Call))

def step (s : EchoSocket) : Event → EchoSocket
  | .call c => s.call c
  | .timeout => if s.m_timer then { s with m_timer := false, postponed := s.postponed + 1 } else s
  | .postponed clock reactions =>
      if s.postponed = 0 then s
      else { s with postponed := s.postponed - 1 }.sendDataPostponed clock reactions

def run (s : EchoSocket) (evs : List Event) : EchoSocket := evs.foldl step s

/-! ### What is reported -/

/-- What a block carries. -/
def content (d : ToolsDataInfo) : DataSeq × QVariantMap := (d.m_data, d.m_extraProperties)

/-- The block of a report. -/
def received : ToolsSocket.Signal → Option ToolsDataInfo
  | .sigDataReceivedReport d => some d
  | _ => none

/-- The blocks reported so far. -/
def reported (socket : ToolsSocket) : List ToolsDataInfo :=
  socket.emitted.filterMap fun e => received e.1

theorem content_stamped (now : ℕ) (d : ToolsDataInfo) :
    content (ToolsSocket.stamped now d) = content d := by
  unfold ToolsSocket.stamped
  split_ifs <;> rfl

/-! ### The account -/

/-- Every block sent is taken out of the queue or in it, and those taken while the socket was
running are reported. -/
structure Accounted (s : EchoSocket) : Prop where
  sent : s.socket.sent = s.taken.map Prod.fst ++ s.m_pendingData
  reported : (reported s.socket).map content =
    (s.taken.filter Prod.snd).map fun e => content e.1

theorem accounted_new : Accounted {} := ⟨rfl, rfl⟩

theorem reported_step (socket : ToolsSocket) (op : ToolsSocket.Op) :
    EchoSocket.reported (socket.step op) =
      EchoSocket.reported socket ++ (socket.signals op).filterMap received := by
  unfold EchoSocket.reported
  rw [socket.step_emitted op, List.filterMap_append, List.filterMap_map]
  rfl

/-- A call of the base class that neither reports a block nor sends one. -/
theorem Accounted.of_step {s : EchoSocket} (h : s.Accounted) (op : ToolsSocket.Op)
    (hsent : (s.socket.step op).sent = s.socket.sent)
    (hnone : (s.socket.signals op).filterMap received = []) :
    Accounted { s with socket := s.socket.step op } := by
  refine ⟨hsent.trans h.sent, ?_⟩
  rw [reported_step, hnone, List.append_nil]
  exact h.reported

theorem sendDataImpl_eq (s : EchoSocket) (d : ToolsDataInfo) :
    s.sendDataImpl d = { s with
      m_pendingData := s.m_pendingData ++ [d]
      m_timerActive := true
      m_timer := s.m_timer || !s.m_timerActive } := by
  unfold sendDataImpl
  cases s.m_timerActive <;> simp

theorem Accounted.call {s : EchoSocket} (h : s.Accounted) (c : Call) : (s.call c).Accounted := by
  cases c with
  | start => exact h.of_step (.start true) rfl rfl
  | stop =>
      apply h.of_step .stop
      · simp only [ToolsSocket.step, ToolsSocket.stop]
        split_ifs <;> rfl
      · simp only [ToolsSocket.signals]
        split_ifs <;> rfl
  | socketConnect => exact h.of_step (.socketConnect true) rfl rfl
  | socketDisconnect => exact h.of_step .socketDisconnect rfl rfl
  | sendData now d =>
      cases hc : s.socket.m_connected with
      | false => simpa [EchoSocket.call, hc] using h
      | true =>
          simp only [EchoSocket.call, hc, Bool.not_true, Bool.false_eq_true, if_false,
            sendDataImpl_eq, ToolsSocket.sendData]
          refine ⟨?_, h.reported⟩
          simp only [h.sent, List.append_assoc]

/-- A block taken out of the queue and reported. -/
theorem Accounted.report {s : EchoSocket} {d : ToolsDataInfo} {ds : List ToolsDataInfo}
    (h : s.Accounted) (hp : s.m_pendingData = d :: ds) (now : ℕ) :
    ({ s with m_pendingData := ds }.report now d).Accounted := by
  constructor
  · have hs := h.sent
    rw [hp] at hs
    simp only [EchoSocket.report, ToolsSocket.reportDataReceived]
    cases hr : s.socket.m_running with
    | false => simp [hs]
    | true => simp [ToolsSocket.emit, hs]
  · have hrep := h.reported
    simp only [EchoSocket.report, ToolsSocket.reportDataReceived]
    cases hr : s.socket.m_running with
    | false => simpa using hrep
    | true =>
        have hemit : EchoSocket.reported (s.socket.emit (.sigDataReceivedReport
            (ToolsSocket.stamped now ⟨now, d.m_data, d.m_extraProperties⟩))) =
            EchoSocket.reported s.socket ++
              [ToolsSocket.stamped now ⟨now, d.m_data, d.m_extraProperties⟩] := by
          simp [EchoSocket.reported, ToolsSocket.emit, received]
        have hcontent := content_stamped now ⟨now, d.m_data, d.m_extraProperties⟩
        simp [hemit, hcontent, hrep]
        rfl

theorem Accounted.calls {s : EchoSocket} (h : s.Accounted) (cs : List Call) :
    (cs.foldl EchoSocket.call s).Accounted := by
  induction cs generalizing s with
  | nil => exact h
  | cons c cs ih => exact ih (h.call c)

/-! ### The schedule -/

/-- The calls of `sendDataPostponed` to come. -/
def outstanding (s : EchoSocket) : ℕ := s.m_timer.toNat + s.postponed

/-- The timer is marked active as long as one call is to come. -/
def Marked (s : EchoSocket) : Prop := s.outstanding = s.m_timerActive.toNat

theorem Marked.call {s : EchoSocket} (h : s.Marked) (c : Call) : (s.call c).Marked := by
  cases c with
  | start => exact h
  | stop => exact h
  | socketConnect => exact h
  | socketDisconnect => exact h
  | sendData now d =>
      unfold Marked outstanding at h ⊢
      simp only [EchoSocket.call, sendDataImpl_eq]
      split_ifs
      · exact h
      · cases hact : s.m_timerActive <;> cases htim : s.m_timer <;> simp_all

theorem Marked.calls {s : EchoSocket} (h : s.Marked) (cs : List Call) :
    (cs.foldl EchoSocket.call s).Marked := by
  induction cs generalizing s with
  | nil => exact h
  | cons c cs ih => exact ih (h.call c)

theorem reportRest_pending (clock : ℕ → ℕ) (k : ℕ) (ds : List ToolsDataInfo) (s : EchoSocket) :
    (reportRest clock k ds s).m_pendingData = s.m_pendingData := by
  induction ds generalizing k s with
  | nil => rfl
  | cons d ds ih => exact ih (k + 1) (s.report (clock k) d)

theorem reportRest_marked (clock : ℕ → ℕ) (k : ℕ) (ds : List ToolsDataInfo) {s : EchoSocket}
    (h : s.Marked) : (reportRest clock k ds s).Marked := by
  induction ds generalizing k s with
  | nil => exact h
  | cons d ds ih =>
      have hd : (s.report (clock k) d).Marked := h
      exact ih (k + 1) hd

theorem reportRest_accounted (clock : ℕ → ℕ) (k : ℕ) (ds : List ToolsDataInfo) {s : EchoSocket}
    (h : ({ s with m_pendingData := ds }).Accounted) (hs : s.m_pendingData = []) :
    (reportRest clock k ds s).Accounted := by
  induction ds generalizing k s with
  | nil =>
      have e : { s with m_pendingData := [] } = s := by rw [← hs]
      exact e ▸ h
  | cons d ds ih =>
      have hd := h.report rfl (clock k)
      exact ih (k + 1) hd hs

/-- **The loop leaves nothing in the queue**, whatever is sent from inside it. -/
theorem loop_drains (clock : ℕ → ℕ) (k : ℕ) (reactions : List (List Call)) {s : EchoSocket}
    (ha : s.Accounted) (hm : s.Marked) :
    (loop clock k reactions s).Accounted ∧ (loop clock k reactions s).Marked ∧
      (loop clock k reactions s).m_pendingData = [] := by
  induction reactions generalizing k s with
  | nil =>
      refine ⟨reportRest_accounted clock k _ ha rfl, ?_, reportRest_pending _ _ _ _⟩
      have hq : Marked { s with m_pendingData := [] } := hm
      exact reportRest_marked clock k _ hq
  | cons calls reactions ih =>
      cases hp : s.m_pendingData with
      | nil =>
          simp only [loop, hp]
          exact ⟨ha, hm, trivial⟩
      | cons d ds =>
          simp only [loop, hp]
          have hmr : Marked ({ s with m_pendingData := ds }.report (clock k) d) := hm
          exact ih (k + 1) ((ha.report hp (clock k)).calls calls) (hmr.calls calls)

/-- The states between two events. -/
structure Inv (s : EchoSocket) : Prop where
  accounted : s.Accounted
  marked : s.Marked
  scheduled : s.m_pendingData ≠ [] → s.m_timerActive = true

theorem inv_new : Inv {} := ⟨accounted_new, rfl, fun h => absurd rfl h⟩

/-- A call of the slot: it is the only one to come, so none is left when the loop is entered. -/
theorem Inv.postponed {s : EchoSocket} (h : s.Inv) (hpos : s.postponed ≠ 0) (clock : ℕ → ℕ)
    (reactions : List (List Call)) :
    Inv ({ s with postponed := s.postponed - 1 }.sendDataPostponed clock reactions) ∧
      ({ s with postponed := s.postponed - 1 }.sendDataPostponed clock reactions).m_pendingData =
        [] := by
  have hmarked : Marked { s with postponed := s.postponed - 1, m_timerActive := false } := by
    have hm := h.marked
    have hle := Bool.toNat_le s.m_timerActive
    unfold Marked outstanding at hm ⊢
    simp only [Bool.toNat_false]
    omega
  obtain ⟨ha, hm, hp⟩ := loop_drains clock 0 reactions
    (s := { s with postponed := s.postponed - 1, m_timerActive := false })
    ⟨h.accounted.sent, h.accounted.reported⟩ hmarked
  exact ⟨⟨ha, hm, fun hne => absurd hp hne⟩, hp⟩

/-- The event loop empties a queue for which a call of the slot is posted. -/
theorem Inv.step_drains {s : EchoSocket} (h : s.Inv)
    (hposted : s.m_pendingData ≠ [] → s.postponed ≠ 0) (clock : ℕ → ℕ)
    (reactions : List (List Call)) : (s.step (.postponed clock reactions)).m_pendingData = [] := by
  simp only [EchoSocket.step]
  split_ifs with hz
  · by_contra hne
    exact hposted hne hz
  · exact (h.postponed hz clock reactions).2

theorem Inv.call {s : EchoSocket} (h : s.Inv) (c : Call) : (s.call c).Inv := by
  refine ⟨h.accounted.call c, h.marked.call c, ?_⟩
  cases c with
  | start => exact h.scheduled
  | stop => exact h.scheduled
  | socketConnect => exact h.scheduled
  | socketDisconnect => exact h.scheduled
  | sendData now d =>
      simp only [EchoSocket.call, sendDataImpl_eq]
      split_ifs
      · exact h.scheduled
      · exact fun _ => rfl

theorem Inv.step {s : EchoSocket} (h : s.Inv) (e : Event) : (s.step e).Inv := by
  cases e with
  | call c => exact h.call c
  | timeout =>
      simp only [EchoSocket.step]
      split_ifs with ht
      · refine ⟨⟨h.accounted.sent, h.accounted.reported⟩, ?_, h.scheduled⟩
        have hm := h.marked
        unfold Marked outstanding at hm ⊢
        simp only [ht, Bool.toNat_true, Bool.toNat_false] at hm ⊢
        omega
      · exact h
  | postponed clock reactions =>
      simp only [EchoSocket.step]
      split_ifs with hz
      · exact h
      · exact (h.postponed hz clock reactions).1

theorem run_inv (evs : List Event) : (run {} evs).Inv := by
  have hrun : ∀ s : EchoSocket, s.Inv → (s.run evs).Inv := by
    induction evs with
    | nil => exact fun s h => h
    | cons e evs ih => exact fun s h => ih (s.step e) (h.step e)
  exact hrun {} inv_new

/-- **The queue loses nothing**: in any run the blocks sent are the blocks taken out of it, in their
order, followed by those still in it; the ones taken while the socket was running are reported with
their content, and the others are not.  As long as there are any in the queue, exactly one call of
the slot is to come, and it empties the queue, whatever is sent from inside the reports. -/
theorem run_echoes (evs : List Event) (clock : ℕ → ℕ) (reactions : List (List Call)) :
    let s := run {} evs
    s.socket.sent = s.taken.map Prod.fst ++ s.m_pendingData ∧
      (reported s.socket).map content = (s.taken.filter Prod.snd).map (fun e => content e.1) ∧
      (s.m_pendingData ≠ [] → s.outstanding = 1) ∧
      (s.run [.timeout, .postponed clock reactions]).m_pendingData = [] := by
  intro s
  have h : s.Inv := run_inv evs
  have hone : s.m_pendingData ≠ [] → s.outstanding = 1 := by
    intro hne
    have hm := h.marked
    rw [Marked, h.scheduled hne] at hm
    exact hm
  refine ⟨h.accounted.sent, h.accounted.reported, hone, ?_⟩
  have hpending : (s.step .timeout).m_pendingData = s.m_pendingData := by
    simp only [EchoSocket.step]
    split_ifs <;> rfl
  have hexpired : (s.step .timeout).postponed = s.outstanding := by
    simp only [EchoSocket.step, outstanding]
    cases htim : s.m_timer with
    | false => simp
    | true => simp [Nat.add_comm]
  have hposted : (s.step .timeout).m_pendingData ≠ [] → (s.step .timeout).postponed ≠ 0 := by
    intro hne
    have := hone (hpending ▸ hne)
    omega
  exact (h.step .timeout).step_drains hposted clock reactions

/-! ### Messages through the socket -/

/-- A call that leaves the socket started and connected. -/
def Call.Keeps : Call → Prop
  | .stop => False
  | .socketDisconnect => False
  | _ => True

def Event.Keeps : Event → Prop
  | .call c => c.Keeps
  | .timeout => True
  | .postponed _ reactions => ∀ calls ∈ reactions, ∀ c ∈ calls, c.Keeps

/-- A socket that has been running for all it has reported. -/
structure Open (s : EchoSocket) : Prop where
  running : s.socket.m_running = true
  connected : s.socket.m_connected = true
  taken : ∀ e ∈ s.taken, e.2 = true

theorem Open.call {s : EchoSocket} (h : s.Open) {c : Call} (hc : c.Keeps) : (s.call c).Open := by
  cases c with
  | start => exact ⟨rfl, h.connected, h.taken⟩
  | stop => exact hc.elim
  | socketConnect => exact ⟨h.running, rfl, h.taken⟩
  | socketDisconnect => exact hc.elim
  | sendData now d =>
      simp only [EchoSocket.call, h.connected, Bool.not_true, Bool.false_eq_true, if_false,
        sendDataImpl_eq, ToolsSocket.sendData]
      exact ⟨h.running, rfl, h.taken⟩

theorem Open.calls {s : EchoSocket} (h : s.Open) {cs : List Call} (hcs : ∀ c ∈ cs, c.Keeps) :
    (cs.foldl EchoSocket.call s).Open := by
  induction cs generalizing s with
  | nil => exact h
  | cons c cs ih =>
      obtain ⟨hc, hcs⟩ := List.forall_mem_cons.mp hcs
      exact ih (h.call hc) hcs

theorem Open.report {s : EchoSocket} (h : s.Open) (now : ℕ) (d : ToolsDataInfo) :
    (s.report now d).Open := by
  have hmark : ∀ e ∈ s.taken ++ [(d, s.socket.m_running)], e.2 = true := by
    intro e he
    rcases List.mem_append.mp he with he | he
    · exact h.taken e he
    · obtain rfl := List.mem_singleton.mp he
      exact h.running
  unfold EchoSocket.report ToolsSocket.reportDataReceived
  simp only [h.running, Bool.not_true, Bool.false_eq_true, if_false]
  exact ⟨h.running, h.connected, h.running ▸ hmark⟩

theorem Open.loop {clock : ℕ → ℕ} {reactions : List (List Call)} (k : ℕ) {s : EchoSocket}
    (h : s.Open) (hr : ∀ calls ∈ reactions, ∀ c ∈ calls, c.Keeps) :
    (loop clock k reactions s).Open := by
  induction reactions generalizing k s with
  | nil =>
      have hrest : ∀ (ds : List ToolsDataInfo) k (s : EchoSocket), s.Open →
          (reportRest clock k ds s).Open := by
        intro ds
        induction ds with
        | nil => exact fun k s h => h
        | cons d ds ih => exact fun k s h => ih (k + 1) _ (h.report _ d)
      exact hrest _ k _ ⟨h.running, h.connected, h.taken⟩
  | cons calls reactions ih =>
      obtain ⟨hcalls, hr⟩ := List.forall_mem_cons.mp hr
      cases hp : s.m_pendingData with
      | nil =>
          simp only [EchoSocket.loop, hp]
          exact h
      | cons d ds =>
          simp only [EchoSocket.loop, hp]
          have hs : Open { s with m_pendingData := ds } := ⟨h.running, h.connected, h.taken⟩
          exact ih (k + 1) ((hs.report (clock k) d).calls hcalls) hr

theorem Open.step {s : EchoSocket} (h : s.Open) {e : Event} (he : e.Keeps) : (s.step e).Open := by
  cases e with
  | call c => exact h.call he
  | timeout =>
      simp only [EchoSocket.step]
      split_ifs
      · exact ⟨h.running, h.connected, h.taken⟩
      · exact h
  | postponed clock reactions =>
      simp only [EchoSocket.step]
      split_ifs
      · exact h
      · have hs : Open { s with postponed := s.postponed - 1, m_timerActive := false } :=
          ⟨h.running, h.connected, h.taken⟩
        exact hs.loop 0 he

theorem Open.run {s : EchoSocket} (h : s.Open) {evs : List Event} (he : ∀ e ∈ evs, e.Keeps) :
    (s.run evs).Open := by
  induction evs generalizing s with
  | nil => exact h
  | cons e evs ih =>
      obtain ⟨hfirst, he⟩ := List.forall_mem_cons.mp he
      exact ih (h.step hfirst) he

/-- A run that starts and connects the socket and then leaves it so. -/
def opened (evs : List Event) : List Event := .call .start :: .call .socketConnect :: evs

theorem run_opened {evs : List Event} (he : ∀ e ∈ evs, e.Keeps) : (run {} (opened evs)).Open := by
  have h : (run {} [.call .start, .call .socketConnect]).Open := ⟨rfl, rfl, nofun⟩
  exact h.run he

/-- While the socket stays open, what is sent is reported or in the queue. -/
theorem sent_opened {evs : List Event} (he : ∀ e ∈ evs, e.Keeps) :
    let s := run {} (opened evs)
    s.socket.sent.map content = (reported s.socket).map content ++ s.m_pendingData.map content := by
  intro s
  have hall : s.taken.filter Prod.snd = s.taken := List.filter_eq_self.mpr (run_opened he).taken
  have ha : s.Accounted := (run_inv (opened evs)).accounted
  rw [ha.sent, ha.reported, hall, List.map_append, List.map_map]
  rfl

end EchoSocket

/-! ### What is read of the reports -/

namespace ToolsProtocol
variable {φ α : Type} (P : ToolsProtocol φ α)

/-- The message that is read for one that was sent: the same object, its bytes as raw data, and the
same extra info. -/
structure Echoes (sent read : ToolsMessage φ α) : Prop where
  body : read.body = sent.body
  rawData : read.rawDataMsg = some (P.m_frame.encodeFramed sent)
  extraInfo : read.getExtraInfo = sent.getExtraInfo

/-- A message that is written as a message, not as raw data, and read back by its frame. -/
def Carried (m : ToolsMessage φ α) : Prop :=
  m.idAsString P.classes ≠ [] ∧
    ∃ form content w, m.body = .prot form content ∧ P.m_frame.RoundTrips form content w

/-- A block with the bytes and the extra info of one message gives this message. -/
theorem read_block {m : ToolsMessage φ α} (hm : P.Carried m) {d : ToolsDataInfo}
    (hd : EchoSocket.content d = (P.m_frame.encodeFramed m, m.getExtraInfo)) :
    ∃ m', P.read {} d false = ({}, [m']) ∧ P.Echoes m m' := by
  obtain ⟨-, form, content, w, hb, hr⟩ := hm
  obtain ⟨hdata, hprops⟩ := Prod.mk.inj hd
  have hw : P.m_frame.encodeFramed m = w := by
    simp only [ToolsFrame.encodeFramed, hb]
    exact P.m_frame.writeProtMsgImpl_of_writes hr.writes
  have hread := hr.codeword.read []
  rw [List.append_nil] at hread
  have hscan : P.m_frame.readLoop.scan [] d.m_data =
      ⟨[], [ToolsFrame.received form content w], []⟩ := by
    rw [hdata, hw, P.m_frame.readLoop.scan_of_step hread, List.drop_length,
      P.m_frame.readLoop.scan_of_halted (.inl rfl)]
    rfl
  refine ⟨P.setNameToMessageProperties (P.m_frame.attachExtraProperties m.getExtraInfo
    (ToolsFrame.received form content w)), ?_, ?_⟩
  · rw [read, P.m_frame.readDataImpl_notFinal]
    simp only [List.nil_append, hscan, hprops]
    rfl
  · constructor
    · show (P.m_frame.attachExtraProperties _ _).body = _
      rw [P.m_frame.attachExtraProperties_body, hb]
      rfl
    · show (P.m_frame.attachExtraProperties _ _).rawDataMsg = _
      rw [P.m_frame.attachExtraProperties_rawDataMsg, hw]
      rfl
    · show (P.m_frame.attachExtraProperties _ _).getExtraInfo = _
      unfold ToolsFrame.attachExtraProperties
      split_ifs with he
      · rw [List.isEmpty_iff.mp he]
        rfl
      · rfl

/-- Block by block. -/
theorem read_blocks {msgs : List (ToolsMessage φ α)} {ds : List ToolsDataInfo}
    (hmsgs : ∀ m ∈ msgs, P.Carried m)
    (hds : ds.map EchoSocket.content =
      msgs.map fun m => (P.m_frame.encodeFramed m, m.getExtraInfo)) :
    (P.readAll {} (ToolsFrame.notFinal ds)).1 = {} ∧
      List.Forall₂ P.Echoes msgs (P.readAll {} (ToolsFrame.notFinal ds)).2 := by
  induction msgs generalizing ds with
  | nil =>
      obtain rfl := List.map_eq_nil_iff.mp hds
      exact ⟨rfl, .nil⟩
  | cons m msgs ih =>
      obtain ⟨hm, hmsgs⟩ := List.forall_mem_cons.mp hmsgs
      cases ds with
      | nil => cases hds
      | cons d ds =>
          obtain ⟨hd, hds⟩ := List.cons.inj hds
          obtain ⟨m', hread, hechoes⟩ := P.read_block hm hd
          obtain ⟨hstate, hrest⟩ := ih hmsgs hds
          simp only [ToolsFrame.notFinal, List.map_cons, readAll, hread] at hstate hrest ⊢
          exact ⟨hstate, .cons hechoes hrest⟩

/-- What `write` makes of a message. -/
def Writes (m : ToolsMessage φ α) (d : ToolsDataInfo) : Prop := ∃ now, P.write now m = some d

theorem Carried.written {m : ToolsMessage φ α} (hm : P.Carried m) {d : ToolsDataInfo}
    {now : ℕ} (hd : P.write now m = some d) :
    EchoSocket.content d = (P.m_frame.encodeFramed m, m.getExtraInfo) := by
  have hid : (m.idAsString P.classes).isEmpty = false := by simpa using hm.1
  simp only [write, hid, Bool.false_eq_true, if_false, Option.some.injEq] at hd
  rw [← hd]
  rfl

end ToolsProtocol

namespace EchoSocket
variable {φ α : Type}

/-- **What is sent is received**: if the blocks sent through a socket that stays started and
connected are those a protocol writes for messages, the same protocol reads from the blocks reported
the first of these messages, one for each block, with their extra info, and as many are missing as
the queue still holds. -/
theorem echo_reads_back (P : ToolsProtocol φ α) {evs : List Event} (he : ∀ e ∈ evs, e.Keeps)
    {msgs : List (ToolsMessage φ α)} (hmsgs : ∀ m ∈ msgs, P.Carried m)
    (blocks : List ToolsDataInfo) (hblocks : List.Forall₂ P.Writes msgs blocks)
    (hsent : (run {} (opened evs)).socket.sent.map content = blocks.map content) :
    let s := run {} (opened evs)
    let r := P.readAll {} (ToolsFrame.notFinal (reported s.socket))
    r.1 = {} ∧ List.Forall₂ P.Echoes (msgs.take (reported s.socket).length) r.2 ∧
      msgs.length = (reported s.socket).length + s.m_pendingData.length := by
  intro s r
  have hopened := sent_opened he
  have hwritten : blocks.map content =
      msgs.map fun m => (P.m_frame.encodeFramed m, m.getExtraInfo) := by
    clear hsent
    induction hblocks with
    | nil => rfl
    | cons hd _ ih =>
        obtain ⟨hm, hmsgs⟩ := List.forall_mem_cons.mp hmsgs
        obtain ⟨now, hd⟩ := hd
        rw [List.map_cons, List.map_cons, ih hmsgs, hm.written P hd]
  have hall : (reported s.socket).map content ++ s.m_pendingData.map content =
      msgs.map fun m => (P.m_frame.encodeFramed m, m.getExtraInfo) := by
    rw [← hopened, hsent, hwritten]
  have hlength := congrArg List.length hall
  simp only [List.length_append, List.length_map] at hlength
  have hfront : (reported s.socket).map content =
      (msgs.take (reported s.socket).length).map fun m =>
        (P.m_frame.encodeFramed m, m.getExtraInfo) := by
    rw [List.map_take, ← hall, List.take_left' (by simp)]
  obtain ⟨hstate, hread⟩ := P.read_blocks (fun m hm => hmsgs m (List.mem_of_mem_take hm)) hfront
  exact ⟨hstate, hread, hlength.symm⟩

/-- Two messages are sent and a third one from inside the report of the first. -/
def sampleMsgs : List (ToolsMessage Unit UInt8) :=
  [{ body := .prot () 1 }, { body := .prot () 2, extraInfo := some [(['k'], .bool true)] },
    { body := .prot () 3 }]

def sampleProtocol : ToolsProtocol Unit UInt8 where
  name := ['S']
  m_frame := syncFrame

def sampleBlocks : List ToolsDataInfo :=
  [{ m_timestamp := 1, m_data := [syncByte, 1] },
    { m_timestamp := 2, m_data := [syncByte, 2], m_extraProperties := [(['k'], .bool true)] },
    { m_timestamp := 3, m_data := [syncByte, 3] }]

def sampleRun : List Event :=
  [.call (.sendData 1 { m_data := [syncByte, 1] }),
    .call (.sendData 2
      { m_data := [syncByte, 2], m_extraProperties := [(['k'], .bool true)] }), .timeout,
    .postponed (fun k => 10 + k) [[.sendData 3 { m_data := [syncByte, 3] }]]]

theorem echo_reads_back_sample :
    let s := run {} (opened sampleRun)
    let r := sampleProtocol.readAll {} (ToolsFrame.notFinal (reported s.socket))
    r.1 = {} ∧ List.Forall₂ sampleProtocol.Echoes (sampleMsgs.take (reported s.socket).length) r.2 ∧
      sampleMsgs.length = (reported s.socket).length + s.m_pendingData.length := by
  refine echo_reads_back sampleProtocol ?_ ?_ sampleBlocks ?_ rfl
  · simp [sampleRun, Event.Keeps, Call.Keeps]
  · simp only [sampleMsgs, List.mem_cons, List.not_mem_nil, or_false]
    rintro m (rfl | rfl | rfl)
    · exact ⟨by decide, (), 1, _, rfl, ToolsFrame.roundTrips_syncFrame 1⟩
    · exact ⟨by decide, (), 2, _, rfl, ToolsFrame.roundTrips_syncFrame 2⟩
    · exact ⟨by decide, (), 3, _, rfl, ToolsFrame.roundTrips_syncFrame 3⟩
  · exact .cons ⟨1, rfl⟩ (.cons ⟨2, rfl⟩ (.cons ⟨3, rfl⟩ .nil))

end EchoSocket

end CcToolsQt
