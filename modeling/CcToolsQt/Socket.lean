import CcToolsQt.Frame

/-! # The socket

`ToolsSocket`, the base class of the socket plugins: its two flags and the signals it emits.

What the virtual functions of a plugin return is an input of the operations.  A report a plugin
makes from inside one of them is a step of its own: `startImpl()`, `socketConnectImpl()` and
`socketDisconnectImpl()` run before their operation has changed anything, `stopImpl()` and
`sendDataImpl()` when nothing is left to be done, so such a report comes right before or right
after the operation.

* `lawful_iff`: when a run reports connection changes only while running and only once. -/

namespace CcToolsQt

namespace ToolsSocket

/-- The signals; `sigInterPluginConfigReport` is about the configuration of other plugins. -/
inductive Signal where
  | sigDataReceivedReport (data : ToolsDataInfo)
  | sigErrorReport (msg : QString)
  | sigConnectionStatusReport (connected : Bool)

/-- A signal that reports a status. -/
def Signal.status : Signal → Option Bool
  | sigConnectionStatusReport connected => some connected
  | _ => none

end ToolsSocket

/-- `ToolsSocket`, with the signals emitted so far, each with `isRunning()` at that moment, and
the data passed to `sendDataImpl()`. -/
structure ToolsSocket where
  m_running : Bool := false
  m_connected : Bool := false
  emitted : List (ToolsSocket.Signal × Bool) := []
  sent : List ToolsDataInfo := []

namespace ToolsSocket

def emit (s : ToolsSocket) (signal : Signal) : ToolsSocket :=
  { s with emitted := s.emitted ++ [(signal, s.m_running)] }

/-- The timestamp is set where there is none. -/
def stamped (now : ℕ) (d : ToolsDataInfo) : ToolsDataInfo :=
  if d.m_timestamp = 0 then { d with m_timestamp := now } else d

/-! ### The operations -/

def reportDataReceived (s : ToolsSocket) (now : ℕ) (d : ToolsDataInfo) : ToolsSocket :=
  if !s.m_running then s else s.emit (.sigDataReceivedReport (stamped now d))

def reportError (s : ToolsSocket) (msg : QString) : ToolsSocket :=
  if s.m_running then s.emit (.sigErrorReport msg) else s

def reportDisconnected (s : ToolsSocket) : ToolsSocket :=
  ({ s with m_connected := false }).emit (.sigConnectionStatusReport false)

/-- `start`, with the result of `startImpl()`. -/
def start (s : ToolsSocket) (startImpl : Bool) : ToolsSocket := { s with m_running := startImpl }

/-- `socketConnect`, with the result of `socketConnectImpl()`. -/
def socketConnect (s : ToolsSocket) (socketConnectImpl : Bool) : ToolsSocket :=
  ({ s with m_connected := socketConnectImpl }).emit (.sigConnectionStatusReport socketConnectImpl)

def socketDisconnect (s : ToolsSocket) : ToolsSocket :=
  ({ s with m_connected := false }).emit (.sigConnectionStatusReport false)

/-- `stop`: a connected socket is disconnected, and reported disconnected once more. -/
def stop (s : ToolsSocket) : ToolsSocket :=
  let s := if s.m_connected then s.socketDisconnect.reportDisconnected else s
  { s with m_running := false }

def sendData (s : ToolsSocket) (now : ℕ) (d : ToolsDataInfo) : ToolsSocket :=
  if !s.m_connected then s else { s with sent := s.sent ++ [stamped now d] }

/-- A call of the socket by the application or by the class derived from it. -/
inductive Op where
  | start (startImpl : Bool)
  | stop
  | socketConnect (socketConnectImpl : Bool)
  | socketDisconnect
  | sendData (now : ℕ) (d : ToolsDataInfo)
  | reportDataReceived (now : ℕ) (d : ToolsDataInfo)
  | reportError (msg : QString)
  | reportDisconnected

def step (s : ToolsSocket) : Op → ToolsSocket
  | .start startImpl => s.start startImpl
  | .stop => s.stop
  | .socketConnect socketConnectImpl => s.socketConnect socketConnectImpl
  | .socketDisconnect => s.socketDisconnect
  | .sendData now d => s.sendData now d
  | .reportDataReceived now d => s.reportDataReceived now d
  | .reportError msg => s.reportError msg
  | .reportDisconnected => s.reportDisconnected

def run (s : ToolsSocket) (ops : List Op) : ToolsSocket := ops.foldl step s

/-! ### What a call emits -/

/-- The signals of one call. -/
def signals (s : ToolsSocket) : Op → List Signal
  | .start _ => []
  | .stop =>
      if s.m_connected then [.sigConnectionStatusReport false, .sigConnectionStatusReport false]
      else []
  | .socketConnect socketConnectImpl => [.sigConnectionStatusReport socketConnectImpl]
  | .socketDisconnect => [.sigConnectionStatusReport false]
  | .sendData _ _ => []
  | .reportDataReceived now d =>
      if s.m_running then [.sigDataReceivedReport (stamped now d)] else []
  | .reportError msg => if s.m_running then [.sigErrorReport msg] else []
  | .reportDisconnected => [.sigConnectionStatusReport false]

/-- Every call emits its signals before it changes `m_running`. -/
theorem step_emitted (s : ToolsSocket) (op : Op) :
    (s.step op).emitted = s.emitted ++ (s.signals op).map fun signal => (signal, s.m_running) := by
  cases op with
  | start startImpl => simp [step, start, signals]
  | stop =>
      cases hc : s.m_connected with
      | false => simp [step, stop, signals, hc]
      | true => simp [step, stop, signals, hc, socketDisconnect, reportDisconnected, emit]
  | socketConnect ok => simp [step, socketConnect, signals, emit]
  | socketDisconnect => simp [step, socketDisconnect, signals, emit]
  | sendData now d =>
      simp only [step, sendData, signals]
      split_ifs <;> simp
  | reportDataReceived now d =>
      cases hr : s.m_running with
      | false => simp [step, reportDataReceived, signals, hr]
      | true => simp [step, reportDataReceived, signals, hr, emit]
  | reportError msg =>
      cases hr : s.m_running with
      | false => simp [step, reportError, signals, hr]
      | true => simp [step, reportError, signals, hr, emit]
  | reportDisconnected => simp [step, reportDisconnected, signals, emit]

/-! ### The law -/

/-- The last status emitted, `false` if there was none. -/
def lastStatus (emitted : List (Signal × Bool)) : Bool :=
  ((emitted.filterMap fun e => e.1.status).getLast?).getD false

/-- The number of `sigConnectionStatusReport(false)` among signals. -/
def disconnections (signals : List Signal) : ℕ := signals.countP fun e => e.status = some false

/-- What a run of a new socket is to keep to: signals only while running, the status always the
last one emitted, and one report for a call that takes the socket from connected to not. -/
structure Lawful (ops : List Op) : Prop where
  running : ∀ e ∈ (run {} ops).emitted, e.2 = true
  status : ∀ pre, pre <+: ops → (run {} pre).m_connected = lastStatus (run {} pre).emitted
  once : ∀ pre op post, ops = pre ++ op :: post → (run {} pre).m_connected = true →
    (run {} (pre ++ [op])).m_connected = false → disconnections ((run {} pre).signals op) = 1

/-- When a call may be made: nothing that reports a status while the socket is not running, and
no stop of a connected socket. -/
def Allowed (s : ToolsSocket) : Op → Prop
  | .stop => s.m_connected = false
  | .socketConnect _ => s.m_running = true
  | .socketDisconnect => s.m_running = true
  | .reportDisconnected => s.m_running = true
  | _ => True

/-- A call changes the connection by emitting a status, the new one last. -/
theorem step_connected (s : ToolsSocket) (op : Op) :
    (s.step op).m_connected =
      (((s.signals op).filterMap Signal.status).getLast?).getD s.m_connected := by
  cases op with
  | start startImpl => rfl
  | stop =>
      cases hc : s.m_connected with
      | false => simp [step, stop, signals, hc]
      | true =>
          simp [step, stop, signals, hc, socketDisconnect, reportDisconnected, emit, Signal.status]
  | socketConnect ok => rfl
  | socketDisconnect => rfl
  | sendData now d =>
      simp only [step, sendData, signals]
      split_ifs <;> rfl
  | reportDataReceived now d =>
      cases hr : s.m_running <;> simp [step, reportDataReceived, signals, hr, emit, Signal.status]
  | reportError msg =>
      cases hr : s.m_running <;> simp [step, reportError, signals, hr, emit, Signal.status]
  | reportDisconnected => rfl

theorem run_append (s : ToolsSocket) (ops ops' : List Op) :
    s.run (ops ++ ops') = (s.run ops).run ops' := List.foldl_append

theorem run_concat (s : ToolsSocket) (ops : List Op) (op : Op) :
    s.run (ops ++ [op]) = (s.run ops).step op := by
  rw [run_append]
  rfl

/-- What was emitted stays emitted. -/
theorem emitted_prefix (s : ToolsSocket) (ops : List Op) : s.emitted <+: (s.run ops).emitted := by
  induction ops generalizing s with
  | nil => exact List.prefix_rfl
  | cons op ops ih => exact ((s.step_emitted op) ▸ List.prefix_append _ _).trans (ih (s.step op))

/-- The status is the last one emitted, whatever is called. -/
theorem run_status (ops : List Op) :
    (run {} ops).m_connected = lastStatus (run {} ops).emitted := by
  induction ops using List.reverseRecOn with
  | nil => rfl
  | append_singleton ops op ih =>
      rw [run_concat, step_connected, step_emitted, lastStatus, List.filterMap_append,
        List.filterMap_map, List.getLast?_append, ih]
      unfold lastStatus
      have hmap : List.filterMap ((fun e : Signal × Bool => e.1.status) ∘
          fun signal => (signal, (run {} ops).m_running)) ((run {} ops).signals op) =
          ((run {} ops).signals op).filterMap Signal.status := rfl
      rw [hmap]
      cases ((((run {} ops).signals op).filterMap Signal.status).getLast?) <;> rfl

/-- A call that may be made emits nothing while the socket is not running. -/
theorem Allowed.running {s : ToolsSocket} {op : Op} (h : s.Allowed op) {signal : Signal}
    (hs : signal ∈ s.signals op) : s.m_running = true := by
  cases op with
  | start startImpl => cases hs
  | stop =>
      have hc : s.m_connected = false := h
      simp [signals, hc] at hs
  | socketConnect ok => exact h
  | socketDisconnect => exact h
  | sendData now d => cases hs
  | reportDataReceived now d =>
      cases hr : s.m_running with
      | false => simp [signals, hr] at hs
      | true => rfl
  | reportError msg =>
      cases hr : s.m_running with
      | false => simp [signals, hr] at hs
      | true => rfl
  | reportDisconnected => exact h

/-- A call that may be made reports a disconnection once. -/
theorem Allowed.once {s : ToolsSocket} {op : Op} (h : s.Allowed op) (hc : s.m_connected = true)
    (hd : (s.step op).m_connected = false) : disconnections (s.signals op) = 1 := by
  cases op with
  | start startImpl => exact absurd (hc.symm.trans hd) Bool.true_eq_false.mp
  | stop =>
      have hc' : s.m_connected = false := h
      rw [hc] at hc'
      cases hc'
  | socketConnect ok =>
      obtain rfl : ok = false := hd
      rfl
  | socketDisconnect => rfl
  | sendData now d =>
      rw [step_connected] at hd
      exact absurd (hc.symm.trans hd) Bool.true_eq_false.mp
  | reportDataReceived now d =>
      rw [step_connected] at hd
      cases hr : s.m_running <;> simp [signals, hr, Signal.status, hc] at hd
  | reportError msg =>
      rw [step_connected] at hd
      cases hr : s.m_running <;> simp [signals, hr, Signal.status, hc] at hd
  | reportDisconnected => rfl

/-- In a lawful run a call that emits is made while the socket is running. -/
theorem Lawful.signals_running {ops pre post : List Op} {op : Op} (h : Lawful ops)
    (hops : ops = pre ++ op :: post) {signal : Signal} (hs : signal ∈ (run {} pre).signals op) :
    (run {} pre).m_running = true := by
  have hsplit : ops = (pre ++ [op]) ++ post := by rw [hops, List.append_assoc]; rfl
  have hmem : (signal, (run {} pre).m_running) ∈ (run {} (pre ++ [op])).emitted := by
    rw [run_concat, step_emitted]
    exact List.mem_append_right _ (List.mem_map_of_mem hs)
  have hpre := emitted_prefix (run {} (pre ++ [op])) post
  rw [← run_append, ← hsplit] at hpre
  exact h.running _ (hpre.subset hmem)

/-- **When the law holds.**  A run of a new socket keeps to the law if and only if, in all of it,
statuses are reported only while the socket is running (`socketConnect`, `socketDisconnect` and
`reportDisconnected` do not look at the flag) and the socket is never stopped while connected
(`stop` reports the disconnection twice). -/
theorem lawful_iff (ops : List Op) :
    Lawful ops ↔ ∀ pre op post, ops = pre ++ op :: post → (run {} pre).Allowed op := by
  constructor
  · intro h pre op post hops
    cases op with
    | stop =>
        by_contra hc
        have hc' : (run {} pre).m_connected = true := by simpa [Allowed] using hc
        have hd : (run {} (pre ++ [.stop])).m_connected = false := by
          rw [run_concat, step_connected]
          simp [signals, hc', Signal.status]
        have honce := h.once pre .stop post hops hc' hd
        simp [signals, hc', disconnections, Signal.status] at honce
    | socketConnect ok => exact h.signals_running hops (List.mem_singleton_self _)
    | socketDisconnect => exact h.signals_running hops (List.mem_singleton_self _)
    | reportDisconnected => exact h.signals_running hops (List.mem_singleton_self _)
    | _ => trivial
  · intro h
    refine ⟨?_, fun pre _ => run_status pre, fun pre op post hops hc hd => ?_⟩
    · induction ops using List.reverseRecOn with
      | nil => intro e he; cases he
      | append_singleton ops op ih =>
          intro e he
          rw [run_concat, step_emitted] at he
          rcases List.mem_append.mp he with he | he
          · exact ih (fun pre op' post hops => h pre op' (post ++ [op]) (by rw [hops]; simp)) e he
          · obtain ⟨signal, hs, rfl⟩ := List.mem_map.mp he
            exact (h ops op [] rfl).running hs
    · rw [run_concat] at hd
      exact (h pre op post hops).once hc hd

/-- A started socket is connected and stopped: the disconnection is reported twice. -/
theorem stop_reports_twice : ¬ Lawful [.start true, .socketConnect true, .stop] := by
  intro h
  have honce := h.once [.start true, .socketConnect true] .stop [] rfl rfl rfl
  exact absurd honce (by decide)

end ToolsSocket

end CcToolsQt
