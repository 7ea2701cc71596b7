import CcToolsQt.Replacement
import CcToolsQt.Lib.Signals

/-! # The state of sending

`GuiAppMgr` keeps whether it is sending and tells it with `sigSetSendState` to the two tool bars
and the send list, each of which keeps a state of its own.  It is the send list that starts the
scheduler when it is told, and if everything is sent at once the scheduler completes, and the
`Idle` state is told, before the emission of the sending state has returned.

* `emitSendStateUpdate_sending`: the send list is told last, when the others have the state.
* `sendPending_settled`: whenever the scheduler has had its turn, everyone has the state of
  `GuiAppMgr`.
* `step_app`: the states are a layer on `App`.
* `sending_states_agree`: they agree in every state of a run, and a list that is sent at once
  leaves everyone idle. -/

namespace CcToolsQt

inductive SendState where
  | Idle
  | SendingSingle
  | SendingAll
  deriving DecidableEq

/-- The widgets connected to `sigSetSendState`. -/
inductive SendStateObserver where
  | recvAreaToolBar
  | sendAreaToolBar
  | sendMsgListWidget
  deriving DecidableEq

/-- The application with the state of sending and what the widgets keep of it. -/
structure SendingApp (φ α σ : Type) where
  app : App φ α σ
  m_sendState : SendState := .Idle
  recvAreaToolBar : SendState := .Idle
  sendAreaToolBar : SendState := .Idle
  sendMsgListWidget : SendState := .Idle

namespace SendStateObserver

/-- What the constructor of `RecvMsgListWidget` connects, its tool bar included. -/
def recvMsgListWidgetConnects : List SendStateObserver := [recvAreaToolBar]

/-- The tool bar is made before the widget itself is connected. -/
def sendMsgListWidgetConnects : List SendStateObserver := [sendAreaToolBar, sendMsgListWidget]

/-- `LeftPaneWidget`. -/
def connected : List SendStateObserver := recvMsgListWidgetConnects ++ sendMsgListWidgetConnects

end SendStateObserver

namespace SendingApp
variable {φ α σ : Type}

/-! ### The widgets -/

/-- `RecvAreaToolBar::sendStateChanged`. -/
def sendStateChanged (state : SendState) (a : SendingApp φ α σ) : SendingApp φ α σ :=
  if a.recvAreaToolBar = state then a else { a with recvAreaToolBar := state }

/-- `SendAreaToolBar::stateChanged`. -/
def stateChanged (state : SendState) (a : SendingApp φ α σ) : SendingApp φ α σ :=
  if a.sendAreaToolBar = state then a else { a with sendAreaToolBar := state }

/-- `SendMsgListWidget::stateChangedImpl`; `none` is a failed assertion. -/
def stateChangedImpl
    (sendMessages : List (ToolsMessage φ α) → SendingApp φ α σ → Option (SendingApp φ α σ))
    (state : SendState) (a : SendingApp φ α σ) : Option (SendingApp φ α σ) :=
  let a := { a with sendMsgListWidget := state }
  match state with
  | .Idle => some a
  | .SendingSingle =>
      match a.app.gui.sendList.currentItem with
      | none => none
      | some msg => sendMessages [a.app.gui.msgMgr.objs msg] a
  | .SendingAll =>
      if a.app.gui.sendList.items.isEmpty then none
      else sendMessages (a.app.gui.sendList.items.map a.app.gui.msgMgr.objs) a

/-- The slots connected to `sigSetSendState`. -/
def slot (sendMessages : List (ToolsMessage φ α) → SendingApp φ α σ → Option (SendingApp φ α σ)) :
    SendStateObserver → SendState → SendingApp φ α σ → Option (SendingApp φ α σ)
  | .recvAreaToolBar, state, a => some (a.sendStateChanged state)
  | .sendAreaToolBar, state, a => some (a.stateChanged state)
  | .sendMsgListWidget, state, a => a.stateChangedImpl sendMessages state

/-! ### `GuiAppMgr` -/

/-- The value the signal carries is the one at the call. -/
def emitSendStateUpdate
    (sendMessages : List (ToolsMessage φ α) → SendingApp φ α σ → Option (SendingApp φ α σ))
    (a : SendingApp φ α σ) : Option (SendingApp φ α σ) :=
  Signal.emit (slot sendMessages) a.m_sendState SendStateObserver.connected a

/-- Nothing is sent from an emission of `Idle`, see `sendStopClicked_eq`. -/
def sendStopClicked (a : SendingApp φ α σ) : Option (SendingApp φ α σ) :=
  emitSendStateUpdate (fun _ _ => none) { a with m_sendState := .Idle, app := a.app.stop }

/-- The end of `sendPendingAndWait`: the batch is sent and, if nothing is left, the completion
reported. -/
def sendPending (a : SendingApp φ α σ) (s : SendMgr φ α) (batch : List (ToolsMessage φ α))
    (answers : ℕ → Answer) : Option (SendingApp φ α σ) :=
  let a := { a with app := { a.app with m_sendMgr := s }.sendBatch batch answers }
  if s.m_msgsToSend.isEmpty then a.sendStopClicked else some a

/-- The scheduler has to be idle and needs a protocol. -/
def sendMessages (answers : ℕ → Answer) (msgs : List (ToolsMessage φ α)) (a : SendingApp φ α σ) :
    Option (SendingApp φ α σ) :=
  if !a.app.m_sendMgr.m_msgsToSend.isEmpty then none
  else
    match a.app.installed, a.app.gui.msgMgr.m_protocol with
    | some info, some P =>
        let s := SendMgr.start P msgs
        { a with app := { a.app with m_protocol := some (info, P) } }.sendPending s
          (s.batches.flatMap Prod.snd) answers
    | _, _ => none

def sendStartClicked (a : SendingApp φ α σ) (answers : ℕ → Answer) : Option (SendingApp φ α σ) :=
  emitSendStateUpdate (sendMessages answers) { a with m_sendState := .SendingSingle }

def sendStartAllClicked (a : SendingApp φ α σ) (answers : ℕ → Answer) :
    Option (SendingApp φ α σ) :=
  emitSendStateUpdate (sendMessages answers) { a with m_sendState := .SendingAll }

/-- The timer of the scheduler fires. -/
def sendTimeout (a : SendingApp φ α σ) (answers : ℕ → Answer) : Option (SendingApp φ α σ) :=
  match a.app.m_protocol with
  | none => some a
  | some (_, P) =>
      let s := a.app.m_sendMgr.timeout P
      a.sendPending s ((s.batches.drop a.app.m_sendMgr.batches.length).flatMap Prod.snd) answers

/-! ### The buttons -/

/-- `SendAreaToolBar::startStopClicked`. -/
def startStopClicked (a : SendingApp φ α σ) (answers : ℕ → Answer) : Option (SendingApp φ α σ) :=
  match a.sendAreaToolBar with
  | .Idle => a.sendStartClicked answers
  | .SendingSingle => a.sendStopClicked
  | .SendingAll => none

/-- `SendAreaToolBar::startStopAllClicked`. -/
def startStopAllClicked (a : SendingApp φ α σ) (answers : ℕ → Answer) :
    Option (SendingApp φ α σ) :=
  match a.sendAreaToolBar with
  | .Idle => a.sendStartAllClicked answers
  | .SendingAll => a.sendStopClicked
  | .SendingSingle => none

inductive Event where
  | gui (ev : GuiEvent)
  | startStopClicked (answers : ℕ → Answer)
  | startStopAllClicked (answers : ℕ → Answer)
  | sendTimeout (answers : ℕ → Answer)

def step (a : SendingApp φ α σ) : Event → Option (SendingApp φ α σ)
  | .gui ev => some { a with app := a.app.guiStep ev }
  | .startStopClicked answers => a.startStopClicked answers
  | .startStopAllClicked answers => a.startStopAllClicked answers
  | .sendTimeout answers => a.sendTimeout answers

def run : SendingApp φ α σ → List Event → Option (SendingApp φ α σ)
  | a, [] => some a
  | a, e :: evs => (a.step e).bind fun a' => run a' evs

/-! ### Emissions -/

/-- The state a widget keeps. -/
def cached (a : SendingApp φ α σ) : SendStateObserver → SendState
  | .recvAreaToolBar => a.recvAreaToolBar
  | .sendAreaToolBar => a.sendAreaToolBar
  | .sendMsgListWidget => a.sendMsgListWidget

/-- What no widget keeps. -/
def manager (a : SendingApp φ α σ) : App φ α σ × SendState := (a.app, a.m_sendState)

/-- Every widget has the state of `GuiAppMgr`. -/
def Agree (a : SendingApp φ α σ) : Prop := ∀ o, a.cached o = a.m_sendState

variable (send : List (ToolsMessage φ α) → SendingApp φ α σ → Option (SendingApp φ α σ))

theorem slot_recvAreaToolBar_stores (state : SendState) :
    Signal.Stores (slot send) cached manager state .recvAreaToolBar := by
  intro a
  refine ⟨_, rfl, ?_⟩
  unfold sendStateChanged
  split_ifs with h
  · exact ⟨h, fun _ _ => rfl, rfl⟩
  · refine ⟨rfl, fun o ho => ?_, rfl⟩
    cases o with
    | recvAreaToolBar => exact absurd rfl ho
    | sendAreaToolBar => rfl
    | sendMsgListWidget => rfl

theorem slot_sendAreaToolBar_stores (state : SendState) :
    Signal.Stores (slot send) cached manager state .sendAreaToolBar := by
  intro a
  refine ⟨_, rfl, ?_⟩
  unfold stateChanged
  split_ifs with h
  · exact ⟨h, fun _ _ => rfl, rfl⟩
  · refine ⟨rfl, fun o ho => ?_, rfl⟩
    cases o with
    | recvAreaToolBar => rfl
    | sendAreaToolBar => exact absurd rfl ho
    | sendMsgListWidget => rfl

/-- The send list sends nothing when it is told that sending has stopped. -/
theorem slot_sendMsgListWidget_stores :
    Signal.Stores (slot send) cached manager .Idle .sendMsgListWidget := by
  intro a
  refine ⟨_, rfl, rfl, fun o ho => ?_, rfl⟩
  cases o with
  | recvAreaToolBar => rfl
  | sendAreaToolBar => rfl
  | sendMsgListWidget => exact absurd rfl ho

theorem mem_connected (o : SendStateObserver) : o ∈ SendStateObserver.connected := by
  cases o <;> decide

/-- **An emission of `Idle`** reaches everyone. -/
theorem emitSendStateUpdate_idle {a : SendingApp φ α σ} (h : a.m_sendState = .Idle) :
    ∃ a', emitSendStateUpdate send a = some a' ∧ a'.Agree ∧ a'.manager = a.manager := by
  have hall : ∀ o ∈ SendStateObserver.connected,
      Signal.Stores (slot send) cached manager .Idle o := by
    intro o _
    cases o with
    | recvAreaToolBar => exact slot_recvAreaToolBar_stores send _
    | sendAreaToolBar => exact slot_sendAreaToolBar_stores send _
    | sendMsgListWidget => exact slot_sendMsgListWidget_stores send
  obtain ⟨a', ha', hcached, hrest⟩ := Signal.emit_stores hall a
  refine ⟨a', ?_, fun o => ?_, hrest⟩
  · rw [emitSendStateUpdate, h, ha']
  · rw [hcached o (mem_connected o), (Prod.mk.inj hrest).2, h]

/-- The emission made as sending stops is the one of `emitSendStateUpdate`, whatever the send list
would send. -/
theorem sendStopClicked_eq (a : SendingApp φ α σ) :
    a.sendStopClicked =
      emitSendStateUpdate send { a with m_sendState := .Idle, app := a.app.stop } := by
  refine Signal.emit_congr (fun o _ a' => ?_) _
  cases o <;> rfl

/-- What the send list sends when it is told a state. -/
def msgsToSend (a : SendingApp φ α σ) : SendState → Option (List (ToolsMessage φ α))
  | .Idle => none
  | .SendingSingle => a.app.gui.sendList.currentItem.map fun msg => [a.app.gui.msgMgr.objs msg]
  | .SendingAll =>
      if a.app.gui.sendList.items.isEmpty then none
      else some (a.app.gui.sendList.items.map a.app.gui.msgMgr.objs)

theorem stateChangedImpl_eq (a : SendingApp φ α σ) {state : SendState} (h : state ≠ .Idle) :
    a.stateChangedImpl send state =
      (a.msgsToSend state).bind fun msgs => send msgs { a with sendMsgListWidget := state } := by
  cases state with
  | Idle => exact absurd rfl h
  | SendingSingle =>
      unfold stateChangedImpl msgsToSend
      dsimp only
      cases a.app.gui.sendList.currentItem <;> rfl
  | SendingAll =>
      unfold stateChangedImpl msgsToSend
      dsimp only
      split_ifs <;> rfl

/-- **An emission of a sending state**: the send list is told last, so that the messages are sent
when everyone has the state already. -/
theorem emitSendStateUpdate_sending {a : SendingApp φ α σ} (h : a.m_sendState ≠ .Idle) :
    ∃ a', a'.Agree ∧ a'.manager = a.manager ∧
      emitSendStateUpdate send a =
        (a.msgsToSend a.m_sendState).bind fun msgs => send msgs a' := by
  have hbars : ∀ o ∈ [SendStateObserver.recvAreaToolBar, .sendAreaToolBar],
      Signal.Stores (slot send) cached manager a.m_sendState o := by
    simp only [List.forall_mem_cons]
    exact ⟨slot_recvAreaToolBar_stores send _, slot_sendAreaToolBar_stores send _, by simp⟩
  obtain ⟨a', ha', hcached, hrest⟩ := Signal.emit_stores hbars a
  obtain ⟨happ, hstate⟩ := Prod.mk.inj hrest
  refine ⟨{ a' with sendMsgListWidget := a.m_sendState }, fun o => ?_, hrest, ?_⟩
  · cases o with
    | recvAreaToolBar => exact (hcached .recvAreaToolBar (by simp)).trans hstate.symm
    | sendAreaToolBar => exact (hcached .sendAreaToolBar (by simp)).trans hstate.symm
    | sendMsgListWidget => exact hstate.symm
  · have hmsgs : a'.msgsToSend a.m_sendState = a.msgsToSend a.m_sendState := by
      unfold msgsToSend
      rw [happ]
    have hlast : slot send .sendMsgListWidget a.m_sendState a' =
        (a.msgsToSend a.m_sendState).bind fun msgs =>
          send msgs { a' with sendMsgListWidget := a.m_sendState } := by
      rw [← hmsgs]
      exact stateChangedImpl_eq send a' h
    have hconnected : SendStateObserver.connected =
        [.recvAreaToolBar, .sendAreaToolBar] ++ [.sendMsgListWidget] := rfl
    rw [emitSendStateUpdate, hconnected, Signal.emit_append, ha', Option.bind_some]
    simp only [Signal.emit, hlast, Option.bind_fun_some]

/-! ### The states of a run -/

/-- The widgets have the state of `GuiAppMgr`, and while that is `Idle` the scheduler is stopped. -/
structure Settled (a : SendingApp φ α σ) : Prop where
  agree : a.Agree
  queue : a.m_sendState = .Idle → a.app.m_sendMgr.m_msgsToSend = []
  protocol : a.m_sendState = .Idle → a.app.m_protocol = none

variable {send}

/-- Stopping succeeds and leaves everyone idle. -/
theorem sendStopClicked_settled (a : SendingApp φ α σ) :
    ∃ a', a.sendStopClicked = some a' ∧ a'.Settled ∧ a'.m_sendState = .Idle := by
  obtain ⟨a', ha', hagree, hrest⟩ := emitSendStateUpdate_idle (fun _ _ => none)
    (a := { a with m_sendState := .Idle, app := a.app.stop }) rfl
  obtain ⟨happ, hstate⟩ := Prod.mk.inj hrest
  refine ⟨a', ha', ⟨hagree, fun _ => ?_, fun _ => ?_⟩, hstate⟩
  · rw [happ]
    rfl
  · rw [happ]
    rfl

/-- **A turn of the scheduler**: everyone is idle if nothing is left to be sent, and has the state
of before otherwise. -/
theorem sendPending_settled {a : SendingApp φ α σ} (h : a.Agree) (hne : a.m_sendState ≠ .Idle)
    (s : SendMgr φ α) (batch : List (ToolsMessage φ α)) (answers : ℕ → Answer) :
    ∃ a', a.sendPending s batch answers = some a' ∧ a'.Settled ∧
      a'.m_sendState = if s.m_msgsToSend.isEmpty then .Idle else a.m_sendState := by
  unfold sendPending
  dsimp only
  split_ifs with hs
  · exact sendStopClicked_settled _
  · exact ⟨_, rfl, ⟨h, fun hidle => absurd hidle hne, fun hidle => absurd hidle hne⟩, rfl⟩

/-- A later tick finds and leaves everyone in step with `GuiAppMgr`. -/
theorem Settled.sendTimeout {a : SendingApp φ α σ} (h : a.Settled) (answers : ℕ → Answer) :
    ∃ a', a.sendTimeout answers = some a' ∧ a'.Settled := by
  unfold SendingApp.sendTimeout
  cases hP : a.app.m_protocol with
  | none => exact ⟨a, rfl, h⟩
  | some infoP =>
      have hne : a.m_sendState ≠ .Idle := by
        intro hidle
        rw [h.protocol hidle] at hP
        cases hP
      obtain ⟨a', ha', hs, -⟩ := sendPending_settled h.agree hne _ _ answers
      exact ⟨a', ha', hs⟩

/-- Plugins with a protocol are applied. -/
def HasProtocol (a : SendingApp φ α σ) : Prop :=
  a.app.installed ≠ none ∧ a.app.gui.msgMgr.m_protocol ≠ none

/-- Messages are handed to the scheduler when everyone has the sending state. -/
theorem sendMessages_eq (answers : ℕ → Answer) (msgs : List (ToolsMessage φ α))
    (a : SendingApp φ α σ) :
    (a.app.m_sendMgr.m_msgsToSend = [] ∧ a.HasProtocol ∧ ∃ P app batch,
        a.sendMessages answers msgs =
          { a with app := app }.sendPending (SendMgr.start P msgs) batch answers) ∨
      ¬ (a.app.m_sendMgr.m_msgsToSend = [] ∧ a.HasProtocol) ∧
        a.sendMessages answers msgs = none := by
  unfold SendingApp.sendMessages HasProtocol
  cases hq : a.app.m_sendMgr.m_msgsToSend with
  | cons m ms => exact Or.inr ⟨fun h => List.cons_ne_nil m ms h.1, rfl⟩
  | nil =>
      cases hinfo : a.app.installed with
      | none => exact Or.inr ⟨fun h => h.2.1 rfl, rfl⟩
      | some info =>
          cases hP : a.app.gui.msgMgr.m_protocol with
          | none => exact Or.inr ⟨fun h => h.2.2 rfl, rfl⟩
          | some P => exact Or.inl ⟨rfl, ⟨nofun, nofun⟩, P, _, _, rfl⟩

/-- **Start** tells the sending state, and if everything is sent at once `Idle` before it
returns. -/
theorem sendStart_settled {a : SendingApp φ α σ} {state : SendState} (hne : state ≠ .Idle)
    (answers : ℕ → Answer) {a' : SendingApp φ α σ}
    (h : emitSendStateUpdate (sendMessages answers) { a with m_sendState := state } = some a') :
    a'.Settled := by
  obtain ⟨a₁, hagree, hrest, heq⟩ := emitSendStateUpdate_sending (sendMessages answers)
    (a := { a with m_sendState := state }) hne
  obtain ⟨-, hstate⟩ := Prod.mk.inj hrest
  obtain ⟨msgs, -, hmsgs⟩ := Option.bind_eq_some_iff.mp (heq.symm.trans h)
  obtain ⟨-, -, P, app, batch, hsend⟩ | ⟨-, hnone⟩ := sendMessages_eq answers msgs a₁
  · obtain ⟨a₂, ha₂, hs, -⟩ := sendPending_settled (a := { a₁ with app := app }) hagree
      (hstate ▸ hne) (SendMgr.start P msgs) batch answers
    exact Option.some.inj (ha₂.symm.trans (hsend.symm.trans hmsgs)) ▸ hs
  · cases hnone.symm.trans hmsgs

/-- The rest of the application leaves the scheduler alone. -/
theorem guiStep_scheduler (a : App φ α σ) (ev : GuiEvent) :
    (a.guiStep ev).m_sendMgr = a.m_sendMgr ∧ (a.guiStep ev).m_protocol = a.m_protocol := by
  unfold App.guiStep
  split
  · exact ⟨rfl, rfl⟩
  · split_ifs <;> exact ⟨rfl, rfl⟩

theorem Settled.step {a a' : SendingApp φ α σ} (h : a.Settled) {e : Event}
    (hstep : a.step e = some a') : a'.Settled := by
  have hstop : ∀ {b}, a.sendStopClicked = some b → b.Settled := by
    intro b hb
    obtain ⟨b', hb', hs, -⟩ := sendStopClicked_settled a
    exact Option.some.inj (hb'.symm.trans hb) ▸ hs
  cases e with
  | gui ev =>
      obtain ⟨hmgr, hprotocol⟩ := guiStep_scheduler a.app ev
      cases hstep
      refine ⟨h.agree, fun hidle => ?_, fun hidle => ?_⟩
      · exact (congrArg SendMgr.m_msgsToSend hmgr).trans (h.queue hidle)
      · exact hprotocol.trans (h.protocol hidle)
  | startStopClicked answers =>
      unfold SendingApp.step startStopClicked at hstep
      dsimp only at hstep
      split at hstep
      · exact sendStart_settled (show SendState.SendingSingle ≠ .Idle from nofun) answers hstep
      · exact hstop hstep
      · cases hstep
  | startStopAllClicked answers =>
      unfold SendingApp.step startStopAllClicked at hstep
      dsimp only at hstep
      split at hstep
      · exact sendStart_settled (show SendState.SendingAll ≠ .Idle from nofun) answers hstep
      · exact hstop hstep
      · cases hstep
  | sendTimeout answers =>
      obtain ⟨b, hb, hs⟩ := h.sendTimeout answers
      exact Option.some.inj (hb.symm.trans hstep) ▸ hs

theorem Settled.run {a a' : SendingApp φ α σ} (h : a.Settled) {evs : List Event}
    (hrun : a.run evs = some a') : a'.Settled := by
  induction evs generalizing a with
  | nil =>
      cases hrun
      exact h
  | cons e evs ih =>
      obtain ⟨b, hb, hrest⟩ := Option.bind_eq_some_iff.mp hrun
      exact ih (h.step hb) hrest

/-! ### The application below -/

theorem sendStopClicked_app {a a' : SendingApp φ α σ} (h : a.sendStopClicked = some a') :
    a'.app = a.app.stop := by
  obtain ⟨b, hb, -, hrest⟩ := emitSendStateUpdate_idle (fun _ _ => none)
    (a := { a with m_sendState := .Idle, app := a.app.stop }) rfl
  exact Option.some.inj (hb.symm.trans h) ▸ (Prod.mk.inj hrest).1

theorem sendPending_app {a a' : SendingApp φ α σ} {s : SendMgr φ α}
    {batch : List (ToolsMessage φ α)} {answers : ℕ → Answer}
    (h : a.sendPending s batch answers = some a') :
    a'.app = a.app.sendPending s batch answers := by
  unfold sendPending at h
  unfold App.sendPending
  dsimp only at h ⊢
  split_ifs at h ⊢
  · exact sendStopClicked_app h
  · cases h
    rfl

theorem sendMessages_app {a a' : SendingApp φ α σ} {answers : ℕ → Answer}
    {msgs : List (ToolsMessage φ α)} (h : a.sendMessages answers msgs = some a') :
    a'.app = a.app.sendMessages msgs answers := by
  unfold SendingApp.sendMessages at h
  unfold App.sendMessages
  split_ifs at h ⊢ with hq
  cases hinfo : a.app.installed with
  | none =>
      simp only [hinfo] at h
      cases h
  | some info =>
      cases hP : a.app.gui.msgMgr.m_protocol with
      | none =>
          simp only [hinfo, hP] at h
          cases h
      | some P =>
          simp only [hinfo, hP] at h ⊢
          exact sendPending_app h

theorem emitSendStateUpdate_app {a a' : SendingApp φ α σ} (hne : a.m_sendState ≠ .Idle)
    {answers : ℕ → Answer} (h : emitSendStateUpdate (sendMessages answers) a = some a') :
    ∃ msgs, a.msgsToSend a.m_sendState = some msgs ∧ a'.app = a.app.sendMessages msgs answers := by
  obtain ⟨b, -, hrest, heq⟩ := emitSendStateUpdate_sending (sendMessages answers) hne
  obtain ⟨msgs, hmsgs, hsend⟩ := Option.bind_eq_some_iff.mp (heq.symm.trans h)
  exact ⟨msgs, hmsgs, (sendMessages_app hsend).trans ((Prod.mk.inj hrest).1 ▸ rfl)⟩

theorem sendStartClicked_app {a a' : SendingApp φ α σ} {answers : ℕ → Answer}
    (h : a.sendStartClicked answers = some a') : a'.app = a.app.sendStartClicked answers := by
  obtain ⟨msgs, hmsgs, happ⟩ :=
    emitSendStateUpdate_app (a := { a with m_sendState := .SendingSingle }) nofun h
  obtain ⟨msg, hmsg, rfl⟩ := Option.map_eq_some_iff.mp hmsgs
  rw [App.sendStartClicked, hmsg]
  exact happ

theorem sendStartAllClicked_app {a a' : SendingApp φ α σ} {answers : ℕ → Answer}
    (h : a.sendStartAllClicked answers = some a') : a'.app = a.app.sendStartAllClicked answers := by
  obtain ⟨msgs, hmsgs, happ⟩ :=
    emitSendStateUpdate_app (a := { a with m_sendState := .SendingAll }) nofun h
  unfold msgsToSend at hmsgs
  unfold App.sendStartAllClicked
  dsimp only at hmsgs
  split_ifs at hmsgs ⊢
  cases hmsgs
  exact happ

/-- What an event is for the application below. -/
def appEvent (a : SendingApp φ α σ) : Event → AppEvent
  | .gui ev => .gui ev
  | .startStopClicked answers =>
      if a.sendAreaToolBar = .Idle then .sendStartClicked answers else .sendStopClicked
  | .startStopAllClicked answers =>
      if a.sendAreaToolBar = .Idle then .sendStartAllClicked answers else .sendStopClicked
  | .sendTimeout answers => .sendTimeout answers

/-- **The states are a layer** on the application: without them a step is one of `App`. -/
theorem step_app {a a' : SendingApp φ α σ} {e : Event} (h : a.step e = some a') :
    a'.app = a.app.step (a.appEvent e) := by
  cases e with
  | gui ev =>
      cases h
      rfl
  | startStopClicked answers =>
      unfold step startStopClicked at h
      unfold appEvent
      dsimp only at h ⊢
      split at h
      · next hidle =>
          rw [if_pos hidle]
          exact sendStartClicked_app h
      · next hsending =>
          rw [if_neg (by simp [hsending])]
          exact sendStopClicked_app h
      · cases h
  | startStopAllClicked answers =>
      unfold step startStopAllClicked at h
      unfold appEvent
      dsimp only at h ⊢
      split at h
      · next hidle =>
          rw [if_pos hidle]
          exact sendStartAllClicked_app h
      · next hsending =>
          rw [if_neg (by simp [hsending])]
          exact sendStopClicked_app h
      · cases h
  | sendTimeout answers =>
      unfold step sendTimeout at h
      unfold appEvent App.step App.sendTimeout
      cases hP : a.app.m_protocol with
      | none =>
          simp only [hP] at h ⊢
          cases h
          rfl
      | some p =>
          simp only [hP] at h ⊢
          exact sendPending_app h

/-! ### Lists that are sent at once -/

/-- A message without a delay that is sent once. -/
def SentAtOnce (m : ToolsMessage φ α) : Prop :=
  m.getDelay = 0 ∧ SendMgr.needsReinsert m = false

theorem sendLoop_at_once (P : ToolsProtocol φ α) {msgs : List (ToolsMessage φ α)}
    (h : ∀ m ∈ msgs, SentAtOnce m) : (SendMgr.sendLoop P msgs []).2 = [] := by
  induction msgs with
  | nil => rfl
  | cons m ms ih =>
      obtain ⟨hm, hms⟩ := List.forall_mem_cons.mp h
      simp only [SendMgr.sendLoop, hm.2, Bool.false_eq_true, if_false]
      exact ih hms

theorem start_sent_at_once (P : ToolsProtocol φ α) {msgs : List (ToolsMessage φ α)}
    (h : ∀ m ∈ msgs, SentAtOnce m) : (SendMgr.start P msgs).m_msgsToSend = [] := by
  have hclones : ∀ m ∈ msgs.map (SendMgr.startClone P), SentAtOnce m := by
    intro m hm
    obtain ⟨orig, horig, rfl⟩ := List.mem_map.mp hm
    obtain ⟨hdelay, hdur, hcount⟩ := SendMgr.startClone_timing P orig
    have honce := h orig horig
    unfold SentAtOnce SendMgr.needsReinsert ToolsMessage.getDelay ToolsMessage.getRepeatDuration
      ToolsMessage.getRepeatCount at honce ⊢
    rw [hdelay, hdur, hcount]
    exact honce
  unfold SendMgr.start SendMgr.sendPendingAndWait
  have htake : (msgs.map (SendMgr.startClone P)).takeWhile (fun m => m.getDelay == 0) =
      msgs.map (SendMgr.startClone P) :=
    List.takeWhile_eq_self_iff.mpr fun m hm => by simp [(hclones m hm).1]
  have hdrop : (msgs.map (SendMgr.startClone P)).dropWhile (fun m => m.getDelay == 0) = [] :=
    List.dropWhile_eq_nil_iff.mpr fun m hm => by simp [(hclones m hm).1]
  dsimp only
  rw [htake, hdrop, sendLoop_at_once P hclones]
  rfl

/-- Everyone is idle. -/
def AllIdle (a : SendingApp φ α σ) : Prop := a.m_sendState = .Idle ∧ ∀ o, a.cached o = .Idle

theorem sendStart_at_once {a : SendingApp φ α σ} (hs : a.Settled) (hidle : a.m_sendState = .Idle)
    (hprot : a.HasProtocol) {state : SendState} {msgs : List (ToolsMessage φ α)}
    (hmsgs : a.msgsToSend state = some msgs) (hne : state ≠ .Idle)
    (honce : ∀ m ∈ msgs, SentAtOnce m) (answers : ℕ → Answer) :
    ∃ a', emitSendStateUpdate (sendMessages answers) { a with m_sendState := state } = some a' ∧
      a'.AllIdle := by
  obtain ⟨a₁, hagree, hrest, heq⟩ := emitSendStateUpdate_sending (sendMessages answers)
    (a := { a with m_sendState := state }) hne
  obtain ⟨happ, hstate⟩ := Prod.mk.inj hrest
  have hready : a₁.app.m_sendMgr.m_msgsToSend = [] ∧ a₁.HasProtocol := by
    unfold HasProtocol
    rw [happ]
    exact ⟨hs.queue hidle, hprot⟩
  obtain ⟨-, -, P, app, batch, hsend⟩ | ⟨hnot, -⟩ := sendMessages_eq answers msgs a₁
  · obtain ⟨a₂, ha₂, hs₂, hstate₂⟩ := sendPending_settled (a := { a₁ with app := app }) hagree
      (hstate ▸ hne) (SendMgr.start P msgs) batch answers
    rw [start_sent_at_once P honce] at hstate₂
    have hidle₂ : a₂.m_sendState = .Idle := hstate₂
    refine ⟨a₂, ?_, hidle₂, fun o => (hs₂.agree o).trans hidle₂⟩
    rw [heq]
    exact (congrArg (Option.bind · _) hmsgs).trans (hsend.trans ha₂)
  · exact absurd hready hnot

/-- **The states of sending agree** in every state of a run and after every later tick, and a list
that is sent at once leaves everyone idle. -/
theorem sending_states_agree (g : GuiAppMgr φ α σ) (evs : List Event) {a : SendingApp φ α σ}
    (hrun : SendingApp.run { app := { gui := g } } evs = some a) :
    a.Agree ∧
      (∀ answers, ∃ a', a.sendTimeout answers = some a' ∧ a'.Agree) ∧
      (a.m_sendState = .Idle → a.HasProtocol → ∀ answers,
        (∀ msg, a.app.gui.sendList.currentItem = some msg →
          SentAtOnce (a.app.gui.msgMgr.objs msg) →
            ∃ a', a.sendStartClicked answers = some a' ∧ a'.AllIdle) ∧
        (a.app.gui.sendList.items ≠ [] →
          (∀ msg ∈ a.app.gui.sendList.items, SentAtOnce (a.app.gui.msgMgr.objs msg)) →
            ∃ a', a.sendStartAllClicked answers = some a' ∧ a'.AllIdle)) := by
  have hinit : Settled ({ app := { gui := g } } : SendingApp φ α σ) :=
    ⟨fun o => by cases o <;> rfl, fun _ => rfl, fun _ => rfl⟩
  have hs := hinit.run hrun
  refine ⟨hs.agree, fun answers => ?_, fun hidle hprot answers => ⟨fun msg hmsg honce => ?_,
    fun hne honce => ?_⟩⟩
  · obtain ⟨a', ha', hs'⟩ := hs.sendTimeout answers
    exact ⟨a', ha', hs'.agree⟩
  · have hmsgs : a.msgsToSend .SendingSingle = some [a.app.gui.msgMgr.objs msg] := by
      rw [msgsToSend, hmsg, Option.map_some]
    exact sendStart_at_once hs hidle hprot hmsgs nofun (by simpa using honce) answers
  · have hmsgs : a.msgsToSend .SendingAll =
        some (a.app.gui.sendList.items.map a.app.gui.msgMgr.objs) := by
      rw [msgsToSend, if_neg (by simpa using hne)]
    exact sendStart_at_once hs hidle hprot hmsgs nofun (by simpa using honce) answers

/-- One protocol, and messages that are sent at once. -/
def sendingSample : GuiAppMgr Unit UInt8 Unit :=
  { App.twoPlugins.gui with
    msgMgr := { objs := fun _ => { body := .prot () 0 } } }

def sendingEvents : List Event := [.gui (.applyNewPlugins [0]), .gui (.sendAddNewMessage 1)]

/-- A message is added to the send list and sent. -/
theorem sending_states_agree_sample :
    ∃ a, SendingApp.run { app := { gui := sendingSample } } sendingEvents = some a ∧
      ∃ a', a.sendStartAllClicked (App.sampleAnswer 2) = some a' ∧ a'.AllIdle := by
  have hrun : SendingApp.run { app := { gui := sendingSample } } sendingEvents = some _ := rfl
  obtain ⟨-, -, hstart⟩ := sending_states_agree sendingSample sendingEvents hrun
  refine ⟨_, hrun, (hstart rfl ⟨?_, ?_⟩ _).2 ?_ fun _ _ => ⟨rfl, rfl⟩⟩
  · exact Option.some_ne_none _
  · exact Option.some_ne_none _
  · exact List.cons_ne_nil _ _

end SendingApp

end CcToolsQt
