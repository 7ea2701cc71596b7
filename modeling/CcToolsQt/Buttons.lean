import CcToolsQt.Activity
import CcToolsQt.SendStates

/-! # The buttons of the tool bars

`RecvAreaToolBar` and `SendAreaToolBar` enable their buttons by what they have been told: the
activity, the states of receiving and sending, the number of the messages and the selected row.
The slots behind the buttons assert what the buttons are meant to have seen to.

A `Desk` is the whole application: the window with its activity (`ActiveApp`) and the scheduler with
the states of sending (`SendingApp`), which are two views of one `GuiAppMgr`.

* `Reach.inv`: what holds in every state that is reached, whatever is done and sent in between.
* `buttons_safe`: in every such state the slots of the enabled buttons meet no assertion of the
  application, the lists or the tool bars that fails.
* `buttons_exact`: a button that comments, duplicates, deletes or clears is enabled exactly when
  its slot could be called, as long as the application is active and nothing is being sent.

What a file that is loaded holds and what the protocol makes of a message is left out. -/

namespace CcToolsQt

/-! ### The tool bars -/

/-- `GuiAppMgr::RecvState`. -/
inductive RecvState where
  | Idle
  | Running
  deriving DecidableEq

/-- `RecvAreaToolBar`, with whether its button that shows sent messages is checked. -/
structure RecvAreaToolBar where
  bar : AreaToolBar
  m_state : RecvState
  m_sendState : SendState
  m_activeState : ActivityState
  showSentChecked : Bool

/-- `SendAreaToolBar`. -/
structure SendAreaToolBar where
  bar : AreaToolBar
  m_state : SendState
  m_activeState : ActivityState

namespace AreaToolBar

def msgSelected (bar : AreaToolBar) : Bool := bar.m_selectedIdx.isSome

def listEmpty (bar : AreaToolBar) : Bool := decide (bar.m_listTotal = 0)

theorem listEmpty_eq_false {bar : AreaToolBar} : (!bar.listEmpty) = true ↔ 0 < bar.m_listTotal := by
  rw [listEmpty, Bool.not_eq_true', decide_eq_false_iff_not, Nat.pos_iff_ne_zero]

end AreaToolBar

inductive RecvButton where
  | startStop
  | load
  | save
  | comment
  | dup
  | delete
  | clear
  | editFilter

inductive SendButton where
  | startStop
  | startStopAll
  | load
  | save
  | add
  | addRaw
  | edit
  | comment
  | dup
  | delete
  | clear
  | top
  | up
  | down
  | bottom

/-- The buttons whose slots assert something about the messages of the list. -/
def RecvButton.ofMessages : List RecvButton := [.comment, .dup, .delete, .clear]

def SendButton.ofMessages : List SendButton := [.comment, .dup, .delete, .clear]

/-- The buttons that work on the selected message. -/
def RecvButton.ofSelected : List RecvButton := [.comment, .dup, .delete]

def SendButton.ofSelected : List SendButton :=
  [.edit, .comment, .dup, .delete, .top, .up, .down, .bottom]

/-- What `refresh` enables. -/
def RecvAreaToolBar.enabled (b : RecvAreaToolBar) : RecvButton → Bool
  | .startStop => decide (b.m_activeState = .Active)
  | .load =>
      if b.m_activeState ≠ .Active ∨ b.m_state ≠ .Idle then false
      else if b.showSentChecked ∧ b.m_sendState ≠ .Idle then false
      else true
  | .save =>
      if b.m_activeState ≠ .Active ∨ b.m_state ≠ .Idle ∨ b.bar.listEmpty then false
      else if b.showSentChecked ∧ b.m_sendState ≠ .Idle then false
      else true
  | .comment => decide (b.m_activeState = .Active) && b.bar.msgSelected
  | .dup => decide (b.m_activeState = .Active) && b.bar.msgSelected
  | .delete => decide (b.m_activeState = .Active) && b.bar.msgSelected
  | .clear => decide (b.m_activeState = .Active) && !b.bar.listEmpty
  | .editFilter => decide (b.m_activeState = .Active)

namespace SendAreaToolBar

/-- The condition most buttons share. -/
def idle (b : SendAreaToolBar) : Bool :=
  decide (b.m_activeState = .Active) && decide (b.m_state = .Idle)

/-- `refreshUpButton`. -/
def upEnabled (b : SendAreaToolBar) : Bool :=
  b.idle && b.bar.m_selectedIdx.any fun idx => decide (0 < idx)

/-- `refreshDownButton`. -/
def downEnabled (b : SendAreaToolBar) : Bool :=
  b.idle && b.bar.msgSelected &&
    b.bar.m_selectedIdx.any fun idx => decide (idx < b.bar.m_listTotal - 1)

/-- What `refresh` enables. -/
def enabled (b : SendAreaToolBar) : SendButton → Bool
  | .startStop =>
      if b.m_state = .SendingSingle then true
      else
        decide (b.m_activeState = .Active) && !b.bar.listEmpty && b.bar.msgSelected &&
          decide (b.m_state = .Idle)
  | .startStopAll =>
      if b.m_state = .SendingAll then true
      else decide (b.m_activeState = .Active) && !b.bar.listEmpty && decide (b.m_state = .Idle)
  | .load => b.idle
  | .save => b.idle && !b.bar.listEmpty
  | .add => b.idle
  | .addRaw => b.idle
  | .edit => b.idle && b.bar.msgSelected
  | .comment => b.idle && b.bar.msgSelected
  | .dup => b.idle && b.bar.msgSelected
  | .delete => b.idle && b.bar.msgSelected
  | .clear => b.idle && !b.bar.listEmpty
  | .top => b.upEnabled
  | .up => b.upEnabled
  | .down => b.downEnabled
  | .bottom => b.downEnabled

theorem idle_iff {b : SendAreaToolBar} :
    b.idle = true ↔ b.m_activeState = .Active ∧ b.m_state = .Idle := by
  rw [idle, Bool.and_eq_true, decide_eq_true_eq, decide_eq_true_eq]

/-- The button that starts and stops the selected message. -/
theorem startStop_enabled {b : SendAreaToolBar} (h : b.enabled .startStop = true) :
    b.m_state = .SendingSingle ∨
      b.m_state = .Idle ∧ b.m_activeState = .Active ∧ b.bar.msgSelected = true := by
  by_cases hs : b.m_state = .SendingSingle
  · exact .inl hs
  · rw [enabled, if_neg hs] at h
    simp only [Bool.and_eq_true, decide_eq_true_eq] at h
    exact .inr ⟨h.2, h.1.1.1, h.1.2⟩

/-- The button that starts and stops the whole list. -/
theorem startStopAll_enabled {b : SendAreaToolBar} (h : b.enabled .startStopAll = true) :
    b.m_state = .SendingAll ∨
      b.m_state = .Idle ∧ b.m_activeState = .Active ∧ 0 < b.bar.m_listTotal := by
  by_cases hs : b.m_state = .SendingAll
  · exact .inl hs
  · rw [enabled, if_neg hs] at h
    simp only [Bool.and_eq_true, decide_eq_true_eq] at h
    exact .inr ⟨h.2, h.1.1, AreaToolBar.listEmpty_eq_false.mp h.1.2⟩

end SendAreaToolBar

/-! ### The batches of the scheduler -/

namespace App
variable {φ α σ : Type}

/-- The messages that are due as the scheduler is started. -/
def startBatch (a : App φ α σ) (msgs : List (ToolsMessage φ α)) : List (ToolsMessage φ α) :=
  if !a.m_sendMgr.m_msgsToSend.isEmpty then []
  else
    match a.installed, a.gui.msgMgr.m_protocol with
    | some _, some P => (SendMgr.start P msgs).batches.flatMap Prod.snd
    | _, _ => []

/-- The messages the scheduler passes to the send callback in an event. -/
def batch (a : App φ α σ) : AppEvent → List (ToolsMessage φ α)
  | .gui _ => []
  | .sendStartClicked _ =>
      match a.gui.sendList.currentItem with
      | some msg => a.startBatch [a.gui.msgMgr.objs msg]
      | none => []
  | .sendStartAllClicked _ =>
      if a.gui.sendList.items.isEmpty then []
      else a.startBatch (a.gui.sendList.items.map a.gui.msgMgr.objs)
  | .sendStopClicked => []
  | .sendTimeout _ =>
      match a.m_protocol with
      | none => []
      | some (_, P) =>
          ((a.m_sendMgr.timeout P).batches.drop a.m_sendMgr.batches.length).flatMap Prod.snd

end App

/-- The answers to the messages of a batch. -/
def AppEvent.answers : AppEvent → ℕ → Answer
  | .sendStartClicked answers => answers
  | .sendStartAllClicked answers => answers
  | .sendTimeout answers => answers
  | _ => fun _ => ⟨0, none, [], 0⟩

namespace App
variable {φ α σ : Type}

/-- The messages passed to `sendMsgs` in an event of the scheduler. -/
def requests (a : App φ α σ) (ev : AppEvent) : List SendReq :=
  (List.range (a.batch ev).length).map fun i => (ev.answers i).request

/-- The application with other objects behind its pointers. -/
def withObjs (g : GuiAppMgr φ α σ) (objs : MsgPtr → ToolsMessage φ α) : GuiAppMgr φ α σ :=
  { g with msgMgr := { g.msgMgr with objs := objs } }

theorem putObjs_of_not_mem {objs : MsgPtr → ToolsMessage φ α} {answers : ℕ → Answer} {p : MsgPtr}
    (batch : List (ToolsMessage φ α))
    (hp : p ∉ (List.range batch.length).map fun i => (answers i).msg) :
    putObjs objs batch answers p = objs p := by
  unfold putObjs
  have hfold : ∀ (l : List (ToolsMessage φ α × ℕ)) (objs : MsgPtr → ToolsMessage φ α),
      (∀ e ∈ l, (answers e.2).msg ≠ p) →
        l.foldl (fun objs e => Function.update objs (answers e.2).msg e.1) objs p = objs p := by
    intro l
    induction l with
    | nil => exact fun objs _ => rfl
    | cons e l ih =>
        intro objs hl
        obtain ⟨he, hl⟩ := List.forall_mem_cons.mp hl
        rw [List.foldl_cons, ih _ hl, Function.update_of_ne (Ne.symm he)]
  apply hfold
  rintro ⟨m, i⟩ he heq
  apply hp
  have hi := List.snd_lt_of_mem_zipIdx he
  exact List.mem_map.mpr ⟨i, List.mem_range.mpr (by simpa using hi), heq⟩

/-- The pointers the messages of a batch get are among those of its requests. -/
theorem mem_allPtrs_of_answer {answers : ℕ → Answer} {n : ℕ} {p : MsgPtr}
    (hp : p ∈ (List.range n).map fun i => (answers i).msg) :
    p ∈ SendReq.allPtrs ((List.range n).map fun i => (answers i).request) := by
  obtain ⟨i, hi, rfl⟩ := List.mem_map.mp hp
  generalize List.range n = l at hi
  induction l with
  | nil => cases hi
  | cons j l ih =>
      rw [List.map_cons, SendReq.allPtrs, List.mem_append]
      rcases List.mem_cons.mp hi with rfl | hi
      · left
        simp [Answer.request, SendReq.ptrs]
      · exact .inr (ih hi)

/-- **What the scheduler does to the application**: it makes objects for new messages and passes
them to `sendMsgs`. -/
def SendsBatch (g g' : GuiAppMgr φ α σ) (reqs : List SendReq) : Prop :=
  ∃ objs : MsgPtr → ToolsMessage φ α, (∀ p ∉ SendReq.allPtrs reqs, objs p = g.msgMgr.objs p) ∧
    g' = (withObjs g objs).step (.sendMsgs reqs)

theorem sendsBatch_nil (g : GuiAppMgr φ α σ) : SendsBatch g g [] := by
  refine ⟨g.msgMgr.objs, fun _ _ => rfl, ?_⟩
  show g = g.report (g.msgMgr.sendMsgs [])
  have hnone : g.msgMgr.sendMsgs [] = g.msgMgr := by simp [MsgMgr.sendMsgs]
  rw [hnone]
  simp [GuiAppMgr.report]

theorem sendBatch_sends (a : App φ α σ) (batch : List (ToolsMessage φ α)) (answers : ℕ → Answer) :
    SendsBatch a.gui (a.sendBatch batch answers).gui
      ((List.range batch.length).map fun i => (answers i).request) := by
  refine ⟨putObjs a.gui.msgMgr.objs batch answers, fun p hp => ?_, rfl⟩
  exact putObjs_of_not_mem batch fun hmem => hp (mem_allPtrs_of_answer hmem)

theorem sendPending_sends (a : App φ α σ) (s : SendMgr φ α) (batch : List (ToolsMessage φ α))
    (answers : ℕ → Answer) :
    SendsBatch a.gui (a.sendPending s batch answers).gui
      ((List.range batch.length).map fun i => (answers i).request) := by
  have h := sendBatch_sends { a with m_sendMgr := s } batch answers
  unfold App.sendPending
  dsimp only
  split_ifs <;> exact h

theorem sendMessages_sends (a : App φ α σ) (msgs : List (ToolsMessage φ α)) (answers : ℕ → Answer) :
    SendsBatch a.gui (a.sendMessages msgs answers).gui
      ((List.range (a.startBatch msgs).length).map fun i => (answers i).request) := by
  unfold App.sendMessages startBatch
  split_ifs with hq
  · exact sendsBatch_nil a.gui
  · cases hinfo : a.installed with
    | none => exact sendsBatch_nil a.gui
    | some info =>
        cases a.gui.msgMgr.m_protocol with
        | none => exact sendsBatch_nil a.gui
        | some P =>
            have h := sendPending_sends { a with m_protocol := some (info, P) }
              (SendMgr.start P msgs) ((SendMgr.start P msgs).batches.flatMap Prod.snd) answers
            rw [hinfo] at h
            exact h

/-- An event of the scheduler. -/
theorem step_sends (a : App φ α σ) {ev : AppEvent} (hev : ∀ e, ev ≠ .gui e) :
    SendsBatch a.gui (a.step ev).gui (a.requests ev) := by
  cases ev with
  | gui e => exact absurd rfl (hev e)
  | sendStartClicked answers =>
      unfold requests App.step App.sendStartClicked batch
      dsimp only
      cases a.gui.sendList.currentItem with
      | none => exact sendsBatch_nil a.gui
      | some msg => exact sendMessages_sends a _ answers
  | sendStartAllClicked answers =>
      unfold requests App.step App.sendStartAllClicked batch
      dsimp only
      split_ifs
      · exact sendsBatch_nil a.gui
      · exact sendMessages_sends a _ answers
  | sendStopClicked => exact sendsBatch_nil a.gui
  | sendTimeout answers =>
      unfold requests App.step App.sendTimeout batch
      dsimp only
      cases hP : a.m_protocol with
      | none => exact sendsBatch_nil a.gui
      | some p => exact sendPending_sends a _ _ answers

end App

/-! ### The whole application -/

/-- The window with its activity and the scheduler with the states of sending; the tool bar of the
received list is told the state of receiving as it changes. -/
structure Desk (φ α σ : Type) where
  active : ActiveApp φ α σ
  sending : SendingApp φ α σ
  m_recvState : RecvState := .Idle

/-- The events of the scheduler and the buttons in front of it. -/
inductive SchedulerEvent where
  | startStopClicked (answers : ℕ → Answer)
  | startStopAllClicked (answers : ℕ → Answer)
  | sendTimeout (answers : ℕ → Answer)

def SchedulerEvent.event : SchedulerEvent → SendingApp.Event
  | startStopClicked answers => .startStopClicked answers
  | startStopAllClicked answers => .startStopAllClicked answers
  | sendTimeout answers => .sendTimeout answers

inductive DeskEvent (φ α σ : Type) where
  | activity (ev : ActivityEvent φ α σ)
  | scheduler (ev : SchedulerEvent)
  | recvStartStopClicked

namespace Desk
variable {φ α σ : Type}

abbrev gui (d : Desk φ α σ) : GuiAppMgr φ α σ := d.active.win.gui

/-- A just launched application. -/
def start (g : GuiAppMgr φ α σ) : Desk φ α σ :=
  { active := { win := { gui := g } }, sending := { app := { gui := g } } }

/-- There is no message without a protocol that makes it. -/
def blocked (d : Desk φ α σ) (ev : ActivityEvent φ α σ) : Bool :=
  d.sending.app.installed.isNone && !ev.ptrs.isEmpty

/-- The application of the scheduler after an event of the window. -/
def appStep (d : Desk φ α σ) : ActivityEvent φ α σ → App φ α σ
  | .window (.app ev) => d.sending.app.guiStep ev
  | ev => { d.sending.app with gui := (d.active.step ev).win.gui }

def activityStep (d : Desk φ α σ) (ev : ActivityEvent φ α σ) : Desk φ α σ :=
  if d.blocked ev then d
  else
    { d with
      active := d.active.step ev
      sending := { d.sending with app := d.appStep ev } }

/-- What the scheduler sends is reported to the window like all announcements of the manager. -/
def schedulerStep (d : Desk φ α σ) (ev : SchedulerEvent) : Option (Desk φ α σ) :=
  (d.sending.step ev.event).map fun s =>
    { d with
      active := d.active.setWin (d.active.win.report s.app.gui.msgMgr)
      sending := s }

/-- `RecvAreaToolBar::startStopClicked`; the state has no other value than the two. -/
def recvStartStopClicked (d : Desk φ α σ) : Desk φ α σ :=
  match d.m_recvState with
  | .Idle => { d.activityStep (.window (.app (.setRecvEnabled true))) with m_recvState := .Running }
  | .Running =>
      { d.activityStep (.window (.app (.setRecvEnabled false))) with m_recvState := .Idle }

/-- A step; `none` is a failed assertion of the scheduler. -/
def step (d : Desk φ α σ) : DeskEvent φ α σ → Option (Desk φ α σ)
  | .activity ev => some (d.activityStep ev)
  | .scheduler ev => d.schedulerStep ev
  | .recvStartStopClicked => some d.recvStartStopClicked

/-- The messages an event brings in. -/
def brings (d : Desk φ α σ) : DeskEvent φ α σ → List MsgPtr
  | .activity ev => if d.blocked ev then [] else ev.ptrs
  | .scheduler ev => SendReq.allPtrs (d.sending.app.requests (d.sending.appEvent ev.event))
  | .recvStartStopClicked => []

/-- The states reached, each with the messages brought in on the way, all of them new. -/
inductive Reach (g : GuiAppMgr φ α σ) : List MsgPtr → Desk φ α σ → Prop where
  | start : Reach g [] (start g)
  | step {earlier : List MsgPtr} {d d' : Desk φ α σ} (h : Reach g earlier d)
      (e : DeskEvent φ α σ) (hnd : (d.brings e).Nodup) (hnew : earlier.Disjoint (d.brings e))
      (hstep : d.step e = some d') : Reach g (earlier ++ d.brings e) d'

/-- What holds in every state: the two views agree, each is as it should be by itself, and an active
application has a protocol. -/
structure Inv (earlier : List MsgPtr) (d : Desk φ α σ) : Prop where
  gui : d.sending.app.gui = d.active.win.gui
  watched : Window.Watched earlier d.active.win
  settled : d.sending.Settled
  installed : d.sending.app.installed.isSome = d.gui.msgMgr.m_protocol.isSome
  active : d.active.activityState = .Active → d.gui.msgMgr.m_protocol.isSome = true

/-! ### Events of the window -/

theorem inv_start {g : GuiAppMgr φ α σ} (hg : g.Started) (hcount : g.m_sendListCount = 0)
    (hprotocol : g.msgMgr.m_protocol = none) : Inv [] (start g) where
  gui := rfl
  watched := Window.watched_start hg hcount
  settled := ⟨fun o => by cases o <;> rfl, fun _ => rfl, fun _ => rfl⟩
  installed := by
    show (none : Option PluginInfoPtr).isSome = g.msgMgr.m_protocol.isSome
    rw [hprotocol]
    rfl
  active := nofun

/-- An event that is not blocked does to the manager what it does without a scheduler. -/
theorem guiStep_gui {a : App φ α σ} {ev : GuiEvent}
    (h : (a.installed.isNone && !ev.ptrs.isEmpty) = false) :
    (a.guiStep ev).gui = a.gui.step ev := by
  cases ev with
  | applyNewPlugins plugins => rfl
  | _ => exact congrArg App.gui (if_neg (by rw [h]; exact Bool.false_ne_true))

theorem appStep_gui {d : Desk φ α σ} (hgui : d.sending.app.gui = d.gui) {ev : ActivityEvent φ α σ}
    (hev : d.blocked ev = false) : (d.appStep ev).gui = (d.active.step ev).win.gui := by
  cases ev with
  | configure load => rfl
  | window ev =>
      cases ev with
      | sendMsgDoubleClicked row => rfl
      | app ev =>
          have happ := guiStep_gui (a := d.sending.app) hev
          rw [ActiveApp.step_win]
          show (d.sending.app.guiStep ev).gui = (d.active.win.appStep ev).gui
          rw [happ, Window.appStep_gui, hgui]

/-- The scheduler and the states of sending are left alone. -/
theorem appStep_scheduler (d : Desk φ α σ) (ev : ActivityEvent φ α σ) :
    (d.appStep ev).m_sendMgr = d.sending.app.m_sendMgr ∧
      (d.appStep ev).m_protocol = d.sending.app.m_protocol := by
  cases ev with
  | configure load => exact ⟨rfl, rfl⟩
  | window ev =>
      cases ev with
      | sendMsgDoubleClicked row => exact ⟨rfl, rfl⟩
      | app ev => exact SendingApp.guiStep_scheduler d.sending.app ev

/-- A call of `applyNewPlugins` leaves a protocol exactly if it leaves one installed, and the
application active only with one. -/
theorem applied_protocol {d : Desk φ α σ} {earlier : List MsgPtr} (h : d.Inv earlier)
    (plugins : List PluginInfoPtr) :
    (d.sending.app.outcome plugins).isSome =
        (d.active.applyNewPlugins plugins).1.win.gui.msgMgr.m_protocol.isSome ∧
      ((d.active.applyNewPlugins plugins).1.activityState = .Active →
        (d.active.applyNewPlugins plugins).1.win.gui.msgMgr.m_protocol.isSome = true) := by
  have hgui : (d.active.applyNewPlugins plugins).1.win.gui = d.gui.applyNewPlugins plugins := by
    rw [ActiveApp.applyNewPlugins_win, Window.applyNewPlugins_gui]
  have hbefore := d.gui.beforeUnload_spec plugins
  have hset := App.applyNewPlugins_setUp d.gui plugins
  unfold App.outcome
  rw [h.gui, hgui]
  cases hs : d.gui.pluginMgr.setsUp plugins with
  | true =>
      have hfound : (d.gui.pluginMgr.protocolPlugin plugins).isSome = true := by
        unfold ToolsPluginMgr.setsUp at hs
        exact (Bool.and_eq_true_iff.mp hs).2
      have hprotocol := (hset.done (by rw [hbefore.pluginMgr]; exact hs)).2
      rw [hprotocol, hbefore.pluginMgr, ToolsPluginMgr.protocolPlugin_bind, if_pos rfl, hfound]
      exact ⟨rfl, fun _ => rfl⟩
  | false =>
      obtain ⟨-, hstate, -, hprotocol⟩ := ActiveApp.failed_spec (s := d.active) hs
      rw [hgui] at hprotocol
      rw [hstate, hprotocol, if_neg Bool.false_ne_true]
      cases hhas : d.gui.pluginMgr.hasAppliedPlugins with
      | true =>
          refine ⟨rfl, fun hactive => ?_⟩
          simp only [if_true] at hactive
          split_ifs at hactive
      | false =>
          have hreload : d.gui.pluginMgr.needsReload plugins = false := by
            rw [ToolsPluginMgr.needsReload, ToolsPluginMgr.hasAppliedPlugins_eq_false.mp hhas]
            rfl
          rw [hreload]
          simp only [Bool.false_eq_true, if_false]
          exact ⟨h.installed, h.active⟩

theorem brings_activity (d : Desk φ α σ) (ev : ActivityEvent φ α σ) :
    d.brings (.activity ev) = if d.blocked ev then [] else ev.ptrs := rfl

theorem Inv.activity {earlier : List MsgPtr} {d : Desk φ α σ} (h : d.Inv earlier)
    (ev : ActivityEvent φ α σ) (hnd : (d.brings (.activity ev)).Nodup)
    (hnew : earlier.Disjoint (d.brings (.activity ev))) :
    (d.activityStep ev).Inv (earlier ++ d.brings (.activity ev)) := by
  unfold activityStep
  rw [brings_activity] at hnd hnew ⊢
  split_ifs at hnd hnew ⊢ with hblocked
  · rw [List.append_nil]
    exact h
  · have hfree : d.blocked ev = false := by simpa using hblocked
    obtain ⟨hqueue, hscheduler⟩ := appStep_scheduler d ev
    have hprotocol : (d.appStep ev).installed.isSome =
          (d.active.step ev).win.gui.msgMgr.m_protocol.isSome ∧
        ((d.active.step ev).activityState = .Active →
          (d.active.step ev).win.gui.msgMgr.m_protocol.isSome = true) := by
      cases ev with
      | configure load => exact ⟨h.installed, h.active⟩
      | window ev =>
          by_cases hev : ∃ plugins, ev = .app (.applyNewPlugins plugins)
          · obtain ⟨plugins, rfl⟩ := hev
            exact applied_protocol h plugins
          · obtain ⟨hstep, -, hsame⟩ :=
              ActiveApp.step_window (s := d.active) fun plugins e => hev ⟨plugins, e⟩
            have hinstalled : (d.appStep (.window ev)).installed = d.sending.app.installed := by
              cases ev with
              | sendMsgDoubleClicked row => rfl
              | app ev =>
                  show (d.sending.app.guiStep ev).installed = _
                  cases ev
                  case applyNewPlugins plugins => exact absurd ⟨plugins, rfl⟩ hev
                  all_goals
                    unfold App.guiStep
                    dsimp only
                    split_ifs <;> rfl
            rw [hinstalled, hstep, ActiveApp.setWin_win, hsame,
              ActiveApp.setWin_activityState]
            exact ⟨h.installed, h.active⟩
    exact
      { gui := appStep_gui h.gui hfree
        watched := ActiveApp.watched_step h.watched ⟨hnd, hnew⟩
        settled :=
          ⟨h.settled.agree, fun hidle => (congrArg _ hqueue).trans (h.settled.queue hidle),
            fun hidle => hscheduler.trans (h.settled.protocol hidle)⟩
        installed := hprotocol.1
        active := hprotocol.2 }

/-! ### Events of the scheduler -/

/-- New objects behind pointers nobody has. -/
theorem watched_withObjs {earlier new : List MsgPtr} {w : Window φ α σ}
    (h : Window.Watched earlier w) (hnew : earlier.Disjoint new) {objs : MsgPtr → ToolsMessage φ α}
    (hobjs : ∀ p ∉ new, objs p = w.gui.msgMgr.objs p) :
    Window.Watched earlier (w.setGui (App.withObjs w.gui objs)) := by
  have hnum : ∀ p ∈ w.gui.msgMgr.m_allMsgs,
      (App.withObjs w.gui objs).msgMgr.seqNumber p = w.gui.msgMgr.seqNumber p := by
    intro p hp
    have hsame := hobjs p fun hmem => hnew (h.inv.known.mem p hp) hmem
    show (objs p).num.getD 0 = _
    rw [hsame]
    rfl
  have hknown : MsgMgr.Known earlier (App.withObjs w.gui objs).msgMgr := by
    refine ⟨h.inv.known.mem, fun p hp => ?_, ?_⟩
    · rw [hnum p hp]
      exact h.inv.known.lt p hp
    · show (w.gui.msgMgr.m_allMsgs.map (App.withObjs w.gui objs).msgMgr.seqNumber).Nodup
      rw [List.map_congr_left hnum]
      exact h.inv.known.nodup
  exact
    { inv := ⟨hknown, h.inv.send, h.inv.selected.congr rfl rfl rfl rfl, h.inv.nodup, h.inv.sub,
        h.inv.count⟩
      shown := h.shown.congr rfl rfl rfl rfl
      selected := ⟨h.selected.nodup, h.selected.item.congr rfl rfl rfl⟩
      bars := h.bars.setGui rfl rfl rfl (fun _ => rfl) fun _ => rfl }

theorem report_msgMgr (g : GuiAppMgr φ α σ) (mgr : MsgMgr φ α σ) :
    (g.report mgr).msgMgr = mgr := by
  have hfold : ∀ (l : List (MsgPtr × ToolsMessage φ α)) (g : GuiAppMgr φ α σ),
      (l.foldl GuiAppMgr.msgAdded g).msgMgr = g.msgMgr := by
    intro l
    induction l with
    | nil => exact fun g => rfl
    | cons m l ih =>
        intro g
        rw [List.foldl_cons, ih]
        unfold GuiAppMgr.msgAdded
        dsimp only
        split_ifs <;> rfl
  exact hfold _ _

/-- The window follows what the scheduler sends. -/
theorem watched_sends {earlier : List MsgPtr} {w : Window φ α σ} (h : Window.Watched earlier w)
    {g' : GuiAppMgr φ α σ} {reqs : List SendReq} (hsends : App.SendsBatch w.gui g' reqs)
    (hnd : (SendReq.allPtrs reqs).Nodup) (hnew : earlier.Disjoint (SendReq.allPtrs reqs)) :
    Window.Watched (earlier ++ SendReq.allPtrs reqs) (w.report g'.msgMgr) ∧
      (w.report g'.msgMgr).gui = g' ∧ g'.msgMgr.m_protocol = w.gui.msgMgr.m_protocol := by
  obtain ⟨objs, hobjs, rfl⟩ := hsends
  have hready := watched_withObjs h hnew hobjs
  have hstep := hready.step (.app (.sendMsgs reqs)) ⟨hnd, hnew⟩
  have hmgr : ((App.withObjs w.gui objs).step (.sendMsgs reqs)).msgMgr =
      (App.withObjs w.gui objs).msgMgr.sendMsgs reqs := report_msgMgr _ _
  have hwin : (w.setGui (App.withObjs w.gui objs)).step (.app (.sendMsgs reqs)) =
      w.report ((App.withObjs w.gui objs).step (.sendMsgs reqs)).msgMgr := by
    rw [hmgr]
    rfl
  refine ⟨?_, ?_, ?_⟩
  · rw [← hwin]
    exact hstep
  · rw [← hwin]
    exact Window.appStep_gui _ _
  · exact (GuiAppMgr.step_takes (App.withObjs w.gui objs) (.sendMsgs reqs) nofun).protocol

theorem appEvent_ne_gui (a : SendingApp φ α σ) (ev : SchedulerEvent) (e : GuiEvent) :
    a.appEvent ev.event ≠ .gui e := by
  cases ev with
  | startStopClicked answers =>
      simp only [SchedulerEvent.event, SendingApp.appEvent]
      split_ifs <;> exact nofun
  | startStopAllClicked answers =>
      simp only [SchedulerEvent.event, SendingApp.appEvent]
      split_ifs <;> exact nofun
  | sendTimeout answers => exact nofun

theorem sendPending_installed (a : App φ α σ) (s : SendMgr φ α) (batch : List (ToolsMessage φ α))
    (answers : ℕ → Answer) : (a.sendPending s batch answers).installed = a.installed := by
  unfold App.sendPending
  dsimp only
  split_ifs <;> rfl

theorem sendMessages_installed (a : App φ α σ) (msgs : List (ToolsMessage φ α))
    (answers : ℕ → Answer) : (a.sendMessages msgs answers).installed = a.installed := by
  unfold App.sendMessages
  split_ifs
  · rfl
  · split
    · exact sendPending_installed _ _ _ _
    · rfl

/-- The scheduler leaves the plugins alone. -/
theorem step_installed (a : App φ α σ) {ev : AppEvent} (hev : ∀ e, ev ≠ .gui e) :
    (a.step ev).installed = a.installed := by
  cases ev with
  | gui e => exact absurd rfl (hev e)
  | sendStartClicked answers =>
      unfold App.step App.sendStartClicked
      dsimp only
      split
      · exact sendMessages_installed _ _ _
      · rfl
  | sendStartAllClicked answers =>
      unfold App.step App.sendStartAllClicked
      dsimp only
      split_ifs
      · rfl
      · exact sendMessages_installed _ _ _
  | sendStopClicked => rfl
  | sendTimeout answers =>
      unfold App.step App.sendTimeout
      dsimp only
      split
      · rfl
      · exact sendPending_installed _ _ _ _

theorem Inv.scheduler {earlier : List MsgPtr} {d d' : Desk φ α σ} (h : d.Inv earlier)
    (ev : SchedulerEvent) (hnd : (d.brings (.scheduler ev)).Nodup)
    (hnew : earlier.Disjoint (d.brings (.scheduler ev))) (hstep : d.schedulerStep ev = some d') :
    d'.Inv (earlier ++ d.brings (.scheduler ev)) := by
  obtain ⟨s, hs, rfl⟩ := Option.map_eq_some_iff.mp hstep
  have happ := SendingApp.step_app hs
  have hne := appEvent_ne_gui d.sending ev
  have hsends := App.step_sends d.sending.app hne
  rw [h.gui, ← happ] at hsends
  obtain ⟨hwatched, hgui, hprotocol⟩ := watched_sends h.watched hsends hnd hnew
  refine ⟨hgui.symm, hwatched, h.settled.step hs, ?_, ?_⟩
  · show s.app.installed.isSome =
      (d.active.win.report s.app.gui.msgMgr).gui.msgMgr.m_protocol.isSome
    rw [hgui, hprotocol, happ, step_installed _ hne]
    exact h.installed
  · intro hactive
    show (d.active.win.report s.app.gui.msgMgr).gui.msgMgr.m_protocol.isSome = true
    rw [hgui, hprotocol]
    exact h.active hactive

theorem Inv.recvStartStopClicked {earlier : List MsgPtr} {d : Desk φ α σ} (h : d.Inv earlier) :
    d.recvStartStopClicked.Inv earlier := by
  have hset : ∀ enabled,
      (d.activityStep (.window (.app (.setRecvEnabled enabled)))).Inv earlier := by
    intro enabled
    have hnil : d.brings (.activity (.window (.app (.setRecvEnabled enabled)))) = [] := by
      rw [brings_activity]
      split_ifs <;> rfl
    have hstep := h.activity (.window (.app (.setRecvEnabled enabled)))
      (by rw [hnil]; exact List.nodup_nil) (by rw [hnil]; exact List.disjoint_nil_right _)
    rwa [hnil, List.append_nil] at hstep
  unfold Desk.recvStartStopClicked
  split
  · exact ⟨(hset true).gui, (hset true).watched, (hset true).settled, (hset true).installed,
      (hset true).active⟩
  · exact ⟨(hset false).gui, (hset false).watched, (hset false).settled, (hset false).installed,
      (hset false).active⟩

/-- **The two views agree in every state reached**, each being what it is by itself. -/
theorem Reach.inv {g : GuiAppMgr φ α σ} (hg : g.Started) (hcount : g.m_sendListCount = 0)
    (hprotocol : g.msgMgr.m_protocol = none) {earlier : List MsgPtr} {d : Desk φ α σ}
    (h : Reach g earlier d) : d.Inv earlier := by
  induction h with
  | start => exact inv_start hg hcount hprotocol
  | step _ e hnd hnew hstep ih =>
      cases e with
      | activity ev =>
          cases hstep
          exact ih.activity ev hnd hnew
      | scheduler ev => exact ih.scheduler ev hnd hnew hstep
      | recvStartStopClicked =>
          cases hstep
          rw [brings, List.append_nil]
          exact ih.recvStartStopClicked

/-! ### The buttons and their slots -/

/-- What the tool bar of the received list has been told; its button that shows sent messages is
checked as they are shown. -/
def recvBar (d : Desk φ α σ) : RecvAreaToolBar where
  bar := d.active.win.recvBar
  m_state := d.m_recvState
  m_sendState := d.sending.recvAreaToolBar
  m_activeState := d.active.activityState
  showSentChecked := d.gui.recvListShowsSent

def sendBar (d : Desk φ α σ) : SendAreaToolBar where
  bar := d.active.win.sendBar
  m_state := d.sending.sendAreaToolBar
  m_activeState := d.active.activityState

end Desk

section
variable {φ α σ : Type}

/-- What `deleteMsg` asserts: a stored message has the number. -/
def MsgMgr.DeleteAsserted (s : MsgMgr φ α σ) (msg : MsgPtr) : Prop :=
  ∃ p ∈ s.m_allMsgs, s.seqNumber p = s.seqNumber msg

namespace Desk

/-- No assertion has failed after an operation of the window. -/
def Asserts (d : Desk φ α σ) (op : Window φ α σ → Window φ α σ) : Prop :=
  (op d.active.win).asserted = true

/-- A message that is new can be added to the send list, and is selected there. -/
def AddAsserted (d : Desk φ α σ) : Prop :=
  ∀ msg, d.gui.m_clickedMsg ≠ some msg → d.Asserts (·.sendAddNewMessage msg)

end Desk

/-- What the slots behind a button of the received list lead to: their own assertions, those of the
store and the window, and the protocol they use. -/
def RecvButton.Asserted (d : Desk φ α σ) : RecvButton → Prop
  | .startStop => d.m_recvState = .Idle ∨ d.m_recvState = .Running
  | .load => d.gui.msgMgr.m_protocol ≠ none ∧ d.Asserts (·.dropAllMsgs)
  | .save => True
  | .comment => d.gui.m_selType = .recv ∧ d.gui.m_clickedMsg ≠ none
  | .dup =>
      d.gui.m_selType = .recv ∧ d.gui.m_clickedMsg ≠ none ∧ d.gui.msgMgr.m_protocol ≠ none ∧
        d.AddAsserted
  | .delete =>
      0 < d.gui.m_recvListCount ∧ d.gui.m_selType = .recv ∧
        (∃ msg, d.gui.m_clickedMsg = some msg ∧ d.gui.msgMgr.DeleteAsserted msg) ∧
        d.Asserts (·.recvDeleteClicked)
  | .clear => 0 < d.gui.m_recvListCount ∧ d.Asserts (·.recvClearClicked)
  | .editFilter =>
      d.gui.msgMgr.m_protocol ≠ none ∧
        ∀ filteredMessages, d.Asserts (·.setFilteredMessages filteredMessages)

/-- The same for the send list, whose moves need a row to move from; starting needs a message to
send, an idle scheduler and a protocol. -/
def SendButton.Asserted (d : Desk φ α σ) : SendButton → Prop
  | .startStop => ∀ answers, d.sending.startStopClicked answers ≠ none
  | .startStopAll => ∀ answers, d.sending.startStopAllClicked answers ≠ none
  | .load =>
      d.gui.msgMgr.m_protocol ≠ none ∧
        ∀ clear msgs, d.Asserts (·.sendLoadMsgsFromFile clear msgs)
  | .save => True
  | .add => d.gui.msgMgr.m_protocol ≠ none ∧ d.AddAsserted
  | .addRaw => d.gui.msgMgr.m_protocol ≠ none ∧ d.AddAsserted
  | .edit =>
      d.gui.m_clickedMsg ≠ none ∧ d.gui.msgMgr.m_protocol ≠ none ∧
        -- what the dialog ends with updates the current item
        0 < d.gui.m_sendListCount ∧ d.gui.sendList.currentItem ≠ none
  | .comment => d.gui.m_selType = .send ∧ d.gui.m_clickedMsg ≠ none
  | .dup =>
      d.gui.m_selType = .send ∧ d.gui.m_clickedMsg ≠ none ∧ d.gui.msgMgr.m_protocol ≠ none ∧
        d.AddAsserted
  | .delete =>
      0 < d.gui.m_sendListCount ∧ d.gui.m_selType = .send ∧ d.gui.m_clickedMsg ≠ none ∧
        d.Asserts (·.sendDeleteClicked)
  | .clear => 0 < d.gui.m_sendListCount ∧ d.Asserts (·.sendClearClicked)
  | .top =>
      (∃ row, d.gui.sendList.currentRow = some row ∧ 0 < row) ∧ d.Asserts (·.sendMoveClicked .top)
  | .up =>
      (∃ row, d.gui.sendList.currentRow = some row ∧ 0 < row) ∧ d.Asserts (·.sendMoveClicked .up)
  | .down =>
      (∃ row, d.gui.sendList.currentRow = some row ∧ row < d.gui.sendList.items.length - 1) ∧
        d.Asserts (·.sendMoveClicked .down)
  | .bottom =>
      (∃ row, d.gui.sendList.currentRow = some row ∧ row < d.gui.sendList.items.length - 1) ∧
        d.Asserts (·.sendMoveClicked .bottom)

/-- The selected message is the one of the current item of a list, in which it is selected. -/
structure Desk.SelectedIn (d : Desk φ α σ) (selType : SelectionType) (list : MsgListWidget) :
    Prop where
  type : d.gui.m_selType = selType
  clicked : d.gui.m_clickedMsg ≠ none
  item : list.currentItem = d.gui.m_clickedMsg

end

namespace Desk
variable {φ α σ : Type}

theorem stop_isSome (a : SendingApp φ α σ) : a.sendStopClicked ≠ none := by
  obtain ⟨a', ha', -⟩ := SendingApp.sendStopClicked_settled a
  rw [ha']
  exact Option.some_ne_none a'

section
variable {earlier : List MsgPtr} {d : Desk φ α σ} (h : d.Inv earlier)
include h

theorem Inv.protocol (hactive : d.active.activityState = .Active) :
    d.gui.msgMgr.m_protocol ≠ none :=
  Option.isSome_iff_ne_none.mp (h.active hactive)

/-- A row the tool bar of the received list shows is the one of a selected message. -/
theorem Inv.recvSelected {row : ℕ} (hrow : d.active.win.recvBar.m_selectedIdx = some row) :
    0 < d.gui.m_recvListCount ∧ d.SelectedIn .recv d.gui.recvList := by
  have hcons := h.watched.consistent
  obtain ⟨htype, -, hlt⟩ := hcons.recvBar row hrow
  obtain ⟨p, hclicked, hcurrent⟩ := hcons.recv htype
  rw [h.watched.bars.recvTotal] at hlt
  refine ⟨Nat.zero_lt_of_lt hlt, htype, ?_, hcurrent.trans hclicked.symm⟩
  exact Option.ne_none_iff_exists'.mpr ⟨p, hclicked⟩

theorem Inv.sendSelected {row : ℕ} (hrow : d.active.win.sendBar.m_selectedIdx = some row) :
    0 < d.gui.m_sendListCount ∧ d.SelectedIn .send d.gui.sendList ∧
      d.gui.sendList.currentRow = some row := by
  have hcons := h.watched.consistent
  obtain ⟨htype, hcurrentRow, hlt⟩ := hcons.sendBar row hrow
  obtain ⟨p, hclicked, hcurrent⟩ := hcons.send htype
  rw [h.watched.bars.sendTotal] at hlt
  refine ⟨Nat.zero_lt_of_lt hlt, ⟨htype, ?_, hcurrent.trans hclicked.symm⟩, hcurrentRow⟩
  exact Option.ne_none_iff_exists'.mpr ⟨p, hclicked⟩

/-- The message that is deleted is in the store. -/
theorem Inv.deleteAsserted {msg : MsgPtr} (htype : d.gui.m_selType = .recv)
    (hclicked : d.gui.m_clickedMsg = some msg) : d.gui.msgMgr.DeleteAsserted msg := by
  obtain ⟨-, hstored, -, -⟩ := h.watched.consistent.recvDelete msg htype hclicked
  exact ⟨msg, hstored, rfl⟩

theorem Inv.addAsserted : d.AddAsserted := fun _ hnew =>
  (Window.sendAddNewMessage_bars h.watched.bars h.watched.shown hnew).asserted

/-- A message selected in a list has a row its tool bar shows. -/
theorem Inv.recvIdx_isSome (htype : d.gui.m_selType = .recv) :
    d.active.win.recvBar.m_selectedIdx.isSome = true := by
  obtain ⟨p, -, hcurrent⟩ := h.watched.consistent.recv htype
  rw [h.watched.bars.recvIdx, if_pos htype]
  unfold MsgListWidget.currentItem at hcurrent
  obtain ⟨row, hrow, -⟩ := Option.bind_eq_some_iff.mp hcurrent
  rw [hrow]
  rfl

theorem Inv.sendIdx_isSome (htype : d.gui.m_selType = .send) :
    d.active.win.sendBar.m_selectedIdx.isSome = true := by
  obtain ⟨p, -, hcurrent⟩ := h.watched.consistent.send htype
  rw [h.watched.bars.sendIdx, if_pos htype]
  unfold MsgListWidget.currentItem at hcurrent
  obtain ⟨row, hrow, -⟩ := Option.bind_eq_some_iff.mp hcurrent
  rw [hrow]
  rfl

/-- The scheduler can be started while nothing is being sent. -/
theorem Inv.start_isSome (hidle : d.sending.m_sendState = .Idle)
    (hactive : d.active.activityState = .Active) (state : SendState) (hne : state ≠ .Idle)
    {msgs : List (ToolsMessage φ α)} (hmsgs : d.sending.msgsToSend state = some msgs)
    (answers : ℕ → Answer) :
    SendingApp.emitSendStateUpdate (SendingApp.sendMessages answers)
      { d.sending with m_sendState := state } ≠ none := by
  obtain ⟨a, hagree, hrest, heq⟩ := SendingApp.emitSendStateUpdate_sending
    (SendingApp.sendMessages answers) (a := { d.sending with m_sendState := state }) hne
  obtain ⟨happ, hstate⟩ := Prod.mk.inj hrest
  have hready : a.app.m_sendMgr.m_msgsToSend = [] ∧ a.HasProtocol := by
    unfold SendingApp.HasProtocol
    rw [happ]
    refine ⟨h.settled.queue hidle, ?_, ?_⟩
    · exact Option.isSome_iff_ne_none.mp (h.installed.trans (h.active hactive))
    · show d.sending.app.gui.msgMgr.m_protocol ≠ none
      rw [h.gui]
      exact h.protocol hactive
  have hmsgs' : SendingApp.msgsToSend { d.sending with m_sendState := state } state = some msgs :=
    hmsgs
  rw [heq, hmsgs', Option.bind_some]
  obtain ⟨-, -, P, app, batch, hsend⟩ | ⟨hnot, -⟩ := SendingApp.sendMessages_eq answers msgs a
  · obtain ⟨a', ha', -, -⟩ := SendingApp.sendPending_settled (a := { a with app := app }) hagree
      (hstate ▸ hne) (SendMgr.start P msgs) batch answers
    rw [hsend, ha']
    exact Option.some_ne_none a'
  · exact absurd hready hnot

/-- The states of the tool bars are the one of `GuiAppMgr`. -/
theorem Inv.sendBar_state : d.sending.sendAreaToolBar = d.sending.m_sendState :=
  h.settled.agree .sendAreaToolBar

/-- The buttons of the received list about the selected message. -/
theorem Inv.recvSelected_of_enabled
    (hb : (decide (d.active.activityState = .Active) && d.recvBar.bar.msgSelected) = true) :
    d.gui.msgMgr.m_protocol ≠ none ∧ 0 < d.gui.m_recvListCount ∧
      d.SelectedIn .recv d.gui.recvList := by
  obtain ⟨hactive, hsel⟩ := Bool.and_eq_true_iff.mp hb
  obtain ⟨row, hrow⟩ := Option.isSome_iff_exists.mp hsel
  exact ⟨h.protocol (of_decide_eq_true hactive), h.recvSelected hrow⟩

/-- **No enabled button of the received list is unsafe.** -/
theorem Inv.recv_safe (b : RecvButton) (hb : d.recvBar.enabled b = true) : b.Asserted d := by
  have hinv := h.watched.inv
  have hmarked := GuiAppMgr.marked_of_selected hinv.selected
  have hbars := h.watched.bars
  cases b with
  | startStop =>
      cases hs : d.m_recvState with
      | Idle => exact .inl hs
      | Running => exact .inr hs
  | load =>
      simp only [RecvAreaToolBar.enabled] at hb
      split_ifs at hb with hoff
      push Not at hoff
      exact ⟨h.protocol hoff.1, (Window.dropAllMsgs_bars hbars hmarked).asserted⟩
  | save => exact trivial
  | comment =>
      obtain ⟨-, -, hsel⟩ := h.recvSelected_of_enabled hb
      exact ⟨hsel.type, hsel.clicked⟩
  | dup =>
      obtain ⟨hprotocol, -, hsel⟩ := h.recvSelected_of_enabled hb
      exact ⟨hsel.type, hsel.clicked, hprotocol, h.addAsserted⟩
  | delete =>
      obtain ⟨-, hpos, hsel⟩ := h.recvSelected_of_enabled hb
      obtain ⟨msg, hmsg⟩ := Option.ne_none_iff_exists'.mp hsel.clicked
      exact ⟨hpos, hsel.type, ⟨msg, hmsg, h.deleteAsserted hsel.type hmsg⟩,
        (Window.recvDeleteClicked_bars hinv hbars).asserted⟩
  | clear =>
      obtain ⟨-, hne⟩ := Bool.and_eq_true_iff.mp hb
      have hpos : 0 < d.gui.m_recvListCount :=
        hbars.recvTotal ▸ AreaToolBar.listEmpty_eq_false.mp hne
      exact ⟨hpos, (Window.recvClearClicked_bars hbars hmarked).asserted⟩
  | editFilter =>
      exact ⟨h.protocol (of_decide_eq_true hb), fun filteredMessages =>
        (Window.setFilteredMessages_bars hinv hbars filteredMessages).asserted⟩

theorem Inv.recv_selected {b : RecvButton} (hmem : b ∈ RecvButton.ofSelected)
    (hb : d.recvBar.enabled b = true) : d.SelectedIn .recv d.gui.recvList := by
  simp only [RecvButton.ofSelected, List.mem_cons, List.not_mem_nil, or_false] at hmem
  rcases hmem with rfl | rfl | rfl
  all_goals exact (h.recvSelected_of_enabled hb).2.2

/-- While the buttons of the send list are enabled, nothing is being sent. -/
theorem Inv.idle_iff : d.sendBar.idle = true ↔
    d.active.activityState = .Active ∧ d.sending.m_sendState = .Idle := by
  rw [SendAreaToolBar.idle_iff, ← h.sendBar_state]
  rfl

/-- The buttons of the send list about the selected message. -/
theorem Inv.sendSelected_of_enabled (hb : (d.sendBar.idle && d.sendBar.bar.msgSelected) = true) :
    d.gui.msgMgr.m_protocol ≠ none ∧ 0 < d.gui.m_sendListCount ∧
      d.SelectedIn .send d.gui.sendList := by
  obtain ⟨hidle, hselected⟩ := Bool.and_eq_true_iff.mp hb
  obtain ⟨row, hrow⟩ := Option.isSome_iff_exists.mp hselected
  obtain ⟨hpos, hsel, -⟩ := h.sendSelected hrow
  exact ⟨h.protocol (h.idle_iff.mp hidle).1, hpos, hsel⟩

theorem Inv.up_safe (hb : d.sendBar.upEnabled = true) :
    d.SelectedIn .send d.gui.sendList ∧
      ∃ row, d.gui.sendList.currentRow = some row ∧ 0 < row := by
  obtain ⟨-, hany⟩ := Bool.and_eq_true_iff.mp hb
  obtain ⟨row, hrow, hpos⟩ := (Option.any_eq_true _ _).mp hany
  obtain ⟨-, hsel, hcurrent⟩ := h.sendSelected hrow
  exact ⟨hsel, row, hcurrent, of_decide_eq_true hpos⟩

theorem Inv.down_safe (hb : d.sendBar.downEnabled = true) :
    d.SelectedIn .send d.gui.sendList ∧
      ∃ row, d.gui.sendList.currentRow = some row ∧ row < d.gui.sendList.items.length - 1 := by
  obtain ⟨-, hany⟩ := Bool.and_eq_true_iff.mp hb
  obtain ⟨row, hrow, hlt⟩ := (Option.any_eq_true _ _).mp hany
  obtain ⟨-, hsel, hcurrent⟩ := h.sendSelected hrow
  have htotal := h.watched.bars.sendTotal.trans h.watched.shown.count
  exact ⟨hsel, row, hcurrent, htotal ▸ of_decide_eq_true hlt⟩

theorem Inv.moveAsserted (dest : GuiAppMgr.MoveTo) : d.Asserts (·.sendMoveClicked dest) :=
  (Window.sendMoveClicked_bars h.watched.inv h.watched.bars h.watched.shown h.watched.selected
    dest).asserted

/-- Starting and stopping, behind the two buttons whose meaning depends on the state. -/
theorem Inv.startStop_safe (hb : d.sendBar.enabled .startStop = true) (answers : ℕ → Answer) :
    d.sending.startStopClicked answers ≠ none := by
  unfold SendingApp.startStopClicked
  rcases SendAreaToolBar.startStop_enabled hb with hsingle | ⟨hidle, hactive, hsel⟩
  · have hsingle' : d.sending.sendAreaToolBar = .SendingSingle := hsingle
    rw [hsingle']
    exact stop_isSome d.sending
  · have hidle' : d.sending.sendAreaToolBar = .Idle := hidle
    obtain ⟨row, hrow⟩ := Option.isSome_iff_exists.mp hsel
    obtain ⟨-, hselected, -⟩ := h.sendSelected hrow
    obtain ⟨msg, hclicked⟩ := Option.ne_none_iff_exists'.mp hselected.clicked
    have hmsg := hselected.item.trans hclicked
    have hmsgs : d.sending.msgsToSend .SendingSingle =
        some [d.sending.app.gui.msgMgr.objs msg] := by
      rw [SendingApp.msgsToSend, h.gui, hmsg, Option.map_some]
    rw [hidle']
    exact h.start_isSome (h.sendBar_state.symm.trans hidle') hactive .SendingSingle (by simp) hmsgs
      answers

theorem Inv.startStopAll_safe (hb : d.sendBar.enabled .startStopAll = true)
    (answers : ℕ → Answer) : d.sending.startStopAllClicked answers ≠ none := by
  unfold SendingApp.startStopAllClicked
  rcases SendAreaToolBar.startStopAll_enabled hb with hall | ⟨hidle, hactive, hpos⟩
  · have hall' : d.sending.sendAreaToolBar = .SendingAll := hall
    rw [hall']
    exact stop_isSome d.sending
  · have hidle' : d.sending.sendAreaToolBar = .Idle := hidle
    have hitems : 0 < d.gui.sendList.items.length :=
      (h.watched.bars.sendTotal.trans h.watched.shown.count) ▸ hpos
    have hmsgs : d.sending.msgsToSend .SendingAll =
        some (d.sending.app.gui.sendList.items.map d.sending.app.gui.msgMgr.objs) := by
      rw [SendingApp.msgsToSend, h.gui, if_neg]
      intro hempty
      exact absurd (List.isEmpty_iff.mp hempty) (List.ne_nil_of_length_pos hitems)
    rw [hidle']
    exact h.start_isSome (h.sendBar_state.symm.trans hidle') hactive .SendingAll (by simp) hmsgs
      answers

/-- **No enabled button of the send list is unsafe.** -/
theorem Inv.send_safe (b : SendButton) (hb : d.sendBar.enabled b = true) : b.Asserted d := by
  have hbars := h.watched.bars
  have hshown := h.watched.shown
  cases b with
  | startStop => exact h.startStop_safe hb
  | startStopAll => exact h.startStopAll_safe hb
  | load =>
      exact ⟨h.protocol (h.idle_iff.mp hb).1, fun clear msgs =>
        (Window.sendLoadMsgsFromFile_bars hbars hshown clear msgs).asserted⟩
  | save => exact trivial
  | add => exact ⟨h.protocol (h.idle_iff.mp hb).1, h.addAsserted⟩
  | addRaw => exact ⟨h.protocol (h.idle_iff.mp hb).1, h.addAsserted⟩
  | edit =>
      obtain ⟨hprotocol, hpos, hsel⟩ := h.sendSelected_of_enabled hb
      exact ⟨hsel.clicked, hprotocol, hpos, hsel.item ▸ hsel.clicked⟩
  | comment =>
      obtain ⟨-, -, hsel⟩ := h.sendSelected_of_enabled hb
      exact ⟨hsel.type, hsel.clicked⟩
  | dup =>
      obtain ⟨hprotocol, -, hsel⟩ := h.sendSelected_of_enabled hb
      exact ⟨hsel.type, hsel.clicked, hprotocol, h.addAsserted⟩
  | delete =>
      obtain ⟨-, hpos, hsel⟩ := h.sendSelected_of_enabled hb
      exact ⟨hpos, hsel.type, hsel.clicked, (Window.sendDeleteClicked_bars hbars hshown).asserted⟩
  | clear =>
      obtain ⟨-, hne⟩ := Bool.and_eq_true_iff.mp hb
      have hpos : 0 < d.gui.m_sendListCount :=
        hbars.sendTotal ▸ AreaToolBar.listEmpty_eq_false.mp hne
      exact ⟨hpos, (Window.sendClearClicked_bars hbars hshown).asserted⟩
  | top => exact ⟨(h.up_safe hb).2, h.moveAsserted .top⟩
  | up => exact ⟨(h.up_safe hb).2, h.moveAsserted .up⟩
  | down => exact ⟨(h.down_safe hb).2, h.moveAsserted .down⟩
  | bottom => exact ⟨(h.down_safe hb).2, h.moveAsserted .bottom⟩

theorem Inv.send_selected {b : SendButton} (hmem : b ∈ SendButton.ofSelected)
    (hb : d.sendBar.enabled b = true) : d.SelectedIn .send d.gui.sendList := by
  simp only [SendButton.ofSelected, List.mem_cons, List.not_mem_nil, or_false] at hmem
  rcases hmem with rfl | rfl | rfl | rfl | rfl | rfl | rfl | rfl
  · exact (h.sendSelected_of_enabled hb).2.2
  · exact (h.sendSelected_of_enabled hb).2.2
  · exact (h.sendSelected_of_enabled hb).2.2
  · exact (h.sendSelected_of_enabled hb).2.2
  · exact (h.up_safe hb).1
  · exact (h.up_safe hb).1
  · exact (h.down_safe hb).1
  · exact (h.down_safe hb).1

end

section
variable {earlier : List MsgPtr} {d : Desk φ α σ} (h : d.Inv earlier)
  (hactive : d.active.activityState = .Active)
include h hactive

theorem Inv.recv_enabled {b : RecvButton} (hb : b ∈ RecvButton.ofMessages)
    (hasserted : b.Asserted d) :
    d.recvBar.enabled b = true := by
  have hon : decide (d.recvBar.m_activeState = .Active) = true := decide_eq_true hactive
  have hsel : d.gui.m_selType = .recv → d.recvBar.bar.msgSelected = true := h.recvIdx_isSome
  simp only [RecvButton.ofMessages, List.mem_cons, List.not_mem_nil, or_false] at hb
  rcases hb with rfl | rfl | rfl | rfl
  · exact Bool.and_eq_true_iff.mpr ⟨hon, hsel hasserted.1⟩
  · exact Bool.and_eq_true_iff.mpr ⟨hon, hsel hasserted.1⟩
  · exact Bool.and_eq_true_iff.mpr ⟨hon, hsel hasserted.2.1⟩
  · have hpos : 0 < d.gui.m_recvListCount := hasserted.1
    rw [← h.watched.bars.recvTotal] at hpos
    exact Bool.and_eq_true_iff.mpr ⟨hon, AreaToolBar.listEmpty_eq_false.mpr hpos⟩

theorem Inv.send_enabled (hidle : d.sending.m_sendState = .Idle) {b : SendButton}
    (hb : b ∈ SendButton.ofMessages) (hasserted : b.Asserted d) : d.sendBar.enabled b = true := by
  have hon : d.sendBar.idle = true := h.idle_iff.mpr ⟨hactive, hidle⟩
  have hsel : d.gui.m_selType = .send → d.sendBar.bar.msgSelected = true := h.sendIdx_isSome
  simp only [SendButton.ofMessages, List.mem_cons, List.not_mem_nil, or_false] at hb
  rcases hb with rfl | rfl | rfl | rfl
  · exact Bool.and_eq_true_iff.mpr ⟨hon, hsel hasserted.1⟩
  · exact Bool.and_eq_true_iff.mpr ⟨hon, hsel hasserted.1⟩
  · exact Bool.and_eq_true_iff.mpr ⟨hon, hsel hasserted.2.1⟩
  · have hpos : 0 < d.gui.m_sendListCount := hasserted.1
    rw [← h.watched.bars.sendTotal] at hpos
    exact Bool.and_eq_true_iff.mpr ⟨hon, AreaToolBar.listEmpty_eq_false.mpr hpos⟩

end

section
variable {g : GuiAppMgr φ α σ} (hg : g.Started) (hcount : g.m_sendListCount = 0)
  (hprotocol : g.msgMgr.m_protocol = none) {earlier : List MsgPtr} {d : Desk φ α σ}
include hg hcount hprotocol

/-- **No enabled button is unsafe**: in every state of the application that is reached, no assertion
fails behind an enabled button of the two tool bars, no protocol is missing, and a button about the
selected message finds it as the current item of its own list. -/
theorem buttons_safe (h : Reach g earlier d) :
    (∀ b, d.recvBar.enabled b = true →
        b.Asserted d ∧ (b ∈ RecvButton.ofSelected → d.SelectedIn .recv d.gui.recvList)) ∧
      (∀ b, d.sendBar.enabled b = true →
        b.Asserted d ∧ (b ∈ SendButton.ofSelected → d.SelectedIn .send d.gui.sendList)) :=
  have hinv := h.inv hg hcount hprotocol
  ⟨fun b hb => ⟨hinv.recv_safe b hb, fun hmem => hinv.recv_selected hmem hb⟩,
    fun b hb => ⟨hinv.send_safe b hb, fun hmem => hinv.send_selected hmem hb⟩⟩

/-- **No such button is disabled without need**: in an active application the buttons that comment,
duplicate, delete and clear are enabled exactly when the assertions behind them hold, those of the
send list while nothing is being sent. -/
theorem buttons_exact (h : Reach g earlier d) (hactive : d.active.activityState = .Active) :
    (∀ b ∈ RecvButton.ofMessages, d.recvBar.enabled b = true ↔ b.Asserted d) ∧
      (d.sending.m_sendState = .Idle →
        ∀ b ∈ SendButton.ofMessages, d.sendBar.enabled b = true ↔ b.Asserted d) := by
  have hinv := h.inv hg hcount hprotocol
  refine ⟨fun b hb => ⟨hinv.recv_safe b, hinv.recv_enabled hactive hb⟩, fun hidle b hb => ?_⟩
  exact ⟨hinv.send_safe b, hinv.send_enabled hactive hidle hb⟩

end

/-! ### A plugin is applied and a message added to the send list -/

def appliedDesk : Desk Unit UInt8 Unit :=
  (start SendingApp.sendingSample).activityStep (.window (.app (.applyNewPlugins [0])))

def sampleDesk : Desk Unit UInt8 Unit :=
  appliedDesk.activityStep (.window (.app (.sendAddNewMessage 1)))

theorem sendingSample_started : SendingApp.sendingSample.Started where
  allMsgs := rfl
  recvItems := rfl
  sendItems := rfl
  count := rfl
  selType := rfl
  clicked := rfl

theorem reach_sampleDesk : Reach SendingApp.sendingSample [1] sampleDesk := by
  have happlied : Reach SendingApp.sendingSample ([] ++ []) appliedDesk :=
    .step .start (.activity (.window (.app (.applyNewPlugins [0])))) List.nodup_nil
      (List.disjoint_nil_right _) rfl
  exact .step happlied (.activity (.window (.app (.sendAddNewMessage 1))))
    (List.nodup_singleton 1) (List.disjoint_nil_left _) rfl

/-- The button that starts the selected message is enabled, and so is the one that deletes it. -/
theorem buttons_safe_sample : SendButton.Asserted sampleDesk .startStop ∧
    SendButton.Asserted sampleDesk .delete ∧
      sampleDesk.SelectedIn .send sampleDesk.gui.sendList := by
  have h := (buttons_safe sendingSample_started rfl rfl reach_sampleDesk).2
  exact ⟨(h .startStop rfl).1, (h .delete rfl).1,
    (h .delete rfl).2 (by simp [SendButton.ofSelected])⟩

theorem buttons_exact_sample :
    (∀ b ∈ RecvButton.ofMessages, sampleDesk.recvBar.enabled b = true ↔ b.Asserted sampleDesk) ∧
      (∀ b ∈ SendButton.ofMessages,
        sampleDesk.sendBar.enabled b = true ↔ b.Asserted sampleDesk) := by
  have h := buttons_exact sendingSample_started rfl rfl reach_sampleDesk rfl
  exact ⟨h.1, h.2 rfl⟩

end Desk

end CcToolsQt
