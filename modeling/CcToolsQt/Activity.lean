import CcToolsQt.Replacement
import CcToolsQt.Selection
import Mathlib.Data.Multiset.AddSub

/-! # Applying plugins that give no socket or no protocol

`applyNewPlugins` with its result, the running flag of the message manager, the loaded plugin
libraries and the assertions on its way.  It stops and clears the manager and unloads the plugins
that are not in the new list before it knows whether the new plugins give a socket and a protocol;
without them it returns `false` there, and the plugins of both lists stay applied.

* `failsSafely_iff`: when a call that returns `false` leaves the application as it was or inactive,
  so that no assertion fails in any further call. -/

namespace CcToolsQt

/-- `GuiAppMgr::ActivityState`. -/
inductive ActivityState where
  | Clear
  | Inactive
  | Active
  deriving DecidableEq

/-- The application with the flag of its message manager, the plugin libraries that are loaded, the
activity state emitted last, and whether all assertions about them held so far. -/
structure ActiveApp (φ α σ : Type) where
  win : Window φ α σ
  m_running : Bool := false
  loaded : PluginInfoPtr → Bool := fun _ => false
  activityState : ActivityState := .Inactive
  asserted : Bool := true

namespace ToolsPluginMgr
variable {φ α σ : Type}

/-- A list unloads every applied plugin: each one is available, applied once and not in the list. -/
def GivesUp (m : ToolsPluginMgr φ α σ) (infos : List PluginInfoPtr) : Prop :=
  m.m_appliedPlugins.Nodup ∧ ∀ info ∈ m.m_appliedPlugins, info ∈ m.m_plugins ∧ info ∉ infos

/-- Nothing is left of a list from which each element of another list is erased once. -/
theorem foldl_erase_eq_nil {applied unloaded : List PluginInfoPtr} (hnd : unloaded.Nodup) :
    unloaded.foldl List.erase applied = [] ↔ applied.Nodup ∧ applied ⊆ unloaded := by
  rw [← List.diff_eq_foldl, ← Multiset.coe_eq_zero, ← Multiset.coe_sub, ← Multiset.le_zero,
    Multiset.sub_le_iff_le_add, Multiset.zero_add]
  constructor
  · intro hle
    exact ⟨Multiset.nodup_of_le hle hnd, Multiset.subset_of_le hle⟩
  · rintro ⟨happlied, hsub⟩
    exact (Multiset.le_iff_subset (Multiset.coe_nodup.mpr happlied)).mpr hsub

/-- No plugin stays applied if and only if the list gives up all of them. -/
theorem unloadOthers_nil {m : ToolsPluginMgr φ α σ} (hnd : m.m_plugins.Nodup)
    (infos : List PluginInfoPtr) :
    (m.unloadOthers infos).m_appliedPlugins = [] ↔ m.GivesUp infos := by
  rw [unloadOthers_eq]
  refine (foldl_erase_eq_nil (hnd.filter _)).trans (and_congr_right fun _ => ?_)
  simp [List.subset_def]

theorem setsUp_congr {m m' : ToolsPluginMgr φ α σ} (h : m'.loadPlugin = m.loadPlugin) :
    m'.setsUp = m.setsUp := by
  have hsocket : m'.createsSocket = m.createsSocket := by
    funext info
    rw [createsSocket, h]
    rfl
  funext infos
  rw [setsUp, hsocket, protocolPlugin_congr h]
  rfl

/-- A list that gives up the applied plugins is another one. -/
theorem GivesUp.needsReload {m : ToolsPluginMgr φ α σ} {infos : List PluginInfoPtr}
    (h : m.GivesUp infos) : m.needsReload infos = m.hasAppliedPlugins := by
  unfold ToolsPluginMgr.needsReload hasAppliedPlugins
  cases happlied : m.m_appliedPlugins with
  | nil => rfl
  | cons info applied =>
      have hmem : info ∈ m.m_appliedPlugins := happlied ▸ List.mem_cons_self
      have hne : info :: applied ≠ infos := fun e => (h.2 info hmem).2 (e ▸ List.mem_cons_self)
      simp [hne]

end ToolsPluginMgr

namespace ActiveApp
variable {φ α σ : Type}

abbrev pluginMgr (s : ActiveApp φ α σ) : ToolsPluginMgr φ α σ := s.win.gui.pluginMgr

def assert (s : ActiveApp φ α σ) (c : Bool) : ActiveApp φ α σ :=
  { s with asserted := s.asserted && c }

def setWin (s : ActiveApp φ α σ) (w : Window φ α σ) : ActiveApp φ α σ := { s with win := w }

/-- `sigActivityStateChanged`. -/
def activityStateChanged (s : ActiveApp φ α σ) (state : ActivityState) : ActiveApp φ α σ :=
  { s with activityState := state }

def getActivityState (s : ActiveApp φ α σ) : ActivityState :=
  if !s.pluginMgr.hasAppliedPlugins then .Inactive else .Active

section
variable (s : ActiveApp φ α σ) (c : Bool) (w : Window φ α σ) (state : ActivityState)

@[simp] theorem assert_win : (s.assert c).win = s.win := rfl
@[simp] theorem assert_running : (s.assert c).m_running = s.m_running := rfl
@[simp] theorem assert_loaded : (s.assert c).loaded = s.loaded := rfl
@[simp] theorem assert_activityState : (s.assert c).activityState = s.activityState := rfl
@[simp] theorem assert_asserted : (s.assert c).asserted = (s.asserted && c) := rfl

@[simp] theorem setWin_win : (s.setWin w).win = w := rfl
@[simp] theorem setWin_running : (s.setWin w).m_running = s.m_running := rfl
@[simp] theorem setWin_loaded : (s.setWin w).loaded = s.loaded := rfl
@[simp] theorem setWin_activityState : (s.setWin w).activityState = s.activityState := rfl
@[simp] theorem setWin_asserted : (s.setWin w).asserted = s.asserted := rfl

@[simp] theorem activityStateChanged_win : (s.activityStateChanged state).win = s.win := rfl
@[simp] theorem activityStateChanged_running :
    (s.activityStateChanged state).m_running = s.m_running := rfl
@[simp] theorem activityStateChanged_loaded :
    (s.activityStateChanged state).loaded = s.loaded := rfl
@[simp] theorem activityStateChanged_activityState :
    (s.activityStateChanged state).activityState = state := rfl
@[simp] theorem activityStateChanged_asserted :
    (s.activityStateChanged state).asserted = s.asserted := rfl

end

/-! ### The message manager -/

/-- `ToolsMsgMgrImpl::start`; `Already_running` is asserted not to be reached. -/
def start (s : ActiveApp φ α σ) : ActiveApp φ α σ :=
  if s.m_running then s.assert false else { s with m_running := true }

/-- `ToolsMsgMgrImpl::stop`, with `Already_stopped`. -/
def stop (s : ActiveApp φ α σ) : ActiveApp φ α σ :=
  if !s.m_running then s.assert false else { s with m_running := false }

/-- `ToolsMsgMgrImpl::clear`, with `Still_running`. -/
def clear (s : ActiveApp φ α σ) : ActiveApp φ α σ :=
  let s := if s.m_running then (s.assert false).stop else s
  s.setWin (s.win.setGui { s.win.gui with msgMgr := s.win.gui.msgMgr.clear })

/-! ### The plugin manager -/

/-- `unloadAppliedPlugin`; the library of an applied plugin is loaded. -/
def unloadAppliedPlugin (s : ActiveApp φ α σ) (info : PluginInfoPtr) : ActiveApp φ α σ :=
  if info ∈ s.pluginMgr.m_appliedPlugins then
    let s := s.setWin
      (s.win.setGui { s.win.gui with pluginMgr := s.pluginMgr.unloadAppliedPlugin info })
    let s := s.assert (s.loaded info)
    { s with loaded := Function.update s.loaded info false }
  else s

/-- The available plugins outside a list are unloaded. -/
def unloadOthers (s : ActiveApp φ α σ) (plugins : List PluginInfoPtr) : ActiveApp φ α σ :=
  (s.pluginMgr.m_plugins.filter fun ptr => !plugins.contains ptr).foldl unloadAppliedPlugin s

/-- `loadPlugin`, with `Failed_to_load_plugin`. -/
def loadPlugin (s : ActiveApp φ α σ) (info : PluginInfoPtr) : ActiveApp φ α σ :=
  if (s.pluginMgr.loadPlugin info).isSome then
    { s with loaded := Function.update s.loaded info true }
  else s.assert false

/-! ### `applyNewPlugins` -/

/-- The messages of another protocol leave the send list. -/
def clearSendList (s : ActiveApp φ α σ) (plugins : List PluginInfoPtr) : ActiveApp φ α σ :=
  if 0 < s.win.gui.m_sendListCount ∧ s.pluginMgr.isProtocolChanging plugins then
    s.setWin s.win.sendClearClicked
  else s

/-- The manager is stopped and cleared. -/
def halt (s : ActiveApp φ α σ) (needsReload : Bool) : ActiveApp φ α σ :=
  let s := if needsReload then s.setWin s.win.dropAllMsgs else s
  s.stop.clear.activityStateChanged .Inactive

/-- The manager is stopped, and the plugins that are not in the list are unloaded. -/
def deactivate (s : ActiveApp φ α σ) (plugins : List PluginInfoPtr)
    (hasApplied needsReload : Bool) : ActiveApp φ α σ :=
  let s := if hasApplied then s.halt needsReload else s
  if needsReload then
    ((s.assert hasApplied).unloadOthers plugins).activityStateChanged .Clear
  else s

/-- `applyNewPlugins` until it loads plugins; `needsReload` asserts that the list is not empty. -/
def tearDown (s : ActiveApp φ α σ) (plugins : List PluginInfoPtr) : ActiveApp φ α σ :=
  let s := s.assert (!plugins.isEmpty)
  let hasApplied := s.pluginMgr.hasAppliedPlugins
  let needsReload := s.pluginMgr.needsReload plugins
  (s.clearSendList plugins).deactivate plugins hasApplied needsReload

/-- The rest of `applyNewPlugins`: without a socket or a protocol it ends here. -/
def setUp (s : ActiveApp φ α σ) (plugins : List PluginInfoPtr) : ActiveApp φ α σ × Bool :=
  let applyInfo : GuiAppMgr.ApplyInfo φ α σ :=
    (plugins.map s.pluginMgr.loadPlugin).foldl GuiAppMgr.ApplyInfo.add {}
  let s := plugins.foldl loadPlugin s
  if !applyInfo.m_socket then (s, false)
  else if applyInfo.m_protocol.isNone then (s, false)
  else
    let mgr := s.win.gui.msgMgr.setup applyInfo.m_filters applyInfo.m_protocol
    let s := (s.setWin (s.win.setGui { s.win.gui with msgMgr := mgr })).start
    let s := s.activityStateChanged .Active
    let mgr := s.pluginMgr.setAppliedPlugins plugins
    (s.setWin (s.win.setGui { s.win.gui with pluginMgr := mgr }), true)

def applyNewPlugins (s : ActiveApp φ α σ) (plugins : List PluginInfoPtr) :
    ActiveApp φ α σ × Bool :=
  (s.tearDown plugins).setUp plugins

end ActiveApp

/-! ### Events -/

/-- What happens to the application, and a change of what the plugins give: a plugin is configured
anew, or its library is exchanged. -/
inductive ActivityEvent (φ α σ : Type) where
  | window (ev : WindowEvent)
  | configure (load : PluginInfoPtr → Option (ToolsPlugin φ α σ))

namespace ActivityEvent
variable {φ α σ : Type}

def ptrs : ActivityEvent φ α σ → List MsgPtr
  | window ev => ev.ptrs
  | configure _ => []

def Fresh (earlier : List MsgPtr) (ev : ActivityEvent φ α σ) : Prop :=
  ev.ptrs.Nodup ∧ earlier.Disjoint ev.ptrs

def seen (earlier : List MsgPtr) (ev : ActivityEvent φ α σ) : List MsgPtr := earlier ++ ev.ptrs

/-- The list of a call of `applyNewPlugins`. -/
def applied : ActivityEvent φ α σ → Option (List PluginInfoPtr)
  | window (.app (.applyNewPlugins plugins)) => some plugins
  | _ => none

end ActivityEvent

namespace ActiveApp
variable {φ α σ : Type}

def configure (s : ActiveApp φ α σ) (load : PluginInfoPtr → Option (ToolsPlugin φ α σ)) :
    ActiveApp φ α σ :=
  s.setWin (s.win.setGui { s.win.gui with pluginMgr := { s.pluginMgr with loadPlugin := load } })

def step (s : ActiveApp φ α σ) : ActivityEvent φ α σ → ActiveApp φ α σ
  | .window (.app (.applyNewPlugins plugins)) => (s.applyNewPlugins plugins).1
  | .window ev => s.setWin (s.win.step ev)
  | .configure load => s.configure load

/-! ### A call that fails -/

def allAsserted (s : ActiveApp φ α σ) : Bool := s.asserted && s.win.asserted

/-- Only the assertions from here on count. -/
def forgetAsserted (s : ActiveApp φ α σ) : ActiveApp φ α σ :=
  { s with asserted := true, win := { s.win with asserted := true } }

/-- The configuration of `s` is active in `s'`. -/
structure StillActive (s s' : ActiveApp φ α σ) : Prop where
  running : s'.m_running = true
  applied : s'.pluginMgr.m_appliedPlugins = s.pluginMgr.m_appliedPlugins
  socket : s'.win.gui.msgMgr.m_socket = s.win.gui.msgMgr.m_socket
  filters : s'.win.gui.msgMgr.m_filters = s.win.gui.msgMgr.m_filters
  protocol : s'.win.gui.msgMgr.m_protocol = s.win.gui.msgMgr.m_protocol

structure FullyInactive (s : ActiveApp φ α σ) : Prop where
  applied : s.pluginMgr.hasAppliedPlugins = false
  state : s.getActivityState = .Inactive
  emitted : s.activityState ≠ .Active
  running : s.m_running = false
  protocol : s.win.gui.msgMgr.m_protocol = none

/-- A further call reaches no failing assertion, with whatever plugins that load. -/
def FurtherCallsAsserted (s : ActiveApp φ α σ) : Prop :=
  ∀ load plugins, plugins ≠ [] → (∀ info ∈ plugins, (load info).isSome = true) →
    ((s.forgetAsserted.configure load).applyNewPlugins plugins).1.allAsserted = true

/-- **A call that fails is safe**: the old configuration is still active or the application is fully
inactive, and no further call reaches a failing assertion. -/
def FailsSafely (s : ActiveApp φ α σ) (ev : ActivityEvent φ α σ) : Prop :=
  ∀ plugins, ev.applied = some plugins → (s.applyNewPlugins plugins).2 = false →
    (s.StillActive (s.applyNewPlugins plugins).1 ∨ (s.applyNewPlugins plugins).1.FullyInactive) ∧
      (s.applyNewPlugins plugins).1.FurtherCallsAsserted

/-- The condition on a call: its list gives a socket and a protocol, or every applied plugin is
unloaded. -/
def SetsUpOrGivesUp (s : ActiveApp φ α σ) (ev : ActivityEvent φ α σ) : Prop :=
  ∀ plugins, ev.applied = some plugins →
    s.pluginMgr.setsUp plugins = true ∨ s.pluginMgr.GivesUp plugins

/-- What the callers see to: a list is not empty, and its plugins load. -/
def LegalCall (s : ActiveApp φ α σ) (ev : ActivityEvent φ α σ) : Prop :=
  ∀ plugins, ev.applied = some plugins →
    plugins ≠ [] ∧ ∀ info ∈ plugins, (s.pluginMgr.loadPlugin info).isSome = true

/-! ### The window -/

@[simp] theorem start_win (s : ActiveApp φ α σ) : s.start.win = s.win := by
  unfold start
  split_ifs <;> rfl

@[simp] theorem stop_win (s : ActiveApp φ α σ) : s.stop.win = s.win := by
  unfold stop
  split_ifs <;> rfl

@[simp] theorem clear_win (s : ActiveApp φ α σ) : s.clear.win =
    s.win.setGui { s.win.gui with msgMgr := s.win.gui.msgMgr.clear } := by
  unfold clear
  dsimp only
  split_ifs
  · rw [setWin_win, stop_win]
    rfl
  · rfl

theorem unloadAppliedPlugin_win (s : ActiveApp φ α σ) (info : PluginInfoPtr) :
    (s.unloadAppliedPlugin info).win =
      s.win.setGui { s.win.gui with pluginMgr := s.pluginMgr.unloadAppliedPlugin info } := by
  unfold unloadAppliedPlugin
  split_ifs with hmem
  · rfl
  · have hsame : s.pluginMgr.unloadAppliedPlugin info = s.pluginMgr := by
      rw [ToolsPluginMgr.unloadAppliedPlugin, List.erase_of_not_mem hmem]
    rw [hsame]
    rfl

theorem unloadOthers_win (s : ActiveApp φ α σ) (plugins : List PluginInfoPtr) :
    (s.unloadOthers plugins).win =
      s.win.setGui { s.win.gui with pluginMgr := s.pluginMgr.unloadOthers plugins } := by
  unfold unloadOthers ToolsPluginMgr.unloadOthers
  generalize (s.pluginMgr.m_plugins.filter fun ptr => !plugins.contains ptr) = unloaded
  induction unloaded generalizing s with
  | nil => rfl
  | cons info unloaded ih =>
      rw [List.foldl_cons, ih, pluginMgr, unloadAppliedPlugin_win]
      rfl

theorem unloadOthers_pluginMgr (s : ActiveApp φ α σ) (plugins : List PluginInfoPtr) :
    (s.unloadOthers plugins).pluginMgr = s.pluginMgr.unloadOthers plugins := by
  rw [pluginMgr, unloadOthers_win]
  rfl

theorem loadPlugins_win (plugins : List PluginInfoPtr) (s : ActiveApp φ α σ) :
    (plugins.foldl loadPlugin s).win = s.win := by
  induction plugins generalizing s with
  | nil => rfl
  | cons info plugins ih =>
      rw [List.foldl_cons, ih, loadPlugin]
      split_ifs <;> rfl

theorem clearSendList_win (s : ActiveApp φ α σ) (plugins : List PluginInfoPtr) :
    (s.clearSendList plugins).win =
      if 0 < s.win.gui.m_sendListCount ∧ s.win.gui.pluginMgr.isProtocolChanging plugins then
        s.win.sendClearClicked
      else s.win := by
  unfold clearSendList
  split_ifs <;> rfl

theorem halt_win (s : ActiveApp φ α σ) (needsReload : Bool) :
    (s.halt needsReload).win =
      let w := if needsReload then s.win.dropAllMsgs else s.win
      w.setGui { w.gui with msgMgr := w.gui.msgMgr.clear } := by
  unfold halt
  cases needsReload <;> simp

theorem deactivate_win (s : ActiveApp φ α σ) (plugins : List PluginInfoPtr)
    (hasApplied needsReload : Bool) :
    (s.deactivate plugins hasApplied needsReload).win =
      let w := if hasApplied ∧ needsReload then s.win.dropAllMsgs else s.win
      let g := if hasApplied then { w.gui with msgMgr := w.gui.msgMgr.clear } else w.gui
      let g := if needsReload then { g with pluginMgr := g.pluginMgr.unloadOthers plugins } else g
      w.setGui g := by
  unfold deactivate
  cases hasApplied <;> cases needsReload
  all_goals simp [unloadOthers_win, halt_win, pluginMgr, Window.setGui]

theorem setUp_win (s : ActiveApp φ α σ) (plugins : List PluginInfoPtr) :
    (s.setUp plugins).1.win = s.win.setGui (s.win.gui.setupPlugins plugins false false) := by
  have hload := loadPlugins_win plugins s
  unfold setUp GuiAppMgr.setupPlugins
  simp only [Bool.false_eq_true, if_false, pluginMgr]
  generalize (plugins.map s.win.gui.pluginMgr.loadPlugin).foldl GuiAppMgr.ApplyInfo.add {} = info
  cases info.m_socket with
  | false => exact hload
  | true =>
      cases info.m_protocol with
      | none => exact hload
      | some protocol =>
          simp [hload]
          rfl

/-- **The window does the same** with and without the flag of the manager. -/
theorem applyNewPlugins_win (s : ActiveApp φ α σ) (plugins : List PluginInfoPtr) :
    (s.applyNewPlugins plugins).1.win = s.win.applyNewPlugins plugins := by
  have hsetup : ∀ (g : GuiAppMgr φ α σ) (hasApplied needsReload : Bool),
      g.setupPlugins plugins hasApplied needsReload =
        (let g := if hasApplied then { g with msgMgr := g.msgMgr.clear } else g
        let g := if needsReload then { g with pluginMgr := g.pluginMgr.unloadOthers plugins } else g
        g.setupPlugins plugins false false) := fun _ _ _ => rfl
  unfold applyNewPlugins tearDown Window.applyNewPlugins
  rw [setUp_win, hsetup]
  dsimp only
  rw [deactivate_win, clearSendList_win]
  rfl

/-! ### The flags -/

section
variable (s : ActiveApp φ α σ)

@[simp] theorem start_running : s.start.m_running = true := by
  unfold start
  split_ifs with h
  · exact h
  · rfl

@[simp] theorem start_loaded : s.start.loaded = s.loaded := by
  unfold start
  split_ifs <;> rfl

@[simp] theorem start_asserted : s.start.asserted = (s.asserted && !s.m_running) := by
  unfold start
  split_ifs with h <;> simp [h]

@[simp] theorem stop_running : s.stop.m_running = false := by
  unfold stop
  split_ifs with h
  · simpa using h
  · rfl

@[simp] theorem stop_loaded : s.stop.loaded = s.loaded := by
  unfold stop
  split_ifs <;> rfl

@[simp] theorem stop_asserted : s.stop.asserted = (s.asserted && s.m_running) := by
  unfold stop
  split_ifs with h <;> simp_all

@[simp] theorem clear_running : s.clear.m_running = false := by
  unfold clear
  dsimp only
  split_ifs with h
  · exact stop_running _
  · simpa using h

@[simp] theorem clear_loaded : s.clear.loaded = s.loaded := by
  unfold clear
  dsimp only
  split_ifs
  · exact stop_loaded _
  · rfl

theorem clear_asserted (h : s.m_running = false) : s.clear.asserted = s.asserted := by
  unfold clear
  simp [h]

end

/-- What no step of a loop changes. -/
theorem foldl_same {β τ : Type} {f : ActiveApp φ α σ → β → ActiveApp φ α σ}
    (F : ActiveApp φ α σ → τ) (hf : ∀ s b, F (f s b) = F s) (l : List β) (s : ActiveApp φ α σ) :
    F (l.foldl f s) = F s := by
  induction l generalizing s with
  | nil => rfl
  | cons b l ih => rw [List.foldl_cons, ih, hf]

theorem unloadOthers_flags (s : ActiveApp φ α σ) (plugins : List PluginInfoPtr) :
    (s.unloadOthers plugins).m_running = s.m_running ∧
      (s.unloadOthers plugins).activityState = s.activityState := by
  have hrunning : ∀ (s : ActiveApp φ α σ) info,
      (s.unloadAppliedPlugin info).m_running = s.m_running := by
    intro s info
    unfold unloadAppliedPlugin
    split_ifs <;> rfl
  have hstate : ∀ (s : ActiveApp φ α σ) info,
      (s.unloadAppliedPlugin info).activityState = s.activityState := by
    intro s info
    unfold unloadAppliedPlugin
    split_ifs <;> rfl
  exact ⟨foldl_same m_running hrunning _ s, foldl_same activityState hstate _ s⟩

/-- A loop that unloads loaded plugins, each one once. -/
theorem unloadPlugins_asserted (unloaded : List PluginInfoPtr) (s : ActiveApp φ α σ)
    (hnd : unloaded.Nodup)
    (h : ∀ info ∈ s.pluginMgr.m_appliedPlugins, info ∈ unloaded → s.loaded info = true) :
    (unloaded.foldl unloadAppliedPlugin s).asserted = s.asserted := by
  induction unloaded generalizing s with
  | nil => rfl
  | cons info unloaded ih =>
      obtain ⟨hnew, hnd⟩ := List.nodup_cons.mp hnd
      rw [List.foldl_cons, ih _ hnd]
      · unfold unloadAppliedPlugin
        split_ifs with hmem
        · simp [h info hmem List.mem_cons_self]
        · rfl
      · intro other hother hin
        rw [pluginMgr, unloadAppliedPlugin_win] at hother
        have happlied : other ∈ s.pluginMgr.m_appliedPlugins := List.mem_of_mem_erase hother
        have hloaded : s.loaded other = true := h other happlied (List.mem_cons_of_mem _ hin)
        unfold unloadAppliedPlugin
        split_ifs
        · -- another library is unloaded
          have hne : other ≠ info := fun e => hnew (e ▸ hin)
          rw [← hloaded]
          exact Function.update_of_ne hne _ _
        · exact hloaded

theorem loadPlugins_flags (plugins : List PluginInfoPtr) (s : ActiveApp φ α σ) :
    (plugins.foldl loadPlugin s).m_running = s.m_running ∧
      (plugins.foldl loadPlugin s).activityState = s.activityState := by
  have hrunning : ∀ (s : ActiveApp φ α σ) info, (s.loadPlugin info).m_running = s.m_running := by
    intro s info
    unfold loadPlugin
    split_ifs <;> rfl
  have hstate : ∀ (s : ActiveApp φ α σ) info,
      (s.loadPlugin info).activityState = s.activityState := by
    intro s info
    unfold loadPlugin
    split_ifs <;> rfl
  exact ⟨foldl_same m_running hrunning _ s, foldl_same activityState hstate _ s⟩

/-- A loop over plugins that load leaves all of them loaded. -/
theorem loadPlugins_spec (plugins : List PluginInfoPtr) (s : ActiveApp φ α σ)
    (h : ∀ info ∈ plugins, (s.pluginMgr.loadPlugin info).isSome = true) :
    (plugins.foldl loadPlugin s).asserted = s.asserted ∧
      ∀ info, info ∈ plugins ∨ s.loaded info = true →
        (plugins.foldl loadPlugin s).loaded info = true := by
  induction plugins generalizing s with
  | nil => exact ⟨rfl, fun info hinfo => hinfo.resolve_left List.not_mem_nil⟩
  | cons plugin plugins ih =>
      have hplugin : s.loadPlugin plugin =
          { s with loaded := Function.update s.loaded plugin true } :=
        if_pos (h plugin List.mem_cons_self)
      obtain ⟨hasserted, hloaded⟩ := ih (s.loadPlugin plugin)
        (fun info hinfo => by rw [hplugin]; exact h info (List.mem_cons_of_mem _ hinfo))
      refine ⟨by rw [List.foldl_cons, hasserted, hplugin], fun info hinfo => hloaded info ?_⟩
      rw [hplugin]
      by_cases he : info = plugin
      · exact .inr (he ▸ Function.update_self _ _ _)
      · rw [List.mem_cons, or_iff_right he] at hinfo
        exact hinfo.imp_right fun hs => (Function.update_of_ne he _ _).trans hs

/-! ### One call -/

/-- What `setUp` does with a list that gives a socket and a protocol, and with another one. -/
theorem setUp_cases (s : ActiveApp φ α σ) (plugins : List PluginInfoPtr) :
    (s.pluginMgr.setsUp plugins = true ∧ ∃ mgr, s.setUp plugins =
        (((plugins.foldl loadPlugin s).start.activityStateChanged .Active).setWin
          (s.win.setGui { s.win.gui with
            msgMgr := mgr, pluginMgr := s.pluginMgr.setAppliedPlugins plugins }), true)) ∨
      (s.pluginMgr.setsUp plugins = false ∧
        s.setUp plugins = (plugins.foldl loadPlugin s, false)) := by
  have hsetsUp := s.pluginMgr.applyInfo_setsUp plugins
  have hload := loadPlugins_win plugins s
  have hstart : ∀ (s : ActiveApp φ α σ) w, (s.setWin w).start = s.start.setWin w := by
    intro s w
    unfold start
    rw [setWin_running]
    split_ifs <;> rfl
  unfold setUp
  dsimp only
  generalize (plugins.map s.pluginMgr.loadPlugin).foldl GuiAppMgr.ApplyInfo.add {} = info
    at hsetsUp ⊢
  cases hs : info.m_socket with
  | false => exact .inr ⟨by rw [← hsetsUp, hs]; rfl, rfl⟩
  | true =>
      cases hp : info.m_protocol with
      | none => exact .inr ⟨by rw [← hsetsUp, hs, hp]; rfl, rfl⟩
      | some protocol =>
          refine .inl ⟨by rw [← hsetsUp, hs, hp]; rfl, ?_⟩
          simp only [Bool.not_true, Bool.false_eq_true, if_false, Option.isNone_some, hstart,
            pluginMgr, activityStateChanged_win, setWin_win, hload]
          exact ⟨_, rfl⟩

theorem clearSendList_flags (s : ActiveApp φ α σ) (plugins : List PluginInfoPtr) :
    (s.clearSendList plugins).m_running = s.m_running ∧
      (s.clearSendList plugins).activityState = s.activityState ∧
      (s.clearSendList plugins).loaded = s.loaded ∧
      (s.clearSendList plugins).asserted = s.asserted ∧
      (s.clearSendList plugins).pluginMgr = s.pluginMgr := by
  unfold clearSendList
  split_ifs
  · have hkept : GuiAppMgr.Kept [] s.win.gui s.win.gui.sendClearClicked :=
      s.win.gui.sendClearClicked_kept
    refine ⟨rfl, rfl, rfl, rfl, ?_⟩
    show s.win.sendClearClicked.gui.pluginMgr = _
    rw [Window.sendClearClicked_gui, hkept.plugins]
  · exact ⟨rfl, rfl, rfl, rfl, rfl⟩


/-- Nothing but the window and the flag of the manager changes as it is stopped. -/
theorem halt_flags (s : ActiveApp φ α σ) (needsReload : Bool) :
    (s.halt needsReload).m_running = false ∧
      (s.halt needsReload).activityState = .Inactive ∧
      (s.halt needsReload).loaded = s.loaded ∧
      (s.halt needsReload).asserted = (s.asserted && s.m_running) ∧
      (s.halt needsReload).pluginMgr = s.pluginMgr := by
  have hkept : GuiAppMgr.Kept [] s.win.gui s.win.gui.dropAllMsgs := s.win.gui.dropAllMsgs_kept
  have hmgr : (s.halt needsReload).pluginMgr = s.pluginMgr := by
    rw [pluginMgr, halt_win]
    cases needsReload with
    | false => rfl
    | true =>
        show s.win.dropAllMsgs.gui.pluginMgr = _
        rw [Window.dropAllMsgs_gui, hkept.plugins]
  refine ⟨?_, rfl, ?_, ?_, hmgr⟩
  · exact clear_running _
  · cases needsReload <;> simp [halt]
  · cases needsReload <;> simp [halt, clear_asserted]

theorem deactivate_flags (s : ActiveApp φ α σ) (plugins : List PluginInfoPtr)
    (hasApplied needsReload : Bool) :
    (s.deactivate plugins hasApplied needsReload).m_running = (!hasApplied && s.m_running) ∧
      (s.deactivate plugins hasApplied needsReload).activityState =
        (if needsReload then .Clear else if hasApplied then .Inactive else s.activityState) ∧
      (s.deactivate plugins hasApplied needsReload).pluginMgr =
        if needsReload then s.pluginMgr.unloadOthers plugins else s.pluginMgr := by
  obtain ⟨hrunning, hstate, -, -, hmgr⟩ := s.halt_flags needsReload
  unfold deactivate
  dsimp only
  cases hasApplied <;> cases needsReload
  case false.false => exact ⟨rfl, rfl, rfl⟩
  case true.false => exact ⟨hrunning, hstate, hmgr⟩
  case false.true =>
    exact ⟨(unloadOthers_flags _ _).1, rfl, unloadOthers_pluginMgr _ _⟩
  case true.true =>
    refine ⟨(unloadOthers_flags _ _).1.trans hrunning, rfl, ?_⟩
    exact (unloadOthers_pluginMgr _ _).trans (congrArg (ToolsPluginMgr.unloadOthers · plugins) hmgr)

/-- The assertions about a running manager and loaded plugins. -/
theorem deactivate_asserted {s : ActiveApp φ α σ} (plugins : List PluginInfoPtr)
    {hasApplied needsReload : Bool} (hrunning : hasApplied = true → s.m_running = true)
    (hreload : needsReload = true → hasApplied = true) (hnd : s.pluginMgr.m_plugins.Nodup)
    (hloaded : ∀ info ∈ s.pluginMgr.m_appliedPlugins, s.loaded info = true) :
    (s.deactivate plugins hasApplied needsReload).asserted = s.asserted := by
  obtain ⟨-, -, hsame, hasserted, hmgr⟩ := s.halt_flags needsReload
  unfold deactivate
  dsimp only
  cases hasApplied with
  | false =>
      cases needsReload with
      | false => rfl
      | true => cases hreload rfl
  | true =>
      have hhalt : (s.halt needsReload).asserted = s.asserted := by
        rw [hasserted, hrunning rfl, Bool.and_true]
      cases needsReload with
      | false => exact hhalt
      | true =>
          have hmgr' : ((s.halt true).assert true).pluginMgr = s.pluginMgr := hmgr
          simp only [if_true, activityStateChanged_asserted, unloadOthers]
          rw [hmgr', unloadPlugins_asserted _ _ (hnd.filter _)]
          · rw [assert_asserted, hhalt, Bool.and_true]
          · intro info hinfo _
            rw [hmgr'] at hinfo
            rw [assert_loaded, hsame]
            exact hloaded info hinfo

theorem tearDown_flags (s : ActiveApp φ α σ) (plugins : List PluginInfoPtr) :
    (s.tearDown plugins).m_running = (!s.pluginMgr.hasAppliedPlugins && s.m_running) ∧
      (s.tearDown plugins).activityState =
        (if s.pluginMgr.needsReload plugins then .Clear
          else if s.pluginMgr.hasAppliedPlugins then .Inactive else s.activityState) ∧
      (s.tearDown plugins).pluginMgr =
        if s.pluginMgr.needsReload plugins then s.pluginMgr.unloadOthers plugins
        else s.pluginMgr := by
  obtain ⟨hrunning, hstate, -, -, hmgr⟩ :=
    (s.assert (!plugins.isEmpty)).clearSendList_flags plugins
  have h := ((s.assert (!plugins.isEmpty)).clearSendList plugins).deactivate_flags plugins
    s.pluginMgr.hasAppliedPlugins (s.pluginMgr.needsReload plugins)
  rw [hrunning, hstate, hmgr] at h
  exact h

theorem tearDown_asserted {s : ActiveApp φ α σ} {plugins : List PluginInfoPtr}
    (hne : plugins ≠ []) (hrunning : s.pluginMgr.hasAppliedPlugins = true → s.m_running = true)
    (hnd : s.pluginMgr.m_plugins.Nodup)
    (hloaded : ∀ info ∈ s.pluginMgr.m_appliedPlugins, s.loaded info = true) :
    (s.tearDown plugins).asserted = s.asserted := by
  obtain ⟨hrun, -, hload, hasserted, hmgr⟩ :=
    (s.assert (!plugins.isEmpty)).clearSendList_flags plugins
  have hempty : (!plugins.isEmpty) = true := by simpa using hne
  unfold tearDown
  dsimp only
  rw [deactivate_asserted, hasserted, assert_asserted, hempty, Bool.and_true]
  · intro happlied
    rw [hrun]
    exact hrunning happlied
  · intro hreload
    exact (Bool.and_eq_true_iff.mp hreload).1
  · rw [hmgr]
    exact hnd
  · rw [hmgr, hload]
    exact hloaded

/-- The plugins there are to load. -/
theorem tearDown_plugins (s : ActiveApp φ α σ) (plugins : List PluginInfoPtr) :
    (s.tearDown plugins).pluginMgr.loadPlugin = s.pluginMgr.loadPlugin ∧
      (s.tearDown plugins).pluginMgr.m_plugins = s.pluginMgr.m_plugins := by
  obtain ⟨-, -, hmgr⟩ := s.tearDown_flags plugins
  rw [hmgr, ToolsPluginMgr.unloadOthers_eq]
  split_ifs
  · exact ⟨rfl, rfl⟩
  · exact ⟨rfl, rfl⟩

/-- **A call that succeeds**, and one that fails: the plugins that were not unloaded stay applied,
and the manager does not run, unless it was running without plugins. -/
theorem applyNewPlugins_cases (s : ActiveApp φ α σ) (plugins : List PluginInfoPtr) :
    (s.pluginMgr.setsUp plugins = true ∧ (s.applyNewPlugins plugins).2 = true ∧
        (s.applyNewPlugins plugins).1.m_running = true ∧
        (s.applyNewPlugins plugins).1.pluginMgr.m_appliedPlugins = plugins) ∨
      (s.pluginMgr.setsUp plugins = false ∧ (s.applyNewPlugins plugins).2 = false ∧
        (s.applyNewPlugins plugins).1 = plugins.foldl loadPlugin (s.tearDown plugins)) := by
  have hsetsUp : (s.tearDown plugins).pluginMgr.setsUp plugins = s.pluginMgr.setsUp plugins := by
    rw [ToolsPluginMgr.setsUp_congr (s.tearDown_plugins plugins).1]
  have hcases := (s.tearDown plugins).setUp_cases plugins
  rw [hsetsUp] at hcases
  unfold applyNewPlugins
  rcases hcases with ⟨hs, mgr, heq⟩ | ⟨hs, heq⟩
  · rw [heq]
    exact .inl ⟨hs, rfl, start_running _, rfl⟩
  · rw [heq]
    exact .inr ⟨hs, rfl, rfl⟩

/-- The available plugins stay the same. -/
theorem applyNewPlugins_plugins (s : ActiveApp φ α σ) (plugins : List PluginInfoPtr) :
    (s.applyNewPlugins plugins).1.pluginMgr.m_plugins = s.pluginMgr.m_plugins := by
  rw [← (s.tearDown_plugins plugins).2]
  unfold applyNewPlugins
  rcases (s.tearDown plugins).setUp_cases plugins with ⟨-, mgr, heq⟩ | ⟨-, heq⟩
  · rw [heq]
    rfl
  · rw [heq, pluginMgr, loadPlugins_win]

/-- The assertions of a call on an application that runs while plugins are applied. -/
theorem applyNewPlugins_asserted {s : ActiveApp φ α σ} {plugins : List PluginInfoPtr}
    (hne : plugins ≠ []) (hload : ∀ info ∈ plugins, (s.pluginMgr.loadPlugin info).isSome = true)
    (hrunning : s.m_running = s.pluginMgr.hasAppliedPlugins) (hnd : s.pluginMgr.m_plugins.Nodup)
    (hloaded : ∀ info ∈ s.pluginMgr.m_appliedPlugins, s.loaded info = true) :
    (s.applyNewPlugins plugins).1.asserted = s.asserted ∧
      ((s.applyNewPlugins plugins).2 = true →
        ∀ info ∈ plugins, (s.applyNewPlugins plugins).1.loaded info = true) := by
  have htear : (s.tearDown plugins).asserted = s.asserted :=
    tearDown_asserted hne (fun h => hrunning.trans h) hnd hloaded
  have hstopped : (s.tearDown plugins).m_running = false := by
    rw [(s.tearDown_flags plugins).1, hrunning]
    cases s.pluginMgr.hasAppliedPlugins <;> rfl
  have hload' : ∀ info ∈ plugins,
      ((s.tearDown plugins).pluginMgr.loadPlugin info).isSome = true := by
    rw [(s.tearDown_plugins plugins).1]
    exact hload
  obtain ⟨hasserted, hall⟩ := loadPlugins_spec plugins (s.tearDown plugins) hload'
  have hrun := (loadPlugins_flags plugins (s.tearDown plugins)).1
  unfold applyNewPlugins
  rcases (s.tearDown plugins).setUp_cases plugins with ⟨-, mgr, heq⟩ | ⟨-, heq⟩
  · rw [heq]
    refine ⟨?_, fun _ info hinfo => ?_⟩
    · rw [setWin_asserted, activityStateChanged_asserted, start_asserted, hrun, hstopped,
        hasserted, htear]
      exact Bool.and_true _
    · rw [setWin_loaded, activityStateChanged_loaded, start_loaded]
      exact hall info (.inl hinfo)
  · rw [heq]
    exact ⟨hasserted.trans htear, fun h => by cases h⟩

/-! ### Runs -/

/-- The manager runs exactly while plugins are applied. -/
structure Steady (s : ActiveApp φ α σ) : Prop where
  running : s.m_running = s.pluginMgr.hasAppliedPlugins
  plugins : s.pluginMgr.m_plugins.Nodup
  inactive : s.pluginMgr.hasAppliedPlugins = false →
    s.activityState ≠ .Active ∧ s.win.gui.msgMgr.m_protocol = none

/-- The manager as a call fails. -/
theorem failed_spec {s : ActiveApp φ α σ} {plugins : List PluginInfoPtr}
    (hs : s.pluginMgr.setsUp plugins = false) :
    (s.applyNewPlugins plugins).1.m_running = (!s.pluginMgr.hasAppliedPlugins && s.m_running) ∧
      (s.applyNewPlugins plugins).1.activityState =
        (if s.pluginMgr.needsReload plugins then .Clear
          else if s.pluginMgr.hasAppliedPlugins then .Inactive else s.activityState) ∧
      (s.applyNewPlugins plugins).1.pluginMgr.m_appliedPlugins =
        (if s.pluginMgr.needsReload plugins then
          (s.pluginMgr.unloadOthers plugins).m_appliedPlugins
        else s.pluginMgr.m_appliedPlugins) ∧
      (s.applyNewPlugins plugins).1.win.gui.msgMgr.m_protocol =
        if s.pluginMgr.hasAppliedPlugins then none else s.win.gui.msgMgr.m_protocol := by
  obtain ⟨hrunning, hstate, -⟩ := s.tearDown_flags plugins
  obtain ⟨hrun, hst⟩ := loadPlugins_flags plugins (s.tearDown plugins)
  have hbefore := s.win.gui.beforeUnload_spec plugins
  have hset := (App.applyNewPlugins_setUp s.win.gui plugins).failed
  rw [hbefore.pluginMgr, hbefore.protocol] at hset
  obtain ⟨hprotocol, happlied⟩ := hset hs
  have hgui : (s.applyNewPlugins plugins).1.win.gui = s.win.gui.applyNewPlugins plugins := by
    rw [applyNewPlugins_win, Window.applyNewPlugins_gui]
  rcases s.applyNewPlugins_cases plugins with ⟨h, -⟩ | ⟨-, -, heq⟩
  · rw [hs] at h
    cases h
  · refine ⟨?_, ?_, ?_, ?_⟩
    · rw [heq, hrun, hrunning]
    · rw [heq, hst, hstate]
    · rw [pluginMgr, hgui, happlied]
    · rw [hgui, hprotocol]

/-- A call that fails and unloads every applied plugin leaves the application inactive. -/
theorem Steady.fullyInactive {s : ActiveApp φ α σ} (h : s.Steady) {plugins : List PluginInfoPtr}
    (hs : s.pluginMgr.setsUp plugins = false) (hg : s.pluginMgr.GivesUp plugins) :
    (s.applyNewPlugins plugins).1.FullyInactive := by
  obtain ⟨hrunning, hstate, happlied, hprotocol⟩ := failed_spec hs
  have hnone : (s.applyNewPlugins plugins).1.pluginMgr.hasAppliedPlugins = false := by
    rw [ToolsPluginMgr.hasAppliedPlugins_eq_false, happlied, hg.needsReload,
      (ToolsPluginMgr.unloadOthers_nil h.plugins plugins).mpr hg]
    cases hhas : s.pluginMgr.hasAppliedPlugins with
    | true => rfl
    | false => exact ToolsPluginMgr.hasAppliedPlugins_eq_false.mp hhas
  rw [hg.needsReload] at hstate
  refine ⟨hnone, ?_, ?_, ?_, ?_⟩
  · unfold getActivityState
    rw [hnone]
    rfl
  · rw [hstate]
    cases hhas : s.pluginMgr.hasAppliedPlugins with
    | true => simp
    | false => exact (h.inactive hhas).1
  · rw [hrunning, h.running]
    cases s.pluginMgr.hasAppliedPlugins <;> rfl
  · rw [hprotocol]
    cases hhas : s.pluginMgr.hasAppliedPlugins with
    | true => rfl
    | false => exact (h.inactive hhas).2

/-- A call that fails leaves an active or an inactive application only if it unloads every applied
plugin. -/
theorem Steady.givesUp {s : ActiveApp φ α σ} (h : s.Steady) {plugins : List PluginInfoPtr}
    (hs : s.pluginMgr.setsUp plugins = false)
    (hsafe : s.StillActive (s.applyNewPlugins plugins).1 ∨
      (s.applyNewPlugins plugins).1.FullyInactive) : s.pluginMgr.GivesUp plugins := by
  obtain ⟨hrunning, -, happlied, -⟩ := failed_spec hs
  rw [h.running] at hrunning
  rcases hsafe with hactive | hinactive
  · -- the manager was stopped if it ran
    have hrun := hactive.running
    rw [hrunning] at hrun
    cases hhas : s.pluginMgr.hasAppliedPlugins <;> rw [hhas] at hrun <;> cases hrun
  · have hnil := ToolsPluginMgr.hasAppliedPlugins_eq_false.mp hinactive.applied
    rw [happlied] at hnil
    split_ifs at hnil
    · exact (ToolsPluginMgr.unloadOthers_nil h.plugins plugins).mp hnil
    · unfold ToolsPluginMgr.GivesUp
      rw [hnil]
      exact ⟨List.nodup_nil, fun info hinfo => absurd hinfo List.not_mem_nil⟩

/-- Steadiness is about the manager, the applied plugins and the activity state. -/
theorem Steady.congr {s s' : ActiveApp φ α σ} (h : s.Steady) (hrunning : s'.m_running = s.m_running)
    (hstate : s'.activityState = s.activityState)
    (happlied : s'.pluginMgr.m_appliedPlugins = s.pluginMgr.m_appliedPlugins)
    (hplugins : s'.pluginMgr.m_plugins = s.pluginMgr.m_plugins)
    (hprotocol : s'.win.gui.msgMgr.m_protocol = s.win.gui.msgMgr.m_protocol) : s'.Steady := by
  have hhas : s'.pluginMgr.hasAppliedPlugins = s.pluginMgr.hasAppliedPlugins := by
    unfold ToolsPluginMgr.hasAppliedPlugins
    rw [happlied]
  refine ⟨?_, ?_, ?_⟩
  · rw [hrunning, hhas, h.running]
  · rw [hplugins]
    exact h.plugins
  · rw [hhas, hstate, hprotocol]
    exact h.inactive

/-- A call that succeeds or unloads every applied plugin. -/
theorem Steady.applyNewPlugins {s : ActiveApp φ α σ} (h : s.Steady) {plugins : List PluginInfoPtr}
    (hK : s.pluginMgr.setsUp plugins = true ∨ s.pluginMgr.GivesUp plugins) :
    (s.applyNewPlugins plugins).1.Steady := by
  have hplugins : (s.applyNewPlugins plugins).1.pluginMgr.m_plugins.Nodup := by
    rw [applyNewPlugins_plugins]
    exact h.plugins
  rcases s.applyNewPlugins_cases plugins with ⟨hs, -, hrunning, happlied⟩ | ⟨hs, -⟩
  · have hne : plugins ≠ [] := by
      rintro rfl
      cases hs
    have hhas : (s.applyNewPlugins plugins).1.pluginMgr.hasAppliedPlugins = true := by
      unfold ToolsPluginMgr.hasAppliedPlugins
      rw [happlied]
      simpa using hne
    refine ⟨hrunning.trans hhas.symm, hplugins, fun hnone => ?_⟩
    rw [hhas] at hnone
    cases hnone
  · have hg := hK.resolve_left (by rw [hs]; exact Bool.false_ne_true)
    have hi := h.fullyInactive hs hg
    exact ⟨hi.running.trans hi.applied.symm, hplugins, fun _ => ⟨hi.emitted, hi.protocol⟩⟩

/-- Another event of the window leaves the manager and the plugins alone. -/
theorem step_window {s : ActiveApp φ α σ} {ev : WindowEvent}
    (h : ∀ plugins, ev ≠ .app (.applyNewPlugins plugins)) :
    s.step (.window ev) = s.setWin (s.win.step ev) ∧
      (s.win.step ev).gui.pluginMgr = s.pluginMgr ∧
      (s.win.step ev).gui.msgMgr.m_protocol = s.win.gui.msgMgr.m_protocol := by
  cases ev with
  | app ev =>
      have htakes := s.win.gui.step_takes ev fun plugins e => h plugins (congrArg _ e)
      have hgui : (s.win.step (.app ev)).gui = s.win.gui.step ev := s.win.appStep_gui ev
      rw [hgui]
      refine ⟨?_, htakes.plugins, htakes.protocol⟩
      cases ev
      case applyNewPlugins plugins => exact absurd rfl (h plugins)
      all_goals rfl
  | sendMsgDoubleClicked row =>
      refine ⟨rfl, ?_⟩
      show (s.win.sendMsgDoubleClicked row).gui.pluginMgr = _ ∧
        (s.win.sendMsgDoubleClicked row).gui.msgMgr.m_protocol = _
      unfold Window.sendMsgDoubleClicked
      split
      · next msg _ =>
          have hkept := s.win.gui.sendMsgClicked_kept msg (some row)
          dsimp only
          rw [Window.assert_gui]
          split_ifs
          · exact ⟨rfl, rfl⟩
          · rw [Window.sendMsgClicked_gui]
            exact ⟨hkept.plugins, hkept.protocol⟩
      · exact ⟨rfl, rfl⟩

theorem step_win (s : ActiveApp φ α σ) (ev : WindowEvent) :
    (s.step (.window ev)).win = s.win.step ev := by
  by_cases hev : ∃ plugins, ev = .app (.applyNewPlugins plugins)
  · obtain ⟨plugins, rfl⟩ := hev
    exact s.applyNewPlugins_win plugins
  · rw [(step_window fun plugins e => hev ⟨plugins, e⟩).1, setWin_win]

/-- **One event** keeps the manager steady, a call under its condition. -/
theorem Steady.step {s : ActiveApp φ α σ} (h : s.Steady) {ev : ActivityEvent φ α σ}
    (hK : s.SetsUpOrGivesUp ev) : (s.step ev).Steady := by
  cases ev with
  | configure load => exact h.congr rfl rfl rfl rfl rfl
  | window ev =>
      by_cases hev : ∃ plugins, ev = .app (.applyNewPlugins plugins)
      · obtain ⟨plugins, rfl⟩ := hev
        exact h.applyNewPlugins (hK plugins rfl)
      · obtain ⟨hstep, hmgr, hprotocol⟩ := step_window fun plugins e => hev ⟨plugins, e⟩
        rw [hstep]
        exact h.congr rfl rfl (congrArg _ hmgr) (congrArg _ hmgr) hprotocol

/-- The window does not look at what the plugins give. -/
theorem watched_configure {earlier : List MsgPtr} {s : ActiveApp φ α σ}
    (h : Window.Watched earlier s.win) (load : PluginInfoPtr → Option (ToolsPlugin φ α σ)) :
    Window.Watched earlier (s.configure load).win := by
  refine ⟨⟨h.inv.known, h.inv.send, h.inv.selected.congr rfl rfl rfl rfl, h.inv.nodup, h.inv.sub,
    h.inv.count⟩, ⟨h.shown.count, h.shown.row⟩, ⟨h.selected.nodup, h.selected.item⟩, ?_⟩
  exact ⟨h.bars.recvTotal, h.bars.sendTotal, h.bars.recvIdx, h.bars.sendIdx, h.bars.recvLt,
    h.bars.sendLt, h.bars.asserted⟩

theorem watched_step {earlier : List MsgPtr} {s : ActiveApp φ α σ}
    (h : Window.Watched earlier s.win) {ev : ActivityEvent φ α σ} (hfresh : ev.Fresh earlier) :
    Window.Watched (ActivityEvent.seen earlier ev) (s.step ev).win := by
  cases ev with
  | window ev =>
      rw [step_win]
      exact h.step ev hfresh
  | configure load =>
      rw [ActivityEvent.seen, ActivityEvent.ptrs, List.append_nil]
      exact watched_configure h load

theorem watched_applyNewPlugins {earlier : List MsgPtr} {s : ActiveApp φ α σ}
    (h : Window.Watched earlier s.win) (plugins : List PluginInfoPtr) :
    Window.Watched earlier (s.applyNewPlugins plugins).1.win := by
  have hfresh : (WindowEvent.app (.applyNewPlugins plugins)).Fresh earlier :=
    ⟨List.nodup_nil, List.disjoint_nil_right earlier⟩
  have hstep := h.step _ hfresh
  rw [WindowEvent.seen, show (WindowEvent.app (.applyNewPlugins plugins)).ptrs = [] from rfl,
    List.append_nil] at hstep
  rw [applyNewPlugins_win]
  exact hstep

/-- Nothing is stopped or unloaded in an inactive application. -/
theorem FullyInactive.furtherCallsAsserted {earlier : List MsgPtr} {s : ActiveApp φ α σ}
    (h : s.FullyInactive) (hw : Window.Watched earlier s.win)
    (hnd : s.pluginMgr.m_plugins.Nodup) : s.FurtherCallsAsserted := by
  intro load plugins hne hload
  have hwin : s.forgetAsserted.win = s.win := by
    have hasserted := hw.bars.asserted
    unfold forgetAsserted
    rw [← hasserted]
  have hnil := ToolsPluginMgr.hasAppliedPlugins_eq_false.mp h.applied
  have hw' : Window.Watched earlier s.forgetAsserted.win := by
    rw [hwin]
    exact hw
  have hcall := watched_applyNewPlugins (watched_configure hw' load) plugins
  have hmgr : (s.forgetAsserted.configure load).pluginMgr =
      { s.pluginMgr with loadPlugin := load } := rfl
  have hasserted : ((s.forgetAsserted.configure load).applyNewPlugins plugins).1.asserted =
      true := by
    refine (applyNewPlugins_asserted hne ?_ ?_ ?_ ?_).1
    · rw [hmgr]
      exact hload
    · rw [hmgr]
      exact h.running.trans h.applied.symm
    · rw [hmgr]
      exact hnd
    · have hnil' : (s.forgetAsserted.configure load).pluginMgr.m_appliedPlugins = [] := hnil
      rw [hnil']
      exact fun info hinfo => absurd hinfo List.not_mem_nil
  rw [allAsserted, hcall.bars.asserted, hasserted]
  rfl

/-- **The condition is the exact one** for a call in a steady application. -/
theorem Steady.failsSafely_iff_setsUpOrGivesUp {earlier : List MsgPtr} {s : ActiveApp φ α σ}
    (h : s.Steady) (hw : Window.Watched earlier s.win) (ev : ActivityEvent φ α σ) :
    s.FailsSafely ev ↔ s.SetsUpOrGivesUp ev := by
  refine forall₂_congr fun plugins _ => ?_
  rcases s.applyNewPlugins_cases plugins with ⟨hs, hdone, -⟩ | ⟨hs, hfailed, -⟩
  · exact iff_of_true (fun hf => by rw [hdone] at hf; cases hf) (.inl hs)
  · constructor
    · intro hsafe
      exact .inr (h.givesUp hs (hsafe hfailed).1)
    · intro hK _
      have hg := hK.resolve_left (by rw [hs]; exact Bool.false_ne_true)
      have hi := h.fullyInactive hs hg
      refine ⟨.inr hi, hi.furtherCallsAsserted (watched_applyNewPlugins hw plugins) ?_⟩
      rw [applyNewPlugins_plugins]
      exact h.plugins

/-- The state of a run in which the callers see to their lists. -/
structure Sound (earlier : List MsgPtr) (s : ActiveApp φ α σ) : Prop where
  steady : s.Steady
  watched : Window.Watched earlier s.win
  loaded : ∀ info ∈ s.pluginMgr.m_appliedPlugins, s.loaded info = true
  asserted : s.asserted = true

theorem Sound.step {earlier : List MsgPtr} {s : ActiveApp φ α σ} (h : Sound earlier s)
    {ev : ActivityEvent φ α σ} (hfresh : ev.Fresh earlier) (hK : s.SetsUpOrGivesUp ev)
    (hlegal : s.LegalCall ev) : Sound (ActivityEvent.seen earlier ev) (s.step ev) := by
  have hsteady := h.steady.step hK
  have hwatched := watched_step h.watched hfresh
  cases ev with
  | configure load => exact ⟨hsteady, hwatched, h.loaded, h.asserted⟩
  | window ev =>
      by_cases hev : ∃ plugins, ev = .app (.applyNewPlugins plugins)
      · obtain ⟨plugins, rfl⟩ := hev
        obtain ⟨hne, hload⟩ := hlegal plugins rfl
        obtain ⟨hasserted, hloaded⟩ := applyNewPlugins_asserted hne hload h.steady.running
          h.steady.plugins h.loaded
        refine ⟨hsteady, hwatched, fun info hinfo => ?_, hasserted.trans h.asserted⟩
        have hinfo' : info ∈ (s.applyNewPlugins plugins).1.pluginMgr.m_appliedPlugins := hinfo
        rcases s.applyNewPlugins_cases plugins with ⟨-, hdone, -, happlied⟩ | ⟨hs, -⟩
        · rw [happlied] at hinfo'
          exact hloaded hdone info hinfo'
        · have hg := (hK plugins rfl).resolve_left (by rw [hs]; exact Bool.false_ne_true)
          have hi := h.steady.fullyInactive hs hg
          rw [ToolsPluginMgr.hasAppliedPlugins_eq_false.mp hi.applied] at hinfo'
          cases hinfo'
      · obtain ⟨hstep, hmgr, -⟩ := step_window fun plugins e => hev ⟨plugins, e⟩
        have hmgr' : (s.step (.window ev)).pluginMgr = s.pluginMgr := by
          rw [hstep]
          exact hmgr
        refine ⟨hsteady, hwatched, ?_, ?_⟩
        · rw [hmgr', hstep]
          exact h.loaded
        · rw [hstep]
          exact h.asserted

/-- **A failed call leaves a consistent state** in exactly the runs whose every call gets a list
that gives a socket and a protocol, or that unloads every applied plugin; and in such a run no
assertion fails. -/
theorem failsSafely_iff (g : GuiAppMgr φ α σ) (hg : g.Started) (hcount : g.m_sendListCount = 0)
    (happlied : g.pluginMgr.m_appliedPlugins = []) (hprotocol : g.msgMgr.m_protocol = none)
    (hplugins : g.pluginMgr.m_plugins.Nodup) (evs : List (ActivityEvent φ α σ))
    (hnd : (evs.flatMap ActivityEvent.ptrs).Nodup) :
    (Runs.Along step { win := { gui := g } } evs FailsSafely ↔
        Runs.Along step { win := { gui := g } } evs SetsUpOrGivesUp) ∧
      (Runs.Along step { win := { gui := g } } evs SetsUpOrGivesUp →
        Runs.Along step { win := { gui := g } } evs LegalCall →
          Runs.Always step { win := { gui := g } } evs fun s => s.allAsserted = true) := by
  have hnone := ToolsPluginMgr.hasAppliedPlugins_eq_false.mpr happlied
  have hsteady : Steady (φ := φ) (α := α) (σ := σ) { win := { gui := g } } :=
    ⟨hnone.symm, hplugins, fun _ => ⟨by simp, hprotocol⟩⟩
  have hwatched := Window.watched_start hg hcount
  have hfresh : Runs.Along ActivityEvent.seen [] evs ActivityEvent.Fresh :=
    Runs.along_fresh (by simpa using hnd)
  constructor
  · have hstep : ∀ earlier (s : ActiveApp φ α σ) (ev : ActivityEvent φ α σ), ev.Fresh earlier →
        (s.Steady ∧ Window.Watched earlier s.win) → s.SetsUpOrGivesUp ev → ((s.step ev).Steady ∧
          Window.Watched (ActivityEvent.seen earlier ev) (s.step ev).win) :=
      fun earlier s ev hfresh h hK => ⟨h.1.step hK, watched_step h.2 hfresh⟩
    exact Runs.along_iff_along hstep
      (fun earlier s ev _ h => h.1.failsSafely_iff_setsUpOrGivesUp h.2 ev)
      ⟨hsteady, hwatched⟩ hfresh
  · intro hK hlegal
    have hstep : ∀ earlier (s : ActiveApp φ α σ) (ev : ActivityEvent φ α σ), ev.Fresh earlier →
        Sound earlier s → (s.SetsUpOrGivesUp ev ∧ s.LegalCall ev) →
          Sound (ActivityEvent.seen earlier ev) (s.step ev) :=
      fun earlier s ev hfresh h hcall => h.step hfresh hcall.1 hcall.2
    have hstart : Sound (φ := φ) (α := α) (σ := σ) [] { win := { gui := g } } := by
      refine ⟨hsteady, hwatched, ?_, rfl⟩
      rw [show ({ win := { gui := g } } : ActiveApp φ α σ).pluginMgr.m_appliedPlugins = []
        from happlied]
      exact fun info hinfo => absurd hinfo List.not_mem_nil
    refine Runs.always_of_along hstep (fun earlier s h => ?_) hstart hfresh
      fun pre ev post heq => ⟨hK pre ev post heq, hlegal pre ev post heq⟩
    rw [allAsserted, h.asserted, h.watched.bars.asserted]
    rfl

/-! ### A plugin without a socket -/

/-- Plugin 0 gives a socket, plugin 1 a protocol and plugin 2 neither. -/
def threePlugins : GuiAppMgr Unit UInt8 Unit where
  classes := syncFrame.classes
  msgMgr := { objs := fun _ => { body := .prot () 0 } }
  pluginMgr :=
    { isProtocolType := fun info => info = 1
      loadPlugin := fun info => some
        { createSocket := info = 0, createFilter := none
          createProtocol := if info = 1 then some ToolsProtocol.syncProtocol else none }
      m_plugins := [0, 1, 2] }

def applyEvents (lists : List (List PluginInfoPtr)) : List (ActivityEvent Unit UInt8 Unit) :=
  lists.map fun plugins => .window (.app (.applyNewPlugins plugins))

/-- A list that gives up the applied plugins is applied, and the old one once more. -/
theorem failsSafely_iff_given_up :
    (({ win := { gui := threePlugins } } : ActiveApp Unit UInt8 Unit).applyNewPlugins [2]).2 =
        false ∧
      Runs.Along step { win := { gui := threePlugins } } (applyEvents [[0, 1], [2], [0, 1]])
        FailsSafely ∧
      Runs.Always step { win := { gui := threePlugins } } (applyEvents [[0, 1], [2], [0, 1]])
        fun s => s.allAsserted = true := by
  have hstarted : threePlugins.Started := ⟨rfl, rfl, rfl, rfl, rfl, rfl⟩
  have h := failsSafely_iff threePlugins hstarted rfl rfl rfl (by decide)
    (applyEvents [[0, 1], [2], [0, 1]]) (by decide)
  have hK : Runs.Along step { win := { gui := threePlugins } } (applyEvents [[0, 1], [2], [0, 1]])
      SetsUpOrGivesUp := by
    refine Runs.along_cons.mpr ⟨?_, Runs.along_cons.mpr ⟨?_, Runs.along_cons.mpr ⟨?_,
      Runs.along_nil⟩⟩⟩
    · rintro plugins ⟨⟩
      exact .inl rfl
    · rintro plugins ⟨⟩
      exact .inr ⟨by decide, by decide⟩
    · rintro plugins ⟨⟩
      exact .inl rfl
  have hlegal : Runs.Along step { win := { gui := threePlugins } }
      (applyEvents [[0, 1], [2], [0, 1]]) LegalCall := by
    refine Runs.along_cons.mpr ⟨?_, Runs.along_cons.mpr ⟨?_, Runs.along_cons.mpr ⟨?_,
      Runs.along_nil⟩⟩⟩
    all_goals
      rintro plugins ⟨⟩
      exact ⟨List.cons_ne_nil _ _, fun _ _ => rfl⟩
  exact ⟨rfl, h.1.mpr hK, h.2 hK hlegal⟩

def appliedPlugins : ActiveApp Unit UInt8 Unit :=
  (applyEvents [[0, 1]]).foldl step { win := { gui := threePlugins } }

/-- Plugin 2 comes in the place of plugin 0. -/
def halfStopped : ActiveApp Unit UInt8 Unit := (appliedPlugins.applyNewPlugins [2, 1]).1

/-- Plugin 1 stays applied while nothing runs, and the next call stops a manager that does not
run. -/
theorem failed_call_half_stopped :
    (appliedPlugins.applyNewPlugins [2, 1]).2 = false ∧
      ¬ appliedPlugins.StillActive halfStopped ∧ ¬ halfStopped.FullyInactive ∧
      halfStopped.m_running = false ∧ halfStopped.getActivityState = .Active ∧
      halfStopped.allAsserted = true ∧
      (halfStopped.applyNewPlugins [0, 1]).1.asserted = false ∧
      ¬ Runs.Along step { win := { gui := threePlugins } } (applyEvents [[0, 1], [2, 1]])
        FailsSafely := by
  have hfailed : (appliedPlugins.applyNewPlugins [2, 1]).2 = false := rfl
  have hrunning : halfStopped.m_running = false := rfl
  have hstill : ¬ appliedPlugins.StillActive halfStopped := by
    intro h
    have hrun := h.running
    rw [hrunning] at hrun
    cases hrun
  have happlied : halfStopped.pluginMgr.hasAppliedPlugins = true := rfl
  have hinactive : ¬ halfStopped.FullyInactive := by
    intro h
    have hnone := h.applied
    rw [happlied] at hnone
    cases hnone
  refine ⟨hfailed, hstill, hinactive, hrunning, rfl, rfl, rfl, fun h => ?_⟩
  have hcall : appliedPlugins.FailsSafely (.window (.app (.applyNewPlugins [2, 1]))) :=
    (Runs.along_cons.mp (Runs.along_cons.mp h).2).1
  exact (hcall [2, 1] rfl hfailed).1.elim hstill hinactive

end ActiveApp

end CcToolsQt
