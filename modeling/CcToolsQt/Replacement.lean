import CcToolsQt.Clones
import CcToolsQt.GuiHolds
import CcToolsQt.SendCount

/-! # Replacing the protocol

`App` is the application with its scheduler `m_sendMgr`: the send buttons, the timer of the
scheduler and `applyNewPlugins` in any order.  `applyNewPlugins` never stops the scheduler, and a
parked message is only given up when a message is displayed, so both may outlive the protocol that
made them.

`maker` and `installed` are not part of the program: `maker` is the plugin whose protocol made a
message, `installed` the one whose protocol the message manager has.

* `Released`: nothing made by a plugin is held as it is unloaded; `LeavesNothing` is this along a
  run, with every message handed to `sendMsgs` made by the protocol installed then.
* `replacement_leaves_nothing`: the runs in which no message is parked and nothing is being sent as
  a protocol is replaced. -/

namespace CcToolsQt

/-! ### The plugins of a list -/

namespace ToolsPluginMgr
variable {φ α σ : Type}

theorem hasAppliedPlugins_eq_false {m : ToolsPluginMgr φ α σ} :
    m.hasAppliedPlugins = false ↔ m.m_appliedPlugins = [] := by
  simp [hasAppliedPlugins]

def createdProtocol (m : ToolsPluginMgr φ α σ) (info : PluginInfoPtr) :
    Option (ToolsProtocol φ α) :=
  (m.loadPlugin info).bind ToolsPlugin.createProtocol

/-- The plugin of a list the protocol is taken from. -/
def protocolPlugin (m : ToolsPluginMgr φ α σ) (infos : List PluginInfoPtr) :
    Option PluginInfoPtr :=
  infos.find? fun info => (m.createdProtocol info).isSome

def createsSocket (m : ToolsPluginMgr φ α σ) (info : PluginInfoPtr) : Bool :=
  (m.loadPlugin info).any ToolsPlugin.createSocket

/-- A list gives a socket and a protocol. -/
def setsUp (m : ToolsPluginMgr φ α σ) (infos : List PluginInfoPtr) : Bool :=
  infos.any m.createsSocket && (m.protocolPlugin infos).isSome

/-- The applied plugins a new list unloads. -/
def Unloads (m : ToolsPluginMgr φ α σ) (infos : List PluginInfoPtr) (info : PluginInfoPtr) : Prop :=
  m.needsReload infos = true ∧ info ∈ m.m_plugins ∧ info ∉ infos ∧ info ∈ m.m_appliedPlugins

end ToolsPluginMgr

namespace GuiAppMgr
variable {φ α σ : Type}

/-- `applyNewPlugins` until it unloads plugins. -/
def beforeUnload (g : GuiAppMgr φ α σ) (plugins : List PluginInfoPtr) : GuiAppMgr φ α σ :=
  let hasApplied := g.pluginMgr.hasAppliedPlugins
  let needsReload := g.pluginMgr.needsReload plugins
  let g :=
    if 0 < g.m_sendListCount ∧ g.pluginMgr.isProtocolChanging plugins then g.sendClearClicked
    else g
  let g := if hasApplied ∧ needsReload then g.dropAllMsgs else g
  if hasApplied then { g with msgMgr := g.msgMgr.clear } else g

theorem applyNewPlugins_eq (g : GuiAppMgr φ α σ) (plugins : List PluginInfoPtr) :
    g.applyNewPlugins plugins =
      (g.beforeUnload plugins).setupPlugins plugins false (g.pluginMgr.needsReload plugins) := by
  unfold applyNewPlugins beforeUnload setupPlugins
  rfl

end GuiAppMgr

/-! ### The application and its scheduler -/

/-- One message passed to the send callback: the pointer it gets, what `write()` returns for it,
what is sent from inside `messageSentReport()` and the clock. -/
structure Answer where
  msg : MsgPtr
  write : Option ToolsDataInfo
  requests : List SendReq
  now : ℕ

def Answer.request (a : Answer) : SendReq := .mk (some a.msg) a.write a.requests a.now

/-- A message handed to `sendMsgs`: the plugin whose protocol made it, and the one whose protocol
is installed. -/
structure Sending where
  maker : Option PluginInfoPtr
  installed : Option PluginInfoPtr
  deriving DecidableEq

/-- `GuiAppMgr` with `m_sendMgr`; `m_protocol` is the protocol of the scheduler with its plugin. -/
structure App (φ α σ : Type) where
  gui : GuiAppMgr φ α σ
  m_sendMgr : SendMgr φ α := {}
  m_protocol : Option (PluginInfoPtr × ToolsProtocol φ α) := none
  installed : Option PluginInfoPtr := none
  maker : MsgPtr → Option PluginInfoPtr := fun _ => none
  sendings : List Sending := []

/-- What happens to the application; the `k`-th message a batch of the scheduler sends meets the
`k`-th answer. -/
inductive AppEvent where
  | gui (ev : GuiEvent)
  | sendStartClicked (answers : ℕ → Answer)
  | sendStartAllClicked (answers : ℕ → Answer)
  | sendStopClicked
  | sendTimeout (answers : ℕ → Answer)

/-- The messages the protocol passes to `sendMsgs` in an event. -/
def GuiEvent.sends : GuiEvent → List MsgPtr
  | socketDataReceived _ reads => reads.flatten.flatMap fun m => SendReq.allPtrs m.requests
  | sendMsgs msgs => SendReq.allPtrs msgs
  | _ => []

namespace App
variable {φ α σ : Type}

/-- Messages passed to `sendMsgs` are recorded. -/
def record (a : App φ α σ) (msgs : List MsgPtr) : App φ α σ :=
  { a with sendings := a.sendings ++ msgs.map fun p => ⟨a.maker p, a.installed⟩ }

/-- New messages of a protocol. -/
def make (a : App φ α σ) (msgs : List MsgPtr) (info : Option PluginInfoPtr) : App φ α σ :=
  { a with maker := fun p => if p ∈ msgs then info else a.maker p }

/-- The plugin whose protocol is installed after `applyNewPlugins`. -/
def outcome (a : App φ α σ) (plugins : List PluginInfoPtr) : Option PluginInfoPtr :=
  if a.gui.pluginMgr.setsUp plugins then a.gui.pluginMgr.protocolPlugin plugins
  else if a.gui.pluginMgr.hasAppliedPlugins then none
  else a.installed

def applyNewPlugins (a : App φ α σ) (plugins : List PluginInfoPtr) : App φ α σ :=
  { a with gui := a.gui.applyNewPlugins plugins, installed := a.outcome plugins }

/-- An event without the scheduler; there is no message without a protocol that makes it. -/
def guiStep (a : App φ α σ) : GuiEvent → App φ α σ
  | .applyNewPlugins plugins => a.applyNewPlugins plugins
  | ev =>
      if a.installed.isNone && !ev.ptrs.isEmpty then a
      else ({ a with gui := a.gui.step ev }.make ev.ptrs a.installed).record ev.sends

/-- The messages of a batch behind the pointers they get. -/
def putObjs (objs : MsgPtr → ToolsMessage φ α) (batch : List (ToolsMessage φ α))
    (answers : ℕ → Answer) : MsgPtr → ToolsMessage φ α :=
  batch.zipIdx.foldl (fun objs e => Function.update objs (answers e.2).msg e.1) objs

/-- The send callback: the protocol of the scheduler made the messages, the installed one makes
those sent from inside `messageSentReport()`. -/
def sendBatch (a : App φ α σ) (batch : List (ToolsMessage φ α)) (answers : ℕ → Answer) :
    App φ α σ :=
  let reqs := (List.range batch.length).map fun i => (answers i).request
  let g := { a.gui with
    msgMgr := { a.gui.msgMgr with objs := putObjs a.gui.msgMgr.objs batch answers } }
  let a := a.make (SendReq.allPtrs reqs) a.installed
  let a := a.make ((List.range batch.length).map fun i => (answers i).msg)
    (a.m_protocol.map Prod.fst)
  { a with gui := g.step (.sendMsgs reqs) }.record (SendReq.allPtrs reqs)

/-- `stop`. -/
def stop (a : App φ α σ) : App φ α σ :=
  { a with
    m_sendMgr := { a.m_sendMgr with m_msgsToSend := [], m_timer := none }
    m_protocol := none }

/-- The scheduler has had its turn: its batch is sent, and it is stopped if nothing is left. -/
def sendPending (a : App φ α σ) (s : SendMgr φ α) (batch : List (ToolsMessage φ α))
    (answers : ℕ → Answer) : App φ α σ :=
  let a := { a with m_sendMgr := s }.sendBatch batch answers
  if s.m_msgsToSend.isEmpty then a.stop else a

/-- `sendMessages`; the assertion of `start` is that the scheduler is idle. -/
def sendMessages (a : App φ α σ) (msgs : List (ToolsMessage φ α)) (answers : ℕ → Answer) :
    App φ α σ :=
  if !a.m_sendMgr.m_msgsToSend.isEmpty then a
  else
    match a.installed, a.gui.msgMgr.m_protocol with
    | some info, some P =>
        let s := SendMgr.start P msgs
        { a with m_protocol := some (info, P) }.sendPending s (s.batches.flatMap Prod.snd) answers
    | _, _ => a

/-- The current message of the send list is sent. -/
def sendStartClicked (a : App φ α σ) (answers : ℕ → Answer) : App φ α σ :=
  match a.gui.sendList.currentItem with
  | some msg => a.sendMessages [a.gui.msgMgr.objs msg] answers
  | none => a

/-- The whole send list is sent. -/
def sendStartAllClicked (a : App φ α σ) (answers : ℕ → Answer) : App φ α σ :=
  if a.gui.sendList.items.isEmpty then a
  else a.sendMessages (a.gui.sendList.items.map a.gui.msgMgr.objs) answers

/-- The timer of the scheduler fires. -/
def sendTimeout (a : App φ α σ) (answers : ℕ → Answer) : App φ α σ :=
  match a.m_protocol with
  | none => a
  | some (_, P) =>
      let s := a.m_sendMgr.timeout P
      a.sendPending s ((s.batches.drop a.m_sendMgr.batches.length).flatMap Prod.snd) answers

def step (a : App φ α σ) : AppEvent → App φ α σ
  | .gui ev => a.guiStep ev
  | .sendStartClicked answers => a.sendStartClicked answers
  | .sendStartAllClicked answers => a.sendStartAllClicked answers
  | .sendStopClicked => a.stop
  | .sendTimeout answers => a.sendTimeout answers

def run (a : App φ α σ) (evs : List AppEvent) : App φ α σ := evs.foldl step a

/-! ### What is left of a protocol -/

/-- Something holds at every call of `applyNewPlugins` in a run. -/
def AtCalls (C : App φ α σ → List PluginInfoPtr → Prop) : App φ α σ → List AppEvent → Prop
  | _, [] => True
  | a, ev :: evs =>
      (∀ plugins, ev = .gui (.applyNewPlugins plugins) → C a plugins) ∧ AtCalls C (a.step ev) evs

/-- The condition on a call of `applyNewPlugins`: nothing is being sent, unless the installed
protocol stays; and where its plugin is unloaded or another protocol comes, the change is one of the
protocol plugin and no message is parked. -/
structure Settled (a : App φ α σ) (plugins : List PluginInfoPtr) : Prop where
  idle : a.outcome plugins ≠ a.installed → a.m_protocol = none
  parked : ∀ info, a.gui.pluginMgr.protocolPlugin a.gui.pluginMgr.m_appliedPlugins = some info →
    a.gui.pluginMgr.Unloads plugins info ∨
        (a.gui.pluginMgr.setsUp plugins = true ∧
          a.gui.pluginMgr.protocolPlugin plugins ≠ some info) →
      a.gui.pluginMgr.isProtocolChanging plugins = true ∧ a.gui.m_pendingDisplayMsg = none

/-- A just launched application. -/
structure Launched (a : App φ α σ) : Prop where
  held : a.gui.held = []
  sendShown : a.gui.SendShown
  applied : a.gui.pluginMgr.m_appliedPlugins = []
  manager : a.gui.msgMgr.m_protocol = none
  scheduler : a.m_protocol = none
  queue : a.m_sendMgr.m_msgsToSend = []
  installed : a.installed = none
  sendings : a.sendings = []

end App

/-! ### The plugins a call leaves -/

namespace ToolsPluginMgr
variable {φ α σ : Type}

theorem unloadOthers_eq (m : ToolsPluginMgr φ α σ) (infos : List PluginInfoPtr) :
    m.unloadOthers infos = { m with
      m_appliedPlugins := (m.m_plugins.filter fun ptr => !infos.contains ptr).foldl List.erase
        m.m_appliedPlugins } := by
  unfold unloadOthers
  generalize (m.m_plugins.filter fun ptr => !infos.contains ptr) = unloaded
  induction unloaded generalizing m with
  | nil => rfl
  | cons info unloaded ih => exact ih (m.unloadAppliedPlugin info)

/-- Other elements are found as before. -/
theorem find?_erase {p : PluginInfoPtr → Bool} {infos : List PluginInfoPtr}
    {info other : PluginInfoPtr} (h : infos.find? p = some info) (hne : info ≠ other) :
    (infos.erase other).find? p = some info := by
  induction infos with
  | nil => cases h
  | cons x infos ih =>
      rw [List.find?_cons] at h
      rw [List.erase_cons]
      cases hp : p x with
      | true =>
          rw [hp] at h
          obtain rfl : x = info := Option.some.inj h
          have hx : (x == other) = false := by simpa using hne
          rw [hx]
          simp [hp]
      | false =>
          rw [hp] at h
          split_ifs
          · exact h
          · rw [List.find?_cons, hp]
            exact ih h

theorem find?_foldl_erase {p : PluginInfoPtr → Bool} {infos unloaded : List PluginInfoPtr}
    {info : PluginInfoPtr} (h : infos.find? p = some info) (hne : info ∉ unloaded) :
    (unloaded.foldl List.erase infos).find? p = some info := by
  induction unloaded generalizing infos with
  | nil => exact h
  | cons other unloaded ih =>
      rw [List.mem_cons, not_or] at hne
      exact ih (find?_erase h hne.1) hne.2

/-- A plugin that is not unloaded is still the one the protocol was taken from. -/
theorem protocolPlugin_unloadOthers {m : ToolsPluginMgr φ α σ} {infos : List PluginInfoPtr}
    {info : PluginInfoPtr} (h : m.protocolPlugin m.m_appliedPlugins = some info)
    (hr : m.needsReload infos = true) (hu : ¬ m.Unloads infos info) :
    m.protocolPlugin (m.unloadOthers infos).m_appliedPlugins = some info := by
  rw [unloadOthers_eq]
  apply find?_foldl_erase h
  intro hmem
  obtain ⟨hplugins, hinfos⟩ := List.mem_filter.mp hmem
  exact hu ⟨hr, hplugins, by simpa using hinfos, List.mem_of_find?_eq_some h⟩

theorem createdProtocol_congr {m m' : ToolsPluginMgr φ α σ} (h : m'.loadPlugin = m.loadPlugin) :
    m'.createdProtocol = m.createdProtocol := by
  funext info
  rw [createdProtocol, h]
  rfl

theorem protocolPlugin_congr {m m' : ToolsPluginMgr φ α σ} (h : m'.loadPlugin = m.loadPlugin) :
    m'.protocolPlugin = m.protocolPlugin := by
  funext infos
  rw [protocolPlugin, createdProtocol_congr h]
  rfl

theorem protocolPlugin_bind (m : ToolsPluginMgr φ α σ) (infos : List PluginInfoPtr) :
    ((m.protocolPlugin infos).bind m.createdProtocol).isSome =
      (m.protocolPlugin infos).isSome := by
  cases h : m.protocolPlugin infos with
  | none => rfl
  | some info => simpa [Option.isSome_iff_exists] using List.find?_some h

/-- What the loop over the plugins collects. -/
theorem applyInfo_eq (m : ToolsPluginMgr φ α σ) (infos : List PluginInfoPtr)
    (acc : GuiAppMgr.ApplyInfo φ α σ) :
    ((infos.map m.loadPlugin).foldl GuiAppMgr.ApplyInfo.add acc).m_socket =
        (acc.m_socket || infos.any m.createsSocket) ∧
      ((infos.map m.loadPlugin).foldl GuiAppMgr.ApplyInfo.add acc).m_protocol =
        acc.m_protocol.or ((m.protocolPlugin infos).bind m.createdProtocol) := by
  induction infos generalizing acc with
  | nil => simp [protocolPlugin]
  | cons info infos ih =>
      obtain ⟨hsocket, hprotocol⟩ := ih (acc.add (m.loadPlugin info))
      rw [List.map_cons, List.foldl_cons, hsocket, hprotocol]
      cases hl : m.loadPlugin info with
      | none =>
          have hc : m.createdProtocol info = none := by simp [createdProtocol, hl]
          simp [GuiAppMgr.ApplyInfo.add, createsSocket, protocolPlugin, hl, hc]
      | some plugin =>
          have hc : m.createdProtocol info = plugin.createProtocol := by simp [createdProtocol, hl]
          refine ⟨by simp [GuiAppMgr.ApplyInfo.add, createsSocket, hl, Bool.or_assoc], ?_⟩
          cases hp : plugin.createProtocol with
          | none => simp [GuiAppMgr.ApplyInfo.add, protocolPlugin, hc, hp]
          | some P =>
              simp [GuiAppMgr.ApplyInfo.add, protocolPlugin, hc, hp]

/-- The loop collects a socket and a protocol if the list gives them. -/
theorem applyInfo_setsUp (m : ToolsPluginMgr φ α σ) (infos : List PluginInfoPtr) :
    (((infos.map m.loadPlugin).foldl GuiAppMgr.ApplyInfo.add {}).m_socket &&
      ((infos.map m.loadPlugin).foldl GuiAppMgr.ApplyInfo.add {}).m_protocol.isSome) =
        m.setsUp infos := by
  obtain ⟨hsocket, hprotocol⟩ := m.applyInfo_eq infos {}
  rw [hsocket, hprotocol]
  show (infos.any m.createsSocket &&
    ((m.protocolPlugin infos).bind m.createdProtocol).isSome) = _
  rw [protocolPlugin_bind]
  rfl

end ToolsPluginMgr

namespace GuiAppMgr
variable {φ α σ : Type}

/-- The applied plugins and the protocol after `applyNewPlugins`, and what it leaves to be held. -/
structure SetUp (g g' : GuiAppMgr φ α σ) (plugins : List PluginInfoPtr) : Prop where
  held : g'.held = g.held
  loadPlugin : g'.pluginMgr.loadPlugin = g.pluginMgr.loadPlugin
  done : g.pluginMgr.setsUp plugins = true → g'.pluginMgr.m_appliedPlugins = plugins ∧
    g'.msgMgr.m_protocol =
      (g.pluginMgr.protocolPlugin plugins).bind g.pluginMgr.createdProtocol
  failed : g.pluginMgr.setsUp plugins = false →
    g'.msgMgr.m_protocol = g.msgMgr.m_protocol ∧
      g'.pluginMgr.m_appliedPlugins = if g.pluginMgr.needsReload plugins then
        (g.pluginMgr.unloadOthers plugins).m_appliedPlugins else g.pluginMgr.m_appliedPlugins

theorem setupPlugins_setUp (g : GuiAppMgr φ α σ) (plugins : List PluginInfoPtr) :
    SetUp g (g.setupPlugins plugins false (g.pluginMgr.needsReload plugins)) plugins := by
  set m := if g.pluginMgr.needsReload plugins then g.pluginMgr.unloadOthers plugins
    else g.pluginMgr with hm
  have hload : m.loadPlugin = g.pluginMgr.loadPlugin := by
    rw [hm]
    split_ifs
    · rw [ToolsPluginMgr.unloadOthers_eq]
    · rfl
  set info : ApplyInfo φ α σ := (plugins.map m.loadPlugin).foldl ApplyInfo.add {} with hinfo
  obtain ⟨-, hprotocol⟩ := g.pluginMgr.applyInfo_eq plugins {}
  rw [← hload, ← hinfo] at hprotocol
  have hset : g.setupPlugins plugins false (g.pluginMgr.needsReload plugins) =
      if !info.m_socket || info.m_protocol.isNone then { g with pluginMgr := m }
      else { g with
        msgMgr := g.msgMgr.setup info.m_filters info.m_protocol
        pluginMgr := m.setAppliedPlugins plugins } := by
    unfold setupPlugins
    rw [hinfo, hm]
    cases g.pluginMgr.needsReload plugins <;> rfl
  have hsetsUp : (!info.m_socket || info.m_protocol.isNone) = !g.pluginMgr.setsUp plugins := by
    rw [← Option.not_isSome, ← Bool.not_and, ← g.pluginMgr.applyInfo_setsUp plugins, ← hload]
  rw [hset, hsetsUp]
  cases hs : g.pluginMgr.setsUp plugins with
  | true =>
      refine ⟨rfl, hload, fun _ => ⟨rfl, hprotocol⟩, fun h => ?_⟩
      rw [hs] at h
      cases h
  | false =>
      refine ⟨rfl, hload, fun h => ?_, fun _ => ⟨rfl, ?_⟩⟩
      · rw [hs] at h
        cases h
      · show m.m_appliedPlugins = _
        rw [hm]
        split_ifs <;> rfl

/-- What is held as plugins are unloaded. -/
structure BeforeUnload (g g' : GuiAppMgr φ α σ) (plugins : List PluginInfoPtr) : Prop where
  pluginMgr : g'.pluginMgr = g.pluginMgr
  sub : ∀ p ∈ g'.held, p ∈ g.held
  pending : g'.m_pendingDisplayMsg = g.m_pendingDisplayMsg
  protocol : g'.msgMgr.m_protocol =
    if g.pluginMgr.hasAppliedPlugins then none else g.msgMgr.m_protocol
  changed : g.pluginMgr.needsReload plugins = true →
    g.pluginMgr.isProtocolChanging plugins = true → g.SendShown →
      g'.held = g.m_pendingDisplayMsg.toList

theorem sendClearClicked_pending (g : GuiAppMgr φ α σ) :
    g.sendClearClicked.m_pendingDisplayMsg = g.m_pendingDisplayMsg := by
  unfold sendClearClicked
  dsimp only
  split_ifs <;> rfl

/-- A send list that is cleared if it is counted as not empty. -/
theorem sendClearClicked_emptied {g : GuiAppMgr φ α σ} (h : g.SendShown) :
    g.sendClearClicked.sendList.items = [] ∧ g.sendClearClicked.m_selType ≠ .send := by
  unfold sendClearClicked
  dsimp only
  split_ifs with hpos hsel
  · exact ⟨rfl, by simp [clearDisplayedMessage, sendClearSelection]⟩
  · exact ⟨rfl, hsel⟩
  · have hnil : g.sendList.items = [] := by
      rw [← List.length_eq_zero_iff, ← h.count]
      omega
    refine ⟨hnil, fun ht => ?_⟩
    obtain ⟨-, row, -, hrow⟩ := h.row ht
    rw [hnil] at hrow
    exact absurd hrow (Nat.not_lt_zero row)

theorem dropAllMsgs_held {g : GuiAppMgr φ α σ} (h : g.m_selType ≠ .send) :
    g.dropAllMsgs.held = g.sendList.items ++ g.m_pendingDisplayMsg.toList := by
  unfold dropAllMsgs clearRecvList
  cases ht : g.m_selType with
  | send => exact absurd ht h
  | none => simp [held, clearDisplayedMessage, MsgListWidget.clearList, MsgMgr.deleteAllMsgs]
  | recv =>
      simp [held, clearDisplayedMessage, MsgListWidget.clearList, MsgMgr.deleteAllMsgs,
        recvSelectOnAdd, MsgListWidget.selectOnAdd]

theorem beforeUnload_spec (g : GuiAppMgr φ α σ) (plugins : List PluginInfoPtr) :
    BeforeUnload g (g.beforeUnload plugins) plugins := by
  set g₁ := if 0 < g.m_sendListCount ∧ g.pluginMgr.isProtocolChanging plugins then
    g.sendClearClicked else g with h₁
  set g₂ := if g.pluginMgr.hasAppliedPlugins ∧ g.pluginMgr.needsReload plugins then
    g₁.dropAllMsgs else g₁ with h₂
  have hb : g.beforeUnload plugins = if g.pluginMgr.hasAppliedPlugins then
      { g₂ with msgMgr := g₂.msgMgr.clear } else g₂ := rfl
  have ht₁ : Takes [] g g₁ := by
    rw [h₁]
    split_ifs
    · exact (sendClearClicked_kept g).toTakes
    · exact .refl g
  have ht₂ : Takes [] g g₂ := by
    rw [h₂]
    split_ifs
    · exact ht₁.trans (dropAllMsgs_kept g₁).toTakes
    · exact ht₁
  have hp₁ : g₁.m_pendingDisplayMsg = g.m_pendingDisplayMsg := by
    rw [h₁]
    split_ifs
    · exact sendClearClicked_pending g
    · rfl
  have hp₂ : g₂.m_pendingDisplayMsg = g.m_pendingDisplayMsg := by
    rw [h₂]
    split_ifs
    · exact (dropAllMsgs_pending g₁).trans hp₁
    · exact hp₁
  have hheld : (g.beforeUnload plugins).held = g₂.held := by
    rw [hb]
    split_ifs <;> rfl
  refine ⟨?_, fun p hp => ?_, ?_, ?_, fun hreload hchanging hshown => ?_⟩
  · rw [hb, ← ht₂.plugins]
    split_ifs <;> rfl
  · rw [hheld] at hp
    simpa using ht₂.held p hp
  · rw [hb, ← hp₂]
    split_ifs <;> rfl
  · rw [hb, ← ht₂.protocol]
    split_ifs <;> rfl
  · have happlied : g.pluginMgr.hasAppliedPlugins = true := (Bool.and_eq_true_iff.mp hreload).1
    have hclear : g₁ = g.sendClearClicked := by
      rw [h₁]
      split_ifs with hpos
      · rfl
      · have hzero : ¬ 0 < g.m_sendListCount := fun h => hpos ⟨h, hchanging⟩
        unfold sendClearClicked
        rw [if_neg hzero]
    obtain ⟨hsend, htype⟩ := sendClearClicked_emptied hshown
    rw [hheld, h₂, if_pos ⟨happlied, hreload⟩, dropAllMsgs_held (hclear ▸ htype), hclear, hsend,
      sendClearClicked_pending]
    rfl

end GuiAppMgr

namespace App
variable {φ α σ : Type} {a : App φ α σ}

/-! ### The invariant -/

/-- Everything held was made by the protocol of the applied plugins, which is the installed one if
there is one, and the one of the scheduler if it is not idle. -/
structure Owned (a : App φ α σ) : Prop where
  installed : ∀ info, a.installed = some info →
    a.gui.pluginMgr.protocolPlugin a.gui.pluginMgr.m_appliedPlugins = some info
  manager : a.gui.msgMgr.m_protocol = a.installed.bind a.gui.pluginMgr.createdProtocol
  held : ∀ p ∈ a.gui.held, ∃ info, a.maker p = some info ∧
    a.gui.pluginMgr.protocolPlugin a.gui.pluginMgr.m_appliedPlugins = some info
  sendShown : a.gui.SendShown
  scheduler : ∀ info P, a.m_protocol = some (info, P) →
    a.installed = some info ∧ ∃ msgs, SendMgr.ForGiven P msgs a.m_sendMgr
  idle : a.m_protocol = none → a.m_sendMgr.m_msgsToSend = []
  sendings : ∀ e ∈ a.sendings, e.maker = e.installed

theorem Launched.owned (h : a.Launched) : a.Owned where
  installed info hi := by
    rw [h.installed] at hi
    cases hi
  manager := by rw [h.manager, h.installed]; rfl
  held p hp := by
    rw [h.held] at hp
    cases hp
  sendShown := h.sendShown
  scheduler info P hp := by
    rw [h.scheduler] at hp
    cases hp
  idle _ := h.queue
  sendings e he := by
    rw [h.sendings] at he
    cases he

/-- Messages of the installed protocol are made. -/
theorem Owned.make (h : a.Owned) (msgs : List MsgPtr)
    (hm : msgs ≠ [] → a.installed.isSome = true) : (a.make msgs a.installed).Owned where
  installed := h.installed
  manager := h.manager
  held p hp := by
    by_cases hmem : p ∈ msgs
    · obtain ⟨info, hinfo⟩ := Option.isSome_iff_exists.mp (hm (List.ne_nil_of_mem hmem))
      exact ⟨info, by simp [App.make, hmem, hinfo], h.installed info hinfo⟩
    · simpa [App.make, hmem] using h.held p hp
  sendShown := h.sendShown
  scheduler := h.scheduler
  idle := h.idle
  sendings := h.sendings

/-- Messages of the installed protocol are passed to `sendMsgs`. -/
theorem Owned.record (h : a.Owned) {msgs : List MsgPtr}
    (hm : ∀ p ∈ msgs, a.maker p = a.installed) : (a.record msgs).Owned where
  installed := h.installed
  manager := h.manager
  held := h.held
  sendShown := h.sendShown
  scheduler := h.scheduler
  idle := h.idle
  sendings e he := by
    rcases List.mem_append.mp he with he | he
    · exact h.sendings e he
    · obtain ⟨p, hp, rfl⟩ := List.mem_map.mp he
      exact hm p hp

/-- The messages an operation adds to the held ones have been made before. -/
theorem Owned.takes (h : a.Owned) {g : GuiAppMgr φ α σ} {ptrs : List MsgPtr}
    (ht : GuiAppMgr.Takes ptrs a.gui g) (hs : g.SendShown)
    (hp : ∀ p ∈ ptrs, a.maker p = a.installed ∧ a.installed.isSome = true) :
    ({ a with gui := g } : App φ α σ).Owned where
  installed := by
    rw [ht.plugins]
    exact h.installed
  manager := by
    rw [ht.plugins, ht.protocol]
    exact h.manager
  held p hmem := by
    rw [ht.plugins]
    rcases ht.held p hmem with hmem | hmem
    · exact h.held p hmem
    · obtain ⟨hmaker, hsome⟩ := hp p hmem
      obtain ⟨info, hinfo⟩ := Option.isSome_iff_exists.mp hsome
      exact ⟨info, hmaker.trans hinfo, h.installed info hinfo⟩
  sendShown := hs
  scheduler := h.scheduler
  idle := h.idle
  sendings := h.sendings

theorem sends_subset (ev : GuiEvent) : ev.sends ⊆ ev.ptrs := by
  cases ev with
  | socketDataReceived dataInfo reads =>
      intro p hp
      obtain ⟨m, hm, hmem⟩ := List.mem_flatMap.mp hp
      exact List.mem_flatMap.mpr ⟨m, hm, List.mem_cons_of_mem _ hmem⟩
  | sendMsgs msgs => exact List.Subset.refl _
  | _ => exact List.nil_subset _

/-- An event that applies no plugins. -/
theorem Owned.guiStep (h : a.Owned) {ev : GuiEvent}
    (hev : ∀ plugins, ev ≠ .applyNewPlugins plugins) : (a.guiStep ev).Owned := by
  have he : a.guiStep ev = if a.installed.isNone && !ev.ptrs.isEmpty then a
      else ({ a with gui := a.gui.step ev }.make ev.ptrs a.installed).record ev.sends := by
    cases ev with
    | applyNewPlugins plugins => exact absurd rfl (hev plugins)
    | _ => rfl
  rw [he]
  split_ifs with hgate
  · exact h
  · have hsome : ev.ptrs ≠ [] → a.installed.isSome = true := by
      intro hne
      by_contra hnone
      apply hgate
      simp_all
    have hmake : ∀ p ∈ ev.ptrs, (a.make ev.ptrs a.installed).maker p = a.installed := by
      intro p hp
      simp [App.make, hp]
    have hstep := (h.make ev.ptrs hsome).takes (GuiAppMgr.step_takes a.gui ev hev)
      (h.sendShown.step ev) fun p hp => ⟨hmake p hp, hsome (List.ne_nil_of_mem hp)⟩
    exact hstep.record fun p hp => hmake p (sends_subset ev hp)

/-- A batch of the scheduler, whose protocol is the installed one. -/
theorem Owned.sendBatch (h : a.Owned) {info : PluginInfoPtr} {P : ToolsProtocol φ α}
    (hp : a.m_protocol = some (info, P)) (batch : List (ToolsMessage φ α))
    (answers : ℕ → Answer) : (a.sendBatch batch answers).Owned := by
  have hin : a.installed = some info := (h.scheduler info P hp).1
  have hmap : a.m_protocol.map Prod.fst = a.installed := by
    rw [hp, hin]
    rfl
  have hsome : a.installed.isSome = true := by simp [hin]
  unfold App.sendBatch
  dsimp only
  set reqs := (List.range batch.length).map fun i => (answers i).request
  set clones := (List.range batch.length).map fun i => (answers i).msg
  set g : GuiAppMgr φ α σ := { a.gui with
    msgMgr := { a.gui.msgMgr with objs := putObjs a.gui.msgMgr.objs batch answers } }
  have hg : GuiAppMgr.Takes (SendReq.allPtrs reqs) a.gui (g.step (.sendMsgs reqs)) := by
    have hobjs : GuiAppMgr.Takes (SendReq.allPtrs reqs) a.gui g :=
      ⟨rfl, rfl, fun _ hx => .inl hx⟩
    exact hobjs.trans (GuiAppMgr.step_takes g (.sendMsgs reqs) (by simp))
  have hshown : (g.step (.sendMsgs reqs)).SendShown := by
    apply GuiAppMgr.SendShown.step
    exact h.sendShown.congr rfl rfl rfl rfl
  have hmade := (h.make (SendReq.allPtrs reqs) fun _ => hsome).make clones fun _ => hsome
  have hmaker : ∀ p ∈ SendReq.allPtrs reqs,
      ((a.make (SendReq.allPtrs reqs) a.installed).make clones a.installed).maker p =
        a.installed := by
    intro p hmem
    simp [App.make, hmem]
  have hstep := (hmade.takes hg hshown fun p hmem => ⟨hmaker p hmem, hsome⟩).record
    hmaker
  have hmap' : (a.make (SendReq.allPtrs reqs) a.installed).m_protocol.map Prod.fst =
      a.installed := hmap
  rw [hmap']
  exact hstep

theorem Owned.stop (h : a.Owned) : a.stop.Owned where
  installed := h.installed
  manager := h.manager
  held := h.held
  sendShown := h.sendShown
  scheduler info P hp := by cases hp
  idle _ := rfl
  sendings := h.sendings

/-- The scheduler goes on, or starts, with clones of the installed protocol. -/
theorem Owned.sendPending (h : a.Owned) {info : PluginInfoPtr} {P : ToolsProtocol φ α}
    (hin : a.installed = some info) {s : SendMgr φ α}
    (hs : ∃ msgs, SendMgr.ForGiven P msgs s) (batch : List (ToolsMessage φ α))
    (answers : ℕ → Answer) :
    ({ a with m_protocol := some (info, P) }.sendPending s batch answers).Owned := by
  have hsched : ({ a with m_protocol := some (info, P), m_sendMgr := s } : App φ α σ).Owned :=
    { h with
      scheduler := fun info' P' hp => by
        cases hp
        exact ⟨hin, hs⟩
      idle := fun hp => by cases hp }
  have hp : ({ a with m_protocol := some (info, P), m_sendMgr := s } : App φ α σ).m_protocol =
      some (info, P) := rfl
  have hbatch := hsched.sendBatch hp batch answers
  unfold App.sendPending
  dsimp only
  split_ifs
  · exact hbatch.stop
  · exact hbatch

theorem Owned.sendMessages (h : a.Owned) (msgs : List (ToolsMessage φ α))
    (answers : ℕ → Answer) : (a.sendMessages msgs answers).Owned := by
  unfold App.sendMessages
  split_ifs
  · exact h
  · split
    · rename_i info P hin _
      exact h.sendPending hin ⟨msgs, SendMgr.run_forGiven P msgs 0⟩ _ answers
    · exact h

theorem Owned.sendTimeout (h : a.Owned) (answers : ℕ → Answer) :
    (a.sendTimeout answers).Owned := by
  unfold App.sendTimeout
  split
  · exact h
  · rename_i info P hp
    obtain ⟨hin, msgs, hmsgs⟩ := h.scheduler info P hp
    have htimeout : SendMgr.ForGiven P msgs (a.m_sendMgr.timeout P) := by
      unfold SendMgr.timeout
      split
      · exact hmsgs
      · apply SendMgr.sendPendingAndWait_forGiven
        exact ⟨hmsgs.queued, hmsgs.sent⟩
    have hstep := h.sendPending hin ⟨msgs, htimeout⟩
      (((a.m_sendMgr.timeout P).batches.drop a.m_sendMgr.batches.length).flatMap Prod.snd) answers
    rw [← hp] at hstep
    exact hstep

/-! ### One call of `applyNewPlugins` -/

/-- What is held as plugins are unloaded was made by the protocol of the applied plugins. -/
theorem Owned.heldBefore (h : a.Owned) (plugins : List PluginInfoPtr) :
    ∀ p ∈ (a.gui.beforeUnload plugins).held, ∃ info, a.maker p = some info ∧
      a.gui.pluginMgr.protocolPlugin a.gui.pluginMgr.m_appliedPlugins = some info :=
  fun p hp => h.held p ((a.gui.beforeUnload_spec plugins).sub p hp)

/-- Nothing is held if the protocol goes as the condition says. -/
theorem Owned.held_nil (h : a.Owned) {plugins : List PluginInfoPtr} (hs : a.Settled plugins)
    {info : PluginInfoPtr}
    (hinfo : a.gui.pluginMgr.protocolPlugin a.gui.pluginMgr.m_appliedPlugins = some info)
    (hreload : a.gui.pluginMgr.needsReload plugins = true)
    (hgoes : a.gui.pluginMgr.Unloads plugins info ∨ (a.gui.pluginMgr.setsUp plugins = true ∧
      a.gui.pluginMgr.protocolPlugin plugins ≠ some info)) :
    (a.gui.beforeUnload plugins).held = [] := by
  obtain ⟨hchanging, hparked⟩ := hs.parked info hinfo hgoes
  rw [(a.gui.beforeUnload_spec plugins).changed hreload hchanging h.sendShown, hparked]
  rfl

/-- What a call leaves behind, in terms of the plugins before it. -/
theorem applyNewPlugins_setUp (g : GuiAppMgr φ α σ) (plugins : List PluginInfoPtr) :
    (g.beforeUnload plugins).SetUp (g.applyNewPlugins plugins) plugins := by
  have h := (g.beforeUnload plugins).setupPlugins_setUp plugins
  rw [(g.beforeUnload_spec plugins).pluginMgr] at h
  rw [g.applyNewPlugins_eq plugins]
  exact h

/-- A plugin that made what is still held after a call is still applied. -/
theorem Owned.keeps (h : a.Owned) {plugins : List PluginInfoPtr} (hs : a.Settled plugins)
    {p : MsgPtr} (hp : p ∈ (a.gui.beforeUnload plugins).held) {info : PluginInfoPtr}
    (hinfo : a.gui.pluginMgr.protocolPlugin a.gui.pluginMgr.m_appliedPlugins = some info) :
    a.gui.pluginMgr.protocolPlugin (a.gui.applyNewPlugins plugins).pluginMgr.m_appliedPlugins =
      some info := by
  have hset := applyNewPlugins_setUp a.gui plugins
  have hmgr := (a.gui.beforeUnload_spec plugins).pluginMgr
  have hgone : ¬ (a.gui.pluginMgr.needsReload plugins = true ∧
      (a.gui.pluginMgr.Unloads plugins info ∨ (a.gui.pluginMgr.setsUp plugins = true ∧
        a.gui.pluginMgr.protocolPlugin plugins ≠ some info))) := by
    rintro ⟨hreload, hgoes⟩
    rw [h.held_nil hs hinfo hreload hgoes] at hp
    cases hp
  cases hsets : a.gui.pluginMgr.setsUp plugins with
  | true =>
      rw [(hset.done (by rw [hmgr]; exact hsets)).1]
      by_contra hne
      apply hgone
      refine ⟨?_, .inr ⟨hsets, hne⟩⟩
      -- the lists differ, as they give different protocols
      unfold ToolsPluginMgr.needsReload
      have hmem := List.mem_of_find?_eq_some hinfo
      have hdiff : a.gui.pluginMgr.m_appliedPlugins ≠ plugins := fun e => hne (e ▸ hinfo)
      simp [hdiff, List.ne_nil_of_mem hmem]
  | false =>
      obtain ⟨-, happlied⟩ := hset.failed (by rw [hmgr]; exact hsets)
      rw [happlied, hmgr]
      split_ifs with hreload
      · exact ToolsPluginMgr.protocolPlugin_unloadOthers hinfo hreload fun hu =>
          hgone ⟨hreload, .inl hu⟩
      · exact hinfo

theorem Owned.applyNewPlugins (h : a.Owned) {plugins : List PluginInfoPtr}
    (hs : a.Settled plugins) : (a.applyNewPlugins plugins).Owned := by
  have hset := applyNewPlugins_setUp a.gui plugins
  have hbefore := a.gui.beforeUnload_spec plugins
  have hload : (a.gui.applyNewPlugins plugins).pluginMgr.loadPlugin = a.gui.pluginMgr.loadPlugin :=
    hset.loadPlugin.trans (congrArg ToolsPluginMgr.loadPlugin hbefore.pluginMgr)
  have hplugin := ToolsPluginMgr.protocolPlugin_congr hload
  have hcreated := ToolsPluginMgr.createdProtocol_congr hload
  have hmgr := hbefore.pluginMgr
  refine ⟨?_, ?_, ?_, h.sendShown.step (.applyNewPlugins plugins), ?_, h.idle, h.sendings⟩
  · intro info hinfo
    show (a.gui.applyNewPlugins plugins).pluginMgr.protocolPlugin
      (a.gui.applyNewPlugins plugins).pluginMgr.m_appliedPlugins = some info
    rw [hplugin]
    have hout : a.outcome plugins = some info := hinfo
    unfold App.outcome at hout
    split_ifs at hout with hsets happlied
    · rw [(hset.done (by rw [hmgr]; exact hsets)).1]
      exact hout
    · -- nothing was applied, so no protocol was installed
      have hnil : a.gui.pluginMgr.m_appliedPlugins = [] := by
        exact ToolsPluginMgr.hasAppliedPlugins_eq_false.mp (by simpa using happlied)
      have hin := h.installed info hout
      rw [hnil] at hin
      cases hin
  · show (a.gui.applyNewPlugins plugins).msgMgr.m_protocol = (a.outcome plugins).bind
      (a.gui.applyNewPlugins plugins).pluginMgr.createdProtocol
    rw [hcreated]
    unfold App.outcome
    split_ifs with hsets happlied
    · rw [(hset.done (by rw [hmgr]; exact hsets)).2, hmgr]
    · rw [(hset.failed (by rw [hmgr]; simpa using hsets)).1, hbefore.protocol, if_pos happlied]
      rfl
    · rw [(hset.failed (by rw [hmgr]; simpa using hsets)).1, hbefore.protocol, if_neg happlied]
      exact h.manager
  · intro p hp
    have hp' : p ∈ (a.gui.beforeUnload plugins).held := hset.held ▸ hp
    obtain ⟨info, hmade, hinfo⟩ := h.heldBefore plugins p hp'
    refine ⟨info, hmade, ?_⟩
    show (a.gui.applyNewPlugins plugins).pluginMgr.protocolPlugin
      (a.gui.applyNewPlugins plugins).pluginMgr.m_appliedPlugins = some info
    rw [hplugin]
    exact h.keeps hs hp' hinfo
  · intro info P hp
    have hp' : a.m_protocol = some (info, P) := hp
    obtain ⟨hin, hmsgs⟩ := h.scheduler info P hp'
    refine ⟨?_, hmsgs⟩
    by_contra hne
    have hidle := hs.idle fun e => hne (e.trans hin)
    rw [hidle] at hp'
    cases hp'

/-! ### Runs -/

/-- **One event** keeps the invariant, a call of `applyNewPlugins` under its condition. -/
theorem Owned.step (h : a.Owned) {ev : AppEvent}
    (hs : ∀ plugins, ev = .gui (.applyNewPlugins plugins) → a.Settled plugins) :
    (a.step ev).Owned := by
  cases ev with
  | gui ev =>
      by_cases hev : ∃ plugins, ev = .applyNewPlugins plugins
      · obtain ⟨plugins, rfl⟩ := hev
        exact h.applyNewPlugins (hs plugins rfl)
      · exact h.guiStep fun plugins e => hev ⟨plugins, e⟩
  | sendStartClicked answers =>
      show (a.sendStartClicked answers).Owned
      unfold App.sendStartClicked
      split
      · exact h.sendMessages _ answers
      · exact h
  | sendStartAllClicked answers =>
      show (a.sendStartAllClicked answers).Owned
      unfold App.sendStartAllClicked
      split_ifs
      · exact h
      · exact h.sendMessages _ answers
  | sendStopClicked => exact h.stop
  | sendTimeout answers => exact h.sendTimeout answers

/-- A run in which every call meets the condition. -/
theorem Owned.run (evs : List AppEvent) (h : a.Owned) (hs : AtCalls Settled a evs) :
    (a.run evs).Owned := by
  induction evs generalizing a with
  | nil => exact h
  | cons ev evs ih =>
      exact ih (h.step hs.1) hs.2

/-- Every message is to be sent every 5 ms for ever. -/
def twoPlugins : App Unit UInt8 Unit where
  gui :=
    { classes := syncFrame.classes
      msgMgr :=
        { objs := fun _ => { body := .prot () 0, repeatDuration := some 5, repeatCount := some 0 } }
      pluginMgr :=
        { isProtocolType := fun _ => true
          loadPlugin := fun _ => some
            { createSocket := true, createFilter := none
              createProtocol := some ToolsProtocol.syncProtocol }
          m_plugins := [0, 1] } }

def sampleAnswer (msg : MsgPtr) (_ : ℕ) : Answer :=
  { msg := msg, write := none, requests := [], now := 0 }

end App

end CcToolsQt
