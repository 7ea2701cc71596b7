import CcToolsQt.MsgRuns

/-! # The application

`GuiAppMgr` of `cc_view` with the two message lists it drives by signals, the message manager and
the plugin manager.  A signal is delivered at once, so an emitted signal is a call of the slots
connected to it.

The slots of `GuiAppMgr` connected to the message manager never call it, so the announcements of
one operation of the manager are handled after it, in their order (`report`).  Operations whose
assertions do not hold are those the toolbars disable; nothing happens then.

What the users of the lists see of a `QListWidget` is its items and its current row; `none` stands
for the row `-1`. -/

namespace CcToolsQt

/-! ### The list widgets -/

/-- `MsgListWidget`. -/
structure MsgListWidget where
  items : List MsgPtr := []
  currentRow : Option ℕ := none
  m_selectOnAdd : Bool := true

namespace MsgListWidget

/-- `addMessage`; the signals are blocked while the new item is made the current one. -/
def addMessage (w : MsgListWidget) (msg : MsgPtr) : MsgListWidget :=
  { w with
    items := w.items ++ [msg]
    currentRow := if w.m_selectOnAdd then some w.items.length else w.currentRow }

def updateCurrentMessage (w : MsgListWidget) (msg : MsgPtr) : MsgListWidget :=
  match w.currentRow with
  | none => w
  | some row => { w with items := w.items.set row msg }

def selectOnAdd (w : MsgListWidget) (enabled : Bool) : MsgListWidget :=
  { w with m_selectOnAdd := enabled }

def clearSelection (w : MsgListWidget) : MsgListWidget := { w with currentRow := none }

def clearList (w : MsgListWidget) : MsgListWidget := { w with items := [], currentRow := none }

def selectMsg (w : MsgListWidget) (idx : Option ℕ) : MsgListWidget := { w with currentRow := idx }

/-- The message of `currentItem()`. -/
def currentItem (w : MsgListWidget) : Option MsgPtr := w.currentRow.bind fun row => w.items[row]?

/-- The deletion of the current item: the next item becomes the current one, or the previous one
if there is no next. -/
def deleteCurrentItem (w : MsgListWidget) : MsgListWidget :=
  match w.currentRow with
  | none => w
  | some row =>
      let items := w.items.eraseIdx row
      { w with
        items := items
        currentRow :=
          if row < items.length then some row
          else if items.isEmpty then none
          else some (items.length - 1) }

end MsgListWidget

/-! ### The plugin manager -/

/-- What a loaded plugin creates. -/
structure ToolsPlugin (φ α σ : Type) where
  createSocket : Bool
  createFilter : Option (ToolsFilter σ)
  createProtocol : Option (ToolsProtocol φ α)

/-- A `PluginInfoPtr`. -/
abbrev PluginInfoPtr := ℕ

/-- `ToolsPluginMgrImpl`; `loadPlugin` is `none` where loading fails. -/
structure ToolsPluginMgr (φ α σ : Type) where
  isProtocolType : PluginInfoPtr → Bool
  loadPlugin : PluginInfoPtr → Option (ToolsPlugin φ α σ)
  m_plugins : List PluginInfoPtr := []
  m_appliedPlugins : List PluginInfoPtr := []

namespace ToolsPluginMgr
variable {φ α σ : Type}

def hasAppliedPlugins (m : ToolsPluginMgr φ α σ) : Bool := !m.m_appliedPlugins.isEmpty

def needsReload (m : ToolsPluginMgr φ α σ) (infos : List PluginInfoPtr) : Bool :=
  !m.m_appliedPlugins.isEmpty && decide (m.m_appliedPlugins ≠ infos)

def isProtocolChanging (m : ToolsPluginMgr φ α σ) (infos : List PluginInfoPtr) : Bool :=
  decide (infos.reverse.find? m.isProtocolType ≠ m.m_appliedPlugins.reverse.find? m.isProtocolType)

def unloadAppliedPlugin (m : ToolsPluginMgr φ α σ) (info : PluginInfoPtr) : ToolsPluginMgr φ α σ :=
  { m with m_appliedPlugins := m.m_appliedPlugins.erase info }

/-- The available plugins outside a list are unloaded. -/
def unloadOthers (m : ToolsPluginMgr φ α σ) (infos : List PluginInfoPtr) : ToolsPluginMgr φ α σ :=
  (m.m_plugins.filter fun ptr => !infos.contains ptr).foldl unloadAppliedPlugin m

def setAppliedPlugins (m : ToolsPluginMgr φ α σ) (infos : List PluginInfoPtr) :
    ToolsPluginMgr φ α σ :=
  { m with m_appliedPlugins := infos }

end ToolsPluginMgr

/-! ### `GuiAppMgr` -/

namespace RecvListMode
def ShowReceived : UInt32 := 1
def ShowSent : UInt32 := 2
def ShowGarbage : UInt32 := 4
def ApplyFilter : UInt32 := 8
end RecvListMode

inductive SelectionType where
  | none
  | recv
  | send
  deriving DecidableEq

/-- `GuiAppMgr`, with the classes of the messages and the message the details pane displays. -/
structure GuiAppMgr (φ α σ : Type) where
  classes : MsgClasses φ α
  msgMgr : MsgMgr φ α σ
  pluginMgr : ToolsPluginMgr φ α σ
  recvList : MsgListWidget := {}
  sendList : MsgListWidget := {}
  m_recvListCount : ℕ := 0
  m_recvListMode : UInt32 :=
    RecvListMode.ShowReceived ||| RecvListMode.ShowSent ||| RecvListMode.ShowGarbage |||
      RecvListMode.ApplyFilter
  m_sendListCount : ℕ := 0
  m_selType : SelectionType := .none
  m_clickedMsg : Option MsgPtr := none
  m_pendingDisplayMsg : Option MsgPtr := none
  m_pendingDisplayWaitInProgress : Bool := false
  m_filteredMessages : List QString := []
  displayedMsg : Option MsgPtr := none

namespace GuiAppMgr
variable {φ α σ : Type}

/-! ### What is shown -/

def recvListShowsReceived (g : GuiAppMgr φ α σ) : Bool :=
  decide (g.m_recvListMode &&& RecvListMode.ShowReceived ≠ 0)

def recvListShowsSent (g : GuiAppMgr φ α σ) : Bool :=
  decide (g.m_recvListMode &&& RecvListMode.ShowSent ≠ 0)

def recvListShowsGarbage (g : GuiAppMgr φ α σ) : Bool :=
  decide (g.m_recvListMode &&& RecvListMode.ShowGarbage ≠ 0)

def recvListApplyFilter (g : GuiAppMgr φ α σ) : Bool :=
  decide (g.m_recvListMode &&& RecvListMode.ApplyFilter ≠ 0)

/-- `"(%1) %2"` of the id and the name. -/
def messageDesc (g : GuiAppMgr φ α σ) (msg : ToolsMessage φ α) : QString :=
  '(' :: msg.idAsString g.classes ++ ')' :: ' ' :: msg.name g.classes

/-- `canAddToRecvList` with the type of the message; `std::lower_bound` finds the first entry of
the sorted filter that is not less than the description. -/
def canAddToRecvList (g : GuiAppMgr φ α σ) (msg : ToolsMessage φ α) : Bool :=
  if (msg.idAsString g.classes).isEmpty then g.recvListShowsGarbage
  else if msg.getType = MsgType.Sent ∧ !g.recvListShowsSent then false
  else if msg.getType = MsgType.Received ∧ !g.recvListShowsReceived then false
  else if !g.recvListApplyFilter then true
  else
    let desc := g.messageDesc msg
    g.m_filteredMessages.find? (fun x => !decide (x < desc)) ≠ some desc

/-! ### The selection -/

/-- `displayMessage`. -/
def displayMessage (g : GuiAppMgr φ α σ) (msg : MsgPtr) : GuiAppMgr φ α σ :=
  { g with m_pendingDisplayMsg := none, displayedMsg := some msg }

/-- `clearDisplayedMessage`. -/
def clearDisplayedMessage (g : GuiAppMgr φ α σ) : GuiAppMgr φ α σ :=
  { g with m_selType := .none, m_clickedMsg := none, displayedMsg := none }

/-- `sigRecvMsgListSelectOnAddEnabled`. -/
def recvSelectOnAdd (g : GuiAppMgr φ α σ) (enabled : Bool) : GuiAppMgr φ α σ :=
  { g with recvList := g.recvList.selectOnAdd enabled }

/-- `msgClicked`: a second click takes the selection back. -/
def msgClicked (g : GuiAppMgr φ α σ) (msg : MsgPtr) (selType : SelectionType) :
    GuiAppMgr φ α σ :=
  if g.m_clickedMsg = some msg then g.clearDisplayedMessage.recvSelectOnAdd true
  else
    (({ g with m_selType := selType, m_clickedMsg := some msg }).displayMessage msg).recvSelectOnAdd
      false

/-- `sigRecvMsgListClearSelection`. -/
def recvClearSelection (g : GuiAppMgr φ α σ) : GuiAppMgr φ α σ :=
  { g with recvList := g.recvList.clearSelection }

/-- `sigSendMsgListClearSelection`, and `sigSendMsgSelected` with the row `-1`. -/
def sendClearSelection (g : GuiAppMgr φ α σ) : GuiAppMgr φ α σ :=
  { g with sendList := g.sendList.clearSelection }

/-- `recvMsgClicked`; the row only goes to the toolbar. -/
def recvMsgClicked (g : GuiAppMgr φ α σ) (msg : MsgPtr) : GuiAppMgr φ α σ :=
  let g := g.sendClearSelection.msgClicked msg .recv
  if g.m_clickedMsg.isNone then g.recvClearSelection else g

/-- `sendMsgClicked`. -/
def sendMsgClicked (g : GuiAppMgr φ α σ) (msg : MsgPtr) (idx : Option ℕ) : GuiAppMgr φ α σ :=
  let g := g.recvClearSelection.msgClicked msg .send
  if g.m_clickedMsg.isNone then g.sendClearSelection
  else { g with sendList := g.sendList.selectMsg idx }

/-! ### The received list -/

def addMsgToRecvList (g : GuiAppMgr φ α σ) (msg : MsgPtr) : GuiAppMgr φ α σ :=
  { g with m_recvListCount := g.m_recvListCount + 1, recvList := g.recvList.addMessage msg }

/-- `msgAdded` for an announced message, with the object as it was announced. -/
def msgAdded (g : GuiAppMgr φ α σ) (msg : MsgPtr × ToolsMessage φ α) : GuiAppMgr φ α σ :=
  if !g.canAddToRecvList msg.2 then g
  else
    let g := g.addMsgToRecvList msg.1
    if g.m_clickedMsg.isSome then g
    else if g.m_pendingDisplayWaitInProgress then { g with m_pendingDisplayMsg := some msg.1 }
    else { g.displayMessage msg.1 with m_pendingDisplayWaitInProgress := true }

/-- The manager after an operation; its announcements are handled. -/
def report (g : GuiAppMgr φ α σ) (mgr : MsgMgr φ α σ) : GuiAppMgr φ α σ :=
  (mgr.added.drop g.msgMgr.added.length).foldl msgAdded { g with msgMgr := mgr }

def pendingDisplayTimeout (g : GuiAppMgr φ α σ) : GuiAppMgr φ α σ :=
  let g := { g with m_pendingDisplayWaitInProgress := false }
  match g.m_pendingDisplayMsg with
  | some msg => g.displayMessage msg
  | none => g

/-- `deleteMessages`. -/
def deleteMessages (g : GuiAppMgr φ α σ) (msgs : List MsgPtr) : GuiAppMgr φ α σ :=
  if g.msgMgr.m_allMsgs.length = msgs.length then { g with msgMgr := g.msgMgr.deleteAllMsgs }
  else { g with msgMgr := g.msgMgr.deleteMsgs msgs }

/-- `clearRecvList`; `sigRecvClear` goes to `clearList` of the received list. -/
def clearRecvList (g : GuiAppMgr φ α σ) (reportDeleted : Bool) : GuiAppMgr φ α σ :=
  let wasSelected := g.m_selType = .recv
  let sendSelected := g.m_selType = .send
  let g := { g with m_recvListCount := 0 }
  let g := if sendSelected then g else g.clearDisplayedMessage
  let g := if wasSelected then g.recvSelectOnAdd true else g
  let msgs := g.recvList.items
  let g := { g with recvList := g.recvList.clearList }
  if reportDeleted then g.deleteMessages msgs else g

/-- `clearRecvList(false)` with `deleteAllMsgs`. -/
def dropAllMsgs (g : GuiAppMgr φ α σ) : GuiAppMgr φ α σ :=
  let g := g.clearRecvList false
  { g with msgMgr := g.msgMgr.deleteAllMsgs }

/-- The loop of `refreshRecvList` for one stored message. -/
def refreshMsg (clickedMsg : Option MsgPtr) (g : GuiAppMgr φ α σ) (msg : MsgPtr) :
    GuiAppMgr φ α σ :=
  if g.canAddToRecvList (g.msgMgr.objs msg) then
    let g := g.addMsgToRecvList msg
    if clickedMsg = some msg then g.recvMsgClicked msg else g
  else g

/-- The first part of `refreshRecvList`: a message selected in the list is clicked off. -/
def unselectRecvMsg (g : GuiAppMgr φ α σ) : GuiAppMgr φ α σ :=
  match g.m_selType, g.m_clickedMsg with
  | .recv, some msg => g.recvMsgClicked msg
  | .none, _ => { g with displayedMsg := none }
  | _, _ => g

/-- `refreshRecvList`. -/
def refreshRecvList (g : GuiAppMgr φ α σ) : GuiAppMgr φ α σ :=
  let clickedMsg := g.m_clickedMsg
  let g := g.unselectRecvMsg.clearRecvList false
  let g := g.msgMgr.m_allMsgs.foldl (refreshMsg clickedMsg) g
  if g.m_clickedMsg.isNone then g.recvClearSelection else g

/-- `updateRecvListMode`. -/
def updateRecvListMode (g : GuiAppMgr φ α σ) (mode : UInt32) (checked : Bool) : GuiAppMgr φ α σ :=
  let g :=
    if checked then { g with m_recvListMode := g.m_recvListMode ||| mode }
    else { g with m_recvListMode := g.m_recvListMode &&& ~~~mode }
  g.refreshRecvList

def recvShowRecvToggled (g : GuiAppMgr φ α σ) (checked : Bool) : GuiAppMgr φ α σ :=
  g.updateRecvListMode RecvListMode.ShowReceived checked

def recvShowSentToggled (g : GuiAppMgr φ α σ) (checked : Bool) : GuiAppMgr φ α σ :=
  g.updateRecvListMode RecvListMode.ShowSent checked

def recvShowGarbageToggled (g : GuiAppMgr φ α σ) (checked : Bool) : GuiAppMgr φ α σ :=
  g.updateRecvListMode RecvListMode.ShowGarbage checked

def recvApplyFilterToggled (g : GuiAppMgr φ α σ) (checked : Bool) : GuiAppMgr φ α σ :=
  g.updateRecvListMode RecvListMode.ApplyFilter checked

def setFilteredMessages (g : GuiAppMgr φ α σ) (filteredMessages : List QString) :
    GuiAppMgr φ α σ :=
  if filteredMessages = g.m_filteredMessages then g
  else
    let g := { g with m_filteredMessages := filteredMessages }
    if g.recvListApplyFilter then g.refreshRecvList else g

/-- `deleteCurrentMessage` of the received list: the item that becomes the current one is
clicked. -/
def recvDeleteSelectedMsg (g : GuiAppMgr φ α σ) : GuiAppMgr φ α σ :=
  let g := { g with recvList := g.recvList.deleteCurrentItem }
  match g.recvList.currentItem with
  | some next => g.recvMsgClicked next
  | none => g

def recvDeleteClicked (g : GuiAppMgr φ α σ) : GuiAppMgr φ α σ :=
  match g.m_clickedMsg with
  | some msg =>
      if g.m_selType = .recv ∧ 0 < g.m_recvListCount then
        let g := { g with msgMgr := g.msgMgr.deleteMsg msg }
        let g := g.clearDisplayedMessage.recvDeleteSelectedMsg
        { g with m_recvListCount := g.m_recvListCount - 1 }
      else g
  | none => g

def recvClearClicked (g : GuiAppMgr φ α σ) : GuiAppMgr φ α σ :=
  if 0 < g.m_recvListCount then g.clearRecvList true else g

/-- `recvLoadMsgsFromFile`, with the messages the file gives. -/
def recvLoadMsgsFromFile (g : GuiAppMgr φ α σ) (msgs : List (Option MsgPtr × ℕ)) :
    GuiAppMgr φ α σ :=
  let g := g.dropAllMsgs
  g.report (g.msgMgr.addMsgs msgs true)

/-- The user makes another row of the received list the current one: `currentItemChanged`. -/
def recvSetCurrentRow (g : GuiAppMgr φ α σ) (row : ℕ) : GuiAppMgr φ α σ :=
  if g.recvList.currentRow = some row then g
  else
    match g.recvList.items[row]? with
    | some msg => ({ g with recvList := g.recvList.selectMsg (some row) }).recvMsgClicked msg
    | none => g

/-- A click on an item of the received list, taken as one event: the item becomes the current one
as the button goes down, and `itemClicked` follows as it goes up, ignored if it comes soon after
the selection. -/
def recvItemClicked (g : GuiAppMgr φ α σ) (row : ℕ) (ignored : Bool) : GuiAppMgr φ α σ :=
  let g := g.recvSetCurrentRow row
  match g.recvList.items[row]? with
  | some msg => if ignored then g else g.recvMsgClicked msg
  | none => g

/-! ### The send list -/

/-- `sendAddNewMessage`, for new, raw and duplicated messages alike. -/
def sendAddNewMessage (g : GuiAppMgr φ α σ) (msg : MsgPtr) : GuiAppMgr φ α σ :=
  let g :=
    { g with m_sendListCount := g.m_sendListCount + 1, sendList := g.sendList.addMessage msg }
  g.sendMsgClicked msg (some (g.m_sendListCount - 1))

/-- `sendUpdateMessage`, with the message the dialog made of the selected one. -/
def sendUpdateMessage (g : GuiAppMgr φ α σ) (msg : MsgPtr) : GuiAppMgr φ α σ :=
  if g.m_selType = .send then
    ({ g with
      m_clickedMsg := some msg
      sendList := g.sendList.updateCurrentMessage msg }).displayMessage msg
  else g

/-- `sendUpdateMessage`, after an edit of the selected message in the details pane. -/
def sendUpdateSelected (g : GuiAppMgr φ α σ) : GuiAppMgr φ α σ :=
  match g.m_clickedMsg with
  | some msg => g.sendUpdateMessage msg
  | none => g

/-- `deleteCurrentMessage` of the send list. -/
def sendDeleteSelectedMsg (g : GuiAppMgr φ α σ) : GuiAppMgr φ α σ :=
  let g := { g with sendList := g.sendList.deleteCurrentItem }
  match g.sendList.currentItem with
  | some next => g.sendMsgClicked next g.sendList.currentRow
  | none => g

def sendDeleteClicked (g : GuiAppMgr φ α σ) : GuiAppMgr φ α σ :=
  if g.m_selType = .send ∧ 0 < g.m_sendListCount then
    let g := g.clearDisplayedMessage.sendDeleteSelectedMsg
    let g := { g with m_sendListCount := g.m_sendListCount - 1 }
    if g.m_sendListCount = 0 then g.sendClearSelection else g
  else g

def sendClearClicked (g : GuiAppMgr φ α σ) : GuiAppMgr φ α σ :=
  if 0 < g.m_sendListCount then
    let wasSelected := g.m_selType = .send
    let g := { g with sendList := g.sendList.clearList, m_sendListCount := 0 }
    if wasSelected then g.clearDisplayedMessage.sendClearSelection else g
  else g

/-- `sendUpdateList`. -/
def sendUpdateList (g : GuiAppMgr φ α σ) (msgs : List MsgPtr) : GuiAppMgr φ α σ :=
  match g.m_selType, g.m_clickedMsg with
  | .send, some clickedMsg =>
      let g := { g.sendMsgClicked clickedMsg none with m_sendListCount := msgs.length }
      if clickedMsg ∈ msgs then g.sendMsgClicked clickedMsg (some (msgs.idxOf clickedMsg)) else g
  | _, _ => { g with m_sendListCount := msgs.length }

/-- `sendLoadMsgsFromFile`; `sigSendLoadMsgs` goes to `loadMessages` of the send list. -/
def sendLoadMsgsFromFile (g : GuiAppMgr φ α σ) (clear : Bool) (msgs : List MsgPtr) :
    GuiAppMgr φ α σ :=
  let w := if clear then g.sendList.clearList else g.sendList
  let w := msgs.foldl MsgListWidget.addMessage w
  ({ g with sendList := w }).sendUpdateList w.items

/-- The user makes another row of the send list the current one. -/
def sendSetCurrentRow (g : GuiAppMgr φ α σ) (row : ℕ) : GuiAppMgr φ α σ :=
  if g.sendList.currentRow = some row then g
  else
    match g.sendList.items[row]? with
    | some msg =>
        ({ g with sendList := g.sendList.selectMsg (some row) }).sendMsgClicked msg (some row)
    | none => g

/-- A click on an item of the send list. -/
def sendItemClicked (g : GuiAppMgr φ α σ) (row : ℕ) (ignored : Bool) : GuiAppMgr φ α σ :=
  let g := g.sendSetCurrentRow row
  match g.sendList.items[row]? with
  | some msg => if ignored then g else g.sendMsgClicked msg (some row)
  | none => g

/-- `moveItem`: as the item is taken out its neighbour becomes the current one, and as it is back
it becomes the current one again; both count as clicks. -/
def moveItem (g : GuiAppMgr φ α σ) (fromRow toRow : ℕ) : GuiAppMgr φ α σ :=
  match g.sendList.items[fromRow]? with
  | some msg =>
      let rest := g.sendList.items.eraseIdx fromRow
      let neighbour := if fromRow < rest.length then fromRow + 1 else fromRow - 1
      let g := g.sendSetCurrentRow neighbour
      let g := { g with sendList := { g.sendList with items := rest.insertIdx toRow msg } }
      g.sendMsgClicked msg (some toRow)
  | none => g

/-- `moveSelectedTop`, `moveSelectedUp`, `moveSelectedDown` and `moveSelectedBottom`: the row the
selected item goes to. -/
inductive MoveTo where
  | top
  | up
  | down
  | bottom

def sendMoveClicked (g : GuiAppMgr φ α σ) (dest : MoveTo) : GuiAppMgr φ α σ :=
  match g.sendList.currentRow with
  | none => g
  | some curRow =>
      let count := g.sendList.items.length
      match dest with
      | .top => if curRow = 0 then g else g.moveItem curRow 0
      | .up => if curRow = 0 then g else g.moveItem curRow (curRow - 1)
      | .down => if count ≤ curRow + 1 then g else g.moveItem curRow (curRow + 1)
      | .bottom => if count ≤ curRow + 1 then g else g.moveItem curRow (count - 1)

/-! ### Plugins -/

/-- `ApplyInfo` and the loop that fills it. -/
structure ApplyInfo (φ α σ : Type) where
  m_socket : Bool := false
  m_filters : List (ToolsFilter σ) := []
  m_protocol : Option (ToolsProtocol φ α) := none

def ApplyInfo.add (info : ApplyInfo φ α σ) (plugin : Option (ToolsPlugin φ α σ)) :
    ApplyInfo φ α σ :=
  match plugin with
  | none => info
  | some plugin =>
      { m_socket := info.m_socket || plugin.createSocket
        m_filters := info.m_filters ++ plugin.createFilter.toList
        m_protocol := info.m_protocol.or plugin.createProtocol }

/-- The second half of `applyNewPlugins`; without a socket or a protocol it stops half-way. -/
def setupPlugins (g : GuiAppMgr φ α σ) (plugins : List PluginInfoPtr)
    (hasApplied needsReload : Bool) : GuiAppMgr φ α σ :=
  let g := if hasApplied then { g with msgMgr := g.msgMgr.clear } else g
  let g := if needsReload then { g with pluginMgr := g.pluginMgr.unloadOthers plugins } else g
  let applyInfo := (plugins.map g.pluginMgr.loadPlugin).foldl ApplyInfo.add {}
  if !applyInfo.m_socket || applyInfo.m_protocol.isNone then g
  else
    { g with
      msgMgr := g.msgMgr.setup applyInfo.m_filters applyInfo.m_protocol
      pluginMgr := g.pluginMgr.setAppliedPlugins plugins }

/-- `applyNewPlugins`. -/
def applyNewPlugins (g : GuiAppMgr φ α σ) (plugins : List PluginInfoPtr) : GuiAppMgr φ α σ :=
  let hasApplied := g.pluginMgr.hasAppliedPlugins
  let needsReload := g.pluginMgr.needsReload plugins
  let g :=
    if 0 < g.m_sendListCount ∧ g.pluginMgr.isProtocolChanging plugins then g.sendClearClicked
    else g
  let g := if hasApplied ∧ needsReload then g.dropAllMsgs else g
  g.setupPlugins plugins hasApplied needsReload

end GuiAppMgr

/-! ### Events -/

/-- What happens to the application from outside. -/
inductive GuiEvent where
  | socketDataReceived (dataInfo : Option ToolsDataInfo) (reads : List (List RecvMsg))
  | sendMsgs (msgs : List SendReq)
  | setRecvEnabled (enabled : Bool)
  | recvSetCurrentRow (row : ℕ)
  | recvItemClicked (row : ℕ) (ignored : Bool)
  | recvDeleteClicked
  | recvClearClicked
  | recvShowRecvToggled (checked : Bool)
  | recvShowSentToggled (checked : Bool)
  | recvShowGarbageToggled (checked : Bool)
  | recvApplyFilterToggled (checked : Bool)
  | setFilteredMessages (filteredMessages : List QString)
  | recvLoadMsgsFromFile (msgs : List (Option MsgPtr × ℕ))
  | sendSetCurrentRow (row : ℕ)
  | sendItemClicked (row : ℕ) (ignored : Bool)
  | sendAddNewMessage (msg : MsgPtr)
  | sendUpdateMessage (msg : MsgPtr)
  | sendUpdateSelected
  | sendDeleteClicked
  | sendClearClicked
  | sendMoveClicked (dest : GuiAppMgr.MoveTo)
  | sendLoadMsgsFromFile (clear : Bool) (msgs : List MsgPtr)
  | applyNewPlugins (plugins : List PluginInfoPtr)
  | pendingDisplayTimeout

namespace GuiEvent

/-- All new pointers an event brings in. -/
def ptrs : GuiEvent → List MsgPtr
  | socketDataReceived dataInfo reads => (Event.socketDataReceived dataInfo reads).ptrs
  | sendMsgs msgs => (Event.sendMsgs msgs).ptrs
  | recvLoadMsgsFromFile msgs => (Event.addMsgs msgs true).ptrs
  | sendAddNewMessage msg => [msg]
  | sendUpdateMessage msg => [msg]
  | sendLoadMsgsFromFile _ msgs => msgs
  | _ => []

end GuiEvent

namespace GuiAppMgr
variable {φ α σ : Type}

def step (g : GuiAppMgr φ α σ) : GuiEvent → GuiAppMgr φ α σ
  | .socketDataReceived dataInfo reads => g.report (g.msgMgr.socketDataReceived dataInfo reads)
  | .sendMsgs msgs => g.report (g.msgMgr.sendMsgs msgs)
  | .setRecvEnabled enabled => { g with msgMgr := { g.msgMgr with m_recvEnabled := enabled } }
  | .recvSetCurrentRow row => g.recvSetCurrentRow row
  | .recvItemClicked row ignored => g.recvItemClicked row ignored
  | .recvDeleteClicked => g.recvDeleteClicked
  | .recvClearClicked => g.recvClearClicked
  | .recvShowRecvToggled checked => g.recvShowRecvToggled checked
  | .recvShowSentToggled checked => g.recvShowSentToggled checked
  | .recvShowGarbageToggled checked => g.recvShowGarbageToggled checked
  | .recvApplyFilterToggled checked => g.recvApplyFilterToggled checked
  | .setFilteredMessages filteredMessages => g.setFilteredMessages filteredMessages
  | .recvLoadMsgsFromFile msgs => g.recvLoadMsgsFromFile msgs
  | .sendSetCurrentRow row => g.sendSetCurrentRow row
  | .sendItemClicked row ignored => g.sendItemClicked row ignored
  | .sendAddNewMessage msg => g.sendAddNewMessage msg
  | .sendUpdateMessage msg => g.sendUpdateMessage msg
  | .sendUpdateSelected => g.sendUpdateSelected
  | .sendDeleteClicked => g.sendDeleteClicked
  | .sendClearClicked => g.sendClearClicked
  | .sendMoveClicked dest => g.sendMoveClicked dest
  | .sendLoadMsgsFromFile clear msgs => g.sendLoadMsgsFromFile clear msgs
  | .applyNewPlugins plugins => g.applyNewPlugins plugins
  | .pendingDisplayTimeout => g.pendingDisplayTimeout

def run (g : GuiAppMgr φ α σ) (evs : List GuiEvent) : GuiAppMgr φ α σ := evs.foldl step g

end GuiAppMgr

end CcToolsQt
