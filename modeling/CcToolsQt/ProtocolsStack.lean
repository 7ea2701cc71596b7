import CcToolsQt.MsgMgr
import CcToolsQt.Lib.Runs

/-! # The tree of message parts

`ProtocolsStackWidget` shows a message as a tree: a top level item with the name of the protocol
and below it an item for the application message, its transport, its raw data and its extra
information, each only if the message has it.  A message that is shown already is patched by
position instead, `displayMessage` without `force`.

* `rebuild_children`: a rebuild shows the parts the message has.
* `displayMessage_shows_iff`: when a call does.
* `showsParts_iff`: the runs in which every call does and no assertion fails. -/

namespace CcToolsQt

/-- What the widget reads of a message object. -/
structure ShownMsg where
  idAsString : QString
  protocolName : QString
  transportMsg : Option MsgPtr
  rawDataMsg : Option MsgPtr
  extraInfoMsg : Option MsgPtr

/-- The message objects at some moment; the parts attached to one are objects of their own. -/
structure ShownMsgs where
  get : MsgPtr → ShownMsg
  transportMsg_ne : ∀ p, (get p).transportMsg ≠ some p

/-- An item below the top level one; its data may hold a null pointer. -/
structure ProtocolsItem where
  text : QString
  data : Option MsgPtr
  deriving DecidableEq

/-- The top level item, which has no data. -/
structure ProtocolsTopItem where
  text : QString
  children : List ProtocolsItem
  deriving DecidableEq

inductive ProtocolsItemPos where
  | top
  | child (i : ℕ)
  deriving DecidableEq

structure ProtocolsStackWidget where
  topLevelItem : Option ProtocolsTopItem := none
  currentItem : Option ProtocolsItemPos := none
  /-- What `sigMessageSelected` carried last. -/
  sigMessageSelected : Option (MsgPtr × Bool) := none
  deriving DecidableEq

namespace ProtocolsStackWidget

def ApplicationStr : QString := "Application".toList
def TransportStr : QString := "Transport".toList
def RawDataStr : QString := "Raw Data".toList
def ExtraInfoStr : QString := "Extra Info".toList

/-! ### The widget

`none` is a failed assertion. -/

def children (w : ProtocolsStackWidget) : List ProtocolsItem :=
  match w.topLevelItem with
  | none => []
  | some top => top.children

def reportMessageSelected (w : ProtocolsStackWidget) (item : ProtocolsItem) :
    Option ProtocolsStackWidget :=
  item.data.map fun msgPtr =>
    { w with
      sigMessageSelected := some (msgPtr, item.text == ApplicationStr || item.text == ExtraInfoStr) }

/-- The top level item passes the selection on to its first child. -/
def newItemSelected (w : ProtocolsStackWidget) : Option ProtocolsStackWidget :=
  match w.currentItem with
  | none => none
  | some .top =>
      match w.children with
      | [] => none
      | item :: _ => reportMessageSelected { w with currentItem := some (.child 0) } item
  | some (.child i) => w.children[i]?.bind (reportMessageSelected w)

/-- `addMsgFunc`. -/
def addMsg (msgParam : Option MsgPtr) (name : QString) (items : List ProtocolsItem) :
    List ProtocolsItem :=
  if msgParam.isSome then items ++ [⟨name, msgParam⟩] else items

/-- The tree that is built from scratch. -/
def topLevelItemOf (m : ShownMsg) (msg : MsgPtr) : ProtocolsTopItem where
  text := m.protocolName
  children :=
    addMsg m.extraInfoMsg ExtraInfoStr <|
      addMsg m.rawDataMsg RawDataStr <|
        addMsg m.transportMsg TransportStr <|
          if m.idAsString.isEmpty then [] else addMsg (some msg) ApplicationStr []

/-- The part of `displayMessage` behind the loop. -/
def rebuild (w : ProtocolsStackWidget) (objs : ShownMsgs) (msg : MsgPtr) :
    Option ProtocolsStackWidget :=
  let top := topLevelItemOf (objs.get msg) msg
  if top.children.isEmpty then some { w with topLevelItem := some top, currentItem := none }
  else newItemSelected { w with topLevelItem := some top, currentItem := some (.child 0) }

def displayMessage (w : ProtocolsStackWidget) (objs : ShownMsgs) (msg : MsgPtr) (force : Bool) :
    Option ProtocolsStackWidget :=
  if force then w.rebuild objs msg
  else
    match w.topLevelItem with
    | none => w.rebuild objs msg
    | some top =>
        match top.children with
        | [] => w.rebuild objs msg
        | firstChild :: rest =>
            if w.currentItem = none then none
            else if w.currentItem ≠ some (.child 0) then w.rebuild objs msg
            else if firstChild.data ≠ some msg then w.rebuild objs msg
            else
              match rest with
              | [] => none
              | [_] => none
              | secondChild :: thirdChild :: rest =>
                  -- a missing part is stored as a null pointer, the fourth child may be absent
                  let patched := firstChild ::
                    { secondChild with data := (objs.get msg).transportMsg } ::
                    { thirdChild with data := (objs.get msg).rawDataMsg } ::
                    match rest with
                    | [] => []
                    | fourthChild :: rest =>
                        { fourthChild with data := (objs.get msg).extraInfoMsg } :: rest
                  some { w with topLevelItem := some { top with children := patched } }

def clear (w : ProtocolsStackWidget) : ProtocolsStackWidget :=
  { w with topLevelItem := none, currentItem := none }

inductive Event where
  | displayMessage (msg : MsgPtr) (force : Bool)
  | clear
  /-- The user selects an item, or takes the selection of the current one back. -/
  | select (pos : ProtocolsItemPos)

/-- Whether there is an item at a position. -/
def hasItem (w : ProtocolsStackWidget) : ProtocolsItemPos → Bool
  | .top => w.topLevelItem.isSome
  | .child i => i < w.children.length

/-- An event, with the message objects as they are when it comes. -/
def step (s : Option ProtocolsStackWidget) (e : ShownMsgs × Event) : Option ProtocolsStackWidget :=
  s.bind fun w =>
    match e.2 with
    | .displayMessage msg force => w.displayMessage e.1 msg force
    | .clear => some w.clear
    | .select pos =>
        if w.hasItem pos then newItemSelected { w with currentItem := some pos } else some w

/-! ### The parts of a message -/

/-- The parts a message has, with the names of their items. -/
def parts (m : ShownMsg) (msg : MsgPtr) : List (QString × MsgPtr) :=
  (if m.idAsString.isEmpty then [] else [(ApplicationStr, msg)]) ++
    m.transportMsg.toList.map (TransportStr, ·) ++
    m.rawDataMsg.toList.map (RawDataStr, ·) ++
    m.extraInfoMsg.toList.map (ExtraInfoStr, ·)

def itemOf (part : QString × MsgPtr) : ProtocolsItem := ⟨part.1, some part.2⟩

/-- The item list of the parts of a message, a null pointer for none of them. -/
def partItems (m : ShownMsg) (msg : MsgPtr) : List ProtocolsItem := (parts m msg).map itemOf

theorem addMsg_eq (msgParam : Option MsgPtr) (name : QString) (items : List ProtocolsItem) :
    addMsg msgParam name items = items ++ (msgParam.toList.map (name, ·)).map itemOf := by
  cases msgParam <;> simp [addMsg, itemOf]

theorem topLevelItemOf_children (m : ShownMsg) (msg : MsgPtr) :
    (topLevelItemOf m msg).children = partItems m msg := by
  simp only [topLevelItemOf, addMsg_eq, partItems, parts, List.map_append]
  split_ifs <;> rfl

theorem data_of_mem_partItems {m : ShownMsg} {msg : MsgPtr} {item : ProtocolsItem}
    (h : item ∈ partItems m msg) : item.data ≠ none := by
  obtain ⟨part, -, rfl⟩ := List.mem_map.mp h
  exact Option.some_ne_none _

/-- What holds between the calls: an item is current and every item refers to a message. -/
structure Settled (w : ProtocolsStackWidget) : Prop where
  current : w.children ≠ [] → w.currentItem ≠ none
  data : ∀ item ∈ w.children, item.data ≠ none

theorem settled_init : Settled {} where
  current := absurd rfl
  data := by simp [children]

/-! ### Selections -/

@[simp]
theorem reportMessageSelected_children {w w' : ProtocolsStackWidget} {item : ProtocolsItem}
    (h : reportMessageSelected w item = some w') : w'.children = w.children := by
  obtain ⟨msgPtr, -, rfl⟩ := Option.map_eq_some_iff.mp h
  rfl

theorem reportMessageSelected_currentItem {w w' : ProtocolsStackWidget} {item : ProtocolsItem}
    (h : reportMessageSelected w item = some w') : w'.currentItem = w.currentItem := by
  obtain ⟨msgPtr, -, rfl⟩ := Option.map_eq_some_iff.mp h
  rfl

/-- A selection moves the current item and nothing else in the tree. -/
theorem newItemSelected_some {w w' : ProtocolsStackWidget} (h : newItemSelected w = some w') :
    w'.children = w.children ∧ w'.currentItem ≠ none := by
  unfold newItemSelected at h
  split at h
  · cases h
  · split at h
    · cases h
    · have hchildren := reportMessageSelected_children h
      refine ⟨hchildren, ?_⟩
      rw [reportMessageSelected_currentItem h]
      exact Option.some_ne_none _
  · next i hcur =>
      obtain ⟨item, -, hitem⟩ := Option.bind_eq_some_iff.mp h
      refine ⟨reportMessageSelected_children hitem, ?_⟩
      rw [reportMessageSelected_currentItem hitem, hcur]
      exact Option.some_ne_none _

theorem Settled.newItemSelected {w w' : ProtocolsStackWidget} (h : newItemSelected w = some w')
    (hdata : ∀ item ∈ w.children, item.data ≠ none) : Settled w' := by
  obtain ⟨hchildren, hcur⟩ := newItemSelected_some h
  exact ⟨fun _ => hcur, hchildren ▸ hdata⟩

theorem reportMessageSelected_isSome {w : ProtocolsStackWidget} {item : ProtocolsItem}
    (hdata : item.data ≠ none) : (reportMessageSelected w item).isSome = true := by
  obtain ⟨msgPtr, hmsg⟩ := Option.ne_none_iff_exists'.mp hdata
  simp [reportMessageSelected, hmsg]

theorem newItemSelected_child {w : ProtocolsStackWidget} {i : ℕ}
    (h : w.currentItem = some (.child i)) :
    newItemSelected w = w.children[i]?.bind (reportMessageSelected w) := by
  rw [newItemSelected, h]

/-- A child can be selected if it refers to a message, the top level item if it has a child. -/
theorem newItemSelected_isSome {w : ProtocolsStackWidget} {pos : ProtocolsItemPos}
    (hcur : w.currentItem = some pos) (hdata : ∀ item ∈ w.children, item.data ≠ none)
    (hitem : w.hasItem pos = true) :
    (newItemSelected w).isSome = true ↔ (pos = .top → w.children ≠ []) := by
  cases pos with
  | top =>
      rw [newItemSelected, hcur, forall_prop_of_true rfl]
      cases hc : w.children with
      | nil => simp
      | cons item rest =>
          have hitem : item ∈ w.children := by simp [hc]
          exact iff_of_true (reportMessageSelected_isSome (hdata item hitem)) (List.cons_ne_nil _ _)
  | child i =>
      refine iff_of_true ?_ nofun
      have hlt : i < w.children.length := of_decide_eq_true hitem
      rw [newItemSelected_child hcur, List.getElem?_eq_getElem hlt, Option.bind_some]
      exact reportMessageSelected_isSome (hdata _ (List.getElem_mem hlt))

/-! ### Calls -/

/-- **A rebuild shows the parts** the message has and makes the first one current. -/
theorem rebuild_children (w : ProtocolsStackWidget) (objs : ShownMsgs) (msg : MsgPtr) :
    ∃ w', w.rebuild objs msg = some w' ∧ Settled w' ∧
      w'.children = partItems (objs.get msg) msg := by
  have htop := topLevelItemOf_children (objs.get msg) msg
  have hdata : ∀ item ∈ (topLevelItemOf (objs.get msg) msg).children, item.data ≠ none := by
    intro item hitem
    rw [htop] at hitem
    exact data_of_mem_partItems hitem
  unfold rebuild
  dsimp only
  split_ifs with he
  · have hnil := List.isEmpty_iff.mp he
    exact ⟨_, rfl, ⟨fun hne => absurd hnil hne, hdata⟩, htop⟩
  · have hpos : 0 < (topLevelItemOf (objs.get msg) msg).children.length :=
      List.length_pos_iff.mpr fun h => he (List.isEmpty_iff.mpr h)
    have hsome := (newItemSelected_isSome (w := { w with
      topLevelItem := some (topLevelItemOf (objs.get msg) msg), currentItem := some (.child 0) })
      rfl hdata (decide_eq_true hpos)).mpr nofun
    obtain ⟨w', hw'⟩ := Option.isSome_iff_exists.mp hsome
    exact ⟨w', hw', .newItemSelected hw' hdata, (newItemSelected_some hw').1.trans htop⟩

/-- The message is shown already and its first item is current, so that a call which is not forced
patches the items. -/
def Patches (w : ProtocolsStackWidget) (msg : MsgPtr) (force : Bool) : Prop :=
  force = false ∧ w.currentItem = some (.child 0) ∧ w.children.head?.map (·.data) = some (some msg)

/-- The message has the parts that are patched, and the items are those of its parts. -/
structure SameParts (w : ProtocolsStackWidget) (m : ShownMsg) (msg : MsgPtr) : Prop where
  application : m.idAsString ≠ []
  transport : m.transportMsg ≠ none
  rawData : m.rawDataMsg ≠ none
  shown : w.children.map (·.text) = (parts m msg).map Prod.fst

/-- The items with their data patched by position. -/
def patched (m : ShownMsg) : List ProtocolsItem → Option (List ProtocolsItem)
  | firstChild :: secondChild :: thirdChild :: rest =>
      some (firstChild :: { secondChild with data := m.transportMsg } ::
        { thirdChild with data := m.rawDataMsg } ::
        match rest with
        | [] => []
        | fourthChild :: rest => { fourthChild with data := m.extraInfoMsg } :: rest)
  | _ => none

theorem displayMessage_of_not_patches {w : ProtocolsStackWidget} {objs : ShownMsgs} {msg : MsgPtr}
    {force : Bool} (hw : Settled w) (h : ¬ w.Patches msg force) :
    w.displayMessage objs msg force = w.rebuild objs msg := by
  have hcurrent := hw.current
  unfold displayMessage
  cases force with
  | true => rfl
  | false =>
      unfold Patches children at h
      unfold children at hcurrent
      cases htop : w.topLevelItem with
      | none => rfl
      | some top =>
          cases hc : top.children with
          | nil => simp [hc]
          | cons firstChild rest =>
              simp only [htop, hc, List.head?_cons, Option.map_some, Option.some.injEq,
                true_and, not_and] at h
              have hne : w.currentItem ≠ none := hcurrent (by simp [htop, hc])
              simp only [hc, Bool.false_eq_true, if_false, if_neg hne]
              split_ifs with hcur hdata
              · rfl
              · rfl
              · exact absurd (not_not.mp hdata) (h (not_not.mp hcur))

theorem displayMessage_of_patches (objs : ShownMsgs) {w : ProtocolsStackWidget} {msg : MsgPtr}
    {force : Bool} (h : w.Patches msg force) :
    (w.displayMessage objs msg force).map (fun w' => (w'.children, w'.currentItem)) =
      (patched (objs.get msg) w.children).map fun items => (items, w.currentItem) := by
  obtain ⟨rfl, hcur, hdata⟩ := h
  unfold children at hdata
  unfold displayMessage children
  cases htop : w.topLevelItem with
  | none => simp [htop] at hdata
  | some top =>
      simp only [htop] at hdata
      cases hc : top.children with
      | nil => simp [hc] at hdata
      | cons firstChild rest =>
          have hfirst : firstChild.data = some msg := by simpa [hc] using hdata
          simp only [hc, hcur, hfirst, Bool.false_eq_true, if_false, ne_eq, not_true_eq_false,
            reduceCtorEq]
          rcases rest with _ | ⟨secondChild, _ | ⟨thirdChild, rest⟩⟩
          · rfl
          · rfl
          · rfl

theorem patched_text {m : ShownMsg} {items items' : List ProtocolsItem}
    (h : patched m items = some items') : items'.map (·.text) = items.map (·.text) := by
  match items, h with
  | _ :: _ :: _ :: [], h => cases h; rfl
  | _ :: _ :: _ :: _ :: _, h => cases h; rfl

theorem map_text_partItems (m : ShownMsg) (msg : MsgPtr) :
    (partItems m msg).map (·.text) = (parts m msg).map Prod.fst := by
  rw [partItems, List.map_map]
  rfl

/-- Items patched to the parts of a message are those of its parts. -/
theorem sameParts_of_patched {w : ProtocolsStackWidget} {m : ShownMsg} {msg : MsgPtr}
    (hne : m.transportMsg ≠ some msg)
    (hfirst : w.children.head?.map (·.data) = some (some msg))
    (h : patched m w.children = some (partItems m msg)) : SameParts w m msg := by
  have hshown : w.children.map (·.text) = (parts m msg).map Prod.fst :=
    (patched_text h).symm.trans (map_text_partItems m msg)
  have hdata : ∀ item ∈ partItems m msg, item.data ≠ none := fun _ => data_of_mem_partItems
  rcases hc : w.children with _ | ⟨firstChild, _ | ⟨secondChild, _ | ⟨thirdChild, rest⟩⟩⟩
  · simp [hc, patched] at h
  · simp [hc, patched] at h
  · simp [hc, patched] at h
  simp only [hc, patched, Option.some.injEq] at h
  rw [← h] at hdata
  have htransport : m.transportMsg ≠ none :=
    hdata { secondChild with data := m.transportMsg } (by simp)
  have hrawData : m.rawDataMsg ≠ none := hdata { thirdChild with data := m.rawDataMsg } (by simp)
  refine ⟨fun hid => ?_, htransport, hrawData, hshown⟩
  -- without an id text the transport would be the first item
  obtain ⟨t, ht⟩ := Option.ne_none_iff_exists'.mp htransport
  rw [hc, List.head?_cons, Option.map_some, Option.some.injEq] at hfirst
  simp only [partItems, parts, hid, ht, List.isEmpty_nil, if_true, List.nil_append,
    Option.toList_some, List.map_cons, List.map_nil, List.cons_append, List.cons.injEq] at h
  rw [h.1, itemOf] at hfirst
  exact hne (ht.trans hfirst)

/-- The items of the same parts are patched to those of a rebuild. -/
theorem SameParts.patched_eq {w : ProtocolsStackWidget} {m : ShownMsg} {msg : MsgPtr}
    (h : SameParts w m msg) (hfirst : w.children.head?.map (·.data) = some (some msg)) :
    patched m w.children = some (partItems m msg) := by
  obtain ⟨happ, htransport, hrawData, hshown⟩ := h
  obtain ⟨t, ht⟩ := Option.ne_none_iff_exists'.mp htransport
  obtain ⟨r, hr⟩ := Option.ne_none_iff_exists'.mp hrawData
  have hid : m.idAsString.isEmpty = false := by simpa using happ
  have hparts : parts m msg = (ApplicationStr, msg) :: (TransportStr, t) :: (RawDataStr, r) ::
      m.extraInfoMsg.toList.map (ExtraInfoStr, ·) := by
    simp [parts, hid, ht, hr]
  rw [hparts] at hshown
  rw [partItems, hparts]
  rcases hc : w.children with _ | ⟨firstChild, _ | ⟨secondChild, _ | ⟨thirdChild, rest⟩⟩⟩
  · simp [hc] at hshown
  · simp [hc] at hshown
  · simp [hc] at hshown
  have hdata : firstChild.data = some msg := by simpa [hc] using hfirst
  simp only [hc, List.map_cons, List.cons.injEq] at hshown
  obtain ⟨h₀, h₁, h₂, hrest⟩ := hshown
  have hfirst : firstChild = itemOf (ApplicationStr, msg) := by rw [itemOf, ← h₀, ← hdata]
  simp only [patched, ht, hr, hfirst, h₁, h₂, List.map_cons, itemOf]
  cases hx : m.extraInfoMsg with
  | none =>
      rw [hx] at hrest
      rw [List.map_eq_nil_iff.mp hrest]
      rfl
  | some x =>
      rw [hx] at hrest
      obtain ⟨fourthChild, tail, rfl, h₃, htail⟩ := List.map_eq_cons_iff.mp hrest
      rw [List.map_eq_nil_iff.mp htail]
      simp [h₃, itemOf]

/-- **The patched items are those of a rebuild** exactly if the parts are the ones shown. -/
theorem patched_eq_iff {w : ProtocolsStackWidget} {objs : ShownMsgs} {msg : MsgPtr}
    (hfirst : w.children.head?.map (·.data) = some (some msg)) :
    patched (objs.get msg) w.children = some (partItems (objs.get msg) msg) ↔
      SameParts w (objs.get msg) msg :=
  ⟨sameParts_of_patched (objs.transportMsg_ne msg) hfirst, fun h => h.patched_eq hfirst⟩

/-- **One call** shows the parts of the message exactly if it rebuilds the tree or the parts are the
ones shown. -/
theorem displayMessage_shows_iff {w : ProtocolsStackWidget} (hw : Settled w) (objs : ShownMsgs)
    (msg : MsgPtr) (force : Bool) :
    (∃ w', w.displayMessage objs msg force = some w' ∧
        w'.children = partItems (objs.get msg) msg) ↔
      (w.Patches msg force → SameParts w (objs.get msg) msg) := by
  by_cases h : w.Patches msg force
  · rw [forall_prop_of_true h, ← patched_eq_iff h.2.2]
    have hpatched := displayMessage_of_patches objs h
    constructor
    · rintro ⟨w', hw', hchildren⟩
      rw [hw', Option.map_some] at hpatched
      obtain ⟨items, hitems, heq⟩ := Option.map_eq_some_iff.mp hpatched.symm
      rw [hitems, ← hchildren, (Prod.mk.inj heq).1]
    · intro hparts
      rw [hparts, Option.map_some] at hpatched
      obtain ⟨w', hw', heq⟩ := Option.map_eq_some_iff.mp hpatched
      exact ⟨w', hw', (Prod.mk.inj heq).1⟩
  · refine iff_of_true ?_ fun hp => absurd hp h
    rw [displayMessage_of_not_patches hw h]
    obtain ⟨w', hw', -, hchildren⟩ := rebuild_children w objs msg
    exact ⟨w', hw', hchildren⟩

/-- A call that shows the parts keeps an item current. -/
theorem Settled.displayMessage {w w' : ProtocolsStackWidget} {objs : ShownMsgs} {msg : MsgPtr}
    {force : Bool} (hw : Settled w) (h : w.displayMessage objs msg force = some w')
    (hchildren : w'.children = partItems (objs.get msg) msg) : Settled w' := by
  have hdata : ∀ item ∈ w'.children, item.data ≠ none := by
    intro item hitem
    rw [hchildren] at hitem
    exact data_of_mem_partItems hitem
  by_cases hp : w.Patches msg force
  · have hpatched := displayMessage_of_patches objs hp
    rw [h, Option.map_some] at hpatched
    obtain ⟨items, -, heq⟩ := Option.map_eq_some_iff.mp hpatched.symm
    refine ⟨fun _ => ?_, hdata⟩
    rw [← (Prod.mk.inj heq).2, hp.2.1]
    exact Option.some_ne_none _
  · rw [displayMessage_of_not_patches hw hp] at h
    obtain ⟨w'', hw'', hs, -⟩ := rebuild_children w objs msg
    exact Option.some.inj (h.symm.trans hw'') ▸ hs

/-! ### Runs -/

/-- No assertion fails, and a call shows exactly the parts the message has. -/
def ShowsParts (s : Option ProtocolsStackWidget) (e : ShownMsgs × Event) : Prop :=
  ∃ w', step s e = some w' ∧
    ∀ msg force, e.2 = .displayMessage msg force → w'.children = partItems (e.1.get msg) msg

/-- An event does not patch the items of other parts, nor select the top of an empty tree. -/
def KeepsParts (w : ProtocolsStackWidget) (e : ShownMsgs × Event) : Prop :=
  match e.2 with
  | .displayMessage msg force => w.Patches msg force → SameParts w (e.1.get msg) msg
  | .clear => True
  | .select pos => pos = .top → w.topLevelItem ≠ none → w.children ≠ []

theorem select_iff {w : ProtocolsStackWidget} (hw : Settled w) (objs : ShownMsgs)
    (pos : ProtocolsItemPos) :
    (∃ w', step (some w) (objs, .select pos) = some w') ↔
      (pos = .top → w.topLevelItem ≠ none → w.children ≠ []) := by
  rw [step, Option.bind_some]
  dsimp only
  split_ifs with hitem
  · rw [← Option.isSome_iff_exists]
    refine (newItemSelected_isSome (w := { w with currentItem := some pos }) rfl hw.data
      hitem).trans (forall_congr' ?_)
    rintro rfl
    have htop : w.topLevelItem ≠ none := Option.isSome_iff_ne_none.mp hitem
    exact ⟨fun h _ => h, fun h => h htop⟩
  · refine iff_of_true ⟨w, rfl⟩ ?_
    rintro rfl htop
    exact absurd (Option.isSome_iff_ne_none.mpr htop) hitem

theorem showsParts_iff_keepsParts {w : ProtocolsStackWidget} (hw : Settled w)
    (e : ShownMsgs × Event) : ShowsParts (some w) e ↔ w.KeepsParts e := by
  obtain ⟨objs, ev⟩ := e
  cases ev with
  | displayMessage msg force =>
      refine Iff.trans ?_ (displayMessage_shows_iff hw objs msg force)
      simp [ShowsParts, step]
  | clear => exact iff_of_true ⟨_, rfl, nofun⟩ trivial
  | select pos =>
      refine Iff.trans ?_ (select_iff hw objs pos)
      simp [ShowsParts]

theorem Settled.step {w w' : ProtocolsStackWidget} (hw : Settled w) {e : ShownMsgs × Event}
    (hstep : step (some w) e = some w')
    (hshows : ∀ msg force, e.2 = .displayMessage msg force →
      w'.children = partItems (e.1.get msg) msg) : Settled w' := by
  obtain ⟨objs, ev⟩ := e
  cases ev with
  | displayMessage msg force => exact hw.displayMessage hstep (hshows msg force rfl)
  | clear =>
      cases hstep
      exact ⟨absurd rfl, by simp [ProtocolsStackWidget.clear, children]⟩
  | select pos =>
      rw [ProtocolsStackWidget.step, Option.bind_some] at hstep
      dsimp only at hstep
      split_ifs at hstep
      · exact .newItemSelected hstep hw.data
      · cases hstep
        exact hw

/-- **The parts shown, over a whole run**: every call shows the parts its message has then, and no
assertion fails, exactly if every step of the run keeps the parts. -/
theorem showsParts_iff (evs : List (ShownMsgs × Event)) :
    Runs.Along step (some {}) evs ShowsParts ↔
      Runs.Along step (some {}) evs fun s e => ∀ w, s = some w → w.KeepsParts e := by
  have hiff : ∀ (_ : Unit) s e, True → (∃ w, s = some w ∧ Settled w) →
      (ShowsParts s e ↔ ∀ w, s = some w → w.KeepsParts e) := by
    rintro - _ e - ⟨w, rfl, hw⟩
    rw [showsParts_iff_keepsParts hw]
    exact ⟨fun h w' hw' => Option.some.inj hw' ▸ h, fun h => h w rfl⟩
  have hnext : ∀ (_ : Unit) s e, True → (∃ w, s = some w ∧ Settled w) →
      (∀ w, s = some w → w.KeepsParts e) → ∃ w, step s e = some w ∧ Settled w := by
    rintro - _ e - ⟨w, rfl, hw⟩ hkeeps
    obtain ⟨w', hw', hshows⟩ := (showsParts_iff_keepsParts hw e).mpr (hkeeps w rfl)
    exact ⟨w', hw', hw.step hw' hshows⟩
  have hlegal : Runs.Along (fun (_ : Unit) (_ : ShownMsgs × Event) => ()) () evs
      fun _ _ => True := fun _ _ _ _ => trivial
  exact Runs.along_iff_along hnext hiff ⟨_, rfl, settled_init⟩ hlegal

/-- Garbage: the id text of an invalid message, its bytes as raw data and no transport. -/
def garbageShown : ShownMsgs where
  get _ := ⟨['0'], [], none, some 1, none⟩
  transportMsg_ne _ := nofun

/-- Garbage that is shown as it arrives and again when it is clicked. -/
theorem garbage_shown_twice_asserts :
    ¬ Runs.Along step (some {})
      [(garbageShown, .displayMessage 0 false), (garbageShown, .displayMessage 0 false)]
      ShowsParts := by
  intro h
  obtain ⟨w', hw', -⟩ := h [_] _ [] rfl
  cases hw'

end ProtocolsStackWidget

end CcToolsQt
