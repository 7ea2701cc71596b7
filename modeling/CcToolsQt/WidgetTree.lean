import CcToolsQt.Lib.Mirrored
import CcToolsQt.Qt.Text

/-! # The widgets of a message

The fields of a message form a tree, and so do the widgets that show them.  Lists grow and shrink,
variants change their member: the widget of such a field deletes the widgets of its members and
makes new ones, and the signal of every edit makes the fields around it show their bytes anew.
Fields that are read-only are left out, and so are the boxes for special values.

* `handle`, `refresh`: how widgets are made and refreshed.
* `edit`: an edit of one widget, with the signals it sets off on the way up.
* `step`: what happens to the widgets of a message. -/

namespace CcToolsQt

/-- What the widgets run into: a failed assertion, a field that is reset because it cannot be
written, a value that is not shown as it is or not without further signals, an edit that no control
makes.  What happens then is left out. -/
inductive Stop where
  | asserted
  | reset
  | unshown
  | absent
  deriving DecidableEq

/-- What the program runs into; the other outcomes end what is modelled. -/
def Stop.Fails (stop : Stop) : Prop := stop = .asserted ∨ stop = .reset

/-! ### Fields -/

/-- `comms::field::OptionalMode` -/
inductive OptionalMode where
  | Tentative
  | Exists
  | Missing
  deriving DecidableEq

/-- The widget of a value.  A new one may write the value again when it shows it, as a spin box with
a range does, or fail an assertion: `make` is what it leaves and what it shows.  `quiet` is when
controls that show one value can be set to another one, which they show as it is then, without a
signal, and `enter` what is left and shown when an entered value has been taken with one signal. -/
structure ValueWidget (ν : Type) where
  make : ν → Option (ν × ν)
  quiet : ν → ν → Bool
  enter : ν → ν → Option ν
  quiet_self : ∀ value, quiet value value = true

/-- What kind of field it is: a value with its widget, the elements of a list and how many if their
number is fixed, the members of a variant and the selected one. -/
inductive FieldClass (ν φ : Type) where
  | value (widget : ValueWidget ν) (value : ν)
  | bitfield
  | bundle
  | arrayList (fixedSize : Option ℕ) (element : φ)
  | optional (mode : OptionalMode)
  | variant (names : List QString) (protos : List φ) (index : Option ℕ)

/-- A field of a message; the member of a variant is the selected one. -/
inductive CommsField (ν : Type) where
  | mk (cls : FieldClass ν (CommsField ν)) (members : List (CommsField ν))

namespace FieldClass
variable {ν φ : Type}

def isValue : FieldClass ν φ → Bool
  | value _ _ => true
  | _ => false

def isArrayList : FieldClass ν φ → Bool
  | arrayList _ _ => true
  | _ => false

def isVariant : FieldClass ν φ → Bool
  | variant _ _ _ => true
  | _ => false

/-- The fields that new members are copied from. -/
def protos : FieldClass ν φ → List φ
  | arrayList _ element => [element]
  | variant _ protos _ => protos
  | _ => []

/-- The constructor of `OptionalFieldWidget`. -/
def settled : FieldClass ν φ → FieldClass ν φ
  | optional .Tentative => optional .Missing
  | cls => cls

end FieldClass

namespace CommsField
variable {ν : Type}

def cls : CommsField ν → FieldClass ν (CommsField ν)
  | mk cls _ => cls

def members : CommsField ν → List (CommsField ν)
  | mk _ members => members

def withMembers : CommsField ν → List (CommsField ν) → CommsField ν
  | mk cls _, members => mk cls members

/-- `resize` of the storage, for a list of fixed size. -/
def resized (fixedSize : Option ℕ) (element : CommsField ν) (storage : List (CommsField ν)) :
    List (CommsField ν) :=
  match fixedSize with
  | some n => storage.take n ++ List.replicate (n - storage.length) element
  | none => storage

mutual

/-- What `ToolsFieldCreator::createField` leaves of a field: lists of fixed size have their size. -/
def adjusted : CommsField ν → CommsField ν
  | mk (.value widget value) ms => mk (.value widget value) (adjustedAll ms)
  | mk .bitfield ms => mk .bitfield (adjustedAll ms)
  | mk .bundle ms => mk .bundle (adjustedAll ms)
  | mk (.arrayList fixedSize element) ms =>
      mk (.arrayList fixedSize element) (resized fixedSize (adjusted element) (adjustedAll ms))
  | mk (.optional mode) ms => mk (.optional mode) (adjustedAll ms)
  | mk (.variant names protos index) ms => mk (.variant names protos index) (adjustedAll ms)

def adjustedAll : List (CommsField ν) → List (CommsField ν)
  | [] => []
  | m :: ms => adjusted m :: adjustedAll ms

end

mutual

/-- No optional field is tentative. -/
def settled : CommsField ν → CommsField ν
  | mk cls ms => mk cls.settled (settledAll ms)

def settledAll : List (CommsField ν) → List (CommsField ν)
  | [] => []
  | m :: ms => settled m :: settledAll ms

end

/-- A new member. -/
def fresh (proto : CommsField ν) : CommsField ν := (adjusted proto).settled

/-- The fields differ in their own value at most. -/
def SameButValue (f f' : CommsField ν) : Prop :=
  f'.members = f.members ∧ match f.cls with
    | .value widget _ => ∃ value, f'.cls = .value widget value
    | cls => f'.cls = cls

end CommsField

/-- What is used of the COMMS library: which fields can be written, their bytes, and what reading
bytes makes of the members of a bitfield.  A field can be written if its members can, except that a
list may have too many of them; a tentative field is treated as a missing one, and reading a
bitfield changes the values of its members only. -/
structure Comms (ν : Type) where
  canWrite : CommsField ν → Bool
  write : CommsField ν → List UInt8
  readBitfield : List (CommsField ν) → QString → List (CommsField ν)
  canWrite_of_members : ∀ f : CommsField ν, f.cls.isValue = false → f.cls.isArrayList = false →
    (∀ m ∈ f.members, canWrite m = true) → canWrite f = true
  canWrite_settled : ∀ f : CommsField ν, (∀ m ∈ f.settled.members, canWrite m = true) →
    canWrite f.settled = canWrite f
  write_settled : ∀ f : CommsField ν, write f.settled = write f
  write_unselected : ∀ names protos ms, write (.mk (.variant names protos none) ms) = []
  readBitfield_spec : ∀ ms text, List.Forall₂ CommsField.SameButValue ms (readBitfield ms text)

namespace CommsField
variable {ν : Type} (C : Comms ν)

mutual

/-- `createField` makes the wrappers of the elements of all lists and resets those that cannot be
written; this is when it resets none. -/
def elementsWritable : CommsField ν → Bool
  | mk cls ms => (!cls.isArrayList || ms.all C.canWrite) && elementsWritableAll ms

def elementsWritableAll : List (CommsField ν) → Bool
  | [] => true
  | m :: ms => elementsWritable m && elementsWritableAll ms

end

end CommsField

/-- A `ToolsField` over a field: whether it has a `m_createMemberCb`, and its members. -/
inductive WrappedField where
  | mk (hasCreateMemberCb : Bool) (members : List WrappedField)

namespace WrappedField

def hasCreateMemberCb : WrappedField → Bool
  | mk cb _ => cb

def members : WrappedField → List WrappedField
  | mk _ members => members

mutual

/-- `ToolsField::clone`; the `cloneImpl` of a variant does not copy the callback. -/
def clone : WrappedField → WrappedField
  | mk _ members => mk false (cloneAll members)

def cloneAll : List WrappedField → List WrappedField
  | [] => []
  | t :: ts => clone t :: cloneAll ts

end

/-- `actClone` -/
def actClone : WrappedField → WrappedField
  | mk cb members => mk cb (cloneAll members)

end WrappedField

namespace CommsField
variable {ν : Type}

mutual

/-- The wrapper that `ToolsFieldCreator::createField` makes. -/
def wrap : CommsField ν → WrappedField
  | mk cls ms => .mk cls.isVariant (wrapAll ms)

def wrapAll : List (CommsField ν) → List WrappedField
  | [] => []
  | m :: ms => wrap m :: wrapAll ms

end

end CommsField

/-! ### Widgets -/

/-- What the controls of a widget show.  A list keeps the wrappers of its elements, a variant
whether its wrapper can create members. -/
inductive Face (ν : Type) where
  | value (shown : ν) (serValue : List UInt8)
  | bitfield (serValue : List UInt8)
  | bundle
  | arrayList (wrapped : List WrappedField) (serValue : List UInt8) (nameSuffixes : List ℕ)
  | optional (checked visible : Bool)
  | variant (hasCreateMemberCb : Bool) (serValue : List UInt8) (index memberCombo : Option ℕ)

inductive WidgetTree (ν : Type) where
  | mk (face : Face ν) (members : List (WidgetTree ν))

namespace WidgetTree
variable {ν : Type}

def face : WidgetTree ν → Face ν
  | mk face _ => face

def members : WidgetTree ν → List (WidgetTree ν)
  | mk _ members => members

end WidgetTree

namespace VariantCombo

/-- `fillMemberCombo`: the members that have a name, by name. -/
def fillMemberCombo (names : List QString) : List ℕ :=
  ((names.zipIdx.filter fun info => !info.1.isEmpty).mergeSort fun info info' =>
    !List.lex info'.1 info.1 fun c d => decide (c.toNat < d.toNat)).map Prod.snd

/-- `updateMemberCombo`: the entry of the selected member, `none` for the first item. -/
def updateMemberCombo (names : List QString) (index : Option ℕ) : Option ℕ :=
  index.bind fun memIdx => (fillMemberCombo names).idxOf? memIdx

end VariantCombo

namespace WidgetTree
open VariantCombo
variable {ν : Type} (C : Comms ν)

/-- `assert(m_fieldPtr->canWrite())` -/
def asserting {β : Type} (f : CommsField ν) (x : Except Stop β) : Except Stop β :=
  if C.canWrite f then x else .error .asserted

/-- `refreshInternal`, and `refreshImpl` of the widget of a value. -/
def refreshInternal (f : CommsField ν) (face : Face ν) : Except Stop (Face ν) :=
  match f.cls, face with
  | .value widget value, .value shown _ => asserting C f <|
      if widget.quiet shown value then .ok (.value value (C.write f)) else .error .unshown
  | .bitfield, .bitfield _ => asserting C f (.ok (.bitfield (C.write f)))
  | .bundle, .bundle => .ok .bundle
  | .arrayList _ _, .arrayList wrapped _ nameSuffixes =>
      asserting C f (.ok (.arrayList wrapped (C.write f) nameSuffixes))
  | .optional mode, .optional _ _ =>
      asserting C f (.ok (.optional (mode == .Exists) (mode != .Missing)))
  | .variant _ _ _, .variant cb _ index memberCombo =>
      asserting C f (.ok (.variant cb (C.write f) index memberCombo))
  | _, _ => .error .absent

/-- The constructor of a widget and what adds the widgets of the members to it: the field with the
members these have left, and what is shown.  A list shows its bytes before it makes the widgets of
its elements, a variant without a member shows none. -/
def construct (before : CommsField ν) (t : WrappedField) (ms : List (CommsField ν)) :
    Except Stop (CommsField ν × Face ν) :=
  let after := CommsField.mk before.cls.settled ms
  match before.cls with
  | .value widget value => asserting C before <|
      match widget.make value with
      | some (left, shown) =>
          let after := CommsField.mk (.value widget left) ms
          .ok (after, .value shown (C.write after))
      | none => .error .asserted
  | .bitfield => (refreshInternal C after (.bitfield [])).map fun face => (after, face)
  | .bundle => .ok (after, .bundle)
  | .arrayList _ _ =>
      (refreshInternal C before
        (.arrayList t.actClone.members [] (List.range ms.length))).map fun face => (after, face)
  | .optional _ => (refreshInternal C after (.optional false true)).map fun face => (after, face)
  | .variant names _ index =>
      let face := Face.variant t.actClone.hasCreateMemberCb [] index
        (updateMemberCombo names index)
      if index.isSome then (refreshInternal C after face).map fun face => (after, face)
      else .ok (after, face)

/-- The wrappers that the widgets of the members are made for: a list takes those of its clone. -/
def shownMembers (cls : FieldClass ν (CommsField ν)) (t : WrappedField) : List WrappedField :=
  if cls.isArrayList then t.actClone.members else t.members

mutual

/-- The `handle` functions of `WidgetCreator`: the field afterwards and its widget. -/
def handle : CommsField ν → WrappedField → Except Stop (CommsField ν × WidgetTree ν)
  | .mk cls ms, t => (handleAll ms (shownMembers cls t)).bind fun made =>
      (construct C (.mk cls ms) t made.1).map fun x => (x.1, .mk x.2 made.2)

def handleAll : List (CommsField ν) → List WrappedField →
    Except Stop (List (CommsField ν) × List (WidgetTree ν))
  | m :: ms, t :: ts => (handle m t).bind fun x =>
      (handleAll ms ts).map fun xs => (x.1 :: xs.1, x.2 :: xs.2)
  | ms, _ => .ok (ms, [])

end

/-- `ArrayListFieldWidget::refreshImpl`: the widgets of the elements are made anew. -/
def refreshArrayList (fixedSize : Option ℕ) (element : CommsField ν)
    (storage : List (CommsField ν)) : Except Stop (CommsField ν × WidgetTree ν) :=
  let storage := CommsField.adjustedAll (CommsField.resized fixedSize element storage)
  let f := CommsField.mk (.arrayList fixedSize element) storage
  if CommsField.elementsWritable C f then
    let wrapped := CommsField.wrapAll storage
    asserting C f <| (handleAll C storage wrapped).map fun made =>
      (.mk (.arrayList fixedSize element) made.1,
        .mk (.arrayList wrapped (C.write f) (List.range made.2.length)) made.2)
  else .error .reset

mutual

/-- `refreshImpl`: what is shown first, then the widgets of the members. -/
def refresh : CommsField ν → WidgetTree ν → Except Stop (CommsField ν × WidgetTree ν)
  | .mk cls ms, .mk face ws =>
      match cls with
      | .arrayList fixedSize element => refreshArrayList C fixedSize element ms
      | cls => (refreshInternal C (.mk cls ms) face).bind fun face =>
          (refreshAll ms ws).map fun made => (.mk cls made.1, .mk face made.2)

def refreshAll : List (CommsField ν) → List (WidgetTree ν) →
    Except Stop (List (CommsField ν) × List (WidgetTree ν))
  | ms, [] => .ok (ms, [])
  | [], _ :: _ => .error .absent
  | m :: ms, w :: ws => (refresh m w).bind fun x =>
      (refreshAll ms ws).map fun xs => (x.1 :: xs.1, x.2 :: xs.2)

end

/-! ### Edits -/

end WidgetTree

/-- What the user can do with a widget: enter a value, type the bytes of a bitfield, the buttons of
a list and of an element, the check box, the number and the name of a member. -/
inductive FieldEdit (ν : Type) where
  | value (typed : ν)
  | serialised (text : QString)
  | add
  | remove (idx : ℕ)
  | toggle
  | pickIndex (index : Option ℕ)
  | pickMember (entry : Option ℕ)

namespace WidgetTree
open VariantCombo
variable {ν : Type} (C : Comms ν)

/-- `destroyMemberWidget`, `setCurrentIndex`, `updateCurrent` and `createMemberWidget`; without the
callback `updateCurrent` fails an assertion. -/
def selectMember (cb : Bool) (protos : List (CommsField ν)) (index : Option ℕ) :
    Except Stop (List (CommsField ν) × List (WidgetTree ν)) :=
  match index with
  | none => .ok ([], [])
  | some k =>
      if cb then
        match protos[k]? with
        | some proto =>
            if CommsField.elementsWritable C proto.adjusted then
              (handle C proto.adjusted proto.adjusted.wrap).map fun made => ([made.1], [made.2])
            else .error .reset
        | none => .error .absent
      else .error .asserted

/-- The field, its widget, and whether `sigFieldUpdated` was emitted. -/
abbrev Edited (ν : Type) : Type := CommsField ν × WidgetTree ν × Bool

def emitted (x : CommsField ν × WidgetTree ν) : Edited ν := (x.1, x.2, true)

/-- The slots of the widgets of values, for an entered value: by the time they refresh the widget,
its controls show what is left of it. -/
def valueUpdated (widget : ValueWidget ν) (value : ν) (ms : List (CommsField ν))
    (serValue : List UInt8) (ws : List (WidgetTree ν)) (typed : ν) : Except Stop (Edited ν) :=
  match widget.enter value typed with
  | some left =>
      (refresh C (.mk (.value widget left) ms) (.mk (.value left serValue) ws)).map emitted
  | none => .error .unshown

/-- `serialisedValueUpdated` of a bitfield. -/
def serialisedValueUpdated (isEditEnabled : Bool) (ms : List (CommsField ν)) (w : WidgetTree ν)
    (text : QString) : Except Stop (Edited ν) :=
  if isEditEnabled then
    (refresh C (.mk .bitfield (C.readBitfield ms text)) w).bind fun x =>
      (refreshAll C x.1.members x.2.members).map fun xs =>
        (.mk .bitfield xs.1, .mk x.2.face xs.2, true)
  else .error .asserted

/-- `addNewField` -/
def addNewField (fixedSize : Option ℕ) (element : CommsField ν) (storage : List (CommsField ν)) :
    Except Stop (Edited ν) :=
  let storage := CommsField.adjustedAll (storage ++ [element])
  if CommsField.elementsWritable C (.mk (.arrayList fixedSize element) storage) then
    (refreshArrayList C fixedSize element storage).map emitted
  else .error .reset

/-- `removeField`, from the button of an element. -/
def removeField (fixedSize : Option ℕ) (element : CommsField ν) (storage : List (CommsField ν))
    (w : WidgetTree ν) (idx : ℕ) : Except Stop (Edited ν) :=
  if idx < w.members.length then
    let storage :=
      if storage.length ≤ idx then storage
      else CommsField.adjustedAll (storage.eraseIdx idx)
    if CommsField.elementsWritable C (.mk (.arrayList fixedSize element) storage) then
      (refreshArrayList C fixedSize element storage).map emitted
    else .error .reset
  else .error .absent

/-- `availabilityChanged`, for the other state of the check box. -/
def availabilityChanged (isEditEnabled : Bool) (mode : OptionalMode) (checked visible : Bool)
    (ms : List (CommsField ν)) (ws : List (WidgetTree ν)) : Except Stop (Edited ν) :=
  let newMode := if checked then OptionalMode.Missing else OptionalMode.Exists
  let face := Face.optional (!checked) visible
  if newMode = mode then .ok (.mk (.optional mode) ms, .mk face ws, false)
  else if isEditEnabled then (refresh C (.mk (.optional newMode) ms) (.mk face ws)).map emitted
  else (refreshInternal C (.mk (.optional mode) ms) face).map fun face =>
    (.mk (.optional mode) ms, .mk face ws, false)

/-- `indexUpdated` -/
def indexUpdated (isEditEnabled : Bool) (names : List QString) (protos : List (CommsField ν))
    (current : Option ℕ) (ms : List (CommsField ν)) (cb : Bool) (w : WidgetTree ν)
    (value : Option ℕ) : Except Stop (Edited ν) :=
  if isEditEnabled then
    if value = current then .ok (.mk (.variant names protos current) ms, w, false)
    else (selectMember C cb protos value).bind fun made =>
      (refresh C (.mk (.variant names protos value) made.1)
        (.mk (.variant cb [] value (updateMemberCombo names value)) made.2)).map emitted
  else .error .asserted

/-- `memberComboUpdated` -/
def memberComboUpdated (isEditEnabled : Bool) (names : List QString) (protos : List (CommsField ν))
    (current : Option ℕ) (ms : List (CommsField ν)) (cb : Bool) (w : WidgetTree ν)
    (entry : Option ℕ) : Except Stop (Edited ν) :=
  if isEditEnabled then
    match entry with
    | none =>
        if current = none then .ok (.mk (.variant names protos current) ms, w, false)
        else (refresh C (.mk (.variant names protos none) [])
          (.mk (.variant cb [] none none) [])).map emitted
    | some j =>
        match (fillMemberCombo names)[j]? with
        | some memIdx => (selectMember C cb protos (some memIdx)).bind fun made =>
            (refresh C (.mk (.variant names protos (some memIdx)) made.1)
              (.mk (.variant cb [] (some memIdx) entry) made.2)).map emitted
        | none => .error .absent
  else .ok (.mk (.variant names protos current) ms, w, false)

/-- The slot that handles an edit of the widget itself. -/
def slot (isEditEnabled : Bool) (f : CommsField ν) (w : WidgetTree ν) (e : FieldEdit ν) :
    Except Stop (Edited ν) :=
  match f.cls, w.face, e with
  | .value widget value, .value _ serValue, .value typed =>
      valueUpdated C widget value f.members serValue w.members typed
  | .bitfield, _, .serialised text => serialisedValueUpdated C isEditEnabled f.members w text
  | .arrayList fixedSize element, _, .add => addNewField C fixedSize element f.members
  | .arrayList fixedSize element, _, .remove idx =>
      removeField C fixedSize element f.members w idx
  | .optional mode, .optional checked visible, .toggle =>
      availabilityChanged C isEditEnabled mode checked visible f.members w.members
  | .variant names protos current, .variant cb _ _ _, .pickIndex value =>
      indexUpdated C isEditEnabled names protos current f.members cb w value
  | .variant names protos current, .variant cb _ _ _, .pickMember entry =>
      memberComboUpdated C isEditEnabled names protos current f.members cb w entry
  | _, _, _ => .error .absent

/-- The slots for `sigFieldUpdated` of a member.  They reset the member or the field if it cannot be
written. -/
def memberUpdated (f : CommsField ν) (w : WidgetTree ν) (idx : ℕ) :
    Except Stop (WidgetTree ν) :=
  let canWriteMember := (f.members[idx]?).all C.canWrite
  let canWrite :=
    match f.cls with
    | .bundle => canWriteMember
    | .bitfield => canWriteMember && C.canWrite f
    | _ => C.canWrite f
  if canWrite then (refreshInternal C f w.face).map fun face => WidgetTree.mk face w.members
  else .error .reset

/-- An edit of the widget at the end of a path, with the signals it sets off on the way up. -/
def edit (isEditEnabled : Bool) : List ℕ → CommsField ν → WidgetTree ν → FieldEdit ν →
    Except Stop (Edited ν)
  | [], f, w, e => slot C isEditEnabled f w e
  | i :: path, f, w, e =>
      match f.members[i]?, w.members[i]? with
      | some m, some mw => (edit isEditEnabled path m mw e).bind fun x =>
          let f := f.withMembers (f.members.set i x.1)
          let w := WidgetTree.mk w.face (w.members.set i x.2.1)
          if x.2.2 then (memberUpdated C f w i).map fun w => (f, w, true) else .ok (f, w, false)
      | _, _ => .error .absent

end WidgetTree

/-- The widgets of the fields of a message, whether editing is enabled, and how often
`sigMsgUpdated` was emitted. -/
structure MessageWidget (ν : Type) where
  isEditEnabled : Bool
  fields : List (CommsField ν)
  widgets : List (WidgetTree ν)
  updates : ℕ

inductive MessageEvent (ν : Type) where
  | edit (i : ℕ) (path : List ℕ) (e : FieldEdit ν)
  | refresh
  | setEditEnabled (enabled : Bool)

namespace MessageWidget
variable {ν : Type} (C : Comms ν)

/-- `getMsgWidget`, for new wrappers of the fields. -/
def display (isEditEnabled : Bool) (fields : List (CommsField ν)) :
    Except Stop (MessageWidget ν) :=
  let fields := CommsField.adjustedAll fields
  if CommsField.elementsWritableAll C fields then
    (WidgetTree.handleAll C fields (CommsField.wrapAll fields)).map fun made =>
      ⟨isEditEnabled, made.1, made.2, 0⟩
  else .error .reset

def step (s : MessageWidget ν) : MessageEvent ν → Except Stop (MessageWidget ν)
  | .edit i path e =>
      match s.fields[i]?, s.widgets[i]? with
      | some f, some w => (WidgetTree.edit C s.isEditEnabled path f w e).map fun x =>
          { s with fields := s.fields.set i x.1, widgets := s.widgets.set i x.2.1,
                   updates := s.updates + x.2.2.toNat }
      | _, _ => .error .absent
  | .refresh =>
      if s.isEditEnabled then
        (WidgetTree.refreshAll C s.fields s.widgets).map fun made =>
          { s with fields := made.1, widgets := made.2 }
      else .ok s
  | .setEditEnabled enabled => .ok { s with isEditEnabled := enabled }

/-- A message is displayed, and its widgets are used. -/
def run (isEditEnabled : Bool) (fields : List (CommsField ν)) (evs : List (MessageEvent ν)) :
    Except Stop (MessageWidget ν) :=
  (display C isEditEnabled fields).bind fun s => evs.foldlM (step C) s

end MessageWidget

end CcToolsQt
