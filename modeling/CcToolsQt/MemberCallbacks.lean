import CcToolsQt.WidgetEdits

/-! # Which variants can be given another member

The wrapper of a variant creates its members with a callback that a clone of the wrapper does not
have.  The widgets of a list are made for clones of its elements until the list makes them anew.

* `handle_creates`, `refresh_creates`, `edit_creates`: variants outside lists keep their callback.
* `handle_belowList`: variants in a list that is shown for the first time have none.
* `edit_asserted`: without the callback a variant cannot be given a member.
* `edit_renews`: those in a list that was given or lost an element have theirs again. -/

namespace CcToolsQt
variable {ν : Type}

namespace Face

def isArrayList : Face ν → Bool
  | arrayList _ _ _ => true
  | _ => false

/-- Whether the variant of a widget can create members, if it is one. -/
def callback : Face ν → Option Bool
  | variant cb _ _ _ => some cb
  | _ => none

/-- The controls are not those of a variant that cannot create members. -/
def creates (face : Face ν) : Bool := face.callback.getD true

end Face

namespace CommsField

/-- A path that leads into a list. -/
def belowList : CommsField ν → List ℕ → Bool
  | _, [] => false
  | f, i :: path => f.cls.isArrayList || (f.members[i]?).any (belowList · path)

end CommsField

namespace WidgetTree
open CommsField WrappedField VariantCombo FieldEdit
variable {C : Comms ν}

/-- The members of a widget other than those of a list. -/
def outsideLists (w : WidgetTree ν) : List (WidgetTree ν) :=
  if w.face.isArrayList then [] else w.members

/-- Every variant outside lists can create members. -/
abbrev Creates (w : WidgetTree ν) : Prop :=
  Members.Everywhere outsideLists (fun w => w.face.creates = true) w

section creates
variable {f : CommsField ν} {w : WidgetTree ν} {face : Face ν} {ws : List (WidgetTree ν)}

theorem creates_mk : Creates (.mk face ws) ↔
    face.creates = true ∧ (face.isArrayList = false → ∀ w ∈ ws, Creates w) := by
  rw [Creates, Members.everywhere_iff]
  refine and_congr_right fun _ => ?_
  show (∀ m ∈ if face.isArrayList then [] else ws, _) ↔ _
  cases face.isArrayList with
  | true => simp
  | false => simp

theorem Creates.of_arrayList {wrapped : List WrappedField} {serValue : List UInt8}
    {nameSuffixes : List ℕ} : Creates (.mk (.arrayList wrapped serValue nameSuffixes) ws) :=
  creates_mk.mpr ⟨rfl, fun h => absurd h (Bool.true_eq_false_eq_False).elim⟩

theorem creates_of_callback {face' : Face ν} (h : face'.callback = face.callback)
    (hface : face.creates = true) : face'.creates = true := by
  rw [Face.creates, h]
  exact hface

theorem canCreate_eq (w : WidgetTree ν) : w.canCreate = w.face.callback.getD false := by
  unfold canCreate
  cases w.face <;> rfl

/-! ### Making and refreshing -/

/-- What is shown anew is shown by the same controls. -/
theorem refreshInternal_keeps {face' : Face ν} (h : refreshInternal C f face = .ok face') :
    face'.callback = face.callback ∧ face'.isArrayList = face.isArrayList := by
  unfold refreshInternal at h
  cases hcls : f.cls <;> cases face <;> simp only [hcls, reduceCtorEq] at h <;>
    first
      | obtain rfl := Except.ok.inj h
        exact ⟨rfl, rfl⟩
      | obtain ⟨-, h⟩ := asserting_eq_ok.mp h
        obtain rfl := Except.ok.inj h
        exact ⟨rfl, rfl⟩
      | obtain ⟨-, h⟩ := asserting_eq_ok.mp h
        obtain ⟨-, h⟩ := Stops.ite_eq_ok.mp h
        obtain rfl := Except.ok.inj h
        exact ⟨rfl, rfl⟩

/-- What the constructor of a widget keeps of its field, and the callback it takes from the
wrapper. -/
structure Constructed (f : CommsField ν) (t : WrappedField) (ms : List (CommsField ν))
    (x : CommsField ν × Face ν) : Prop where
  members : x.1.members = ms
  isArrayList : x.1.cls.isArrayList = f.cls.isArrayList
  face : x.2.isArrayList = f.cls.isArrayList
  isVariant : x.1.cls.isVariant = f.cls.isVariant
  callback : x.2.callback = if f.cls.isVariant then some t.hasCreateMemberCb else none

@[simp] theorem settled_isVariant (cls : FieldClass ν (CommsField ν)) :
    cls.settled.isVariant = cls.isVariant := by
  cases cls with
  | optional mode => cases mode <;> rfl
  | _ => rfl

theorem construct_keeps {t : WrappedField} {ms : List (CommsField ν)} {x : CommsField ν × Face ν}
    (h : construct C f t ms = .ok x) : Constructed f t ms x := by
  have hafter : ∀ face : Face ν, face.isArrayList = f.cls.isArrayList →
      face.callback = (if f.cls.isVariant then some t.hasCreateMemberCb else none) →
      Constructed f t ms (.mk f.cls.settled ms, face) := fun face hlist hcallback =>
    ⟨rfl, FieldClass.settled_isArrayList _, hlist, settled_isVariant _, hcallback⟩
  have hrefreshed : ∀ (g : CommsField ν) (face₀ : Face ν), face₀.isArrayList = f.cls.isArrayList →
      face₀.callback = (if f.cls.isVariant then some t.hasCreateMemberCb else none) →
      (refreshInternal C g face₀).map (fun face => (CommsField.mk f.cls.settled ms, face)) = .ok x →
      Constructed f t ms x := by
    intro g face₀ hlist hcallback hx
    obtain ⟨face, hface, rfl⟩ := Stops.map_eq_ok.mp hx
    obtain ⟨hcallback', hlist'⟩ := refreshInternal_keeps hface
    exact hafter face (hlist'.trans hlist) (hcallback'.trans hcallback)
  obtain ⟨cls, members⟩ := f
  cases cls with
  | value widget value =>
      obtain ⟨-, h⟩ := asserting_eq_ok.mp h
      cases hmake : widget.make value with
      | none =>
          rw [hmake] at h
          cases h
      | some made =>
          rw [hmake] at h
          obtain rfl := Except.ok.inj h
          exact ⟨rfl, rfl, rfl, rfl, rfl⟩
  | bitfield => exact hrefreshed _ _ rfl rfl h
  | bundle =>
      obtain rfl := Except.ok.inj h
      exact hafter _ rfl rfl
  | arrayList fixedSize element => exact hrefreshed _ _ rfl rfl h
  | optional mode => exact hrefreshed _ _ rfl rfl h
  | variant names protos index =>
      have hcb : some t.actClone.hasCreateMemberCb = some t.hasCreateMemberCb :=
        congrArg some (actClone_hasCreateMemberCb t)
      cases index with
      | some k =>
          refine hrefreshed _ _ ?_ ?_ h
          · rfl
          · exact hcb
      | none =>
          obtain rfl := Except.ok.inj h
          exact hafter _ rfl hcb

theorem handle_eq_ok {t : WrappedField} {x : CommsField ν × WidgetTree ν}
    (h : handle C f t = .ok x) : ∃ made y, handleAll C f.members (shownMembers f.cls t) = .ok made ∧
      Constructed f t made.1 y ∧ x = (y.1, .mk y.2 made.2) := by
  rw [handle_eq] at h
  obtain ⟨made, hmade, h⟩ := Stops.bind_eq_ok.mp h
  obtain ⟨y, hy, rfl⟩ := Stops.map_eq_ok.mp h
  exact ⟨made, y, hmade, construct_keeps hy, rfl⟩

/-- The widgets are made one by one. -/
theorem handleAll_getElem? {ms : List (CommsField ν)} {ts : List WrappedField}
    {xs : List (CommsField ν) × List (WidgetTree ν)} {i : ℕ} (h : handleAll C ms ts = .ok xs)
    (hw : xs.2[i]? = some w) :
    ∃ m t x, ms[i]? = some m ∧ ts[i]? = some t ∧ handle C m t = .ok x ∧
      xs.1[i]? = some x.1 ∧ w = x.2 := by
  induction ms generalizing ts i xs with
  | nil =>
      have hnil : handleAll C [] ts = .ok ([], []) := by cases ts <;> rfl
      obtain rfl := Except.ok.inj (hnil.symm.trans h)
      cases hw
  | cons m ms ih =>
      cases ts with
      | nil =>
          obtain rfl := Except.ok.inj h
          cases hw
      | cons t ts =>
          rw [handleAll] at h
          obtain ⟨x, hx, h⟩ := Stops.bind_eq_ok.mp h
          obtain ⟨ys, hys, rfl⟩ := Stops.map_eq_ok.mp h
          cases i with
          | zero => exact ⟨m, t, x, rfl, rfl, hx, rfl, (Option.some.inj hw).symm⟩
          | succ i => exact ih hys hw

theorem mem_handleAll {ms : List (CommsField ν)} {ts : List WrappedField}
    {xs : List (CommsField ν) × List (WidgetTree ν)} (h : handleAll C ms ts = .ok xs)
    (hw : w ∈ xs.2) : ∃ (i : ℕ) (m : CommsField ν) (t : WrappedField) (x : _),
      ms[i]? = some m ∧ ts[i]? = some t ∧ handle C m t = .ok x ∧ w = x.2 := by
  obtain ⟨i, hi⟩ := List.mem_iff_getElem?.mp hw
  obtain ⟨m, t, x, hm, ht, hx, -, rfl⟩ := handleAll_getElem? h hi
  exact ⟨i, m, t, x, hm, ht, hx, rfl⟩

theorem wrap_hasCreateMemberCb (f : CommsField ν) : f.wrap.hasCreateMemberCb = f.cls.isVariant := by
  obtain ⟨cls, ms⟩ := f
  rfl

/-- The widgets of a new wrapper: its variants outside lists can create members. -/
theorem handle_creates (f : CommsField ν) {x : CommsField ν × WidgetTree ν}
    (h : handle C f f.wrap = .ok x) : Creates x.2 := by
  induction f using CommsField.induct generalizing x with
  | h f _ hmembers =>
      obtain ⟨made, y, hmade, hy, rfl⟩ := handle_eq_ok h
      refine creates_mk.mpr ⟨?_, fun hlist w hw => ?_⟩
      · rw [Face.creates, hy.callback, wrap_hasCreateMemberCb]
        cases f.cls.isVariant <;> rfl
      · have hts : shownMembers f.cls f.wrap = f.members.map wrap := by
          rw [shownMembers, ← hy.face, hlist, ← wrap_members]
          rfl
        obtain ⟨i, m, t, x, hm, ht, hx, rfl⟩ := mem_handleAll hmade hw
        rw [hts, List.getElem?_map, hm] at ht
        obtain rfl := Option.some.inj ht
        exact hmembers m (List.mem_of_getElem? hm) hx

theorem handleAll_creates {ms : List (CommsField ν)}
    {xs : List (CommsField ν) × List (WidgetTree ν)} (h : handleAll C ms (wrapAll ms) = .ok xs) :
    ∀ w ∈ xs.2, Creates w := by
  intro w hw
  rw [wrapAll_eq_map] at h
  obtain ⟨i, m, t, x, hm, ht, hx, rfl⟩ := mem_handleAll h hw
  rw [List.getElem?_map, hm] at ht
  obtain rfl := Option.some.inj ht
  exact handle_creates m hx

theorem refreshArrayList_renews {fixedSize : Option ℕ} {element : CommsField ν}
    {storage : List (CommsField ν)} {x : CommsField ν × WidgetTree ν}
    (h : refreshArrayList C fixedSize element storage = .ok x) :
    Creates x.2 ∧ ∀ w ∈ x.2.members, Creates w := by
  unfold refreshArrayList at h
  obtain ⟨-, h⟩ := Stops.ite_eq_ok.mp h
  obtain ⟨-, h⟩ := asserting_eq_ok.mp h
  obtain ⟨made, hmade, rfl⟩ := Stops.map_eq_ok.mp h
  exact ⟨.of_arrayList, handleAll_creates hmade⟩

theorem refreshAll_creates {ms : List (CommsField ν)}
    {x : List (CommsField ν) × List (WidgetTree ν)} (h : refreshAll C ms ws = .ok x)
    (hP : ∀ m ∈ ms, ∀ w y, refresh C m w = .ok y → Creates w → Creates y.2)
    (hws : ∀ w ∈ ws, Creates w) : ∀ w ∈ x.2, Creates w := by
  induction ws generalizing ms x with
  | nil =>
      cases ms <;> rw [refreshAll] at h <;> obtain rfl := Except.ok.inj h <;>
        exact fun w hw => absurd hw List.not_mem_nil
  | cons w ws ih =>
      cases ms with
      | nil =>
          rw [refreshAll] at h
          cases h
      | cons m ms =>
          rw [refreshAll] at h
          obtain ⟨y, hy, h⟩ := Stops.bind_eq_ok.mp h
          obtain ⟨ys, hys, rfl⟩ := Stops.map_eq_ok.mp h
          obtain ⟨hw, hws⟩ := List.forall_mem_cons.mp hws
          exact List.forall_mem_cons.mpr ⟨hP m List.mem_cons_self w y hy hw,
            ih hys (fun m' hm' => hP m' (List.mem_cons_of_mem _ hm')) hws⟩

theorem refresh_creates (f : CommsField ν) (w : WidgetTree ν) {x : CommsField ν × WidgetTree ν}
    (h : refresh C f w = .ok x) (hw : Creates w) : Creates x.2 := by
  induction f using CommsField.induct generalizing w x with
  | h f _ hmembers =>
      cases hcls : f.cls.isArrayList with
      | true =>
          obtain ⟨fixedSize, element, hcls⟩ : ∃ fixedSize element,
              f.cls = .arrayList fixedSize element := by
            cases hf : f.cls with
            | arrayList fixedSize element => exact ⟨fixedSize, element, rfl⟩
            | _ => simp [hf, FieldClass.isArrayList] at hcls
          rw [refresh_arrayList hcls] at h
          exact (refreshArrayList_renews h).1
      | false =>
          obtain ⟨face, ws⟩ := w
          obtain ⟨hface, hws⟩ := creates_mk.mp hw
          rw [refresh_eq hcls] at h
          obtain ⟨face', hface', h⟩ := Stops.bind_eq_ok.mp h
          obtain ⟨ys, hys, rfl⟩ := Stops.map_eq_ok.mp h
          obtain ⟨hcallback, hlist⟩ := refreshInternal_keeps hface'
          refine creates_mk.mpr ⟨creates_of_callback hcallback hface, fun hface'' => ?_⟩
          exact refreshAll_creates hys (fun m hm w y hy => hmembers m hm w hy)
            (hws (hlist.symm.trans hface''))

/-! ### Clones -/

/-- No wrapper has the callback. -/
abbrev NoCallbacks (t : WrappedField) : Prop :=
  Members.Everywhere WrappedField.members (fun t => t.hasCreateMemberCb = false) t

theorem noCallbacks_clone (f : CommsField ν) {t : WrappedField} (h : Wraps f t) :
    NoCallbacks t.clone := by
  induction h with
  | intro f t _ hlength _ ih =>
      refine .intro _ ?_ fun m hm => ?_
      · obtain ⟨cb, ms⟩ := t
        rfl
      · rw [clone_members] at hm
        obtain ⟨t', ht', rfl⟩ := List.mem_map.mp hm
        obtain ⟨i, hi⟩ := List.mem_iff_getElem?.mp ht'
        have hlt : i < f.members.length := hlength ▸ (List.getElem?_eq_some_iff.mp hi).1
        exact ih i _ t' (List.getElem?_eq_getElem hlt) hi

/-- The wrappers of the elements of a cloned list. -/
theorem noCallbacks_actClone {t t' : WrappedField} (h : Wraps f t)
    (ht' : t' ∈ t.actClone.members) : NoCallbacks t' := by
  rw [actClone_members] at ht'
  obtain ⟨t'', ht'', rfl⟩ := List.mem_map.mp ht'
  obtain ⟨i, hi⟩ := List.mem_iff_getElem?.mp ht''
  have hlt : i < f.members.length := h.pairs.length_eq ▸ (List.getElem?_eq_some_iff.mp hi).1
  exact noCallbacks_clone _ ((Members.forall₂_iff_getElem?.mp h.pairs).2 i _ t''
    (List.getElem?_eq_getElem hlt) hi)

/-- Widgets made for wrappers without the callback cannot create members. -/
theorem handle_noCallbacks (f : CommsField ν) (t : WrappedField) (h : Wraps f t)
    (ht : NoCallbacks t) {x : CommsField ν × WidgetTree ν} (hx : handle C f t = .ok x) :
    Members.Everywhere members (fun w => w.canCreate = false) x.2 := by
  induction f using CommsField.induct generalizing t x with
  | h f _ hmembers =>
      obtain ⟨made, y, hmade, hy, rfl⟩ := handle_eq_ok hx
      refine .intro _ ?_ fun w hw => ?_
      · rw [canCreate_eq]
        show y.2.callback.getD false = false
        rw [hy.callback, ht.here]
        cases f.cls.isVariant <;> rfl
      · obtain ⟨i, m, t', x, hm, ht', hx, rfl⟩ := mem_handleAll hmade hw
        have hwraps : Wraps m t' :=
          (Members.forall₂_iff_getElem?.mp (wraps_shownMembers h)).2 i m t' hm ht'
        refine hmembers m (List.mem_of_getElem? hm) t' hwraps ?_ hx
        rw [shownMembers] at ht'
        split_ifs at ht' with hlist
        · exact noCallbacks_actClone h (List.mem_of_getElem? ht')
        · exact ht.member (List.mem_of_getElem? ht')

/-- **In a list that is shown for the first time** no variant can create members. -/
theorem handle_belowList {path : List ℕ} {f : CommsField ν} {t : WrappedField} (h : Wraps f t)
    {x : CommsField ν × WidgetTree ν} (hx : handle C f t = .ok x)
    (hw : Members.nodeAt members x.2 path = some w) (hbelow : belowList x.1 path = true) :
    w.canCreate = false := by
  induction path generalizing f t x with
  | nil => exact absurd hbelow Bool.false_ne_true
  | cons i path ih =>
      obtain ⟨made, y, hmade, hy, rfl⟩ := handle_eq_ok hx
      obtain ⟨mw, hmw, hw⟩ := Option.bind_eq_some_iff.mp hw
      obtain ⟨m, t', z, hm, ht', hz, hfield, rfl⟩ := handleAll_getElem? hmade hmw
      have hwraps : Wraps m t' :=
        (Members.forall₂_iff_getElem?.mp (wraps_shownMembers h)).2 i m t' hm ht'
      rw [belowList, hy.members, hfield, Option.any_some, Bool.or_eq_true, hy.isArrayList] at hbelow
      rcases hbelow with hlist | hbelow
      · rw [shownMembers, if_pos hlist] at ht'
        have hclone : NoCallbacks t' := noCallbacks_actClone h (List.mem_of_getElem? ht')
        exact ((handle_noCallbacks m t' hwraps hclone hz).nodeAt hw).here
      · exact ih hwraps hz hw hbelow

/-- Widgets have the shape of the field they are made for, with a callback or the lack of it for
every variant. -/
abbrev Shaped (f : CommsField ν) (w : WidgetTree ν) : Prop :=
  Members.Mirrored CommsField.members members
    (fun f w => w.face.callback.isSome = f.cls.isVariant) f w

theorem handleAll_shaped {ms : List (CommsField ν)} {ts : List WrappedField}
    {xs : List (CommsField ν) × List (WidgetTree ν)} (h : List.Forall₂ Wraps ms ts)
    (hxs : handleAll C ms ts = .ok xs)
    (hP : ∀ m ∈ ms, ∀ t x, Wraps m t → handle C m t = .ok x → Shaped x.1 x.2) :
    List.Forall₂ Shaped xs.1 xs.2 := by
  induction h generalizing xs with
  | nil =>
      obtain rfl := Except.ok.inj hxs
      exact .nil
  | @cons m t ms ts hm h ih =>
      rw [handleAll] at hxs
      obtain ⟨x, hx, hxs⟩ := Stops.bind_eq_ok.mp hxs
      obtain ⟨ys, hys, rfl⟩ := Stops.map_eq_ok.mp hxs
      exact .cons (hP m List.mem_cons_self t x hm hx)
        (ih hys fun m' hm' => hP m' (List.mem_cons_of_mem _ hm'))

theorem handle_shaped (f : CommsField ν) (t : WrappedField) (h : Wraps f t)
    {x : CommsField ν × WidgetTree ν} (hx : handle C f t = .ok x) : Shaped x.1 x.2 := by
  induction f using CommsField.induct generalizing t x with
  | h f _ hmembers =>
      obtain ⟨made, y, hmade, hy, rfl⟩ := handle_eq_ok hx
      refine Members.mirrored_iff.mpr ⟨?_, ?_⟩
      · show y.2.callback.isSome = y.1.cls.isVariant
        rw [hy.callback, hy.isVariant]
        cases f.cls.isVariant <;> rfl
      · show List.Forall₂ _ y.1.members made.2
        rw [hy.members]
        exact handleAll_shaped (wraps_shownMembers h) hmade fun m hm t x hm' hx =>
          hmembers m hm t hm' hx

/-- **Without the callback** a variant is not given a member: `updateCurrent` fails its
assertion. -/
theorem slot_asserted {e : FieldEdit ν} {n : CommsField ν} {nw : WidgetTree ν}
    (hcreate : nw.canCreate = false) (hface : nw.face.callback.isSome = n.cls.isVariant)
    (he : e.selects = true) (ho : Offered C true n e) : slot C true n nw e = .error .asserted := by
  obtain ⟨cls, ms⟩ := n
  obtain ⟨face, ws⟩ := nw
  cases cls with
  | variant names protos current =>
      cases face with
      | variant cb serValue index memberCombo =>
          obtain rfl : cb = false := hcreate
          cases e with
          | pickIndex value =>
              obtain ⟨-, hne, -⟩ := ho
              obtain ⟨k, rfl⟩ := Option.isSome_iff_exists.mp he
              show indexUpdated C true names protos current ms false _ (some k) = _
              rw [indexUpdated, if_pos rfl, if_neg hne]
              rfl
          | pickMember entry =>
              obtain ⟨j, rfl⟩ := Option.isSome_iff_exists.mp he
              obtain ⟨k, hk, -⟩ := ho.2 j rfl
              show memberComboUpdated C true names protos current ms false _ (some j) = _
              rw [memberComboUpdated, if_pos rfl]
              simp only [hk]
              rfl
          | _ => exact absurd he Bool.false_ne_true
      | _ => exact absurd hface Bool.false_ne_true
  | _ => cases e <;> first | exact ho.elim | exact absurd he Bool.false_ne_true

theorem edit_asserted {e : FieldEdit ν} {path : List ℕ} {n : CommsField ν} {nw : WidgetTree ν}
    (hw : Shaped f w) (hn : Members.nodeAt CommsField.members f path = some n)
    (hnw : Members.nodeAt members w path = some nw) (hcreate : nw.canCreate = false)
    (he : e.selects = true) (ho : Offered C true n e) :
    edit C true path f w e = .error .asserted := by
  induction path generalizing f w with
  | nil =>
      obtain rfl := Option.some.inj hn
      obtain rfl := Option.some.inj hnw
      exact slot_asserted hcreate hw.here he ho
  | cons i path ih =>
      obtain ⟨m, hm, hn⟩ := Option.bind_eq_some_iff.mp hn
      obtain ⟨mw, hmw, hnw⟩ := Option.bind_eq_some_iff.mp hnw
      obtain ⟨mw', hmw', hshaped⟩ := hw.getElem? hm
      obtain rfl := Option.some.inj (hmw.symm.trans hmw')
      rw [edit, hm, hmw]
      simp only
      rw [ih hshaped hn hnw]
      rfl

/-! ### Edits -/

theorem refresh_emitted {x : Edited ν} (h : (refresh C f w).map emitted = .ok x)
    (hw : Creates w) : Creates x.2.1 := by
  obtain ⟨y, hy, rfl⟩ := Stops.map_eq_ok.mp h
  exact refresh_creates f w hy hw

theorem refreshArrayList_emitted {fixedSize : Option ℕ} {element : CommsField ν}
    {storage : List (CommsField ν)} {x : Edited ν}
    (h : (if elementsWritable C (.mk (.arrayList fixedSize element) storage) then
      (refreshArrayList C fixedSize element storage).map emitted else .error .reset) = .ok x) :
    Creates x.2.1 ∧ ∀ w ∈ x.2.1.members, Creates w := by
  obtain ⟨-, h⟩ := Stops.ite_eq_ok.mp h
  obtain ⟨y, hy, rfl⟩ := Stops.map_eq_ok.mp h
  exact refreshArrayList_renews hy

theorem addNewField_renews {fixedSize : Option ℕ} {element : CommsField ν}
    {storage : List (CommsField ν)} {x : Edited ν}
    (h : addNewField C fixedSize element storage = .ok x) :
    Creates x.2.1 ∧ ∀ w ∈ x.2.1.members, Creates w := refreshArrayList_emitted h

theorem removeField_renews {fixedSize : Option ℕ} {element : CommsField ν}
    {storage : List (CommsField ν)} {idx : ℕ} {x : Edited ν}
    (h : removeField C fixedSize element storage w idx = .ok x) :
    Creates x.2.1 ∧ ∀ w ∈ x.2.1.members, Creates w := by
  obtain ⟨-, h⟩ := Stops.ite_eq_ok.mp h
  exact refreshArrayList_emitted h

theorem availabilityChanged_creates {enabled checked visible : Bool} {mode : OptionalMode}
    {ms : List (CommsField ν)} {x : Edited ν}
    (h : availabilityChanged C enabled mode checked visible ms ws = .ok x)
    (hw : Creates (.mk (.optional checked visible) ws)) : Creates x.2.1 := by
  have hws : ∀ checked', Creates (.mk (.optional checked' visible) ws) := fun _ =>
    creates_mk.mpr ⟨rfl, (creates_mk.mp hw).2⟩
  simp only [availabilityChanged] at h
  generalize (if checked = true then OptionalMode.Missing else .Exists) = newMode at h
  split_ifs at h with hmode henabled
  · obtain rfl := Except.ok.inj h
    exact hws _
  · exact refresh_emitted h (hws _)
  · obtain ⟨face', hface, rfl⟩ := Stops.map_eq_ok.mp h
    exact creates_mk.mpr ⟨creates_of_callback (refreshInternal_keeps hface).1 rfl,
      fun _ => (creates_mk.mp hw).2 rfl⟩

theorem valueUpdated_creates {widget : ValueWidget ν} {v typed : ν} {ms : List (CommsField ν)}
    {serValue : List UInt8} {x : Edited ν}
    (h : valueUpdated C widget v ms serValue ws typed = .ok x)
    (hws : Face.isArrayList (.value v serValue) = false → ∀ w ∈ ws, Creates w) :
    Creates x.2.1 := by
  unfold valueUpdated at h
  cases hleft : widget.enter v typed with
  | none =>
      rw [hleft] at h
      cases h
  | some left =>
      rw [hleft] at h
      exact refresh_emitted h (creates_mk.mpr ⟨rfl, hws⟩)

/-- The widget of the member that a variant was given. -/
theorem selectMember_creates {cb : Bool} {protos : List (CommsField ν)} {index : Option ℕ}
    {made : List (CommsField ν) × List (WidgetTree ν)}
    (h : selectMember C cb protos index = .ok made) : ∀ w ∈ made.2, Creates w := by
  cases index with
  | none =>
      obtain rfl := Except.ok.inj h
      exact fun w hw => absurd hw List.not_mem_nil
  | some k =>
      obtain ⟨-, h⟩ := Stops.ite_eq_ok.mp h
      cases hproto : protos[k]? with
      | none =>
          rw [hproto] at h
          cases h
      | some proto =>
          rw [hproto] at h
          obtain ⟨-, h⟩ := Stops.ite_eq_ok.mp h
          obtain ⟨x, hx, rfl⟩ := Stops.map_eq_ok.mp h
          exact List.forall_mem_singleton.mpr (handle_creates proto.adjusted hx)

theorem select_creates {names : List QString} {protos : List (CommsField ν)} {cb : Bool}
    {index selected entry : Option ℕ} {x : Edited ν} (hcb : cb = true)
    (h : ((selectMember C cb protos index).bind fun made =>
      (refresh C (.mk (.variant names protos selected) made.1)
        (.mk (.variant cb [] selected entry) made.2)).map emitted) = .ok x) :
    Creates x.2.1 := by
  obtain ⟨made, hmade, h⟩ := Stops.bind_eq_ok.mp h
  exact refresh_emitted h (creates_mk.mpr ⟨hcb, fun _ => selectMember_creates hmade⟩)

theorem pickMember_creates {names : List QString} {protos : List (CommsField ν)} {cb : Bool}
    {current : Option ℕ} {ms : List (CommsField ν)} {j : ℕ} {x : Edited ν} (hcb : cb = true)
    (h : memberComboUpdated C true names protos current ms cb w (some j) = .ok x) :
    Creates x.2.1 := by
  rw [memberComboUpdated, if_pos rfl] at h
  cases hentry : (fillMemberCombo names)[j]? with
  | none =>
      simp only [hentry] at h
      cases h
  | some memIdx =>
      simp only [hentry] at h
      exact select_creates hcb h

/-- Every slot keeps the callbacks of the variants outside lists. -/
theorem slot_creates {enabled : Bool} {e : FieldEdit ν} {x : Edited ν}
    (h : slot C enabled f w e = .ok x) (hw : Creates w) : Creates x.2.1 := by
  have habsent : ∀ {P : Prop}, (.error .absent : Except Stop (Edited ν)) = .ok x → P := by
    intro P h
    cases h
  obtain ⟨cls, ms⟩ := f
  obtain ⟨face, ws⟩ := w
  cases cls with
  | value widget v =>
      cases face with
      | value shown serValue =>
          cases e with
          | value typed => exact valueUpdated_creates h (creates_mk.mp hw).2
          | _ => exact habsent h
      | _ => cases e <;> exact habsent h
  | bitfield =>
      cases e with
      | serialised text =>
          obtain ⟨-, h⟩ := Stops.ite_eq_ok.mp h
          obtain ⟨⟨f', ⟨face', ws'⟩⟩, hy, h⟩ := Stops.bind_eq_ok.mp h
          obtain ⟨ys, hys, rfl⟩ := Stops.map_eq_ok.mp h
          obtain ⟨hface, hws⟩ := creates_mk.mp (refresh_creates _ _ hy hw)
          exact creates_mk.mpr ⟨hface, fun hlist =>
            refreshAll_creates hys (fun m _ w z => refresh_creates m w) (hws hlist)⟩
      | _ => exact habsent h
  | bundle => exact habsent h
  | arrayList fixedSize element =>
      cases e with
      | add => exact (addNewField_renews h).1
      | remove idx => exact (removeField_renews h).1
      | _ => exact habsent h
  | optional mode =>
      cases e with
      | toggle =>
          cases face with
          | optional checked visible => exact availabilityChanged_creates h hw
          | _ => exact habsent h
      | _ => cases face <;> exact habsent h
  | variant names protos current =>
      cases face with
      | variant cb serValue index memberCombo =>
          have hcb : cb = true := (creates_mk.mp hw).1
          cases e with
          | pickIndex value =>
              obtain ⟨-, h⟩ := Stops.ite_eq_ok.mp h
              split_ifs at h with hvalue
              · obtain rfl := Except.ok.inj h
                exact hw
              · exact select_creates hcb h
          | pickMember entry =>
              cases enabled with
              | false =>
                  obtain rfl := Except.ok.inj h
                  exact hw
              | true =>
                  cases entry with
                  | none =>
                      obtain ⟨-, h⟩ | ⟨-, h⟩ := ite_eq_iff.mp h
                      · obtain rfl := Except.ok.inj h
                        exact hw
                      · exact refresh_emitted h (creates_mk.mpr
                          ⟨hcb, fun _ w hw => absurd hw List.not_mem_nil⟩)
                  | some j =>
                      exact pickMember_creates hcb h
          | _ => exact habsent h
      | _ => cases e <;> exact habsent h

theorem memberUpdated_keeps {idx : ℕ} {w' : WidgetTree ν} (h : memberUpdated C f w idx = .ok w') :
    ∃ face, w' = .mk face w.members ∧ face.callback = w.face.callback ∧
      face.isArrayList = w.face.isArrayList := by
  unfold memberUpdated at h
  obtain ⟨-, h⟩ := Stops.ite_eq_ok.mp h
  obtain ⟨face, hface, rfl⟩ := Stops.map_eq_ok.mp h
  exact ⟨face, rfl, refreshInternal_keeps hface⟩

/-- An edit below leaves the controls of the widget and edits one of its members. -/
theorem edit_cons {enabled : Bool} {i : ℕ} {path : List ℕ} {e : FieldEdit ν} {x : Edited ν}
    (h : edit C enabled (i :: path) f w e = .ok x) :
    ∃ m mw y face, w.members[i]? = some mw ∧ edit C enabled path m mw e = .ok y ∧
      x.2.1 = .mk face (w.members.set i y.2.1) ∧ face.callback = w.face.callback ∧
      face.isArrayList = w.face.isArrayList := by
  rw [edit] at h
  cases hm : f.members[i]? with
  | none =>
      simp only [hm] at h
      cases h
  | some m =>
      cases hmw : w.members[i]? with
      | none =>
          simp only [hm, hmw] at h
          cases h
      | some mw =>
          simp only [hm, hmw] at h
          obtain ⟨y, hy, h⟩ := Stops.bind_eq_ok.mp h
          split_ifs at h with hemitted
          · obtain ⟨w', hw', rfl⟩ := Stops.map_eq_ok.mp h
            obtain ⟨face, rfl, hface⟩ := memberUpdated_keeps hw'
            exact ⟨m, mw, y, face, rfl, hy, rfl, hface⟩
          · obtain rfl := Except.ok.inj h
            exact ⟨m, mw, y, w.face, rfl, hy, rfl, rfl, rfl⟩

/-- **An edit keeps the callbacks** of the variants outside lists. -/
theorem edit_creates {enabled : Bool} {path : List ℕ} {e : FieldEdit ν} {x : Edited ν}
    (h : edit C enabled path f w e = .ok x) (hw : Creates w) : Creates x.2.1 := by
  induction path generalizing f w x with
  | nil => exact slot_creates h hw
  | cons i path ih =>
      obtain ⟨m, mw, y, face, hmw, hy, hx, hcallback, hlist⟩ := edit_cons h
      obtain ⟨face₀, ws⟩ := w
      obtain ⟨hface, hws⟩ := creates_mk.mp hw
      rw [hx]
      refine creates_mk.mpr ⟨creates_of_callback hcallback hface, fun hface' w' hw' => ?_⟩
      have hall : ∀ w ∈ ws, Creates w := hws (hlist.symm.trans hface')
      rcases List.mem_or_eq_of_mem_set hw' with hw' | rfl
      · exact hall w' hw'
      · exact ih hy (hall mw (List.mem_of_getElem? hmw))

/-- The buttons of a list and of its elements. -/
def remakes : FieldEdit ν → Bool
  | .add | .remove _ => true
  | _ => false

theorem slot_renews {enabled : Bool} {e : FieldEdit ν} {x : Edited ν}
    (h : slot C enabled f w e = .ok x) (he : remakes e = true) :
    ∀ mw ∈ x.2.1.members, Creates mw := by
  obtain ⟨cls, ms⟩ := f
  obtain ⟨face, ws⟩ := w
  cases e with
  | add =>
      cases cls with
      | arrayList fixedSize element => exact (addNewField_renews h).2
      | _ => cases face <;> cases h
  | remove idx =>
      cases cls with
      | arrayList fixedSize element => exact (removeField_renews h).2
      | _ => cases face <;> cases h
  | _ => exact absurd he Bool.false_ne_true

/-- **A list that was given or lost an element**: the variants in its elements can create
members. -/
theorem edit_renews {enabled : Bool} {path : List ℕ} {e : FieldEdit ν} {x : Edited ν}
    {nw : WidgetTree ν} (h : edit C enabled path f w e = .ok x) (he : remakes e = true)
    (hn : Members.nodeAt members x.2.1 path = some nw) : ∀ mw ∈ nw.members, Creates mw := by
  induction path generalizing f w x with
  | nil =>
      obtain rfl := Option.some.inj hn
      exact slot_renews h he
  | cons i path ih =>
      obtain ⟨m, mw, y, face, hmw, hy, hx, -⟩ := edit_cons h
      have hi : i < w.members.length := (List.getElem?_eq_some_iff.mp hmw).1
      obtain ⟨mw', hmw', hn⟩ := Option.bind_eq_some_iff.mp hn
      rw [hx] at hmw'
      have hset : (w.members.set i y.2.1)[i]? = some mw' := hmw'
      rw [List.getElem?_set_self hi] at hset
      obtain rfl := Option.some.inj hset
      exact ih hy hn

/-! ### At the end of a path -/

theorem FaceShows.isArrayList (h : FaceShows C f face) : face.isArrayList = f.cls.isArrayList := by
  unfold FaceShows at h
  cases hcls : f.cls <;> cases face <;> simp only [hcls] at h <;> rfl

/-- A variant outside lists can create members. -/
theorem Creates.nodeAt {path : List ℕ} {nw : WidgetTree ν} (h : Creates w) (hw : Shows C f w)
    (hbelow : belowList f path = false) (hn : Members.nodeAt members w path = some nw) :
    Creates nw := by
  induction path generalizing f w with
  | nil => exact Option.some.inj hn ▸ h
  | cons i path ih =>
      obtain ⟨face, ws⟩ := w
      obtain ⟨mw, hmw, hn⟩ := Option.bind_eq_some_iff.mp hn
      obtain ⟨m, hm⟩ : ∃ m, f.members[i]? = some m := by
        have hi : i < f.members.length :=
          hw.pairs.length_eq ▸ (List.getElem?_eq_some_iff.mp hmw).1
        exact ⟨_, List.getElem?_eq_getElem hi⟩
      have hshows : Shows C m mw := (Members.forall₂_iff_getElem?.mp hw.pairs).2 i m mw hm hmw
      rw [belowList, hm, Option.any_some, Bool.or_eq_false_iff] at hbelow
      have hlist : face.isArrayList = false := hw.here.isArrayList.trans hbelow.1
      exact ih ((creates_mk.mp h).2 hlist mw (List.mem_of_getElem? hmw)) hshows hbelow.2 hn

theorem canCreate_of_creates (h : Creates w) (hw : Shows C f w) (hf : f.cls.isVariant = true) :
    w.canCreate = true := by
  have hcreates : w.face.creates = true := h.here
  have hface : FaceShows C f w.face := hw.here
  unfold FaceShows at hface
  unfold canCreate
  cases hcls : f.cls with
  | variant names protos selected =>
      rw [hcls] at hface
      cases hw : w.face with
      | variant cb serValue index memberCombo =>
          rw [hw] at hcreates
          exact hcreates
      | _ =>
          rw [hw] at hface
          exact hface.elim
  | _ => exact absurd hf (by simp [hcls, FieldClass.isVariant])

end creates

end WidgetTree

end CcToolsQt
