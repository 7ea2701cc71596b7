import CcToolsQt.Lib.Stops
import CcToolsQt.WidgetTree

/-! # Making and refreshing the widgets of a field

Widgets show a field if every one of them shows what the field below it holds now.  A field whose
values are such that their widgets show them as they are is not changed by its widgets, unless
something below it cannot be written: then an assertion fails, or a field is reset.

* `handle_leaves`: the widgets that are made show the field.
* `refresh_leaves`: refreshing widgets that fit the field makes them show it. -/

namespace CcToolsQt
variable {ν : Type}

namespace CommsField
variable {f m : CommsField ν}

/-! ### Induction over a field -/

theorem sizeOf_members (h : m ∈ f.members) : sizeOf m < sizeOf f := by
  cases f with
  | mk cls ms =>
      have hlt : sizeOf m < sizeOf ms := List.sizeOf_lt_of_mem h
      rw [mk.sizeOf_spec]
      omega

theorem sizeOf_protos (h : m ∈ f.cls.protos) : sizeOf m < sizeOf f := by
  cases f with
  | mk cls ms =>
      have hlt : sizeOf m < sizeOf cls := by
        cases cls with
        | arrayList fixedSize element =>
            obtain rfl := List.mem_singleton.mp h
            simp only [FieldClass.arrayList.sizeOf_spec]
            omega
        | variant names protos index =>
            have hprotos : sizeOf m < sizeOf protos := List.sizeOf_lt_of_mem h
            simp only [FieldClass.variant.sizeOf_spec]
            omega
        | _ => exact absurd h List.not_mem_nil
      rw [mk.sizeOf_spec]
      omega

/-- A field has a property that it has if its members and what new members are copied from do. -/
theorem induct {P : CommsField ν → Prop}
    (h : ∀ f : CommsField ν, (∀ m ∈ f.cls.protos, P m) → (∀ m ∈ f.members, P m) → P f)
    (f : CommsField ν) : P f :=
  h f
    (fun m hm =>
      have _hlt : sizeOf m < sizeOf f := sizeOf_protos hm
      induct h m)
    (fun m hm =>
      have _hlt : sizeOf m < sizeOf f := sizeOf_members hm
      induct h m)
termination_by sizeOf f
decreasing_by all_goals exact _hlt

/-! ### What making a wrapper and widgets does to a field -/

theorem adjustedAll_eq_map (ms : List (CommsField ν)) : adjustedAll ms = ms.map adjusted := by
  induction ms with
  | nil => rfl
  | cons m ms ih => rw [adjustedAll, ih, List.map_cons]

theorem settledAll_eq_map (ms : List (CommsField ν)) : settledAll ms = ms.map settled := by
  induction ms with
  | nil => rfl
  | cons m ms ih => rw [settledAll, ih, List.map_cons]

theorem wrapAll_eq_map (ms : List (CommsField ν)) : wrapAll ms = ms.map wrap := by
  induction ms with
  | nil => rfl
  | cons m ms ih => rw [wrapAll, ih, List.map_cons]

/-- The members of an adjusted field. -/
def adjustedMembers (cls : FieldClass ν (CommsField ν)) (ms : List (CommsField ν)) :
    List (CommsField ν) :=
  match cls with
  | .arrayList fixedSize element => resized fixedSize element.adjusted ms
  | _ => ms

theorem adjusted_eq (f : CommsField ν) :
    f.adjusted = mk f.cls (adjustedMembers f.cls (f.members.map adjusted)) := by
  obtain ⟨cls, ms⟩ := f
  cases cls <;> rw [adjusted, adjustedAll_eq_map] <;> rfl

theorem settled_eq (f : CommsField ν) :
    f.settled = mk f.cls.settled (f.members.map settled) := by
  obtain ⟨cls, ms⟩ := f
  rw [settled, settledAll_eq_map]
  rfl

@[simp] theorem adjusted_cls (f : CommsField ν) : f.adjusted.cls = f.cls := by
  rw [adjusted_eq]
  rfl

@[simp] theorem settled_cls (f : CommsField ν) : f.settled.cls = f.cls.settled := by
  rw [settled_eq]
  rfl

@[simp] theorem settled_members (f : CommsField ν) : f.settled.members = f.members.map settled := by
  rw [settled_eq]
  rfl

theorem eta (f : CommsField ν) : mk f.cls f.members = f := by
  obtain ⟨cls, ms⟩ := f
  rfl

end CommsField

namespace FieldClass
variable {φ : Type} (cls : FieldClass ν φ)

@[simp] theorem settled_protos : cls.settled.protos = cls.protos := by
  cases cls with
  | optional mode => cases mode <;> rfl
  | _ => rfl

@[simp] theorem settled_isValue : cls.settled.isValue = cls.isValue := by
  cases cls with
  | optional mode => cases mode <;> rfl
  | _ => rfl

@[simp] theorem settled_isArrayList : cls.settled.isArrayList = cls.isArrayList := by
  cases cls with
  | optional mode => cases mode <;> rfl
  | _ => rfl

end FieldClass

namespace CommsField
variable {f m : CommsField ν}

/-- A list of fixed size has it. -/
def Sized (f : CommsField ν) : Prop :=
  match f.cls with
  | .arrayList (some n) _ => f.members.length = n
  | _ => True

/-- An optional field is not tentative. -/
def Decided (f : CommsField ν) : Prop := f.cls.settled = f.cls

/-- A new widget for a value shows it, and leaves it. -/
def Shown (f : CommsField ν) : Prop :=
  match f.cls with
  | .value widget value => widget.make value = some (value, value)
  | _ => True

abbrev AllSized (f : CommsField ν) : Prop := Members.Everywhere members Sized f

abbrev AllDecided (f : CommsField ν) : Prop := Members.Everywhere members Decided f

abbrev AllShown (f : CommsField ν) : Prop := Members.Everywhere members Shown f

theorem mem_resized {fixedSize : Option ℕ} {element : CommsField ν} {ms : List (CommsField ν)}
    (h : m ∈ resized fixedSize element ms) : m ∈ ms ∨ m = element := by
  cases fixedSize with
  | none => exact .inl h
  | some n =>
      rcases List.mem_append.mp h with h | h
      · exact .inl (List.mem_of_mem_take h)
      · exact .inr (List.eq_of_mem_replicate h)

theorem length_resized (n : ℕ) (element : CommsField ν) (ms : List (CommsField ν)) :
    (resized (some n) element ms).length = n := by
  rw [resized, List.length_append, List.length_take, List.length_replicate]
  omega

theorem resized_of_length {n : ℕ} {element : CommsField ν} {ms : List (CommsField ν)}
    (h : ms.length = n) : resized (some n) element ms = ms := by
  rw [resized, h, Nat.sub_self, List.replicate_zero, List.append_nil, ← h, List.take_length]

theorem mem_adjusted (h : m ∈ f.adjusted.members) :
    ∃ m', (m' ∈ f.cls.protos ∨ m' ∈ f.members) ∧ m = m'.adjusted := by
  have hmembers : f.adjusted.members = adjustedMembers f.cls (f.members.map adjusted) := by
    rw [adjusted_eq]
    rfl
  rw [hmembers] at h
  have hmap : m ∈ f.members.map adjusted →
      ∃ m', (m' ∈ f.cls.protos ∨ m' ∈ f.members) ∧ m = m'.adjusted := by
    intro h
    obtain ⟨m', hm', rfl⟩ := List.mem_map.mp h
    exact ⟨m', .inr hm', rfl⟩
  cases hcls : f.cls with
  | arrayList fixedSize element =>
      rw [hcls] at h hmap
      rcases mem_resized h with h | rfl
      · exact hmap h
      · exact ⟨element, .inl (List.mem_singleton_self _), rfl⟩
  | _ =>
      rw [hcls] at h hmap
      exact hmap h

theorem adjusted_length_of_fixedSize {n : ℕ} {element : CommsField ν}
    (h : f.cls = .arrayList (some n) element) : f.adjusted.members.length = n := by
  rw [adjusted_eq, h]
  exact length_resized n _ _

theorem sized_adjusted (f : CommsField ν) : Sized f.adjusted := by
  rw [Sized, adjusted_cls]
  cases hcls : f.cls with
  | arrayList fixedSize element =>
      cases fixedSize with
      | none => trivial
      | some n => exact adjusted_length_of_fixedSize hcls
  | _ => trivial

/-- Making a wrapper gives every list its size, those in new elements included. -/
theorem allSized_adjusted (f : CommsField ν) : AllSized f.adjusted := by
  induction f using induct with
  | h f hprotos hmembers =>
      refine .intro _ (sized_adjusted f) fun m hm => ?_
      obtain ⟨n, hn, rfl⟩ := mem_adjusted hm
      rcases hn with hn | hn
      · exact hprotos n hn
      · exact hmembers n hn

theorem allSized_settled (h : AllSized f) : AllSized f.settled := by
  induction f using induct with
  | h f _ hmembers =>
      refine .intro _ ?_ fun m hm => ?_
      · have hhere : Sized f := h.here
        rw [Sized, settled_cls, settled_members, List.length_map]
        rw [Sized] at hhere
        cases hcls : f.cls with
        | arrayList fixedSize element => rwa [hcls] at hhere
        | optional mode => cases mode <;> trivial
        | _ => trivial
      · rw [settled_members] at hm
        obtain ⟨n, hn, rfl⟩ := List.mem_map.mp hm
        exact hmembers n hn (h.member hn)

theorem decided_settled (cls : FieldClass ν (CommsField ν)) :
    cls.settled.settled = cls.settled := by
  cases cls with
  | optional mode => cases mode <;> rfl
  | _ => rfl

theorem allDecided_settled (f : CommsField ν) : AllDecided f.settled := by
  induction f using induct with
  | h f _ hmembers =>
      refine .intro _ ?_ fun m hm => ?_
      · rw [Decided, settled_cls, decided_settled]
      · rw [settled_members] at hm
        obtain ⟨n, hn, rfl⟩ := List.mem_map.mp hm
        exact hmembers n hn

theorem map_eq_self {α : Type*} {g : α → α} {l : List α} (h : ∀ a ∈ l, g a = a) : l.map g = l := by
  rw [List.map_congr_left h, List.map_id']

theorem adjusted_of_allSized (h : AllSized f) : f.adjusted = f := by
  induction f using induct with
  | h f _ hmembers =>
      have hmap : f.members.map adjusted = f.members :=
        map_eq_self fun m hm => hmembers m hm (h.member hm)
      have hhere : Sized f := h.here
      rw [adjusted_eq, hmap]
      refine (congrArg (mk f.cls) ?_).trans (eta f)
      cases hcls : f.cls with
      | arrayList fixedSize element =>
          cases fixedSize with
          | none => rfl
          | some n =>
              rw [Sized, hcls] at hhere
              exact resized_of_length hhere
      | _ => rfl

theorem settled_of_allDecided (h : AllDecided f) : f.settled = f := by
  induction f using induct with
  | h f _ hmembers =>
      have hmap : f.members.map settled = f.members :=
        map_eq_self fun m hm => hmembers m hm (h.member hm)
      have hhere : Decided f := h.here
      rw [settled_eq, hmap, hhere, eta]

theorem shown_settled : Shown f.settled ↔ Shown f := by
  unfold Shown
  rw [settled_cls]
  cases f.cls with
  | optional mode => cases mode <;> rfl
  | _ => rfl

theorem allShown_settled : AllShown f.settled ↔ AllShown f := by
  induction f using induct with
  | h f _ hmembers =>
      rw [AllShown, AllShown, Members.everywhere_iff, Members.everywhere_iff, shown_settled,
        settled_members, List.forall_mem_map]
      exact and_congr_right fun _ => forall₂_congr hmembers

/-- What holds of the fields of a message while they are shown. -/
structure Regular (f : CommsField ν) : Prop where
  shown : AllShown f
  sized : AllSized f
  decided : AllDecided f

theorem regular_iff_members :
    Regular f ↔ (Shown f ∧ Sized f ∧ Decided f) ∧ ∀ m ∈ f.members, Regular m := by
  constructor
  · intro h
    exact ⟨⟨h.shown.here, h.sized.here, h.decided.here⟩, fun m hm =>
      ⟨h.shown.member hm, h.sized.member hm, h.decided.member hm⟩⟩
  · rintro ⟨⟨hshown, hsized, hdecided⟩, hmembers⟩
    exact ⟨.intro f hshown fun m hm => (hmembers m hm).shown,
      .intro f hsized fun m hm => (hmembers m hm).sized,
      .intro f hdecided fun m hm => (hmembers m hm).decided⟩

theorem Regular.member (h : Regular f) (hm : m ∈ f.members) : Regular m :=
  (regular_iff_members.mp h).2 m hm

/-- A new member is regular if its values are shown as they are. -/
theorem regular_fresh (h : AllShown f.fresh) : Regular f.fresh :=
  ⟨h, allSized_settled (allSized_adjusted f), allDecided_settled _⟩

theorem settled_of_regular {ms : List (CommsField ν)} (h : ∀ m ∈ ms, Regular m) :
    ms.map settled = ms := map_eq_self fun m hm => settled_of_allDecided (h m hm).decided

theorem adjusted_of_regular {ms : List (CommsField ν)} (h : ∀ m ∈ ms, Regular m) :
    ms.map adjusted = ms := map_eq_self fun m hm => adjusted_of_allSized (h m hm).sized

/-- A field can be written, and everything below it. -/
abbrev AllWritable (C : Comms ν) (f : CommsField ν) : Prop :=
  Members.Everywhere members (fun f => C.canWrite f = true) f

section writable
variable {C : Comms ν}

/-- What can be written with its widget made can be written before. -/
theorem canWrite_of_settled (h : AllWritable C f.settled) : C.canWrite f = true := by
  rw [← C.canWrite_settled f fun m hm => (h.member hm).here]
  exact h.here

theorem elementsWritableAll_eq (ms : List (CommsField ν)) :
    elementsWritableAll C ms = ms.all (elementsWritable C) := by
  induction ms with
  | nil => rfl
  | cons m ms ih => rw [elementsWritableAll, ih, List.all_cons]

theorem elementsWritable_iff : elementsWritable C f = true ↔
    (f.cls.isArrayList = true → ∀ m ∈ f.members, C.canWrite m = true) ∧
      ∀ m ∈ f.members, elementsWritable C m = true := by
  obtain ⟨cls, ms⟩ := f
  rw [elementsWritable, elementsWritableAll_eq, Bool.and_eq_true, Bool.or_eq_true,
    List.all_eq_true, List.all_eq_true, Bool.not_eq_true', ← Bool.not_eq_true]
  exact and_congr_left fun _ => imp_iff_not_or.symm

/-- Making the wrapper of a field that can be written resets nothing. -/
theorem elementsWritable_of_settled (h : AllWritable C f.settled) :
    elementsWritable C f = true := by
  induction f using induct with
  | h f _ hmembers =>
      have hbelow : ∀ m ∈ f.members, AllWritable C m.settled := fun m hm =>
        h.member ((settled_members f).symm ▸ List.mem_map_of_mem hm)
      exact elementsWritable_iff.mpr
        ⟨fun _ m hm => canWrite_of_settled (hbelow m hm), fun m hm => hmembers m hm (hbelow m hm)⟩

end writable

end CommsField

/-! ### Wrappers -/

namespace WrappedField
open CommsField

theorem cloneAll_eq_map (ts : List WrappedField) : cloneAll ts = ts.map clone := by
  induction ts with
  | nil => rfl
  | cons t ts ih => rw [cloneAll, ih, List.map_cons]

theorem clone_members (t : WrappedField) : t.clone.members = t.members.map clone := by
  obtain ⟨cb, ms⟩ := t
  exact cloneAll_eq_map ms

@[simp] theorem actClone_members (t : WrappedField) : t.actClone.members = t.members.map clone := by
  obtain ⟨cb, ms⟩ := t
  exact cloneAll_eq_map ms

@[simp] theorem actClone_hasCreateMemberCb (t : WrappedField) :
    t.actClone.hasCreateMemberCb = t.hasCreateMemberCb := by
  obtain ⟨cb, ms⟩ := t
  rfl

/-- Wrappers of the shape of a field. -/
abbrev Wraps (f : CommsField ν) (t : WrappedField) : Prop :=
  Members.Mirrored CommsField.members members (fun _ _ => True) f t

theorem wrap_members (f : CommsField ν) : f.wrap.members = f.members.map wrap := by
  obtain ⟨cls, ms⟩ := f
  exact wrapAll_eq_map ms

theorem wraps_wrap (f : CommsField ν) : Wraps f f.wrap := by
  induction f using CommsField.induct with
  | h f _ hmembers =>
      refine Members.mirrored_iff.mpr ⟨trivial, ?_⟩
      rw [wrap_members]
      exact List.forall₂_map_right_iff.mpr (List.forall₂_same.mpr hmembers)

theorem Wraps.clone {f : CommsField ν} {t : WrappedField} (h : Wraps f t) : Wraps f t.clone := by
  induction h with
  | intro f t _ hlength _ ih =>
      refine Members.mirrored_iff.mpr ⟨trivial, ?_⟩
      rw [clone_members, List.forall₂_map_right_iff]
      exact Members.forall₂_iff_getElem?.mpr ⟨hlength, ih⟩

end WrappedField

/-! ### What widgets show -/

namespace WidgetTree
open CommsField WrappedField VariantCombo
variable (C : Comms ν)

/-- The controls of a widget show a field. -/
def FaceShows (f : CommsField ν) (face : Face ν) : Prop :=
  match f.cls, face with
  | .value _ value, .value shown serValue => shown = value ∧ serValue = C.write f
  | .bitfield, .bitfield serValue => serValue = C.write f
  | .bundle, .bundle => True
  | .arrayList _ _, .arrayList wrapped serValue nameSuffixes =>
      wrapped.length = f.members.length ∧ serValue = C.write f ∧
        nameSuffixes = List.range f.members.length
  | .optional mode, .optional checked visible =>
      checked = (mode == .Exists) ∧ visible = (mode != .Missing)
  | .variant names _ selected, .variant _ serValue index memberCombo =>
      serValue = C.write f ∧ index = selected ∧ memberCombo = updateMemberCombo names selected
  | _, _ => False

/-- The widgets have the shape of the field, and every one of them shows what is below it. -/
abbrev Shows (f : CommsField ν) (w : WidgetTree ν) : Prop :=
  Members.Mirrored CommsField.members members (fun f w => FaceShows C f w.face) f w

/-- What making or refreshing the widgets of a field gives: the field as it is, shown by its widgets,
if it can be written, and a failed assertion or a reset otherwise. -/
structure Leaves (f : CommsField ν) (r : Except Stop (CommsField ν × WidgetTree ν)) : Prop where
  ok : AllWritable C f → ∃ w, r = .ok (f, w) ∧ Shows C f w
  only : ∀ x, r = .ok x → AllWritable C f
  fails : Stops.StopsBy Stop.Fails r

/-- The same of several fields. -/
structure LeavesAll (ms : List (CommsField ν))
    (r : Except Stop (List (CommsField ν) × List (WidgetTree ν))) : Prop where
  ok : (∀ m ∈ ms, AllWritable C m) → ∃ ws, r = .ok (ms, ws) ∧ List.Forall₂ (Shows C) ms ws
  only : ∀ x, r = .ok x → ∀ m ∈ ms, AllWritable C m
  fails : Stops.StopsBy Stop.Fails r

variable {C}

theorem Leaves.of_ok {f : CommsField ν} {r : Except Stop (CommsField ν × WidgetTree ν)}
    {x : CommsField ν × WidgetTree ν} (h : Leaves C f r) (hr : r = .ok x) :
    x.1 = f ∧ Shows C f x.2 := by
  obtain ⟨w, hw, hshows⟩ := h.ok (h.only x hr)
  obtain rfl := Except.ok.inj (hw.symm.trans hr)
  exact ⟨rfl, hshows⟩

theorem leavesAll_nil : LeavesAll C [] (.ok ([], [])) :=
  ⟨fun _ => ⟨[], rfl, .nil⟩, fun _ _ _ hm => absurd hm List.not_mem_nil, Stops.stopsBy_ok _⟩

theorem leavesAll_cons {m : CommsField ν} {ms : List (CommsField ν)}
    {r : Except Stop (CommsField ν × WidgetTree ν)}
    {rs : Except Stop (List (CommsField ν) × List (WidgetTree ν))} (hm : Leaves C m r)
    (hms : LeavesAll C ms rs) :
    LeavesAll C (m :: ms) (r.bind fun x => rs.map fun xs => (x.1 :: xs.1, x.2 :: xs.2)) := by
  constructor
  · intro h
    obtain ⟨hhead, htail⟩ := List.forall_mem_cons.mp h
    obtain ⟨w, rfl, hw⟩ := hm.ok hhead
    obtain ⟨ws, rfl, hws⟩ := hms.ok htail
    exact ⟨w :: ws, rfl, .cons hw hws⟩
  · intro x hx
    obtain ⟨y, hy, hx⟩ := Stops.bind_eq_ok.mp hx
    obtain ⟨ys, hys, -⟩ := Stops.map_eq_ok.mp hx
    exact List.forall_mem_cons.mpr ⟨hm.only y hy, hms.only ys hys⟩
  · exact hm.fails.bind fun _ _ => hms.fails.map _

theorem asserting_eq_ok {β : Type} {f : CommsField ν} {x : Except Stop β} {b : β} :
    asserting C f x = .ok b ↔ C.canWrite f = true ∧ x = .ok b := Stops.ite_eq_ok

theorem asserting_fails {β : Type} {f : CommsField ν} {x : Except Stop β}
    (h : Stops.StopsBy Stop.Fails x) : Stops.StopsBy Stop.Fails (asserting C f x) :=
  Stops.stopsBy_ite (.inl rfl) fun _ => h

/-! ### What is shown anew -/

/-- The controls of a widget are those for a field and can be set to its value, and it knows the
number of its elements or which member it has. -/
def FaceFits (f : CommsField ν) (face : Face ν) : Prop :=
  match f.cls, face with
  | .value widget value, .value shown _ => widget.quiet shown value = true
  | .bitfield, .bitfield _ => True
  | .bundle, .bundle => True
  | .arrayList _ _, .arrayList wrapped _ nameSuffixes =>
      wrapped.length = f.members.length ∧ nameSuffixes = List.range f.members.length
  | .optional _, .optional _ _ => True
  | .variant names _ selected, .variant _ _ index memberCombo =>
      index = selected ∧ memberCombo = updateMemberCombo names selected
  | _, _ => False

/-- Widgets of the shape of a field, whatever they show. -/
abbrev Fits (f : CommsField ν) (w : WidgetTree ν) : Prop :=
  Members.Mirrored CommsField.members members (fun f w => FaceFits f w.face) f w

theorem FaceShows.fits {f : CommsField ν} {face : Face ν} (h : FaceShows C f face) :
    FaceFits f face := by
  unfold FaceShows at h
  unfold FaceFits
  cases hcls : f.cls <;> cases face <;> simp_all [ValueWidget.quiet_self]

theorem Shows.fits {f : CommsField ν} {w : WidgetTree ν} (h : Shows C f w) : Fits f w :=
  h.imp fun _ _ hface => hface.fits

/-- What is shown anew is what the field holds. -/
theorem refreshInternal_shows {f : CommsField ν} {face : Face ν} (h : FaceFits f face)
    (hwrite : C.canWrite f = true) :
    ∃ face', refreshInternal C f face = .ok face' ∧ FaceShows C f face' := by
  unfold FaceFits at h
  unfold refreshInternal FaceShows asserting
  cases hcls : f.cls <;> cases face <;> simp_all

theorem refreshInternal_fails {f : CommsField ν} {face : Face ν} (h : FaceFits f face) :
    Stops.StopsBy Stop.Fails (refreshInternal C f face) := by
  unfold FaceFits at h
  unfold refreshInternal
  cases hcls : f.cls <;> cases face <;> simp only [hcls] at h ⊢ <;>
    first
      | exact asserting_fails (Stops.stopsBy_ok _)
      | exact Stops.stopsBy_ok _
      | (rw [if_pos h]
         exact asserting_fails (Stops.stopsBy_ok _))

/-- A field is shown anew only if it can be written. -/
theorem canWrite_of_refreshInternal {f : CommsField ν} {face face' : Face ν}
    (h : refreshInternal C f face = .ok face') (hmembers : ∀ m ∈ f.members, C.canWrite m = true) :
    C.canWrite f = true := by
  by_cases hbundle : f.cls.isValue = false ∧ f.cls.isArrayList = false
  · exact C.canWrite_of_members f hbundle.1 hbundle.2 hmembers
  · unfold refreshInternal at h
    cases hcls : f.cls <;> cases face <;> simp only [hcls, reduceCtorEq] at h <;>
      first
        | exact (asserting_eq_ok.mp h).1
        | exact absurd ⟨by rw [hcls]; rfl, by rw [hcls]; rfl⟩ hbundle

/-! ### Making -/

theorem handle_eq (f : CommsField ν) (t : WrappedField) :
    handle C f t = (handleAll C f.members (shownMembers f.cls t)).bind fun made =>
      (construct C f t made.1).map fun x => (x.1, .mk x.2 made.2) := by
  obtain ⟨cls, ms⟩ := f
  rw [handle]
  rfl

theorem wraps_shownMembers {f : CommsField ν} {t : WrappedField} (h : Wraps f t) :
    List.Forall₂ Wraps f.members (shownMembers f.cls t) := by
  rw [shownMembers]
  split_ifs with hlist
  · rw [actClone_members, List.forall₂_map_right_iff]
    exact h.pairs.imp fun _ _ hm => Wraps.clone hm
  · exact h.pairs

theorem handleAll_spec {ms : List (CommsField ν)} {ts : List WrappedField}
    (h : List.Forall₂ Wraps ms ts)
    (hP : ∀ m ∈ ms, ∀ t, Wraps m t → Leaves C m.settled (handle C m t)) :
    LeavesAll C (ms.map settled) (handleAll C ms ts) := by
  induction h with
  | nil => exact leavesAll_nil
  | @cons m t ms ts hm h ih =>
      rw [handleAll, List.map_cons]
      exact leavesAll_cons (hP m List.mem_cons_self t hm)
        (ih fun m' hm' => hP m' (List.mem_cons_of_mem _ hm'))

/-- A new widget shows the field it is made for, if that can be written. -/
theorem construct_shows {f : CommsField ν} {t : WrappedField} (h : Wraps f t) (hshown : Shown f)
    (hwrite : C.canWrite f.settled = true) (hbefore : C.canWrite f = true) :
    ∃ face, construct C f t (f.members.map settled) = .ok (f.settled, face) ∧
      FaceShows C f.settled face := by
  have hlength : t.actClone.members.length = f.members.length := by
    rw [actClone_members, List.length_map, h.pairs.length_eq]
  have hafter : CommsField.mk f.cls.settled (f.members.map settled) = f.settled :=
    (settled_eq f).symm
  -- the widgets of all kinds but values are refreshed once
  have hrefreshed : ∀ face₀, FaceFits f.settled face₀ →
      ∃ face, (refreshInternal C f.settled face₀).map (fun face => (f.settled, face)) =
        .ok (f.settled, face) ∧ FaceShows C f.settled face := by
    intro face₀ hfits
    obtain ⟨face, hface, hshows⟩ := refreshInternal_shows hfits hwrite
    exact ⟨face, by rw [hface]; rfl, hshows⟩
  have hsettled : f.settled.cls = f.cls.settled := settled_cls f
  rw [construct, hafter]
  cases hcls : f.cls with
  | value widget value =>
      have hmake : widget.make value = some (value, value) := by
        rwa [Shown, hcls] at hshown
      have hleft : CommsField.mk (.value widget value) (f.members.map settled) = f.settled := by
        rw [← hafter, hcls]
        rfl
      refine ⟨.value value (C.write f.settled), asserting_eq_ok.mpr ⟨hbefore, ?_⟩, ?_⟩
      · rw [hmake]
        simp only [hleft]
      · unfold FaceShows
        rw [hsettled, hcls]
        exact ⟨rfl, rfl⟩
  | bitfield =>
      refine hrefreshed (.bitfield []) ?_
      unfold FaceFits
      rw [hsettled, hcls]
      trivial
  | bundle =>
      refine ⟨.bundle, rfl, ?_⟩
      unfold FaceShows
      rw [hsettled, hcls]
      trivial
  | optional mode =>
      refine hrefreshed (.optional false true) ?_
      unfold FaceFits
      rw [hsettled, hcls]
      cases mode <;> trivial
  | arrayList fixedSize element =>
      have hwrites : C.write f.settled = C.write f := C.write_settled f
      have hface : refreshInternal C f (.arrayList t.actClone.members []
          (List.range (f.members.map settled).length)) =
          .ok (.arrayList t.actClone.members (C.write f)
            (List.range (f.members.map settled).length)) := by
        unfold refreshInternal
        rw [hcls]
        exact if_pos hbefore
      refine ⟨_, congrArg (Except.map fun face => (f.settled, face)) hface, ?_⟩
      unfold FaceShows
      rw [hsettled, hcls]
      refine ⟨?_, hwrites.symm, ?_⟩
      · rw [hlength, settled_members, List.length_map]
      · rw [settled_members]
  | variant names protos index =>
      have hfits : FaceFits f.settled (.variant t.actClone.hasCreateMemberCb [] index
          (updateMemberCombo names index)) := by
        unfold FaceFits
        rw [hsettled, hcls]
        exact ⟨rfl, rfl⟩
      cases index with
      | some k => exact hrefreshed _ hfits
      | none =>
          refine ⟨_, rfl, ?_⟩
          unfold FaceShows
          rw [hsettled, hcls]
          refine ⟨?_, rfl, rfl⟩
          rw [← hafter, hcls]
          exact (C.write_unselected names protos _).symm

/-- A widget is made only for a field that can be written. -/
theorem canWrite_of_construct {f : CommsField ν} {t : WrappedField} {ms : List (CommsField ν)}
    {x : CommsField ν × Face ν} (h : construct C f t ms = .ok x)
    (hmembers : ∀ m ∈ f.settled.members, C.canWrite m = true) :
    C.canWrite f.settled = true := by
  by_cases hkind : f.cls.isValue = false ∧ f.cls.isArrayList = false
  · refine C.canWrite_of_members f.settled ?_ ?_ hmembers
    · rw [settled_cls, FieldClass.settled_isValue, hkind.1]
    · rw [settled_cls, FieldClass.settled_isArrayList, hkind.2]
  · rw [C.canWrite_settled f hmembers]
    unfold construct at h
    cases hcls : f.cls with
    | value widget value =>
        rw [hcls] at h
        exact (asserting_eq_ok.mp h).1
    | arrayList fixedSize element =>
        rw [hcls] at h
        obtain ⟨face, hface, -⟩ := Stops.map_eq_ok.mp h
        unfold refreshInternal at hface
        rw [hcls] at hface
        exact (asserting_eq_ok.mp hface).1
    | _ => exact absurd ⟨by rw [hcls]; rfl, by rw [hcls]; rfl⟩ hkind

theorem construct_fails {f : CommsField ν} (t : WrappedField) (ms : List (CommsField ν))
    (hshown : Shown f) : Stops.StopsBy Stop.Fails (construct C f t ms) := by
  have hrefreshed : ∀ (g : CommsField ν) (face : Face ν) (after : CommsField ν),
      Stops.StopsBy Stop.Fails ((asserting C g (.ok face)).map fun face => (after, face)) :=
    fun _ _ _ => (asserting_fails (Stops.stopsBy_ok _)).map _
  obtain ⟨cls, members⟩ := f
  cases cls with
  | value widget value =>
      have hmake : widget.make value = some (value, value) := hshown
      refine asserting_fails ?_
      rw [hmake]
      exact Stops.stopsBy_ok _
  | bitfield => exact hrefreshed _ _ _
  | bundle => exact Stops.stopsBy_ok _
  | arrayList fixedSize element => exact hrefreshed _ _ _
  | optional mode => cases mode <;> exact hrefreshed _ _ _
  | variant names protos index =>
      cases index with
      | some k => exact hrefreshed _ _ _
      | none => exact Stops.stopsBy_ok _

/-- **The widgets that are made** show the field, if its values are shown as they are. -/
theorem handle_leaves (f : CommsField ν) (t : WrappedField) (h : Wraps f t) (hshown : AllShown f) :
    Leaves C f.settled (handle C f t) := by
  induction f using CommsField.induct generalizing t with
  | h f _ hmembers =>
      have hall : LeavesAll C (f.members.map settled)
          (handleAll C f.members (shownMembers f.cls t)) :=
        handleAll_spec (wraps_shownMembers h) fun m hm t ht =>
          hmembers m hm t ht (hshown.member hm)
      rw [handle_eq]
      constructor
      · intro hwritable
        have hbelow : ∀ m ∈ f.members.map settled, AllWritable C m := fun m hm =>
          hwritable.member ((settled_members f).symm ▸ hm)
        obtain ⟨ws, hws, hshows⟩ := hall.ok hbelow
        obtain ⟨face, hface, hfaceShows⟩ := construct_shows h hshown.here hwritable.here
          (canWrite_of_settled hwritable)
        refine ⟨.mk face ws, ?_, Members.mirrored_iff.mpr ⟨hfaceShows, ?_⟩⟩
        · rw [hws]
          show (construct C f t (f.members.map settled)).map _ = _
          rw [hface]
          rfl
        · rw [settled_members]
          exact hshows
      · intro x hx
        obtain ⟨made, hmade, hx⟩ := Stops.bind_eq_ok.mp hx
        obtain ⟨y, hy, -⟩ := Stops.map_eq_ok.mp hx
        have hbelow : ∀ m ∈ f.settled.members, AllWritable C m := by
          rw [settled_members]
          exact hall.only made hmade
        exact .intro _ (canWrite_of_construct hy fun m hm => (hbelow m hm).here) hbelow
      · exact hall.fails.bind fun made _ => (construct_fails t made.1 hshown.here).map _

theorem handleAll_leaves {ms : List (CommsField ν)} {ts : List WrappedField}
    (h : List.Forall₂ Wraps ms ts) (hshown : ∀ m ∈ ms, AllShown m) :
    LeavesAll C (ms.map settled) (handleAll C ms ts) :=
  handleAll_spec h fun m hm t ht => handle_leaves m t ht (hshown m hm)

/-! ### Refreshing -/

/-- The elements of a list are shown by new widgets. -/
theorem refreshArrayList_leaves {fixedSize : Option ℕ} (element : CommsField ν)
    {storage : List (CommsField ν)} (hsize : ∀ n, fixedSize = some n → storage.length = n)
    (hsized : ∀ m ∈ storage, AllSized m) (hshown : ∀ m ∈ storage, AllShown m) :
    Leaves C (CommsField.mk (.arrayList fixedSize element) (storage.map settled))
      (refreshArrayList C fixedSize element storage) := by
  have hstorage : adjustedAll (resized fixedSize element storage) = storage := by
    have hresized : resized fixedSize element storage = storage := by
      cases hfixed : fixedSize with
      | none => rfl
      | some n => exact resized_of_length (hsize n hfixed)
    rw [hresized, adjustedAll_eq_map]
    exact map_eq_self fun m hm => adjusted_of_allSized (hsized m hm)
  have hsettled : (CommsField.mk (.arrayList fixedSize element) storage).settled =
      CommsField.mk (.arrayList fixedSize element) (storage.map settled) := settled_eq _
  have hwraps : List.Forall₂ Wraps storage (wrapAll storage) := by
    rw [wrapAll_eq_map, List.forall₂_map_right_iff]
    exact List.forall₂_same.mpr fun m _ => wraps_wrap m
  have hall : LeavesAll C (storage.map settled) (handleAll C storage (wrapAll storage)) :=
    handleAll_leaves hwraps hshown
  rw [refreshArrayList, hstorage]
  constructor
  · intro hwritable
    rw [← hsettled] at hwritable
    obtain ⟨ws, hws, hshows⟩ := hall.ok fun m hm => hwritable.member (by rw [hsettled]; exact hm)
    refine ⟨.mk (.arrayList (wrapAll storage) (C.write (.mk (.arrayList fixedSize element) storage))
      (List.range ws.length)) ws, ?_, Members.mirrored_iff.mpr ⟨⟨?_, ?_, ?_⟩, hshows⟩⟩
    · refine Stops.ite_eq_ok.mpr ⟨elementsWritable_of_settled hwritable, ?_⟩
      refine asserting_eq_ok.mpr ⟨canWrite_of_settled hwritable, ?_⟩
      rw [hws]
      rfl
    · rw [wrapAll_eq_map, List.length_map]
      exact (List.length_map _).symm
    · rw [← hsettled, C.write_settled]
    · exact congrArg List.range hshows.length_eq.symm
  · intro x hx
    obtain ⟨-, hx⟩ := Stops.ite_eq_ok.mp hx
    obtain ⟨hwrite, hx⟩ := asserting_eq_ok.mp hx
    obtain ⟨made, hmade, -⟩ := Stops.map_eq_ok.mp hx
    have hbelow : ∀ m ∈ storage.map settled, AllWritable C m := hall.only made hmade
    refine .intro _ ?_ hbelow
    rw [← hsettled, C.canWrite_settled _ fun m hm => ?_]
    · exact hwrite
    · rw [hsettled] at hm
      exact (hbelow m hm).here
  · exact Stops.stopsBy_ite (.inr rfl) fun _ => asserting_fails (hall.fails.map _)

theorem refresh_arrayList {f : CommsField ν} {w : WidgetTree ν} {fixedSize : Option ℕ}
    {element : CommsField ν} (h : f.cls = .arrayList fixedSize element) :
    refresh C f w = refreshArrayList C fixedSize element f.members := by
  obtain ⟨cls, ms⟩ := f
  obtain ⟨face, ws⟩ := w
  obtain rfl : cls = .arrayList fixedSize element := h
  rw [refresh]
  rfl

theorem refresh_eq {f : CommsField ν} {w : WidgetTree ν} (h : f.cls.isArrayList = false) :
    refresh C f w = (refreshInternal C f w.face).bind fun face =>
      (refreshAll C f.members w.members).map fun made =>
        (CommsField.mk f.cls made.1, .mk face made.2) := by
  obtain ⟨cls, ms⟩ := f
  obtain ⟨face, ws⟩ := w
  cases cls with
  | arrayList fixedSize element => exact absurd h (Bool.true_eq_false_eq_False).elim
  | _ =>
      rw [refresh]
      · rfl
      · intro fixedSize element heq
        cases heq

theorem refreshAll_spec {ms : List (CommsField ν)} {ws : List (WidgetTree ν)}
    (h : List.Forall₂ Fits ms ws)
    (hP : ∀ m ∈ ms, ∀ w, Fits m w → Leaves C m (refresh C m w)) :
    LeavesAll C ms (refreshAll C ms ws) := by
  induction h with
  | nil => exact leavesAll_nil
  | @cons m w ms ws hm h ih =>
      rw [refreshAll]
      exact leavesAll_cons (hP m List.mem_cons_self w hm)
        (ih fun m' hm' => hP m' (List.mem_cons_of_mem _ hm'))

/-- **Refreshing widgets** that fit a field changes nothing but what they show. -/
theorem refresh_leaves (f : CommsField ν) (w : WidgetTree ν) (h : Regular f) (hfits : Fits f w) :
    Leaves C f (refresh C f w) := by
  induction f using CommsField.induct generalizing w with
  | h f _ hmembers =>
      cases hlist : f.cls.isArrayList with
      | true =>
          obtain ⟨fixedSize, element, hcls⟩ : ∃ fixedSize element,
              f.cls = .arrayList fixedSize element := by
            cases hcls : f.cls with
            | arrayList fixedSize element => exact ⟨fixedSize, element, rfl⟩
            | _ => simp [hcls, FieldClass.isArrayList] at hlist
          have hf : CommsField.mk (.arrayList fixedSize element) f.members = f := hcls ▸ eta f
          have hsize : ∀ n, fixedSize = some n → f.members.length = n := by
            intro n hn
            have hsized : Sized f := h.sized.here
            rwa [Sized, hcls, hn] at hsized
          have hleaves := refreshArrayList_leaves (C := C) element hsize
            (fun m hm => (h.member hm).sized) fun m hm => (h.member hm).shown
          rw [settled_of_regular fun m hm => h.member hm, hf] at hleaves
          rw [refresh_arrayList hcls]
          exact hleaves
      | false =>
          have hall : LeavesAll C f.members (refreshAll C f.members w.members) :=
            refreshAll_spec hfits.pairs fun m hm w hw => hmembers m hm w (h.member hm) hw
          rw [refresh_eq hlist]
          constructor
          · intro hwritable
            obtain ⟨face', hface, hfaceShows⟩ := refreshInternal_shows hfits.here hwritable.here
            obtain ⟨ws', hws, hshows⟩ := hall.ok fun m hm => hwritable.member hm
            refine ⟨.mk face' ws', ?_, Members.mirrored_iff.mpr ⟨hfaceShows, hshows⟩⟩
            rw [hface, hws]
            show Except.ok (CommsField.mk f.cls f.members, WidgetTree.mk face' ws') = _
            rw [eta]
          · intro x hx
            obtain ⟨face, hface, hx⟩ := Stops.bind_eq_ok.mp hx
            obtain ⟨made, hmade, -⟩ := Stops.map_eq_ok.mp hx
            have hbelow : ∀ m ∈ f.members, AllWritable C m := hall.only made hmade
            exact .intro _
              (canWrite_of_refreshInternal hface fun m hm => (hbelow m hm).here) hbelow
          · exact (refreshInternal_fails hfits.here).bind fun _ _ => hall.fails.map _

theorem refreshAll_leaves {ms : List (CommsField ν)} {ws : List (WidgetTree ν)}
    (h : ∀ m ∈ ms, Regular m) (hfits : List.Forall₂ Fits ms ws) :
    LeavesAll C ms (refreshAll C ms ws) :=
  refreshAll_spec hfits fun m hm w => refresh_leaves m w (h m hm)

end WidgetTree

end CcToolsQt
