import Mathlib.Data.List.Nodup
import CcToolsQt.WidgetRefresh

/-! # Edits of the widgets of a field

An edit changes the field at the end of a path as the abstract operation says, and the widgets show
the new field, unless a list on the way cannot be written then or a variant has no callback to
create a member with.

* `slot_does`: an edit of the widget itself.
* `edit_does`: an edit below, with the signals on the way up. -/

namespace CcToolsQt
variable {ν : Type}

namespace VariantCombo

theorem nodup_fillMemberCombo (names : List QString) : (fillMemberCombo names).Nodup := by
  have hnodup : (names.zipIdx.map Prod.snd).Nodup := by
    rw [List.zipIdx_map_snd]
    exact List.nodup_range'
  have hsublist : ((names.zipIdx.filter fun info => !info.1.isEmpty).map Prod.snd).Nodup :=
    hnodup.sublist (List.filter_sublist.map _)
  exact ((List.mergeSort_perm _ _).map Prod.snd).nodup_iff.mpr hsublist

/-- The entry that was picked is the one that `updateMemberCombo` finds. -/
theorem updateMemberCombo_of_entry {names : List QString} {j k : ℕ}
    (h : (fillMemberCombo names)[j]? = some k) : updateMemberCombo names (some k) = some j := by
  obtain ⟨hj, rfl⟩ := List.getElem?_eq_some_iff.mp h
  refine List.idxOf?_eq_some_iff.mpr ⟨hj, rfl, fun i hi heq => ?_⟩
  have hij : i = j := (List.Nodup.getElem_inj_iff (nodup_fillMemberCombo names)).mp heq
  omega

end VariantCombo

namespace FieldEdit
open CommsField VariantCombo

/-- A variant with another member, or none. -/
def withSelected (names : List QString) (protos : List (CommsField ν)) (index : Option ℕ) :
    CommsField ν :=
  .mk (.variant names protos index) ((index.bind fun k => protos[k]?).toList.map fresh)

/-- What an edit is to do to a field. -/
def applied (C : Comms ν) (f : CommsField ν) (e : FieldEdit ν) : CommsField ν :=
  match f.cls, e with
  | .value widget v, .value typed =>
      .mk (.value widget ((widget.enter v typed).getD v)) f.members
  | .bitfield, .serialised text => .mk .bitfield (C.readBitfield f.members text)
  | .arrayList fixedSize element, .add =>
      .mk (.arrayList fixedSize element) (f.members ++ [element.fresh])
  | .arrayList fixedSize element, .remove idx =>
      .mk (.arrayList fixedSize element) (f.members.eraseIdx idx)
  | .optional mode, .toggle =>
      .mk (.optional (if mode = .Exists then .Missing else .Exists)) f.members
  | .variant names protos _, .pickIndex index => withSelected names protos index
  | .variant names protos _, .pickMember entry =>
      withSelected names protos (entry.bind fun j => (fillMemberCombo names)[j]?)
  | _, _ => f

/-- The widget of a value can be set to another one without a signal. -/
def Quiet (m m' : CommsField ν) : Prop :=
  match m.cls, m'.cls with
  | .value widget v, .value _ v' => widget.quiet v v' = true
  | _, _ => True

/-- The edits that the controls offer, with one signal for each: the buttons of a list of fixed size
are hidden, and a box for numbers or names gives a signal only for another number or name. -/
def Offered (C : Comms ν) (isEditEnabled : Bool) (f : CommsField ν) (e : FieldEdit ν) : Prop :=
  match f.cls, e with
  | .value widget v, .value typed => isEditEnabled = true ∧ (widget.enter v typed).isSome = true
  | .bitfield, .serialised text =>
      isEditEnabled = true ∧ List.Forall₂ Quiet f.members (C.readBitfield f.members text)
  | .arrayList fixedSize _, .add => isEditEnabled = true ∧ fixedSize = none
  | .arrayList fixedSize _, .remove idx =>
      isEditEnabled = true ∧ fixedSize = none ∧ idx < f.members.length
  | .optional _, .toggle => True
  | .variant _ protos selected, .pickIndex index =>
      isEditEnabled = true ∧ index ≠ selected ∧ ∀ k ∈ index, k < protos.length
  | .variant names protos selected, .pickMember entry =>
      entry ≠ updateMemberCombo names selected ∧
        ∀ j ∈ entry, ∃ k, (fillMemberCombo names)[j]? = some k ∧ k < protos.length
  | _, _ => False

/-- The edit gives a variant a member. -/
def selects : FieldEdit ν → Bool
  | .pickIndex index => index.isSome
  | .pickMember entry => entry.isSome
  | _ => false

end FieldEdit

namespace WidgetTree
open CommsField WrappedField VariantCombo FieldEdit

/-- The variant of a widget can create members. -/
def canCreate (w : WidgetTree ν) : Bool :=
  match w.face with
  | .variant cb _ _ _ => cb
  | _ => false

/-- An edit that leaves a field, shows it and gives one signal under a condition, and fails
otherwise. -/
structure Does (C : Comms ν) (f' : CommsField ν) (K : Prop) (r : Except Stop (Edited ν)) :
    Prop where
  ok : K → ∃ w', r = .ok (f', w', true) ∧ Shows C f' w'
  only : ∀ x, r = .ok x → K
  fails : Stops.StopsBy Stop.Fails r

variable {C : Comms ν}

theorem Does.congr {f' : CommsField ν} {K K' : Prop} {r : Except Stop (Edited ν)}
    (h : Does C f' K r) (hK : K' ↔ K) : Does C f' K' r :=
  ⟨fun hk => h.ok (hK.mp hk), fun x hx => hK.mpr (h.only x hx), h.fails⟩

theorem Does.of_eq {f' : CommsField ν} {K : Prop} {r r' : Except Stop (Edited ν)}
    (h : Does C f' K r) (hr : r' = r) : Does C f' K r' := hr ▸ h

theorem Does.of_ok {f' : CommsField ν} {K : Prop} {r : Except Stop (Edited ν)} {x : Edited ν}
    (h : Does C f' K r) (hr : r = .ok x) : ∃ w', x = (f', w', true) ∧ Shows C f' w' := by
  obtain ⟨w', hw', hshows⟩ := h.ok (h.only x hr)
  exact ⟨w', Except.ok.inj (hr.symm.trans hw'), hshows⟩

theorem Leaves.does {f' : CommsField ν} {r : Except Stop (CommsField ν × WidgetTree ν)}
    (h : Leaves C f' r) : Does C f' (AllWritable C f') (r.map emitted) := by
  constructor
  · intro hwritable
    obtain ⟨w, rfl, hshows⟩ := h.ok hwritable
    exact ⟨w, rfl, hshows⟩
  · intro x hx
    obtain ⟨y, hy, -⟩ := Stops.map_eq_ok.mp hx
    exact h.only y hy
  · exact h.fails.map _

/-! ### An edit of the widget itself -/

section slots
variable {f : CommsField ν} {w : WidgetTree ν}

/-- The condition under which an edit succeeds: what it leaves can be written, and a variant that is
given a member can create it. -/
def Works (C : Comms ν) (f' : CommsField ν) (e : FieldEdit ν) (w : WidgetTree ν) : Prop :=
  AllWritable C f' ∧ (e.selects = true → w.canCreate = true)

theorem Does.works {f' : CommsField ν} {r : Except Stop (Edited ν)} {e : FieldEdit ν}
    (h : Does C f' (AllWritable C f') r) (hsel : e.selects = false) :
    Does C f' (Works C f' e w) r :=
  h.congr (and_iff_left fun he => absurd (hsel.symm.trans he) Bool.false_ne_true)

/-- Which controls fit depends on the kind of the field and the number of its members. -/
theorem FaceFits.congr {f f' : CommsField ν} {face : Face ν} (h : FaceFits f face)
    (hcls : f'.cls = f.cls) (hlength : f'.members.length = f.members.length) :
    FaceFits f' face := by
  unfold FaceFits
  rw [hcls, hlength]
  exact h

theorem slot_value {widget : ValueWidget ν} {value typed : ν}
    (hcls : f.cls = .value widget value) (h : Regular (applied C f (.value typed)))
    (hw : Shows C f w) (ho : (widget.enter value typed).isSome = true) :
    Does C (applied C f (.value typed)) (Works C (applied C f (.value typed)) (.value typed) w)
      (slot C true f w (.value typed)) := by
  obtain ⟨_, ms⟩ := f
  obtain ⟨face, ws⟩ := w
  obtain rfl := hcls
  obtain ⟨left, hleft⟩ := Option.isSome_iff_exists.mp ho
  have happlied : applied C (.mk (.value widget value) ms) (.value typed) =
      .mk (.value widget left) ms := by
    show CommsField.mk (.value widget ((widget.enter value typed).getD value)) ms = _
    rw [hleft]
    rfl
  have hface : FaceShows C (.mk (.value widget value) ms) face := hw.here
  rw [happlied] at h ⊢
  cases face with
  | value shown serValue =>
      have hfits : Fits (.mk (.value widget left) ms) (.mk (.value left serValue) ws) :=
        Members.mirrored_iff.mpr ⟨widget.quiet_self left, hw.fits.pairs⟩
      refine ((refresh_leaves _ _ h hfits).does.works rfl).of_eq ?_
      show valueUpdated C widget value ms serValue ws typed = _
      rw [valueUpdated, hleft]
  | _ => exact hface.elim

/-- The widgets of a bitfield's members fit what is read into them. -/
theorem sameButValue_fits {m m' : CommsField ν} (h : SameButValue m m') (hquiet : Quiet m m')
    (hw : Shows C m w) : Fits m' w := by
  obtain ⟨hmembers, hcls⟩ := h
  refine Members.mirrored_iff.mpr ⟨?_, hmembers ▸ hw.fits.pairs⟩
  have hface := hw.here
  unfold FaceShows at hface
  unfold Quiet at hquiet
  cases hm : m.cls with
  | value widget value =>
      rw [hm] at hcls hface hquiet
      obtain ⟨value', hm'⟩ := hcls
      rw [hm'] at hquiet
      unfold FaceFits
      rw [hm']
      cases hw : w.face <;> simp_all
  | _ =>
      rw [hm] at hcls
      exact hw.here.fits.congr (hcls.trans hm.symm) (by rw [hmembers])

theorem forall₂_sameButValue_fits {ms ms' : List (CommsField ν)} {ws : List (WidgetTree ν)}
    (h : List.Forall₂ SameButValue ms ms') (hquiet : List.Forall₂ Quiet ms ms')
    (hw : List.Forall₂ (Shows C) ms ws) : List.Forall₂ Fits ms' ws := by
  induction h generalizing ws with
  | nil =>
      cases hw
      exact .nil
  | cons hm h ih =>
      cases hw with
      | cons hmw hw =>
          cases hquiet with
          | cons hmq hquiet => exact .cons (sameButValue_fits hm hmq hmw) (ih hquiet hw)

theorem slot_serialised {text : QString} (hcls : f.cls = .bitfield)
    (h : Regular (applied C f (.serialised text))) (hw : Shows C f w)
    (ho : List.Forall₂ Quiet f.members (C.readBitfield f.members text)) :
    Does C (applied C f (.serialised text)) (Works C (applied C f (.serialised text))
      (.serialised text) w) (slot C true f w (.serialised text)) := by
  obtain ⟨_, ms⟩ := f
  obtain rfl := hcls
  have h : Regular (.mk .bitfield (C.readBitfield ms text)) := h
  have hread : List.Forall₂ SameButValue ms (C.readBitfield ms text) := C.readBitfield_spec ms text
  have hfits : Fits (.mk .bitfield (C.readBitfield ms text)) w :=
    Members.mirrored_iff.mpr ⟨hw.here.fits.congr rfl hread.length_eq.symm,
      forall₂_sameButValue_fits hread ho hw.pairs⟩
  have hleaves := refresh_leaves (C := C) _ w h hfits
  refine Does.works ?_ rfl
  show Does C (.mk .bitfield (C.readBitfield ms text)) _
    (serialisedValueUpdated C true ms w text)
  rw [serialisedValueUpdated, if_pos rfl]
  have hmembers : ∀ w', Shows C (.mk .bitfield (C.readBitfield ms text)) w' →
      LeavesAll C (C.readBitfield ms text) (refreshAll C (C.readBitfield ms text) w'.members) :=
    fun w' hshows => refreshAll_leaves (fun m hm => h.member hm) hshows.fits.pairs
  constructor
  · intro hwritable
    obtain ⟨w', hrefresh, hshows⟩ := hleaves.ok hwritable
    obtain ⟨ws', hrefreshAll, hall⟩ := (hmembers w' hshows).ok fun m hm => hwritable.member hm
    refine ⟨.mk w'.face ws', ?_, Members.mirrored_iff.mpr ⟨hshows.here, hall⟩⟩
    rw [hrefresh]
    show ((refreshAll C (C.readBitfield ms text) w'.members).map _) = _
    rw [hrefreshAll]
    rfl
  · intro x hx
    obtain ⟨y, hy, -⟩ := Stops.bind_eq_ok.mp hx
    exact hleaves.only y hy
  · refine hleaves.fails.bind fun x hx => ?_
    obtain ⟨hfield, hshows⟩ := hleaves.of_ok hx
    rw [hfield]
    exact (hmembers x.2 hshows).fails.map _

/-- A list with other elements is shown by new widgets. -/
theorem does_refreshArrayList {element : CommsField ν} {storage : List (CommsField ν)}
    (hsized : ∀ m ∈ storage, AllSized m) (hshown : ∀ m ∈ storage, AllShown m) :
    Does C (.mk (.arrayList none element) (storage.map settled))
      (AllWritable C (.mk (.arrayList none element) (storage.map settled)))
      (if elementsWritable C (.mk (.arrayList none element) storage) then
        (refreshArrayList C none element storage).map emitted else .error .reset) := by
  have hdoes := (refreshArrayList_leaves (C := C) element
    (fun n hn => absurd hn (Option.some_ne_none n).symm) hsized hshown).does
  constructor
  · intro hwritable
    have hsettled : (CommsField.mk (.arrayList none element) storage).settled =
        .mk (.arrayList none element) (storage.map settled) := settled_eq _
    rw [if_pos (elementsWritable_of_settled (hsettled ▸ hwritable))]
    exact hdoes.ok hwritable
  · intro x hx
    exact hdoes.only x (Stops.ite_eq_ok.mp hx).2
  · exact Stops.stopsBy_ite (.inr rfl) fun _ => hdoes.fails

theorem slot_add {element : CommsField ν} (hcls : f.cls = .arrayList none element)
    (h : Regular f) (h' : Regular (applied C f .add)) :
    Does C (applied C f .add) (Works C (applied C f .add) .add w) (slot C true f w .add) := by
  obtain ⟨_, ms⟩ := f
  obtain rfl := hcls
  have hms : ∀ m ∈ ms, Regular m := fun m hm => h.member hm
  have h' : Regular (.mk (.arrayList none element) (ms ++ [element.fresh])) := h'
  have helement : AllShown element.adjusted :=
    allShown_settled.mp (h'.member (List.mem_append_right _ (List.mem_singleton_self _))).shown
  have hadjusted : adjustedAll (ms ++ [element]) = ms ++ [element.adjusted] := by
    rw [adjustedAll_eq_map, List.map_append, adjusted_of_regular hms]
    rfl
  have hsettled : (ms ++ [element.adjusted]).map settled = ms ++ [element.fresh] := by
    rw [List.map_append, settled_of_regular hms]
    rfl
  have hdoes := @does_refreshArrayList _ C element _
    (List.forall_mem_append.mpr ⟨fun m hm => (hms m hm).sized,
      List.forall_mem_singleton.mpr (allSized_adjusted element)⟩)
    (List.forall_mem_append.mpr ⟨fun m hm => (hms m hm).shown,
      List.forall_mem_singleton.mpr helement⟩)
  rw [hsettled] at hdoes
  refine (hdoes.works rfl).of_eq ?_
  show addNewField C none element ms = _
  rw [addNewField, hadjusted]

theorem slot_remove {element : CommsField ν} {idx : ℕ} (hcls : f.cls = .arrayList none element)
    (h : Regular f) (hw : Shows C f w) (hidx : idx < f.members.length) :
    Does C (applied C f (.remove idx)) (Works C (applied C f (.remove idx)) (.remove idx) w)
      (slot C true f w (.remove idx)) := by
  obtain ⟨_, ms⟩ := f
  obtain rfl := hcls
  have hms : ∀ m ∈ ms.eraseIdx idx, Regular m := fun m hm =>
    h.member (List.mem_of_mem_eraseIdx hm)
  have hwidgets : idx < w.members.length := hw.pairs.length_eq ▸ hidx
  have hlength : ¬ ms.length ≤ idx := Nat.not_le.mpr hidx
  have hdoes := @does_refreshArrayList _ C element _
    (fun m hm => (hms m hm).sized) fun m hm => (hms m hm).shown
  rw [settled_of_regular hms] at hdoes
  refine (hdoes.works rfl).of_eq ?_
  show removeField C none element ms w idx = _
  rw [removeField, if_pos hwidgets, if_neg hlength, adjustedAll_eq_map, adjusted_of_regular hms]

theorem availabilityChanged_eq {mode newMode : OptionalMode} {checked visible : Bool}
    {ms : List (CommsField ν)} {ws : List (WidgetTree ν)}
    (hnew : (if checked then OptionalMode.Missing else .Exists) = newMode) (hne : newMode ≠ mode) :
    availabilityChanged C true mode checked visible ms ws =
      (refresh C (.mk (.optional newMode) ms) (.mk (.optional (!checked) visible) ws)).map
        emitted := by
  rw [availabilityChanged, hnew]
  exact (if_neg hne).trans (if_pos rfl)

theorem slot_toggle {mode : OptionalMode} (hcls : f.cls = .optional mode) (h : Regular f)
    (h' : Regular (applied C f .toggle)) (hw : Shows C f w) :
    Does C (applied C f .toggle) (Works C (applied C f .toggle) .toggle w)
      (slot C true f w .toggle) := by
  obtain ⟨_, ms⟩ := f
  obtain ⟨face, ws⟩ := w
  obtain rfl := hcls
  have hface : FaceShows C (.mk (.optional mode) ms) face := hw.here
  have hdecided : (FieldClass.optional mode : FieldClass ν (CommsField ν)).settled =
    .optional mode := h.decided.here
  have hfits : ∀ newMode checked visible,
      Fits (.mk (.optional newMode) ms) (.mk (.optional checked visible) ws) := fun _ _ _ =>
    Members.mirrored_iff.mpr ⟨trivial, hw.fits.pairs⟩
  cases face with
  | optional checked visible =>
      have hdoes : ∀ newMode, Regular (.mk (.optional newMode) ms) → newMode ≠ mode →
          (if checked then OptionalMode.Missing else .Exists) = newMode →
          Does C (.mk (.optional newMode) ms) (Works C (.mk (.optional newMode) ms) .toggle
            (.mk (.optional checked visible) ws))
            (slot C true (.mk (.optional mode) ms) (.mk (.optional checked visible) ws)
              .toggle) := by
        intro newMode hnew hmode hchecked
        show Does C _ _ (availabilityChanged C true mode checked visible ms ws)
        rw [availabilityChanged_eq hchecked hmode]
        exact (refresh_leaves _ _ hnew (hfits _ _ _)).does.works rfl
      have hchecked : checked = (mode == .Exists) := hface.1
      cases mode with
      | Tentative => simp [FieldClass.settled] at hdecided
      | Exists =>
          rw [hchecked] at hdoes ⊢
          exact hdoes .Missing h' (by decide) rfl
      | Missing =>
          rw [hchecked] at hdoes ⊢
          exact hdoes .Exists h' (by decide) rfl
  | _ => exact hface.elim

/-- A variant is given a member that it can create, or none. -/
theorem does_select {names : List QString} {protos : List (CommsField ν)}
    (index entry : Option ℕ) (cb : Bool) (h : Regular (withSelected names protos index))
    (hindex : ∀ k ∈ index, k < protos.length) (hentry : updateMemberCombo names index = entry) :
    Does C (withSelected names protos index)
      (AllWritable C (withSelected names protos index) ∧ (index.isSome = true → cb = true))
      ((selectMember C cb protos index).bind fun made =>
        (refresh C (.mk (.variant names protos index) made.1)
          (.mk (.variant cb [] index entry) made.2)).map emitted) := by
  cases index with
  | none =>
      have hfits : Fits (withSelected names protos none) (.mk (.variant cb [] none entry) []) :=
        Members.mirrored_iff.mpr ⟨⟨rfl, hentry.symm⟩, .nil⟩
      exact (refresh_leaves _ _ h hfits).does.congr
        (and_iff_left fun hnone => absurd hnone Bool.false_ne_true)
  | some k =>
      have hk : k < protos.length := hindex k rfl
      have hproto : protos[k]? = some protos[k] := List.getElem?_eq_getElem hk
      have hselected : withSelected names protos (some k) =
          .mk (.variant names protos (some k)) [protos[k].fresh] := by
        rw [withSelected, Option.bind_some, hproto]
        rfl
      rw [hselected] at h ⊢
      have hmember : protos[k].fresh ∈ (CommsField.mk (.variant names protos (some k))
        [protos[k].fresh]).members := List.mem_singleton_self _
      have hleaves : Leaves C protos[k].fresh
          (handle C protos[k].adjusted protos[k].adjusted.wrap) :=
        handle_leaves _ _ (wraps_wrap _) (allShown_settled.mp (h.member hmember).shown)
      cases cb with
      | false =>
          refine ⟨fun hK => absurd (hK.2 rfl) Bool.false_ne_true, fun x hx => ?_,
            Stops.stopsBy_error (.inl rfl)⟩
          obtain ⟨made, hmade, -⟩ := Stops.bind_eq_ok.mp hx
          cases hmade
      | true =>
          have hselect : selectMember C true protos (some k) =
              if elementsWritable C protos[k].adjusted then
                (handle C protos[k].adjusted protos[k].adjusted.wrap).map fun made =>
                  ([made.1], [made.2])
              else .error .reset := by
            rw [selectMember, if_pos rfl, hproto]
          have hfrom : ∀ made, selectMember C true protos (some k) = .ok made →
              ∃ w, made = ([protos[k].fresh], [w]) ∧ Shows C protos[k].fresh w := by
            intro made hmade
            rw [hselect] at hmade
            obtain ⟨y, hy, rfl⟩ := Stops.map_eq_ok.mp (Stops.ite_eq_ok.mp hmade).2
            obtain ⟨hfield, hshows⟩ := hleaves.of_ok hy
            exact ⟨y.2, congrArg (fun m => ([m], [y.2])) hfield, hshows⟩
          -- once the member has its widget, the variant is refreshed
          have hrefresh : ∀ w, Shows C protos[k].fresh w → Leaves C
              (.mk (.variant names protos (some k)) [protos[k].fresh])
              (refresh C (.mk (.variant names protos (some k)) [protos[k].fresh])
                (.mk (.variant true [] (some k) entry) [w])) := fun w hw =>
            refresh_leaves _ _ h
              (Members.mirrored_iff.mpr ⟨⟨rfl, hentry.symm⟩, .cons hw.fits .nil⟩)
          constructor
          · rintro ⟨hwritable, -⟩
            obtain ⟨w, hmade, hshows⟩ := hleaves.ok (hwritable.member hmember)
            have helements : elementsWritable C protos[k].adjusted = true :=
              elementsWritable_of_settled (hwritable.member hmember)
            rw [hselect, if_pos helements, hmade]
            exact (hrefresh w hshows).does.ok hwritable
          · intro x hx
            obtain ⟨made, hmade, hx⟩ := Stops.bind_eq_ok.mp hx
            obtain ⟨w, rfl, hshows⟩ := hfrom made hmade
            exact ⟨(hrefresh w hshows).does.only x hx, fun _ => rfl⟩
          · refine Stops.StopsBy.bind ?_ fun made hmade => ?_
            · rw [hselect]
              exact Stops.stopsBy_ite (.inr rfl) fun _ => hleaves.fails.map _
            · obtain ⟨w, rfl, hshows⟩ := hfrom made hmade
              exact (hrefresh w hshows).does.fails

theorem slot_pickIndex {names : List QString} {protos : List (CommsField ν)}
    {current index : Option ℕ} (hcls : f.cls = .variant names protos current)
    (h : Regular (applied C f (.pickIndex index))) (hw : Shows C f w)
    (ho : Offered C true f (.pickIndex index)) :
    Does C (applied C f (.pickIndex index)) (Works C (applied C f (.pickIndex index))
      (.pickIndex index) w) (slot C true f w (.pickIndex index)) := by
  obtain ⟨_, ms⟩ := f
  obtain ⟨face, ws⟩ := w
  obtain rfl := hcls
  have hface : FaceShows C (.mk (.variant names protos current) ms) face := hw.here
  obtain ⟨-, hne, hindex⟩ := ho
  cases face with
  | variant cb serValue shown memberCombo =>
      refine (does_select index _ cb h hindex rfl).of_eq ?_
      show indexUpdated C true names protos current ms cb _ index = _
      rw [indexUpdated, if_pos rfl, if_neg hne]
  | _ => exact hface.elim

theorem slot_pickMember {names : List QString} {protos : List (CommsField ν)}
    {current entry : Option ℕ} (hcls : f.cls = .variant names protos current)
    (h : Regular (applied C f (.pickMember entry))) (hw : Shows C f w)
    (ho : Offered C true f (.pickMember entry)) :
    Does C (applied C f (.pickMember entry)) (Works C (applied C f (.pickMember entry))
      (.pickMember entry) w) (slot C true f w (.pickMember entry)) := by
  obtain ⟨_, ms⟩ := f
  obtain ⟨face, ws⟩ := w
  obtain rfl := hcls
  have hface : FaceShows C (.mk (.variant names protos current) ms) face := hw.here
  obtain ⟨hne, hentry⟩ := ho
  cases face with
  | variant cb serValue shown memberCombo =>
      cases entry with
      | none =>
          have hcurrent : current ≠ none := by
            rintro rfl
            exact hne rfl
          refine (does_select none none cb h
            (fun k hk => absurd hk (Option.not_mem_none k)) rfl).of_eq ?_
          show memberComboUpdated C true names protos current ms cb _ none = _
          rw [memberComboUpdated, if_pos rfl]
          exact if_neg hcurrent
      | some j =>
          obtain ⟨k, hk, hlt⟩ := hentry j rfl
          have hfield : applied C (.mk (.variant names protos current) ms) (.pickMember (some j)) =
              withSelected names protos (some k) := congrArg (withSelected names protos) hk
          have hslot : slot C true (.mk (.variant names protos current) ms)
              (.mk (.variant cb serValue shown memberCombo) ws) (.pickMember (some j)) =
              (selectMember C cb protos (some k)).bind fun made =>
                (refresh C (.mk (.variant names protos (some k)) made.1)
                  (.mk (.variant cb [] (some k) (some j)) made.2)).map emitted := by
            show memberComboUpdated C true names protos current ms cb _ (some j) = _
            rw [memberComboUpdated, if_pos rfl]
            simp only [hk]
          rw [hfield] at h ⊢
          rw [hslot]
          exact does_select (some k) (some j) cb h
            (fun k' hk' => Option.mem_some_iff.mp hk' ▸ hlt) (updateMemberCombo_of_entry hk)
  | _ => exact hface.elim

/-- **An edit of the widget itself.** -/
theorem slot_does {e : FieldEdit ν} (h : Regular f) (h' : Regular (applied C f e))
    (hw : Shows C f w) (ho : Offered C true f e) :
    Does C (applied C f e) (Works C (applied C f e) e w) (slot C true f w e) := by
  cases e with
  | value typed =>
      cases hcls : f.cls with
      | value widget v =>
          simp only [Offered, hcls, true_and] at ho
          exact slot_value hcls h' hw ho
      | _ => simp [Offered, hcls] at ho
  | serialised text =>
      cases hcls : f.cls with
      | bitfield =>
          simp only [Offered, hcls, true_and] at ho
          exact slot_serialised hcls h' hw ho
      | _ => simp [Offered, hcls] at ho
  | add =>
      cases hcls : f.cls with
      | arrayList fixedSize element =>
          simp only [Offered, hcls, true_and] at ho
          subst ho
          exact slot_add hcls h h'
      | _ => simp [Offered, hcls] at ho
  | remove idx =>
      cases hcls : f.cls with
      | arrayList fixedSize element =>
          simp only [Offered, hcls, true_and] at ho
          obtain ⟨rfl, hidx⟩ := ho
          exact slot_remove hcls h hw hidx
      | _ => simp [Offered, hcls] at ho
  | toggle =>
      cases hcls : f.cls with
      | optional mode => exact slot_toggle hcls h h' hw
      | _ => simp [Offered, hcls] at ho
  | pickIndex index =>
      cases hcls : f.cls with
      | variant names protos current => exact slot_pickIndex hcls h' hw ho
      | _ => simp [Offered, hcls] at ho
  | pickMember entry =>
      cases hcls : f.cls with
      | variant names protos current => exact slot_pickMember hcls h' hw ho
      | _ => simp [Offered, hcls] at ho

/-- While editing is disabled the check box and the names are set back. -/
theorem slot_disabled {e : FieldEdit ν} (h : Regular f) (hwrite : C.canWrite f = true)
    (hw : Shows C f w) (ho : Offered C false f e) :
    ∃ w', slot C false f w e = .ok (f, w', false) ∧ Shows C f w' := by
  obtain ⟨cls, ms⟩ := f
  obtain ⟨face, ws⟩ := w
  have hface : FaceShows C (.mk cls ms) face := hw.here
  cases e with
  | toggle =>
      cases cls with
      | optional mode =>
          cases face with
          | optional checked visible =>
              have hchecked : checked = (mode == .Exists) := hface.1
              have hdecided : (FieldClass.optional mode : FieldClass ν (CommsField ν)).settled =
                .optional mode := h.decided.here
              have hne : (if checked then OptionalMode.Missing else .Exists) ≠ mode := by
                rw [hchecked]
                cases mode with
                | Tentative => simp [FieldClass.settled] at hdecided
                | _ => decide
              have hfits : FaceFits (.mk (.optional mode) ms : CommsField ν)
                (.optional (!checked) visible) := trivial
              obtain ⟨face', hshown, hfaceShows⟩ := refreshInternal_shows hfits hwrite
              refine ⟨.mk face' ws, ?_, Members.mirrored_iff.mpr ⟨hfaceShows, hw.pairs⟩⟩
              show availabilityChanged C false mode checked visible ms ws = _
              rw [availabilityChanged]
              refine (if_neg hne).trans ((if_neg Bool.false_ne_true).trans ?_)
              rw [hshown]
              rfl
          | _ => exact hface.elim
      | _ => exact ho.elim
  | pickMember entry =>
      cases cls with
      | variant names protos current =>
          cases face with
          | variant cb serValue shown memberCombo => exact ⟨_, rfl, hw⟩
          | _ => exact hface.elim
      | _ => exact ho.elim
  | _ => cases cls <;> simp_all [Offered, CommsField.cls]

end slots

/-! ### An edit below -/

section path
variable {f : CommsField ν} {w : WidgetTree ν}

theorem memberUpdated_shows (idx : ℕ) (hfits : FaceFits f w.face) (hwrite : C.canWrite f = true)
    (hmember : ∀ m ∈ f.members[idx]?, C.canWrite m = true) :
    ∃ face, memberUpdated C f w idx = .ok (.mk face w.members) ∧ FaceShows C f face := by
  obtain ⟨face, hshown, hface⟩ := refreshInternal_shows hfits hwrite
  have hall : (f.members[idx]?).all C.canWrite = true := by
    cases hm : f.members[idx]? with
    | none => rfl
    | some m => exact hmember m hm
  refine ⟨face, ?_, hface⟩
  unfold memberUpdated
  rw [hshown, hall, hwrite]
  cases f.cls <;> rfl

theorem memberUpdated_fails (idx : ℕ) (hfits : FaceFits f w.face) :
    Stops.StopsBy Stop.Fails (memberUpdated C f w idx) :=
  Stops.stopsBy_ite (.inr rfl) fun _ => (refreshInternal_fails hfits).map _

/-- The signal of a member is passed on only if the field can be written. -/
theorem canWrite_of_memberUpdated {idx : ℕ} {w' : WidgetTree ν}
    (h : memberUpdated C f w idx = .ok w') (hmembers : ∀ m ∈ f.members, C.canWrite m = true) :
    C.canWrite f = true := by
  unfold memberUpdated at h
  obtain ⟨-, h⟩ := Stops.ite_eq_ok.mp h
  obtain ⟨face, hface, -⟩ := Stops.map_eq_ok.mp h
  exact canWrite_of_refreshInternal hface hmembers

/-- The field with an edit applied at the end of a path. -/
abbrev appliedAt (C : Comms ν) (e : FieldEdit ν) (f : CommsField ν) (path : List ℕ) :
    CommsField ν :=
  Members.updateAt CommsField.members withMembers (applied C · e) f path

@[simp] theorem withMembers_members (f : CommsField ν) (ms : List (CommsField ν)) :
    (f.withMembers ms).members = ms := by
  obtain ⟨cls, _⟩ := f
  rfl

@[simp] theorem withMembers_cls (f : CommsField ν) (ms : List (CommsField ν)) :
    (f.withMembers ms).cls = f.cls := by
  obtain ⟨cls, _⟩ := f
  rfl

theorem appliedAt_cons {e : FieldEdit ν} {i : ℕ} {path : List ℕ} {m : CommsField ν}
    (hm : f.members[i]? = some m) :
    appliedAt C e f (i :: path) =
      f.withMembers (f.members.set i (appliedAt C e m path)) := by
  have : Inhabited (CommsField ν) := ⟨m⟩
  have hmodify := List.modify_eq_set (fun m => appliedAt C e m path) i f.members
  rw [hm, Option.getD_some] at hmodify
  exact congrArg f.withMembers hmodify

/-- Another value of a member leaves it regular, if it is shown as it is. -/
theorem regular_sameButValue {m m' : CommsField ν} (h : SameButValue m m') (hm : Regular m)
    (hshown : Shown m') : Regular m' := by
  obtain ⟨hmembers, hcls⟩ := h
  obtain ⟨⟨-, hsized, hdecided⟩, hbelow⟩ := regular_iff_members.mp hm
  refine regular_iff_members.mpr ⟨⟨hshown, ?_⟩, hmembers ▸ hbelow⟩
  unfold Sized Decided at *
  cases hm : m.cls with
  | value widget v =>
      rw [hm] at hcls
      obtain ⟨v', hm'⟩ := hcls
      rw [hm']
      exact ⟨trivial, rfl⟩
  | _ =>
      rw [hm] at hcls hsized hdecided
      rw [hcls, hmembers]
      exact ⟨hsized, hdecided⟩

theorem regular_withSelected {names : List QString} {protos : List (CommsField ν)}
    {index : Option ℕ} (h : AllShown (withSelected names protos index)) :
    Regular (withSelected names protos index) := by
  refine regular_iff_members.mpr ⟨⟨trivial, trivial, rfl⟩, fun m hm => ?_⟩
  obtain ⟨proto, -, rfl⟩ := List.mem_map.mp
    (show m ∈ ((index.bind fun k => protos[k]?).toList).map fresh from hm)
  exact regular_fresh (h.member hm)

/-- What an edit leaves is regular, if its values are shown as they are. -/
theorem regular_applied {e : FieldEdit ν} (h : Regular f) (hshown : AllShown (applied C f e))
    (ho : Offered C true f e) : Regular (applied C f e) := by
  obtain ⟨cls, ms⟩ := f
  have hms : ∀ m ∈ ms, Regular m := fun m hm => h.member hm
  cases e with
  | value typed =>
      cases cls with
      | value widget v =>
          exact regular_iff_members.mpr ⟨⟨hshown.here, trivial, rfl⟩, hms⟩
      | _ => exact ho.elim
  | serialised text =>
      cases cls with
      | bitfield =>
          have hread : List.Forall₂ SameButValue ms (C.readBitfield ms text) :=
            C.readBitfield_spec ms text
          refine regular_iff_members.mpr ⟨⟨trivial, trivial, rfl⟩, fun m' hm' => ?_⟩
          obtain ⟨i, hi⟩ := List.mem_iff_getElem?.mp hm'
          obtain ⟨hlength, hsame⟩ := Members.forall₂_iff_getElem?.mp hread
          have hlt : i < ms.length := hlength ▸ (List.getElem?_eq_some_iff.mp hi).1
          exact regular_sameButValue (hsame i _ m' (List.getElem?_eq_getElem hlt) hi)
            (hms _ (List.getElem_mem hlt)) (hshown.member hm').here
      | _ => exact ho.elim
  | add =>
      cases cls with
      | arrayList fixedSize element =>
          obtain ⟨-, rfl⟩ := ho
          refine regular_iff_members.mpr ⟨⟨trivial, trivial, rfl⟩, fun m hm => ?_⟩
          rcases List.mem_append.mp (show m ∈ ms ++ [element.fresh] from hm) with hm' | hm'
          · exact hms m hm'
          · obtain rfl := List.mem_singleton.mp hm'
            exact regular_fresh (hshown.member hm)
      | _ => exact ho.elim
  | remove idx =>
      cases cls with
      | arrayList fixedSize element =>
          obtain ⟨-, rfl, -⟩ := ho
          exact regular_iff_members.mpr ⟨⟨trivial, trivial, rfl⟩, fun m hm =>
            hms m (List.mem_of_mem_eraseIdx hm)⟩
      | _ => exact ho.elim
  | toggle =>
      cases cls with
      | optional mode =>
          refine regular_iff_members.mpr ⟨⟨trivial, trivial, ?_⟩, hms⟩
          cases mode <;> rfl
      | _ => exact ho.elim
  | pickIndex index =>
      cases cls with
      | variant names protos current => exact regular_withSelected hshown
      | _ => exact ho.elim
  | pickMember entry =>
      cases cls with
      | variant names protos current => exact regular_withSelected hshown
      | _ => exact ho.elim

theorem regular_withMembers {ms : List (CommsField ν)} (h : Regular f)
    (hlength : ms.length = f.members.length) (hms : ∀ m ∈ ms, Regular m) :
    Regular (f.withMembers ms) := by
  obtain ⟨⟨hshown, hsized, hdecided⟩, -⟩ := regular_iff_members.mp h
  refine regular_iff_members.mpr ⟨⟨?_, ?_, ?_⟩, (withMembers_members f ms).symm ▸ hms⟩
  · rwa [Shown, withMembers_cls]
  · rwa [Sized, withMembers_cls, withMembers_members, hlength]
  · rwa [Decided, withMembers_cls]

/-- The same at the end of a path. -/
theorem regular_appliedAt {e : FieldEdit ν} {path : List ℕ} {n : CommsField ν} (h : Regular f)
    (hshown : AllShown (appliedAt C e f path))
    (hn : Members.nodeAt CommsField.members f path = some n) (ho : Offered C true n e) :
    Regular (appliedAt C e f path) := by
  induction path generalizing f with
  | nil =>
      obtain rfl := Option.some.inj hn
      exact regular_applied h hshown ho
  | cons i path ih =>
      obtain ⟨m, hm, hn⟩ := Option.bind_eq_some_iff.mp hn
      have hi : i < f.members.length := (List.getElem?_eq_some_iff.mp hm).1
      rw [appliedAt_cons hm] at hshown ⊢
      have hmem : appliedAt C e m path ∈
          (f.withMembers (f.members.set i (appliedAt C e m path))).members :=
        (withMembers_members _ _).symm ▸ List.mem_set hi _
      refine regular_withMembers h List.length_set fun m' hm' => ?_
      rcases List.mem_or_eq_of_mem_set hm' with hm' | rfl
      · exact h.member hm'
      · exact ih (h.member (List.mem_of_getElem? hm)) (hshown.member hmem) hn

/-- **An edit below**: the field changes at the end of the path, the widgets on the way up show it,
and the signal reaches the top. -/
theorem edit_does {e : FieldEdit ν} {path : List ℕ} {n : CommsField ν} {nw : WidgetTree ν}
    (h : Regular f) (hwritable : AllWritable C f) (h' : Regular (appliedAt C e f path))
    (hw : Shows C f w) (hn : Members.nodeAt CommsField.members f path = some n)
    (hnw : Members.nodeAt members w path = some nw) (ho : Offered C true n e) :
    Does C (appliedAt C e f path) (Works C (appliedAt C e f path) e nw)
      (edit C true path f w e) := by
  induction path generalizing f w with
  | nil =>
      obtain rfl := Option.some.inj hn
      obtain rfl := Option.some.inj hnw
      exact slot_does h h' hw ho
  | cons i path ih =>
      obtain ⟨m, hm, hn⟩ := Option.bind_eq_some_iff.mp hn
      obtain ⟨mw, hmw, hnw⟩ := Option.bind_eq_some_iff.mp hnw
      obtain ⟨mw', hmw', hshows⟩ := hw.getElem? hm
      obtain rfl := Option.some.inj (hmw.symm.trans hmw')
      have hmem : m ∈ f.members := List.mem_of_getElem? hm
      have hi : i < f.members.length := (List.getElem?_eq_some_iff.mp hm).1
      rw [appliedAt_cons hm] at h' ⊢
      rw [edit, hm, hmw]
      simp only
      set m' := appliedAt C e m path with hm'
      set f' := f.withMembers (f.members.set i m') with hf'
      have hmembers : f'.members = f.members.set i m' := withMembers_members _ _
      have hmem' : m' ∈ f'.members := hmembers ▸ List.mem_set hi m'
      have hdoes : Does C m' (Works C m' e nw) (edit C true path m mw e) :=
        ih (h.member hmem) (hwritable.member hmem) (h'.member hmem') hshows hn hnw
      have hfits : FaceFits f' w.face :=
        hw.here.fits.congr (withMembers_cls _ _) (by rw [hmembers, List.length_set])
      constructor
      · rintro ⟨hwritable', hcreate⟩
        obtain ⟨w₁, hedit, hshown⟩ := hdoes.ok ⟨hwritable'.member hmem', hcreate⟩
        obtain ⟨face, hupdated, hface⟩ := memberUpdated_shows
          (w := .mk w.face (w.members.set i w₁)) i hfits hwritable'.here fun m hm =>
            (hwritable'.member (List.mem_of_getElem? hm)).here
        refine ⟨.mk face (w.members.set i w₁), ?_, Members.mirrored_iff.mpr ⟨hface, ?_⟩⟩
        · rw [hedit]
          show (memberUpdated C f' (.mk w.face (w.members.set i w₁)) i).map _ = _
          rw [hupdated]
          rfl
        · rw [hmembers]
          exact Members.forall₂_set hw.pairs i hshown
      · intro x hx
        obtain ⟨y, hy, hx⟩ := Stops.bind_eq_ok.mp hx
        have hworks : Works C m' e nw := hdoes.only y hy
        obtain ⟨w₁, rfl, -⟩ := hdoes.of_ok hy
        obtain ⟨w', hupdated, -⟩ := Stops.map_eq_ok.mp hx
        have hall : ∀ n ∈ f'.members, AllWritable C n := by
          intro n hn
          rw [hmembers] at hn
          rcases List.mem_or_eq_of_mem_set hn with hn | rfl
          · exact hwritable.member hn
          · exact hworks.1
        exact ⟨.intro _ (canWrite_of_memberUpdated hupdated fun n hn => (hall n hn).here) hall,
          hworks.2⟩
      · refine hdoes.fails.bind fun y hy => ?_
        obtain ⟨w₁, rfl, -⟩ := hdoes.of_ok hy
        exact (memberUpdated_fails (w := .mk w.face (w.members.set i w₁)) i hfits).map _

end path

end WidgetTree

end CcToolsQt
