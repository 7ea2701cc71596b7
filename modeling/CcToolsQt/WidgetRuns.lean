import CcToolsQt.MemberCallbacks
import CcToolsQt.SpinValues

/-! # Runs of edits

While a message is displayed its fields change as the edits say, one signal for each, and its
widgets show the fields in every state, as long as they show the values as they are.

* `widgets_follow`: every run that meets no failed assertion and resets no field.
* `edits_succeed_iff`: which runs do neither, if no variant in a list is given a member.
* `displayed_list_keeps_members`, `renewed_list_changes_members`: which variants in lists can be. -/

namespace CcToolsQt
variable {ν : Type}

namespace WidgetTree
open CommsField WrappedField FieldEdit
variable {C : Comms ν}

/-! ### While editing is disabled -/

theorem set_self_of_getElem? {α : Type*} {l : List α} {i : ℕ} {a : α} (h : l[i]? = some a) :
    l.set i a = l := by
  obtain ⟨hi, rfl⟩ := List.getElem?_eq_some_iff.mp h
  exact List.set_getElem_self hi

theorem edit_disabled {e : FieldEdit ν} {path : List ℕ} {f n : CommsField ν} {w : WidgetTree ν}
    (h : Regular f) (hwritable : AllWritable C f) (hw : Shows C f w)
    (hn : Members.nodeAt CommsField.members f path = some n) (ho : Offered C false n e) :
    ∃ w', edit C false path f w e = .ok (f, w', false) ∧ Shows C f w' := by
  induction path generalizing f w with
  | nil =>
      obtain rfl := Option.some.inj hn
      exact slot_disabled h hwritable.here hw ho
  | cons i path ih =>
      obtain ⟨m, hm, hn⟩ := Option.bind_eq_some_iff.mp hn
      obtain ⟨mw, hmw, hshows⟩ := hw.getElem? hm
      have hmem : m ∈ f.members := List.mem_of_getElem? hm
      obtain ⟨mw', hedit, hshows'⟩ := ih (h.member hmem) (hwritable.member hmem) hshows hn
      have hself : f.withMembers (f.members.set i m) = f := by
        rw [set_self_of_getElem? hm]
        obtain ⟨cls, ms⟩ := f
        rfl
      refine ⟨.mk w.face (w.members.set i mw'), ?_, Members.mirrored_iff.mpr ⟨hw.here, ?_⟩⟩
      · rw [edit, hm, hmw]
        simp only
        rw [hedit]
        show (Except.ok (f.withMembers (f.members.set i m), _, false) : Except Stop _) = _
        rw [hself]
      · have hset := Members.forall₂_set hw.pairs i hshows'
        rwa [set_self_of_getElem? hm] at hset

end WidgetTree

/-! ### Runs -/

/-- The fields of a message, without the widgets. -/
structure MessageFields (ν : Type) where
  isEditEnabled : Bool
  fields : List (CommsField ν)
  updates : ℕ

namespace MessageFields
open CommsField FieldEdit WidgetTree

/-- The fields of a message once it is displayed. -/
def displayed (isEditEnabled : Bool) (fields : List (CommsField ν)) : MessageFields ν :=
  ⟨isEditEnabled, fields.map fresh, 0⟩

/-- What an event is to do. -/
def step (C : Comms ν) (s : MessageFields ν) : MessageEvent ν → MessageFields ν
  | .edit i path e =>
      if s.isEditEnabled then
        { s with fields := s.fields.modify i (appliedAt C e · path), updates := s.updates + 1 }
      else s
  | .refresh => s
  | .setEditEnabled enabled => { s with isEditEnabled := enabled }

/-- An edit is one that the widget at the end of its path offers. -/
def Offers (C : Comms ν) (s : MessageFields ν) : MessageEvent ν → Prop
  | .edit i path e => ∃ f n, s.fields[i]? = some f ∧
      Members.nodeAt CommsField.members f path = some n ∧ Offered C s.isEditEnabled n e
  | _ => True

/-- An event that gives no member to a variant in a list. -/
def OutsideLists (s : MessageFields ν) : MessageEvent ν → Prop
  | .edit i path e => e.selects = true → ∀ f, s.fields[i]? = some f → belowList f path = false
  | _ => True

/-- New widgets show all values as they are, and leave them. -/
def ShownAsIs (s : MessageFields ν) : Prop := ∀ f ∈ s.fields, AllShown f

/-- Every field of the message can be written. -/
def Writable (C : Comms ν) (s : MessageFields ν) : Prop := ∀ f ∈ s.fields, AllWritable C f

variable {C : Comms ν} {s : MessageFields ν}

theorem modify_eq_set_of_getElem? {α : Type*} {l : List α} {i : ℕ} {a : α} (g : α → α)
    (ha : l[i]? = some a) : l.modify i g = l.set i (g a) := by
  have : Inhabited α := ⟨a⟩
  have hmodify := List.modify_eq_set g i l
  rwa [ha, Option.getD_some] at hmodify

/-- The fields after an edit. -/
theorem step_edit {i : ℕ} {path : List ℕ} {e : FieldEdit ν} {f : CommsField ν}
    (henabled : s.isEditEnabled = true) (hf : s.fields[i]? = some f) :
    s.step C (.edit i path e) =
      { s with fields := s.fields.set i (appliedAt C e f path), updates := s.updates + 1 } := by
  show (if s.isEditEnabled then _ else s) = _
  rw [henabled, if_pos rfl, modify_eq_set_of_getElem? _ hf]

theorem step_edit_disabled {i : ℕ} {path : List ℕ} {e : FieldEdit ν}
    (henabled : s.isEditEnabled = false) : s.step C (.edit i path e) = s := by
  show (if s.isEditEnabled then _ else s) = _
  rw [henabled]
  rfl

end MessageFields

namespace MessageWidget
open CommsField WrappedField FieldEdit WidgetTree
open MessageFields (displayed OutsideLists ShownAsIs Writable)
open LongIntValueFieldWidget (InRange valueWidget make_self_iff)
open IntWidgetKind (byteField)
variable {C : Comms ν}

/-- The fields of a message that is displayed. -/
def abstract (s : MessageWidget ν) : MessageFields ν := ⟨s.isEditEnabled, s.fields, s.updates⟩

structure Inv (C : Comms ν) (s : MessageWidget ν) : Prop where
  regular : ∀ f ∈ s.fields, Regular f
  writable : Writable C s.abstract
  shows : List.Forall₂ (Shows C) s.fields s.widgets

/-- What leads to the given fields, shown by their widgets, under a condition, and fails
otherwise. -/
structure Reaches (C : Comms ν) (t : MessageFields ν) (K : Prop)
    (r : Except Stop (MessageWidget ν)) : Prop where
  ok : K → ∃ s, r = .ok s ∧ Inv C s ∧ s.abstract = t
  only : ∀ s, r = .ok s → K
  fails : Stops.StopsBy Stop.Fails r

section reaches
variable {t : MessageFields ν} {K : Prop} {r : Except Stop (MessageWidget ν)}

theorem Reaches.of_ok {s : MessageWidget ν} (h : Reaches C t K r) (hr : r = .ok s) :
    Inv C s ∧ s.abstract = t := by
  obtain ⟨s', hs', hreached⟩ := h.ok (h.only s hr)
  obtain rfl := Except.ok.inj (hs'.symm.trans hr)
  exact hreached

theorem Reaches.isOk_iff (h : Reaches C t K r) : r.isOk = true ↔ K := by
  rw [Stops.isOk_iff_exists]
  constructor
  · rintro ⟨s, hs⟩
    exact h.only s hs
  · intro hK
    obtain ⟨s, hs, -⟩ := h.ok hK
    exact ⟨s, hs⟩

end reaches

theorem wraps_wrapAll (ms : List (CommsField ν)) : List.Forall₂ Wraps ms (wrapAll ms) := by
  rw [wrapAll_eq_map, List.forall₂_map_right_iff]
  exact List.forall₂_same.mpr fun m _ => wraps_wrap m

/-- **Displaying a message.** -/
theorem display_reaches (enabled : Bool) {fields : List (CommsField ν)}
    (hshown : ShownAsIs (displayed enabled fields)) :
    Reaches C (displayed enabled fields) (Writable C (displayed enabled fields))
      (display C enabled fields) := by
  have hfresh : (adjustedAll fields).map settled = fields.map fresh := by
    rw [adjustedAll_eq_map, List.map_map]
    rfl
  have hadjusted : ∀ f ∈ adjustedAll fields, f.settled ∈ fields.map fresh := fun f hf =>
    hfresh ▸ List.mem_map_of_mem hf
  have hleaves : LeavesAll C (fields.map fresh)
      (handleAll C (adjustedAll fields) (wrapAll (adjustedAll fields))) :=
    hfresh ▸ handleAll_leaves (wraps_wrapAll _) fun f hf =>
      allShown_settled.mp (hshown _ (hadjusted f hf))
  constructor
  · intro hwritable
    obtain ⟨ws, hmade, hshows⟩ := hleaves.ok hwritable
    have helements : elementsWritableAll C (adjustedAll fields) = true := by
      rw [elementsWritableAll_eq, List.all_eq_true]
      exact fun f hf => elementsWritable_of_settled (hwritable _ (hadjusted f hf))
    refine ⟨⟨enabled, fields.map fresh, ws, 0⟩, ?_, ⟨fun f hf => ?_, hwritable, hshows⟩, rfl⟩
    · refine Stops.ite_eq_ok.mpr ⟨helements, ?_⟩
      rw [hmade]
      rfl
    · obtain ⟨f₀, -, rfl⟩ := List.mem_map.mp hf
      exact regular_fresh (hshown _ hf)
  · intro s hs
    obtain ⟨made, hmade, -⟩ := Stops.map_eq_ok.mp (Stops.ite_eq_ok.mp hs).2
    exact hleaves.only made hmade
  · exact Stops.stopsBy_ite (.inr rfl) fun _ => hleaves.fails.map _

/-- When an event meets no failed assertion and resets nothing: what an edit leaves can be written,
and a variant that is given a member can create it. -/
def Succeeds (C : Comms ν) (s : MessageWidget ν) : MessageEvent ν → Prop
  | .edit i path e => s.isEditEnabled = true → ∀ f w nw, s.fields[i]? = some f →
      s.widgets[i]? = some w → Members.nodeAt WidgetTree.members w path = some nw →
      Works C (appliedAt C e f path) e nw
  | _ => True

theorem forall₂_getElem? {α β : Type*} {S : α → β → Prop} {l : List α} {l' : List β} {i : ℕ}
    {a : α} (h : List.Forall₂ S l l') (ha : l[i]? = some a) : ∃ b, l'[i]? = some b ∧ S a b := by
  obtain ⟨hlength, hS⟩ := Members.forall₂_iff_getElem?.mp h
  have hi : i < l'.length := hlength ▸ (List.getElem?_eq_some_iff.mp ha).1
  exact ⟨_, List.getElem?_eq_getElem hi, hS i a _ ha (List.getElem?_eq_getElem hi)⟩

theorem step_edit_eq {s : MessageWidget ν} {enabled : Bool} {i : ℕ} {path : List ℕ}
    {e : FieldEdit ν} {f : CommsField ν} {w : WidgetTree ν} (henabled : s.isEditEnabled = enabled)
    (hf : s.fields[i]? = some f) (hw : s.widgets[i]? = some w) :
    s.step C (.edit i path e) = (WidgetTree.edit C enabled path f w e).map fun x =>
      { s with fields := s.fields.set i x.1, widgets := s.widgets.set i x.2.1,
               updates := s.updates + x.2.2.toNat } := by
  rw [step, hf, hw, ← henabled]

theorem succeeds_edit_iff {s : MessageWidget ν} {i : ℕ} {path : List ℕ} {e : FieldEdit ν}
    {f : CommsField ν} {w nw : WidgetTree ν} (henabled : s.isEditEnabled = true)
    (hf : s.fields[i]? = some f) (hw : s.widgets[i]? = some w)
    (hnw : Members.nodeAt WidgetTree.members w path = some nw) :
    Succeeds C s (.edit i path e) ↔ Works C (appliedAt C e f path) e nw := by
  constructor
  · intro hs
    exact hs henabled f w nw hf hw hnw
  · intro hworks _ f' w' nw' hf' hw' hnw'
    obtain rfl := Option.some.inj (hf.symm.trans hf')
    obtain rfl := Option.some.inj (hw.symm.trans hw')
    obtain rfl := Option.some.inj (hnw.symm.trans hnw')
    exact hworks

/-- An edit while editing is disabled. -/
theorem step_disabled {s : MessageWidget ν} {i : ℕ} {path : List ℕ} {e : FieldEdit ν}
    (h : Inv C s) (ho : s.abstract.Offers C (.edit i path e)) (henabled : s.isEditEnabled = false) :
    Reaches C (s.abstract.step C (.edit i path e)) (Succeeds C s (.edit i path e))
      (s.step C (.edit i path e)) := by
  have hsucceeds : Succeeds C s (.edit i path e) := fun henabled' =>
    absurd (henabled.symm.trans henabled') Bool.false_ne_true
  obtain ⟨f, n, hf, hn, hoffered⟩ := ho
  have hf : s.fields[i]? = some f := hf
  have hoffered : Offered C s.isEditEnabled n e := hoffered
  obtain ⟨w, hw, hshows⟩ := forall₂_getElem? h.shows hf
  rw [henabled] at hoffered
  obtain ⟨w', hedit, hshows'⟩ := edit_disabled (h.regular f (List.mem_of_getElem? hf))
    (h.writable f (List.mem_of_getElem? hf)) hshows hn hoffered
  have hset := Members.forall₂_set h.shows i hshows'
  rw [set_self_of_getElem? hf] at hset
  have hstep : s.step C (.edit i path e) = .ok { s with widgets := s.widgets.set i w' } := by
    have hfields : s.fields.set i f = s.fields := set_self_of_getElem? hf
    rw [step_edit_eq henabled hf hw, hedit]
    simp [Except.map, hfields]
  rw [hstep, MessageFields.step_edit_disabled (s := s.abstract) henabled]
  exact ⟨fun _ => ⟨_, rfl, ⟨h.regular, h.writable, hset⟩, rfl⟩, fun _ _ => hsucceeds,
    Stops.stopsBy_ok _⟩

/-- An edit while editing is enabled. -/
theorem step_enabled {s : MessageWidget ν} {i : ℕ} {path : List ℕ} {e : FieldEdit ν}
    (h : Inv C s) (ho : s.abstract.Offers C (.edit i path e)) (henabled : s.isEditEnabled = true)
    (hshown : ShownAsIs (s.abstract.step C (.edit i path e))) :
    Reaches C (s.abstract.step C (.edit i path e)) (Succeeds C s (.edit i path e))
      (s.step C (.edit i path e)) := by
  obtain ⟨f, n, hf, hn, hoffered⟩ := ho
  have hf : s.fields[i]? = some f := hf
  have hoffered : Offered C s.isEditEnabled n e := hoffered
  obtain ⟨w, hw, hshows⟩ := forall₂_getElem? h.shows hf
  obtain ⟨nw, hnw, -⟩ := hshows.nodeAt hn
  have hi : i < s.fields.length := (List.getElem?_eq_some_iff.mp hf).1
  have hregular : Regular f := h.regular f (List.mem_of_getElem? hf)
  rw [henabled] at hoffered
  rw [MessageFields.step_edit (s := s.abstract) henabled hf] at hshown ⊢
  have hregular' : Regular (appliedAt C e f path) :=
    regular_appliedAt hregular (hshown _ (List.mem_set hi _)) hn hoffered
  have hdoes := edit_does hregular (h.writable f (List.mem_of_getElem? hf)) hregular' hshows hn hnw
    hoffered
  rw [step_edit_eq henabled hf hw, succeeds_edit_iff henabled hf hw hnw]
  constructor
  · intro hworks
    obtain ⟨w', hedit, hshows'⟩ := hdoes.ok hworks
    rw [hedit]
    refine ⟨_, rfl, ⟨fun g hg => ?_, fun g hg => ?_, Members.forall₂_set h.shows i hshows'⟩, rfl⟩
    · rcases List.mem_or_eq_of_mem_set hg with hg | rfl
      · exact h.regular g hg
      · exact hregular'
    · rcases List.mem_or_eq_of_mem_set hg with hg | rfl
      · exact h.writable g hg
      · exact hworks.1
  · intro s' hs'
    obtain ⟨x, hx, -⟩ := Stops.map_eq_ok.mp hs'
    exact hdoes.only x hx
  · exact hdoes.fails.map _

/-- **One event**: it succeeds under its condition, and then the fields change as they are to and
are shown. -/
theorem step_reaches {s : MessageWidget ν} {ev : MessageEvent ν} (h : Inv C s)
    (ho : s.abstract.Offers C ev) (hshown : ShownAsIs (s.abstract.step C ev)) :
    Reaches C (s.abstract.step C ev) (Succeeds C s ev) (s.step C ev) := by
  cases ev with
  | setEditEnabled enabled =>
      exact ⟨fun _ => ⟨_, rfl, ⟨h.regular, h.writable, h.shows⟩, rfl⟩, fun _ _ => trivial,
        Stops.stopsBy_ok _⟩
  | refresh =>
      cases henabled : s.isEditEnabled with
      | false =>
          have hstep : s.step C .refresh = .ok s := by
            rw [step, henabled]
            rfl
          rw [hstep]
          exact ⟨fun _ => ⟨s, rfl, h, rfl⟩, fun _ _ => trivial, Stops.stopsBy_ok _⟩
      | true =>
          obtain ⟨ws, hrefresh, hshows⟩ := (refreshAll_leaves h.regular
            (h.shows.imp fun _ _ => Shows.fits)).ok h.writable
          have hstep : s.step C .refresh = .ok { s with widgets := ws } := by
            rw [step, henabled, if_pos rfl, hrefresh]
            rfl
          rw [hstep]
          exact ⟨fun _ => ⟨_, rfl, ⟨h.regular, h.writable, hshows⟩, rfl⟩, fun _ _ => trivial,
            Stops.stopsBy_ok _⟩
  | edit i path e =>
      cases henabled : s.isEditEnabled with
      | false => exact step_disabled h ho henabled
      | true => exact step_enabled h ho henabled hshown

/-! ### A message with a list of variants -/

/-- Values of one byte, the number of the members before them, and lists of two elements at most. -/
def sampleComms : Comms ℤ where
  canWrite f := !f.cls.isArrayList || decide (f.members.length ≤ 2)
  write f :=
    match f.cls with
    | .value _ v => [(v % 256).toNat.toUInt8]
    | .variant _ _ none => []
    | _ => [f.members.length.toUInt8]
  readBitfield ms _ := ms
  canWrite_of_members f _ hlist _ := by rw [hlist]; rfl
  canWrite_settled f _ := by
    rw [settled_cls, FieldClass.settled_isArrayList, settled_members, List.length_map]
  write_settled f := by
    rw [settled_cls, settled_members, List.length_map]
    cases f.cls with
    | optional mode => cases mode <;> rfl
    | _ => rfl
  write_unselected _ _ _ := rfl
  readBitfield_spec ms _ := by
    refine List.forall₂_same.mpr fun m _ => ⟨rfl, ?_⟩
    cases m.cls with
    | value widget v => exact ⟨v, rfl⟩
    | _ => rfl

/-- A signed byte that is shown with an offset of ten. -/
def sampleByte (v : ℤ) : CommsField ℤ :=
  .mk (.value (valueWidget (byteField 10)) v) []

-- the box ends at 127, which stands for 117
example : (display sampleComms true [sampleByte 120]).map (·.fields) = .ok [sampleByte 117] := rfl

/-- A variant that is a byte or has no member. -/
def sampleVariant : CommsField ℤ := .mk (.variant [] [sampleByte 0] none) []

/-- A variant and a list with one. -/
def sampleFields : List (CommsField ℤ) :=
  [sampleVariant, .mk (.arrayList none sampleVariant) [sampleVariant]]

/-- The variant outside the list becomes a byte, which is given a value, and the list grows. -/
def sampleEvents : List (MessageEvent ℤ) :=
  [.edit 0 [] (.pickIndex (some 0)), .edit 0 [0] (.value 30), .edit 1 [] .add]

theorem sampleByte_shown {v : ℤ} (h : InRange (byteField 10) v) :
    AllShown (sampleByte v) :=
  .intro _ ((make_self_iff (by decide)).mpr ⟨rfl, h⟩)
    fun _ hm => absurd hm List.not_mem_nil

theorem sampleVariant_shown : AllShown sampleVariant :=
  .intro _ trivial fun _ hm => absurd hm List.not_mem_nil

/-- A variant that is a byte. -/
theorem selected_shown {v : ℤ} (h : InRange (byteField 10) v) :
    AllShown (.mk (.variant [] [sampleByte 0] (some 0)) [sampleByte v]) :=
  .intro _ trivial (List.forall_mem_singleton.mpr (sampleByte_shown h))

theorem sampleFields_shown : ShownAsIs (displayed true sampleFields) :=
  List.forall_mem_cons.mpr ⟨sampleVariant_shown, List.forall_mem_singleton.mpr
    (.intro _ trivial (List.forall_mem_singleton.mpr sampleVariant_shown))⟩

theorem sampleEvents_shown :
    Runs.Always (MessageFields.step sampleComms) (displayed true sampleFields) sampleEvents
      ShownAsIs := by
  have hlist : AllShown (.mk (.arrayList none sampleVariant) [sampleVariant]) :=
    .intro _ trivial (List.forall_mem_singleton.mpr sampleVariant_shown)
  refine Runs.always_cons.mpr ⟨sampleFields_shown, Runs.always_cons.mpr ⟨?_,
    Runs.always_cons.mpr ⟨?_, Runs.always_nil.mpr ?_⟩⟩⟩
  · exact List.forall_mem_cons.mpr ⟨selected_shown (v := 0) (by decide),
      List.forall_mem_singleton.mpr hlist⟩
  · exact List.forall_mem_cons.mpr ⟨selected_shown (v := 30) (by decide),
      List.forall_mem_singleton.mpr hlist⟩
  · refine List.forall_mem_cons.mpr ⟨selected_shown (v := 30) (by decide),
      List.forall_mem_singleton.mpr (.intro _ trivial ?_)⟩
    exact List.forall_mem_cons.mpr ⟨sampleVariant_shown,
      List.forall_mem_singleton.mpr sampleVariant_shown⟩

theorem sampleEvents_offered :
    Runs.Along (MessageFields.step sampleComms) (displayed true sampleFields) sampleEvents
      fun s ev => s.Offers sampleComms ev ∧ OutsideLists s ev := by
  refine Runs.along_cons.mpr ⟨⟨⟨_, _, rfl, rfl, rfl, by simp, ?_⟩, ?_⟩, ?_⟩
  · exact fun k hk => Option.mem_some_iff.mp hk ▸ Nat.zero_lt_one
  · intro _ f hf
    obtain rfl := Option.some.inj hf
    rfl
  refine Runs.along_cons.mpr ⟨⟨⟨_, _, rfl, rfl, rfl, rfl⟩, fun he => ?_⟩, ?_⟩
  · exact absurd he Bool.false_ne_true
  refine Runs.along_cons.mpr ⟨⟨⟨_, _, rfl, rfl, rfl, rfl⟩, fun he => ?_⟩, Runs.along_nil⟩
  exact absurd he Bool.false_ne_true

/-! ### What a run leaves -/

/-- The events of a run are offered, and lead to values that are shown as they are. -/
def Legal (C : Comms ν) (t : MessageFields ν) (ev : MessageEvent ν) : Prop :=
  t.Offers C ev ∧ ShownAsIs (t.step C ev)

theorem step_of_ok {s s' : MessageWidget ν} {ev : MessageEvent ν} (h : Inv C s)
    (hl : Legal C s.abstract ev) (hstep : s.step C ev = .ok s') :
    Inv C s' ∧ s'.abstract = s.abstract.step C ev :=
  (step_reaches h hl.1 hl.2).of_ok hstep

/-- What every run that has not stopped leads to. -/
theorem run_of_ok {enabled : Bool} {fields : List (CommsField ν)} {evs : List (MessageEvent ν)}
    {s : MessageWidget ν} (hshown : ShownAsIs (displayed enabled fields))
    (hl : Runs.Along (MessageFields.step C) (displayed enabled fields) evs (Legal C))
    (hrun : run C enabled fields evs = .ok s) :
    Inv C s ∧ s.abstract = evs.foldl (MessageFields.step C) (displayed enabled fields) := by
  obtain ⟨d, hd, hrun⟩ := Stops.bind_eq_ok.mp hrun
  obtain ⟨hinv, habstract⟩ := (display_reaches enabled hshown).of_ok hd
  rw [← habstract] at hl ⊢
  exact Stops.refines (fun s ev s' hs => step_of_ok hs) hinv hl hrun

/-- What every other run has run into. -/
theorem run_fails {enabled : Bool} {fields : List (CommsField ν)} {evs : List (MessageEvent ν)}
    (hshown : ShownAsIs (displayed enabled fields))
    (hl : Runs.Along (MessageFields.step C) (displayed enabled fields) evs (Legal C)) :
    Stops.StopsBy Stop.Fails (run C enabled fields evs) := by
  have hdisplay := display_reaches (C := C) enabled hshown
  refine hdisplay.fails.bind fun d hd => ?_
  obtain ⟨hinv, habstract⟩ := hdisplay.of_ok hd
  rw [← habstract] at hl
  exact Stops.stopsBy_foldlM (fun s ev s' hs => step_of_ok hs)
    (fun s ev hs hlegal => (step_reaches hs hlegal.1 hlegal.2).fails) hinv hl

theorem legal_of_always {t : MessageFields ν} {evs : List (MessageEvent ν)}
    {K : MessageFields ν → MessageEvent ν → Prop} (hK : ∀ t ev, K t ev → t.Offers C ev)
    (ho : Runs.Along (MessageFields.step C) t evs K)
    (hshown : Runs.Always (MessageFields.step C) t evs ShownAsIs) :
    Runs.Along (MessageFields.step C) t evs (Legal C) :=
  (ho.mono hK).and hshown.along_next

theorem shownAsIs_head {t : MessageFields ν} {evs : List (MessageEvent ν)}
    (h : Runs.Always (MessageFields.step C) t evs ShownAsIs) : ShownAsIs t := h [] evs rfl

/-- **The widgets follow the fields**: whatever is edited in whatever order, unless an assertion
fails or a field is reset, the fields are what the edits leave, with one signal for each of them,
and every widget shows the field below it. -/
theorem widgets_follow {enabled : Bool} {fields : List (CommsField ν)} {evs : List (MessageEvent ν)}
    (ho : Runs.Along (MessageFields.step C) (displayed enabled fields) evs
      (MessageFields.Offers C))
    (hshown : Runs.Always (MessageFields.step C) (displayed enabled fields) evs ShownAsIs) :
    (∀ stop, run C enabled fields evs = .error stop → stop.Fails) ∧
      ∀ s, run C enabled fields evs = .ok s →
        s.abstract = evs.foldl (MessageFields.step C) (displayed enabled fields) ∧
          List.Forall₂ (Shows C) s.fields s.widgets := by
  have hlegal := legal_of_always (fun _ _ h => h) ho hshown
  refine ⟨run_fails (shownAsIs_head hshown) hlegal, fun s hrun => ?_⟩
  obtain ⟨hinv, habstract⟩ := run_of_ok (shownAsIs_head hshown) hlegal hrun
  exact ⟨habstract, hinv.shows⟩

theorem widgets_follow_sample :
    ∃ s, run sampleComms true sampleFields sampleEvents = .ok s ∧
      s.abstract = sampleEvents.foldl (MessageFields.step sampleComms)
        (displayed true sampleFields) ∧
      List.Forall₂ (Shows sampleComms) s.fields s.widgets := by
  obtain ⟨s, hs⟩ := Stops.isOk_iff_exists.mp
    (show (run sampleComms true sampleFields sampleEvents).isOk = true from rfl)
  exact ⟨s, hs, (widgets_follow (sampleEvents_offered.mono fun _ _ h => h.1)
    sampleEvents_shown).2 s hs⟩

/-! ### Which runs succeed -/

/-- The variants outside lists can create members. -/
def CreatesAll (s : MessageWidget ν) : Prop := ∀ w ∈ s.widgets, Creates w

theorem display_creates {enabled : Bool} {fields : List (CommsField ν)} {s : MessageWidget ν}
    (h : display C enabled fields = .ok s) : CreatesAll s := by
  obtain ⟨made, hmade, rfl⟩ := Stops.map_eq_ok.mp (Stops.ite_eq_ok.mp h).2
  exact handleAll_creates hmade

/-- An edit that has not stopped, of the field and the widget at its place. -/
theorem step_edit_eq_ok {s s' : MessageWidget ν} {i : ℕ} {path : List ℕ} {e : FieldEdit ν}
    (hstep : s.step C (.edit i path e) = .ok s') : ∃ f w x, s.fields[i]? = some f ∧
      s.widgets[i]? = some w ∧ WidgetTree.edit C s.isEditEnabled path f w e = .ok x ∧
      s'.widgets = s.widgets.set i x.2.1 := by
  cases hf : s.fields[i]? with
  | none =>
      simp only [step, hf] at hstep
      cases hstep
  | some f =>
      cases hw : s.widgets[i]? with
      | none =>
          simp only [step, hf, hw] at hstep
          cases hstep
      | some w =>
          rw [step_edit_eq rfl hf hw] at hstep
          obtain ⟨x, hx, rfl⟩ := Stops.map_eq_ok.mp hstep
          exact ⟨f, w, x, rfl, rfl, hx, rfl⟩

theorem step_creates {s s' : MessageWidget ν} {ev : MessageEvent ν} (h : CreatesAll s)
    (hstep : s.step C ev = .ok s') : CreatesAll s' := by
  cases ev with
  | setEditEnabled enabled =>
      obtain rfl := Except.ok.inj hstep
      exact h
  | refresh =>
      obtain ⟨-, hstep⟩ | ⟨-, hstep⟩ := ite_eq_iff.mp hstep
      · obtain ⟨made, hmade, rfl⟩ := Stops.map_eq_ok.mp hstep
        exact refreshAll_creates hmade (fun m _ w y => refresh_creates m w) h
      · obtain rfl := Except.ok.inj hstep
        exact h
  | edit i path e =>
      obtain ⟨f, w, x, -, hw, hx, hwidgets⟩ := step_edit_eq_ok hstep
      intro w' hw'
      rw [hwidgets] at hw'
      rcases List.mem_or_eq_of_mem_set hw' with hw' | rfl
      · exact h w' hw'
      · exact edit_creates hx (h w (List.mem_of_getElem? hw))

theorem selects_isVariant {enabled : Bool} {n : CommsField ν} {e : FieldEdit ν}
    (h : Offered C enabled n e) (he : e.selects = true) : n.cls.isVariant = true := by
  cases hcls : n.cls <;> cases e <;> simp_all [Offered, selects, FieldClass.isVariant]

/-- An edit succeeds exactly if what it leaves can be written, where the variants that are given a
member can create it. -/
theorem succeeds_iff_writable {s : MessageWidget ν} {i : ℕ} {path : List ℕ} {e : FieldEdit ν}
    {f : CommsField ν} {w nw : WidgetTree ν} (h : Inv C s) (henabled : s.isEditEnabled = true)
    (hf : s.fields[i]? = some f) (hw : s.widgets[i]? = some w)
    (hnw : Members.nodeAt WidgetTree.members w path = some nw)
    (hcreate : e.selects = true → nw.canCreate = true) :
    Succeeds C s (.edit i path e) ↔ Writable C (s.abstract.step C (.edit i path e)) := by
  have hi : i < s.fields.length := (List.getElem?_eq_some_iff.mp hf).1
  rw [MessageFields.step_edit (s := s.abstract) henabled hf, succeeds_edit_iff henabled hf hw hnw]
  constructor
  · rintro ⟨hworks, -⟩ g hg
    rcases List.mem_or_eq_of_mem_set hg with hg | rfl
    · exact h.writable g hg
    · exact hworks
  · intro hwritable
    exact ⟨hwritable _ (List.mem_set hi _), hcreate⟩

/-- One event outside lists. -/
theorem step_isOk_iff {s : MessageWidget ν} {ev : MessageEvent ν} (h : Inv C s)
    (hcreates : CreatesAll s) (hl : Legal C s.abstract ev) (hout : OutsideLists s.abstract ev) :
    (s.step C ev).isOk = true ↔ Writable C (s.abstract.step C ev) := by
  obtain ⟨ho, hshown⟩ := hl
  rw [(step_reaches h ho hshown).isOk_iff]
  cases ev with
  | setEditEnabled enabled => exact iff_of_true trivial h.writable
  | refresh => exact iff_of_true trivial h.writable
  | edit i path e =>
      cases henabled : s.isEditEnabled with
      | false =>
          rw [MessageFields.step_edit_disabled (s := s.abstract) henabled]
          exact iff_of_true (fun henabled' => absurd (henabled.symm.trans henabled')
            Bool.false_ne_true) h.writable
      | true =>
          obtain ⟨f, n, hf, hn, hoffered⟩ := ho
          obtain ⟨w, hw, hshows⟩ := forall₂_getElem? h.shows hf
          obtain ⟨nw, hnw, hnshows⟩ := hshows.nodeAt hn
          refine succeeds_iff_writable h henabled hf hw hnw fun he => ?_
          exact canCreate_of_creates ((hcreates w (List.mem_of_getElem? hw)).nodeAt hshows
            (hout he f hf) hnw) hnshows (selects_isVariant hoffered he)

theorem run_isOk_iff {enabled : Bool} {fields : List (CommsField ν)} {evs : List (MessageEvent ν)}
    (hshown : ShownAsIs (displayed enabled fields))
    (hl : Runs.Along (MessageFields.step C) (displayed enabled fields) evs
      fun s ev => Legal C s ev ∧ OutsideLists s ev) :
    (run C enabled fields evs).isOk = true ↔
      Runs.Always (MessageFields.step C) (displayed enabled fields) evs (Writable C) := by
  have hdisplay := display_reaches (C := C) enabled hshown
  rw [run]
  cases hd : display C enabled fields with
  | error stop =>
      refine iff_of_false Bool.false_ne_true fun h => ?_
      obtain ⟨s, hs, -⟩ := hdisplay.ok (h [] evs rfl)
      rw [hd] at hs
      cases hs
  | ok d =>
      obtain ⟨hinv, habstract⟩ := hdisplay.of_ok hd
      rw [← habstract] at hl ⊢
      refine Stops.isOk_iff (I := fun s => Inv C s ∧ CreatesAll s) ?_ ?_
        ⟨hinv, display_creates hd⟩ hinv.writable hl
      · rintro s ev s' ⟨hs, hcreates⟩ ⟨hlegal, -⟩ hstep
        obtain ⟨hs', habstract'⟩ := step_of_ok hs hlegal hstep
        exact ⟨⟨hs', step_creates hcreates hstep⟩, habstract'⟩
      · rintro s ev ⟨hs, hcreates⟩ ⟨hlegal, hout⟩
        exact step_isOk_iff hs hcreates hlegal hout

/-- **Edits succeed unless a list gets too many elements**: a run that gives no member to a variant
in a list meets no failed assertion, and no field is reset, if and only if all fields can be written
whenever the edits are made one after another. -/
theorem edits_succeed_iff {enabled : Bool} {fields : List (CommsField ν)}
    {evs : List (MessageEvent ν)}
    (ho : Runs.Along (MessageFields.step C) (displayed enabled fields) evs
      fun s ev => s.Offers C ev ∧ OutsideLists s ev)
    (hshown : Runs.Always (MessageFields.step C) (displayed enabled fields) evs ShownAsIs) :
    (∀ stop : Stop, stop.Fails → run C enabled fields evs ≠ .error stop) ↔
      Runs.Always (MessageFields.step C) (displayed enabled fields) evs (Writable C) := by
  have hlegal := legal_of_always (fun _ _ h => h.1) ho hshown
  rw [← (run_fails (shownAsIs_head hshown) hlegal).isOk_iff]
  exact run_isOk_iff (shownAsIs_head hshown) (hlegal.and (ho.mono fun _ _ h => h.2))

theorem edits_succeed_iff_sample :
    (∀ stop : Stop, stop.Fails → run sampleComms true sampleFields sampleEvents ≠ .error stop) ↔
      Runs.Always (MessageFields.step sampleComms) (displayed true sampleFields) sampleEvents
        (Writable sampleComms) :=
  edits_succeed_iff sampleEvents_offered sampleEvents_shown

/-! ### Variants in lists -/

/-- **In a list that is shown for the first time** a variant has no callback to create members with,
and giving it one fails an assertion. -/
theorem displayed_list_keeps_members {fields : List (CommsField ν)} {d : MessageWidget ν} {i : ℕ}
    {path : List ℕ} {e : FieldEdit ν} (hd : display C true fields = .ok d)
    (he : e.selects = true) (ho : d.abstract.Offers C (.edit i path e))
    (hbelow : ∀ f, d.fields[i]? = some f → belowList f path = true) :
    (∃ w nw, d.widgets[i]? = some w ∧ Members.nodeAt WidgetTree.members w path = some nw ∧
      nw.canCreate = false) ∧ d.step C (.edit i path e) = .error .asserted := by
  obtain ⟨made, hmade, rfl⟩ := Stops.map_eq_ok.mp (Stops.ite_eq_ok.mp hd).2
  obtain ⟨f, n, hf, hn, hoffered⟩ := ho
  have hf : made.1[i]? = some f := hf
  have hshaped : List.Forall₂ Shaped made.1 made.2 :=
    handleAll_shaped (wraps_wrapAll _) hmade fun m _ t x ht hx =>
      handle_shaped m t ht hx
  obtain ⟨w, hw, hwshaped⟩ := forall₂_getElem? hshaped hf
  obtain ⟨nw, hnw, -⟩ := hwshaped.nodeAt hn
  obtain ⟨m, t, x, hm, ht, hx, hfield, rfl⟩ := handleAll_getElem? hmade hw
  obtain rfl := Option.some.inj (hf.symm.trans hfield)
  rw [wrapAll_eq_map, List.getElem?_map, hm] at ht
  obtain rfl := Option.some.inj ht
  have hcreate : nw.canCreate = false := handle_belowList (wraps_wrap m) hx hnw (hbelow _ hf)
  refine ⟨⟨x.2, nw, hw, hnw, hcreate⟩, ?_⟩
  rw [step_edit_eq rfl hf hw, edit_asserted hwshaped hn hnw hcreate he hoffered]
  rfl

theorem displayed_list_keeps_members_sample :
    ∃ d, display sampleComms true sampleFields = .ok d ∧
      (∃ w nw, d.widgets[1]? = some w ∧ Members.nodeAt WidgetTree.members w [0] = some nw ∧
        nw.canCreate = false) ∧
      d.step sampleComms (.edit 1 [0] (.pickIndex (some 0))) = .error .asserted := by
  obtain ⟨d, hd⟩ := Stops.isOk_iff_exists.mp
    (show (display sampleComms true sampleFields).isOk = true from rfl)
  obtain ⟨-, habstract⟩ := (display_reaches true sampleFields_shown).of_ok hd
  refine ⟨d, hd, displayed_list_keeps_members hd rfl ?_ fun f hf => ?_⟩
  · rw [habstract]
    refine ⟨_, _, rfl, rfl, rfl, by simp, ?_⟩
    exact fun k hk => Option.mem_some_iff.mp hk ▸ Nat.zero_lt_one
  · have hfields : d.fields = sampleFields.map fresh := congrArg MessageFields.fields habstract
    rw [hfields] at hf
    obtain rfl := Option.some.inj hf
    rfl

theorem remakes_isEditEnabled {enabled : Bool} {n : CommsField ν} {e : FieldEdit ν}
    (h : Offered C enabled n e) (he : remakes e = true) : enabled = true := by
  cases hcls : n.cls <;> cases e <;> simp_all [Offered, remakes]

/-- A list that was given or lost an element: the variants in its elements can create members. -/
theorem step_renews {s s' : MessageWidget ν} {i j : ℕ} {path : List ℕ} {e : FieldEdit ν}
    {w lw mw : WidgetTree ν} (hstep : s.step C (.edit i path e) = .ok s') (he : remakes e = true)
    (hw : s'.widgets[i]? = some w) (hlw : Members.nodeAt WidgetTree.members w path = some lw)
    (hmw : lw.members[j]? = some mw) : Creates mw := by
  obtain ⟨f, w₀, x, -, hw₀, hx, hwidgets⟩ := step_edit_eq_ok hstep
  have hi : i < s.widgets.length := (List.getElem?_eq_some_iff.mp hw₀).1
  rw [hwidgets, List.getElem?_set_self hi] at hw
  obtain rfl := Option.some.inj hw
  exact edit_renews hx he hlw mw (List.mem_of_getElem? hmw)

/-- The next edit of a variant in the elements of that list. -/
theorem renewed_succeeds_iff {mid s : MessageWidget ν} {i j : ℕ} {path below : List ℕ}
    {r e : FieldEdit ν} (hmid : Inv C mid) (hr : remakes r = true)
    (hr' : Legal C mid.abstract (.edit i path r)) (hstep : mid.step C (.edit i path r) = .ok s)
    (he : Legal C s.abstract (.edit i (path ++ j :: below) e))
    (hout : ∀ f ∈ s.fields[i]?, ∀ m ∈ Members.nodeAt CommsField.members f (path ++ [j]),
      belowList m below = false) :
    (∀ stop : Stop, stop.Fails → s.step C (.edit i (path ++ j :: below) e) ≠ .error stop) ↔
      Writable C (s.abstract.step C (.edit i (path ++ j :: below) e)) := by
  obtain ⟨hinv, habstract⟩ := step_of_ok hmid hr' hstep
  have henabled : s.isEditEnabled = true := by
    obtain ⟨⟨f, n, hf, -, hoffered⟩, -⟩ := hr'
    have hmidEnabled : mid.isEditEnabled = true := remakes_isEditEnabled hoffered hr
    rw [MessageFields.step_edit (s := mid.abstract) hmidEnabled hf] at habstract
    exact (congrArg MessageFields.isEditEnabled habstract).trans hmidEnabled
  obtain ⟨ho, hshown⟩ := he
  have hreaches := step_reaches hinv ho hshown
  rw [← hreaches.fails.isOk_iff, hreaches.isOk_iff]
  obtain ⟨f, n, hf, hn, hoffered⟩ := ho
  have hf : s.fields[i]? = some f := hf
  obtain ⟨w, hw, hshows⟩ := forall₂_getElem? hinv.shows hf
  obtain ⟨nw, hnw, hnshows⟩ := hshows.nodeAt hn
  refine succeeds_iff_writable hinv henabled hf hw hnw fun he => ?_
  -- the variant is `below` the element `m`, whose widget `mw` is new
  rw [← List.singleton_append, ← List.append_assoc, Members.nodeAt_append] at hn hnw
  obtain ⟨m, hm, hn⟩ := Option.bind_eq_some_iff.mp hn
  obtain ⟨mw, hmw, hnw⟩ := Option.bind_eq_some_iff.mp hnw
  obtain ⟨mw', hmw', hmshows⟩ := hshows.nodeAt hm
  obtain rfl := Option.some.inj (hmw.symm.trans hmw')
  rw [Members.nodeAt_append] at hmw
  obtain ⟨lw, hlw, hlist⟩ := Option.bind_eq_some_iff.mp hmw
  obtain ⟨mw'', helement, hlast⟩ := Option.bind_eq_some_iff.mp hlist
  obtain rfl := Option.some.inj hlast
  have hcreates : Creates mw'' := step_renews hstep hr hw hlw helement
  exact canCreate_of_creates (hcreates.nodeAt hmshows (hout f hf m hm) hnw) hnshows
    (selects_isVariant hoffered he)

/-- **Once an element was added to a list or removed from it**, the variants in its elements can be
given members as those outside lists can, whatever was edited before. -/
theorem renewed_list_changes_members {enabled : Bool} {fields : List (CommsField ν)}
    {evs : List (MessageEvent ν)} {i j : ℕ} {path below : List ℕ} {r e : FieldEdit ν}
    {s : MessageWidget ν} (hr : remakes r = true)
    (ho : Runs.Along (MessageFields.step C) (displayed enabled fields)
      (evs ++ [.edit i path r, .edit i (path ++ j :: below) e]) (MessageFields.Offers C))
    (hshown : Runs.Always (MessageFields.step C) (displayed enabled fields)
      (evs ++ [.edit i path r, .edit i (path ++ j :: below) e]) ShownAsIs)
    (hrun : run C enabled fields (evs ++ [.edit i path r]) = .ok s)
    (hout : ∀ f ∈ s.fields[i]?, ∀ m ∈ Members.nodeAt CommsField.members f (path ++ [j]),
      belowList m below = false) :
    (∀ stop : Stop, stop.Fails → s.step C (.edit i (path ++ j :: below) e) ≠ .error stop) ↔
      Writable C (s.abstract.step C (.edit i (path ++ j :: below) e)) := by
  have hlegal := legal_of_always (fun _ _ h => h) ho hshown
  obtain ⟨d, hd, hrun⟩ := Stops.bind_eq_ok.mp hrun
  rw [List.foldlM_append] at hrun
  obtain ⟨mid, hmid, hlast⟩ := Stops.bind_eq_ok.mp hrun
  have hstep : mid.step C (.edit i path r) = .ok s := by
    rw [List.foldlM_cons] at hlast
    obtain ⟨s', hs', hlast⟩ := Stops.bind_eq_ok.mp hlast
    exact hs'.trans hlast
  have hbefore : Runs.Along (MessageFields.step C) (displayed enabled fields) evs (Legal C) :=
    fun pre ev post heq => hlegal pre ev
      (post ++ [.edit i path r, .edit i (path ++ j :: below) e]) (by simp [heq])
  obtain ⟨hinv, habstract⟩ := run_of_ok (shownAsIs_head hshown) hbefore
    (Stops.bind_eq_ok.mpr ⟨d, hd, hmid⟩)
  have hr' : Legal C mid.abstract (.edit i path r) := by
    rw [habstract]
    exact hlegal evs (.edit i path r) [.edit i (path ++ j :: below) e] rfl
  have he : Legal C s.abstract (.edit i (path ++ j :: below) e) := by
    have hlast := hlegal (evs ++ [.edit i path r]) (.edit i (path ++ j :: below) e) [] (by simp)
    rw [List.foldl_append, ← habstract] at hlast
    rw [(step_of_ok hinv hr' hstep).2]
    exact hlast
  exact renewed_succeeds_iff hinv hr hr' hstep he hout

theorem renewed_list_changes_members_sample :
    ∃ s, run sampleComms true sampleFields ([] ++ [.edit 1 [] .add]) = .ok s ∧
      ((∀ stop : Stop, stop.Fails →
          s.step sampleComms (.edit 1 [0] (.pickIndex (some 0))) ≠ .error stop) ↔
        Writable sampleComms
          (s.abstract.step sampleComms (.edit 1 [0] (.pickIndex (some 0))))) := by
  have ho : Runs.Along (MessageFields.step sampleComms) (displayed true sampleFields)
      ([] ++ [.edit 1 [] .add, .edit 1 ([] ++ 0 :: []) (.pickIndex (some 0))])
      (MessageFields.Offers sampleComms) := by
    refine Runs.along_cons.mpr ⟨⟨_, _, rfl, rfl, rfl, rfl⟩, ?_⟩
    refine Runs.along_cons.mpr ⟨⟨_, _, rfl, rfl, rfl, by simp, ?_⟩, Runs.along_nil⟩
    exact fun k hk => Option.mem_some_iff.mp hk ▸ Nat.zero_lt_one
  have hshown : Runs.Always (MessageFields.step sampleComms) (displayed true sampleFields)
      ([] ++ [.edit 1 [] .add, .edit 1 ([] ++ 0 :: []) (.pickIndex (some 0))]) ShownAsIs := by
    refine Runs.always_cons.mpr ⟨sampleFields_shown, Runs.always_cons.mpr ⟨?_,
      Runs.always_nil.mpr ?_⟩⟩
    · refine List.forall_mem_cons.mpr ⟨sampleVariant_shown,
        List.forall_mem_singleton.mpr (.intro _ trivial ?_)⟩
      exact List.forall_mem_cons.mpr ⟨sampleVariant_shown,
        List.forall_mem_singleton.mpr sampleVariant_shown⟩
    · refine List.forall_mem_cons.mpr ⟨sampleVariant_shown,
        List.forall_mem_singleton.mpr (.intro _ trivial ?_)⟩
      exact List.forall_mem_cons.mpr ⟨selected_shown (v := 0) (by decide),
        List.forall_mem_singleton.mpr sampleVariant_shown⟩
  obtain ⟨s, hs⟩ := Stops.isOk_iff_exists.mp
    (show (run sampleComms true sampleFields ([] ++ [.edit 1 [] .add])).isOk = true from rfl)
  exact ⟨s, hs, renewed_list_changes_members rfl ho hshown hs fun _ _ _ _ => rfl⟩

end MessageWidget
end CcToolsQt
