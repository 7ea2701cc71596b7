import CcToolsQt.Lib.Members

/-! # Trees of fields

A `ToolsField` owns its members.  Forcing a flag on a field pushes it down the tree at once; members
attached later are looked at one by one.

* `Linked.setMembers`: members that report what the field is forced to keep the tree linked.
* `report_clone`: a clone reports the flags of its original.
* `always_iff`: in which histories forced flags reach the whole tree. -/

namespace CcToolsQt

/-- The keys of `m_props`. -/
inductive FieldFlag where
  | readOnly
  | hiddenSerialization
  deriving DecidableEq

inductive FieldKind where
  | plain
  | bitfield
  | bundle
  | arrayList (hasPrefixOrSuffix : Bool)
  | variant

/-- What the class of a field says. -/
structure FieldInfo where
  kind : FieldKind
  hasFixedValue : Bool
  hasEmptySerialization : Bool

namespace FieldInfo

def isReadOnlyImpl (info : FieldInfo) : Bool := info.hasFixedValue

def isHiddenSerializationImpl (info : FieldInfo) : Bool :=
  match info.kind with
  | .bundle => true
  | .arrayList hasPrefixOrSuffix => !hasPrefixOrSuffix
  | _ => info.hasEmptySerialization

def flagImpl (info : FieldInfo) : FieldFlag → Bool
  | .readOnly => info.isReadOnlyImpl
  | .hiddenSerialization => info.isHiddenSerializationImpl

/-- `membersUpdatedImpl` hides the serialization of all members. -/
def hidesMembers (info : FieldInfo) : Bool :=
  match info.kind with
  | .bitfield => true
  | .arrayList _ => !info.isHiddenSerializationImpl
  | _ => false

end FieldInfo

inductive ToolsField where
  | mk (info : FieldInfo) (props : FieldFlag → Bool) (members : List ToolsField)

namespace ToolsField

def info : ToolsField → FieldInfo
  | mk info _ _ => info

def props : ToolsField → FieldFlag → Bool
  | mk _ props _ => props

def members : ToolsField → List ToolsField
  | mk _ _ members => members

def withProps : ToolsField → (FieldFlag → Bool) → ToolsField
  | mk info _ members, props => mk info props members

def withMembers : ToolsField → List ToolsField → ToolsField
  | mk info props _, members => mk info props members

/-- A new field, without members. -/
def create (info : FieldInfo) : ToolsField := mk info (fun _ => false) []

/-- `isReadOnly` and `isHiddenSerialization`. -/
def reports (flag : FieldFlag) (t : ToolsField) : Bool := t.props flag || t.info.flagImpl flag

mutual

/-- `forceReadOnly` and `forceHiddenSerialization`. -/
def force (flag : FieldFlag) : ToolsField → ToolsField
  | mk info props members => mk info (fun f => f = flag || props f) (forceAll flag members)

def forceAll (flag : FieldFlag) : List ToolsField → List ToolsField
  | [] => []
  | m :: members => force flag m :: forceAll flag members

end

def forceReadOnly : ToolsField → ToolsField := force .readOnly

def forceHiddenSerialization : ToolsField → ToolsField := force .hiddenSerialization

/-- The checks of `setMembers` on a new member: a flag it reports is forced on it. -/
def adopt (m : ToolsField) : ToolsField :=
  let m := if m.reports .readOnly then forceReadOnly m else m
  if m.reports .hiddenSerialization then forceHiddenSerialization m else m

def membersUpdatedImpl (t : ToolsField) : ToolsField :=
  if t.info.hidesMembers then t.withMembers (t.members.map forceHiddenSerialization) else t

def setMembers (t : ToolsField) (members : List ToolsField) : ToolsField :=
  membersUpdatedImpl (t.withMembers (members.map adopt))

mutual

def clone : ToolsField → ToolsField
  | mk info props members => (setMembers (create info) (cloneAll members)).withProps props

def cloneAll : List ToolsField → List ToolsField
  | [] => []
  | m :: members => clone m :: cloneAll members

end

/-! ### Arrays and variants -/

/-- `refreshMembersImpl`, with the wrapped elements of the storage. -/
def refreshMembers (t : ToolsField) (wrapped : List ToolsField) : ToolsField :=
  if t.info.hasFixedValue then t else t.setMembers wrapped

/-- `addFieldInternal`; on a fixed value it fails an assertion. -/
def addField (t : ToolsField) (wrapped : List ToolsField) : ToolsField :=
  if t.info.hasFixedValue then t else t.refreshMembers wrapped

/-- `removeFieldInternal`, for a storage of so many elements. -/
def removeField (t : ToolsField) (size idx : ℕ) (wrapped : List ToolsField) : ToolsField :=
  if t.info.hasFixedValue then t else if size ≤ idx then t else t.refreshMembers wrapped

def setCurrent (t : ToolsField) (current : Option ToolsField) : ToolsField :=
  match current with
  | none => t.setMembers []
  | some current => t.setMembers [current]

/-- `updateCurrent`, with what `m_createMemberCb()` gives. -/
def updateCurrent (t : ToolsField) (created : Option ToolsField) : ToolsField :=
  t.setCurrent created

/-! ### Induction over a tree -/

theorem sizeOf_member {t m : ToolsField} (h : m ∈ t.members) : sizeOf m < sizeOf t := by
  cases t with
  | mk info props ms =>
      have hlt : sizeOf m < sizeOf ms := List.sizeOf_lt_of_mem h
      rw [mk.sizeOf_spec]
      omega

/-- A field has a property that it has if all its members have it. -/
theorem induct {P : ToolsField → Prop} (h : ∀ t : ToolsField, (∀ m ∈ t.members, P m) → P t)
    (t : ToolsField) : P t :=
  h t fun m hm =>
    have _hlt : sizeOf m < sizeOf t := sizeOf_member hm
    induct h m
termination_by sizeOf t
decreasing_by exact _hlt

theorem forceAll_eq_map (flag : FieldFlag) (members : List ToolsField) :
    forceAll flag members = members.map (force flag) := by
  induction members with
  | nil => rfl
  | cons m members ih => rw [forceAll, ih, List.map_cons]

theorem cloneAll_eq_map (members : List ToolsField) : cloneAll members = members.map clone := by
  induction members with
  | nil => rfl
  | cons m members ih => rw [cloneAll, ih, List.map_cons]

section
variable (t : ToolsField) (flag f : FieldFlag) (ms : List ToolsField)

@[simp] theorem force_info : (force flag t).info = t.info := by cases t; rfl

@[simp] theorem force_props : (force flag t).props f = (f = flag || t.props f) := by cases t; rfl

@[simp] theorem force_members : (force flag t).members = t.members.map (force flag) := by
  cases t
  exact forceAll_eq_map flag _

@[simp] theorem force_reports : (force flag t).reports f = (f = flag || t.reports f) := by
  simp [reports, Bool.or_assoc]

@[simp] theorem withMembers_info : (t.withMembers ms).info = t.info := by cases t; rfl

@[simp] theorem withMembers_props : (t.withMembers ms).props = t.props := by cases t; rfl

@[simp] theorem withMembers_members : (t.withMembers ms).members = ms := by cases t; rfl

@[simp] theorem withProps_info (props : FieldFlag → Bool) : (t.withProps props).info = t.info := by
  cases t; rfl

@[simp] theorem withProps_props (props : FieldFlag → Bool) : (t.withProps props).props = props := by
  cases t; rfl

@[simp] theorem withProps_members (props : FieldFlag → Bool) :
    (t.withProps props).members = t.members := by cases t; rfl

theorem clone_eq :
    t.clone = (setMembers (create t.info) (t.members.map clone)).withProps t.props := by
  cases t
  rw [clone, cloneAll_eq_map]
  rfl

end

/-! ### Reported flags -/

/-- The flags reported in a tree. -/
inductive Report where
  | mk (flags : FieldFlag → Bool) (members : List Report)

mutual

def report : ToolsField → Report
  | mk info props members =>
      .mk (fun flag => (mk info props members).reports flag) (reportAll members)

def reportAll : List ToolsField → List Report
  | [] => []
  | m :: members => report m :: reportAll members

end

theorem reportAll_eq_map (members : List ToolsField) : reportAll members = members.map report := by
  induction members with
  | nil => rfl
  | cons m members ih => rw [reportAll, ih, List.map_cons]

theorem report_eq (t : ToolsField) :
    t.report = .mk (fun flag => t.reports flag) (t.members.map report) := by
  cases t
  rw [report, reportAll_eq_map]
  rfl

theorem report_eq_iff {t t' : ToolsField} : t.report = t'.report ↔
    (∀ flag, t.reports flag = t'.reports flag) ∧ t.members.map report = t'.members.map report := by
  rw [report_eq, report_eq, Report.mk.injEq, funext_iff]

/-- A flag is reported by a field and everywhere below it. -/
abbrev ReportedBelow (flag : FieldFlag) (t : ToolsField) : Prop :=
  Members.Everywhere members (fun t => t.reports flag = true) t

variable {t t' m : ToolsField} {flag : FieldFlag}

theorem reportedBelow_congr (h : t.report = t'.report) (ht : ReportedBelow flag t) :
    ReportedBelow flag t' := by
  induction t' using induct generalizing t with
  | h t' ih =>
      obtain ⟨hreports, hmembers⟩ := report_eq_iff.mp h
      refine .intro t' ((hreports flag).symm.trans ht.here) fun m' hm' => ?_
      have hmem : m'.report ∈ t.members.map report := hmembers ▸ List.mem_map_of_mem hm'
      obtain ⟨m, hm, hreport⟩ := List.mem_map.mp hmem
      exact ih m' hm' hreport (ht.member hm)

/-- Forcing a flag that is reported already changes no report. -/
theorem report_force (h : ReportedBelow flag t) : (force flag t).report = t.report := by
  induction t using induct with
  | h t ih =>
      refine report_eq_iff.mpr ⟨fun f => ?_, ?_⟩
      · have hhere := h.here
        rw [force_reports]
        by_cases hf : f = flag
        · rw [hf, hhere, Bool.or_true]
        · simp [hf]
      · rw [force_members, List.map_map]
        exact List.map_congr_left fun m hm => ih m hm (h.member hm)

/-! ### Members that were attached -/

/-- How a field and a member of it go together: the member is forced to what it reports, to hide its
serialization if the field does that, and to what the field is forced to. -/
structure Fits (t m : ToolsField) : Prop where
  reported : ∀ flag, m.reports flag = true → m.props flag = true
  hidden : t.info.hidesMembers = true → m.props .hiddenSerialization = true
  forced : ∀ flag, t.props flag = true → m.props flag = true

/-- Every member of a tree goes together with the field it belongs to. -/
abbrev Linked (t : ToolsField) : Prop :=
  Members.Everywhere members (fun t => ∀ m ∈ t.members, Fits t m) t

theorem linked_create (info : FieldInfo) : Linked (create info) :=
  .intro _ (fun _ hm => absurd hm List.not_mem_nil) fun _ hm => absurd hm List.not_mem_nil

/-- In a linked tree a forced flag is reported everywhere below. -/
theorem Linked.reportedBelow (h : Linked t) (hforced : t.props flag = true) :
    ReportedBelow flag t := by
  induction t using induct with
  | h t ih =>
      refine .intro t (by rw [reports, hforced, Bool.true_or]) fun m hm => ?_
      exact ih m hm (h.member hm) ((h.here m hm).forced flag hforced)

theorem Fits.force (h : Fits t m) (flag : FieldFlag) : Fits (force flag t) (force flag m) := by
  refine ⟨fun f hf => ?_, fun hhides => ?_, fun f hf => ?_⟩
  · rw [force_reports, Bool.or_eq_true] at hf
    rw [force_props, Bool.or_eq_true]
    exact hf.imp_right (h.reported f)
  · rw [force_info] at hhides
    rw [force_props, h.hidden hhides, Bool.or_true]
  · rw [force_props, Bool.or_eq_true] at hf ⊢
    exact hf.imp_right (h.forced f)

theorem Linked.force (h : Linked t) (flag : FieldFlag) : Linked (force flag t) := by
  induction t using induct with
  | h t ih =>
      refine .intro _ ?_ ?_
      · intro m' hm'
        rw [force_members] at hm'
        obtain ⟨m, hm, rfl⟩ := List.mem_map.mp hm'
        exact (h.here m hm).force flag
      · intro m' hm'
        rw [force_members] at hm'
        obtain ⟨m, hm, rfl⟩ := List.mem_map.mp hm'
        exact ih m hm (h.member hm)

/-- A new member as `setMembers` leaves it. -/
def attached (info : FieldInfo) (m : ToolsField) : ToolsField :=
  if info.hidesMembers then forceHiddenSerialization (adopt m) else adopt m

@[simp] theorem setMembers_info (ms : List ToolsField) : (t.setMembers ms).info = t.info := by
  rw [setMembers, membersUpdatedImpl]
  split_ifs <;> simp

@[simp] theorem setMembers_props (ms : List ToolsField) : (t.setMembers ms).props = t.props := by
  rw [setMembers, membersUpdatedImpl]
  split_ifs <;> simp

theorem setMembers_members (ms : List ToolsField) :
    (t.setMembers ms).members = ms.map (attached t.info) := by
  rw [setMembers, membersUpdatedImpl, withMembers_info]
  unfold attached
  split_ifs <;> simp

section attached
variable (info : FieldInfo) (f : FieldFlag)

theorem adopt_reports : (adopt m).reports f = m.reports f := by
  cases hro : m.reports .readOnly <;> cases hhidden : m.reports .hiddenSerialization <;>
    cases f <;> simp [adopt, forceReadOnly, forceHiddenSerialization, hro, hhidden]

theorem adopt_props (h : m.reports f = true) : (adopt m).props f = true := by
  cases hro : m.reports .readOnly <;> cases hhidden : m.reports .hiddenSerialization <;>
    cases f <;> simp_all [adopt, forceReadOnly, forceHiddenSerialization]

theorem Linked.adopt (h : Linked m) : Linked (adopt m) := by
  have hif : ∀ (b : Bool) (m : ToolsField) (flag : FieldFlag), Linked m →
      Linked (if b then ToolsField.force flag m else m) := by
    intro b m flag hm
    cases b with
    | true => exact hm.force flag
    | false => exact hm
  exact hif _ _ _ (hif _ _ _ h)

theorem attached_reports : (attached info m).reports f =
    (f = .hiddenSerialization && info.hidesMembers || m.reports f) := by
  rw [attached]
  split_ifs with hhides
  · rw [forceHiddenSerialization, force_reports, adopt_reports, hhides, Bool.and_true]
  · simp [adopt_reports, hhides]

theorem attached_props (h : (attached info m).reports f = true) :
    (attached info m).props f = true := by
  rw [attached] at h ⊢
  split_ifs with hhides
  · rw [if_pos hhides, forceHiddenSerialization, force_reports, Bool.or_eq_true, adopt_reports] at h
    rw [forceHiddenSerialization, force_props, Bool.or_eq_true]
    exact h.imp_right (adopt_props f)
  · rw [if_neg hhides, adopt_reports] at h
    exact adopt_props f h

theorem Linked.attached (h : Linked m) : Linked (attached info m) := by
  rw [ToolsField.attached]
  split_ifs
  · exact h.adopt.force _
  · exact h.adopt

end attached

/-- New members report what the field is forced to, or the field hides their serialization. -/
def Attachable (t : ToolsField) (ms : List ToolsField) : Prop :=
  ∀ flag, t.props flag = true → ∀ m ∈ ms,
    m.reports flag = true ∨ flag = .hiddenSerialization ∧ t.info.hidesMembers = true

theorem attached_reports_iff {info : FieldInfo} {f : FieldFlag} :
    (attached info m).reports f = true ↔
      m.reports f = true ∨ f = .hiddenSerialization ∧ info.hidesMembers = true := by
  rw [attached_reports, Bool.or_eq_true, Bool.and_eq_true, decide_eq_true_iff, or_comm]

/-- **Attaching members** to a field of a tree. -/
theorem Linked.setMembers {ms : List ToolsField} (hms : ∀ m ∈ ms, Linked m)
    (h : Attachable t ms) : Linked (t.setMembers ms) := by
  refine .intro _ ?_ ?_
  · intro m' hm'
    rw [setMembers_members] at hm'
    obtain ⟨m, hm, rfl⟩ := List.mem_map.mp hm'
    refine ⟨fun f => attached_props _ f, fun hhides => ?_, fun f hf => ?_⟩
    · rw [setMembers_info] at hhides
      exact attached_props _ _ (attached_reports_iff.mpr (.inr ⟨rfl, hhides⟩))
    · rw [setMembers_props] at hf
      exact attached_props _ f (attached_reports_iff.mpr (h f hf m hm))
  · intro m' hm'
    rw [setMembers_members] at hm'
    obtain ⟨m, hm, rfl⟩ := List.mem_map.mp hm'
    exact (hms m hm).attached _

/-! ### Clones -/

theorem report_ite_force {c : ToolsField} (hc : c.report = m.report) (b : Bool)
    (hb : b = true → ReportedBelow flag m) :
    (if b then force flag c else c).report = m.report := by
  cases b with
  | false => exact hc
  | true => exact (report_force (reportedBelow_congr hc.symm (hb rfl))).trans hc

/-- Attaching the clone of a member forces no flag that the member does not report. -/
theorem report_attached (h : Linked m) (hfits : Fits t m) {c : ToolsField}
    (hc : c.report = m.report) : (attached t.info c).report = m.report := by
  have hbelow : ∀ (c : ToolsField) (flag : FieldFlag), c.report = m.report →
      c.reports flag = true → ReportedBelow flag m := by
    intro c flag hc hreports
    rw [(report_eq_iff.mp hc).1 flag] at hreports
    exact h.reportedBelow (hfits.reported flag hreports)
  have hadopt : (adopt c).report = m.report := by
    have hfirst := report_ite_force hc _ (hbelow c .readOnly hc)
    exact report_ite_force hfirst _ (hbelow _ .hiddenSerialization hfirst)
  exact report_ite_force hadopt _ fun hhides => h.reportedBelow (hfits.hidden hhides)

/-- **A clone reports the flags of its original.** -/
theorem report_clone (h : Linked t) : t.clone.report = t.report := by
  induction t using induct with
  | h t ih =>
      rw [clone_eq]
      refine report_eq_iff.mpr ⟨fun f => ?_, ?_⟩
      · rw [reports, reports, withProps_props, withProps_info, setMembers_info]
        rfl
      · rw [withProps_members, setMembers_members, List.map_map, List.map_map]
        exact List.map_congr_left fun m hm =>
          report_attached (h.member hm) (h.here m hm) (ih m hm (h.member hm))

theorem Linked.clone (h : Linked t) : Linked t.clone := by
  induction t using induct with
  | h t ih =>
      have hmembers : t.clone.members =
          (t.members.map ToolsField.clone).map (ToolsField.attached t.info) := by
        rw [clone_eq, withProps_members, setMembers_members]
        rfl
      have hclone : ∀ m' ∈ t.clone.members,
          ∃ m ∈ t.members, m' = ToolsField.attached t.info m.clone := by
        intro m' hm'
        rw [hmembers, List.map_map] at hm'
        obtain ⟨m, hm, rfl⟩ := List.mem_map.mp hm'
        exact ⟨m, hm, rfl⟩
      refine .intro _ ?_ ?_
      · intro m' hm'
        obtain ⟨m, hm, rfl⟩ := hclone m' hm'
        have hfits := h.here m hm
        have hreports := (report_eq_iff.mp (report_clone (h.member hm))).1
        refine ⟨fun f => attached_props _ f, fun hhides => ?_, fun f hf => ?_⟩
        · rw [clone_eq, withProps_info, setMembers_info] at hhides
          exact attached_props _ _ (attached_reports_iff.mpr (.inr ⟨rfl, hhides⟩))
        · rw [clone_eq, withProps_props] at hf
          refine attached_props _ f (attached_reports_iff.mpr (.inl ?_))
          rw [hreports f, reports, hfits.forced f hf, Bool.true_or]
      · intro m' hm'
        obtain ⟨m, hm, rfl⟩ := hclone m' hm'
        exact (ih m hm (h.member hm)).attached _

/-! ### Changes below the root -/

abbrev fieldAt : ToolsField → List ℕ → Option ToolsField := Members.nodeAt members

abbrev updateAt (f : ToolsField → ToolsField) : ToolsField → List ℕ → ToolsField :=
  Members.updateAt members withMembers f

/-- What can stand in the place of a field. -/
structure Replaces (t t' : ToolsField) : Prop where
  info : t'.info = t.info
  props : ∀ flag, t.props flag = true → t'.props flag = true

theorem Fits.replace (h : Fits t m) {m' : ToolsField} (hreplaces : Replaces m m') : Fits t m' := by
  refine ⟨fun f hf => ?_, fun hhides => ?_, fun f hf => ?_⟩
  · rw [reports, Bool.or_eq_true, hreplaces.info] at hf
    rcases hf with hf | hf
    · exact hf
    · refine hreplaces.props f (h.reported f ?_)
      rw [reports, hf, Bool.or_true]
  · exact hreplaces.props _ (h.hidden hhides)
  · exact hreplaces.props f (h.forced f hf)

/-- A change that keeps a field in its place keeps the tree linked. -/
theorem Linked.updateAt (h : Linked t) {f : ToolsField → ToolsField} {path : List ℕ}
    (hf : ∀ n, fieldAt t path = some n → Linked (f n) ∧ Replaces n (f n)) :
    Linked (updateAt f t path) ∧ Replaces t (updateAt f t path) := by
  induction path generalizing t with
  | nil => exact hf t rfl
  | cons i path ih =>
      have hstep : ∀ m, t.members[i]? = some m →
          Linked (ToolsField.updateAt f m path) ∧ Replaces m (ToolsField.updateAt f m path) := by
        intro m hm
        refine ih (h.member (List.mem_of_getElem? hm)) fun n hn => hf n ?_
        rw [fieldAt, Members.nodeAt, hm, Option.bind_some]
        exact hn
      have hcases : ∀ m' ∈ (ToolsField.updateAt f t (i :: path)).members,
          Linked m' ∧ Fits t m' := by
        intro m' hm'
        rw [ToolsField.updateAt, Members.updateAt, withMembers_members] at hm'
        rcases Members.mem_modify hm' with hm | ⟨m, hm, rfl⟩
        · exact ⟨h.member hm, h.here _ hm⟩
        · obtain ⟨hlinked, hreplaces⟩ := hstep m hm
          exact ⟨hlinked, (h.here m (List.mem_of_getElem? hm)).replace hreplaces⟩
      have hinfo : (ToolsField.updateAt f t (i :: path)).info = t.info := withMembers_info _ _
      have hprops : (ToolsField.updateAt f t (i :: path)).props = t.props := withMembers_props _ _
      refine ⟨.intro _ (fun m' hm' => ?_) fun m' hm' => (hcases m' hm').1, ?_⟩
      · obtain ⟨-, hfits⟩ := hcases m' hm'
        exact ⟨hfits.reported, fun hhides => hfits.hidden (hinfo ▸ hhides),
          fun flag hflag => hfits.forced flag (hprops ▸ hflag)⟩
      · exact ⟨hinfo, fun flag hflag => hprops ▸ hflag⟩

/-! ### What holds of a tree -/

/-- Forced flags are reported everywhere below, and clones report what their originals do. -/
structure FlagsReach (t : ToolsField) : Prop where
  reached : Members.Everywhere members
    (fun n => ∀ flag, n.props flag = true → ∀ m ∈ n.members, ReportedBelow flag m) t
  cloned : Members.Everywhere members (fun n => n.clone.report = n.report) t

theorem Linked.flagsReach (h : Linked t) : FlagsReach t :=
  ⟨h.imp fun n (hn : Linked n) _ hforced _ hm => (hn.reportedBelow hforced).member hm,
    h.imp fun _ hn => report_clone hn⟩

end ToolsField

/-! ### Histories of a tree -/

/-- The calls that may attach members. -/
inductive Attach where
  | setMembers
  | refreshMembers
  | addField
  | removeField (size idx : ℕ)
  | setCurrent
  | updateCurrent

namespace Attach
open ToolsField

def apply : Attach → List ToolsField → ToolsField → ToolsField
  | setMembers, ms, t => t.setMembers ms
  | refreshMembers, ms, t => t.refreshMembers ms
  | addField, ms, t => t.addField ms
  | removeField size idx, ms, t => t.removeField size idx ms
  | setCurrent, ms, t => t.setCurrent ms.head?
  | updateCurrent, ms, t => t.updateCurrent ms.head?

/-- The members a call attaches to a field; `none` if it leaves those there are. -/
def attaches : Attach → FieldInfo → List ToolsField → Option (List ToolsField)
  | setMembers, _, ms => some ms
  | refreshMembers, info, ms => if info.hasFixedValue then none else some ms
  | addField, info, ms => if info.hasFixedValue then none else some ms
  | removeField size idx, info, ms =>
      if info.hasFixedValue then none else if size ≤ idx then none else some ms
  | setCurrent, _, ms => some ms.head?.toList
  | updateCurrent, _, ms => some ms.head?.toList

theorem apply_eq (call : Attach) (ms : List ToolsField) (t : ToolsField) :
    call.apply ms t =
      match call.attaches t.info ms with
      | none => t
      | some ms => t.setMembers ms := by
  cases call with
  | setMembers => rfl
  | refreshMembers => simp only [apply, attaches, ToolsField.refreshMembers]; split_ifs <;> rfl
  | addField =>
      simp only [apply, attaches, ToolsField.addField, ToolsField.refreshMembers]
      split_ifs <;> rfl
  | removeField size idx =>
      simp only [apply, attaches, ToolsField.removeField, ToolsField.refreshMembers]
      split_ifs <;> rfl
  | setCurrent => cases ms <;> rfl
  | updateCurrent => cases ms <;> rfl

end Attach

/-- How a tree came about: a new field, or a call on a field of a tree or on a clone of one.  New
members have histories of their own. -/
inductive FieldHistory where
  | create (info : FieldInfo)
  | force (flag : FieldFlag) (path : List ℕ) (h : FieldHistory)
  | attach (call : Attach) (path : List ℕ) (wrapped : List FieldHistory) (h : FieldHistory)
  | clone (path : List ℕ) (h : FieldHistory)

namespace FieldHistory
open ToolsField

mutual

def result : FieldHistory → ToolsField
  | create info => ToolsField.create info
  | force flag path h => (result h).updateAt (ToolsField.force flag) path
  | attach call path wrapped h => (result h).updateAt (call.apply (resultAll wrapped)) path
  | clone path h => (((result h).fieldAt path).getD (result h)).clone

def resultAll : List FieldHistory → List ToolsField
  | [] => []
  | h :: hs => result h :: resultAll hs

end

/-- The histories a history starts from. -/
def before : FieldHistory → List FieldHistory
  | create _ => []
  | force _ _ h => [h]
  | attach _ _ wrapped h => h :: wrapped
  | clone _ h => [h]

/-- The members a last call attaches report what the field is forced to. -/
def AttachesAlike : FieldHistory → Prop
  | attach call path wrapped h => ∀ n ms, h.result.fieldAt path = some n →
      call.attaches n.info (resultAll wrapped) = some ms → Attachable n ms
  | _ => True

theorem mem_resultAll {hs : List FieldHistory} {t : ToolsField} (ht : t ∈ resultAll hs) :
    ∃ h ∈ hs, t = h.result := by
  induction hs with
  | nil => cases ht
  | cons h hs ih =>
      rcases List.mem_cons.mp ht with rfl | ht
      · exact ⟨h, List.mem_cons_self, rfl⟩
      · obtain ⟨h', hmem, heq⟩ := ih ht
        exact ⟨h', List.mem_cons_of_mem _ hmem, heq⟩

theorem mem_of_attaches {call : Attach} {info : FieldInfo} {ms ms' : List ToolsField}
    (h : call.attaches info ms = some ms') {m : ToolsField} (hm : m ∈ ms') : m ∈ ms := by
  have hsome : some ms = some ms' ∨ some ms.head?.toList = some ms' := by
    cases call <;> simp only [Attach.attaches] at h <;> grind
  rcases hsome with heq | heq
  · exact Option.some.inj heq ▸ hm
  · rw [← Option.some.inj heq, Option.mem_toList] at hm
    exact List.mem_of_head? hm

/-- **One call keeps the tree linked** if the members it attaches fit. -/
theorem linked_result {h : FieldHistory} (hbefore : ∀ s ∈ h.before, Linked s.result)
    (halike : AttachesAlike h) : Linked h.result := by
  cases h with
  | create info => exact linked_create info
  | force flag path h =>
      have hroot : Linked h.result := hbefore h List.mem_cons_self
      exact (hroot.updateAt fun n hn => ⟨Linked.force (hroot.nodeAt hn) flag,
        force_info n flag, fun f hf => by rw [force_props, hf, Bool.or_true]⟩).1
  | attach call path wrapped h =>
      have hroot : Linked h.result := hbefore h List.mem_cons_self
      refine (hroot.updateAt fun n hn => ?_).1
      have hn' : Linked n := hroot.nodeAt hn
      have hcall := call.apply_eq (resultAll wrapped) n
      cases hattaches : call.attaches n.info (resultAll wrapped) with
      | none =>
          rw [hattaches] at hcall
          rw [hcall]
          exact ⟨hn', rfl, fun _ hf => hf⟩
      | some ms =>
          rw [hattaches] at hcall
          rw [hcall]
          refine ⟨Linked.setMembers (fun m hm => ?_) (halike n ms hn hattaches), setMembers_info ms,
            fun f hf => by rw [setMembers_props, hf]⟩
          obtain ⟨s, hs, rfl⟩ := mem_resultAll (mem_of_attaches hattaches hm)
          exact hbefore s (List.mem_cons_of_mem _ hs)
  | clone path h =>
      have hroot : Linked h.result := hbefore h List.mem_cons_self
      refine Linked.clone ?_
      cases hpath : h.result.fieldAt path with
      | none => exact hroot
      | some n => exact hroot.nodeAt hpath

/-- A last call after which the flags reach the whole tree. -/
theorem attachesAlike_of_flagsReach {h : FieldHistory} (hreach : FlagsReach h.result) :
    AttachesAlike h := by
  cases h with
  | create info => trivial
  | force flag path h => trivial
  | clone path h => trivial
  | attach call path wrapped h =>
      intro n ms hn hattaches flag hforced m hm
      have hcall := call.apply_eq (resultAll wrapped) n
      rw [hattaches] at hcall
      have hpath : fieldAt (attach call path wrapped h).result path = some (n.setMembers ms) := by
        rw [result]
        exact (Members.nodeAt_updateAt withMembers_members hn).trans (congrArg some hcall)
      have hhere := (hreach.reached.nodeAt hpath).here flag (by rw [setMembers_props, hforced])
      have hreports := (hhere (attached n.info m) (by
        rw [setMembers_members]
        exact List.mem_map_of_mem hm)).here
      exact attached_reports_iff.mp hreports

/-- **Where forced flags reach the whole tree**: in the histories in which every call attaches
members that report the flags. -/
theorem always_iff (h : FieldHistory) :
    Members.Everywhere before (fun h => FlagsReach h.result) h ↔
      Members.Everywhere before AttachesAlike h := by
  constructor
  · intro halways
    exact halways.imp fun h hreach => attachesAlike_of_flagsReach hreach.here
  · intro halike
    have hlinked : Members.Everywhere before (fun h => Linked h.result) h := by
      induction halike with
      | intro h halike _ ih =>
          exact .intro h (linked_result (fun s hs => (ih s hs).here) halike) ih
    exact hlinked.imp fun h hn => hn.here.flagsReach

/-- An element added to a list that was forced read-only. -/
def addedElement : FieldHistory :=
  .attach .addField [] [.create ⟨.plain, false, false⟩]
    (.force .readOnly [] (.create ⟨.arrayList false, false, false⟩))

/-- The new element can be edited. -/
theorem added_element_not_read_only : ¬ ∀ h : FieldHistory, FlagsReach h.result := by
  intro h
  have hbelow := (h addedElement).reached.here .readOnly rfl _ List.mem_cons_self
  exact absurd hbelow.here (by decide)

end FieldHistory

end CcToolsQt
