import CcToolsQt.Reload
import CcToolsQt.Plugins

/-! # Files of received messages

What becomes of a list of received messages that is saved and loaded.

* `recvFile_iff` says for every protocol which lists are read back: those of messages that are
  `reloaded` as they are.
* `recvFile_roundTrip_iff` is that for the two protocols of the repository.  The demo protocol
  loses the invalid messages, the raw-data protocol all messages. -/

namespace CcToolsQt

namespace ToolsMsgFileMgr
variable {φ α File : Type} (P : ToolsProtocol φ α) (Q : QtFiles File)

/-! ### The entries of a received message -/

/-- The map written for a received message. -/
structure RecvEntries (map : QVariantMap) (m : ToolsMessage φ α) : Prop
    extends Describes P map m where
  ne_nil : map ≠ []
  timestamp : TimestampProp.getFrom map 0 = m.getTimestamp
  type : TypeProp.getFrom map 0 = m.getType.value
  comment : CommentProp.getFrom map [] = m.getComment

theorem convertRecvMsg_entries {m : ToolsMessage φ α} (hid : m.idAsString P.classes ≠ []) :
    RecvEntries P (convertRecvMsg P m) m := by
  have hid' : (m.idAsString P.classes).isEmpty = false := List.isEmpty_eq_false_iff.mpr hid
  unfold convertRecvMsg
  simp only [hid', Bool.false_and, Bool.false_eq_true, if_false]
  set map := TypeProp.setTo m.getType.value (TimestampProp.setTo m.getTimestamp
    (DataProp.setTo (encodeMsgData P.classes m)
      (MsgIdxProp.setTo m.getIdx (IdProp.setTo (m.idAsString P.classes) [])))) with hmap
  have hc : CommentProp.getFrom map [] = [] := by
    simp (disch := decide) only [hmap, ToolsMsgPropBase.getFrom_setTo_of_ne]
    rfl
  have he : ExtraPropsProp.getFrom map [] = [] := by
    simp (disch := decide) only [hmap, ToolsMsgPropBase.getFrom_setTo_of_ne]
    rfl
  obtain ⟨hcomment, hextra⟩ := getFrom_comment m.getComment m.getExtraInfo hc he
  refine ⟨⟨?_, ?_, ?_, hextra⟩, ?_, ?_, ?_, hcomment⟩
  case refine_4 =>
    exact setNonEmpty_ne_nil _ _ (setNonEmpty_ne_nil _ _ (ToolsMsgPropBase.setTo_ne_nil _ _ _))
  all_goals
    simp (disch := decide) only [hmap, getFrom_setNonEmpty_of_ne,
      ToolsMsgPropBase.getFrom_setTo_of_ne, ToolsMsgPropBase.getFrom_setTo]

/-! ### Saved and loaded -/

/-- What a received message and the one loaded for it have to agree on. -/
structure SameRecv (m m' : ToolsMessage φ α) : Prop where
  body : m'.body = m.body
  rawData : m.body = .invalid → m'.rawData = m.rawData
  timestamp : m'.getTimestamp = m.getTimestamp
  type : m'.getType = m.getType
  comment : m'.getComment = m.getComment
  extraInfo : m'.getExtraInfo = m.getExtraInfo

section
variable {P} (hne : ∀ n, P.classes.idAsStringImpl n ≠ [])
include hne

/-- The messages of the file are written and read one by one. -/
theorem load_save_recv (L : List (ToolsMessage φ α)) :
    load P Q .Recv (save P Q .Recv L) =
      L.filterMap fun m => recvMsgFrom P Q (.map (convertRecvMsg P m)) := by
  simp only [load, save, Q.fromJson_toJson, recvMsgListFrom, convertRecvMsgList,
    List.filterMap_filterMap]
  apply List.filterMap_congr
  intro m _
  have hnil := (convertRecvMsg_entries P (hne (m.numericId P.classes))).ne_nil
  simp [List.isEmpty_eq_false_iff.mpr hnil]

/-- A message is read back if and only if it is reloaded as it was. -/
theorem recvMsgFrom_iff {m : ToolsMessage φ α} (hts : m.getTimestamp ≠ 0) :
    (∃ m', recvMsgFrom P Q (.map (convertRecvMsg P m)) = some m' ∧ SameRecv m m') ↔
      reloaded P m = some m.body := by
  have hent := convertRecvMsg_entries P (hne (m.numericId P.classes))
  obtain ⟨hbody, hextra⟩ := createMsgObjectFrom_describes Q hne hent.toDescribes
  have hvalid : ∀ m', createMsgObjectFrom P Q (.map (convertRecvMsg P m)) = some m' →
      m'.body ≠ .invalid := fun m' => body_ne_invalid_of_describes Q hne hent.toDescribes
  generalize convertRecvMsg P m = map at hent hbody hextra hvalid
  simp only [recvMsgFrom, QVariant.toMap, Option.getD_some, hent.timestamp, hts, if_false]
  rw [← hbody]
  cases hm' : createMsgObjectFrom P Q (.map map) with
  | none => simp
  | some m' =>
      simp only [Option.bind_some, Option.map_some, Option.some.injEq]
      constructor
      · rintro ⟨m'', rfl, hsame⟩
        exact hsame.body
      · intro hb
        refine ⟨_, rfl, hb, ?_, rfl, ?_, hent.comment, hextra m' hm'⟩
        · exact fun hinv => absurd (hb.trans hinv) (hvalid m' hm')
        · show (⟨TypeProp.getFrom map 0⟩ : MsgType) = m.getType
          rw [hent.type]

/-- **Which lists of received messages are read back**, for any protocol. -/
theorem recvFile_iff {L : List (ToolsMessage φ α)} (hts : ∀ m ∈ L, m.getTimestamp ≠ 0) :
    List.Forall₂ SameRecv L (load P Q .Recv (save P Q .Recv L)) ↔
      ∀ m ∈ L, reloaded P m = some m.body := by
  rw [load_save_recv Q hne, forall₂_filterMap_iff]
  exact forall₂_congr fun m hm => recvMsgFrom_iff Q hne (hts m hm)

end

/-! ### The protocols of the repository -/

/-- A demo message whose payload is read back is reloaded if it is a regular one that refreshing
leaves alone. -/
theorem reloaded_demo_iff (G : ProtCode DemoMsgId α) {m : ToolsMessage DemoMsgId α}
    (hcodec : ∀ f c, m.body = .prot f c → G.doRead f (G.doWrite f c) = some c) :
    reloaded (DemoProtocol.protocol G) m = some m.body ↔
      ∃ f c, m.body = .prot f c ∧ (G.doRefresh f c).1 = c := by
  cases hm : m.body with
  | invalid => simp [reloaded_ne_invalid]
  | prot f c =>
      have hid : m.idAsString (DemoProtocol.protocol G).classes = QString.hexId 2 f.value := by
        simp only [ToolsMessage.idAsString, ToolsMessage.numericId, hm]
        rfl
      have hfirst : firstDecoding (DemoProtocol.protocol G).classes
          ((DemoProtocol.protocol G).classes.doWrite f c) (attempts m.getIdx [f]) =
            some (.prot f c) := by
        have hforms : ∃ fs, attempts m.getIdx [f] = f :: fs := by
          unfold attempts
          split_ifs
          · exact ⟨[], rfl⟩
          · cases m.getIdx.toNat with
            | zero => exact ⟨[f], rfl⟩
            | succ n => exact ⟨[], rfl⟩
        obtain ⟨fs, hfs⟩ := hforms
        rw [hfs]
        exact firstDecoding_cons_some (hcodec f c hm)
      rw [← hm, reloaded_prot_iff _ hm (hcodec f c hm), hid, DemoProtocol.formsOfText_id, hfirst,
        hm]
      constructor
      · rintro ⟨-, h⟩
        exact ⟨f, c, rfl, h⟩
      · rintro ⟨f', c', h, h'⟩
        obtain ⟨rfl, rfl⟩ := Body.prot.inj h
        exact ⟨rfl, h'⟩

theorem reloaded_rawData (frame : ProtFrame Unit DataSeq) (toJson : QVariantMap → DataSeq)
    (m : ToolsMessage Unit DataSeq) :
    reloaded (RawDataProtocol.protocol frame toJson) m = none := by
  have hid : m.idAsString (RawDataProtocol.protocol frame toJson).classes = ['-'] := rfl
  unfold reloaded
  rw [hid, RawDataProtocol.formsOfText_id]
  unfold attempts
  split_ifs <;> rfl

/-- **Which files of received messages round-trip** in the protocols of the repository: those of
regular demo messages, and of the raw-data protocol the empty one. -/
theorem recvFile_roundTrip_iff :
    (∀ (G : ProtCode DemoMsgId α) (L : List (ToolsMessage DemoMsgId α)),
      (∀ m ∈ L, m.getTimestamp ≠ 0) →
      (∀ m ∈ L, ∀ f c, m.body = .prot f c → G.doRead f (G.doWrite f c) = some c) →
      (List.Forall₂ SameRecv L (load (DemoProtocol.protocol G) Q .Recv
          (save (DemoProtocol.protocol G) Q .Recv L)) ↔
        ∀ m ∈ L, ∃ f c, m.body = .prot f c ∧ (G.doRefresh f c).1 = c)) ∧
    ∀ (frame : ProtFrame Unit DataSeq) (toJson : QVariantMap → DataSeq)
      (L : List (ToolsMessage Unit DataSeq)), (∀ m ∈ L, m.getTimestamp ≠ 0) →
      (List.Forall₂ SameRecv L (load (RawDataProtocol.protocol frame toJson) Q .Recv
          (save (RawDataProtocol.protocol frame toJson) Q .Recv L)) ↔ L = []) := by
  constructor
  · intro G L hts hcodec
    rw [recvFile_iff Q (fun n => by simp [DemoProtocol.protocol, DemoProtocol.messages,
      QString.hexId]) hts]
    exact forall₂_congr fun m hm => reloaded_demo_iff G (hcodec m hm)
  · intro frame toJson L hts
    rw [recvFile_iff Q (fun n => by simp [RawDataProtocol.protocol, RawDataProtocol.messages]) hts]
    simp only [reloaded_rawData, reduceCtorEq, imp_false]
    exact List.eq_nil_iff_forall_not_mem.symm

/-- A received `IntValues` message. -/
def sampleIntValues : ToolsMessage DemoMsgId DataSeq :=
  { body := .prot .IntValues (List.replicate 21 0)
    type := some .Received
    timestamp := some 1 }

/-- A byte of garbage received by the demo protocol. -/
def sampleGarbage : ToolsMessage DemoMsgId DataSeq :=
  { (DemoProtocol.protocol sampleDemo).createInvalidMessage [7] with
    type := some .Received
    timestamp := some 1 }

/-- The raw-data protocol over a frame without transport fields. -/
def sampleRaw : ToolsProtocol Unit DataSeq :=
  RawDataProtocol.protocol (bareFrame fun _ data => data) fun _ => []

/-- A byte received by the raw-data protocol. -/
def sampleData : ToolsMessage Unit DataSeq :=
  { body := .prot () [7]
    type := some .Received
    timestamp := some 1 }

theorem recvFile_roundTrip_iff_sample :
    List.Forall₂ SameRecv [sampleIntValues]
        (load (DemoProtocol.protocol sampleDemo) sampleFiles .Recv
          (save (DemoProtocol.protocol sampleDemo) sampleFiles .Recv [sampleIntValues])) ∧
      ¬ List.Forall₂ SameRecv [sampleData]
        (load sampleRaw sampleFiles .Recv (save sampleRaw sampleFiles .Recv [sampleData])) := by
  constructor
  · refine ((recvFile_roundTrip_iff sampleFiles).1 sampleDemo [sampleIntValues] (by decide) ?_).mpr
      ?_
    · intro m hm f c hb
      obtain rfl := List.mem_singleton.mp hm
      obtain ⟨rfl, rfl⟩ := Body.prot.inj hb
      rfl
    · intro m hm
      obtain rfl := List.mem_singleton.mp hm
      exact ⟨_, _, rfl, rfl⟩
  · intro h
    have := ((recvFile_roundTrip_iff (α := DataSeq) sampleFiles).2 (bareFrame fun _ data => data)
      (fun _ => []) [sampleData] (by decide)).mp h
    simp at this

/-- Neither the garbage nor the data message is there after loading. -/
theorem recvFile_drops :
    ¬ List.Forall₂ SameRecv [sampleGarbage]
        (load (DemoProtocol.protocol sampleDemo) sampleFiles .Recv
          (save (DemoProtocol.protocol sampleDemo) sampleFiles .Recv [sampleGarbage])) ∧
      ¬ List.Forall₂ SameRecv [sampleData]
        (load sampleRaw sampleFiles .Recv (save sampleRaw sampleFiles .Recv [sampleData])) := by
  have hdemo : load (DemoProtocol.protocol sampleDemo) sampleFiles .Recv
      (save (DemoProtocol.protocol sampleDemo) sampleFiles .Recv [sampleGarbage]) = [] := rfl
  have hraw :
      load sampleRaw sampleFiles .Recv (save sampleRaw sampleFiles .Recv [sampleData]) = [] :=
    rfl
  rw [hdemo, hraw]
  constructor <;> nofun

end ToolsMsgFileMgr

end CcToolsQt
