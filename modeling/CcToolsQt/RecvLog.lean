import CcToolsQt.Lib.Json
import CcToolsQt.Garbage
import CcToolsQt.RecvFile

/-! # The log of received messages

`startRecvSave` and `addToRecvSave` write the JSON array of the received messages object by
object, with the closing bracket when the handler is released.  Whether a separator is needed is
kept in a dynamic property of the file.

* `addToRecvSave_logged`: what one message adds to the array.
* `recvSave_parses`: the whole text is the array that `save` would write. -/

namespace CcToolsQt

namespace ToolsMsgFileMgr
variable {φ α : Type}

/-- What the log uses of Qt: `QJsonValue::fromVariant` and `QJsonDocument::toJson` of an object. -/
structure QJson where
  fromVariant : QVariant → Json
  toJson : QVariantMap → List Char

/-- `toJson` writes a JSON text of the object. -/
def QJson.Writes (J : QJson) (map : QVariantMap) : Prop :=
  Json.Spells (J.toJson map) (J.fromVariant (.map map))

/-- The open `QFile` of a `FileSaveHandler`: what has reached the disk, what is buffered, and
whether the property `first_write_performed` is set. -/
structure FileSaveHandler where
  onDisk : List Char := []
  buffered : List Char := []
  firstWritePerformed : Bool := false

namespace FileSaveHandler

def write (h : FileSaveHandler) (data : List Char) : FileSaveHandler :=
  { h with buffered := h.buffered ++ data }

def flush (h : FileSaveHandler) : FileSaveHandler :=
  { h with onDisk := h.onDisk ++ h.buffered, buffered := [] }

/-- All that was written. -/
def content (h : FileSaveHandler) : List Char := h.onDisk ++ h.buffered

@[simp] theorem content_write (h : FileSaveHandler) (data : List Char) :
    (h.write data).content = h.content ++ data := (List.append_assoc _ _ _).symm

@[simp] theorem content_flush (h : FileSaveHandler) : h.flush.content = h.content :=
  List.append_nil _

@[simp] theorem firstWritePerformed_flush (h : FileSaveHandler) :
    h.flush.firstWritePerformed = h.firstWritePerformed := rfl

/-- The handler is released: the file when it is closed. -/
def close (h : FileSaveHandler) : List Char := (h.write ['\n', ']', '\n']).flush.onDisk

end FileSaveHandler

/-- `startRecvSave`; no handler for a file that cannot be opened. -/
def startRecvSave (opened : Bool) : Option FileSaveHandler :=
  if opened then some (FileSaveHandler.write {} ['[', '\n']) else none

section
variable (P : ToolsProtocol φ α) (J : QJson)

/-- A newline at the end of the object is cut off. -/
def chopNewline (data : List Char) : List Char :=
  if data.getLast? = some '\n' then data.dropLast else data

/-- The writes of `addToRecvSave` for a message with entries. -/
def writeEntries (h : FileSaveHandler) (msgMap : QVariantMap) : FileSaveHandler :=
  let data := chopNewline (J.toJson msgMap)
  if h.firstWritePerformed then (h.write [',', '\n']).write data
  else { h with firstWritePerformed := true }.write data

/-- `addToRecvSave`. -/
def addToRecvSave (h : FileSaveHandler) (msg : ToolsMessage φ α) (flush : Bool) :
    FileSaveHandler :=
  let msgMap := convertRecvMsg P msg
  let h := if msgMap.isEmpty then h else writeEntries J h msgMap
  if flush then h.flush else h

/-- The messages are added, each with its flush flag, and the handler is released. -/
def recvSave (opened : Bool) (msgs : List (ToolsMessage φ α × Bool)) : Option (List Char) :=
  (startRecvSave opened).map fun h =>
    (msgs.foldl (fun h m => addToRecvSave P J h m.1 m.2) h).close

end

/-! ### The array written so far -/

theorem lex_chopNewline (data : List Char) : Json.lex (chopNewline data) = Json.lex data := by
  unfold chopNewline
  split_ifs with h
  · have hne : data ≠ [] := by
      rintro rfl
      cases h
    have hsplit := List.dropLast_concat_getLast hne
    rw [List.getLast?_eq_some_getLast hne, Option.some.injEq] at h
    rw [h] at hsplit
    rw [← Json.lex_append_space (c := '\n') rfl data.dropLast, hsplit]
  · rfl

/-- Behind the opening bracket stand the given values, with commas between them. -/
structure Logged (h : FileSaveHandler) (vs : List Json) : Prop where
  content : ∃ text, h.content = '[' :: '\n' :: text ∧ Json.lex text = some (Json.elements vs) ∧
    (vs = [] → text = [])
  firstWritePerformed : h.firstWritePerformed = true ↔ vs ≠ []

theorem Logged.start : Logged (FileSaveHandler.write {} ['[', '\n']) [] :=
  ⟨⟨[], rfl, rfl, fun _ => rfl⟩, by simp [FileSaveHandler.write]⟩

theorem Logged.flush {h : FileSaveHandler} {vs : List Json} (hl : Logged h vs) :
    Logged h.flush vs :=
  ⟨by rw [FileSaveHandler.content_flush]; exact hl.content, hl.firstWritePerformed⟩

section
variable {P : ToolsProtocol φ α} {J : QJson}

/-- An object behind the values written so far. -/
theorem writeEntries_logged {h : FileSaveHandler} {vs : List Json} (hl : Logged h vs)
    {msgMap : QVariantMap} (hJ : J.Writes msgMap) :
    Logged (writeEntries J h msgMap) (vs ++ [J.fromVariant (.map msgMap)]) := by
  obtain ⟨text, htext, hlex, hnil⟩ := hl.content
  have hdata : Json.lex (chopNewline (J.toJson msgMap)) =
      some (Json.tokens (J.fromVariant (.map msgMap))) := (lex_chopNewline _).trans hJ
  unfold writeEntries
  by_cases hf : h.firstWritePerformed = true
  · have hvs := hl.firstWritePerformed.mp hf
    simp only [hf, if_true]
    refine ⟨⟨text ++ ',' :: '\n' :: chopNewline (J.toJson msgMap), ?_, ?_, ?_⟩, ?_⟩
    · simp [htext]
    · rw [← Json.lex_cons_space (c := '\n') rfl] at hdata
      rw [Json.elements_concat hvs, Json.lex_append_cons (c := ',') hlex rfl hdata]
      simp [Json.startToken, Json.punctuation]
    · simp
    · simp [FileSaveHandler.write, hf]
  · -- nothing was written yet
    obtain rfl : vs = [] := by
      by_contra hne
      exact hf (hl.firstWritePerformed.mpr hne)
    obtain rfl := hnil rfl
    simp only [hf, Bool.false_eq_true, if_false]
    refine ⟨⟨chopNewline (J.toJson msgMap), ?_, hdata, by simp⟩, by simp [FileSaveHandler.write]⟩
    rw [FileSaveHandler.content_write]
    exact congrArg (· ++ chopNewline (J.toJson msgMap)) htext

theorem convertRecvMsgList_singleton (msg : ToolsMessage φ α) :
    convertRecvMsgList P [msg] =
      if (convertRecvMsg P msg).isEmpty then [] else [.map (convertRecvMsg P msg)] := by
  simp only [convertRecvMsgList, List.filterMap_cons, List.filterMap_nil]
  split_ifs <;> rfl

/-- **One message**: its entries are added, if it has any. -/
theorem addToRecvSave_logged {h : FileSaveHandler} {vs : List Json} (hl : Logged h vs)
    (msg : ToolsMessage φ α) (flush : Bool)
    (hJ : convertRecvMsg P msg ≠ [] → J.Writes (convertRecvMsg P msg)) :
    Logged (addToRecvSave P J h msg flush)
      (vs ++ (convertRecvMsgList P [msg]).map J.fromVariant) := by
  have hadded : Logged (if (convertRecvMsg P msg).isEmpty then h
      else writeEntries J h (convertRecvMsg P msg))
      (vs ++ (convertRecvMsgList P [msg]).map J.fromVariant) := by
    rw [convertRecvMsgList_singleton]
    split_ifs with he
    · simpa using hl
    · exact writeEntries_logged hl (hJ fun e => he (List.isEmpty_iff.mpr e))
  unfold addToRecvSave
  cases flush with
  | false => exact hadded
  | true => exact hadded.flush

theorem foldl_logged {h : FileSaveHandler} {vs : List Json} (hl : Logged h vs)
    (msgs : List (ToolsMessage φ α × Bool))
    (hJ : ∀ m ∈ msgs, convertRecvMsg P m.1 ≠ [] → J.Writes (convertRecvMsg P m.1)) :
    Logged (msgs.foldl (fun h m => addToRecvSave P J h m.1 m.2) h)
      (vs ++ (convertRecvMsgList P (msgs.map Prod.fst)).map J.fromVariant) := by
  induction msgs generalizing h vs with
  | nil => simpa [convertRecvMsgList] using hl
  | cons m msgs ih =>
      obtain ⟨hm, hJ⟩ := List.forall_mem_cons.mp hJ
      have hnext := ih (addToRecvSave_logged hl m.1 m.2 hm) hJ
      have hsplit : convertRecvMsgList P ((m :: msgs).map Prod.fst) =
          convertRecvMsgList P [m.1] ++ convertRecvMsgList P (msgs.map Prod.fst) := by
        rw [List.map_cons, ← List.singleton_append, convertRecvMsgList, List.filterMap_append]
        rfl
      rw [List.foldl_cons, hsplit, List.map_append, ← List.append_assoc]
      exact hnext

/-- The closing bracket ends the array. -/
theorem close_spells {h : FileSaveHandler} {vs : List Json} (hl : Logged h vs) :
    Json.Spells h.close (.array vs) := by
  obtain ⟨text, htext, hlex, -⟩ := hl.content
  have hclose : h.close = '[' :: '\n' :: (text ++ '\n' :: [']', '\n']) := by
    show (h.write ['\n', ']', '\n']).content = _
    rw [FileSaveHandler.content_write, htext]
    rfl
  have hend := Json.lex_append_cons (c := '\n') hlex rfl
    (show Json.lex [']', '\n'] = some [.closeArray] from rfl)
  rw [← Json.lex_cons_space (c := '\n') rfl] at hend
  rw [Json.Spells, hclose, Json.lex_cons rfl hend]
  simp [Json.tokens, Json.startToken, Json.punctuation, Json.isSpace]

end

variable (P : ToolsProtocol φ α) (J : QJson)

/-- **The streamed log is the saved list**: it parses as the array of the entries that
`convertRecvMsgList` gives for the messages, whatever the flush flags. -/
theorem recvSave_parses (msgs : List (ToolsMessage φ α × Bool))
    (hJ : ∀ m ∈ msgs, convertRecvMsg P m.1 ≠ [] → J.Writes (convertRecvMsg P m.1)) :
    (recvSave P J true msgs).bind Json.parse =
      some (.array ((convertRecvMsgList P (msgs.map Prod.fst)).map J.fromVariant)) := by
  exact Json.parse_of_spells (close_spells (foldl_logged Logged.start msgs hJ))

/-! ### The texts of the objects -/

/-- The letter behind the backslash of a character that has one. -/
def shortEscape (c : Char) : Option Char :=
  if c = '"' ∨ c = '\\' then some c
  else if c = '\n' then some 'n'
  else if c = '\r' then some 'r'
  else if c = '\t' then some 't'
  else if c.toNat = 8 then some 'b'
  else if c.toNat = 12 then some 'f'
  else none

/-- A character of a string. -/
def escapeChar (c : Char) : List Char :=
  match shortEscape c with
  | some e => ['\\', e]
  | none =>
      if c.toNat < 32 then
        ['\\', 'u', '0', '0', Nat.digitChar (c.toNat / 16), Nat.digitChar (c.toNat % 16)]
      else [c]

mutual

/-- A variant as a JSON value. -/
def jsonOf : QVariant → Json
  | .invalid => .scalar ['n', 'u', 'l', 'l']
  | .bool true => .scalar ['t', 'r', 'u', 'e']
  | .bool false => .scalar ['f', 'a', 'l', 's', 'e']
  | .number n => .scalar (QString.number10 n)
  | .string s => .string (s.flatMap escapeChar)
  | .list l => .array (jsonOfList l)
  | .map m => .object (jsonOfMap m)

def jsonOfList : List QVariant → List Json
  | [] => []
  | v :: l => jsonOf v :: jsonOfList l

def jsonOfMap : List (QString × QVariant) → List (List Char × Json)
  | [] => []
  | (key, v) :: m => (key.flatMap escapeChar, jsonOf v) :: jsonOfMap m

end

theorem run_escapeChar (c : Char) (acc : List Char) :
    Json.run (.inString acc false) (escapeChar c) =
      ([], .inString (acc ++ escapeChar c) false) := by
  have hdigit : ∀ d < 16, Nat.digitChar d ≠ '"' ∧ Nat.digitChar d ≠ '\\' := by decide
  unfold escapeChar
  cases hs : shortEscape c with
  | some e => simp [Json.run, Json.step]
  | none =>
      dsimp only
      split_ifs with hlt
      · obtain ⟨hq₁, hb₁⟩ := hdigit (c.toNat / 16) (by omega)
        obtain ⟨hq₂, hb₂⟩ := hdigit (c.toNat % 16) (by omega)
        simp [Json.run, Json.step, hq₁, hq₂, beq_eq_false_iff_ne.mpr hb₁,
          beq_eq_false_iff_ne.mpr hb₂]
      · have hplain : ¬ (c = '"' ∨ c = '\\') := by
          intro h
          simp [shortEscape, h] at hs
        rw [not_or] at hplain
        simp [Json.run, Json.step_inString hplain.1 hplain.2]

theorem rawString_escape (s : QString) : Json.RawString (s.flatMap escapeChar) := by
  suffices h : ∀ acc, Json.run (.inString acc false) (s.flatMap escapeChar) =
      ([], .inString (acc ++ s.flatMap escapeChar) false) from h []
  induction s with
  | nil => simp [Json.run]
  | cons c s ih =>
      intro acc
      rw [List.flatMap_cons, Json.run_append, run_escapeChar]
      simp [ih, List.append_assoc]

theorem rawScalar_number10 (n : ℤ) : Json.RawScalar (QString.number10 n) := by
  refine ⟨QString.number10_ne_nil n, fun c hc => ?_⟩
  have hall : ∀ d : Char, d = '-' ∨ d.isDigit = true →
      Json.isDelimiter d = false ∧ d ≠ '"' := by
    rintro d (rfl | hd)
    · decide
    · have hlt : d.toNat < 128 := by
        simp only [Char.isDigit, Bool.and_eq_true, decide_eq_true_eq] at hd
        exact lt_of_le_of_lt (show d.toNat ≤ 57 from hd.2) (by norm_num)
      have hdigits : ∀ k < 128, (Char.ofNat k).isDigit = true →
          Json.isDelimiter (Char.ofNat k) = false ∧ Char.ofNat k ≠ '"' := by decide
      have hk := hdigits d.toNat hlt
      rw [Char.ofNat_toNat] at hk
      exact hk hd
  refine hall c ?_
  unfold QString.number10 at hc
  split_ifs at hc
  · rcases List.mem_cons.mp hc with rfl | hc
    · exact Or.inl rfl
    · exact Or.inr (Nat.isDigit_of_mem_toDigits (by norm_num) (by norm_num) hc)
  · exact Or.inr (Nat.isDigit_of_mem_toDigits (by norm_num) (by norm_num) hc)

/-- A word without delimiters and quotes. -/
theorem rawScalar_of_all {raw : List Char} (hne : raw ≠ [])
    (hall : raw.all (fun c => !Json.isDelimiter c && c != '"') = true) : Json.RawScalar raw := by
  refine ⟨hne, fun c hc => ?_⟩
  have h := List.all_eq_true.mp hall c hc
  simpa using h

mutual

theorem valid_jsonOf (v : QVariant) : (jsonOf v).Valid := by
  match v with
  | .invalid => exact rawScalar_of_all (List.cons_ne_nil _ _) rfl
  | .bool true => exact rawScalar_of_all (List.cons_ne_nil _ _) rfl
  | .bool false => exact rawScalar_of_all (List.cons_ne_nil _ _) rfl
  | .number n => exact rawScalar_number10 n
  | .string s => exact rawString_escape s
  | .list l => exact valid_jsonOfList l
  | .map m => exact valid_jsonOfMap m

theorem valid_jsonOfList (l : List QVariant) : Json.AllValid (jsonOfList l) := by
  match l with
  | [] => trivial
  | v :: l => exact ⟨valid_jsonOf v, valid_jsonOfList l⟩

theorem valid_jsonOfMap (m : List (QString × QVariant)) : Json.MembersValid (jsonOfMap m) := by
  match m with
  | [] => trivial
  | (key, v) :: m => exact ⟨rawString_escape key, valid_jsonOf v, valid_jsonOfMap m⟩

end

/-- The indented format, with a newline at the end. -/
def sampleJson : QJson where
  fromVariant := jsonOf
  toJson map := Json.print 0 (jsonOf (.map map)) ++ ['\n']

theorem sampleJson_writes (map : QVariantMap) : sampleJson.Writes map :=
  (Json.lex_append_space rfl _).trans (Json.lex_print _ (valid_jsonOf _) 0)

/-- A message of one byte. -/
def sampleMark (content : UInt8) : ToolsMessage Unit UInt8 :=
  { body := .prot () content, type := some .Received, timestamp := some 1 }

/-- Messages without entries before, between and behind two others. -/
def sampleRecv : List (ToolsMessage Unit UInt8 × Bool) :=
  [({ body := .invalid }, true), (sampleMark 5, false), ({ body := .invalid }, false),
    (sampleMark 6, true), ({ body := .invalid }, true)]

theorem recvSave_parses_sample :
    (recvSave GuiAppMgr.markedProtocol sampleJson true sampleRecv).bind Json.parse =
      some (.array ((convertRecvMsgList GuiAppMgr.markedProtocol
        (sampleRecv.map Prod.fst)).map jsonOf)) :=
  recvSave_parses GuiAppMgr.markedProtocol sampleJson sampleRecv fun _ _ _ => sampleJson_writes _

end ToolsMsgFileMgr

end CcToolsQt
