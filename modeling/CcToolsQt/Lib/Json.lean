import Mathlib.Data.List.Basic
import Mathlib.Tactic.Common

/-! # JSON texts

A text is read in two steps: `lex` cuts it into tokens and skips the white space between them,
`parse` builds a value of the tokens.  Strings and scalars (numbers, `true`, `false`, `null`) are
kept as they are spelled.

* `lex_append_cons`: texts with a separator between them are cut one by one.
* `value_tokens`: a value is read back from its tokens, whatever follows.
* `parse_of_spells`: a text that spells a value is parsed as this value. -/

/-- A value. -/
inductive Json where
  | scalar (raw : List Char)
  | string (raw : List Char)
  | array (values : List Json)
  | object (members : List (List Char × Json))

namespace Json

inductive Token where
  | openArray
  | closeArray
  | openObject
  | closeObject
  | comma
  | colon
  | string (raw : List Char)
  | scalar (raw : List Char)
  deriving DecidableEq

/-! ### Cutting a text -/

def punctuation : Char → Option Token
  | '[' => some .openArray
  | ']' => some .closeArray
  | '{' => some .openObject
  | '}' => some .closeObject
  | ',' => some .comma
  | ':' => some .colon
  | _ => none

def isSpace (c : Char) : Bool := c == ' ' || c == '\n' || c == '\r' || c == '\t'

/-- Where the lexer is: between two tokens, in a scalar or in a string, maybe behind a
backslash. -/
inductive Mode where
  | between
  | inScalar (raw : List Char)
  | inString (raw : List Char) (escaped : Bool)

/-- A character between two tokens. -/
def startToken (c : Char) : List Token × Mode :=
  match punctuation c with
  | some t => ([t], .between)
  | none =>
      if isSpace c then ([], .between)
      else if c = '"' then ([], .inString [] false)
      else ([], .inScalar [c])

/-- A character that ends a scalar and is no part of the token that follows. -/
def isDelimiter (c : Char) : Bool := isSpace c || (punctuation c).isSome

/-- One character: the tokens it completes, and the mode behind it. -/
def step : Mode → Char → List Token × Mode
  | .between, c => startToken c
  | .inScalar raw, c =>
      if isDelimiter c || c == '"' then (.scalar raw :: (startToken c).1, (startToken c).2)
      else ([], .inScalar (raw ++ [c]))
  | .inString raw true, c => ([], .inString (raw ++ [c]) false)
  | .inString raw false, c =>
      if c = '"' then ([.string raw], .between)
      else ([], .inString (raw ++ [c]) (c == '\\'))

/-- A text: the tokens it completes, and the mode behind it. -/
def run : Mode → List Char → List Token × Mode
  | m, [] => ([], m)
  | m, c :: cs => ((step m c).1 ++ (run (step m c).2 cs).1, (run (step m c).2 cs).2)

/-- The end of the text ends a scalar, but not a string. -/
def finish : Mode → Option (List Token)
  | .between => some []
  | .inScalar raw => some [.scalar raw]
  | .inString _ _ => none

/-- The tokens of a text. -/
def lex (text : List Char) : Option (List Token) :=
  (finish (run .between text).2).map fun ts => (run .between text).1 ++ ts

theorem run_append (m : Mode) (a b : List Char) :
    run m (a ++ b) = ((run m a).1 ++ (run (run m a).2 b).1, (run (run m a).2 b).2) := by
  induction a generalizing m with
  | nil => simp [run]
  | cons c a ih => simp [run, ih]

/-- A character inside a string. -/
theorem step_inString {c : Char} (hq : c ≠ '"') (hb : c ≠ '\\') (raw : List Char) :
    step (.inString raw false) c = ([], .inString (raw ++ [c]) false) := by
  simp [step, hq, hb]

theorem startToken_delimiter {c : Char} (h : isDelimiter c = true) :
    (startToken c).2 = .between := by
  unfold startToken
  unfold isDelimiter at h
  cases hp : punctuation c with
  | some t => rfl
  | none =>
      have hs : isSpace c = true := by simpa [hp] using h
      simp [hs]

theorem startToken_space {c : Char} (h : isSpace c = true) : startToken c = ([], .between) := by
  have hp : punctuation c = none := by
    simp only [isSpace, Bool.or_eq_true, beq_iff_eq] at h
    rcases h with ((rfl | rfl) | rfl) | rfl <;> rfl
  simp [startToken, hp, h]

/-- White space in front of a text. -/
theorem lex_cons_space {c : Char} (h : isSpace c = true) (b : List Char) :
    lex (c :: b) = lex b := by
  simp [lex, run, step, startToken_space h]

/-- White space behind a text. -/
theorem lex_append_space {c : Char} (h : isSpace c = true) (a : List Char) :
    lex (a ++ [c]) = lex a := by
  have hquote : c ≠ '"' := by
    rintro rfl
    simp [isSpace] at h
  simp only [lex, run_append]
  cases (run .between a).2 with
  | between => simp [run, step, startToken_space h, finish]
  | inScalar raw => simp [run, step, startToken_space h, finish, isDelimiter, h]
  | inString raw escaped => cases escaped <;> simp [run, step, finish, hquote]

/-- **Texts with a separator between them are cut one by one.** -/
theorem lex_append_cons {a b : List Char} {c : Char} {ts us : List Token} (ha : lex a = some ts)
    (hc : isDelimiter c = true) (hb : lex b = some us) :
    lex (a ++ c :: b) = some (ts ++ (startToken c).1 ++ us) := by
  have hbetween := startToken_delimiter hc
  obtain ⟨last, hlast, rfl⟩ := Option.map_eq_some_iff.mp ha
  obtain ⟨rest, hrest, rfl⟩ := Option.map_eq_some_iff.mp hb
  simp only [lex, run_append, run]
  cases hm : (run .between a).2 with
  | between =>
      obtain rfl : [] = last := by simpa [hm, finish] using hlast
      simp [step, hbetween, hrest]
  | inScalar raw =>
      obtain rfl : [.scalar raw] = last := by simpa [hm, finish] using hlast
      simp [step, hc, hbetween, hrest]
  | inString raw escaped => simp [hm, finish] at hlast

/-! ### Values and their tokens -/

mutual

def tokens : Json → List Token
  | .scalar raw => [.scalar raw]
  | .string raw => [.string raw]
  | .array vs => .openArray :: (elements vs ++ [.closeArray])
  | .object ms => .openObject :: (members ms ++ [.closeObject])

/-- Values with commas between them. -/
def elements : List Json → List Token
  | [] => []
  | [v] => tokens v
  | v :: w :: vs => tokens v ++ .comma :: elements (w :: vs)

def members : List (List Char × Json) → List Token
  | [] => []
  | [(k, v)] => .string k :: .colon :: tokens v
  | (k, v) :: m :: ms => .string k :: .colon :: (tokens v ++ .comma :: members (m :: ms))

end

/-- A value behind others. -/
theorem elements_concat {vs : List Json} (h : vs ≠ []) (v : Json) :
    elements (vs ++ [v]) = elements vs ++ .comma :: tokens v := by
  induction vs with
  | nil => exact absurd rfl h
  | cons w vs ih =>
      cases vs with
      | nil => simp [elements]
      | cons x vs =>
          have hx := ih (List.cons_ne_nil x vs)
          simp only [List.cons_append] at hx ⊢
          rw [elements, hx, elements, List.append_assoc]
          rfl

mutual

/-- The value at the front of the tokens, and the tokens behind it. -/
def value : ℕ → List Token → Option (Json × List Token)
  | _ + 1, .scalar raw :: ts => some (.scalar raw, ts)
  | _ + 1, .string raw :: ts => some (.string raw, ts)
  | k + 1, .openArray :: ts =>
      if ts.head? = some .closeArray then some (.array [], ts.tail)
      else (values k ts).map fun r => (.array r.1, r.2)
  | k + 1, .openObject :: ts =>
      if ts.head? = some .closeObject then some (.object [], ts.tail)
      else (pairs k ts).map fun r => (.object r.1, r.2)
  | _, _ => none

/-- The values up to the end of an array. -/
def values : ℕ → List Token → Option (List Json × List Token)
  | 0, _ => none
  | k + 1, ts =>
      (value k ts).bind fun r =>
        match r.2 with
        | .closeArray :: ts => some ([r.1], ts)
        | .comma :: ts => (values k ts).map fun r' => (r.1 :: r'.1, r'.2)
        | _ => none

/-- The members up to the end of an object. -/
def pairs : ℕ → List Token → Option (List (List Char × Json) × List Token)
  | k + 1, .string key :: .colon :: ts =>
      (value k ts).bind fun r =>
        match r.2 with
        | .closeObject :: ts => some ([(key, r.1)], ts)
        | .comma :: ts => (pairs k ts).map fun r' => ((key, r.1) :: r'.1, r'.2)
        | _ => none
  | _, _ => none

end

/-- A text with one value. -/
def parse (text : List Char) : Option Json :=
  (lex text).bind fun ts =>
    match value ts.length ts with
    | some (v, []) => some v
    | _ => none

/-- No value starts with the end of another one. -/
theorem head?_tokens (v : Json) (ts : List Token) :
    (tokens v ++ ts).head? ≠ some .closeArray := by
  cases v <;> simp [tokens]

theorem head?_elements (v : Json) (vs : List Json) (ts : List Token) :
    (elements (v :: vs) ++ ts).head? ≠ some .closeArray := by
  cases vs with
  | nil => exact head?_tokens v ts
  | cons w vs =>
      rw [elements, List.append_assoc]
      exact head?_tokens v _

theorem head?_members (m : List Char × Json) (ms : List (List Char × Json)) (ts : List Token) :
    (members (m :: ms) ++ ts).head? ≠ some .closeObject := by
  cases ms <;> simp [members]

/-- With `k` rounds values, arrays and objects of up to `k` tokens are read back. -/
structure ReadsBack (k : ℕ) : Prop where
  value : ∀ v rest, (tokens v).length ≤ k → value k (tokens v ++ rest) = some (v, rest)
  values : ∀ v vs rest, (elements (v :: vs)).length < k →
    values k (elements (v :: vs) ++ .closeArray :: rest) = some (v :: vs, rest)
  pairs : ∀ m ms rest, (members (m :: ms)).length < k →
    pairs k (members (m :: ms) ++ .closeObject :: rest) = some (m :: ms, rest)

section
variable {k : ℕ} (h : ReadsBack k)
include h

theorem ReadsBack.value_succ (v : Json) (rest : List Token) (hk : (tokens v).length ≤ k + 1) :
    Json.value (k + 1) (tokens v ++ rest) = some (v, rest) := by
  cases v with
  | scalar raw => simp [tokens, Json.value]
  | string raw => simp [tokens, Json.value]
  | array vs =>
      cases vs with
      | nil => simp [tokens, elements, Json.value]
      | cons w vs =>
          have hlen : (elements (w :: vs)).length < k := by
            simp only [tokens, List.length_cons, List.length_append] at hk
            omega
          simp only [tokens, List.cons_append, List.append_assoc, Json.value, List.nil_append,
            head?_elements w vs, if_false, h.values w vs rest hlen]
          rfl
  | object ms =>
      cases ms with
      | nil => simp [tokens, members, Json.value]
      | cons m ms =>
          have hlen : (members (m :: ms)).length < k := by
            simp only [tokens, List.length_cons, List.length_append] at hk
            omega
          simp only [tokens, List.cons_append, List.append_assoc, Json.value, List.nil_append,
            head?_members m ms, if_false, h.pairs m ms rest hlen]
          rfl

theorem ReadsBack.values_succ (v : Json) (vs : List Json) (rest : List Token)
    (hk : (elements (v :: vs)).length < k + 1) :
    Json.values (k + 1) (elements (v :: vs) ++ .closeArray :: rest) = some (v :: vs, rest) := by
  cases vs with
  | nil =>
      have hlen : (tokens v).length ≤ k := by simpa [elements] using Nat.le_of_lt_succ hk
      simp [elements, Json.values, h.value v _ hlen]
  | cons w vs =>
      have hlen : (tokens v).length + (elements (w :: vs)).length < k := by
        simp only [elements, List.length_append, List.length_cons] at hk
        omega
      simp [elements, Json.values, h.value v _ (by omega), h.values w vs rest (by omega)]

theorem ReadsBack.pairs_succ (m : List Char × Json) (ms : List (List Char × Json))
    (rest : List Token) (hk : (members (m :: ms)).length < k + 1) :
    Json.pairs (k + 1) (members (m :: ms) ++ .closeObject :: rest) = some (m :: ms, rest) := by
  obtain ⟨key, v⟩ := m
  cases ms with
  | nil =>
      have hlen : (tokens v).length ≤ k := by
        simp only [members, List.length_cons] at hk
        omega
      simp [members, Json.pairs, h.value v _ hlen]
  | cons m ms =>
      have hlen : (tokens v).length + (members (m :: ms)).length < k := by
        simp only [members, List.length_append, List.length_cons] at hk
        omega
      simp [members, Json.pairs, h.value v _ (by omega), h.pairs m ms rest (by omega)]

end

theorem readsBack (k : ℕ) : ReadsBack k := by
  induction k with
  | zero =>
      refine ⟨fun v rest hk => ?_, fun v vs rest hk => ?_, fun m ms rest hk => ?_⟩
      · cases v <;> simp [tokens] at hk
      · omega
      · omega
  | succ k ih => exact ⟨ih.value_succ, ih.values_succ, ih.pairs_succ⟩

/-- **A value is read back from its tokens**, in as many rounds as there are tokens. -/
theorem value_tokens (v : Json) (rest : List Token) :
    value (tokens v).length (tokens v ++ rest) = some (v, rest) :=
  (readsBack _).value v rest (Nat.le_refl _)

/-- The text is a spelling of the value. -/
def Spells (text : List Char) (v : Json) : Prop := lex text = some (tokens v)

/-- **A text that spells a value is parsed as it.** -/
theorem parse_of_spells {text : List Char} {v : Json} (h : Spells text v) :
    parse text = some v := by
  have hv := value_tokens v []
  rw [List.append_nil] at hv
  rw [parse, h, Option.bind_some, hv]

/-! ### Writing a value -/

/-- What stands between the quotes of a string. -/
def RawString (raw : List Char) : Prop := run (.inString [] false) raw = ([], .inString raw false)

/-- Characters that are read as one scalar. -/
def RawScalar (raw : List Char) : Prop :=
  raw ≠ [] ∧ ∀ c ∈ raw, isDelimiter c = false ∧ c ≠ '"'

mutual

/-- All strings and scalars of a value are spelled as such. -/
def Valid : Json → Prop
  | .scalar raw => RawScalar raw
  | .string raw => RawString raw
  | .array vs => AllValid vs
  | .object ms => MembersValid ms

def AllValid : List Json → Prop
  | [] => True
  | v :: vs => Valid v ∧ AllValid vs

def MembersValid : List (List Char × Json) → Prop
  | [] => True
  | (key, v) :: ms => RawString key ∧ Valid v ∧ MembersValid ms

end

def indent (n : ℕ) : List Char := List.replicate (4 * n) ' '

mutual

/-- A value on indented lines, the first one without its indentation. -/
def print (n : ℕ) : Json → List Char
  | .scalar raw => raw
  | .string raw => '"' :: (raw ++ ['"'])
  | .array vs => '[' :: '\n' :: (printElements (n + 1) vs ++ (indent n ++ [']']))
  | .object ms => '{' :: '\n' :: (printMembers (n + 1) ms ++ (indent n ++ ['}']))

def printElements (n : ℕ) : List Json → List Char
  | [] => []
  | [v] => indent n ++ (print n v ++ ['\n'])
  | v :: w :: vs => indent n ++ (print n v ++ ',' :: '\n' :: printElements n (w :: vs))

def printMembers (n : ℕ) : List (List Char × Json) → List Char
  | [] => []
  | [(key, v)] =>
      indent n ++ ('"' :: (key ++ ['"'])) ++ ':' :: ' ' :: (print n v ++ ['\n'])
  | (key, v) :: m :: ms =>
      indent n ++ ('"' :: (key ++ ['"'])) ++
        ':' :: ' ' :: (print n v ++ ',' :: '\n' :: printMembers n (m :: ms))

end

theorem lex_indent (n : ℕ) (b : List Char) : lex (indent n ++ b) = lex b := by
  unfold indent
  induction 4 * n with
  | zero => rfl
  | succ k ih => rw [List.replicate_succ, List.cons_append, lex_cons_space rfl, ih]

theorem lex_quoted {raw : List Char} (h : RawString raw) :
    lex ('"' :: (raw ++ ['"'])) = some [.string raw] := by
  have hraw : run (.inString [] false) raw = ([], .inString raw false) := h
  have hquote : startToken '"' = ([], .inString [] false) := rfl
  simp [lex, run, step, hquote, run_append, hraw, finish]

theorem lex_scalar {raw : List Char} (h : RawScalar raw) : lex raw = some [.scalar raw] := by
  have hrun : ∀ (b acc : List Char), (∀ c ∈ b, isDelimiter c = false ∧ c ≠ '"') →
      run (.inScalar acc) b = ([], .inScalar (acc ++ b)) := by
    intro b
    induction b with
    | nil => simp [run]
    | cons c b ih =>
        intro acc hb
        obtain ⟨⟨hc, hq⟩, hb⟩ := List.forall_mem_cons.mp hb
        simp [run, step, hc, hq, ih _ hb]
  obtain ⟨hne, hall⟩ := h
  cases raw with
  | nil => exact absurd rfl hne
  | cons c b =>
      obtain ⟨⟨hc, hq⟩, hb⟩ := List.forall_mem_cons.mp hall
      obtain ⟨hspace, hpunct⟩ : isSpace c = false ∧ punctuation c = none := by
        simpa [isDelimiter] using hc
      have hstart : startToken c = ([], .inScalar [c]) := by simp [startToken, hpunct, hspace, hq]
      simp [lex, run, step, hstart, hrun b [c] hb, finish]

/-- A punctuation character in front of a text. -/
theorem lex_cons {c : Char} {t : Token} (hc : punctuation c = some t) {b : List Char}
    {us : List Token} (hb : lex b = some us) : lex (c :: b) = some (t :: us) := by
  have hlex := lex_append_cons (a := []) (c := c) rfl (by simp [isDelimiter, hc]) hb
  simpa [startToken, hc, run] using hlex

mutual

/-- **What is printed spells the value.** -/
theorem lex_print (v : Json) (hv : Valid v) (n : ℕ) : lex (print n v) = some (tokens v) := by
  match v with
  | .scalar raw => exact lex_scalar hv
  | .string raw => exact lex_quoted hv
  | .array vs =>
      have hclose : lex (indent n ++ [']']) = some [.closeArray] := by rw [lex_indent]; rfl
      rw [print, tokens]
      refine lex_cons rfl ?_
      rw [lex_cons_space rfl]
      exact lex_printElements vs hv (n + 1) hclose
  | .object ms =>
      have hclose : lex (indent n ++ ['}']) = some [.closeObject] := by rw [lex_indent]; rfl
      rw [print, tokens]
      refine lex_cons rfl ?_
      rw [lex_cons_space rfl]
      exact lex_printMembers ms hv (n + 1) hclose

theorem lex_printElements (vs : List Json) (hvs : AllValid vs) (n : ℕ) {rest : List Char}
    {us : List Token} (hrest : lex rest = some us) :
    lex (printElements n vs ++ rest) = some (elements vs ++ us) := by
  match vs with
  | [] => exact hrest
  | [v] =>
      have hv := lex_append_cons (c := '\n') (lex_print v hvs.1 n) rfl hrest
      simpa [printElements, elements, lex_indent, startToken, punctuation, isSpace] using hv
  | v :: w :: vs =>
      have hvs' := lex_printElements (w :: vs) hvs.2 n hrest
      rw [← lex_cons_space (c := '\n') rfl] at hvs'
      have hv := lex_append_cons (c := ',') (lex_print v hvs.1 n) rfl hvs'
      simpa [printElements, elements, lex_indent, startToken, punctuation] using hv

theorem lex_printMembers (ms : List (List Char × Json)) (hms : MembersValid ms) (n : ℕ)
    {rest : List Char} {us : List Token} (hrest : lex rest = some us) :
    lex (printMembers n ms ++ rest) = some (members ms ++ us) := by
  match ms with
  | [] => exact hrest
  | [(key, v)] =>
      have hv := lex_append_cons (c := '\n') (lex_print v hms.2.1 n) rfl hrest
      rw [← lex_cons_space (c := ' ') rfl] at hv
      have hkey := lex_append_cons (c := ':') (lex_quoted hms.1) rfl hv
      simpa [printMembers, members, lex_indent, startToken, punctuation, isSpace] using hkey
  | (key, v) :: m :: ms =>
      have hms' := lex_printMembers (m :: ms) hms.2.2 n hrest
      rw [← lex_cons_space (c := '\n') rfl] at hms'
      have hv := lex_append_cons (c := ',') (lex_print v hms.2.1 n) rfl hms'
      rw [← lex_cons_space (c := ' ') rfl] at hv
      have hkey := lex_append_cons (c := ':') (lex_quoted hms.1) rfl hv
      simpa [printMembers, members, lex_indent, startToken, punctuation, isSpace] using hkey

end

end Json
