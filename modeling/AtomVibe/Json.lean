import AtomVibe.Text

/-!
The JSON parser of `math-atoms-json`. The source keeps the whole input and a byte position; the
parser here keeps the input's length and the text from that position on.
-/

namespace AtomVibe.Json

open Text

def maxDepth : ℕ := 64

inductive JsonValue where
  | null
  | bool (value : Bool)
  | number (value : String)
  | string (value : String)
  | array (value : List JsonValue)
  | object (value : List (String × JsonValue))

namespace JsonValue

def asObject : JsonValue → Option (List (String × JsonValue))
  | .object value => some value
  | _ => none

def asArray : JsonValue → Option (List JsonValue)
  | .array value => some value
  | _ => none

def asStr : JsonValue → Option String
  | .string value => some value
  | _ => none

def asU64 : JsonValue → Option UInt64
  | .number value =>
    if !startsWith "-" value && !value.toList.contains '.' &&
        !value.toList.any (fun c => c == 'e' || c == 'E') then parseU64 value
    else none
  | _ => none

def get (root : JsonValue) (key : String) : Option JsonValue :=
  match root.asObject with
  | none => none
  | some fields => (fields.find? fun field => field.1 == key).map (·.2)

def atPath (root : JsonValue) : List String → Option JsonValue
  | [] => some root
  | segment :: path =>
    match root.get segment with
    | none => none
    | some value => value.atPath path

end JsonValue

structure JsonError where
  offset : ℕ
  message : String
deriving DecidableEq

def JsonError.display (e : JsonError) : String :=
  "JSON error at byte " ++ e.offset.repr ++ ": " ++ e.message

structure Parser where
  inputLen : ℕ
  rest : List Char

namespace Parser

def pos (p : Parser) : ℕ := p.inputLen - utf8Len p.rest

def error {α : Type} (p : Parser) (message : String) : Except JsonError α :=
  .error ⟨p.pos, message⟩

def peekChar (p : Parser) : Option Char := p.rest.head?

/-- The parser after `next_char`. -/
def advance (p : Parser) : Parser := { p with rest := p.rest.tail }

def skipWhitespace (p : Parser) : Parser :=
  { p with rest := p.rest.dropWhile fun c => c == ' ' || c == '\t' || c == '\n' || c == '\r' }

def consumeChar (expected : Char) (p : Parser) : Option Parser :=
  if p.peekChar = some expected then some p.advance else none

def expectChar (expected : Char) (p : Parser) : Except JsonError Parser :=
  match p.consumeChar expected with
  | some q => .ok q
  | none => p.error "unexpected delimiter"

def atDigit (p : Parser) : Bool := p.peekChar.any isAsciiDigit

def consumeDigits (p : Parser) : Parser := { p with rest := p.rest.dropWhile isAsciiDigit }

def parseLiteral (literal : String) (value : JsonValue) (p : Parser) :
    Except JsonError (JsonValue × Parser) :=
  if literal.toList.isPrefixOf p.rest then
    .ok (value, { p with rest := p.rest.drop literal.toList.length })
  else p.error "invalid literal"

def toDigit16 (c : Char) : Option ℕ :=
  if isAsciiDigit c then some (c.toNat - '0'.toNat)
  else if 'a' ≤ c ∧ c ≤ 'f' then some (c.toNat - 'a'.toNat + 10)
  else if 'A' ≤ c ∧ c ≤ 'F' then some (c.toNat - 'A'.toNat + 10)
  else none

def parseHexDigits : ℕ → ℕ → Parser → Except JsonError (ℕ × Parser)
  | 0, value, p => .ok (value, p)
  | n + 1, value, p =>
    match p.peekChar.bind toDigit16 with
    | some digit => parseHexDigits n (value * 16 + digit) p.advance
    | none => p.advance.error "invalid Unicode escape"

def parseHexUnit (p : Parser) : Except JsonError (ℕ × Parser) := parseHexDigits 4 0 p

def fromU32 (scalar : ℕ) (p : Parser) : Except JsonError (Char × Parser) :=
  if scalar.isValidChar then .ok (Char.ofNat scalar, p) else p.error "invalid Unicode scalar"

def parseUnicodeScalar (p : Parser) : Except JsonError (Char × Parser) := do
  let (high, p) ← p.parseHexUnit
  if 0xd800 ≤ high ∧ high ≤ 0xdbff then
    if p.peekChar ≠ some '\\' then
      p.advance.error "high surrogate must be followed by low surrogate"
    else if p.advance.peekChar ≠ some 'u' then
      p.advance.advance.error "high surrogate must be followed by low surrogate"
    else
      let (low, p) ← p.advance.advance.parseHexUnit
      if 0xdc00 ≤ low ∧ low ≤ 0xdfff then
        fromU32 (0x10000 + (high - 0xd800) * 0x400 + (low - 0xdc00)) p
      else p.error "invalid low surrogate"
  else if 0xdc00 ≤ high ∧ high ≤ 0xdfff then p.error "unpaired low surrogate"
  else fromU32 high p

def simpleEscape : Char → Option Char
  | '"' => some '"'
  | '\\' => some '\\'
  | '/' => some '/'
  | 'b' => some '\x08'
  | 'f' => some '\x0c'
  | 'n' => some '\n'
  | 'r' => some '\r'
  | 't' => some '\t'
  | _ => none

def parseStringLoop : ℕ → List Char → Parser → Except JsonError (String × Parser)
  | 0, _, p => p.error "unterminated string"
  | fuel + 1, output, p =>
    match p.peekChar with
    | none => p.error "unterminated string"
    | some c =>
      let q := p.advance
      if c = '"' then .ok (String.ofList output.reverse, q)
      else if c = '\\' then
        match q.peekChar with
        | none => q.error "unterminated string escape"
        | some e =>
          if e = 'u' then do
            let (scalar, r) ← q.advance.parseUnicodeScalar
            parseStringLoop fuel (scalar :: output) r
          else match simpleEscape e with
            | some decoded => parseStringLoop fuel (decoded :: output) q.advance
            | none => q.advance.error "unknown string escape"
      else if isControl c then q.error "unescaped control character in string"
      else parseStringLoop fuel (c :: output) q

def parseString (p : Parser) : Except JsonError (String × Parser) := do
  let p ← p.expectChar '"'
  parseStringLoop (p.rest.length + 1) [] p

def parseInteger (p : Parser) : Except JsonError Parser :=
  match p.peekChar with
  | some '0' =>
    if p.advance.atDigit then p.advance.error "number has a leading zero" else .ok p.advance
  | _ => if p.atDigit then .ok p.consumeDigits else p.error "invalid number"

def parseFraction (p : Parser) : Except JsonError Parser :=
  match p.consumeChar '.' with
  | none => .ok p
  | some q => if q.atDigit then .ok q.consumeDigits else q.error "fraction requires a digit"

def parseExponent (p : Parser) : Except JsonError Parser :=
  if p.peekChar = some 'e' ∨ p.peekChar = some 'E' then
    let q := p.advance
    let q := if q.peekChar = some '+' ∨ q.peekChar = some '-' then q.advance else q
    if q.atDigit then .ok q.consumeDigits else q.error "exponent requires a digit"
  else .ok p

def parseNumber (p : Parser) : Except JsonError (String × Parser) := do
  let q := (p.consumeChar '-').getD p
  let q ← q.parseInteger
  let q ← q.parseFraction
  let q ← q.parseExponent
  .ok (String.ofList (p.rest.take (p.rest.length - q.rest.length)), q)

section Nested

variable (parseValue : Parser → Except JsonError (JsonValue × Parser))

def parseFields : ℕ → List (String × JsonValue) → Parser →
    Except JsonError (JsonValue × Parser)
  | 0, _, p => p.error "unexpected end of input"
  | fuel + 1, fields, p => do
    let p := p.skipWhitespace
    if p.peekChar ≠ some '"' then p.error "object key must be a string"
    else
      let (key, p) ← p.parseString
      if fields.any (fun field => field.1 == key) then p.error "duplicate object key"
      else
        let p ← p.skipWhitespace.expectChar ':'
        let (value, p) ← parseValue p
        let fields := fields ++ [(key, value)]
        let p := p.skipWhitespace
        match p.consumeChar '}' with
        | some p => .ok (.object fields, p)
        | none => do
          let p ← p.expectChar ','
          parseFields fuel fields p

def parseObject (p : Parser) : Except JsonError (JsonValue × Parser) := do
  let p ← p.expectChar '{'
  let p := p.skipWhitespace
  match p.consumeChar '}' with
  | some p => .ok (.object [], p)
  | none => parseFields parseValue (p.rest.length + 1) [] p

def parseElements : ℕ → List JsonValue → Parser → Except JsonError (JsonValue × Parser)
  | 0, _, p => p.error "unexpected end of input"
  | fuel + 1, values, p => do
    let (value, p) ← parseValue p
    let values := values ++ [value]
    let p := p.skipWhitespace
    match p.consumeChar ']' with
    | some p => .ok (.array values, p)
    | none => do
      let p ← p.expectChar ','
      parseElements fuel values p

def parseArray (p : Parser) : Except JsonError (JsonValue × Parser) := do
  let p ← p.expectChar '['
  let p := p.skipWhitespace
  match p.consumeChar ']' with
  | some p => .ok (.array [], p)
  | none => parseElements parseValue (p.rest.length + 1) [] p

end Nested

def parseValue : ℕ → Parser → Except JsonError (JsonValue × Parser)
  | 0, p => p.error "maximum JSON nesting depth exceeded"
  | levels + 1, p =>
    let p := p.skipWhitespace
    match p.peekChar with
    | none => p.error "unexpected end of input"
    | some c =>
      if c = '{' then parseObject (parseValue levels) p
      else if c = '[' then parseArray (parseValue levels) p
      else if c = '"' then do
        let (value, p) ← p.parseString
        .ok (.string value, p)
      else if c = 't' then p.parseLiteral "true" (.bool true)
      else if c = 'f' then p.parseLiteral "false" (.bool false)
      else if c = 'n' then p.parseLiteral "null" .null
      else if c = '-' ∨ isAsciiDigit c then do
        let (value, p) ← p.parseNumber
        .ok (.number value, p)
      else p.error "unexpected character"

end Parser

def parse (input : String) : Except JsonError JsonValue := do
  let p : Parser := ⟨input.utf8ByteSize, input.toList⟩
  let (value, p) ← p.skipWhitespace.parseValue (maxDepth + 1)
  let p := p.skipWhitespace
  if p.rest ≠ [] then p.error "trailing data after JSON value" else .ok value

end AtomVibe.Json

namespace AtomVibe.JsonText

open Text Json

def escapeChar (c : Char) : List Char :=
  if c = '"' then ['\\', '"']
  else if c = '\\' then ['\\', '\\']
  else if c = '\n' then ['\\', 'n']
  else if c = '\r' then ['\\', 'r']
  else if c = '\t' then ['\\', 't']
  else if isControl c then [' ']
  else [c]

/-- The `json_escape` the ledger, scratchpad and session crates each carry a copy of. -/
def escape (value : String) : String := String.ofList (value.toList.flatMap escapeChar)

def quote (value : String) : String := "\"" ++ escape value ++ "\""

def commaJoin : List String → String
  | [] => ""
  | [value] => value
  | value :: values => value ++ "," ++ commaJoin values

def arrayText (values : List String) : String := "[" ++ commaJoin values ++ "]"

def objectText (fields : List (String × String)) : String :=
  "\x7b" ++ commaJoin (fields.map fun field => "\"" ++ field.1 ++ "\":" ++ field.2) ++ "\x7d"

def boolText (b : Bool) : String := if b then "true" else "false"

def lossy (c : Char) : Bool := isControl c && !(c == '\n' || c == '\r' || c == '\t')

def Lossless (value : String) : Prop := ∀ c ∈ value.toList, lossy c = false

instance (value : String) : Decidable (Lossless value) :=
  List.decidableBAll (fun c => lossy c = false) value.toList

def sanitizeChar (c : Char) : Char := if lossy c then ' ' else c

def sanitize (value : String) : String := String.ofList (value.toList.map sanitizeChar)

theorem sanitizeChar_eq_self_iff (c : Char) : sanitizeChar c = c ↔ lossy c = false := by
  unfold sanitizeChar
  split
  · rename_i h
    constructor
    · rintro rfl
      exact absurd h (by decide)
    · intro hf
      rw [h] at hf
      exact absurd hf (by decide)
  · rename_i h
    simp [h]

theorem sanitize_eq_self_iff (value : String) : sanitize value = value ↔ Lossless value := by
  have hmap : value.toList.map sanitizeChar = value.toList ↔
      ∀ c ∈ value.toList, sanitizeChar c = id c := by
    rw [← List.map_eq_map_iff, List.map_id]
  rw [← String.toList_inj, sanitize, String.toList_ofList, hmap]
  simp only [id, sanitizeChar_eq_self_iff, Lossless]

theorem lossy_sanitizeChar (c : Char) : lossy (sanitizeChar c) = false := by
  unfold sanitizeChar
  split
  · decide
  · simpa using ‹¬lossy c = true›

theorem lossless_sanitize (value : String) : Lossless (sanitize value) := by
  simp only [Lossless, sanitize, String.toList_ofList, List.mem_map]
  rintro _ ⟨c, -, rfl⟩
  exact lossy_sanitizeChar c

theorem escapeChar_of_lossy {c : Char} (h : lossy c = true) : escapeChar c = [' '] := by
  simp only [lossy, Bool.and_eq_true, Bool.not_eq_true', Bool.or_eq_false_iff, beq_eq_false_iff_ne]
    at h
  obtain ⟨hcontrol, ⟨hn, hr⟩, ht⟩ := h
  have hq : c ≠ '"' := by rintro rfl; exact absurd hcontrol (by decide)
  have hb : c ≠ '\\' := by rintro rfl; exact absurd hcontrol (by decide)
  simp [escapeChar, hq, hb, hn, hr, ht, hcontrol]

theorem escape_sanitize (value : String) : escape (sanitize value) = escape value := by
  have h : ∀ c, escapeChar (sanitizeChar c) = escapeChar c := by
    intro c
    by_cases hl : lossy c = true
    · rw [escapeChar_of_lossy hl, sanitizeChar, if_pos hl]
      rfl
    · rw [sanitizeChar, if_neg hl]
  simp only [escape, sanitize, String.toList_ofList, List.flatMap_map, h]

theorem lossless_append {s t : String} : Lossless (s ++ t) ↔ Lossless s ∧ Lossless t := by
  simp only [Lossless, String.toList_append, List.mem_append, or_imp, forall_and]

theorem lossless_of_forall {p : Char → Bool} {value : String} (hp : ∀ c, p c = true → lossy c = false)
    (h : ∀ c ∈ value.toList, p c = true) : Lossless value := fun c hc => hp c (h c hc)

theorem lossy_of_not_control {c : Char} (h : isControl c = false) : lossy c = false := by
  simp [lossy, h]

theorem isControl_of_between {a c b : Char} (hac : a ≤ c) (hcb : c ≤ b)
    (hab : ' ' ≤ a ∧ b ≤ '~') : isControl c = false := by
  have h1 : 0x20 ≤ c.toNat := UInt32.le_iff_toNat_le.mp (hab.1.trans hac)
  have h2 : c.toNat ≤ 0x7e := UInt32.le_iff_toNat_le.mp (hcb.trans hab.2)
  simp only [isControl, Bool.or_eq_false_iff, decide_eq_false_iff_not, Bool.and_eq_false_iff]
  omega

theorem lossy_of_between {a c b : Char} (hac : a ≤ c) (hcb : c ≤ b)
    (hab : ' ' ≤ a ∧ b ≤ '~') : lossy c = false :=
  lossy_of_not_control (isControl_of_between hac hcb hab)

theorem lossless_of_idChars {value : String} (h : value.toList.all
    (fun c => isAsciiLowercase c || isAsciiDigit c || c == '-') = true) : Lossless value := by
  apply lossless_of_forall _ (List.all_eq_true.mp h)
  intro c hc
  simp only [isAsciiLowercase, isAsciiDigit, Bool.or_eq_true, Bool.and_eq_true, decide_eq_true_eq,
    beq_iff_eq] at hc
  rcases hc with (⟨h1, h2⟩ | ⟨h1, h2⟩) | rfl
  · exact lossy_of_between h1 h2 (by decide)
  · exact lossy_of_between h1 h2 (by decide)
  · decide

theorem escapeChar_of_plain {c : Char} (h : isControl c = false) (hquote : c ≠ '"')
    (hslash : c ≠ '\\') : escapeChar c = [c] := by
  have hne : c ≠ '\n' ∧ c ≠ '\r' ∧ c ≠ '\t' := by
    refine ⟨?_, ?_, ?_⟩ <;> rintro rfl <;> exact absurd h (by decide)
  simp [escapeChar, h, hquote, hslash, hne]

def render : JsonValue → String
  | .null => "null"
  | .bool b => boolText b
  | .number text => text
  | .string value => quote value
  | .array values => arrayText (values.map render)
  | .object fields => objectText (fields.map fun field => (field.1, render field.2))
decreasing_by
  · have := List.sizeOf_lt_of_mem ‹_ ∈ values›
    simp only [JsonValue.array.sizeOf_spec]
    omega
  · have := List.sizeOf_lt_of_mem ‹_ ∈ fields›
    obtain ⟨key, value⟩ := field
    simp only [Prod.mk.sizeOf_spec, JsonValue.object.sizeOf_spec] at *
    omega

end AtomVibe.JsonText
