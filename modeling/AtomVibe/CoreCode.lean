import AtomVibe.Foundations.Quoted
import AtomVibe.HtmlScan

/-!
How `avc-core` takes the code out of a model's response: the last fenced block, or the text as it is
without what stands behind its last closed brace. A panic, and a scan that does not end, is `none`.
-/

namespace AtomVibe.Core

open Text Html Quoted

def codeFence : List Char := "```".toList

def rustSigns : Signs UInt8 where
  quote := asciiByte '"'
  escape := asciiByte '\\'
  opening := asciiByte '\x7b'
  closing := asciiByte '\x7d'

def skipInlineLanguageTag (rest : List Char) : Option ℕ :=
  let tagLen := (rest.takeWhile isAsciiAlphanumeric).length
  if tagLen = 0 ∨ 12 < tagLen then some 0
  else do
    let behind ← sliceFrom rest tagLen
    match behind.head? with
    | some ch => return if isWhitespace ch then tagLen + ch.utf8Size else 0
    | none => return 0

def closingFenceFrom (r : Reading) (i : ℕ) : List UInt8 → Option ℕ
  | [] => none
  | b :: bytes =>
    if r.inString = false ∧ b = asciiByte '`' ∧ bytes[0]? = some (asciiByte '`') ∧
        bytes[1]? = some (asciiByte '`') then
      some i
    else closingFenceFrom (r.step rustSigns b) (i + 1) bytes

def findClosingFence (text : List Char) (start : ℕ) : Option ℕ :=
  closingFenceFrom {} start ((bytesOf text).drop start)

def lastFenced (text : List Char) : ℕ → ℕ → Option (ℕ × ℕ) → Option (Option (ℕ × ℕ))
  | 0, _, _ => none
  | fuel + 1, cursor, best => do
    match findStr codeFence (← sliceFrom text cursor) with
    | none => return best
    | some openRel =>
      let afterOpen := cursor + openRel + 3
      if utf8Len text < afterOpen then return best
      let rest ← sliceFrom text afterOpen
      let bodyStart ← match findChar '\n' rest with
        | some rel => some (afterOpen + rel + 1)
        | none => (skipInlineLanguageTag rest).map (afterOpen + ·)
      match findClosingFence text bodyStart with
      | some close => lastFenced text fuel (close + 3) (some (bodyStart, close))
      | none => return best

def trimBreaks (cs : List Char) : List Char :=
  (cs.reverse.dropWhile fun c => c == '\n' || c == '\r').reverse

def extractFencedCode (text : List Char) : Option (Option (List Char)) := do
  match ← lastFenced text (utf8Len text + 1) 0 none with
  | none => return none
  | some (start, stop) => return some (trimBreaks (← checkedSlice text start stop))

def trimStart (line : List Char) : List Char := line.dropWhile isWhitespace

def declarations : List String :=
  ["fn ", "pub fn ", "use ", "struct ", "pub struct ", "enum ", "pub enum ", "impl ", "mod "]

def beginsWith (words : List String) (line : List Char) : Bool :=
  words.any fun word => word.toList.isPrefixOf (trimStart line)

def looksLikeRustSource (text : List Char) : Bool := (linesFrom [] text).any (beginsWith declarations)

def firstMeaningfulLineIsRust (text : List Char) : Bool :=
  match (linesFrom [] text).find? fun line => !(trimStart line).isEmpty with
  | some line => beginsWith (declarations ++ ["#["]) line
  | none => false

/-- `i32` arithmetic -/
def checkedI32 (n : ℤ) : Option ℤ := if -2 ^ 31 ≤ n ∧ n < 2 ^ 31 then some n else none

structure BraceScan where
  depth : ℤ := 0
  opened : Bool := false
  reading : Reading := {}
  cutAt : Option ℕ := none

def BraceScan.step (s : BraceScan) (i : ℕ) (b : UInt8) : Option BraceScan := do
  if s.reading.inString then return { s with reading := s.reading.step rustSigns b }
  else if b = asciiByte '"' then return { s with reading := s.reading.step rustSigns b }
  else if b = asciiByte '\x7b' then
    let depth ← checkedI32 (s.depth + 1)
    return { s with depth, opened := true }
  else if b = asciiByte '\x7d' then
    let depth ← checkedI32 (s.depth - 1)
    return { s with
      depth
      cutAt := if s.opened = true ∧ depth = 0 then some (i + 1) else s.cutAt }
  else return s

def scanBraces (s : BraceScan) (i : ℕ) : List UInt8 → Option BraceScan
  | [] => some s
  | b :: bytes => do scanBraces (← s.step i b) (i + 1) bytes

def trimTrailingProse (code : List Char) : Option (List Char) := do
  let scan ← scanBraces {} 0 (bytesOf code)
  match scan.cutAt with
  | none => return code
  | some cut =>
    let rest ← sliceFrom code cut
    if (trimChars rest).isEmpty then return code
    checkedSlice code 0 cut

def sliceRustFromProse (text : List Char) : Option (Option (List Char)) :=
  match (linesFrom [] text).dropWhile fun line => !beginsWith (declarations ++ ["#["]) line with
  | [] => some none
  | line :: lines =>
    let tail := ['\n'].intercalate (line :: lines)
    if (linesFrom [] tail).any (beginsWith ["fn main"]) then (trimTrailingProse tail).map some
    else some none

def extractUnfenced (text : List Char) : Option (Option (List Char)) :=
  if firstMeaningfulLineIsRust text then (trimTrailingProse text).map some
  else sliceRustFromProse text

def extractCodeFromResponse (text : List Char) : Option (Option (List Char)) := do
  match ← extractFencedCode text with
  | some fenced => if looksLikeRustSource fenced then return some fenced else extractUnfenced text
  | none => extractUnfenced text

example : extractFencedCode "```rust fn main() \x7b println!(\"hi\"); \x7d```".toList =
    some (some "fn main() \x7b println!(\"hi\"); \x7d".toList) := by
  decide +kernel

end AtomVibe.Core
