import AtomVibe.ByteOffsets
import AtomVibe.Foundations.SpacedWords

namespace AtomVibe.Html

open Text

def findWhere (p : Char → Bool) : List Char → Option ℕ
  | [] => none
  | c :: cs => if p c then some 0 else (findWhere p cs).map (· + c.utf8Size)

def rfindWhere (p : Char → Bool) : List Char → Option ℕ
  | [] => none
  | c :: cs =>
    match rfindWhere p cs with
    | some offset => some (offset + c.utf8Size)
    | none => if p c then some 0 else none

def findChar (c : Char) : List Char → Option ℕ := findWhere (· = c)

def findStr (pattern : List Char) : List Char → Option ℕ
  | [] => if pattern.isEmpty then some 0 else none
  | c :: cs =>
    if pattern.isPrefixOf (c :: cs) then some 0
    else (findStr pattern cs).map (· + c.utf8Size)

theorem findChar_front {c : Char} {front : List Char} (h : c ∉ front) (rest : List Char) :
    findChar c (front ++ c :: rest) = some (utf8Len front) := by
  induction front with
  | nil => simp [findChar, findWhere]
  | cons d front ih =>
    obtain ⟨hd, hfront⟩ := List.ne_and_not_mem_of_not_mem_cons h
    rw [List.cons_append, findChar, findWhere, if_neg (by simpa using Ne.symm hd), ← findChar,
      ih hfront, Option.map_some, utf8Len_cons, Nat.add_comm]

theorem findChar_eq_none {c : Char} {cs : List Char} : findChar c cs = none ↔ c ∉ cs := by
  induction cs with
  | nil => simp [findChar, findWhere]
  | cons d cs ih =>
    rw [findChar] at ih
    by_cases hd : d = c
    · simp [findChar, findWhere, hd]
    · simp [findChar, findWhere, hd, ih, Ne.symm hd]

def sliceFrom (s : List Char) (start : ℕ) : Option (List Char) := checkedSlice s start (utf8Len s)

def lower (s : List Char) : List Char := s.map Char.toLower

def afterStart (pattern s : List Char) : Option (List Char) :=
  if pattern.isPrefixOf s then some (s.drop pattern.length) else none

def beforeEnd (pattern s : List Char) : Option (List Char) :=
  if pattern.isSuffixOf s then some (s.take (s.length - pattern.length)) else none

def stripStart (pattern : String) (s : List Char) : Option (List Char) := afterStart pattern.toList s

def stripEnd (pattern : String) (s : List Char) : Option (List Char) := beforeEnd pattern.toList s

def trimEnd (c : Char) (s : List Char) : List Char := (s.reverse.dropWhile (· = c)).reverse

def trimEndStr (pattern : String) (s : List Char) : List Char :=
  (dropPrefixes pattern.toList.reverse s.length s.reverse).reverse

def splitFirst (p : Char → Bool) (s : List Char) : List Char × Option (List Char) :=
  (s.takeWhile fun c => !p c, match s.dropWhile fun c => !p c with
    | [] => none
    | _ :: rest => some rest)

def splitWhitespace (s : List Char) : List (List Char) := SpacedWords.words isWhitespace s

def between (b : List Char) (start stop : ℕ) : Option (List Char) :=
  if start ≤ stop ∧ stop ≤ b.length then some ((b.take stop).drop start) else none

def skipWhile (p : Char → Bool) (b : List Char) (i : ℕ) : ℕ := i + ((b.drop i).takeWhile p).length

def digitOf (radix : ℕ) (c : Char) : Option ℕ :=
  let digit :=
    if isAsciiDigit c then some (c.toNat - '0'.toNat)
    else if isAsciiLowercase c then some (c.toNat - 'a'.toNat + 10)
    else if isAsciiUppercase c then some (c.toNat - 'A'.toNat + 10)
    else none
  digit.filter (· < radix)

/-- `from_str_radix` of an unsigned type with this many values -/
def fromStrRadix (radix size : ℕ) (s : List Char) : Option ℕ :=
  let digits := match s with
    | '+' :: rest => rest
    | s => s
  if digits.isEmpty then none
  else match digits.mapM (digitOf radix) with
    | none => none
    | some values => (some (values.foldl (fun n d => n * radix + d) 0)).filter (· < size)

def charFromU32 (n : ℕ) : Option Char := if n.isValidChar then some (Char.ofNat n) else none

def collapseFrom (prevSpace : Bool) : List Char → List Char
  | [] => []
  | ch :: rest =>
    if isWhitespace ch then
      if prevSpace then collapseFrom true rest else ' ' :: collapseFrom true rest
    else ch :: collapseFrom false rest

def collapseWs (s : List Char) : List Char := collapseFrom false s

def entities : List (String × Char) :=
  [("amp", '&'), ("lt", '<'), ("gt", '>'), ("quot", '"'), ("apos", '\''), ("nbsp", '\u00a0'),
    ("middot", '·'), ("bull", '•'), ("mdash", '—'), ("ndash", '–'), ("hellip", '…'), ("copy", '©'),
    ("times", '×'), ("eacute", 'é'), ("egrave", 'è'), ("agrave", 'à'), ("uuml", 'ü'),
    ("ouml", 'ö'), ("auml", 'ä'), ("deg", '°'), ("rarr", '→'), ("larr", '←')]

def u32Size : ℕ := 2 ^ 32

def decodeEntity (name : List Char) : Option Char :=
  match entities.find? fun entity => entity.1.toList = name with
  | some (_, c) => some c
  | none =>
    match (stripStart "#x" name).or (stripStart "#X" name) with
    | some num => (fromStrRadix 16 u32Size num).bind charFromU32
    | none => match stripStart "#" name with
      | some num => (fromStrRadix 10 u32Size num).bind charFromU32
      | none => none

def entityAt (b : List Char) (i : ℕ) : Option (Option (Char × ℕ)) := do
  let window ← between b (i + 1) (min (i + 33) b.length)
  match window.findIdx? (· = ';') with
  | none => return none
  | some semi =>
    let name ← between b (i + 1) (i + 1 + semi)
    return (decodeEntity name).map fun c => (c, i + semi + 2)

def decodeFrom (b : List Char) : ℕ → ℕ → List Char → Option (List Char)
  | 0, _, _ => none
  | fuel + 1, i, out =>
    match b[i]? with
    | none => some out
    | some ch => do
      let decoded ← (if ch = '&' then entityAt b i else some none)
      match decoded with
      | some (c, next) => decodeFrom b fuel next (out ++ [c])
      | none => decodeFrom b fuel (i + 1) (out ++ [ch])

/-- As for every loop below: without a result the source would panic or never end. -/
def decodeEntities (s : List Char) : Option (List Char) :=
  if !s.contains '&' then some s else decodeFrom s (s.length + 1) 0 []

def attrValue (b : List Char) (i : ℕ) : List Char × ℕ :=
  if b[i]? = some '=' then
    let i := skipWhile isWhitespace b (i + 1)
    match b[i]? with
    | none => ([], i)
    | some q =>
      if q = '"' ∨ q = '\'' then
        let value := (b.drop (i + 1)).takeWhile (· ≠ q)
        (value, i + 1 + value.length + 1)
      else
        let value := (b.drop i).takeWhile fun c => !isWhitespace c
        (value, i + value.length)
  else ([], i)

def findAttrFrom (b : List Char) (want : String) : ℕ → ℕ → Option (Option (List Char))
  | 0, _ => none
  | fuel + 1, i =>
    if b.length ≤ i then some none
    else do
      let nameStart := skipWhile isWhitespace b i
      let nameStop := skipWhile (fun c => c ≠ '=' && !isWhitespace c) b nameStart
      let name := lower (← between b nameStart nameStop)
      let (value, i) := attrValue b (skipWhile isWhitespace b nameStop)
      if name = want.toList then return some value
      findAttrFrom b want fuel (if name.isEmpty then i + 1 else i)

def findAttr (attrs : List Char) (want : String) : Option (Option (List Char)) :=
  findAttrFrom attrs want (attrs.length + 1) 0

structure Attrs where
  idAttr : Option (List Char)
  classAttr : Option (List Char)
  styleAttr : Option (List Char)
  deriving DecidableEq

def parseOpen (inner : List Char) : Option (List Char × Attrs) := do
  let (tag, rest) := splitFirst isWhitespace inner
  let attrs := rest.getD []
  return (lower tag, ⟨← findAttr attrs "id", ← findAttr attrs "class", ← findAttr attrs "style"⟩)

section Total

theorem between_eq {b : List Char} {start stop : ℕ} (h : start ≤ stop) (hstop : stop ≤ b.length) :
    between b start stop = some ((b.take stop).drop start) := if_pos ⟨h, hstop⟩

theorem le_skipWhile (p : Char → Bool) (b : List Char) (i : ℕ) : i ≤ skipWhile p b i :=
  Nat.le_add_right _ _

theorem skipWhile_le (p : Char → Bool) {b : List Char} {i : ℕ} (h : i ≤ b.length) :
    skipWhile p b i ≤ b.length := by
  have hle := (List.takeWhile_prefix (l := b.drop i) p).length_le
  rw [List.length_drop] at hle
  rw [skipWhile]
  omega

theorem entityAt_returns {b : List Char} {i : ℕ} (h : i < b.length) :
    ∃ decoded, entityAt b i = some decoded ∧ ∀ c next, decoded = some (c, next) → i < next := by
  rw [entityAt, between_eq (by omega) (Nat.min_le_right _ _)]
  simp only [Option.bind_eq_bind, Option.bind_some]
  split
  · exact ⟨none, rfl, by simp⟩
  · rename_i semi hsemi
    have hlt := (List.findIdx?_eq_some_iff_findIdx_eq.mp hsemi).1
    rw [List.length_drop, List.length_take] at hlt
    rw [between_eq (by omega) (by omega)]
    refine ⟨_, rfl, fun c next hnext => ?_⟩
    obtain ⟨d, -, hd⟩ := Option.map_eq_some_iff.mp hnext
    obtain ⟨-, rfl⟩ := Prod.mk.inj hd
    omega

theorem decodeFrom_returns {b : List Char} {fuel i : ℕ} (h : b.length < fuel + i)
    (hfuel : 0 < fuel) (out : List Char) : ∃ decoded, decodeFrom b fuel i out = some decoded := by
  induction fuel generalizing i out with
  | zero => omega
  | succ fuel ih =>
    rw [decodeFrom]
    split
    · exact ⟨out, rfl⟩
    · rename_i ch hch
      have hlt := (List.getElem?_eq_some_iff.mp hch).1
      obtain ⟨decoded, hdecoded, hnext⟩ : ∃ decoded,
          (if ch = '&' then entityAt b i else some none) = some decoded ∧
            ∀ c next, decoded = some (c, next) → i < next := by
        split
        · exact entityAt_returns hlt
        · exact ⟨none, rfl, by simp⟩
      rw [hdecoded]
      cases decoded with
      | none => exact ih (by omega) (by omega) _
      | some found =>
        have hfound := hnext found.1 found.2 rfl
        exact ih (by omega) (by omega) _

theorem decodeEntities_returns (s : List Char) : ∃ decoded, decodeEntities s = some decoded := by
  rw [decodeEntities]
  split
  · exact ⟨s, rfl⟩
  · exact decodeFrom_returns (by omega) (by omega) []

theorem le_attrValue (b : List Char) (i : ℕ) : i ≤ (attrValue b i).2 := by
  have hskip := le_skipWhile isWhitespace b (i + 1)
  rw [attrValue]
  split
  · simp only
    split
    · omega
    · split <;> (dsimp only; omega)
  · exact le_rfl

theorem findAttrFrom_returns {b : List Char} {fuel i : ℕ} (h : b.length < fuel + i)
    (hfuel : 0 < fuel) (want : String) : ∃ value, findAttrFrom b want fuel i = some value := by
  induction fuel generalizing i with
  | zero => omega
  | succ fuel ih =>
    rw [findAttrFrom]
    split
    · exact ⟨none, rfl⟩
    · rename_i hlt
      have hstart := le_skipWhile isWhitespace b i
      have hstop := le_skipWhile (fun c => c ≠ '=' && !isWhitespace c) b (skipWhile isWhitespace b i)
      have hwithin := skipWhile_le (fun c => c ≠ '=' && !isWhitespace c)
        (skipWhile_le isWhitespace (Nat.le_of_not_le hlt))
      have hblank := le_skipWhile isWhitespace b (skipWhile (fun c => c ≠ '=' && !isWhitespace c) b
        (skipWhile isWhitespace b i))
      simp only [between_eq hstop hwithin, Option.bind_eq_bind, Option.bind_some]
      generalize hname : lower _ = name
      generalize hvalue : attrValue b _ = value
      have hnext := le_attrValue b (skipWhile isWhitespace b
        (skipWhile (fun c => c ≠ '=' && !isWhitespace c) b (skipWhile isWhitespace b i)))
      rw [hvalue] at hnext
      split
      · exact ⟨_, rfl⟩
      · apply ih _ (by omega)
        split
        · omega
        · rename_i hne
          -- A name that is not empty is at least one character long.
          have hgrown : skipWhile isWhitespace b i <
              skipWhile (fun c => c ≠ '=' && !isWhitespace c) b (skipWhile isWhitespace b i) := by
            by_contra hsame
            apply hne
            rw [← hname, List.isEmpty_iff, lower, List.map_eq_nil_iff, List.drop_eq_nil_iff,
              List.length_take]
            omega
          omega

theorem findAttr_returns (attrs : List Char) (want : String) :
    ∃ value, findAttr attrs want = some value :=
  findAttrFrom_returns (by omega) (by omega) want

theorem parseOpen_returns (inner : List Char) :
    ∃ tag attrs, parseOpen inner = some (lower tag, attrs) ∧ tag <+: inner := by
  obtain ⟨idAttr, hid⟩ := findAttr_returns ((splitFirst isWhitespace inner).2.getD []) "id"
  obtain ⟨classAttr, hclass⟩ := findAttr_returns ((splitFirst isWhitespace inner).2.getD []) "class"
  obtain ⟨styleAttr, hstyle⟩ := findAttr_returns ((splitFirst isWhitespace inner).2.getD []) "style"
  refine ⟨(splitFirst isWhitespace inner).1, ⟨idAttr, classAttr, styleAttr⟩, ?_,
    List.takeWhile_prefix _⟩
  rw [parseOpen]
  simp only [hid, hclass, hstyle, Option.bind_eq_bind, Option.bind_some, Option.pure_def]

end Total

end AtomVibe.Html

namespace AtomVibe.Html

open Text

def asciiByte (c : Char) : UInt8 := c.toNat.toUInt8

def lowerByte (byte : UInt8) : UInt8 := if 0x41 ≤ byte ∧ byte ≤ 0x5a then byte + 0x20 else byte

def matchesAt (hay needle : List UInt8) (i : ℕ) : Bool :=
  ((hay.drop i).take needle.length).map lowerByte = needle.map lowerByte

def findAsciiCi (hay : List UInt8) (start : ℕ) (needle : List UInt8) : Option ℕ :=
  if needle.isEmpty || hay.length < needle.length then none
  else (List.range' start (hay.length - needle.length + 1 - start)).find? (matchesAt hay needle)

def tagLength (quote : UInt8) : List UInt8 → ℕ
  | [] => 0
  | c :: rest =>
    if quote ≠ 0 then tagLength (if c = quote then 0 else quote) rest + 1
    else if c = asciiByte '"' ∨ c = asciiByte '\'' then tagLength c rest + 1
    else if c = asciiByte '>' then 0
    else tagLength 0 rest + 1

inductive Tok
  | openTag (tag : List Char) (attrs : Attrs) (selfClose : Bool)
  | close (name : List Char)
  | text (text : List Char)
  deriving DecidableEq

inductive Read
  | comment
  | declaration
  | skipped (tag : List Char) (tagEnd : ℕ) (close : Option ℕ)
  | token (tok : Tok)
  | nothing
  deriving DecidableEq

structure Piece where
  start : ℕ
  next : ℕ
  read : Read
  deriving DecidableEq

def Piece.tok? (piece : Piece) : Option Tok :=
  match piece.read with
  | .token tok => some tok
  | _ => none

def isVoid (tag : List Char) : Bool :=
  String.ofList tag ∈ ["br", "img", "hr", "input", "meta", "link"]

section Tokenize

variable (src : List Char)

def skipContent (start : ℕ) (tag : List Char) : Option (Option ℕ × ℕ) :=
  let b := bytesOf src
  match findAsciiCi b start (bytesOf ("</".toList ++ tag)) with
  | none => some (none, b.length)
  | some close => do
    let rest ← sliceFrom src close
    return (some close, match findChar '>' rest with
      | some offset => close + offset + 1
      | none => b.length)

def readTag (i : ℕ) : Option Piece := do
  let b := bytesOf src
  let j := i + 1 + tagLength 0 (b.drop (i + 1))
  let inner ← checkedSlice src (i + 1) (min j b.length)
  let inner := trimChars inner
  match stripStart "/" inner with
  | some rest => return ⟨i, j + 1, .token (.close (lower (trimChars rest)))⟩
  | none =>
    let selfClose := (stripEnd "/" inner).isSome
    let inner := trimChars (trimEnd '/' inner)
    let (tag, attrs) ← parseOpen inner
    if tag = "script".toList ∨ tag = "style".toList then
      let (close, next) ← skipContent src (j + 1) tag
      return ⟨i, next, .skipped tag j close⟩
    else return ⟨i, j + 1, .token (.openTag tag attrs (selfClose || isVoid tag))⟩

def readMarkup (i : ℕ) : Option Piece := do
  let b := bytesOf src
  let here ← sliceFrom src i
  if (stripStart "<!--" here).isSome then
    let rest ← sliceFrom src (i + 4)
    return ⟨i, match findStr "-->".toList rest with
      | some stop => i + 4 + stop + 3
      | none => b.length, .comment⟩
  else if (stripStart "<!" here).isSome || (stripStart "<?" here).isSome then
    let j := i + 1 + ((b.drop (i + 1)).takeWhile (· ≠ asciiByte '>')).length
    return ⟨i, j + 1, .declaration⟩
  else readTag src i

def readText (i : ℕ) : Option Piece := do
  let b := bytesOf src
  let stop := i + ((b.drop i).takeWhile (· ≠ asciiByte '<')).length
  let text ← decodeEntities (collapseWs (← checkedSlice src i stop))
  return ⟨i, stop, if text.isEmpty then .nothing else .token (.text text)⟩

def readPiece (i : ℕ) : Option Piece :=
  if (bytesOf src)[i]? = some (asciiByte '<') then readMarkup src i else readText src i

def piecesFrom : ℕ → ℕ → List Piece → Option (List Piece)
  | 0, _, _ => none
  | fuel + 1, i, out =>
    if utf8Len src ≤ i then some out
    else do
      let piece ← readPiece src i
      piecesFrom fuel piece.next (out ++ [piece])

def pieces : Option (List Piece) := piecesFrom src (utf8Len src + 1) 0 []

def tokenize : Option (List Tok) := (pieces src).map fun pieces => pieces.filterMap Piece.tok?

structure Block where
  start : ℕ
  stop : ℕ
  text : List Char
  deriving DecidableEq

def styleBlocksFrom : ℕ → ℕ → List Block → Option (List Block)
  | 0, _, _ => none
  | fuel + 1, search, out =>
    let b := bytesOf src
    if utf8Len src ≤ search then some out
    else match findAsciiCi b search (bytesOf "<style".toList) with
      | none => some out
      | some start => do
        let rest ← sliceFrom src start
        match findChar '>' rest with
        | none => return out
        | some offset =>
          let openEnd := start + offset + 1
          match findAsciiCi b openEnd (bytesOf "</style".toList) with
          | none => return out
          | some close =>
            let text ← checkedSlice src openEnd close
            let rest ← sliceFrom src close
            styleBlocksFrom fuel (match findChar '>' rest with
              | some offset => close + offset + 1
              | none => b.length) (out ++ [⟨openEnd, close, text⟩])

def styleBlocks : Option (List Block) := styleBlocksFrom src (utf8Len src + 1) 0 []

end Tokenize

end AtomVibe.Html
