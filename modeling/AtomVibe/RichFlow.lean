import AtomVibe.UxModel
import AtomVibe.WrapLines

namespace AtomVibe.Rich

open Text TextWrap Ux

structure RichPiece where
  text : List Char
  size : ℚ
  color : Rgba
  background : Option Rgba
  bold : Bool
  underline : Bool
  x : ℚ
  width : ℚ

structure RichLine where
  pieces : List RichPiece
  width : ℚ

structure RichFrag where
  si : ℕ
  text : List Char
  width : ℚ
  overlay : Bool
  deriving Inhabited

structure RichWord where
  spaceBefore : Bool
  frags : List RichFrag
  width : ℚ

section Functions

variable (fonts : Fonts)

structure RichWords where
  words : List RichWord
  opened : Option RichWord
  pendingSpace : Bool

namespace RichWords

def addOverlay (s : RichWords) (si : ℕ) (span : Span) : RichWords :=
  let frag : RichFrag := ⟨si, span.text, 0, true⟩
  match s.opened with
  | some word => { s with opened := some { word with frags := word.frags ++ [frag] } }
  | none => { s with opened := some ⟨s.pendingSpace, [frag], 0⟩, pendingSpace := false }

def addRun (s : RichWords) (si : ℕ) (span : Span) (ws : Bool) (run : List Char) : RichWords :=
  if ws then ⟨s.words ++ s.opened.toList, none, true⟩
  else
    let width := advanceStyled fonts run span.size span.bold
    let word := s.opened.getD ⟨s.pendingSpace, [], 0⟩
    { s with
      opened := some { word with
        frags := word.frags ++ [⟨si, run, width, false⟩]
        width := word.width + width }
      pendingSpace := s.opened.isSome && s.pendingSpace }

def addText (s : RichWords) (si : ℕ) (span : Span) : List Char → RichWords
  | [] => s
  | c :: rest =>
    let ws := isWhitespace c
    addText (s.addRun fonts si span ws (c :: rest.takeWhile fun d => isWhitespace d == ws)) si span
      (rest.dropWhile fun d => isWhitespace d == ws)
termination_by rest => rest.length
decreasing_by
  have hlength : (rest.dropWhile fun d => isWhitespace d == isWhitespace c).length ≤ rest.length :=
    (List.dropWhile_sublist _).length_le
  simp only [List.length_cons]
  omega

def addSpan (s : RichWords) : Span × ℕ → RichWords
  | (span, si) => if span.overlay then s.addOverlay si span else s.addText fonts si span span.text

end RichWords

def richWords (spans : List Span) : List RichWord :=
  let s := spans.zipIdx.foldl (RichWords.addSpan fonts) ⟨[], none, false⟩
  s.words ++ s.opened.toList

def pieceFor (spans : List Span) (frag : RichFrag) (x : ℚ) (text : List Char) (width : ℚ) :
    RichPiece :=
  let span := spans.getD frag.si default
  { text := text
    size := span.size
    color := span.color
    background := span.background
    bold := span.bold
    underline := span.underline
    x := x
    width := width }

structure Flow where
  lines : List RichLine
  cur : RichLine
  /-- The span of the piece that the next word may extend. -/
  curSpan : Option ℕ

namespace Flow

variable (spans : List Span) (maxW : WithTop ℚ)

def flush (s : Flow) : Flow := { s with lines := s.lines ++ [s.cur], cur := ⟨[], 0⟩ }

def hasText (s : Flow) : Bool := s.cur.pieces.any fun p => 0 < p.width

def cutFrag (frag : RichFrag) (s : Flow) (rest : List Char) : Flow :=
  if rest.isEmpty then s
  else
    let span := spans.getD frag.si default
    let avail := maxW.map (· - s.cur.width)
    let n := fitCharsStyled fonts rest span.size span.bold avail
    if n == 0 && s.hasText then cutFrag frag s.flush rest
    else
      let cut := charBoundary rest (max n 1)
      let chunk := takeBytes cut rest
      let chunkW := advanceStyled fonts chunk span.size span.bold
      cutFrag frag { s with
        cur := ⟨s.cur.pieces ++ [pieceFor spans frag s.cur.width chunk chunkW], s.cur.width + chunkW⟩ }
        (dropBytes cut rest)
termination_by (rest.length, s.cur.pieces.length)
decreasing_by
  · rename_i h
    have hpieces : s.cur.pieces ≠ [] := by
      rintro hnil
      simp [hasText, hnil] at h
    exact .right _ (List.length_pos_of_ne_nil hpieces)
  · rename_i hne _
    apply Prod.Lex.left
    have hrest : rest ≠ [] := by simpa using hne
    have hlength := List.length_pos_of_ne_nil hrest
    rw [dropBytes_charBoundary, List.length_drop]
    omega

def addFrag (s : Flow) (frag : RichFrag) : Flow :=
  if frag.overlay then
    { s with cur.pieces := s.cur.pieces ++ [pieceFor spans frag s.cur.width frag.text 0] }
  else s.cutFrag fonts spans maxW frag frag.text

def extend (s : Flow) (spaceW : ℚ) (lead : RichFrag) : Flow :=
  match s.cur.pieces.getLast? with
  | none => s
  | some piece =>
    let grown := { piece with
      text := piece.text ++ (if 0 < spaceW then [' '] else []) ++ lead.text
      width := piece.width + (spaceW + lead.width) }
    { s with cur := ⟨s.cur.pieces.dropLast ++ [grown], s.cur.width + (spaceW + lead.width)⟩ }

def append (s : Flow) (spaceW : ℚ) (word : RichWord) : Flow :=
  let done := word.frags.foldl (fun (pieces, x) frag =>
    if frag.overlay then (pieces ++ [pieceFor spans frag x frag.text 0], x)
    else (pieces ++ [pieceFor spans frag x frag.text frag.width], x + frag.width))
    (s.cur.pieces, s.cur.width + spaceW)
  let texts := word.frags.filter fun frag => !frag.overlay
  { s with
    cur := ⟨done.1, done.2⟩
    curSpan := (texts.getLast?.filter fun _ => texts.length == 1).map (·.si) }

def addWord (s : Flow) (word : RichWord) : Flow :=
  let firstText := word.frags.find? fun frag => !frag.overlay
  let lead := firstText.getD (word.frags.headD default)
  let spaceW :=
    if word.spaceBefore && !s.cur.pieces.isEmpty then
      advanceStyled fonts [' '] (spans.getD lead.si default).size (spans.getD lead.si default).bold
    else 0
  if firstText.isNone then
    { s with
      cur.pieces := s.cur.pieces ++ word.frags.map fun frag =>
        pieceFor spans frag (s.cur.width + spaceW) frag.text 0
      curSpan := none }
  else if maxW + wrapSlack < word.width then
    let flushed := if s.hasText then s.flush else s
    { word.frags.foldl (addFrag fonts spans maxW) flushed with curSpan := none }
  else
    let s' :=
      if !s.cur.pieces.isEmpty && maxW + wrapSlack < ↑(s.cur.width + spaceW + word.width) then
        { s.flush with curSpan := none }
      else s
    let spaceW := if s'.cur.pieces.isEmpty then 0 else spaceW
    if word.frags.length == 1 && s'.curSpan == some lead.si && !s'.cur.pieces.isEmpty then
      s'.extend spaceW lead
    else s'.append spans spaceW word

end Flow

def richLines (spans : List Span) (maxWidth : Option ℚ) : List RichLine × ℚ :=
  let maxSize := (spans.map (·.size)).foldl max 1
  let maxW : WithTop ℚ := match maxWidth.filter fun w => 0 < w with
    | some w => w
    | none => ⊤
  let s := (richWords fonts spans).foldl (Flow.addWord fonts spans maxW) ⟨[], ⟨[], 0⟩, none⟩
  let lines := if s.cur.pieces.isEmpty then s.lines else s.lines ++ [s.cur]
  (if lines.isEmpty then [⟨[], 0⟩] else lines, maxSize * (13 / 10))

end Functions

end AtomVibe.Rich
