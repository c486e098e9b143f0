import AtomVibe.HtmlTokens
import AtomVibe.UxModel
import Mathlib.Data.Rat.Floor

namespace AtomVibe.Html

open Text Ux

structure CssSelector where
  tag : Option (List Char)
  id : Option (List Char)
  classes : List (List Char)
  deriving DecidableEq

structure CssRule where
  selectors : List CssSelector
  declarations : List Char
  deriving DecidableEq

namespace CssSelector

def matchesElem (selector : CssSelector) (tag : List Char) (attrs : Attrs) : Bool :=
  selector.tag.all (· = tag) && selector.id.all (attrs.idAttr = some ·) &&
    (selector.classes.isEmpty ||
      selector.classes.all fun want => (splitWhitespace (attrs.classAttr.getD [])).contains want)

end CssSelector

namespace CssRule

def matchesElem (rule : CssRule) (tag : List Char) (attrs : Attrs) : Bool :=
  rule.selectors.any fun selector => selector.matchesElem tag attrs

end CssRule

def isSelectorIdent (ch : Char) : Bool := isAsciiAlphanumeric ch || ch = '-' || ch = '_'

def selectorFrom (chars : List Char) : ℕ → ℕ → CssSelector → Option (Option CssSelector)
  | 0, _, _ => none
  | fuel + 1, i, selector =>
    match chars[i]? with
    | none =>
      some (if selector.tag.isNone && selector.id.isNone && selector.classes.isEmpty then none
        else some selector)
    | some ch =>
      if ch = '#' then do
        let stop := skipWhile isSelectorIdent chars (i + 1)
        if i + 1 = stop || selector.id.isSome then return none
        let id ← between chars (i + 1) stop
        selectorFrom chars fuel stop { selector with id := some id }
      else if ch = '.' then do
        let stop := skipWhile isSelectorIdent chars (i + 1)
        if i + 1 = stop then return none
        let name ← between chars (i + 1) stop
        selectorFrom chars fuel stop { selector with classes := selector.classes ++ [name] }
      else if isSelectorIdent ch then do
        let stop := skipWhile isSelectorIdent chars i
        if selector.tag.isSome then return none
        let tag ← between chars i stop
        selectorFrom chars fuel stop { selector with tag := some (lower tag) }
      else some none

def parseSelector (raw : List Char) : Option (Option CssSelector) :=
  let selector := trimChars raw
  if selector.isEmpty || selector.head? = some '@' ||
      selector.any fun ch => isWhitespace ch || ":[]>+~*".toList.contains ch then some none
  else selectorFrom selector (selector.length + 1) 0 ⟨none, none, []⟩

def stripCommentsFrom (input : List Char) : ℕ → ℕ → List Char → Option (List Char)
  | 0, _, _ => none
  | fuel + 1, search, out =>
    if utf8Len input ≤ search then some out
    else do
      let rest ← sliceFrom input search
      match findStr "/*".toList rest with
      | none => return out ++ rest
      | some offset =>
        let start := search + offset
        let kept ← checkedSlice input search start
        let comment ← sliceFrom input (start + 2)
        match findStr "*/".toList comment with
        | none => return out ++ kept
        | some offset => stripCommentsFrom input fuel (start + 2 + offset + 2) (out ++ kept)

def stripCssComments (input : List Char) : Option (List Char) :=
  stripCommentsFrom input (utf8Len input + 1) 0 []

def cssBlockFrom (css : List Char) : ℕ → ℕ → List CssRule → Option (List CssRule)
  | 0, _, _ => none
  | fuel + 1, search, out =>
    if utf8Len css ≤ search then some out
    else do
      let rest ← sliceFrom css search
      match findChar '\x7b' rest with
      | none => return out
      | some offset =>
        let start := search + offset
        let inside ← sliceFrom css (start + 1)
        match findChar '\x7d' inside with
        | none => return out
        | some offset =>
          let close := start + 1 + offset
          let selectors ← (splitOn ',' (← checkedSlice css search start)).mapM parseSelector
          let selectors := selectors.filterMap id
          let declarations := trimChars (← checkedSlice css (start + 1) close)
          cssBlockFrom css fuel (close + 1)
            (if !selectors.isEmpty && !declarations.isEmpty then out ++ [⟨selectors, declarations⟩]
            else out)

def parseCssBlock (block : List Char) : Option (List CssRule) := do
  let css ← stripCssComments block
  cssBlockFrom css (utf8Len css + 1) 0 []

def parseCssRules (src : List Char) : Option (List CssRule) := do
  let blocks ← styleBlocks src
  let rules ← blocks.mapM fun block => parseCssBlock block.text
  return rules.flatten

structure Inherited where
  color : Rgba
  fontSize : ℚ
  bold : Bool
  underline : Bool
  textAlign : Align
  opacity : ℚ
  deriving DecidableEq

def Inherited.default : Inherited where
  color := .rgb8 228 232 240
  fontSize := 14
  bold := false
  underline := false
  textAlign := .start
  opacity := 1

def namedColors : List (String × ℕ × ℕ × ℕ × ℕ) :=
  [("transparent", 0, 0, 0, 0), ("white", 255, 255, 255, 255), ("black", 0, 0, 0, 255),
    ("gray", 128, 128, 128, 255), ("grey", 128, 128, 128, 255), ("silver", 192, 192, 192, 255),
    ("lightgray", 211, 211, 211, 255), ("lightgrey", 211, 211, 211, 255),
    ("darkgray", 169, 169, 169, 255), ("darkgrey", 169, 169, 169, 255),
    ("dimgray", 105, 105, 105, 255), ("dimgrey", 105, 105, 105, 255),
    ("slategray", 112, 128, 144, 255), ("slategrey", 112, 128, 144, 255),
    ("whitesmoke", 245, 245, 245, 255), ("red", 220, 70, 70, 255), ("darkred", 139, 0, 0, 255),
    ("crimson", 220, 20, 60, 255), ("salmon", 250, 128, 114, 255), ("coral", 255, 127, 80, 255),
    ("orange", 255, 165, 0, 255), ("gold", 255, 215, 0, 255), ("yellow", 250, 204, 21, 255),
    ("khaki", 240, 230, 140, 255), ("green", 60, 190, 120, 255), ("darkgreen", 0, 100, 0, 255),
    ("lime", 132, 204, 22, 255), ("olive", 128, 128, 0, 255), ("teal", 20, 184, 166, 255),
    ("cyan", 34, 211, 238, 255), ("aqua", 34, 211, 238, 255), ("turquoise", 64, 224, 208, 255),
    ("blue", 80, 140, 230, 255), ("navy", 0, 0, 128, 255), ("royalblue", 65, 105, 225, 255),
    ("skyblue", 135, 206, 235, 255), ("steelblue", 70, 130, 180, 255),
    ("indigo", 99, 102, 241, 255), ("purple", 168, 85, 247, 255), ("violet", 238, 130, 238, 255),
    ("magenta", 232, 121, 249, 255), ("fuchsia", 232, 121, 249, 255), ("pink", 244, 114, 182, 255),
    ("orchid", 218, 112, 214, 255), ("plum", 221, 160, 221, 255), ("brown", 165, 42, 42, 255),
    ("maroon", 128, 0, 0, 255), ("tan", 210, 180, 140, 255), ("beige", 245, 245, 220, 255),
    ("ivory", 255, 255, 240, 255), ("rebeccapurple", 102, 51, 153, 255)]

def namedColor (s : List Char) : Option Rgba :=
  (namedColors.find? fun named => named.1.toList = s).map fun (_, r, g, b, a) =>
    ⟨r / 255, g / 255, b / 255, a / 255⟩

def remEuclid (x m : ℚ) : ℚ := x - m * ⌊x / m⌋

def hslToRgba (h s l a : ℚ) : Rgba :=
  let h := remEuclid h 360 / 60
  let c := (1 - |2 * l - 1|) * s
  let x := c * (1 - |remEuclid h 2 - 1|)
  let (r, g, b) : ℚ × ℚ × ℚ :=
    match ⌊h⌋.toNat with
    | 0 => (c, x, 0)
    | 1 => (x, c, 0)
    | 2 => (0, c, x)
    | 3 => (0, x, c)
    | 4 => (x, 0, c)
    | _ => (c, 0, x)
  let m := l - c / 2
  ⟨r + m, g + m, b + m, a⟩

def hexDup (hex : List Char) (i : ℕ) : Option (Option ℕ) := do
  let digit ← checkedSlice hex i (i + 1)
  return fromStrRadix 16 256 (digit ++ digit)

def hexTwo (hex : List Char) (i : ℕ) : Option (Option ℕ) := do
  let digits ← checkedSlice hex i (i + 2)
  return fromStrRadix 16 256 digits

def hexChannels (read : ℕ → Option (Option ℕ)) : List ℕ → Option (Option (List ℕ))
  | [] => some (some [])
  | i :: is => do
    match ← read i with
    | none => return none
    | some channel =>
      let rest ← hexChannels read is
      return rest.map (channel :: ·)

def rgbaOfChannels : List ℕ → Option Rgba
  | [r, g, b] => some (.rgb8 r g b)
  | [r, g, b, a] => some ((Rgba.rgb8 r g b).withAlpha (a / 255))
  | _ => none

def parseHex (hex : List Char) : Option (Option Rgba) := do
  if !hex.all fun c => c.toNat < 128 then return none
  let channels ← match utf8Len hex with
    | 3 => hexChannels (hexDup hex) [0, 1, 2]
    | 4 => hexChannels (hexDup hex) [0, 1, 2, 3]
    | 6 => hexChannels (hexTwo hex) [0, 2, 4]
    | 8 => hexChannels (hexTwo hex) [0, 2, 4, 6]
    | _ => some none
  return channels.bind rgbaOfChannels

def colorArgs (start : String) (s : List Char) : Option (List (List Char)) :=
  ((stripStart start s).bind (stripEnd ")")).map fun inner =>
    (((inner.splitOnP fun c => c = ',' || c = '/').flatMap splitWhitespace).map trimChars).filter
      fun part => !part.isEmpty

section Values

-- `readF32` is `str::parse::<f32>().ok()`.
variable (readF32 : List Char → Option ℚ)

def parseF32 (s : List Char) : Option ℚ := readF32 (trimChars s)

def parsePx (s : List Char) : Option ℚ :=
  let s := trimChars s
  readF32 (trimChars (((stripEnd "px" s).or (stripEnd "pt" s)).getD s))

def parseDim (s : List Char) : Dim :=
  let s := trimChars s
  if s = "auto".toList then .auto
  else match (stripEnd "%" s).bind fun v => readF32 (trimChars v) with
    | some p => .pct p
    | none => match parsePx readF32 s with
      | some p => .px p
      | none => .auto

def parseEdges (s : List Char) : Option Edges :=
  match (splitWhitespace s).filterMap (parsePx readF32) with
  | [v] => some (.all v)
  | [v, w] => some (.xy w v)
  | [t, r, b] => some ⟨r, t, r, b⟩
  | [t, r, b, l] => some ⟨l, t, r, b⟩
  | _ => none

def setEdge (edges : Edges) (val : List Char) (side : Edges → ℚ → Edges) : Edges :=
  match parsePx readF32 val with
  | some p => side edges p
  | none => edges

def rgbChannel (p : List Char) : Option ℚ :=
  match stripEnd "%" p with
  | some pc => (readF32 pc).map fun v => v / 100 * 255
  | none => readF32 p

def rgbFunction (r g b : List Char) (more : List (List Char)) : Option Rgba := do
  let r ← rgbChannel readF32 r
  let g ← rgbChannel readF32 g
  let b ← rgbChannel readF32 b
  let a ← match more with
    | [] => some 1
    | p :: _ =>
      if (stripEnd "%" p).isSome then (readF32 (trimEnd '%' p)).map (· / 100) else readF32 p
  return ⟨clamp (r / 255) 0 1, clamp (g / 255) 0 1, clamp (b / 255) 0 1, clamp a 0 1⟩

def hslFunction (h s l : List Char) (more : List (List Char)) : Option Rgba := do
  let h ← readF32 (trimEndStr "deg" h)
  let s ← readF32 (trimEnd '%' s)
  let l ← readF32 (trimEnd '%' l)
  let a := (more.head?.bind fun p =>
    (readF32 (trimEnd '%' p)).map fun v => if (stripEnd "%" p).isSome then v / 100 else v).getD 1
  return hslToRgba h (s / 100) (l / 100) a

def parseColor (s : List Char) : Option (Option Rgba) :=
  let s := lower (trimChars s)
  match stripStart "#" s with
  | some hex => parseHex hex
  | none =>
    match (colorArgs "rgba(" s).or (colorArgs "rgb(" s) with
    | some (r :: g :: b :: more) => some (rgbFunction readF32 r g b more)
    | _ => match (colorArgs "hsla(" s).or (colorArgs "hsl(" s) with
      | some (h :: sa :: l :: more) => some (hslFunction readF32 h sa l more)
      | _ => some (namedColor s)

def pullColor (rest : List Char) : Option (List Char × List Char) :=
  match findChar '(' rest, rfindWhere (· = ')') rest with
  | some start, some close =>
    if start < close then do
      let front ← checkedSlice rest 0 start
      let start := ((rfindWhere isWhitespace front).map (· + 1)).getD 0
      let color ← checkedSlice rest start (close + 1)
      let rest ← replaceRange rest start (close + 1) [' ']
      return (rest, color)
    else some (rest, [])
  | _, _ => some (rest, [])

def shadowPart (s : List ℚ × List Char) (p : List Char) : List ℚ × List Char :=
  let numericStart := p.head?.any fun c => isAsciiDigit c || c = '-' || c = '.'
  match if numericStart then parsePx readF32 p else none with
  | some v => (s.1 ++ [v], s.2)
  | none => (s.1, (if s.2.isEmpty then s.2 else s.2 ++ [' ']) ++ p)

def parseShadow (s : List Char) : Option (Option Shadow) := do
  let (rest, color) ← pullColor (trimChars s)
  let (nums, color) := (splitWhitespace rest).foldl (shadowPart readF32) ([], color)
  match nums with
  | dx :: dy :: more =>
    let color ← parseColor readF32 (trimChars color)
    return some ⟨dx, dy, max (more.head?.getD 0) (1 / 2), color.getD ⟨0, 0, 0, 35 / 100⟩⟩
  | _ => return none

structure Cascade where
  style : Style
  inh : Inherited
  visible : Bool
  deriving DecidableEq

namespace Cascade

variable (s : Cascade)

def setBackground (color : Option Rgba) : Cascade :=
  { s with style := { s.style with background := color.or s.style.background } }

def setPadding (padding : Edges) : Cascade := { s with style := { s.style with padding } }

def setMargin (margin : Edges) : Cascade := { s with style := { s.style with margin } }

end Cascade

def splitDecl (decl : List Char) : List Char × Option (List Char) :=
  let (key, val) := splitFirst (· = ':') decl
  (lower (trimChars key), val.map trimChars)

def setDisplay (s : Cascade) (lval : List Char) : Cascade :=
  match String.ofList lval with
  | "none" => { s with visible := false }
  | "flex" => { s with style := { s.style with dir := .row } }
  | _ => { s with style := { s.style with dir := .column } }

def setFlex (s : Cascade) (val lval : List Char) : Cascade :=
  if lval = "none".toList then { s with style := { s.style with width := .auto, height := .auto } }
  else match ((splitWhitespace val).head?.bind (parseF32 readF32)).or
      (if lval = "auto".toList then some 1 else none) with
    | some n => { s with style := { s.style with width := .flex n, height := .flex n } }
    | none => s

def setBorder (s : Cascade) (val lval : List Char) : Option Cascade :=
  if lval = "none".toList then some { s with style := { s.style with border := none } }
  else match splitWhitespace val with
    | w :: _ :: c :: more => do
      match parsePx readF32 w, ← parseColor readF32 ([' '].intercalate (c :: more)) with
      | some w, some c => return { s with style := { s.style with border := some (w, c) } }
      | _, _ => return s
    | _ => some s

def setShadow (s : Cascade) (val lval : List Char) : Option Cascade :=
  if lval = "none".toList then some { s with style := { s.style with shadow := none } }
  else do
    match ← parseShadow readF32 val with
    | some shadow => return { s with style := { s.style with shadow := some shadow } }
    | none => return s

def alignOf (lval : List Char) : Align :=
  match String.ofList lval with
  | "center" => .center
  | "flex-end" => .endAlign
  | "end" => .endAlign
  | "flex-start" => .start
  | "start" => .start
  | _ => .stretch

def textAlignOf (lval : List Char) : Align :=
  match String.ofList lval with
  | "center" => .center
  | "right" => .endAlign
  | "end" => .endAlign
  | _ => .start

def justifyOf (lval : List Char) : Justify :=
  match String.ofList lval with
  | "center" => .center
  | "flex-end" => .endJustify
  | "end" => .endJustify
  | "space-between" => .spaceBetween
  | _ => .start

def applyDecl (s : Cascade) (key val : List Char) : Option Cascade :=
  let lval := lower val
  match String.ofList key with
  | "display" => some (setDisplay s lval)
  | "flex-direction" =>
    some { s with style := { s.style with
      dir := if (stripStart "row" lval).isSome then .row else .column } }
  | "flex" => some (setFlex readF32 s val lval)
  | "flex-grow" => some (setFlex readF32 s val lval)
  | "width" => some { s with style := { s.style with width := parseDim readF32 val } }
  | "height" => some { s with style := { s.style with height := parseDim readF32 val } }
  | "padding" => some (s.setPadding ((parseEdges readF32 val).getD s.style.padding))
  | "padding-left" => some (s.setPadding (setEdge readF32 s.style.padding val ({ · with l := · })))
  | "padding-top" => some (s.setPadding (setEdge readF32 s.style.padding val ({ · with t := · })))
  | "padding-right" => some (s.setPadding (setEdge readF32 s.style.padding val ({ · with r := · })))
  | "padding-bottom" => some (s.setPadding (setEdge readF32 s.style.padding val ({ · with b := · })))
  | "margin" => some (s.setMargin ((parseEdges readF32 val).getD s.style.margin))
  | "margin-left" => some (s.setMargin (setEdge readF32 s.style.margin val ({ · with l := · })))
  | "margin-top" => some (s.setMargin (setEdge readF32 s.style.margin val ({ · with t := · })))
  | "margin-right" => some (s.setMargin (setEdge readF32 s.style.margin val ({ · with r := · })))
  | "margin-bottom" => some (s.setMargin (setEdge readF32 s.style.margin val ({ · with b := · })))
  | "gap" => some { s with style := { s.style with gap := (parsePx readF32 val).getD s.style.gap } }
  | "background" => (parseColor readF32 val).map s.setBackground
  | "background-color" => (parseColor readF32 val).map s.setBackground
  | "border-radius" =>
    some { s with style := { s.style with radius := (parsePx readF32 val).getD s.style.radius } }
  | "border" => setBorder readF32 s val lval
  | "box-shadow" => setShadow readF32 s val lval
  | "color" => (parseColor readF32 val).map fun c =>
    { s with inh := { s.inh with color := c.getD s.inh.color } }
  | "font-size" =>
    some { s with inh := { s.inh with fontSize := (parsePx readF32 val).getD s.inh.fontSize } }
  | "font-weight" =>
    some { s with inh := { s.inh with
      bold := lval = "bold".toList || lval = "bolder".toList || (readF32 lval).any (600 ≤ ·) } }
  | "text-decoration" =>
    some { s with inh := { s.inh with underline := Text.contains "underline".toList lval } }
  | "text-decoration-line" =>
    some { s with inh := { s.inh with underline := Text.contains "underline".toList lval } }
  | "text-align" => some { s with inh := { s.inh with textAlign := textAlignOf lval } }
  | "opacity" =>
    some { s with inh := { s.inh with
      opacity := ((parseF32 readF32 val).map (clamp · 0 1)).getD s.inh.opacity } }
  | "align-items" => some { s with style := { s.style with align := alignOf lval } }
  | "justify-content" => some { s with style := { s.style with justify := justifyOf lval } }
  | _ => some s

def dim (s : Cascade) : Cascade :=
  let o := s.inh.opacity
  if o < 1 then
    { s with style := { s.style with
      background := s.style.background.map fun bg => bg.withAlpha (bg.a * o)
      border := s.style.border.map fun (w, c) => (w, c.withAlpha (c.a * o))
      shadow := s.style.shadow.map fun sh =>
        { sh with color := sh.color.withAlpha (sh.color.a * o) } } }
  else s

def applyDecls : List (List Char) → Cascade → Option Cascade
  | [], s => some s
  | decl :: decls, s => do
    let (key, val) := splitDecl decl
    match val with
    | none => applyDecls decls s
    | some val => applyDecls decls (← applyDecl readF32 s key val)

def applyCss (style : Style) (inh : Inherited) (css : List Char) : Option Cascade :=
  (applyDecls readF32 (splitOn ';' css) ⟨style, inh, true⟩).map dim

end Values

end AtomVibe.Html
