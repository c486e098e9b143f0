import AtomVibe.HtmlCss

namespace AtomVibe.Html

open Text Ux

inductive Dom
  | elem (tag : List Char) (attrs : Attrs) (kids : List Dom)
  | text (text : List Char)

def isInline (tag : List Char) : Bool :=
  ["b", "strong", "i", "em", "u", "a", "span", "small", "code", "mark", "br"].contains
    (String.ofList tag)

def isDropped (tag : List Char) : Bool :=
  ["img", "input", "meta", "link", "head", "title"].contains (String.ofList tag)

/-- Elements nested deeper than this have no children of their own. -/
def maxDomDepth : ℕ := 192

def parseNodes : ℕ → List Tok → Option (List Char) → ℕ → Option (List Dom × List Tok)
  | 0, _, _, _ => none
  | _ + 1, [], _, _ => some ([], [])
  | fuel + 1, .close name :: toks, stop, depth =>
    if some name = stop then some ([], toks) else parseNodes fuel toks stop depth
  | fuel + 1, .text t :: toks, stop, depth => do
    let (nodes, toks) ← parseNodes fuel toks stop depth
    return (.text t :: nodes, toks)
  | fuel + 1, .openTag tag attrs selfClose :: toks, stop, depth => do
    let (kids, toks) ←
      if selfClose || maxDomDepth ≤ depth then some ([], toks)
      else parseNodes fuel toks (some tag) (depth + 1)
    let (nodes, toks) ← parseNodes fuel toks stop depth
    return (.elem tag attrs kids :: nodes, toks)

def tagFont (tag : List Char) (base : ℚ) : ℚ :=
  match String.ofList tag with
  | "h1" => 30
  | "h2" => 24
  | "h3" => 18
  | "h4" => 16
  | "small" => max (base * (85 / 100)) 8
  | "code" => max (base * (95 / 100)) 8
  | _ => base

def tagDefaultStyle (tag : List Char) : Style :=
  let s := Style.col
  let list := { s with margin := .xy 0 6, padding := ⟨8, 0, 0, 0⟩, gap := 4 }
  match String.ofList tag with
  | "p" => { s with margin := .xy 0 6 }
  | "h1" => { s with margin := .xy 0 10 }
  | "h2" => { s with margin := .xy 0 8 }
  | "h3" => { s with margin := .xy 0 6 }
  | "h4" => { s with margin := .xy 0 6 }
  | "ul" => list
  | "ol" => list
  | "li" => { s with gap := 2 }
  | _ => s

def makeSpan (text : List Char) (inh : Inherited) : Span where
  text
  size := inh.fontSize
  color := inh.color.withAlpha (inh.color.a * inh.opacity)
  background := none
  bold := inh.bold
  underline := inh.underline
  overlay := false

def sheetsOf (rules : List CssRule) (tag : List Char) (attrs : Attrs) : List (List Char) :=
  (rules.filter fun rule => rule.matchesElem tag attrs).map (·.declarations) ++
    attrs.styleAttr.toList

def inlineInherited (tag : List Char) (inh : Inherited) : Inherited :=
  let inh := { inh with fontSize := tagFont tag inh.fontSize }
  match String.ofList tag with
  | "b" => { inh with bold := true }
  | "strong" => { inh with bold := true }
  | "u" => { inh with underline := true }
  | "a" => { inh with underline := true, color := .rgb8 96 165 250 }
  | "code" => { inh with color := .rgb8 251 191 96 }
  | "mark" => { inh with color := .rgb8 251 191 96 }
  | _ => inh

section Conversion

variable (readF32 : List Char → Option ℚ)

def cascadeInline : List (List Char) → Style → Inherited → Option Inherited
  | [], _, inh => some inh
  | css :: sheets, scratch, inh => do
    let s ← applyCss readF32 scratch inh css
    cascadeInline sheets s.style s.inh

def cascadeBlock : List (List Char) → Style → Inherited → Option (Option (Style × Inherited))
  | [], style, inh => some (some (style, inh))
  | css :: sheets, style, inh => do
    let s ← applyCss readF32 style inh css
    if s.visible then cascadeBlock sheets s.style s.inh else return none

variable (rules : List CssRule)

def inlineSpans (tag : List Char) (attrs : Attrs) (inh : Inherited)
    (inner : Inherited → Option (List Span)) : Option (List Span) := do
  inner (← cascadeInline readF32 (sheetsOf rules tag attrs) .col (inlineInherited tag inh))

mutual

def inlineNode (inh : Inherited) : Dom → Option (List Span)
  | .text t => some [makeSpan t inh]
  | .elem tag attrs kids =>
    if isInline tag && tag ≠ "br".toList then
      inlineSpans readF32 rules tag attrs inh fun inh => inlineNodes inh kids
    else some []

def inlineNodes (inh : Inherited) : List Dom → Option (List Span)
  | [] => some []
  | kid :: kids => do
    let spans ← inlineNode inh kid
    let more ← inlineNodes inh kids
    return spans ++ more

end

structure Flow where
  out : List UxNode := []
  run : List Span := []
  firstFlush : Bool := true

structure FlowContext where
  inh : Inherited
  liMark : Option (List Char)
  flexRow : Bool

def flush (ctx : FlowContext) (s : Flow) : Flow :=
  if s.run.any fun span => !(trimChars span.text).isEmpty then
    let bullet := if s.firstFlush then
      ctx.liMark.map fun text =>
        { Span.plain text ctx.inh.fontSize ctx.inh.color with bold := false }
      else none
    { out := s.out ++ [.rich (bullet.toList ++ s.run) ctx.inh.textAlign]
      run := []
      firstFlush := false }
  else { s with run := [] }

def pushSpans (ctx : FlowContext) (s : Flow) (spans : List Span) : Flow :=
  let s := { s with run := s.run ++ spans }
  if ctx.flexRow then flush ctx s else s

def isHeading (tag : List Char) : Bool := ["h1", "h2", "h3", "h4"].contains (String.ofList tag)

def ruleBox : UxNode :=
  .box { Style.col with
    height := .px 1
    background := some (.rgb8 63 63 70)
    margin := .xy 0 8 } []

def elemToUx (tag : List Char) (attrs : Attrs) (inh : Inherited) (liMark : Option (List Char))
    (inner : FlowContext → Option Flow) : Option (Option UxNode) :=
  if isDropped tag then some none
  else if tag = "hr".toList then some (some ruleBox)
  else do
    let inh := { inh with
      fontSize := tagFont tag inh.fontSize
      bold := isHeading tag || inh.bold }
    match ← cascadeBlock readF32 (sheetsOf rules tag attrs) (tagDefaultStyle tag) inh with
    | none => return none
    | some (style, inh) =>
      let ctx : FlowContext := ⟨inh, liMark, style.dir = .row⟩
      let s ← inner ctx
      return some (.box style (flush ctx s).out)

mutual

def nodeToUx (ctx : FlowContext) (s : Flow) : Dom → Option Flow
  | .text t => some (pushSpans ctx s [makeSpan t ctx.inh])
  | .elem tag attrs inner =>
    if tag = "br".toList then some (flush ctx s)
    else if isInline tag then do
      let spans ← inlineSpans readF32 rules tag attrs ctx.inh fun inh =>
        inlineNodes readF32 rules inh inner
      return pushSpans ctx s spans
    else do
      let s := flush ctx s
      let node ← elemToUx readF32 rules tag attrs ctx.inh
        (if tag = "li".toList then some "• ".toList else none) fun ctx => nodesToUx ctx {} inner
      return { s with out := s.out ++ node.toList }

def nodesToUx (ctx : FlowContext) (s : Flow) : List Dom → Option Flow
  | [] => some s
  | kid :: kids => do nodesToUx ctx (← nodeToUx ctx s kid) kids

end

def childrenToUx (kids : List Dom) (ctx : FlowContext) : Option (List UxNode) :=
  (nodesToUx readF32 rules ctx {} kids).map fun s => (flush ctx s).out

end Conversion

/-- `parse`; a panic, and a loop that does not end, is `none`. -/
def parse (readF32 : List Char → Option ℚ) (src : List Char) : Option UxNode := do
  let rules ← parseCssRules src
  let toks ← tokenize src
  let (roots, _) ← parseNodes (toks.length + 1) toks none 0
  match ← childrenToUx readF32 rules roots ⟨.default, none, false⟩ with
  | [kid] => return kid
  | kids => return .box .col kids

end AtomVibe.Html
