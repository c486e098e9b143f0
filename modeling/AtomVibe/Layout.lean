import AtomVibe.SingleLines

namespace AtomVibe.Layout

open Ux TextWrap Rich

def extent (b : Bounds) : ℚ × ℚ := (b.max.x - b.min.x, b.max.y - b.min.y)

def inset (rect : Bounds) (p : Edges) (border : ℚ) : Bounds where
  min := ⟨rect.min.x + p.l + border, rect.min.y + p.t + border⟩
  max := ⟨rect.max.x - p.r - border, rect.max.y - p.b - border⟩

def clipTo (parent : Option Bounds) (inner : Bounds) : Option Bounds :=
  match parent with
  | none => some inner
  | some p => some
    { min := ⟨max p.min.x inner.min.x, max p.min.y inner.min.y⟩
      max := ⟨min p.max.x inner.max.x, min p.max.y inner.max.y⟩ }

def nodeDim (node : UxNode) (wantWidth : Bool) : Dim :=
  match node with
  | .box style _ => if wantWidth then style.width else style.height
  | _ => .auto

def nodeMargin : UxNode → Edges
  | .box style _ => style.margin
  | _ => .all 0

def borderWidth (style : Style) : ℚ := (style.border.map Prod.fst).getD 0

def padW (style : Style) : ℚ := style.padding.l + style.padding.r + 2 * borderWidth style

def padH (style : Style) : ℚ := style.padding.t + style.padding.b + 2 * borderWidth style

def stacked (gap : ℚ) : List ℚ → ℚ
  | [] => 0
  | [length] => length
  | length :: next :: lengths => length + gap + stacked gap (next :: lengths)

def largest (lengths : List ℚ) : ℚ := lengths.foldl max 0

def gaps (gap : ℚ) (n : ℕ) : ℚ := gap * (n - 1)

section Measure

variable (fonts : Fonts)

def measureText (content : List Char) (size : ℚ) (availW : Option ℚ) : ℚ × ℚ :=
  let single := advance fonts content size
  let lineH := size * (13 / 10)
  match availW with
  | some w =>
    if 0 < w ∧ w < single then (w, (max (wrap fonts content size w).length 1 : ℕ) * lineH)
    else (single, lineH)
  | none => (single, lineH)

def measureRich (spans : List Span) (availW : Option ℚ) : ℚ × ℚ :=
  let (lines, lineH) := richLines fonts spans (availW.filter fun w => 0 < w)
  (largest (lines.map (·.width)), lines.length * lineH)

def selfWidth (style : Style) (availW : Option ℚ) : Option ℚ :=
  match style.width with
  | .px v => some v
  | .pct p => availW.map fun w => max (w * p / 100) 0
  | _ => availW.map fun w => max (w - (style.margin.l + style.margin.r)) 0

def childAvail (style : Style) (availW : Option ℚ) : Option ℚ :=
  match style.dir with
  | .column => (selfWidth style availW).map fun w => max (w - padW style) 0
  | .row => none

def measureBase (inner : ℚ) (ch : UxNode) (first : ℚ × ℚ) : ℚ × ℚ :=
  let m := nodeMargin ch
  let mm := m.l + m.r
  match nodeDim ch true with
  | .px v => (v + mm, 0)
  | .pct p => (p / 100 * inner + mm, 0)
  | .auto => (first.1, 0)
  | .flex f => (mm, f)

def measureShares (style : Style) (inner : ℚ) (children : List UxNode) (firsts : List (ℚ × ℚ)) :
    List ℚ :=
  let solved := children.zipWith (measureBase inner) firsts
  let sumBase := (solved.map Prod.fst).sum
  let sumFlex := (solved.map Prod.snd).sum
  let free := max (inner - sumBase - gaps style.gap children.length) 0
  solved.map fun (base, weight) => base + if 0 < sumFlex then free * weight / sumFlex else 0

def boxSize (style : Style) (firsts : List (ℚ × ℚ)) (heights : Option (List ℚ)) : ℚ × ℚ :=
  let (iw, ih) := match style.dir with
    | .row => (stacked style.gap (firsts.map Prod.fst),
        largest (heights.getD (firsts.map Prod.snd)))
    | .column => (largest (firsts.map Prod.fst), stacked style.gap (firsts.map Prod.snd))
  let w := match style.width with
    | .px v => v
    | _ => iw + padW style
  let h := match style.height with
    | .px v => v
    | _ => ih + padH style
  (w + style.margin.l + style.margin.r, h + style.margin.t + style.margin.b)

mutual

def measure : UxNode → Option ℚ → ℚ × ℚ
  | .text content size _, availW => measureText fonts content size availW
  | .rich spans _, availW => measureRich fonts spans availW
  | .box style children, availW =>
    let firsts := measureAll children (childAvail style availW)
    let heights := match style.dir, selfWidth style availW with
      | .row, some w => some (measureAgain children firsts
          (measureShares style (max (w - padW style) 0) children firsts))
      | _, _ => none
    boxSize style firsts heights

def measureAll : List UxNode → Option ℚ → List (ℚ × ℚ)
  | [], _ => []
  | ch :: children, availW => measure ch availW :: measureAll children availW

def measureAgain : List UxNode → List (ℚ × ℚ) → List ℚ → List ℚ
  | ch :: children, first :: firsts, share :: shares =>
    (if nodeDim ch true = .auto then first.2 else (measure ch (some share)).2) ::
      measureAgain children firsts shares
  | _, _, _ => []

end

def layoutBase (style : Style) (mainExtent crossExtent : ℚ) (ch : UxNode) : ℚ × ℚ :=
  let row := style.dir = .row
  let measured := measure fonts ch (if row then none else some crossExtent)
  let m := nodeMargin ch
  let mMain := if row then m.l + m.r else m.t + m.b
  match nodeDim ch row with
  | .px v => (v + mMain, 0)
  | .pct p => (p / 100 * mainExtent + mMain, 0)
  | .auto => (if row then measured.1 else measured.2, 0)
  | .flex w => (mMain, w)

def freeExtent (style : Style) (children : List UxNode) (mainExtent crossExtent : ℚ) : ℚ :=
  let solved := children.map (layoutBase fonts style mainExtent crossExtent)
  max (mainExtent - (solved.map Prod.fst).sum - gaps style.gap children.length) 0

def sumFlex (style : Style) (children : List UxNode) (mainExtent crossExtent : ℚ) : ℚ :=
  ((children.map (layoutBase fonts style mainExtent crossExtent)).map Prod.snd).sum

def mainSize (style : Style) (children : List UxNode) (mainExtent crossExtent : ℚ) (ch : UxNode) :
    ℚ :=
  let (base, weight) := layoutBase fonts style mainExtent crossExtent ch
  let sum := sumFlex fonts style children mainExtent crossExtent
  if 0 < sum then base + freeExtent fonts style children mainExtent crossExtent * (weight / sum)
  else base

def crossSize (style : Style) (crossExtent main : ℚ) (ch : UxNode) : ℚ :=
  let row := style.dir = .row
  let measured := measure fonts ch (some (if row then main else crossExtent))
  let m := nodeMargin ch
  let mCross := if row then m.t + m.b else m.l + m.r
  match nodeDim ch (¬row) with
  | .px v => v + mCross
  | .pct p => p / 100 * crossExtent + mCross
  | _ => if style.align = .stretch then crossExtent else if row then measured.2 else measured.1

def justifyOffsets (j : Justify) (free : ℚ) (n : ℕ) : ℚ × ℚ :=
  match j with
  | .start => (0, 0)
  | .center => (free / 2, 0)
  | .endJustify => (free, 0)
  | .spaceBetween => if 1 < n then (0, free / (n - 1)) else (0, 0)

def alignPos (a : Align) (crossStart crossExtent itemCross : ℚ) : ℚ :=
  match a with
  | .start | .stretch => crossStart
  | .center => crossStart + (crossExtent - itemCross) / 2
  | .endAlign => crossStart + (crossExtent - itemCross)

def placeFrom (style : Style) (crossStart crossExtent between : ℚ) (main cross : UxNode → ℚ) :
    ℚ → List UxNode → List Bounds
  | _, [] => []
  | cursor, ch :: children =>
    let pos := alignPos style.align crossStart crossExtent (cross ch)
    (if style.dir = .row then ⟨⟨cursor, pos⟩, ⟨cursor + main ch, pos + cross ch⟩⟩
      else ⟨⟨pos, cursor⟩, ⟨pos + cross ch, cursor + main ch⟩⟩) ::
      placeFrom style crossStart crossExtent between main cross
        (cursor + (main ch + style.gap + between)) children

def childRects (style : Style) (children : List UxNode) (content : Bounds) : List Bounds :=
  let (cw, chh) := extent content
  let row := style.dir = .row
  let mainExtent := if row then cw else chh
  let crossExtent := if row then chh else cw
  let main := mainSize fonts style children mainExtent crossExtent
  let sum := sumFlex fonts style children mainExtent crossExtent
  let leftover := if 0 < sum then 0 else freeExtent fonts style children mainExtent crossExtent
  let (lead, between) := justifyOffsets style.justify leftover children.length
  placeFrom style (if row then content.min.y else content.min.x) crossExtent between main
    (fun ch => crossSize fonts style crossExtent (main ch) ch)
    ((if row then content.min.x else content.min.y) + lead) children

def scrollContentHeight (children : List UxNode) (width gap : ℚ) : ℚ :=
  stacked gap (children.map fun ch => (measure fonts ch (some width)).2)

def scrollRects (content : Bounds) (gap : ℚ) : ℚ → List UxNode → List Bounds
  | _, [] => []
  | cursor, ch :: children =>
    let cw := (extent content).1
    let chh := (measure fonts ch (some cw)).2
    ⟨⟨content.min.x, cursor⟩, ⟨content.min.x + cw, cursor + chh⟩⟩ ::
      scrollRects content gap (cursor + (chh + gap)) children

def paintedBox (style : Style) : Painted :=
  .box style.background style.radius style.border style.shadow style.transparency

def scrollOffset (scroll : UInt32 → ℚ) (style : Style) (rect : Bounds) (contentLen : ℚ) : ℚ :=
  let viewH := rect.max.y - rect.min.y
  clamp ((style.id.map scroll).getD 0) 0 (max (contentLen - viewH) 0)

mutual

def layoutNode (scroll : UInt32 → ℚ) : UxNode → Bounds → Option Bounds → List LaidBox
  | .text content size color, rect, clip => [⟨rect, .text content size color, none, .none, clip, 0⟩]
  | .rich spans align, rect, clip => [⟨rect, .rich spans align, none, .none, clip, 0⟩]
  | .box style children, outer, clip =>
    let rect := inset outer style.margin 0
    let content := inset rect style.padding (borderWidth style)
    if style.role = .scroll then
      let contentLen := scrollContentHeight fonts children (extent content).1 style.gap
      ⟨rect, paintedBox style, style.id, style.role, clip, contentLen⟩ ::
        layoutEach scroll children
          (scrollRects fonts content style.gap
            (content.min.y - scrollOffset scroll style rect contentLen) children)
          (clipTo clip rect)
    else
      ⟨rect, paintedBox style, style.id, style.role, clip, 0⟩ ::
        layoutEach scroll children (childRects fonts style children content) clip

def layoutEach (scroll : UInt32 → ℚ) :
    List UxNode → List Bounds → Option Bounds → List LaidBox
  | ch :: children, rect :: rects, clip =>
    layoutNode scroll ch rect clip ++ layoutEach scroll children rects clip
  | _, _, _ => []

end

def solve (root : UxNode) (viewport : Bounds) (scroll : UInt32 → ℚ) : List LaidBox :=
  layoutNode fonts scroll root viewport none

end Measure

end AtomVibe.Layout

namespace AtomVibe.Layout

open Ux TextWrap Rich

def width (b : Bounds) : ℚ := (extent b).1

def height (b : Bounds) : ℚ := (extent b).2

def contentRect (style : Style) (rect : Bounds) : Bounds :=
  inset (inset rect style.margin 0) style.padding (borderWidth style)

section Needed

variable (fonts : Fonts)

mutual

/-- The height a node needs in a rectangle: text and rich text as they are painted, boxes from
what their children need in the rectangles that are theirs. -/
def neededHeight : UxNode → Bounds → ℚ
  | .text content size _, rect =>
    (wrap fonts content size (width rect)).length * (size * (13 / 10))
  | .rich spans _, rect =>
    let (lines, lineH) := richLines fonts spans (some (width rect))
    lines.length * lineH
  | .box style children, rect =>
    let heights := neededEach children (childRects fonts style children (contentRect style rect))
    (match style.dir with
      | .column => stacked style.gap heights
      | .row => largest heights) + padH style + (style.margin.t + style.margin.b)

def neededEach : List UxNode → List Bounds → List ℚ
  | ch :: children, rect :: rects => neededHeight ch rect :: neededEach children rects
  | _, _ => []

end

def Apart (dir : Dir) (a b : Bounds) : Prop :=
  match dir with
  | .row => a.max.x ≤ b.min.x
  | .column => a.max.y ≤ b.min.y

mutual

def Clear : UxNode → Bounds → Prop
  | .text content size color, rect => neededHeight fonts (.text content size color) rect ≤ height rect
  | .rich spans align, rect => neededHeight fonts (.rich spans align) rect ≤ height rect
  | .box style children, rect =>
    (childRects fonts style children (contentRect style rect)).IsChain (Apart style.dir) ∧
      ClearEach children (childRects fonts style children (contentRect style rect))

def ClearEach : List UxNode → List Bounds → Prop
  | ch :: children, rect :: rects => Clear ch rect ∧ ClearEach children rects
  | _, _ => True

end

end Needed

inductive HasBox (style : Style) : UxNode → Prop
  | root (children : List UxNode) : HasBox style (.box style children)
  | child {outer : Style} {children : List UxNode} {ch : UxNode} (hch : ch ∈ children)
    (h : HasBox style ch) : HasBox style (.box outer children)

/-- A box of automatic height that stretches its children, no scroll region, with no negative
length. -/
structure Plain (style : Style) : Prop where
  height : style.height = .auto
  align : style.align = .stretch
  role : style.role ≠ .scroll
  padding : 0 ≤ style.padding.l ∧ 0 ≤ style.padding.t ∧ 0 ≤ style.padding.r ∧ 0 ≤ style.padding.b
  margin : 0 ≤ style.margin.l ∧ 0 ≤ style.margin.t ∧ 0 ≤ style.margin.r ∧ 0 ≤ style.margin.b
  border : 0 ≤ borderWidth style
  gap : 0 ≤ style.gap
  flex : ∀ weight, style.width = .flex weight → 0 < weight

structure Wide (style : Style) : Prop where
  px : ∀ v, style.width = .px v → 0 ≤ v
  pct : ∀ p, style.width = .pct p → 0 ≤ p

def Resolves (root : UxNode) (w : ℚ) : Prop :=
  match nodeDim root true with
  | .px v => v + ((nodeMargin root).l + (nodeMargin root).r) = w
  | .pct p => p / 100 * w + ((nodeMargin root).l + (nodeMargin root).r) = w
  | _ => True

inductive Sizing
  | given
  | own

def isFlex (ch : UxNode) : Bool :=
  match nodeDim ch true with
  | .flex _ => true
  | _ => false

/-- Where measuring looks at every part at the width it is given. What has a width of its own is
not looked at again when a row gives it that width. -/
inductive Settles (fonts : Fonts) : Sizing → UxNode → Prop
  | text {sizing : Sizing} {content : List Char} {size : ℚ} {color : Rgba}
    (h : OneLine fonts content size) : Settles fonts sizing (.text content size color)
  | rich {sizing : Sizing} {spans : List Span} {align : Align} :
    Settles fonts sizing (.rich spans align)
  | column {style : Style} {children : List UxNode} (hdir : style.dir = .column)
    (h : ∀ ch ∈ children, Settles fonts .given ch) : Settles fonts .given (.box style children)
  | row {style : Style} {children : List UxNode} (hdir : style.dir = .row)
    (hpct : ∀ ch ∈ children, ∀ p, nodeDim ch true ≠ .pct p)
    (hown : ∀ ch ∈ children, nodeDim ch true = .auto → Settles fonts .own ch)
    (hgiven : ∀ ch ∈ children, nodeDim ch true ≠ .auto → Settles fonts .given ch) :
    Settles fonts .given (.box style children)
  | px {style : Style} {children : List UxNode} {v : ℚ} (hpx : style.width = .px v)
    (h : Settles fonts .given (.box style children)) : Settles fonts .own (.box style children)
  | ownColumn {style : Style} {children : List UxNode} (hwidth : ∀ v, style.width ≠ .px v)
    (hdir : style.dir = .column)
    (hpct : ∀ ch ∈ children, ∀ p, nodeDim ch true = .pct p → 100 ≤ p)
    (h : ∀ ch ∈ children, Settles fonts .own ch) : Settles fonts .own (.box style children)
  | ownRow {style : Style} {children : List UxNode} (hwidth : ∀ v, style.width ≠ .px v)
    (hdir : style.dir = .row) (hpct : ∀ ch ∈ children, ∀ p, nodeDim ch true ≠ .pct p)
    (hflex : (children.filter isFlex).length ≤ 1)
    (h : ∀ ch ∈ children, Settles fonts .own ch) : Settles fonts .own (.box style children)

end AtomVibe.Layout
