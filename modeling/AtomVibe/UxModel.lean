import Mathlib.Data.Rat.Defs

namespace AtomVibe.Ux

def clamp (x lo hi : ℚ) : ℚ := if x < lo then lo else if hi < x then hi else x

structure Vec2 where
  x : ℚ
  y : ℚ
  deriving DecidableEq

structure Bounds where
  min : Vec2
  max : Vec2
  deriving DecidableEq

structure Rgba where
  r : ℚ
  g : ℚ
  b : ℚ
  a : ℚ
  deriving DecidableEq, Inhabited

namespace Rgba

def rgb8 (r g b : ℕ) : Rgba := ⟨r / 255, g / 255, b / 255, 1⟩

def withAlpha (color : Rgba) (a : ℚ) : Rgba := { color with a := a }

end Rgba

inductive Dir
  | row
  | column
  deriving DecidableEq

inductive Dim
  | auto
  | px (value : ℚ)
  | flex (weight : ℚ)
  | pct (percent : ℚ)
  deriving DecidableEq

inductive Align
  | start
  | center
  | endAlign
  | stretch
  deriving DecidableEq

inductive Justify
  | start
  | center
  | endJustify
  | spaceBetween
  deriving DecidableEq

structure Edges where
  l : ℚ
  t : ℚ
  r : ℚ
  b : ℚ
  deriving DecidableEq

namespace Edges

def all (v : ℚ) : Edges := ⟨v, v, v, v⟩

def xy (x y : ℚ) : Edges := ⟨x, y, x, y⟩

end Edges

inductive Role
  | none
  | button
  | toggle
  | scroll
  | input
  | slider
  | select
  deriving DecidableEq

structure Shadow where
  dx : ℚ
  dy : ℚ
  blur : ℚ
  color : Rgba
  deriving DecidableEq

structure Span where
  text : List Char
  size : ℚ
  color : Rgba
  background : Option Rgba
  bold : Bool
  underline : Bool
  /-- Painted at its flow position, but without width. -/
  overlay : Bool
  deriving DecidableEq, Inhabited

namespace Span

def plain (text : List Char) (size : ℚ) (color : Rgba) : Span where
  text := text
  size := size
  color := color
  background := none
  bold := false
  underline := false
  overlay := false

end Span

structure TransparencyMaterial where
  strength : ℚ
  deriving DecidableEq

/-- What the interface language and HTML reduce a box to. -/
structure Style where
  dir : Dir
  width : Dim
  height : Dim
  padding : Edges
  margin : Edges
  gap : ℚ
  align : Align
  justify : Justify
  background : Option Rgba
  radius : ℚ
  border : Option (ℚ × Rgba)
  shadow : Option Shadow
  transparency : Option TransparencyMaterial
  id : Option UInt32
  role : Role
  deriving DecidableEq

def Style.col : Style where
  dir := .column
  width := .auto
  height := .auto
  padding := .all 0
  margin := .all 0
  gap := 0
  align := .stretch
  justify := .start
  background := none
  radius := 0
  border := none
  shadow := none
  transparency := none
  id := none
  role := .none

inductive UxNode
  | box (style : Style) (children : List UxNode)
  | text (content : List Char) (size : ℚ) (color : Rgba)
  | rich (spans : List Span) (align : Align)

inductive Painted
  | box (background : Option Rgba) (radius : ℚ) (border : Option (ℚ × Rgba)) (shadow : Option Shadow)
    (transparency : Option TransparencyMaterial)
  | text (content : List Char) (size : ℚ) (color : Rgba)
  | rich (spans : List Span) (align : Align)
  deriving DecidableEq

structure LaidBox where
  rect : Bounds
  kind : Painted
  id : Option UInt32
  role : Role
  clip : Option Bounds
  contentLen : ℚ
  deriving DecidableEq

def contains (b : Bounds) (x y : ℚ) : Bool :=
  b.min.x ≤ x && x < b.max.x && b.min.y ≤ y && y < b.max.y

def hitTest (boxes : List LaidBox) (x y : ℚ) : Option (UInt32 × Role) :=
  boxes.foldl (fun found b =>
    match b.id with
    | none => found
    | some id =>
      if !contains b.rect x y then found
      else if b.clip.any fun clip => !contains clip x y then found
      else some (id, b.role)) none

end AtomVibe.Ux
