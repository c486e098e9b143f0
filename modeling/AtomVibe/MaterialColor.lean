import AtomVibe.UxModel
import Mathlib.Algebra.Order.Field.Rat

namespace AtomVibe.Material

open Ux (clamp)

structure Rgb where
  r : ℚ
  g : ℚ
  b : ℚ
  deriving DecidableEq

namespace Rgb

def sanitized (c : Rgb) : Rgb := ⟨max c.r 0, max c.g 0, max c.b 0⟩

def clamp01 (c : Rgb) : Rgb :=
  let c := c.sanitized
  ⟨min c.r 1, min c.g 1, min c.b 1⟩

def scale (c : Rgb) (value : ℚ) : Rgb := ⟨c.r * value, c.g * value, c.b * value⟩

def multiply (c other : Rgb) : Rgb := ⟨c.r * other.r, c.g * other.g, c.b * other.b⟩

def plus (c other : Rgb) : Rgb := ⟨c.r + other.r, c.g + other.g, c.b + other.b⟩

def mix (c other : Rgb) (amount : ℚ) : Rgb :=
  let t := clamp amount 0 1
  (c.scale (1 - t)).plus (other.scale t)

end Rgb

structure PremulRgba where
  rgb : Rgb
  a : ℚ
  deriving DecidableEq

namespace PremulRgba

def transparent : PremulRgba := ⟨⟨0, 0, 0⟩, 0⟩

def sanitized (c : PremulRgba) : PremulRgba :=
  let alpha := clamp c.a 0 1
  let rgb := c.rgb.sanitized
  ⟨⟨min rgb.r alpha, min rgb.g alpha, min rgb.b alpha⟩, alpha⟩

end PremulRgba

structure StraightRgba where
  rgb : Rgb
  a : ℚ
  deriving DecidableEq

def StraightRgba.premultiply (c : StraightRgba) : PremulRgba :=
  let alpha := clamp c.a 0 1
  ⟨c.rgb.clamp01.scale alpha, alpha⟩

def PremulRgba.toStraight (c : PremulRgba) : StraightRgba :=
  let value := c.sanitized
  if value.a ≤ 1 / 10 ^ 8 then ⟨⟨0, 0, 0⟩, 0⟩
  else ⟨(value.rgb.scale (1 / value.a)).clamp01, value.a⟩

inductive BlendMode
  | «over»
  | additive
  | multiplyTint
  | softAdd
  | cutout
  | dither
  deriving DecidableEq

def «over» (dst src : PremulRgba) : PremulRgba :=
  let dst := dst.sanitized
  let src := src.sanitized
  let inv := 1 - src.a
  PremulRgba.sanitized ⟨src.rgb.plus (dst.rgb.scale inv), src.a + dst.a * inv⟩

def additive (dst src : PremulRgba) : PremulRgba :=
  let dst := dst.sanitized
  let src := src.sanitized
  PremulRgba.sanitized ⟨dst.rgb.plus src.rgb, src.a + dst.a * (1 - src.a)⟩

def multiplyTint (dst : PremulRgba) (tint : Rgb) (coverage : ℚ) : PremulRgba :=
  let dst := dst.sanitized
  let factor := Rgb.mix ⟨1, 1, 1⟩ tint.clamp01 (clamp coverage 0 1)
  PremulRgba.sanitized ⟨dst.rgb.multiply factor, dst.a⟩

def softAdd (dst src : PremulRgba) : PremulRgba :=
  let d := dst.toStraight
  let s := src.toStraight
  let screen : Rgb := ⟨1 - (1 - d.rgb.r) * (1 - s.rgb.r), 1 - (1 - d.rgb.g) * (1 - s.rgb.g),
    1 - (1 - d.rgb.b) * (1 - s.rgb.b)⟩
  let rgb := ((d.rgb.scale (d.a * (1 - s.a))).plus (s.rgb.scale (s.a * (1 - d.a)))).plus
    (screen.scale (s.a * d.a))
  PremulRgba.sanitized ⟨rgb, s.a + d.a * (1 - s.a)⟩

structure PremulRgba.Premultiplied (c : PremulRgba) : Prop where
  nonneg : 0 ≤ c.rgb.r ∧ 0 ≤ c.rgb.g ∧ 0 ≤ c.rgb.b
  le_alpha : c.rgb.r ≤ c.a ∧ c.rgb.g ≤ c.a ∧ c.rgb.b ≤ c.a
  alpha_le : c.a ≤ 1

theorem clamp_eq {x lo hi : ℚ} (hlo : lo ≤ x) (hhi : x ≤ hi) : clamp x lo hi = x := by
  rw [clamp, if_neg hlo.not_gt, if_neg hhi.not_gt]

theorem PremulRgba.Premultiplied.sanitized_eq {c : PremulRgba} (h : c.Premultiplied) :
    c.sanitized = c := by
  obtain ⟨⟨hr, hg, hb⟩, ⟨hra, hga, hba⟩, ha⟩ := h
  rw [PremulRgba.sanitized, clamp_eq (hr.trans hra) ha, Rgb.sanitized]
  dsimp only
  rw [max_eq_left hr, max_eq_left hg, max_eq_left hb, min_eq_left hra, min_eq_left hga,
    min_eq_left hba]

theorem premultiplied_transparent : PremulRgba.transparent.Premultiplied :=
  ⟨⟨le_rfl, le_rfl, le_rfl⟩, ⟨le_rfl, le_rfl, le_rfl⟩, by decide⟩

end AtomVibe.Material
