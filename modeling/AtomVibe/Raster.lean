import Mathlib.Algebra.Order.Field.Basic
import Mathlib.Algebra.Order.Floor.Ring
import Mathlib.Algebra.Order.Field.Rat
import Mathlib.Data.Rat.Floor

/-! Shapes drawn into a surface, over any ordered field in place of the source's floats. The square
root is a parameter. -/

namespace AtomVibe.Raster

/-- The source's literals above one are read as numerals of the field. -/
scoped instance twoAtLeastTwo : Nat.AtLeastTwo 2 := ⟨le_rfl⟩

structure Vec2 (K : Type) where
  x : K
  y : K
  deriving DecidableEq

structure Rgba (K : Type) where
  r : K
  g : K
  b : K
  a : K
  deriving DecidableEq

structure Bounds (K : Type) where
  min : Vec2 K
  max : Vec2 K
  deriving DecidableEq

structure Affine (K : Type) where
  a : K
  b : K
  c : K
  d : K
  e : K
  f : K
  deriving DecidableEq

inductive Shape (K : Type)
  | rect (half : Vec2 K)
  | roundedRect (half : Vec2 K) (radius : K)
  | circle (radius : K)
  | line (a b : Vec2 K) (width : K)
  deriving DecidableEq

inductive Paint (K : Type)
  | solid (c : Rgba K)
  | linear (start stop : Vec2 K) (c0 c1 : Rgba K)
  | radial (center : Vec2 K) (radius : K) (c0 c1 : Rgba K)
  deriving DecidableEq

structure DrawCmd (K : Type) where
  shape : Shape K
  paint : Paint K
  transform : Affine K
  soft : K
  deriving DecidableEq

variable {K : Type} [Field K]

namespace Vec2

instance : Add (Vec2 K) := ⟨fun p o => ⟨p.x + o.x, p.y + o.y⟩⟩

instance : Sub (Vec2 K) := ⟨fun p o => ⟨p.x - o.x, p.y - o.y⟩⟩

def scale (p : Vec2 K) (s : K) : Vec2 K := ⟨p.x * s, p.y * s⟩

def dot (p o : Vec2 K) : K := p.x * o.x + p.y * o.y

def length (sqrt : K → K) (p : Vec2 K) : K := sqrt (p.dot p)

@[simp] theorem add_x (p o : Vec2 K) : (p + o).x = p.x + o.x := rfl

@[simp] theorem add_y (p o : Vec2 K) : (p + o).y = p.y + o.y := rfl

@[simp] theorem sub_x (p o : Vec2 K) : (p - o).x = p.x - o.x := rfl

@[simp] theorem sub_y (p o : Vec2 K) : (p - o).y = p.y - o.y := rfl

end Vec2

variable [LinearOrder K]

def clamp (x lo hi : K) : K := if x < lo then lo else if hi < x then hi else x

namespace Vec2

def abs (p : Vec2 K) : Vec2 K := ⟨|p.x|, |p.y|⟩

def maxScalar (p : Vec2 K) (m : K) : Vec2 K := ⟨max p.x m, max p.y m⟩

end Vec2

namespace Affine

def translate (x y : K) : Affine K := ⟨1, 0, 0, 1, x, y⟩

def apply (t : Affine K) (p : Vec2 K) : Vec2 K :=
  ⟨t.a * p.x + t.c * p.y + t.e, t.b * p.x + t.d * p.y + t.f⟩

def determinant (t : Affine K) : K := t.a * t.d - t.b * t.c

def inverse (t : Affine K) : Affine K :=
  let inv := 1 / t.determinant
  let a := t.d * inv
  let b := -t.b * inv
  let c := -t.c * inv
  let d := t.a * inv
  ⟨a, b, c, d, -(a * t.e + c * t.f), -(b * t.e + d * t.f)⟩

def scaleFactor (sqrt : K → K) (t : Affine K) : K := sqrt |t.determinant|

end Affine

namespace Rgba

def withAlpha (c : Rgba K) (a : K) : Rgba K := { c with a }

def transparent : Rgba K := ⟨0, 0, 0, 0⟩

end Rgba

def Bounds.pad (b : Bounds K) (p : K) : Bounds K :=
  ⟨⟨b.min.x - p, b.min.y - p⟩, ⟨b.max.x + p, b.max.y + p⟩⟩

def Shape.localBounds : Shape K → Bounds K
  | .rect half => ⟨⟨-half.x, -half.y⟩, half⟩
  | .roundedRect half _ => ⟨⟨-half.x, -half.y⟩, half⟩
  | .circle radius => ⟨⟨-radius, -radius⟩, ⟨radius, radius⟩⟩
  | .line a b width =>
    let hw := width * (1 / 2)
    ⟨⟨min a.x b.x - hw, min a.y b.y - hw⟩, ⟨max a.x b.x + hw, max a.y b.y + hw⟩⟩

def lerpRgba (a b : Rgba K) (t : K) : Rgba K :=
  ⟨a.r + (b.r - a.r) * t, a.g + (b.g - a.g) * t, a.b + (b.b - a.b) * t, a.a + (b.a - a.a) * t⟩

def Paint.sample (sqrt : K → K) (p : Vec2 K) : Paint K → Rgba K
  | .solid c => c
  | .linear start stop c0 c1 =>
    let d := stop - start
    lerpRgba c0 c1 (clamp ((p - start).dot d / max (d.dot d) (1 / 10 ^ 6)) 0 1)
  | .radial center radius c0 c1 =>
    lerpRgba c0 c1 (clamp ((p - center).length sqrt / max radius (1 / 10 ^ 6)) 0 1)

def «over» (dst src : Rgba K) : Rgba K :=
  if 1 ≤ src.a then src
  else if src.a ≤ 0 then dst
  else if 1 ≤ dst.a then
    let inv := 1 - src.a
    ⟨src.r * src.a + dst.r * inv, src.g * src.a + dst.g * inv, src.b * src.a + dst.b * inv, 1⟩
  else
    let outA := src.a + dst.a * (1 - src.a)
    if outA ≤ 0 then ⟨0, 0, 0, 0⟩
    else
      let mix (s d : K) := (s * src.a + d * dst.a * (1 - src.a)) / outA
      ⟨mix src.r dst.r, mix src.g dst.g, mix src.b dst.b, outA⟩

def sdBox (sqrt : K → K) (p half : Vec2 K) : K :=
  let d := p.abs - half
  (d.maxScalar 0).length sqrt + min (max d.x d.y) 0

/-- A segment without length divides zero by zero: the distance is no number. -/
def sdSegment (sqrt : K → K) (p a b : Vec2 K) : Option K :=
  let pa := p - a
  let ba := b - a
  if ba.dot ba = 0 then none
  else
    let h := clamp (pa.dot ba / ba.dot ba) 0 1
    some ((pa - ba.scale h).length sqrt)

def signedDistance (sqrt : K → K) (p : Vec2 K) : Shape K → Option K
  | .rect half => some (sdBox sqrt p half)
  | .roundedRect half radius => some (sdBox sqrt p (half - ⟨radius, radius⟩) - radius)
  | .circle radius => some (p.length sqrt - radius)
  | .line a b width => (sdSegment sqrt p a b).map (· - width * (1 / 2))

def smoothstep (edge0 edge1 x : K) : K :=
  let t := clamp ((x - edge0) / (edge1 - edge0)) 0 1
  t * t * (3 - 2 * t)

def coverage (dist aa : K) : K := 1 - smoothstep (-aa) aa dist

/-- What can be drawn into: its sizes are `u32`. -/
class Surface (S : Type) (K : outParam Type) where
  width : S → ℕ
  height : S → ℕ
  rowRange : S → ℕ × ℕ := fun surf => (0, height surf)
  blendOver : S → ℕ → ℕ → Rgba K → S
  width_lt : ∀ surf, width surf < 2 ^ 32
  height_lt : ∀ surf, height surf < 2 ^ 32

variable {S : Type} [Surface S K]

/-- The body of the loops of `convert_rows`; a distance that is no number has no coverage above
zero. -/
def convertPixel (sqrt : K → K) (cmd : DrawCmd K) (aa : K) (toLocal : K → K → Vec2 K) (y : ℕ)
    (surf : S) (x : ℕ) : S :=
  let point := toLocal (x + 1 / 2) (y + 1 / 2)
  match signedDistance sqrt point cmd.shape with
  | none => surf
  | some d =>
    let cov := coverage d aa
    if 0 < cov then
      let col := cmd.paint.sample sqrt point
      Surface.blendOver surf x y (col.withAlpha (col.a * cov))
    else surf

structure PixelBox where
  x0 : ℕ
  y0 : ℕ
  x1 : ℕ
  y1 : ℕ
  deriving DecidableEq

def convertRows (sqrt : K → K) (cmd : DrawCmd K) (surf : S) (box : PixelBox) (aa : K)
    (toLocal : K → K → Vec2 K) : S :=
  (List.range' box.y0 (box.y1 - box.y0)).foldl (fun surf y =>
    (List.range' box.x0 (box.x1 - box.x0)).foldl (convertPixel sqrt cmd aa toLocal y) surf) surf

def Affine.around (t : Affine K) (b : Bounds K) : Bounds K :=
  let p := t.apply b.min
  let q := t.apply ⟨b.max.x, b.min.y⟩
  let r := t.apply ⟨b.min.x, b.max.y⟩
  let s := t.apply b.max
  ⟨⟨min (min (min p.x q.x) r.x) s.x, min (min (min p.y q.y) r.y) s.y⟩,
    ⟨max (max (max p.x q.x) r.x) s.x, max (max (max p.y q.y) r.y) s.y⟩⟩

def intersectClip (b : Bounds K) : Option (Bounds K) → Bounds K
  | none => b
  | some c => ⟨⟨max b.min.x c.min.x, max b.min.y c.min.y⟩, ⟨min b.max.x c.max.x, min b.max.y c.max.y⟩⟩

def asU32 (x : ℤ) : ℕ := min x.toNat (2 ^ 32 - 1)

section Floor

variable [FloorRing K]

def deviceBounds (cmd : DrawCmd K) (w h : ℕ) (rows : ℕ × ℕ) (clip : Option (Bounds K)) : PixelBox :=
  let lb := cmd.shape.localBounds.pad (2 + cmd.soft)
  let box := intersectClip (cmd.transform.around lb) clip
  { x0 := asU32 ⌊box.min.x⌋
    y0 := max (asU32 ⌊box.min.y⌋) rows.1
    x1 := min (asU32 ⌈box.max.x⌉) w
    y1 := min (min (asU32 ⌈box.max.y⌉) h) rows.2 }

def DrawCmd.band (sqrt : K → K) (cmd : DrawCmd K) : K :=
  max (max (1 / max (cmd.transform.scaleFactor sqrt) (1 / 10 ^ 6)) (1 / 10 ^ 4)) cmd.soft

def scanConvert (sqrt : K → K) (cmd : DrawCmd K) (surf : S) (clip : Option (Bounds K)) : S :=
  let aa := cmd.band sqrt
  let bounds := deviceBounds cmd (Surface.width surf) (Surface.height surf) (Surface.rowRange surf) clip
  let t := cmd.transform
  if t.a = 1 ∧ t.d = 1 ∧ t.b = 0 ∧ t.c = 0 then
    convertRows sqrt cmd surf bounds aa fun x y => ⟨x - t.e, y - t.f⟩
  else
    let inv := t.inverse
    convertRows sqrt cmd surf bounds aa fun x y => inv.apply ⟨x, y⟩

def InClip (clip : Option (Bounds K)) (x y : ℕ) : Prop :=
  ∀ c ∈ clip, (⌊c.min.x⌋ ≤ x ∧ (x : ℤ) < ⌈c.max.x⌉) ∧ (⌊c.min.y⌋ ≤ y ∧ (y : ℤ) < ⌈c.max.y⌉)

instance (clip : Option (Bounds K)) (x y : ℕ) : Decidable (InClip clip x y) :=
  inferInstanceAs (Decidable (∀ c ∈ clip, _))

def evaluateAll (sqrt : K → K) (cmd : DrawCmd K) (surf : S) (clip : Option (Bounds K)) : S :=
  let rows := Surface.rowRange surf
  let toLocal := fun x y => cmd.transform.inverse.apply ⟨x, y⟩
  (List.range' rows.1 (min (Surface.height surf) rows.2 - rows.1)).foldl (fun surf' y =>
    (List.range' 0 (Surface.width surf)).foldl (fun surf' x =>
      if InClip clip x y then convertPixel sqrt cmd (cmd.band sqrt) toLocal y surf' x else surf')
      surf') surf

end Floor

structure Framebuffer (K : Type) where
  width : ℕ
  height : ℕ
  pixels : List (Rgba K)
  size : pixels.length = width * height
  width_lt : width < 2 ^ 32
  height_lt : height < 2 ^ 32
  size_lt : width * height < 2 ^ 32

namespace Framebuffer

omit [Field K] [LinearOrder K] in
theorem index_lt (fb : Framebuffer K) {x y : ℕ} (h : x < fb.width ∧ y < fb.height) :
    y * fb.width + x < fb.pixels.length := by
  rw [fb.size]
  calc y * fb.width + x < y * fb.width + fb.width := by omega
    _ = (y + 1) * fb.width := by ring
    _ ≤ fb.height * fb.width := Nat.mul_le_mul_right _ h.2
    _ = fb.width * fb.height := Nat.mul_comm _ _

def setPixel (fb : Framebuffer K) (x y : ℕ) (c : Rgba K) : Framebuffer K :=
  if x < fb.width ∧ y < fb.height then
    { fb with
      pixels := fb.pixels.set (y * fb.width + x) c
      size := by rw [List.length_set, fb.size] }
  else fb

def pixel (fb : Framebuffer K) (x y : ℕ) : Rgba K :=
  if h : x < fb.width ∧ y < fb.height then fb.pixels.get ⟨y * fb.width + x, fb.index_lt h⟩
  else .transparent

def blendOver (fb : Framebuffer K) (x y : ℕ) (src : Rgba K) : Framebuffer K :=
  if h : x < fb.width ∧ y < fb.height then
    { fb with
      pixels := fb.pixels.set (y * fb.width + x)
        («over» (fb.pixels.get ⟨y * fb.width + x, fb.index_lt h⟩) src)
      size := by rw [List.length_set, fb.size] }
  else fb

instance : Surface (Framebuffer K) K where
  width := width
  height := height
  blendOver := blendOver
  width_lt := width_lt
  height_lt := height_lt

theorem blendOver_eq (fb : Framebuffer K) (x y : ℕ) (src : Rgba K) :
    fb.blendOver x y src = fb.setPixel x y («over» (fb.pixel x y) src) := by
  rw [blendOver, setPixel, pixel]
  split
  · rfl
  · rfl

omit [Field K] [LinearOrder K] in
@[simp] theorem setPixel_width (fb : Framebuffer K) (x y : ℕ) (c : Rgba K) :
    (fb.setPixel x y c).width = fb.width := by
  rw [setPixel]
  split <;> rfl

omit [Field K] [LinearOrder K] in
@[simp] theorem setPixel_height (fb : Framebuffer K) (x y : ℕ) (c : Rgba K) :
    (fb.setPixel x y c).height = fb.height := by
  rw [setPixel]
  split <;> rfl

omit [Field K] [LinearOrder K] in
theorem index_inj {w x y x' y' : ℕ} (hx : x < w) (hx' : x' < w) (h : y * w + x = y' * w + x') :
    x = x' ∧ y = y' := by
  have hy : (x + w * y) / w = (x' + w * y') / w := by
    rw [Nat.mul_comm w y, Nat.mul_comm w y', Nat.add_comm x, Nat.add_comm x', h]
  rw [Nat.add_mul_div_left _ _ (by omega), Nat.add_mul_div_left _ _ (by omega),
    Nat.div_eq_of_lt hx, Nat.div_eq_of_lt hx', Nat.zero_add, Nat.zero_add] at hy
  subst hy
  exact ⟨by omega, rfl⟩

omit [LinearOrder K] in
theorem pixel_eq (fb : Framebuffer K) (x y : ℕ) :
    fb.pixel x y = if x < fb.width ∧ y < fb.height then
      (fb.pixels[y * fb.width + x]?).getD .transparent else .transparent := by
  rw [pixel]
  by_cases h : x < fb.width ∧ y < fb.height
  · rw [dif_pos h, if_pos h, List.getElem?_eq_getElem (fb.index_lt h), Option.getD_some,
      List.get_eq_getElem]
  · rw [dif_neg h, if_neg h]

omit [Field K] [LinearOrder K] in
theorem setPixel_pixels {fb : Framebuffer K} {x y : ℕ} (h : x < fb.width ∧ y < fb.height)
    (c : Rgba K) : (fb.setPixel x y c).pixels = fb.pixels.set (y * fb.width + x) c := by
  rw [setPixel, if_pos h]

omit [LinearOrder K] in
theorem pixel_setPixel (fb : Framebuffer K) (x y : ℕ) (c : Rgba K) (x' y' : ℕ) :
    (fb.setPixel x y c).pixel x' y' =
      if (x' = x ∧ y' = y) ∧ x < fb.width ∧ y < fb.height then c else fb.pixel x' y' := by
  by_cases hin : x < fb.width ∧ y < fb.height
  · rw [pixel_eq, pixel_eq, setPixel_width, setPixel_height, setPixel_pixels hin]
    by_cases heq : x' = x ∧ y' = y
    · obtain ⟨rfl, rfl⟩ := heq
      rw [if_pos hin, if_pos ⟨⟨rfl, rfl⟩, hin⟩, List.getElem?_set_self (fb.index_lt hin),
        Option.getD_some]
    · rw [if_neg (not_and_of_not_left _ heq)]
      by_cases hin' : x' < fb.width ∧ y' < fb.height
      · have hne : y * fb.width + x ≠ y' * fb.width + x' := by
          intro hidx
          obtain ⟨hx, hy⟩ := index_inj hin.1 hin'.1 hidx
          exact heq ⟨hx.symm, hy.symm⟩
        rw [if_pos hin', if_pos hin', List.getElem?_set_ne hne]
      · rw [if_neg hin', if_neg hin']
  · rw [setPixel, if_neg hin, if_neg (not_and_of_not_right _ hin)]

end Framebuffer

end AtomVibe.Raster
