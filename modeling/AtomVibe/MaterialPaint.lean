import AtomVibe.BoxBlur
import AtomVibe.Raster

/-! A material painted over the backdrop: what is captured, its shadow and the pane. The functions on
floats that are no arithmetic are parameters. -/

namespace AtomVibe.Material

open Ux (clamp)
open Raster (Bounds DrawCmd Framebuffer PixelBox Affine coverage sdBox)

/-- `f32::sqrt`, `f32::sin` and `f32::cos`, and those of the core's own that approximate. -/
structure FloatFns where
  sqrt : ℚ → ℚ
  sin : ℚ → ℚ
  cos : ℚ → ℚ
  expNeg : ℚ → ℚ
  ln : ℚ → ℚ
  cosApprox : ℚ → ℚ

structure TransparencyMaterial where
  blend : BlendMode
  strength : ℚ
  ior : ℚ
  roughness : ℚ
  thickness : ℚ
  transmissionColor : Rgb
  transmissionDistance : ℚ
  blurRadiusPx : ℚ
  refractionPx : ℚ
  dispersionPx : ℚ
  thinFilmNm : ℚ
  filmIor : ℚ
  scatter : ℚ
  distortionPx : ℚ
  rimWidthPx : ℚ
  pixelScale : ℚ
  phase : ℚ
  thinWalled : Bool
  deriving DecidableEq

def TransparencyMaterial.sanitized (m : TransparencyMaterial) : TransparencyMaterial :=
  { m with
    strength := clamp m.strength 0 1
    ior := clamp m.ior 1 3
    roughness := clamp m.roughness 0 1
    thickness := clamp m.thickness 0 100
    transmissionColor := m.transmissionColor.clamp01
    transmissionDistance := clamp m.transmissionDistance (1 / 1000) 10000
    blurRadiusPx := clamp m.blurRadiusPx 0 48
    refractionPx := clamp m.refractionPx 0 64
    dispersionPx := clamp m.dispersionPx 0 16
    thinFilmNm := clamp m.thinFilmNm 0 2000
    filmIor := clamp m.filmIor 1 3
    scatter := clamp m.scatter 0 1
    distortionPx := clamp m.distortionPx 0 32
    rimWidthPx := clamp m.rimWidthPx 0 16
    pixelScale := clamp m.pixelScale (1 / 10) 8 }

structure Shadow where
  dx : ℚ
  dy : ℚ
  blur : ℚ
  color : Raster.Rgba ℚ
  deriving DecidableEq

structure MaterialBox where
  rect : Bounds ℚ
  radius : ℚ
  clip : Option (Bounds ℚ)
  tint : Option (Raster.Rgba ℚ)
  border : Option (ℚ × Raster.Rgba ℚ)
  shadow : Option Shadow
  material : TransparencyMaterial
  deriving DecidableEq

def pi : ℚ := 13176795 / 4194304

def validIor (value : ℚ) : ℚ := if 0 < value then value else 1

structure IorPair where
  incident : ℚ
  transmitted : ℚ
  deriving DecidableEq

def IorPair.new (incident transmitted : ℚ) : IorPair := ⟨validIor incident, validIor transmitted⟩

def fresnelF0 (media : IorPair) : ℚ :=
  let media := IorPair.new media.incident media.transmitted
  let ratio := (media.incident - media.transmitted) / (media.incident + media.transmitted)
  ratio * ratio

def pow5 (value : ℚ) : ℚ :=
  let x2 := value * value
  x2 * x2 * value

def fresnelSchlick (cosIncident : ℚ) (media : IorPair) : ℚ :=
  let cosine := clamp |cosIncident| 0 1
  let f0 := fresnelF0 media
  f0 + (1 - f0) * pow5 (1 - cosine)

def thinFilmRgb (fns : FloatFns) (cosIncident filmIor thicknessNm : ℚ) : Rgb :=
  let n := validIor filmIor
  let d := max thicknessNm 0
  let c := clamp |cosIncident| 0 1
  let response (wavelengthNm : ℚ) : ℚ :=
    let phase := 4 * pi * n * d * c / wavelengthNm
    clamp (1 / 2 + 1 / 2 * fns.cosApprox phase) 0 1
  ⟨response 650, response 510, response 475⟩

def absorptionSigma (fns : FloatFns) (colorAtDistance : Rgb) (atDistance : ℚ) : Rgb :=
  let color := colorAtDistance.clamp01
  let distance := max atDistance (1 / 10 ^ 6)
  let sigma (channel : ℚ) : ℚ := -fns.ln (max channel (1 / 10 ^ 6)) / distance
  ⟨sigma color.r, sigma color.g, sigma color.b⟩

def beerLambert (fns : FloatFns) (sigma : Rgb) (pathLength : ℚ) : Rgb :=
  let sigma := sigma.sanitized
  let distance := max pathLength 0
  ⟨fns.expNeg (sigma.r * distance), fns.expNeg (sigma.g * distance), fns.expNeg (sigma.b * distance)⟩

def transmissionColor (fns : FloatFns) (colorAtDistance : Rgb) (atDistance pathLength : ℚ) : Rgb :=
  beerLambert fns (absorptionSigma fns colorAtDistance atDistance) pathLength

def bayer : List ℚ := [0, 8, 2, 10, 12, 4, 14, 6, 3, 11, 1, 9, 15, 7, 13, 5]

def orderedDither4x4 (x y : ℕ) : ℚ := (bayer.getD (y % 4 * 4 + x % 4) 0 + 1 / 2) / 16

def rgbaRgb (value : Raster.Rgba ℚ) : Rgb := Rgb.clamp01 ⟨value.r, value.g, value.b⟩

def rgbaPremul (value : Raster.Rgba ℚ) : PremulRgba :=
  StraightRgba.premultiply ⟨rgbaRgb value, value.a⟩

def premulRgba (value : PremulRgba) : Raster.Rgba ℚ :=
  let straight := value.toStraight
  ⟨straight.rgb.r, straight.rgb.g, straight.rgb.b, straight.a⟩

def intersectBounds (bounds : Bounds ℚ) (clip : Option (Bounds ℚ)) : Bounds ℚ :=
  Raster.intersectClip bounds clip

def withinFrame (x : ℤ) (size : ℕ) : ℕ := (min (max x 0) size).toNat

def premulMix (a b : PremulRgba) (amount : ℚ) : PremulRgba :=
  let t := clamp amount 0 1
  PremulRgba.sanitized ⟨(a.rgb.scale (1 - t)).plus (b.rgb.scale t), a.a * (1 - t) + b.a * t⟩

namespace Snapshot

def capture (frame : Framebuffer ℚ) (bounds : Bounds ℚ) : Snapshot :=
  let x0 := withinFrame ⌊bounds.min.x⌋ frame.width
  let y0 := withinFrame ⌊bounds.min.y⌋ frame.height
  let x1 := withinFrame ⌈bounds.max.x⌉ frame.width
  let y1 := withinFrame ⌈bounds.max.y⌉ frame.height
  { x0
    y0
    width := x1 - x0
    height := y1 - y0
    pixels := (List.range' y0 (y1 - y0)).flatMap fun y =>
      (List.range' x0 (x1 - x0)).map fun x => rgbaPremul (frame.pixel x y) }

def asIsize (x : ℤ) : ℤ := max (-2 ^ 63) (min x (2 ^ 63 - 1))

def sample (s : Snapshot) (deviceX deviceY : ℚ) : Option PremulRgba :=
  if s.width = 0 ∨ s.height = 0 then some .transparent
  else do
    let x := deviceX - s.x0 - 1 / 2
    let y := deviceY - s.y0 - 1 / 2
    let x0 := asIsize ⌊x⌋
    let y0 := asIsize ⌊y⌋
    let tx := clamp (x - x0) 0 1
    let ty := clamp (y - y0) 0 1
    let a := premulMix (← s.atClamped x0 y0) (← s.atClamped (x0 + 1) y0) tx
    let b := premulMix (← s.atClamped x0 (y0 + 1)) (← s.atClamped (x0 + 1) (y0 + 1)) tx
    return premulMix a b ty

def filtered (s : Snapshot) (blur : ℚ) : Option Snapshot :=
  if 1 / 2 ≤ blur then s.blur ⌊blur + 1 / 2⌋.toNat else some s

end Snapshot

def centerHalf (rect : Bounds ℚ) : Raster.Vec2 ℚ × Raster.Vec2 ℚ :=
  (⟨(rect.min.x + rect.max.x) * (1 / 2), (rect.min.y + rect.max.y) * (1 / 2)⟩,
    ⟨(rect.max.x - rect.min.x) * (1 / 2), (rect.max.y - rect.min.y) * (1 / 2)⟩)

def paintShadow (fns : FloatFns) (frame : Framebuffer ℚ) (request : MaterialBox) : Framebuffer ℚ :=
  match request.shadow with
  | none => frame
  | some shadow =>
    let (center, half) := centerHalf request.rect
    if half.x ≤ 0 ∨ half.y ≤ 0 then frame
    else
      let radius := max (min (min request.radius half.x) half.y) 0
      let command : DrawCmd ℚ :=
        { shape := .roundedRect half radius
          paint := .solid shadow.color
          transform := Affine.translate (center.x + shadow.dx) (center.y + shadow.dy)
          soft := max shadow.blur (1 / 2) }
      Raster.scanConvert fns.sqrt command frame request.clip

def pseudoNormal (fns : FloatFns) (point half : Raster.Vec2 ℚ) : Raster.Vec2 ℚ :=
  let x := point.x / max half.x 1
  let y := point.y / max half.y 1
  let length := fns.sqrt (x * x + y * y)
  if length ≤ 1 / 10 ^ 5 then ⟨0, 0⟩ else ⟨x / length, y / length⟩

def edgeFactor (distance width : ℚ) : ℚ :=
  if width ≤ 0 then 0 else clamp (1 - clamp (-distance / width) 0 1) 0 1

def roundedDistance (fns : FloatFns) (half : Raster.Vec2 ℚ) (radius : ℚ) (point : Raster.Vec2 ℚ) : ℚ :=
  sdBox fns.sqrt point (half - ⟨radius, radius⟩) - radius

def overColor (dst : PremulRgba) (color : Raster.Rgba ℚ) (cov : ℚ) : PremulRgba :=
  «over» dst (StraightRgba.premultiply ⟨rgbaRgb color, color.a * clamp cov 0 1⟩)

def legacyBase (fns : FloatFns) (dst : PremulRgba) (request : MaterialBox) (point half : Raster.Vec2 ℚ)
    (radius : ℚ) : PremulRgba :=
  let outer := coverage (roundedDistance fns half radius point) 1
  match request.border with
  | some (width, color) =>
    let dst := overColor dst color outer
    match request.tint with
    | none => dst
    | some background =>
      let width := max width 0
      let innerHalf : Raster.Vec2 ℚ := ⟨max (half.x - width) 0, max (half.y - width) 0⟩
      if 0 < innerHalf.x ∧ 0 < innerHalf.y then
        let inner := coverage (roundedDistance fns innerHalf (max (radius - width) 0) point) 1
        overColor dst background inner
      else dst
  | none =>
    match request.tint with
    | none => dst
    | some background => overColor dst background outer

def outputBounds (frame : Framebuffer ℚ) (rect : Bounds ℚ) (clip : Option (Bounds ℚ)) : PixelBox :=
  let box := Raster.intersectClip rect clip
  { x0 := Raster.asU32 ⌊box.min.x⌋
    y0 := Raster.asU32 ⌊box.min.y⌋
    x1 := withinFrame ⌈box.max.x⌉ frame.width
    y1 := withinFrame ⌈box.max.y⌉ frame.height }

structure PaneGeometry where
  half : Raster.Vec2 ℚ
  radius : ℚ
  point : Raster.Vec2 ℚ
  fromCenter : Raster.Vec2 ℚ
  distance : ℚ
  mask : ℚ

def paneGeometry (fns : FloatFns) (request : MaterialBox) (x y : ℕ) : PaneGeometry :=
  let (center, half) := centerHalf request.rect
  let radius := max (min (min request.radius half.x) half.y) 0
  let point : Raster.Vec2 ℚ := ⟨x + 1 / 2, y + 1 / 2⟩
  let fromCenter := point - center
  let distance := roundedDistance fns half radius fromCenter
  { half, radius, point, fromCenter, distance, mask := coverage distance 1 }

def outputPixel (fns : FloatFns) (request : MaterialBox) (material : TransparencyMaterial)
    (original filtered : Snapshot) (x y : ℕ) (shadowed : PremulRgba) : Option PremulRgba := do
  let pane := paneGeometry fns request x y
  let tint := rgbaRgb (request.tint.getD ⟨1, 1, 1, 0⟩)
  let tintAlpha := clamp ((request.tint.map fun value => value.a).getD 0) 0 1
  let border := request.border.map fun (width, color) => (max width 0, color)
  let scale := material.pixelScale
  let rimWidth := material.rimWidthPx * scale
  let refraction := material.refractionPx * scale
  let dispersion := material.dispersionPx * scale
  let distortion := material.distortionPx * scale
  let normal := pseudoNormal fns pane.fromCenter pane.half
  let edge := edgeFactor pane.distance (max rimWidth 1)
  let cosIncident := clamp (1 - edge * (88 / 100)) (5 / 100) 1
  let optical := max (material.ior - 1) 0 * 2
  let waveX := fns.sin (pane.point.x * (41 / 1000) + pane.point.y * (19 / 1000) +
    material.phase * (23 / 10))
  let waveY := fns.cos (pane.point.y * (37 / 1000) - pane.point.x * (13 / 1000) +
    material.phase * (17 / 10))
  let offsetX := normal.x * refraction * optical + waveX * distortion
  let offsetY := normal.y * refraction * optical + waveY * distortion
  let dispersionX := normal.x * dispersion
  let dispersionY := normal.y * dispersion
  let redSample ← filtered.sample (pane.point.x + offsetX + dispersionX)
    (pane.point.y + offsetY + dispersionY)
  let greenSample ← filtered.sample (pane.point.x + offsetX) (pane.point.y + offsetY)
  let blueSample ← filtered.sample (pane.point.x + offsetX - dispersionX)
    (pane.point.y + offsetY - dispersionY)
  let sampleAlpha := max (max redSample.a greenSample.a) blueSample.a
  let color := Rgb.clamp01 ⟨redSample.toStraight.rgb.r, greenSample.toStraight.rgb.g,
    blueSample.toStraight.rgb.b⟩
  let path := if material.thinWalled then material.thickness * (1 / 4)
    else material.thickness / max cosIncident (15 / 100)
  let color := color.multiply
    (transmissionColor fns material.transmissionColor material.transmissionDistance path)
  let color := color.mix tint
    (clamp (tintAlpha * (16 / 100 + material.scatter * (28 / 100))) 0 (65 / 100))
  let color := if 0 < material.scatter then
      let haze := tint.mix ⟨1, 1, 1⟩ (22 / 100)
      color.mix haze (material.scatter * (20 / 100 + edge * (16 / 100)))
    else color
  let color := if 0 < material.thinFilmNm then
      let film := thinFilmRgb fns cosIncident material.filmIor material.thinFilmNm
      color.mix film (28 / 100 + edge * (32 / 100))
    else color
  let fresnel := fresnelSchlick cosIncident (.new 1 material.ior)
  let rim := edgeFactor pane.distance rimWidth
  let color := if 0 < rim then
      let rimColor := (border.map fun (_, color) => rgbaRgb color).getD (tint.mix ⟨1, 1, 1⟩ (62 / 100))
      color.mix rimColor (rim * (30 / 100 + fresnel * (70 / 100)))
    else color
  let contentAlpha := sampleAlpha + tintAlpha * (1 - sampleAlpha)
  let cov := pane.mask * material.strength * contentAlpha
  let (color, cov) := match border with
    | some (width, borderColor) =>
      let borderCoverage := edgeFactor pane.distance width * pane.mask * borderColor.a *
        material.strength
      (color.mix (rgbaRgb borderColor) borderCoverage, max cov borderCoverage)
    | none => (color, cov)
  let preShadow ← original.sample pane.point.x pane.point.y
  let under := premulMix shadowed preShadow material.strength
  let dst := legacyBase fns under request pane.fromCenter pane.half pane.radius
  let src := StraightRgba.premultiply ⟨color.clamp01, clamp cov 0 1⟩
  return match material.blend with
    | .«over» => «over» dst src
    | .additive => additive dst src
    | .multiplyTint => multiplyTint dst color cov
    | .softAdd => softAdd dst src
    | .cutout =>
      if 1 / 2 ≤ material.strength then
        «over» dst (StraightRgba.premultiply ⟨color, pane.mask * contentAlpha⟩)
      else dst
    | .dither =>
      if orderedDither4x4 x y ≤ material.strength then
        «over» dst (StraightRgba.premultiply ⟨color, pane.mask * contentAlpha⟩)
      else dst

def compositePixel (fns : FloatFns) (request : MaterialBox) (material : TransparencyMaterial)
    (original filtered : Snapshot) (y : ℕ) (frame : Framebuffer ℚ) (x : ℕ) :
    Option (Framebuffer ℚ) :=
  if (paneGeometry fns request x y).mask ≤ 0 then some frame
  else do
    let output ← outputPixel fns request material original filtered x y (rgbaPremul (frame.pixel x y))
    return frame.setPixel x y (premulRgba output)

def compositeMaterial (fns : FloatFns) (frame : Framebuffer ℚ) (request : MaterialBox)
    (material : TransparencyMaterial) (original filtered : Snapshot) : Option (Framebuffer ℚ) :=
  let box := outputBounds frame (request.rect.pad 2) request.clip
  (List.range' box.y0 (box.y1 - box.y0)).foldlM (fun frame y =>
    (List.range' box.x0 (box.x1 - box.x0)).foldlM
      (compositePixel fns request material original filtered y) frame) frame

/-- Without a result the source would panic. -/
def paintMaterialBox (fns : FloatFns) (frame : Framebuffer ℚ) (request : MaterialBox) :
    Option (Framebuffer ℚ) :=
  let material := request.material.sanitized
  let width := request.rect.max.x - request.rect.min.x
  let height := request.rect.max.y - request.rect.min.y
  if width ≤ 0 ∨ height ≤ 0 ∨ material.strength ≤ 0 then some frame
  else do
    let scale := material.pixelScale
    let blur := min (max material.blurRadiusPx (material.roughness * 16) * scale) 96
    let optical := max (material.ior - 1) 0 * 2
    let pad := blur + material.refractionPx * scale * optical + material.dispersionPx * scale +
      material.distortionPx * scale + 3
    let sampleBounds := intersectBounds (request.rect.pad pad) request.clip
    let captured := Snapshot.capture frame sampleBounds
    let filtered ← captured.filtered blur
    let frame := paintShadow fns frame request
    compositeMaterial fns frame request material captured filtered

end AtomVibe.Material
