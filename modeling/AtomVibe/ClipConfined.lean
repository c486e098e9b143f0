import AtomVibe.MaterialPaint
import AtomVibe.RasterCull
import Mathlib.Data.Rat.Sqrt

namespace AtomVibe.Material

open Raster (Bounds DrawCmd Framebuffer PixelBox InClip center)

def Agree (clip : Option (Bounds ℚ)) (frame other : Framebuffer ℚ) : Prop :=
  (frame.width = other.width ∧ frame.height = other.height) ∧
    ∀ x y, InClip clip x y → frame.pixel x y = other.pixel x y

def ChangesInside (clip : Option (Bounds ℚ)) (frame changed : Framebuffer ℚ) : Prop :=
  (changed.width = frame.width ∧ changed.height = frame.height) ∧
    ∀ x y, ¬InClip clip x y → changed.pixel x y = frame.pixel x y

structure Confined (clip : Option (Bounds ℚ)) (first second frame other : Framebuffer ℚ) : Prop where
  agree : Agree clip frame other
  left : ChangesInside clip first frame
  right : ChangesInside clip second other

section Steps

variable {clip : Option (Bounds ℚ)} {first second frame other : Framebuffer ℚ}

theorem ChangesInside.refl (clip : Option (Bounds ℚ)) (frame : Framebuffer ℚ) :
    ChangesInside clip frame frame := ⟨⟨rfl, rfl⟩, fun _ _ _ => rfl⟩

theorem ChangesInside.setPixel (h : ChangesInside clip first frame) {x y : ℕ}
    (hin : InClip clip x y) (c : Raster.Rgba ℚ) : ChangesInside clip first (frame.setPixel x y c) := by
  obtain ⟨⟨hwidth, hheight⟩, hpixel⟩ := h
  refine ⟨⟨?_, ?_⟩, ?_⟩
  · rw [Framebuffer.setPixel_width, hwidth]
  · rw [Framebuffer.setPixel_height, hheight]
  · intro x' y' hout
    rw [Framebuffer.pixel_setPixel, if_neg, hpixel x' y' hout]
    rintro ⟨⟨rfl, rfl⟩, -⟩
    exact hout hin

theorem Agree.setPixel (h : Agree clip frame other) (x y : ℕ) (c : Raster.Rgba ℚ) :
    Agree clip (frame.setPixel x y c) (other.setPixel x y c) := by
  obtain ⟨⟨hwidth, hheight⟩, hpixel⟩ := h
  refine ⟨⟨?_, ?_⟩, ?_⟩
  · rw [Framebuffer.setPixel_width, Framebuffer.setPixel_width, hwidth]
  · rw [Framebuffer.setPixel_height, Framebuffer.setPixel_height, hheight]
  · intro x' y' hin
    rw [Framebuffer.pixel_setPixel, Framebuffer.pixel_setPixel, hwidth, hheight, hpixel x' y' hin]

theorem Confined.start (h : Agree clip first second) : Confined clip first second first second :=
  ⟨h, .refl clip first, .refl clip second⟩

theorem Confined.writePixel (h : Confined clip first second frame other) {x y : ℕ}
    (hin : InClip clip x y) (c : Raster.Rgba ℚ → Raster.Rgba ℚ) :
    Confined clip first second (frame.setPixel x y (c (frame.pixel x y)))
      (other.setPixel x y (c (other.pixel x y))) := by
  rw [h.agree.2 x y hin]
  exact ⟨h.agree.setPixel x y _, h.left.setPixel hin _, h.right.setPixel hin _⟩

theorem inClip_of_intersect {bounds : Bounds ℚ} {x y : ℕ}
    (hx : ⌊(Raster.intersectClip bounds clip).min.x⌋ ≤ x ∧
      (x : ℤ) < ⌈(Raster.intersectClip bounds clip).max.x⌉)
    (hy : ⌊(Raster.intersectClip bounds clip).min.y⌋ ≤ y ∧
      (y : ℤ) < ⌈(Raster.intersectClip bounds clip).max.y⌉) : InClip clip x y := by
  intro c hc
  rw [Option.mem_def] at hc
  subst hc
  refine ⟨⟨?_, ?_⟩, ?_, ?_⟩
  · exact (Int.floor_le_floor (le_max_right _ _)).trans hx.1
  · exact hx.2.trans_le (Int.ceil_le_ceil (min_le_right _ _))
  · exact (Int.floor_le_floor (le_max_right _ _)).trans hy.1
  · exact hy.2.trans_le (Int.ceil_le_ceil (min_le_right _ _))

end Steps

section Shadow

variable {clip : Option (Bounds ℚ)} {first second frame other : Framebuffer ℚ}

theorem convertPixel_confined (sqrt : ℚ → ℚ) (cmd : DrawCmd ℚ) (aa : ℚ)
    (toLocal : ℚ → ℚ → Raster.Vec2 ℚ) {x y : ℕ} (hin : InClip clip x y)
    (h : Confined clip first second frame other) :
    Confined clip first second (Raster.convertPixel sqrt cmd aa toLocal y frame x)
      (Raster.convertPixel sqrt cmd aa toLocal y other x) := by
  rw [Raster.convertPixel, Raster.convertPixel]
  dsimp only
  cases Raster.signedDistance sqrt (toLocal (x + 1 / 2) (y + 1 / 2)) cmd.shape with
  | none => exact h
  | some dist =>
    dsimp only
    by_cases hcov : 0 < Raster.coverage dist aa
    · rw [if_pos hcov, if_pos hcov]
      dsimp only [Raster.Surface.blendOver]
      rw [Framebuffer.blendOver_eq, Framebuffer.blendOver_eq]
      exact h.writePixel hin fun dst => Raster.«over» dst _
    · rw [if_neg hcov, if_neg hcov]
      exact h

theorem scanConvert_confined (sqrt : ℚ → ℚ) (cmd : DrawCmd ℚ)
    (h : Confined clip first second frame other) :
    Confined clip first second (Raster.scanConvert sqrt cmd frame clip)
      (Raster.scanConvert sqrt cmd other clip) := by
  have hmem := Raster.mem_deviceBounds_iff cmd (Raster.Surface.width_lt frame)
    (Raster.Surface.height_lt frame) (Raster.Surface.rowRange frame) clip
  have hsame : Raster.deviceBounds cmd (Raster.Surface.width other) (Raster.Surface.height other)
      (Raster.Surface.rowRange other) clip = Raster.deviceBounds cmd (Raster.Surface.width frame)
      (Raster.Surface.height frame) (Raster.Surface.rowRange frame) clip := by
    dsimp only [Raster.Surface.width, Raster.Surface.height, Raster.Surface.rowRange]
    rw [h.agree.1.1, h.agree.1.2]
  rw [Raster.scanConvert_eq, Raster.scanConvert_eq, hsame, Raster.convertRows, Raster.convertRows]
  apply List.foldl_rel h
  intro y hy frame' other' h'
  apply List.foldl_rel h'
  intro x hx frame' other' h'
  rw [List.mem_range'_1] at hx hy
  have hin := ((hmem x y).mp ⟨by omega, by omega⟩).2.1
  exact convertPixel_confined sqrt cmd _ _ hin h'

theorem paintShadow_confined (fns : FloatFns) (request : MaterialBox)
    (h : Confined request.clip first second frame other) :
    Confined request.clip first second (paintShadow fns frame request)
      (paintShadow fns other request) := by
  rw [paintShadow, paintShadow]
  cases request.shadow with
  | none => exact h
  | some shadow =>
    dsimp only
    by_cases hempty : (centerHalf request.rect).2.x ≤ 0 ∨ (centerHalf request.rect).2.y ≤ 0
    · rw [if_pos hempty, if_pos hempty]
      exact h
    · rw [if_neg hempty, if_neg hempty]
      exact scanConvert_confined fns.sqrt _ h

end Shadow

namespace Snapshot

theorem wellFormed_capture (frame : Framebuffer ℚ) (bounds : Bounds ℚ) :
    (capture frame bounds).WellFormed := by
  rw [WellFormed, capture]
  dsimp only
  rw [List.length_flatMap]
  simp only [List.length_map, List.length_range', List.map_const', List.sum_replicate, smul_eq_mul]
  exact Nat.mul_comm _ _

theorem floor_le_of_withinFrame_le {z : ℚ} {size n : ℕ} (h : withinFrame ⌊z⌋ size ≤ n)
    (hn : n < size) : ⌊z⌋ ≤ n := by
  rw [withinFrame] at h
  omega

theorem lt_ceil_of_lt_withinFrame {z : ℚ} {size n : ℕ} (h : n < withinFrame ⌈z⌉ size) :
    (n : ℤ) < ⌈z⌉ ∧ n < size := by
  rw [withinFrame] at h
  omega

theorem capture_eq {clip : Option (Bounds ℚ)} {frame other : Framebuffer ℚ}
    (h : Agree clip frame other) (bounds : Bounds ℚ) :
    capture frame (intersectBounds bounds clip) = capture other (intersectBounds bounds clip) := by
  obtain ⟨⟨hwidth, hheight⟩, hpixel⟩ := h
  rw [capture, capture, ← hwidth, ← hheight]
  congr 1
  apply List.flatMap_congr
  intro y hy
  apply List.map_congr_left
  intro x hx
  rw [List.mem_range'_1] at hx hy
  obtain ⟨hx₁, hxw⟩ := @lt_ceil_of_lt_withinFrame (intersectBounds bounds clip).max.x frame.width x
    (by omega)
  obtain ⟨hy₁, hyh⟩ := @lt_ceil_of_lt_withinFrame (intersectBounds bounds clip).max.y frame.height y
    (by omega)
  rw [hpixel x y (inClip_of_intersect ⟨floor_le_of_withinFrame_le hx.1 hxw, hx₁⟩
    ⟨floor_le_of_withinFrame_le hy.1 hyh, hy₁⟩)]

theorem sample_returns {s : Snapshot} (hs : s.WellFormed) (deviceX deviceY : ℚ) :
    ∃ value, s.sample deviceX deviceY = some value := by
  rw [sample]
  by_cases hempty : s.width = 0 ∨ s.height = 0
  · rw [if_pos hempty]
    exact ⟨_, rfl⟩
  · rw [if_neg hempty]
    have htap : ∀ x y, s.atClamped x y = some (s.tap x y) :=
      fun x y => atClampedSlice_eq (by omega) (by omega) hs x y
    simp only [htap, Option.bind_eq_bind, Option.bind_some]
    exact ⟨_, rfl⟩

theorem filtered_returns {s : Snapshot} (hs : s.WellFormed) (blur : ℚ) :
    ∃ filtered, s.filtered blur = some filtered ∧ filtered.WellFormed := by
  rw [filtered]
  by_cases hradius : 1 / 2 ≤ blur
  · rw [if_pos hradius]
    obtain ⟨blurred, hblurred, hwell, -⟩ := blur_returns hs ⌊blur + 1 / 2⌋.toNat
    exact ⟨blurred, hblurred, hwell⟩
  · rw [if_neg hradius]
    exact ⟨s, rfl, hs⟩

end Snapshot

theorem foldlM_returns {σ α : Type} {R : σ → σ → Prop} {f g : σ → α → Option σ} {l : List α}
    (hstep : ∀ x ∈ l, ∀ s t, R s t → ∃ s' t', f s x = some s' ∧ g t x = some t' ∧ R s' t')
    {s t : σ} (h : R s t) : ∃ s' t', l.foldlM f s = some s' ∧ l.foldlM g t = some t' ∧ R s' t' := by
  induction l generalizing s t with
  | nil => exact ⟨s, t, rfl, rfl, h⟩
  | cons x l ih =>
    obtain ⟨s', t', hs, ht, h'⟩ := hstep x (List.mem_cons_self ..) s t h
    obtain ⟨s'', t'', hs', ht', h''⟩ := ih (fun y hy => hstep y (List.mem_cons_of_mem _ hy)) h'
    refine ⟨s'', t'', ?_, ?_, h''⟩
    · rw [List.foldlM_cons, hs]
      exact hs'
    · rw [List.foldlM_cons, ht]
      exact ht'

section Pane

variable {request : MaterialBox} {original filtered : Snapshot}
  {first second frame other : Framebuffer ℚ}

theorem outputPixel_returns (fns : FloatFns) (request : MaterialBox) (material : TransparencyMaterial)
    (horiginal : original.WellFormed) (hfiltered : filtered.WellFormed) (x y : ℕ)
    (shadowed : PremulRgba) :
    ∃ output, outputPixel fns request material original filtered x y shadowed = some output := by
  have hsample : ∀ deviceX deviceY, ∃ value, filtered.sample deviceX deviceY = some value :=
    fun deviceX deviceY => Snapshot.sample_returns hfiltered deviceX deviceY
  choose value hvalue using hsample
  obtain ⟨preShadow, hpre⟩ := Snapshot.sample_returns horiginal
    (paneGeometry fns request x y).point.x (paneGeometry fns request x y).point.y
  rw [outputPixel]
  simp only [hvalue, hpre, Option.bind_eq_bind, Option.bind_some]
  exact ⟨_, rfl⟩

theorem compositePixel_confined (fns : FloatFns) (material : TransparencyMaterial)
    (horiginal : original.WellFormed) (hfiltered : filtered.WellFormed) {x y : ℕ}
    (hin : InClip request.clip x y) (h : Confined request.clip first second frame other) :
    ∃ frame' other',
      compositePixel fns request material original filtered y frame x = some frame' ∧
      compositePixel fns request material original filtered y other x = some other' ∧
      Confined request.clip first second frame' other' := by
  rw [compositePixel, compositePixel]
  by_cases hmask : (paneGeometry fns request x y).mask ≤ 0
  · rw [if_pos hmask, if_pos hmask]
    exact ⟨frame, other, rfl, rfl, h⟩
  · rw [if_neg hmask, if_neg hmask]
    choose output houtput using outputPixel_returns fns request material horiginal hfiltered x y
    rw [houtput, houtput]
    exact ⟨_, _, rfl, rfl, h.writePixel hin fun c => premulRgba (output (rgbaPremul c))⟩

theorem inClip_of_outputBounds {rect : Bounds ℚ} {clip : Option (Bounds ℚ)} {x y : ℕ}
    (h : (outputBounds frame rect clip).Mem x y) : InClip clip x y := by
  obtain ⟨⟨hx₀, hx₁⟩, hy₀, hy₁⟩ := h
  have hwidth := frame.width_lt
  have hheight := frame.height_lt
  obtain ⟨hx, hxw⟩ := Snapshot.lt_ceil_of_lt_withinFrame hx₁
  obtain ⟨hy, hyh⟩ := Snapshot.lt_ceil_of_lt_withinFrame hy₁
  refine inClip_of_intersect ⟨?_, hx⟩ ⟨?_, hy⟩
  · simp only [outputBounds, Raster.asU32] at hx₀
    omega
  · simp only [outputBounds, Raster.asU32] at hy₀
    omega

theorem compositeMaterial_confined (fns : FloatFns) (material : TransparencyMaterial)
    (horiginal : original.WellFormed) (hfiltered : filtered.WellFormed)
    (h : Confined request.clip first second frame other) :
    ∃ frame' other',
      compositeMaterial fns frame request material original filtered = some frame' ∧
      compositeMaterial fns other request material original filtered = some other' ∧
      Confined request.clip first second frame' other' := by
  have hsame : outputBounds other (request.rect.pad 2) request.clip =
      outputBounds frame (request.rect.pad 2) request.clip := by
    rw [outputBounds, outputBounds, h.agree.1.1, h.agree.1.2]
  rw [compositeMaterial, compositeMaterial, hsame]
  apply foldlM_returns _ h
  intro y hy frame' other' h'
  apply foldlM_returns _ h'
  intro x hx frame' other' h'
  rw [List.mem_range'_1] at hx hy
  have hin := inClip_of_outputBounds (x := x) (y := y)
    (show (outputBounds frame (request.rect.pad 2) request.clip).Mem x y from
      ⟨by omega, by omega⟩)
  exact compositePixel_confined fns material horiginal hfiltered hin h'

/-- A material shows nothing from outside its clip and changes nothing there. -/
theorem paint_material_box_confined (fns : FloatFns) (frame other : Framebuffer ℚ)
    (request : MaterialBox) (h : Agree request.clip frame other) :
    ∃ frame' other', paintMaterialBox fns frame request = some frame' ∧
      paintMaterialBox fns other request = some other' ∧ Agree request.clip frame' other' ∧
      ChangesInside request.clip frame frame' ∧ ChangesInside request.clip other other' := by
  have hstart := Confined.start h
  rw [paintMaterialBox, paintMaterialBox]
  dsimp only
  by_cases hnothing : request.rect.max.x - request.rect.min.x ≤ 0 ∨
      request.rect.max.y - request.rect.min.y ≤ 0 ∨ request.material.sanitized.strength ≤ 0
  · rw [if_pos hnothing, if_pos hnothing]
    exact ⟨frame, other, rfl, rfl, hstart.agree, hstart.left, hstart.right⟩
  · rw [if_neg hnothing, if_neg hnothing, ← Snapshot.capture_eq h]
    generalize request.rect.pad _ = bounds
    have hcaptured := Snapshot.wellFormed_capture frame (intersectBounds bounds request.clip)
    generalize Snapshot.capture frame (intersectBounds bounds request.clip) = captured at hcaptured
    generalize min (max request.material.sanitized.blurRadiusPx
      (request.material.sanitized.roughness * 16) * request.material.sanitized.pixelScale) 96 = blur
    obtain ⟨filtered, hblur, hfiltered⟩ := Snapshot.filtered_returns hcaptured blur
    obtain ⟨frame', other', hframe, hother, hend⟩ := compositeMaterial_confined fns
      request.material.sanitized hcaptured hfiltered (paintShadow_confined fns request hstart)
    rw [hblur, Option.bind_eq_bind, Option.bind_some, Option.bind_some]
    exact ⟨frame', other', hframe, hother, hend.agree, hend.left, hend.right⟩

theorem one_row : 1 < 2 ^ 32 := by decide

def strip (second : Raster.Rgba ℚ) : Framebuffer ℚ where
  width := 2
  height := 1
  pixels := [⟨1, 0, 0, 1⟩, second]
  size := rfl
  width_lt := by decide
  height_lt := one_row
  size_lt := by decide

def frostedStrip : MaterialBox where
  rect := ⟨⟨0, 0⟩, ⟨2, 1⟩⟩
  radius := 0
  clip := some ⟨⟨0, 0⟩, ⟨1, 1⟩⟩
  tint := some ⟨1, 1, 1, 1 / 2⟩
  border := none
  shadow := some ⟨0, 1, 1, ⟨0, 0, 0, 1⟩⟩
  material := ⟨.«over», 1, 3 / 2, 1, 1, ⟨1, 1, 1⟩, 10, 14, 3, 0, 0, 3 / 2, 0, 0, 1, 1, 0, false⟩

theorem strip_confined :
    ∃ frame' other',
      paintMaterialBox ⟨Rat.sqrt, id, fun _ => 1, fun x => 1 / (1 + x), fun x => x - 1, fun _ => 1⟩
        (strip ⟨0, 1, 0, 1⟩) frostedStrip = some frame' ∧
      paintMaterialBox ⟨Rat.sqrt, id, fun _ => 1, fun x => 1 / (1 + x), fun x => x - 1, fun _ => 1⟩
        (strip ⟨0, 0, 1, 1⟩) frostedStrip = some other' ∧
      Agree frostedStrip.clip frame' other' ∧
      ChangesInside frostedStrip.clip (strip ⟨0, 1, 0, 1⟩) frame' ∧
      ChangesInside frostedStrip.clip (strip ⟨0, 0, 1, 1⟩) other' := by
  apply paint_material_box_confined
  refine ⟨⟨rfl, rfl⟩, ?_⟩
  intro x y hin
  obtain ⟨⟨-, hx⟩, -, hy⟩ := hin ⟨⟨0, 0⟩, ⟨1, 1⟩⟩ rfl
  rw [Int.ceil_one] at hx hy
  obtain rfl : x = 0 := by omega
  obtain rfl : y = 0 := by omega
  rfl

end Pane

end AtomVibe.Material
