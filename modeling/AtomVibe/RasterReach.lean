import AtomVibe.RasterCull
import Mathlib.Analysis.Real.Sqrt
import Mathlib.Tactic.NormNum.RealSqrt
import Mathlib.Algebra.Order.Archimedean.Real.Basic

namespace AtomVibe.Raster

def Shape.core {K : Type} [Field K] [LinearOrder K] (u v : K) : Shape K → K
  | .rect half => |u| * half.x + |v| * half.y
  | .roundedRect half radius => |u| * (half.x - radius) + |v| * (half.y - radius)
  | .circle _ => 0
  | .line a b _ => |u * (b.x - a.x) + v * (b.y - a.y)| / 2

def Shape.rounding {K : Type} [Field K] : Shape K → K
  | .rect _ => 0
  | .roundedRect _ radius => radius
  | .circle radius => radius
  | .line _ _ width => width / 2

/-- No size of the shape is negative, no radius more than the half sizes, and a line has a
direction. -/
def Shape.Sized {K : Type} [Field K] [LinearOrder K] : Shape K → Prop
  | .rect half => 0 ≤ half.x ∧ 0 ≤ half.y
  | .roundedRect half radius => 0 ≤ radius ∧ radius ≤ half.x ∧ radius ≤ half.y
  | .circle radius => 0 ≤ radius
  | .line a b width => a ≠ b ∧ 0 ≤ width

def Shape.boxReach {K : Type} [Field K] [LinearOrder K] (shape : Shape K) (pad u v : K) : K :=
  let lb := shape.localBounds.pad pad
  (|u| * (lb.max.x - lb.min.x) + |v| * (lb.max.y - lb.min.y) + 1) / 2

def Shape.Fits (shape : Shape ℝ) (pad aa u v : ℝ) : Prop :=
  shape.core u v + (shape.rounding + aa) * √(u * u + v * v) ≤ shape.boxReach pad u v

theorem dot_le_sqrt (u v x y : ℝ) : |u * x + v * y| ≤ √(u * u + v * v) * √(x * x + y * y) := by
  have hsq : (u * x + v * y) ^ 2 ≤ (u * u + v * v) * (x * x + y * y) := by
    have hcross := sq_nonneg (u * y - v * x)
    linarith only [hcross, show (u * u + v * v) * (x * x + y * y) - (u * x + v * y) ^ 2 =
      (u * y - v * x) ^ 2 by ring]
  rw [← Real.sqrt_mul (add_nonneg (mul_self_nonneg u) (mul_self_nonneg v))]
  exact Real.abs_le_sqrt hsq

theorem sqrt_row_pos {u v : ℝ} (h : u ≠ 0 ∨ v ≠ 0) : 0 < √(u * u + v * v) := by
  rw [Real.sqrt_pos]
  cases h with
  | inl hu => exact add_pos_of_pos_of_nonneg (mul_self_pos.mpr hu) (mul_self_nonneg v)
  | inr hv => exact add_pos_of_nonneg_of_pos (mul_self_nonneg u) (mul_self_pos.mpr hv)

theorem sdBox_reach {p half : Vec2 ℝ} {u v t : ℝ} (ht : 0 < t) (hrow : u ≠ 0 ∨ v ≠ 0) (h : sdBox Real.sqrt p half < t) :
    |u * p.x + v * p.y| < |u| * half.x + |v| * half.y + t * √(u * u + v * v) := by
  have hn := sqrt_row_pos hrow
  have habs : |u * p.x + v * p.y| ≤ |u| * |p.x| + |v| * |p.y| := by
    rw [← abs_mul, ← abs_mul]
    exact abs_add_le _ _
  apply habs.trans_lt
  by_cases hin : |p.x| ≤ half.x ∧ |p.y| ≤ half.y
  · have hux := mul_le_mul_of_nonneg_left hin.1 (abs_nonneg u)
    have hvy := mul_le_mul_of_nonneg_left hin.2 (abs_nonneg v)
    have hpos := mul_pos ht hn
    linarith
  · have hout : 0 ≤ max (|p.x| - half.x) (|p.y| - half.y) := by
      by_contra hneg
      rw [not_le, max_lt_iff] at hneg
      exact hin ⟨by linarith, by linarith⟩
    have hlen : √(max (|p.x| - half.x) 0 * max (|p.x| - half.x) 0 +
        max (|p.y| - half.y) 0 * max (|p.y| - half.y) 0) < t := by
      have h' : √(max (|p.x| - half.x) 0 * max (|p.x| - half.x) 0 +
          max (|p.y| - half.y) 0 * max (|p.y| - half.y) 0) +
          min (max (|p.x| - half.x) (|p.y| - half.y)) 0 < t := h
      rw [min_eq_right hout, add_zero] at h'
      exact h'
    have hdot := (le_abs_self _).trans (dot_le_sqrt |u| |v| (max (|p.x| - half.x) 0)
      (max (|p.y| - half.y) 0))
    rw [abs_mul_abs_self, abs_mul_abs_self] at hdot
    have hmul := mul_lt_mul_of_pos_left hlen hn
    have hux := mul_le_mul_of_nonneg_left (le_max_left (|p.x| - half.x) 0) (abs_nonneg u)
    have hvy := mul_le_mul_of_nonneg_left (le_max_left (|p.y| - half.y) 0) (abs_nonneg v)
    linarith

theorem exists_signed (u : ℝ) {x : ℝ} (hx : 0 ≤ x) : ∃ z, |z| = x ∧ u * z = |u| * x := by
  by_cases hu : 0 ≤ u
  · refine ⟨x, abs_of_nonneg hx, ?_⟩
    rw [abs_of_nonneg hu]
  · refine ⟨-x, ?_, ?_⟩
    · rw [abs_neg, abs_of_nonneg hx]
    · rw [abs_of_neg (not_le.mp hu), mul_neg, neg_mul]

theorem sdBox_attains {half : Vec2 ℝ} {u v t bound : ℝ} (hx : 0 ≤ half.x) (hy : 0 ≤ half.y)
    (hrow : u ≠ 0 ∨ v ≠ 0) (hlo : |u| * half.x + |v| * half.y ≤ bound)
    (hhi : bound < |u| * half.x + |v| * half.y + t * √(u * u + v * v)) :
    ∃ p, sdBox Real.sqrt p half < t ∧ u * p.x + v * p.y = bound := by
  have hn := sqrt_row_pos hrow
  have hsq : √(u * u + v * v) * √(u * u + v * v) = u * u + v * v :=
    Real.mul_self_sqrt (add_nonneg (mul_self_nonneg u) (mul_self_nonneg v))
  obtain ⟨step, hstep⟩ : ∃ step, step = (bound - (|u| * half.x + |v| * half.y)) / (u * u + v * v) :=
    ⟨_, rfl⟩
  have hrowpos : 0 < u * u + v * v := by
    rw [← hsq]
    exact mul_pos hn hn
  have hstep0 : 0 ≤ step := by
    rw [hstep]
    exact div_nonneg (by linarith) hrowpos.le
  have hbound : step * (u * u + v * v) = bound - (|u| * half.x + |v| * half.y) := by
    rw [hstep, div_mul_cancel₀ _ hrowpos.ne']
  have hux : 0 ≤ step * |u| := mul_nonneg hstep0 (abs_nonneg u)
  have hvy : 0 ≤ step * |v| := mul_nonneg hstep0 (abs_nonneg v)
  obtain ⟨x, habsx, hxu⟩ := exists_signed u (add_nonneg hx hux)
  obtain ⟨y, habsy, hyv⟩ := exists_signed v (add_nonneg hy hvy)
  refine ⟨⟨x, y⟩, ?_, ?_⟩
  · have hdist : sdBox Real.sqrt ⟨x, y⟩ half = step * √(u * u + v * v) := by
      have hsquare : step * |u| * (step * |u|) + step * |v| * (step * |v|) =
          step * step * (u * u + v * v) := by
        linear_combination step * step * (abs_mul_abs_self u + abs_mul_abs_self v)
      simp only [sdBox, Vec2.abs, Vec2.sub_x, Vec2.sub_y, Vec2.maxScalar, Vec2.length, Vec2.dot, habsx,
        habsy, add_sub_cancel_left, max_eq_left hux, max_eq_left hvy, hsquare]
      rw [min_eq_right (hux.trans (le_max_left _ _)), add_zero,
        Real.sqrt_mul (mul_self_nonneg step), Real.sqrt_mul_self hstep0]
    rw [hdist]
    apply lt_of_mul_lt_mul_right _ hn.le
    rw [mul_assoc, hsq, hbound]
    linarith
  · dsimp only
    rw [hxu, hyv]
    linear_combination hbound + step * (abs_mul_abs_self u + abs_mul_abs_self v)

theorem clamp_sq_le {x c : ℝ} (hc : c = 0 ∨ c = 1) :
    (clamp x 0 1 - x) ^ 2 ≤ (c - x) ^ 2 := by
  rw [sq_le_sq]
  cases hc with
  | inl hc =>
    rw [clamp, hc]
    split
    · rfl
    · split
      · rename_i h₀ h₁
        rw [abs_of_neg (by linarith), abs_of_neg (by linarith)]
        linarith
      · rw [sub_self, abs_zero]
        exact abs_nonneg _
  | inr hc =>
    rw [clamp, hc]
    split
    · rename_i h
      rw [abs_of_pos (by linarith), abs_of_pos (by linarith)]
      linarith
    · split
      · rfl
      · rw [sub_self, abs_zero]
        exact abs_nonneg _

theorem dot_self_pos {a b : Vec2 ℝ} (h : a ≠ b) : 0 < (b - a).dot (b - a) := by
  have hx := mul_self_nonneg (b - a).x
  have hy := mul_self_nonneg (b - a).y
  apply lt_of_le_of_ne (add_nonneg hx hy)
  intro h0
  apply h
  obtain ⟨hx, hy⟩ := (add_eq_zero_iff_of_nonneg hx hy).mp h0.symm
  rw [mul_self_eq_zero, Vec2.sub_x] at hx
  rw [mul_self_eq_zero, Vec2.sub_y] at hy
  cases a
  cases b
  simp only [Vec2.mk.injEq]
  exact ⟨(sub_eq_zero.mp hx).symm, (sub_eq_zero.mp hy).symm⟩

theorem sdSegment_of_ne (p : Vec2 ℝ) {a b : Vec2 ℝ} (h : a ≠ b) :
    sdSegment Real.sqrt p a b = some ((p - a - (b - a).scale
      (clamp ((p - a).dot (b - a) / (b - a).dot (b - a)) 0 1)).length Real.sqrt) := by
  rw [sdSegment]
  dsimp only
  rw [if_neg (dot_self_pos h).ne']

theorem sdSegment_reach {p a b : Vec2 ℝ} {u v t dist : ℝ} (hab : a ≠ b) (hrow : u ≠ 0 ∨ v ≠ 0)
    (hdist : sdSegment Real.sqrt p a b = some dist) (h : dist < t) :
    |u * (p.x - (a.x + b.x) / 2) + v * (p.y - (a.y + b.y) / 2)| <
      |u * (b.x - a.x) + v * (b.y - a.y)| / 2 + t * √(u * u + v * v) := by
  have hn := sqrt_row_pos hrow
  rw [sdSegment_of_ne p hab, Option.some.injEq] at hdist
  obtain ⟨hq₀, hq₁⟩ := clamp_bounds (x := (p - a).dot (b - a) / (b - a).dot (b - a))
    (zero_le_one (α := ℝ))
  generalize clamp ((p - a).dot (b - a) / (b - a).dot (b - a)) 0 1 = q at hdist hq₀ hq₁
  obtain ⟨w, hw⟩ : ∃ w, w = p - a - (b - a).scale q := ⟨_, rfl⟩
  rw [← hw, Vec2.length] at hdist
  have hsplit : u * (p.x - (a.x + b.x) / 2) + v * (p.y - (a.y + b.y) / 2) =
      u * w.x + v * w.y + (q - 1 / 2) * (u * (b.x - a.x) + v * (b.y - a.y)) := by
    simp only [hw, Vec2.sub_x, Vec2.sub_y, Vec2.scale]
    ring
  have hdot := dot_le_sqrt u v w.x w.y
  have hmul := mul_lt_mul_of_pos_left (hdist.trans_lt h) hn
  rw [Vec2.dot] at hmul
  have hhalf : |q - 1 / 2| ≤ 1 / 2 := by
    rw [abs_le]
    constructor
    · linarith
    · linarith
  have hmid := mul_le_mul_of_nonneg_right hhalf (abs_nonneg (u * (b.x - a.x) + v * (b.y - a.y)))
  rw [← abs_mul] at hmid
  rw [hsplit]
  have htri := abs_add_le (u * w.x + v * w.y) ((q - 1 / 2) * (u * (b.x - a.x) + v * (b.y - a.y)))
  linarith

theorem sdSegment_le {p a b : Vec2 ℝ} {c : ℝ} (hab : a ≠ b) (hc : c = 0 ∨ c = 1) :
    ∃ dist, sdSegment Real.sqrt p a b = some dist ∧
      dist ≤ (p - a - (b - a).scale c).length Real.sqrt := by
  refine ⟨_, sdSegment_of_ne p hab, Real.sqrt_le_sqrt ?_⟩
  have hpos := dot_self_pos hab
  obtain ⟨s, hs⟩ : ∃ s, s = (p - a).dot (b - a) / (b - a).dot (b - a) := ⟨_, rfl⟩
  have hdot : s * (b - a).dot (b - a) = (p - a).dot (b - a) := by
    rw [hs, div_mul_cancel₀ _ hpos.ne']
  have hsquare : ∀ q : ℝ, (p - a - (b - a).scale q).dot (p - a - (b - a).scale q) =
      (p - a).dot (p - a) + (b - a).dot (b - a) * ((q - s) ^ 2 - s ^ 2) := by
    intro q
    have hexpand : (p - a - (b - a).scale q).dot (p - a - (b - a).scale q) =
        (p - a).dot (p - a) - 2 * q * (p - a).dot (b - a) + q ^ 2 * (b - a).dot (b - a) := by
      simp only [Vec2.dot, Vec2.sub_x, Vec2.sub_y, Vec2.scale]
      ring
    rw [hexpand, ← hdot]
    ring
  rw [hsquare, hsquare, ← hs]
  have hle := mul_le_mul_of_nonneg_left (clamp_sq_le (x := s) hc) hpos.le
  linarith

theorem sdSegment_attains {a b : Vec2 ℝ} {u v t bound : ℝ} (hab : a ≠ b) (hrow : u ≠ 0 ∨ v ≠ 0)
    (hlo : |u * (b.x - a.x) + v * (b.y - a.y)| / 2 ≤ bound)
    (hhi : bound < |u * (b.x - a.x) + v * (b.y - a.y)| / 2 + t * √(u * u + v * v)) :
    ∃ p dist, sdSegment Real.sqrt p a b = some dist ∧ dist < t ∧
      u * (p.x - (a.x + b.x) / 2) + v * (p.y - (a.y + b.y) / 2) = bound := by
  have hn := sqrt_row_pos hrow
  have hsq : √(u * u + v * v) * √(u * u + v * v) = u * u + v * v :=
    Real.mul_self_sqrt (add_nonneg (mul_self_nonneg u) (mul_self_nonneg v))
  have hrowpos : 0 < u * u + v * v := by
    rw [← hsq]
    exact mul_pos hn hn
  -- the end of the segment that lies further along the row
  obtain ⟨c, hc, hend⟩ : ∃ c : ℝ, (c = 0 ∨ c = 1) ∧ (c - 1 / 2) *
      (u * (b.x - a.x) + v * (b.y - a.y)) = |u * (b.x - a.x) + v * (b.y - a.y)| / 2 := by
    cases abs_cases (u * (b.x - a.x) + v * (b.y - a.y)) with
    | inl h => exact ⟨1, Or.inr rfl, by linarith⟩
    | inr h => exact ⟨0, Or.inl rfl, by linarith⟩
  obtain ⟨step, hstep⟩ : ∃ step, step =
      (bound - |u * (b.x - a.x) + v * (b.y - a.y)| / 2) / (u * u + v * v) := ⟨_, rfl⟩
  have hstep0 : 0 ≤ step := by
    rw [hstep]
    exact div_nonneg (by linarith) hrowpos.le
  have hbound : step * (u * u + v * v) = bound - |u * (b.x - a.x) + v * (b.y - a.y)| / 2 := by
    rw [hstep, div_mul_cancel₀ _ hrowpos.ne']
  obtain ⟨dist, hdist, hle⟩ := sdSegment_le
    (p := ⟨a.x + (b.x - a.x) * c + step * u, a.y + (b.y - a.y) * c + step * v⟩) hab hc
  refine ⟨_, dist, hdist, hle.trans_lt ?_, ?_⟩
  · have hsquare : (⟨a.x + (b.x - a.x) * c + step * u, a.y + (b.y - a.y) * c + step * v⟩ - a -
        (b - a).scale c : Vec2 ℝ).length Real.sqrt = step * √(u * u + v * v) := by
      rw [Vec2.length, ← Real.sqrt_mul_self hstep0, ← Real.sqrt_mul (mul_self_nonneg _),
        Real.sqrt_mul_self hstep0]
      congr 1
      simp only [Vec2.dot, Vec2.sub_x, Vec2.sub_y, Vec2.scale]
      ring
    rw [hsquare]
    apply lt_of_mul_lt_mul_right _ hn.le
    rw [mul_assoc, hsq, hbound]
    linarith
  · dsimp only
    linear_combination hbound + hend

theorem forall_abs_lt_iff {P : Vec2 ℝ → Prop} {f : Vec2 ℝ → ℝ} {core top reach : ℝ}
    (hcore : core ≤ reach) (hup : ∀ p, P p → |f p| < top)
    (hat : ∀ bound, core ≤ bound → bound < top → ∃ p, P p ∧ f p = bound) :
    (∀ p, P p → |f p| < reach) ↔ top ≤ reach := by
  constructor
  · intro h
    by_contra hlt
    obtain ⟨p, hp, hfp⟩ := hat reach hcore (not_le.mp hlt)
    have hself := le_abs_self (f p)
    have hbelow := h p hp
    rw [hfp] at hself hbelow
    exact absurd hbelow hself.not_gt
  · intro h p hp
    exact (hup p hp).trans_le h

theorem reaches_iff {b : Bounds ℝ} (hx : b.min.x ≤ b.max.x) (hy : b.min.y ≤ b.max.y) (u v : ℝ)
    (p : Vec2 ℝ) :
    b.Reaches u v p ↔
      |u * (p.x - (b.min.x + b.max.x) / 2) + v * (p.y - (b.min.y + b.max.y) / 2)| <
        (|u| * (b.max.x - b.min.x) + |v| * (b.max.y - b.min.y) + 1) / 2 := by
  rw [Bounds.Reaches, abs_mul, abs_mul, abs_of_nonneg (sub_nonneg.mpr hx),
    abs_of_nonneg (sub_nonneg.mpr hy)]

theorem box_reaches_iff {half inner : Vec2 ℝ} {pad t u v : ℝ} (hpad : 0 ≤ pad)
    (hx : 0 ≤ inner.x) (hy : 0 ≤ inner.y) (hx' : inner.x ≤ half.x) (hy' : inner.y ≤ half.y)
    (ht : 0 < t) (hrow : u ≠ 0 ∨ v ≠ 0) :
    (∀ p, sdBox Real.sqrt p inner < t →
      (Bounds.pad ⟨⟨-half.x, -half.y⟩, half⟩ pad).Reaches u v p) ↔
      |u| * inner.x + |v| * inner.y + t * √(u * u + v * v) ≤
        (|u| * (half.x + pad - (-half.x - pad)) + |v| * (half.y + pad - (-half.y - pad)) + 1) / 2 := by
  have hcore : |u| * inner.x + |v| * inner.y ≤
      (|u| * (half.x + pad - (-half.x - pad)) + |v| * (half.y + pad - (-half.y - pad)) + 1) / 2 := by
    have hux := mul_le_mul_of_nonneg_left (show inner.x ≤ half.x + pad by linarith) (abs_nonneg u)
    have hvy := mul_le_mul_of_nonneg_left (show inner.y ≤ half.y + pad by linarith) (abs_nonneg v)
    linarith
  rw [← forall_abs_lt_iff (P := fun p => sdBox Real.sqrt p inner < t)
    (f := fun p => u * p.x + v * p.y) hcore (fun p hp => sdBox_reach ht hrow hp)
    (fun bound hlo hhi => sdBox_attains hx hy hrow hlo hhi)]
  have hmiddle : ∀ p : Vec2 ℝ,
      (Bounds.pad ⟨⟨-half.x, -half.y⟩, half⟩ pad).Reaches u v p ↔ |u * p.x + v * p.y| <
        (|u| * (half.x + pad - (-half.x - pad)) + |v| * (half.y + pad - (-half.y - pad)) + 1) / 2 := by
    intro p
    rw [reaches_iff (by simp only [Bounds.pad]; linarith) (by simp only [Bounds.pad]; linarith)]
    simp only [Bounds.pad]
    rw [show u * (p.x - (-half.x - pad + (half.x + pad)) / 2) +
      v * (p.y - (-half.y - pad + (half.y + pad)) / 2) = u * p.x + v * p.y by ring]
  constructor
  · intro h p hp
    exact (hmiddle p).mp (h p hp)
  · intro h p hp
    exact (hmiddle p).mpr (h p hp)

theorem sdBox_origin (sqrt : ℝ → ℝ) (p : Vec2 ℝ) : sdBox sqrt p ⟨0, 0⟩ = p.length sqrt := by
  have hx : (0 : ℝ) ≤ |p.x| := abs_nonneg _
  have hy : (0 : ℝ) ≤ |p.y| := abs_nonneg _
  simp only [sdBox, Vec2.abs, Vec2.sub_x, Vec2.sub_y, sub_zero, Vec2.maxScalar, Vec2.length, Vec2.dot,
    max_eq_left hx, max_eq_left hy, abs_mul_abs_self]
  rw [min_eq_right (hx.trans (le_max_left _ _)), add_zero]

theorem max_sub_min_eq (x y : ℝ) : max x y - min x y = |y - x| := by
  rw [max_sub_min_eq_abs']
  exact abs_sub_comm x y

theorem line_reaches_iff {a b : Vec2 ℝ} {width pad aa u v : ℝ} (hpad : 0 ≤ pad) (hab : a ≠ b)
    (hwidth : 0 ≤ width) (hrow : u ≠ 0 ∨ v ≠ 0) :
    (∀ p, (∃ dist, sdSegment Real.sqrt p a b = some dist ∧ dist < width / 2 + aa) →
      ((Shape.line a b width).localBounds.pad pad).Reaches u v p) ↔
      (Shape.line a b width).Fits pad aa u v := by
  have hx := min_le_max (a := a.x) (b := b.x)
  have hy := min_le_max (a := a.y) (b := b.y)
  have hsumx := min_add_max a.x b.x
  have hsumy := min_add_max a.y b.y
  have hcore : (Shape.line a b width).core u v ≤ (Shape.line a b width).boxReach pad u v := by
    have htri := abs_add_le (u * (b.x - a.x)) (v * (b.y - a.y))
    rw [abs_mul, abs_mul, ← max_sub_min_eq, ← max_sub_min_eq] at htri
    have hux := mul_nonneg (abs_nonneg u) (add_nonneg hwidth (add_nonneg hpad hpad))
    have hvy := mul_nonneg (abs_nonneg v) (add_nonneg hwidth (add_nonneg hpad hpad))
    simp only [Shape.core, Shape.boxReach, Shape.localBounds, Bounds.pad]
    linarith
  have hmiddle : ∀ p, ((Shape.line a b width).localBounds.pad pad).Reaches u v p ↔
      |u * (p.x - (a.x + b.x) / 2) + v * (p.y - (a.y + b.y) / 2)| <
        (Shape.line a b width).boxReach pad u v := by
    intro p
    rw [reaches_iff (by simp only [Shape.localBounds, Bounds.pad]; linarith)
      (by simp only [Shape.localBounds, Bounds.pad]; linarith)]
    have hmx : ((Shape.line a b width).localBounds.pad pad).min.x +
        ((Shape.line a b width).localBounds.pad pad).max.x = a.x + b.x := by
      simp only [Shape.localBounds, Bounds.pad]
      linarith
    have hmy : ((Shape.line a b width).localBounds.pad pad).min.y +
        ((Shape.line a b width).localBounds.pad pad).max.y = a.y + b.y := by
      simp only [Shape.localBounds, Bounds.pad]
      linarith
    rw [hmx, hmy, Shape.boxReach]
  have hextent := @forall_abs_lt_iff
    (fun p => ∃ dist, sdSegment Real.sqrt p a b = some dist ∧ dist < width / 2 + aa)
    (fun p => u * (p.x - (a.x + b.x) / 2) + v * (p.y - (a.y + b.y) / 2)) _
    ((Shape.line a b width).core u v + (width / 2 + aa) * √(u * u + v * v)) _ hcore
    (fun p hp => by
      obtain ⟨dist, hdist, hlt⟩ := hp
      exact sdSegment_reach hab hrow hdist hlt)
    (fun bound hlo hhi => by
      obtain ⟨p, dist, hdist, hlt, hp⟩ := sdSegment_attains hab hrow hlo hhi
      exact ⟨p, ⟨dist, hdist, hlt⟩, hp⟩)
  rw [Shape.Fits, Shape.rounding, ← hextent]
  constructor
  · intro h p hp
    exact (hmiddle p).mp (h p hp)
  · intro h p hp
    exact (hmiddle p).mpr (h p hp)

theorem shape_reaches_iff {shape : Shape ℝ} (hs : shape.Sized) {pad aa u v : ℝ} (hpad : 0 ≤ pad)
    (haa : 0 < aa) (hrow : u ≠ 0 ∨ v ≠ 0) :
    (∀ p, (∃ dist, signedDistance Real.sqrt p shape = some dist ∧ dist < aa) →
      (shape.localBounds.pad pad).Reaches u v p) ↔ shape.Fits pad aa u v := by
  cases shape with
  | rect half =>
    obtain ⟨hx, hy⟩ := hs
    have hbox := @box_reaches_iff half half pad _ u v hpad hx hy le_rfl le_rfl haa hrow
    simp only [signedDistance, Option.some.injEq, exists_eq_left', Shape.localBounds, Shape.Fits,
      Shape.core, Shape.rounding, Shape.boxReach, zero_add]
    exact hbox
  | roundedRect half radius =>
    obtain ⟨hr, hx, hy⟩ := hs
    have hbox := @box_reaches_iff half (half - ⟨radius, radius⟩) pad _ u v hpad
      (sub_nonneg.mpr hx) (sub_nonneg.mpr hy) (sub_le_self _ hr) (sub_le_self _ hr)
      (add_pos_of_nonneg_of_pos hr haa) hrow
    simp only [signedDistance, Option.some.injEq, exists_eq_left', Shape.localBounds, Shape.Fits,
      Shape.core, Shape.rounding, Shape.boxReach, sub_lt_iff_lt_add']
    exact hbox
  | circle radius =>
    have hr : 0 ≤ radius := hs
    have hbox := @box_reaches_iff ⟨radius, radius⟩ ⟨0, 0⟩ pad _ u v hpad le_rfl le_rfl hr hr
      (add_pos_of_nonneg_of_pos hr haa) hrow
    simp only [sdBox_origin, mul_zero, add_zero] at hbox
    simp only [signedDistance, Option.some.injEq, exists_eq_left', Shape.localBounds, Shape.Fits,
      Shape.core, Shape.rounding, Shape.boxReach, sub_lt_iff_lt_add']
    exact hbox
  | line a b width =>
    obtain ⟨hab, hw⟩ := hs
    rw [← line_reaches_iff hpad hab hw hrow]
    simp only [signedDistance, Option.map_eq_some_iff]
    constructor
    · rintro h p ⟨dist, hdist, hlt⟩
      exact h p ⟨_, ⟨dist, hdist, rfl⟩, by linarith⟩
    · rintro h p ⟨_, ⟨dist, hdist, rfl⟩, hlt⟩
      exact h p ⟨dist, hdist, by linarith⟩

def DrawCmd.placed (cmd : DrawCmd ℝ) (paint : Paint ℝ) (e f : ℝ) : DrawCmd ℝ :=
  { cmd with paint, transform := { cmd.transform with e, f } }

/-- For whatever paint and place, and into whatever surface, no pixel is lost. -/
def LosesNothing (cmd : DrawCmd ℝ) : Prop :=
  ∀ (paint : Paint ℝ) (e f : ℝ) (S : Type) [Surface S ℝ] (surf : S) (clip : Option (Bounds ℝ)),
    scanConvert Real.sqrt (cmd.placed paint e f) surf clip =
        evaluateAll Real.sqrt (cmd.placed paint e f) surf clip ∧
      ∀ x y dist,
        InRange (Surface.width surf) (Surface.height surf) (Surface.rowRange surf) x y →
        InClip clip x y →
        signedDistance Real.sqrt ((cmd.placed paint e f).transform.inverse.apply (center x y))
          cmd.shape = some dist →
        0 < coverage dist ((cmd.placed paint e f).band Real.sqrt) →
        (deviceBounds (cmd.placed paint e f) (Surface.width surf) (Surface.height surf)
          (Surface.rowRange surf) clip).Mem x y

theorem losesNothing_of_covered {cmd : DrawCmd ℝ} (hdet : cmd.transform.determinant ≠ 0)
    (h : cmd.Covered Real.sqrt) : LosesNothing cmd := by
  intro paint e f S _ surf clip
  have hdet' : (cmd.placed paint e f).transform.determinant ≠ 0 := hdet
  have hcovered : (cmd.placed paint e f).Covered Real.sqrt := h
  refine ⟨scanConvert_of_covered hdet' hcovered surf clip, ?_⟩
  intro x y dist hrange hclip hdist hcov
  rw [mem_deviceBounds_iff _ (Surface.width_lt surf) (Surface.height_lt surf)]
  refine ⟨hrange, hclip, ?_⟩
  have hreach := hcovered _ ⟨dist, hdist, (coverage_pos_iff (DrawCmd.band_pos _ _)).mp hcov⟩
  rw [← near_apply_iff, Affine.apply_inverse hdet'] at hreach
  exact hreach

theorem covered_of_losesNothing {cmd : DrawCmd ℝ} (hdet : cmd.transform.determinant ≠ 0)
    (h : LosesNothing cmd) : cmd.Covered Real.sqrt := by
  intro p htouch
  rw [← near_apply_iff]
  by_contra hfar
  -- the middle of the first pixel is put on the point
  obtain ⟨e, he⟩ : ∃ e, e = 1 / 2 - (cmd.transform.a * p.x + cmd.transform.c * p.y) := ⟨_, rfl⟩
  obtain ⟨f, hf⟩ : ∃ f, f = 1 / 2 - (cmd.transform.b * p.x + cmd.transform.d * p.y) := ⟨_, rfl⟩
  obtain ⟨placed, hplaced⟩ : ∃ placed, placed = cmd.placed (.solid ⟨0, 0, 0, 1⟩) e f := ⟨_, rfl⟩
  have hcenter : placed.transform.apply p = center 0 0 := by
    rw [hplaced, DrawCmd.placed, Affine.apply, center, he, hf]
    congr 1
    · push_cast
      ring
    · push_cast
      ring
  have hdet' : placed.transform.determinant ≠ 0 := by
    rw [hplaced]
    exact hdet
  have hpoint : placed.transform.inverse.apply (center 0 0) = p := by
    rw [← hcenter, Affine.inverse_apply hdet']
  have hsame := (h (.solid ⟨0, 0, 0, 1⟩) e f (Framebuffer ℝ) onePixel none).1
  rw [← hplaced] at hsame
  refine scanConvert_ne_of_not_near ?_ ?_ ?_ hsame
  · rw [hplaced, DrawCmd.placed]
  · rw [hpoint, hplaced]
    exact htouch
  · rw [← hcenter, near_apply_iff, hplaced]
    rw [near_apply_iff] at hfar
    exact hfar

theorem row_ne_zero {t : Affine ℝ} (h : t.determinant ≠ 0) :
    (t.a ≠ 0 ∨ t.c ≠ 0) ∧ (t.b ≠ 0 ∨ t.d ≠ 0) := by
  constructor
  · by_contra hrow
    push Not at hrow
    apply h
    rw [Affine.determinant, hrow.1, hrow.2, zero_mul, mul_zero, sub_zero]
  · by_contra hrow
    push Not at hrow
    apply h
    rw [Affine.determinant, hrow.1, hrow.2, zero_mul, mul_zero, sub_zero]

theorem covered_iff_fits {cmd : DrawCmd ℝ} (hdet : cmd.transform.determinant ≠ 0)
    (hsoft : 0 ≤ cmd.soft) (hs : cmd.shape.Sized) :
    cmd.Covered Real.sqrt ↔
      cmd.shape.Fits (2 + cmd.soft) (cmd.band Real.sqrt) cmd.transform.a cmd.transform.c ∧
        cmd.shape.Fits (2 + cmd.soft) (cmd.band Real.sqrt) cmd.transform.b cmd.transform.d := by
  have hpad : 0 ≤ 2 + cmd.soft := by linarith
  obtain ⟨hrow, hrow'⟩ := row_ne_zero hdet
  rw [← shape_reaches_iff hs hpad (cmd.band_pos _) hrow,
    ← shape_reaches_iff hs hpad (cmd.band_pos _) hrow']
  constructor
  · intro h
    exact ⟨fun p hp => (h p hp).1, fun p hp => (h p hp).2⟩
  · rintro ⟨h, h'⟩ p hp
    exact ⟨h p hp, h' p hp⟩

/-- Nothing is lost just where the padded box reaches what the band covers; for a shape with proper
sizes that is a bound on the band. -/
theorem loses_nothing_iff (cmd : DrawCmd ℝ) (hdet : cmd.transform.determinant ≠ 0)
    (hsoft : 0 ≤ cmd.soft) :
    (LosesNothing cmd ↔ cmd.Covered Real.sqrt) ∧
      (cmd.shape.Sized → (LosesNothing cmd ↔
        cmd.shape.Fits (2 + cmd.soft) (cmd.band Real.sqrt) cmd.transform.a cmd.transform.c ∧
          cmd.shape.Fits (2 + cmd.soft) (cmd.band Real.sqrt) cmd.transform.b cmd.transform.d)) ∧
      (cmd.transform.a = 1 ∧ cmd.transform.d = 1 ∧ cmd.transform.b = 0 ∧ cmd.transform.c = 0 →
        ∀ x y, cmd.transform.inverse.apply ⟨x, y⟩ = ⟨x - cmd.transform.e, y - cmd.transform.f⟩) := by
  have hiff : LosesNothing cmd ↔ cmd.Covered Real.sqrt :=
    ⟨covered_of_losesNothing hdet, losesNothing_of_covered hdet⟩
  refine ⟨hiff, ?_, fun h x y => Affine.inverse_of_translation h x y⟩
  intro hs
  rw [hiff]
  exact covered_iff_fits hdet hsoft hs

theorem box_loses_nothing :
    LosesNothing ⟨.rect ⟨10, 10⟩, .solid ⟨0, 0, 0, 1⟩, ⟨1, 0, 0, 1, 20, 20⟩, 0⟩ := by
  have hband : DrawCmd.band Real.sqrt
      ⟨.rect ⟨10, 10⟩, .solid ⟨0, 0, 0, 1⟩, ⟨1, 0, 0, 1, 20, 20⟩, 0⟩ = 1 := by
    norm_num [DrawCmd.band, Affine.scaleFactor, Affine.determinant]
  apply ((loses_nothing_iff _ (by norm_num [Affine.determinant]) le_rfl).2.1 (by
    simp only [Shape.Sized]
    norm_num)).mpr
  rw [hband]
  constructor
  · norm_num [Shape.Fits, Shape.core, Shape.rounding, Shape.boxReach, Shape.localBounds, Bounds.pad]
  · norm_num [Shape.Fits, Shape.core, Shape.rounding, Shape.boxReach, Shape.localBounds, Bounds.pad]

theorem small_box_loses_pixel :
    scanConvert Real.sqrt
        ⟨.rect ⟨100, 100⟩, .solid ⟨0, 0, 0, 1⟩, ⟨1 / 10, 0, 0, 1 / 10, -209 / 20, 1 / 2⟩, 0⟩
        (onePixel (K := ℝ)) none ≠
      evaluateAll Real.sqrt
        ⟨.rect ⟨100, 100⟩, .solid ⟨0, 0, 0, 1⟩, ⟨1 / 10, 0, 0, 1 / 10, -209 / 20, 1 / 2⟩, 0⟩
        onePixel none := by
  apply scanConvert_ne_of_not_near rfl
  · refine ⟨19 / 2, ?_, ?_⟩
    · norm_num [signedDistance, sdBox, Affine.inverse, Affine.apply, Affine.determinant, center,
        Vec2.abs, Vec2.maxScalar, Vec2.length, Vec2.dot]
    · norm_num [DrawCmd.band, Affine.scaleFactor, Affine.determinant]
  · norm_num [Affine.around, Bounds.Near, center, Shape.localBounds, Bounds.pad, Affine.apply]

theorem sqrt_row_le (u v : ℝ) : √(u * u + v * v) ≤ |u| + |v| := by
  apply Real.sqrt_le_iff.mpr
  refine ⟨add_nonneg (abs_nonneg u) (abs_nonneg v), ?_⟩
  have hcross := mul_nonneg (abs_nonneg u) (abs_nonneg v)
  have hu := abs_mul_abs_self u
  have hv := abs_mul_abs_self v
  linarith only [hcross, hu, hv, show (|u| + |v|) ^ 2 = |u| * |u| + 2 * (|u| * |v|) + |v| * |v| by ring]

theorem fits_of_band_le {shape : Shape ℝ} (hs : shape.Sized) {pad aa u v : ℝ} (haa : 0 < aa)
    (h : aa ≤ pad) : shape.Fits pad aa u v := by
  have hn := sqrt_row_le u v
  have hreach : ∀ r, 0 ≤ r → (r + aa) * √(u * u + v * v) ≤ (r + pad) * |u| + (r + pad) * |v| := by
    intro r hr
    have hscaled := mul_le_mul_of_nonneg_left hn (add_nonneg hr haa.le)
    have hu := mul_le_mul_of_nonneg_right (add_le_add_right h r) (abs_nonneg u)
    have hv := mul_le_mul_of_nonneg_right (add_le_add_right h r) (abs_nonneg v)
    linarith
  cases shape with
  | rect half =>
    have hroom := hreach 0 le_rfl
    simp only [Shape.Fits, Shape.core, Shape.rounding, Shape.boxReach, Shape.localBounds, Bounds.pad]
    linarith
  | roundedRect half radius =>
    have hroom := hreach radius hs.1
    simp only [Shape.Fits, Shape.core, Shape.rounding, Shape.boxReach, Shape.localBounds, Bounds.pad]
    linarith
  | circle radius =>
    have hroom := hreach radius hs
    simp only [Shape.Fits, Shape.core, Shape.rounding, Shape.boxReach, Shape.localBounds, Bounds.pad]
    linarith
  | line a b width =>
    obtain ⟨-, hw⟩ := hs
    have hroom := hreach (width / 2) (by linarith)
    have htri := abs_add_le (u * (b.x - a.x)) (v * (b.y - a.y))
    rw [abs_mul, abs_mul, ← max_sub_min_eq, ← max_sub_min_eq] at htri
    simp only [Shape.Fits, Shape.core, Shape.rounding, Shape.boxReach, Shape.localBounds, Bounds.pad]
    linarith

theorem losesNothing_of_scale {cmd : DrawCmd ℝ} (hsoft : 0 ≤ cmd.soft) (hs : cmd.shape.Sized)
    (hscale : 1 / 2 ≤ cmd.transform.scaleFactor Real.sqrt) : LosesNothing cmd := by
  have hpos : 0 < cmd.transform.scaleFactor Real.sqrt := by linarith
  have hdet : cmd.transform.determinant ≠ 0 := by
    intro h0
    rw [Affine.scaleFactor, h0, abs_zero, Real.sqrt_zero] at hpos
    exact lt_irrefl 0 hpos
  have hband : cmd.band Real.sqrt ≤ 2 + cmd.soft := by
    refine max_le (max_le ?_ ?_) ?_
    · have hle := hscale.trans (le_max_left (cmd.transform.scaleFactor Real.sqrt) (1 / 10 ^ 6))
      have htwo := one_div_le_one_div_of_le (show (0 : ℝ) < 1 / 2 by norm_num) hle
      rw [one_div_one_div] at htwo
      linarith
    · norm_num
      linarith
    · linarith
  apply losesNothing_of_covered hdet
  rw [covered_iff_fits hdet hsoft hs]
  exact ⟨fits_of_band_le hs (cmd.band_pos _) hband, fits_of_band_le hs (cmd.band_pos _) hband⟩

theorem losesNothing_of_scale_rotated :
    LosesNothing ⟨.circle 3, .solid ⟨0, 0, 0, 1⟩, ⟨0, 1, -1, 0, 20, 20⟩, 1⟩ :=
  losesNothing_of_scale zero_le_one (show (0 : ℝ) ≤ 3 by norm_num)
    (by norm_num [Affine.scaleFactor, Affine.determinant])

end AtomVibe.Raster
