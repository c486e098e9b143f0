import AtomVibe.Raster
import Mathlib.Tactic.Linarith
import Mathlib.Tactic.Positivity
import Mathlib.Tactic.LinearCombination
import Mathlib.Tactic.Tauto
import Mathlib.Algebra.Order.Group.MinMax

namespace AtomVibe.Raster

section Generic

variable {K : Type} [Field K] [LinearOrder K] [IsStrictOrderedRing K]

omit [Field K] [IsStrictOrderedRing K] in
theorem clamp_bounds {x lo hi : K} (h : lo ≤ hi) : lo ≤ clamp x lo hi ∧ clamp x lo hi ≤ hi := by
  rw [clamp]
  split
  · exact ⟨le_rfl, h⟩
  · split
    · exact ⟨h, le_rfl⟩
    · rename_i h₁ h₂
      exact ⟨not_lt.mp h₁, not_lt.mp h₂⟩

theorem clamp_lt_one_iff {x : K} : clamp x 0 1 < 1 ↔ x < 1 := by
  rw [clamp]
  split
  · rename_i h
    exact ⟨fun _ => h.trans zero_lt_one, fun _ => zero_lt_one⟩
  · split
    · rename_i h
      exact ⟨fun h' => absurd h' (lt_irrefl 1), fun h' => absurd h' h.not_gt⟩
    · rfl

theorem coverage_pos_iff {dist aa : K} (haa : 0 < aa) : 0 < coverage dist aa ↔ dist < aa := by
  have hwidth : 0 < aa - -aa := by linarith
  have hedge : (dist - -aa) / (aa - -aa) < 1 ↔ dist < aa := by
    rw [div_lt_one hwidth]
    constructor
    · intro h
      linarith
    · intro h
      linarith
  obtain ⟨h₀, h₁⟩ := clamp_bounds (x := (dist - -aa) / (aa - -aa)) (zero_le_one (α := K))
  rw [← hedge, ← clamp_lt_one_iff, coverage, smoothstep]
  generalize clamp ((dist - -aa) / (aa - -aa)) 0 1 = t at h₀ h₁
  have hfactor : 1 - t * t * (3 - 2 * t) = (1 - t) * ((1 - t) * (1 + 2 * t)) := by ring
  rw [hfactor]
  constructor
  · intro h
    apply lt_of_le_of_ne h₁
    rintro rfl
    simp at h
  · intro h
    have : 0 < 1 - t := by linarith
    positivity

theorem DrawCmd.band_pos (sqrt : K → K) (cmd : DrawCmd K) : 0 < cmd.band sqrt := by
  have h : (0 : K) < 1 / 10 ^ 4 := by positivity
  exact lt_of_lt_of_le h ((le_max_right _ _).trans (le_max_left _ _))

theorem Affine.apply_inverse {t : Affine K} (h : t.determinant ≠ 0) (p : Vec2 K) :
    t.apply (t.inverse.apply p) = p := by
  have hinv : t.determinant * (1 / t.determinant) = 1 := mul_one_div_cancel h
  simp only [apply, inverse]
  generalize 1 / t.determinant = i at hinv
  rw [determinant] at hinv
  congr 1
  · linear_combination (p.x - t.e) * hinv
  · linear_combination (p.y - t.f) * hinv

theorem Affine.inverse_apply {t : Affine K} (h : t.determinant ≠ 0) (p : Vec2 K) :
    t.inverse.apply (t.apply p) = p := by
  have hinv : t.determinant * (1 / t.determinant) = 1 := mul_one_div_cancel h
  simp only [apply, inverse]
  generalize 1 / t.determinant = i at hinv
  rw [determinant] at hinv
  congr 1
  · linear_combination p.x * hinv
  · linear_combination p.y * hinv

theorem Affine.inverse_of_translation {t : Affine K} (h : t.a = 1 ∧ t.d = 1 ∧ t.b = 0 ∧ t.c = 0)
    (x y : K) : t.inverse.apply ⟨x, y⟩ = ⟨x - t.e, y - t.f⟩ := by
  obtain ⟨ha, hd, hb, hc⟩ := h
  simp only [apply, inverse, determinant, ha, hd, hb, hc]
  congr 1
  · ring
  · ring

end Generic

theorem foldl_eq_self {σ α : Type} {f : σ → α → σ} {l : List α} (h : ∀ s, ∀ x ∈ l, f s x = s) (s : σ) :
    l.foldl f s = s := by
  induction l generalizing s with
  | nil => rfl
  | cons x l ih =>
    rw [List.foldl_cons, h s x (List.mem_cons_self ..)]
    exact ih (fun s y hy => h s y (List.mem_cons_of_mem _ hy)) s

theorem foldl_congr_mem {σ α : Type} {f g : σ → α → σ} {l : List α}
    (h : ∀ s, ∀ x ∈ l, f s x = g s x) (s : σ) : l.foldl f s = l.foldl g s := by
  induction l generalizing s with
  | nil => rfl
  | cons x l ih =>
    rw [List.foldl_cons, List.foldl_cons, h s x (List.mem_cons_self ..)]
    exact ih (fun s y hy => h s y (List.mem_cons_of_mem _ hy)) _

theorem foldl_range'_sub {σ : Type} {f : σ → ℕ → σ} {lo hi a b : ℕ} (ha : lo ≤ a) (hb : b ≤ hi)
    (h : ∀ s x, lo ≤ x → x < hi → ¬(a ≤ x ∧ x < b) → f s x = s) (s : σ) :
    (List.range' lo (hi - lo)).foldl f s = (List.range' a (b - a)).foldl f s := by
  by_cases hab : a ≤ b
  · have hsplit : List.range' lo (hi - lo) =
        List.range' lo (a - lo) ++ (List.range' a (b - a) ++ List.range' b (hi - b)) := by
      have h₁ : List.range' a (b - a) ++ List.range' b (hi - b) = List.range' a (hi - a) := by
        have := List.range'_append_1 (s := a) (m := b - a) (n := hi - b)
        rw [show a + (b - a) = b by omega, show b - a + (hi - b) = hi - a by omega] at this
        exact this
      have h₂ := List.range'_append_1 (s := lo) (m := a - lo) (n := hi - a)
      rw [show lo + (a - lo) = a by omega, show a - lo + (hi - a) = hi - lo by omega] at h₂
      rw [h₁, h₂]
    rw [hsplit, List.foldl_append, List.foldl_append]
    rw [foldl_eq_self (f := f) (l := List.range' lo (a - lo))]
    · apply foldl_eq_self
      intro s x hx
      rw [List.mem_range'_1] at hx
      exact h s x (by omega) (by omega) (by omega)
    · intro s x hx
      rw [List.mem_range'_1] at hx
      exact h s x (by omega) (by omega) (by omega)
  · rw [show b - a = 0 by omega]
    apply foldl_eq_self
    intro s x hx
    rw [List.mem_range'_1] at hx
    exact h s x (by omega) (by omega) (by omega)

section Culling

variable {K : Type} [Field K] [LinearOrder K]

def DrawCmd.Touches (sqrt : K → K) (cmd : DrawCmd K) (p : Vec2 K) : Prop :=
  ∃ dist, signedDistance sqrt p cmd.shape = some dist ∧ dist < cmd.band sqrt

def center (x y : ℕ) : Vec2 K := ⟨x + 1 / 2, y + 1 / 2⟩

def Bounds.Near (b : Bounds K) (p : Vec2 K) : Prop :=
  (b.min.x < p.x + 1 / 2 ∧ p.x - 1 / 2 < b.max.x) ∧ (b.min.y < p.y + 1 / 2 ∧ p.y - 1 / 2 < b.max.y)

def PixelBox.Mem (box : PixelBox) (x y : ℕ) : Prop :=
  (box.x0 ≤ x ∧ x < box.x1) ∧ (box.y0 ≤ y ∧ y < box.y1)

def InRange (w h : ℕ) (rows : ℕ × ℕ) (x y : ℕ) : Prop := x < w ∧ y < h ∧ rows.1 ≤ y ∧ y < rows.2

variable [IsStrictOrderedRing K] {S : Type} [Surface S K]

theorem convertPixel_of_not_touches {sqrt : K → K} {cmd : DrawCmd K} {toLocal : K → K → Vec2 K}
    {x y : ℕ} (h : ¬cmd.Touches sqrt (toLocal (x + 1 / 2) (y + 1 / 2))) (surf : S) :
    convertPixel sqrt cmd (cmd.band sqrt) toLocal y surf x = surf := by
  rw [convertPixel]
  dsimp only
  split
  · rfl
  · rename_i dist hdist
    rw [if_neg]
    intro hcov
    exact h ⟨dist, hdist, (coverage_pos_iff (cmd.band_pos sqrt)).mp hcov⟩

variable [FloorRing K]

omit [IsStrictOrderedRing K] in
theorem floor_le_natCast_iff (x : K) (n : ℕ) : ⌊x⌋ ≤ n ↔ x < n + 1 := by
  rw [← Int.lt_add_one_iff, Int.floor_lt]
  push_cast
  rfl

omit [IsStrictOrderedRing K] in
theorem natCast_lt_ceil_iff (x : K) (n : ℕ) : (n : ℤ) < ⌈x⌉ ↔ (n : K) < x := by
  rw [Int.lt_ceil]
  push_cast
  rfl

omit [IsStrictOrderedRing K] in
theorem asU32_floor_le_iff {x : K} {n : ℕ} (hn : n < 2 ^ 32 - 1) :
    asU32 ⌊x⌋ ≤ n ↔ x < n + 1 := by
  rw [← floor_le_natCast_iff, asU32]
  omega

omit [IsStrictOrderedRing K] in
theorem lt_asU32_ceil_iff {x : K} {n : ℕ} (hn : n < 2 ^ 32 - 1) :
    n < asU32 ⌈x⌉ ↔ (n : K) < x := by
  rw [← natCast_lt_ceil_iff, asU32]
  omega

omit [IsStrictOrderedRing K] in
theorem inClip_some_iff (c : Bounds K) (x y : ℕ) :
    InClip (some c) x y ↔
      (c.min.x < x + 1 ∧ (x : K) < c.max.x) ∧ (c.min.y < y + 1 ∧ (y : K) < c.max.y) := by
  simp only [InClip, Option.mem_some_iff, forall_eq', floor_le_natCast_iff, natCast_lt_ceil_iff]

theorem mem_deviceBounds_iff (cmd : DrawCmd K) {w h : ℕ} (hw : w < 2 ^ 32) (hh : h < 2 ^ 32)
    (rows : ℕ × ℕ) (clip : Option (Bounds K)) (x y : ℕ) :
    (deviceBounds cmd w h rows clip).Mem x y ↔
      InRange w h rows x y ∧ InClip clip x y ∧
        (cmd.transform.around (cmd.shape.localBounds.pad (2 + cmd.soft))).Near (center x y) := by
  generalize hbox : cmd.transform.around (cmd.shape.localBounds.pad (2 + cmd.soft)) = box
  have hnear : box.Near (center x y) ↔
      (box.min.x < x + 1 ∧ (x : K) < box.max.x) ∧ (box.min.y < y + 1 ∧ (y : K) < box.max.y) := by
    have hhalf : (1 : K) / 2 + 1 / 2 = 1 := add_halves 1
    simp only [Bounds.Near, center, add_assoc, hhalf, add_sub_cancel_right]
  rw [hnear]
  simp only [PixelBox.Mem, deviceBounds, hbox, InRange, max_le_iff, lt_min_iff]
  by_cases hx : x < w
  · by_cases hy : y < h
    · rw [asU32_floor_le_iff (by omega), asU32_floor_le_iff (by omega),
        lt_asU32_ceil_iff (by omega), lt_asU32_ceil_iff (by omega)]
      cases clip with
      | none =>
        simp only [intersectClip, InClip, Option.mem_def, reduceCtorEq, IsEmpty.forall_iff, implies_true]
        tauto
      | some c =>
        rw [inClip_some_iff]
        simp only [intersectClip, max_lt_iff, lt_min_iff]
        tauto
    · tauto
  · tauto

theorem scanConvert_eq (sqrt : K → K) (cmd : DrawCmd K) (surf : S) (clip : Option (Bounds K)) :
    scanConvert sqrt cmd surf clip = convertRows sqrt cmd surf
      (deviceBounds cmd (Surface.width surf) (Surface.height surf) (Surface.rowRange surf) clip)
      (cmd.band sqrt) fun x y => cmd.transform.inverse.apply ⟨x, y⟩ := by
  rw [scanConvert]
  dsimp only
  split
  · rename_i h
    simp only [Affine.inverse_of_translation h]
  · rfl

theorem scanConvert_eq_evaluateAll (sqrt : K → K) (cmd : DrawCmd K) (surf : S)
    (clip : Option (Bounds K))
    (h : ∀ x y, cmd.Touches sqrt (cmd.transform.inverse.apply (center x y)) →
      (cmd.transform.around (cmd.shape.localBounds.pad (2 + cmd.soft))).Near (center x y)) :
    scanConvert sqrt cmd surf clip = evaluateAll sqrt cmd surf clip := by
  rw [scanConvert_eq, evaluateAll, convertRows]
  have hmem := mem_deviceBounds_iff cmd (Surface.width_lt surf) (Surface.height_lt surf)
    (Surface.rowRange surf) clip
  have hy0 : (Surface.rowRange surf).1 ≤ (deviceBounds cmd (Surface.width surf)
      (Surface.height surf) (Surface.rowRange surf) clip).y0 := le_max_right _ _
  have hy1 : (deviceBounds cmd (Surface.width surf) (Surface.height surf) (Surface.rowRange surf)
      clip).y1 ≤ min (Surface.height surf) (Surface.rowRange surf).2 := by
    rw [deviceBounds, min_assoc]
    exact min_le_right _ _
  have hx1 : (deviceBounds cmd (Surface.width surf) (Surface.height surf) (Surface.rowRange surf)
      clip).x1 ≤ Surface.width surf := min_le_right _ _
  generalize deviceBounds cmd (Surface.width surf) (Surface.height surf) (Surface.rowRange surf)
    clip = box at hmem hy0 hy1 hx1
  -- a pixel of the range outside the box is drawn by neither side
  have hskip : ∀ (surf' : S) (x y : ℕ), InRange (Surface.width surf) (Surface.height surf)
      (Surface.rowRange surf) x y → ¬box.Mem x y →
      (if InClip clip x y then convertPixel sqrt cmd (cmd.band sqrt)
        (fun x y => cmd.transform.inverse.apply ⟨x, y⟩) y surf' x else surf') = surf' := by
    intro surf' x y hrange hout
    by_cases hclip : InClip clip x y
    · rw [if_pos hclip]
      apply convertPixel_of_not_touches
      intro htouch
      exact hout ((hmem x y).mpr ⟨hrange, hclip, h x y htouch⟩)
    · rw [if_neg hclip]
  symm
  rw [foldl_range'_sub hy0 hy1]
  · apply foldl_congr_mem
    intro surf' y hy
    rw [List.mem_range'_1] at hy
    have hrow : ∀ x, x < Surface.width surf →
        InRange (Surface.width surf) (Surface.height surf) (Surface.rowRange surf) x y := by
      intro x hx
      exact ⟨hx, by omega, by omega, by omega⟩
    rw [← Nat.sub_zero (Surface.width surf), foldl_range'_sub (Nat.zero_le box.x0) hx1]
    · apply foldl_congr_mem
      intro surf'' x hx
      rw [List.mem_range'_1] at hx
      have hbox : box.Mem x y := ⟨by omega, by omega⟩
      rw [if_pos ((hmem x y).mp hbox).2.1]
    · intro surf'' x _ hx hout
      apply hskip surf'' x y (hrow x hx)
      intro hbox
      exact hout hbox.1
  · intro surf' y hlo hhi hout
    apply foldl_eq_self
    intro surf'' x hx
    rw [List.mem_range'_1] at hx
    apply hskip surf'' x y ⟨by omega, by omega, by omega, by omega⟩
    intro hbox
    exact hout hbox.2

def Bounds.Reaches (b : Bounds K) (u v : K) (p : Vec2 K) : Prop :=
  |u * (p.x - (b.min.x + b.max.x) / 2) + v * (p.y - (b.min.y + b.max.y) / 2)| <
    (|u * (b.max.x - b.min.x)| + |v * (b.max.y - b.min.y)| + 1) / 2

omit [FloorRing K] in
theorem min_corners (m a b : K) :
    min (min (min (m - a - b) (m + a - b)) (m - a + b)) (m + a + b) = m - (|a| + |b|) := by
  apply le_antisymm
  · cases abs_cases a with
    | inl ha =>
      cases abs_cases b with
      | inl hb => exact ((min_le_left _ _).trans (min_le_left _ _)).trans ((min_le_left _ _).trans
          (by linarith))
      | inr hb => exact ((min_le_left _ _).trans (min_le_right _ _)).trans (by linarith)
    | inr ha =>
      cases abs_cases b with
      | inl hb => exact ((min_le_left _ _).trans (min_le_left _ _)).trans ((min_le_right _ _).trans
          (by linarith))
      | inr hb => exact (min_le_right _ _).trans (by linarith)
  · have ha := abs_le.mp (le_refl |a|)
    have hb := abs_le.mp (le_refl |b|)
    refine le_min (le_min (le_min ?_ ?_) ?_) ?_
    · linarith
    · linarith
    · linarith
    · linarith

omit [FloorRing K] in
theorem max_corners (m a b : K) :
    max (max (max (m - a - b) (m + a - b)) (m - a + b)) (m + a + b) = m + (|a| + |b|) := by
  have h := min_corners (-m) a b
  have hneg : ∀ x y : K, max x y = -min (-x) (-y) := by
    intro x y
    rw [min_neg_neg, neg_neg]
  rw [hneg, hneg, hneg, neg_neg, neg_neg, neg_eq_iff_eq_neg]
  have hcomm : min (min (min (-(m - a - b)) (-(m + a - b))) (-(m - a + b))) (-(m + a + b)) =
      min (min (min (-m - a - b) (-m + a - b)) (-m - a + b)) (-m + a + b) := by
    rw [show -(m - a - b) = -m + a + b by ring, show -(m + a - b) = -m - a + b by ring,
      show -(m - a + b) = -m + a - b by ring, show -(m + a + b) = -m - a - b by ring]
    ac_rfl
  rw [hcomm, h]
  ring

omit [FloorRing K] in
theorem near_apply_iff (t : Affine K) (b : Bounds K) (p : Vec2 K) :
    (t.around b).Near (t.apply p) ↔ b.Reaches t.a t.c p ∧ b.Reaches t.b t.d p := by
  have hrow : ∀ u v w : K,
      (min (min (min (u * b.min.x + v * b.min.y + w) (u * b.max.x + v * b.min.y + w))
          (u * b.min.x + v * b.max.y + w)) (u * b.max.x + v * b.max.y + w) <
          u * p.x + v * p.y + w + 1 / 2 ∧
        u * p.x + v * p.y + w - 1 / 2 <
          max (max (max (u * b.min.x + v * b.min.y + w) (u * b.max.x + v * b.min.y + w))
            (u * b.min.x + v * b.max.y + w)) (u * b.max.x + v * b.max.y + w)) ↔
        b.Reaches u v p := by
    intro u v w
    have hmin : u * b.min.x + v * b.min.y + w = u * ((b.min.x + b.max.x) / 2) +
        v * ((b.min.y + b.max.y) / 2) + w - u * (b.max.x - b.min.x) / 2 -
        v * (b.max.y - b.min.y) / 2 := by ring
    have hright : u * b.max.x + v * b.min.y + w = u * ((b.min.x + b.max.x) / 2) +
        v * ((b.min.y + b.max.y) / 2) + w + u * (b.max.x - b.min.x) / 2 -
        v * (b.max.y - b.min.y) / 2 := by ring
    have hbelow : u * b.min.x + v * b.max.y + w = u * ((b.min.x + b.max.x) / 2) +
        v * ((b.min.y + b.max.y) / 2) + w - u * (b.max.x - b.min.x) / 2 +
        v * (b.max.y - b.min.y) / 2 := by ring
    have hmax : u * b.max.x + v * b.max.y + w = u * ((b.min.x + b.max.x) / 2) +
        v * ((b.min.y + b.max.y) / 2) + w + u * (b.max.x - b.min.x) / 2 +
        v * (b.max.y - b.min.y) / 2 := by ring
    rw [hmin, hright, hbelow, hmax, min_corners, max_corners, Bounds.Reaches, abs_lt, abs_div,
      abs_div, abs_two]
    constructor
    · rintro ⟨hlo, hhi⟩
      constructor
      · linarith
      · linarith
    · rintro ⟨hlo, hhi⟩
      constructor
      · linarith
      · linarith
  exact and_congr (hrow t.a t.c t.e) (hrow t.b t.d t.f)

def DrawCmd.Covered (sqrt : K → K) (cmd : DrawCmd K) : Prop :=
  ∀ p, cmd.Touches sqrt p →
    (cmd.shape.localBounds.pad (2 + cmd.soft)).Reaches cmd.transform.a cmd.transform.c p ∧
      (cmd.shape.localBounds.pad (2 + cmd.soft)).Reaches cmd.transform.b cmd.transform.d p

theorem scanConvert_of_covered {sqrt : K → K} {cmd : DrawCmd K}
    (hdet : cmd.transform.determinant ≠ 0) (h : cmd.Covered sqrt) (surf : S)
    (clip : Option (Bounds K)) :
    scanConvert sqrt cmd surf clip = evaluateAll sqrt cmd surf clip := by
  apply scanConvert_eq_evaluateAll
  intro x y htouch
  rw [← Affine.apply_inverse hdet (center x y), near_apply_iff]
  exact h _ htouch

def onePixel : Framebuffer K :=
  { width := 1
    height := 1
    pixels := [.transparent]
    size := rfl
    width_lt := by decide
    height_lt := by decide
    size_lt := by decide }

omit [FloorRing K] in
theorem over_transparent_alpha_pos {src : Rgba K} (h : 0 < src.a) :
    0 < («over» Rgba.transparent src).a := by
  rw [«over»]
  split
  · exact h
  · rw [if_neg h.not_ge, Rgba.transparent, if_neg (not_le.mpr zero_lt_one)]
    have hout : src.a + 0 * (1 - src.a) = src.a := by ring
    dsimp only
    rw [hout, if_neg h.not_ge]
    exact h

theorem scanConvert_ne_of_not_near {sqrt : K → K} {cmd : DrawCmd K}
    (hpaint : cmd.paint = .solid ⟨0, 0, 0, 1⟩)
    (htouch : cmd.Touches sqrt (cmd.transform.inverse.apply (center 0 0)))
    (hfar : ¬(cmd.transform.around (cmd.shape.localBounds.pad (2 + cmd.soft))).Near (center 0 0)) :
    scanConvert sqrt cmd (onePixel (K := K)) none ≠ evaluateAll sqrt cmd onePixel none := by
  have hscan : scanConvert sqrt cmd (onePixel (K := K)) none = onePixel := by
    rw [scanConvert_eq, convertRows]
    apply foldl_eq_self
    intro surf y hy
    apply foldl_eq_self
    intro surf x hx
    rw [List.mem_range'_1] at hx hy
    have hmem := (mem_deviceBounds_iff cmd (Surface.width_lt (onePixel (K := K)))
      (Surface.height_lt (onePixel (K := K))) (Surface.rowRange (onePixel (K := K))) none x y).mp
      ⟨by omega, by omega⟩
    obtain ⟨⟨hx, hy, -⟩, -, hnear⟩ := hmem
    obtain rfl : x = 0 := Nat.lt_one_iff.mp hx
    obtain rfl : y = 0 := Nat.lt_one_iff.mp hy
    exact absurd hnear hfar
  have hall : evaluateAll sqrt cmd (onePixel (K := K)) none = convertPixel sqrt cmd (cmd.band sqrt)
      (fun x y => cmd.transform.inverse.apply ⟨x, y⟩) 0 onePixel 0 := by
    rfl
  rw [hscan, hall, convertPixel]
  obtain ⟨dist, hdist, hlt⟩ := htouch
  have hcov := (coverage_pos_iff (cmd.band_pos sqrt)).mpr hlt
  rw [center] at hdist
  dsimp only
  rw [hdist]
  dsimp only
  rw [if_pos hcov, hpaint]
  intro heq
  have hpixel : (onePixel (K := K)).pixel 0 0 = Rgba.transparent := rfl
  have halpha := congrArg (fun fb : Framebuffer K => (fb.pixel 0 0).a) heq
  dsimp only [Surface.blendOver] at halpha
  rw [Framebuffer.blendOver_eq, Framebuffer.pixel_setPixel,
    if_pos ⟨⟨rfl, rfl⟩, Nat.one_pos, Nat.one_pos⟩, hpixel] at halpha
  have hpos : 0 < (1 : K) * coverage dist (cmd.band sqrt) := by
    rw [one_mul]
    exact hcov
  exact absurd halpha (ne_of_lt (over_transparent_alpha_pos hpos))

end Culling

end AtomVibe.Raster
