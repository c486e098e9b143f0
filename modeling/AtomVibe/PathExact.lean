import AtomVibe.PathFill

namespace AtomVibe.PathFill

open Raster (Vec2 Bounds Paint Framebuffer)
open MeasureTheory Set
open SweepLine (signSum sweepLength)

noncomputable def averageInside (subpaths : List (List (Vec2 ℝ))) (px y : ℤ) : ℝ :=
  ((List.range subscanlines).map fun k => (volume {t : ℝ | t ∈ Icc (px : ℝ) (px + 1) ∧
    winding subpaths ⟨t, sampleRow y k⟩ ≠ 0}).toReal).sum / subscanlines

theorem sortedCrossings_pairwise (subpaths : List (List (Vec2 ℝ))) (sy : ℝ) :
    (sortedCrossings subpaths sy).Pairwise fun p q => p.1 ≤ q.1 := by
  have hsorted : (sortedCrossings subpaths sy).Pairwise fun p q => decide (p.1 ≤ q.1) = true := by
    apply List.pairwise_mergeSort
    · intro p q r hpq hqr
      rw [decide_eq_true_eq] at hpq hqr ⊢
      exact hpq.trans hqr
    · intro p q
      rw [Bool.or_eq_true, decide_eq_true_eq, decide_eq_true_eq]
      exact le_total _ _
  exact hsorted.imp fun h => of_decide_eq_true h

theorem sortedCrossings_perm (subpaths : List (List (Vec2 ℝ))) (sy : ℝ) :
    (sortedCrossings subpaths sy).Perm (crossings subpaths sy) := List.mergeSort_perm _ _

theorem sortedCrossings_total (subpaths : List (List (Vec2 ℝ))) (sy : ℝ) :
    ((sortedCrossings subpaths sy).map Prod.snd).sum = 0 := by
  rw [((sortedCrossings_perm subpaths sy).map _).sum_eq]
  exact crossings_total subpaths sy

theorem volume_winding (subpaths : List (List (Vec2 ℝ))) (lo hi sy : ℝ) :
    volume {t : ℝ | t ∈ Icc lo hi ∧ winding subpaths ⟨t, sy⟩ ≠ 0} =
      ENNReal.ofReal (sweepLength lo hi (sortedCrossings subpaths sy) 0) := by
  rw [← SweepLine.volume_signSum lo hi (sortedCrossings_pairwise subpaths sy)
    (sortedCrossings_total subpaths sy)]
  simp only [winding_eq_signSum, SweepLine.signSum_perm (sortedCrossings_perm subpaths sy)]

theorem rowCoverage_exact (subpaths : List (List (Vec2 ℝ))) {x0 x1 : ℤ} (hlower : -2 ^ 31 ≤ x0)
    (hupper : x1 ≤ 2 ^ 31 - 1) (y : ℤ) {i : ℕ} (hi : x0 + i < x1) :
    (rowCoverage subpaths x0 x1 y)[i]? = some (averageInside subpaths (x0 + i) y) := by
  rw [rowCoverage_getElem? subpaths hlower hupper y hi, averageInside]
  simp only [volume_winding, ENNReal.toReal_ofReal (SweepLine.sweepLength_nonneg _ _ _ _)]
  rw [one_div_mul_eq_div]

theorem averageInside_bounds (subpaths : List (List (Vec2 ℝ))) (px y : ℤ) :
    0 ≤ averageInside subpaths px y ∧ averageInside subpaths px y ≤ 1 := by
  have hpart : ∀ k, 0 ≤ sweepLength (px : ℝ) (px + 1) (sortedCrossings subpaths (sampleRow y k)) 0 ∧
      sweepLength (px : ℝ) (px + 1) (sortedCrossings subpaths (sampleRow y k)) 0 ≤ 1 := by
    intro k
    refine ⟨SweepLine.sweepLength_nonneg _ _ _ _, ?_⟩
    have hle := SweepLine.sweepLength_le (show (px : ℝ) ≤ px + 1 by linarith)
      (sortedCrossings_pairwise subpaths (sampleRow y k)) (sortedCrossings_total subpaths _)
    linarith
  have hsum : ∀ ks : List ℕ,
      0 ≤ (ks.map fun k => (volume {t : ℝ | t ∈ Icc (px : ℝ) (px + 1) ∧
        winding subpaths ⟨t, sampleRow y k⟩ ≠ 0}).toReal).sum ∧
      (ks.map fun k => (volume {t : ℝ | t ∈ Icc (px : ℝ) (px + 1) ∧
        winding subpaths ⟨t, sampleRow y k⟩ ≠ 0}).toReal).sum ≤ ks.length := by
    intro ks
    simp only [volume_winding, ENNReal.toReal_ofReal (SweepLine.sweepLength_nonneg _ _ _ _)]
    induction ks with
    | nil => simp
    | cons k ks ih =>
      rw [List.map_cons, List.sum_cons, List.length_cons]
      push_cast
      obtain ⟨hlo, hhi⟩ := hpart k
      constructor
      · linarith
      · linarith
  obtain ⟨hlo, hhi⟩ := hsum (List.range subscanlines)
  have hcount : (0 : ℝ) < subscanlines := by
    rw [subscanlines]
    norm_num
  rw [List.length_range] at hhi
  rw [averageInside]
  refine ⟨div_nonneg hlo hcount.le, ?_⟩
  rw [div_le_one hcount]
  exact hhi

theorem averageInside_congr {subpaths subpaths' : List (List (Vec2 ℝ))}
    (h : ∀ p, winding subpaths' p = 0 ↔ winding subpaths p = 0) (px y : ℤ) :
    averageInside subpaths' px y = averageInside subpaths px y := by
  simp only [averageInside, ne_eq, h]

theorem rowCoverage_none (subpaths : List (List (Vec2 ℝ))) {x0 x1 : ℤ} (hlower : -2 ^ 31 ≤ x0)
    (hupper : x1 ≤ 2 ^ 31 - 1) (hlt : x0 < x1) (y : ℤ) {i : ℕ} (hi : x1 ≤ x0 + i) :
    (rowCoverage subpaths x0 x1 y)[i]? = none := by
  have hblank : CellRange x0 x1 (List.replicate (x1 - x0).toNat (0 : ℝ)) := by
    refine ⟨hlower, hupper, ?_⟩
    rw [List.length_replicate]
    omega
  rw [rowCoverage, scanLines_getElem? subpaths y _ hblank, List.getElem?_replicate,
    if_neg (by omega), Option.map_none]

theorem rowCoverage_congr {subpaths subpaths' : List (List (Vec2 ℝ))}
    (h : ∀ p, winding subpaths' p = 0 ↔ winding subpaths p = 0) {x0 x1 : ℤ}
    (hlower : -2 ^ 31 ≤ x0) (hupper : x1 ≤ 2 ^ 31 - 1) (hlt : x0 < x1) (y : ℤ) :
    rowCoverage subpaths' x0 x1 y = rowCoverage subpaths x0 x1 y := by
  apply List.ext_getElem?
  intro i
  by_cases hi : x0 + i < x1
  · rw [rowCoverage_exact subpaths' hlower hupper y hi, rowCoverage_exact subpaths hlower hupper y hi,
      averageInside_congr h]
  · rw [rowCoverage_none subpaths' hlower hupper hlt y (not_lt.mp hi),
      rowCoverage_none subpaths hlower hupper hlt y (not_lt.mp hi)]

theorem asI32_bounds (x : ℝ) : -2 ^ 31 ≤ asI32 x ∧ asI32 x ≤ 2 ^ 31 - 1 := by
  rw [asI32, saturateI32]
  omega

theorem asI32_nonneg {x : ℝ} (h : 0 ≤ x) : 0 ≤ asI32 x := by
  have hfloor : 0 ≤ ⌊x⌋ := Int.floor_nonneg.mpr h
  rw [asI32, if_pos h, saturateI32]
  omega

theorem pixelRange_bounds (w h : ℕ) (bounds : Bounds ℝ) (clip : Option (Bounds ℝ)) :
    0 ≤ (pixelRange w h bounds clip).x0 ∧ 0 ≤ (pixelRange w h bounds clip).y0 ∧
      (pixelRange w h bounds clip).x1 ≤ 2 ^ 31 - 1 :=
  ⟨asI32_nonneg (le_max_right _ _), asI32_nonneg (le_max_right _ _), (asI32_bounds _).2⟩

theorem fill_congr (sqrt : ℝ → ℝ) (fb : Framebuffer ℝ) {subpaths subpaths' : List (List (Vec2 ℝ))}
    (hpoints : subpaths.flatten.Perm subpaths'.flatten)
    (h : ∀ p, winding subpaths' p = 0 ↔ winding subpaths p = 0) (paint : Paint ℝ)
    (clip : Option (Bounds ℝ)) :
    fill sqrt fb subpaths' paint clip = fill sqrt fb subpaths paint clip := by
  rw [fill, fill, extent_perm hpoints]
  cases extent subpaths with
  | none => rfl
  | some bounds =>
    obtain ⟨hx0, -, hx1⟩ := pixelRange_bounds fb.width fb.height bounds clip
    dsimp only
    generalize pixelRange fb.width fb.height bounds clip = r at hx0 hx1
    split
    · rfl
    · rename_i hsome
      apply Raster.foldl_congr_mem
      intro fb' n _
      rw [fillRow, fillRow, rowCoverage_congr h (by omega) hx1 (by omega)]

theorem blendCell_pixel {sqrt : ℝ → ℝ} {paint : Paint ℝ} {x0 y : ℤ} (fb : Framebuffer ℝ) (c : ℝ)
    (i : ℕ) {px py : ℕ} (hx0 : 0 ≤ x0) (hy : 0 ≤ y) (h : (px : ℤ) ≠ x0 + i ∨ (py : ℤ) ≠ y) :
    (blendCell sqrt paint x0 y fb (c, i)).pixel px py = fb.pixel px py := by
  rw [blendCell]
  dsimp only
  split
  · rw [Framebuffer.blendOver_eq, Framebuffer.pixel_setPixel, if_neg]
    rintro ⟨⟨hpx, hpy⟩, -⟩
    omega
  · rfl

theorem fillRow_pixel (sqrt : ℝ → ℝ) (subpaths : List (List (Vec2 ℝ))) (paint : Paint ℝ)
    {x0 x1 y0 : ℤ} (hx0 : 0 ≤ x0) (hx1 : x1 ≤ 2 ^ 31 - 1) (hlt : x0 < x1) (hy0 : 0 ≤ y0)
    (fb : Framebuffer ℝ) (n : ℕ) {px py : ℕ}
    (h : ¬(x0 ≤ px ∧ px < x1) ∨ (py : ℤ) ≠ y0 + n) :
    (fillRow sqrt subpaths paint x0 x1 y0 fb n).pixel px py = fb.pixel px py := by
  rw [fillRow]
  apply List.foldlRecOn (motive := fun fb' : Framebuffer ℝ => fb'.pixel px py = fb.pixel px py)
  · rfl
  · intro fb' hfb' cell hcell
    obtain ⟨c, i⟩ := cell
    have hcell' := List.mem_zipIdx_iff_getElem?.mp hcell
    have hi : x0 + i < x1 := by
      by_contra hout
      rw [rowCoverage_none subpaths (by omega) hx1 hlt _ (not_lt.mp hout)] at hcell'
      exact absurd hcell' (by simp)
    rw [← hfb']
    apply blendCell_pixel fb' c i hx0 (by omega)
    cases h with
    | inl hcolumn =>
      left
      omega
    | inr hrow =>
      right
      exact hrow

/-- The coverage of every pixel of the range is its part with a winding number other than zero, on
average over the sample rows. -/
theorem fill_exact (sqrt : ℝ → ℝ) (fb : Framebuffer ℝ) (subpaths : List (List (Vec2 ℝ)))
    (paint : Paint ℝ) (clip : Option (Bounds ℝ)) :
    (∀ bounds ∈ extent subpaths, ∀ r, r = pixelRange fb.width fb.height bounds clip →
      (∀ (y : ℤ) (i : ℕ), r.x0 + i < r.x1 →
        (rowCoverage subpaths r.x0 r.x1 y)[i]? = some (averageInside subpaths (r.x0 + i) y) ∧
          0 ≤ averageInside subpaths (r.x0 + i) y ∧ averageInside subpaths (r.x0 + i) y ≤ 1) ∧
      ∀ px py : ℕ, ¬((r.x0 ≤ px ∧ px < r.x1) ∧ r.y0 ≤ py ∧ py < r.y1) →
        (fill sqrt fb subpaths paint clip).pixel px py = fb.pixel px py) ∧
    (extent subpaths = none → fill sqrt fb subpaths paint clip = fb) ∧
    ∀ subpaths', subpaths.Perm subpaths' ∨
        List.Forall₂ (fun sp sp' => sp.IsRotated sp') subpaths subpaths' ∨
        subpaths' = subpaths.map List.reverse →
      (∀ px y, averageInside subpaths' px y = averageInside subpaths px y) ∧
        fill sqrt fb subpaths' paint clip = fill sqrt fb subpaths paint clip := by
  refine ⟨?_, ?_, ?_⟩
  · rintro bounds hbounds r hr
    obtain ⟨hx0, hy0, hx1⟩ := pixelRange_bounds fb.width fb.height bounds clip
    rw [← hr] at hx0 hy0 hx1
    refine ⟨?_, ?_⟩
    · intro y i hi
      exact ⟨rowCoverage_exact subpaths (by omega) hx1 y hi, averageInside_bounds subpaths _ y⟩
    · intro px py hout
      rw [fill, Option.mem_def.mp hbounds]
      dsimp only
      rw [← hr]
      split
      · rfl
      · rename_i hsome
        apply List.foldlRecOn (motive := fun fb' : Framebuffer ℝ => fb'.pixel px py = fb.pixel px py)
        · rfl
        · intro fb' hfb' n hn
          rw [List.mem_range] at hn
          rw [← hfb']
          apply fillRow_pixel sqrt subpaths paint hx0 hx1 (by omega) hy0 fb' n
          by_cases hcolumn : r.x0 ≤ px ∧ px < r.x1
          · right
            intro hrow
            exact hout ⟨hcolumn, by omega, by omega⟩
          · left
            exact hcolumn
  · intro hnone
    rw [fill, hnone]
  · rintro subpaths' h
    have hsame : subpaths.flatten.Perm subpaths'.flatten ∧
        ∀ p, winding subpaths' p = 0 ↔ winding subpaths p = 0 := by
      rcases h with hperm | hrotated | rfl
      · exact ⟨hperm.flatten, fun p => by rw [winding_perm hperm]⟩
      · exact ⟨flatten_rotated hrotated, fun p => by rw [winding_rotated hrotated]⟩
      · exact ⟨flatten_reversed subpaths, fun p => by rw [winding_reverse, neg_eq_zero]⟩
    exact ⟨averageInside_congr hsame.2, fill_congr sqrt fb hsame.1 hsame.2 paint clip⟩

end AtomVibe.PathFill
