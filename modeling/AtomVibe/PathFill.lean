import AtomVibe.RasterCull
import AtomVibe.Foundations.SweepLine
import Mathlib.Algebra.Ring.Int.Defs

namespace AtomVibe.PathFill

open Raster (Vec2 Bounds Paint Framebuffer intersectClip)
open scoped Raster

section Model

variable {K : Type} [Field K] [LinearOrder K]

def subscanlines : ℕ := 5

def includePoint (bounds : Option (Bounds K)) (p : Vec2 K) : Option (Bounds K) :=
  match bounds with
  | none => some ⟨p, p⟩
  | some b => some ⟨⟨min b.min.x p.x, min b.min.y p.y⟩, ⟨max b.max.x p.x, max b.max.y p.y⟩⟩

def extent (subpaths : List (List (Vec2 K))) : Option (Bounds K) :=
  subpaths.flatten.foldl includePoint none

def edges (sp : List (Vec2 K)) : List (Vec2 K × Vec2 K) :=
  if sp.length < 2 then [] else sp.zip (sp.rotate 1)

def crossing (sy : K) (edge : Vec2 K × Vec2 K) : Option (K × ℤ) :=
  let (a, b) := edge
  let (lo, hi, dir) := if a.y ≤ b.y then (a, b, 1) else (b, a, -1)
  if lo.y ≤ sy ∧ sy < hi.y then
    let t := (sy - lo.y) / (hi.y - lo.y)
    some (lo.x + t * (hi.x - lo.x), dir)
  else none

def crossings (subpaths : List (List (Vec2 K))) (sy : K) : List (K × ℤ) :=
  subpaths.flatMap fun sp => (edges sp).filterMap (crossing sy)

/-- The bounds of `i32` -/
def saturateI32 (x : ℤ) : ℤ := max (-2 ^ 31) (min x (2 ^ 31 - 1))

structure PixelRange where
  x0 : ℤ
  y0 : ℤ
  x1 : ℤ
  y1 : ℤ
  deriving DecidableEq

section Floor

variable [FloorRing K]

def asI32 (x : K) : ℤ := saturateI32 (if 0 ≤ x then ⌊x⌋ else ⌈x⌉)

def pixelRange (w h : ℕ) (bounds : Bounds K) (clip : Option (Bounds K)) : PixelRange :=
  let c := intersectClip (⟨⟨0, 0⟩, ⟨(w : K), (h : K)⟩⟩ : Bounds K) clip
  { x0 := asI32 (max (max (⌊bounds.min.x⌋ : K) c.min.x) 0)
    y0 := asI32 (max (max (⌊bounds.min.y⌋ : K) c.min.y) 0)
    x1 := asI32 (min (min (⌈bounds.max.x⌉ : K) c.max.x) w)
    y1 := asI32 (min (min (⌈bounds.max.y⌉ : K) c.max.y) h) }

def addCell (x0 : ℤ) (xa xb weight : K) (cov : List K) (px : ℤ) : List K :=
  let cellA : K := px
  let overlap := max (min xb (cellA + 1) - max xa cellA) 0
  let idx := px - x0
  if 0 ≤ idx ∧ idx < cov.length then cov.modify idx.toNat fun c => c + weight * overlap else cov

def addSpan (cov : List K) (x0 x1 : ℤ) (xa xb weight : K) : List K :=
  let xa := max xa x0
  let xb := min xb x1
  if xb ≤ xa then cov
  else
    let ia := saturateI32 ⌊xa⌋
    let ib := saturateI32 ⌈xb⌉
    (List.range (ib - ia).toNat).foldl (fun cov (n : ℕ) => addCell x0 xa xb weight cov (ia + n)) cov

def sweepSpans (x0 x1 : ℤ) (weight : K) : List (K × ℤ) → ℤ → List K → List K
  | p :: q :: rest, wind, cov =>
    let wind := wind + p.2
    sweepSpans x0 x1 weight (q :: rest) wind
      (if wind ≠ 0 then addSpan cov x0 x1 p.1 q.1 weight else cov)
  | _, _, cov => cov

def sampleRow (y : ℤ) (k : ℕ) : K := y + (k + 1 / 2) * (1 / subscanlines)

def scanLine (subpaths : List (List (Vec2 K))) (x0 x1 y : ℤ) (cov : List K) (k : ℕ) : List K :=
  let xs := crossings subpaths (sampleRow y k)
  if xs.length < 2 then cov
  else sweepSpans x0 x1 (1 / subscanlines) (xs.mergeSort fun p q => decide (p.1 ≤ q.1)) 0 cov

def rowCoverage (subpaths : List (List (Vec2 K))) (x0 x1 y : ℤ) : List K :=
  (List.range subscanlines).foldl (scanLine subpaths x0 x1 y)
    (List.replicate (x1 - x0).toNat 0)

def blendCell (sqrt : K → K) (paint : Paint K) (x0 y : ℤ) (fb : Framebuffer K) (cell : K × ℕ) :
    Framebuffer K :=
  let (c, i) := cell
  if 0 < c then
    let px := x0 + i
    let col := paint.sample sqrt ⟨px + 1 / 2, y + 1 / 2⟩
    fb.blendOver px.toNat y.toNat (col.withAlpha (col.a * min c 1))
  else fb

def fillRow (sqrt : K → K) (subpaths : List (List (Vec2 K))) (paint : Paint K) (x0 x1 y0 : ℤ)
    (fb : Framebuffer K) (n : ℕ) : Framebuffer K :=
  (rowCoverage subpaths x0 x1 (y0 + n)).zipIdx.foldl (blendCell sqrt paint x0 (y0 + n)) fb

def fill (sqrt : K → K) (fb : Framebuffer K) (subpaths : List (List (Vec2 K))) (paint : Paint K)
    (clip : Option (Bounds K)) : Framebuffer K :=
  match extent subpaths with
  | none => fb
  | some bounds =>
    let r := pixelRange fb.width fb.height bounds clip
    if r.x1 ≤ r.x0 ∨ r.y1 ≤ r.y0 then fb
    else (List.range (r.y1 - r.y0).toNat).foldl (fillRow sqrt subpaths paint r.x0 r.x1 r.y0) fb

end Floor

def PassesLeft (lo hi p : Vec2 K) : Prop :=
  (lo.y ≤ p.y ∧ p.y < hi.y) ∧ (p.y - lo.y) * (hi.x - lo.x) < (p.x - lo.x) * (hi.y - lo.y)

instance (lo hi p : Vec2 K) : Decidable (PassesLeft lo hi p) :=
  inferInstanceAs (Decidable (_ ∧ _))

def edgeWinding (p : Vec2 K) (edge : Vec2 K × Vec2 K) : ℤ :=
  if PassesLeft edge.1 edge.2 p then 1 else if PassesLeft edge.2 edge.1 p then -1 else 0

def winding (subpaths : List (List (Vec2 K))) (p : Vec2 K) : ℤ :=
  (subpaths.map fun sp => ((sp.zip (sp.rotate 1)).map (edgeWinding p)).sum).sum

end Model

section Winding

open SweepLine (signSum signSum_append)

variable {K : Type} [Field K] [LinearOrder K]

theorem crossing_lt_iff [IsStrictOrderedRing K] {lo hi : Vec2 K} {sy t : K} (h : lo.y < hi.y) :
    lo.x + (sy - lo.y) / (hi.y - lo.y) * (hi.x - lo.x) < t ↔
      (sy - lo.y) * (hi.x - lo.x) < (t - lo.x) * (hi.y - lo.y) := by
  have hheight : 0 < hi.y - lo.y := sub_pos.mpr h
  rw [← lt_sub_iff_add_lt', div_mul_eq_mul_div, div_lt_iff₀ hheight]

theorem crossing_winding [IsStrictOrderedRing K] (sy t : K) (edge : Vec2 K × Vec2 K) :
    ((crossing sy edge).map fun c => if c.1 < t then c.2 else 0).getD 0 =
      edgeWinding ⟨t, sy⟩ edge := by
  obtain ⟨a, b⟩ := edge
  rw [crossing, edgeWinding]
  dsimp only
  by_cases hab : a.y ≤ b.y
  · rw [if_pos hab]
    dsimp only
    have hdown : ¬PassesLeft b a ⟨t, sy⟩ := by
      rintro ⟨⟨hb, ha⟩, -⟩
      exact absurd (hb.trans_lt ha) hab.not_gt
    by_cases hin : a.y ≤ sy ∧ sy < b.y
    · rw [if_pos hin, if_neg hdown, Option.map_some, Option.getD_some]
      have hiff : PassesLeft a b ⟨t, sy⟩ ↔
          a.x + (sy - a.y) / (b.y - a.y) * (b.x - a.x) < t := by
        rw [crossing_lt_iff (hin.1.trans_lt hin.2)]
        exact and_iff_right hin
      simp only [hiff]
    · rw [if_neg hin, if_neg (fun h => hin h.1), if_neg hdown]
      rfl
  · rw [if_neg hab]
    dsimp only
    have hup : ¬PassesLeft a b ⟨t, sy⟩ := by
      rintro ⟨⟨ha, hb⟩, -⟩
      exact hab (ha.trans hb.le)
    rw [if_neg hup]
    by_cases hin : b.y ≤ sy ∧ sy < a.y
    · rw [if_pos hin, Option.map_some, Option.getD_some]
      have hiff : PassesLeft b a ⟨t, sy⟩ ↔
          b.x + (sy - b.y) / (a.y - b.y) * (a.x - b.x) < t := by
        rw [crossing_lt_iff (hin.1.trans_lt hin.2)]
        exact and_iff_right hin
      simp only [hiff]
    · rw [if_neg hin, if_neg (fun h => hin h.1)]
      rfl

theorem sum_filterMap {α β : Type} (f : α → Option β) (g : β → ℤ) (l : List α) :
    ((l.filterMap f).map g).sum = (l.map fun x => ((f x).map g).getD 0).sum := by
  induction l with
  | nil => rfl
  | cons x l ih =>
    rw [List.filterMap_cons, List.map_cons, List.sum_cons, ← ih]
    cases f x with
    | none => exact (zero_add _).symm
    | some y => rfl

omit [Field K] [LinearOrder K] in
theorem sum_edges {g : Vec2 K × Vec2 K → ℤ} (hg : ∀ a, g (a, a) = 0) (sp : List (Vec2 K)) :
    ((edges sp).map g).sum = ((sp.zip (sp.rotate 1)).map g).sum := by
  rw [edges]
  split
  · rename_i hshort
    cases sp with
    | nil => rfl
    | cons a sp =>
      obtain rfl : sp = [] := by
        apply List.length_eq_zero_iff.mp
        rw [List.length_cons] at hshort
        omega
      rw [List.rotate_cons_succ, List.rotate_zero, List.nil_append, List.zip_cons_cons,
        List.zip_nil_right, List.map_singleton, List.sum_singleton, hg a]
      rfl
  · rfl

theorem edgeWinding_self (p a : Vec2 K) : edgeWinding p (a, a) = 0 := by
  have h : ¬PassesLeft a a p := by
    rintro ⟨⟨hlo, hhi⟩, -⟩
    exact absurd hhi hlo.not_gt
  rw [edgeWinding, if_neg h, if_neg h]

theorem winding_eq_signSum [IsStrictOrderedRing K] (subpaths : List (List (Vec2 K))) (sy t : K) :
    winding subpaths ⟨t, sy⟩ = signSum (crossings subpaths sy) t := by
  induction subpaths with
  | nil => rfl
  | cons sp subpaths ih =>
    rw [crossings, List.flatMap_cons, signSum_append, winding, List.map_cons, List.sum_cons]
    have hrest : signSum (subpaths.flatMap fun sp => (edges sp).filterMap (crossing sy)) t =
        winding subpaths ⟨t, sy⟩ := ih.symm
    rw [hrest, signSum, sum_filterMap]
    simp only [crossing_winding]
    rw [sum_edges (edgeWinding_self ⟨t, sy⟩)]
    rfl

def above (sy : K) (p : Vec2 K) : ℤ := if sy < p.y then 1 else 0

theorem sum_zip_sub {α : Type} (f : α → ℤ) (xs ys : List α) (h : xs.length = ys.length) :
    ((xs.zip ys).map fun p => f p.2 - f p.1).sum = (ys.map f).sum - (xs.map f).sum := by
  induction xs generalizing ys with
  | nil =>
    obtain rfl := List.length_eq_zero_iff.mp h.symm
    rfl
  | cons x xs ih =>
    cases ys with
    | nil => exact absurd h (Nat.succ_ne_zero _)
    | cons y ys =>
      rw [List.zip_cons_cons, List.map_cons, List.sum_cons, ih ys (Nat.succ.inj h), List.map_cons,
        List.sum_cons, List.map_cons, List.sum_cons]
      ring

theorem crossing_sign (sy : K) (edge : Vec2 K × Vec2 K) :
    ((crossing sy edge).map Prod.snd).getD 0 = above sy edge.2 - above sy edge.1 := by
  obtain ⟨a, b⟩ := edge
  rw [crossing, above, above]
  dsimp only
  by_cases hab : a.y ≤ b.y
  · rw [if_pos hab]
    dsimp only
    by_cases ha : a.y ≤ sy
    · by_cases hb : sy < b.y
      · rw [if_pos ⟨ha, hb⟩, if_pos hb, if_neg ha.not_gt]
        rfl
      · rw [if_neg (fun h => hb h.2), if_neg hb, if_neg ha.not_gt]
        rfl
    · have ha' := not_le.mp ha
      rw [if_neg (fun h => ha h.1), if_pos (ha'.trans_le hab), if_pos ha']
      rfl
  · have hba := (not_le.mp hab).le
    rw [if_neg hab]
    dsimp only
    by_cases hb : b.y ≤ sy
    · by_cases ha : sy < a.y
      · rw [if_pos ⟨hb, ha⟩, if_neg hb.not_gt, if_pos ha]
        rfl
      · rw [if_neg (fun h => ha h.2), if_neg hb.not_gt, if_neg ha]
        rfl
    · have hb' := not_le.mp hb
      rw [if_neg (fun h => hb h.1), if_pos hb', if_pos (hb'.trans_le hba)]
      rfl

theorem crossings_total (subpaths : List (List (Vec2 K))) (sy : K) :
    ((crossings subpaths sy).map Prod.snd).sum = 0 := by
  induction subpaths with
  | nil => rfl
  | cons sp subpaths ih =>
    rw [crossings, List.flatMap_cons, List.map_append, List.sum_append]
    have hrest : ((subpaths.flatMap fun sp => (edges sp).filterMap (crossing sy)).map Prod.snd).sum =
        0 := ih
    have hself : ∀ a : Vec2 K, above sy a - above sy a = 0 := fun a => sub_self _
    rw [hrest, add_zero, sum_filterMap]
    simp only [crossing_sign]
    rw [sum_edges (g := fun e => above sy e.2 - above sy e.1) hself,
      sum_zip_sub _ _ _ (List.length_rotate sp 1).symm, ((List.rotate_perm sp 1).map _).sum_eq,
      sub_self]

theorem edgeWinding_swap (p : Vec2 K) (edge : Vec2 K × Vec2 K) :
    edgeWinding p edge.swap = -edgeWinding p edge := by
  obtain ⟨a, b⟩ := edge
  rw [edgeWinding, edgeWinding, Prod.swap_prod_mk]
  dsimp only
  by_cases hup : PassesLeft a b p
  · have hdown : ¬PassesLeft b a p := by
      rintro ⟨⟨hb, ha⟩, -⟩
      exact absurd hup.1.2 hb.not_gt
    rw [if_pos hup, if_neg hdown, if_pos hup]
  · rw [if_neg hup]
    by_cases hdown : PassesLeft b a p
    · rw [if_pos hdown, if_neg hup, if_pos hdown, neg_neg]
    · rw [if_neg hdown, if_neg hup, if_neg hdown]
      rfl

theorem winding_perm {subpaths subpaths' : List (List (Vec2 K))} (h : subpaths.Perm subpaths')
    (p : Vec2 K) : winding subpaths' p = winding subpaths p := ((h.map _).sum_eq).symm

theorem zip_rotate {α : Type} (sp : List α) (n : ℕ) :
    (sp.rotate n).zip ((sp.rotate n).rotate 1) = (sp.zip (sp.rotate 1)).rotate n := by
  rw [List.rotate_rotate, Nat.add_comm, ← List.rotate_rotate]
  exact (List.zipWith_rotate_distrib _ _ _ _ (List.length_rotate sp 1).symm).symm

theorem winding_rotated {subpaths subpaths' : List (List (Vec2 K))}
    (h : List.Forall₂ (fun sp sp' => sp.IsRotated sp') subpaths subpaths') (p : Vec2 K) :
    winding subpaths' p = winding subpaths p := by
  induction h with
  | nil => rfl
  | cons hsp _ ih =>
    obtain ⟨n, rfl⟩ := hsp
    rw [winding, winding, List.map_cons, List.map_cons, List.sum_cons, List.sum_cons, zip_rotate,
      ((List.rotate_perm _ n).map _).sum_eq]
    exact congrArg _ ih

theorem rotate_back {α : Type} (sp : List α) : sp.rotate (sp.length - 1 % sp.length + 1) = sp := by
  cases sp with
  | nil => rfl
  | cons a sp =>
    cases sp with
    | nil => exact List.rotate_singleton a _
    | cons b sp =>
      have hone : 1 % (a :: b :: sp).length = 1 := Nat.mod_eq_of_lt (by simp)
      rw [hone, Nat.sub_add_cancel (by simp)]
      exact List.rotate_length _

theorem sum_zip_reverse (p : Vec2 K) (sp : List (Vec2 K)) :
    ((sp.reverse.zip (sp.reverse.rotate 1)).map (edgeWinding p)).sum =
      -((sp.zip (sp.rotate 1)).map (edgeWinding p)).sum := by
  have hreverse : sp.reverse.zip (sp.reverse.rotate 1) =
      (sp.zip (sp.rotate (sp.length - 1 % sp.length))).reverse := by
    rw [List.rotate_reverse]
    exact (List.reverse_zipWith (List.length_rotate sp _).symm).symm
  have hturned : (sp.zip (sp.rotate (sp.length - 1 % sp.length))).rotate 1 =
      (sp.zip (sp.rotate 1)).map Prod.swap := by
    rw [List.zip_swap]
    refine (List.zipWith_rotate_distrib _ _ _ _ (List.length_rotate sp _).symm).trans ?_
    rw [List.rotate_rotate, rotate_back]
    rfl
  rw [hreverse, ((List.reverse_perm _).map _).sum_eq, ← ((List.rotate_perm _ 1).map _).sum_eq,
    hturned, List.map_map]
  induction sp.zip (sp.rotate 1) with
  | nil => rfl
  | cons edge rest ih =>
    rw [List.map_cons, List.sum_cons, ih, List.map_cons, List.sum_cons, Function.comp_apply,
      edgeWinding_swap, neg_add]

theorem winding_reverse (subpaths : List (List (Vec2 K))) (p : Vec2 K) :
    winding (subpaths.map List.reverse) p = -winding subpaths p := by
  induction subpaths with
  | nil => rfl
  | cons sp subpaths ih =>
    rw [winding, winding, List.map_cons, List.map_cons, List.map_cons, List.sum_cons, List.sum_cons,
      neg_add, sum_zip_reverse]
    exact congrArg _ ih

omit [Field K] in
theorem includePoint_comm (bounds : Option (Bounds K)) (p q : Vec2 K) :
    includePoint (includePoint bounds p) q = includePoint (includePoint bounds q) p := by
  cases bounds with
  | none =>
    simp only [includePoint]
    rw [min_comm, min_comm p.y, max_comm, max_comm p.y]
  | some b =>
    simp only [includePoint]
    rw [min_right_comm, min_right_comm b.min.y, max_right_comm, max_right_comm b.max.y]

omit [Field K] in
theorem extent_perm {subpaths subpaths' : List (List (Vec2 K))}
    (h : subpaths.flatten.Perm subpaths'.flatten) : extent subpaths' = extent subpaths :=
  (h.foldl_eq' (fun p _ q _ bounds => includePoint_comm bounds p q) none).symm

theorem flatten_rotated {α : Type} {xss yss : List (List α)}
    (h : List.Forall₂ (fun xs ys => xs.IsRotated ys) xss yss) : xss.flatten.Perm yss.flatten := by
  induction h with
  | nil => exact .refl _
  | cons hxs _ ih =>
    rw [List.flatten_cons, List.flatten_cons]
    exact hxs.perm.append ih

theorem flatten_reversed {α : Type} (xss : List (List α)) :
    xss.flatten.Perm (xss.map List.reverse).flatten := by
  induction xss with
  | nil => exact .refl _
  | cons xs xss ih =>
    rw [List.map_cons, List.flatten_cons, List.flatten_cons]
    exact (List.reverse_perm xs).symm.append ih

end Winding

section Cells

open SweepLine (overlap sweepLength)

variable {K : Type} [Field K] [LinearOrder K]

def cellOverlap (px : ℤ) (a b : K) : K := overlap (px : K) (px + 1) a b

theorem addCell_getElem? (x0 : ℤ) (xa xb weight : K) (cov : List K) (px : ℤ) (i : ℕ) :
    (addCell x0 xa xb weight cov px)[i]? = cov[i]?.map fun c =>
      if px = x0 + i then c + weight * cellOverlap (x0 + i) xa xb else c := by
  rw [addCell]
  by_cases hidx : 0 ≤ px - x0 ∧ px - x0 < cov.length
  · rw [if_pos hidx, List.getElem?_modify, Option.map_eq_map]
    by_cases hpx : px = x0 + i
    · subst hpx
      have hplace : (x0 + (i : ℤ) - x0).toNat = i := by omega
      simp only [if_pos hplace, if_true, cellOverlap, overlap]
    · have hplace : (px - x0).toNat ≠ i := by omega
      simp only [if_neg hplace, if_neg hpx]
  · rw [if_neg hidx]
    by_cases hi : i < cov.length
    · have hpx : px ≠ x0 + i := by omega
      simp only [if_neg hpx]
      exact (Option.map_id' ..).symm
    · rw [List.getElem?_eq_none (not_lt.mp hi)]
      rfl

theorem addCells_getElem? (x0 : ℤ) (xa xb weight : K) (cov : List K) (ia : ℤ) (count i : ℕ) :
    ((List.range count).foldl (fun cov (n : ℕ) => addCell x0 xa xb weight cov (ia + n)) cov)[i]? =
      cov[i]?.map fun c => if ia ≤ x0 + i ∧ x0 + i < ia + count then
        c + weight * cellOverlap (x0 + i) xa xb else c := by
  induction count with
  | zero =>
    have hnone : ¬(ia ≤ x0 + i ∧ x0 + i < ia + (0 : ℕ)) := by omega
    simp only [if_neg hnone]
    exact (Option.map_id' ..).symm
  | succ count ih =>
    rw [List.range_succ, List.foldl_append, List.foldl_cons, List.foldl_nil, addCell_getElem?, ih,
      Option.map_map]
    congr 1
    funext c
    simp only [Function.comp_apply]
    by_cases hhere : ia + count = x0 + i
    · rw [if_pos hhere, if_neg (by omega), if_pos (by omega)]
    · rw [if_neg hhere]
      by_cases hin : ia ≤ x0 + i ∧ x0 + i < ia + count
      · rw [if_pos hin, if_pos (by omega)]
      · rw [if_neg hin, if_neg (by omega)]

variable [IsStrictOrderedRing K] [FloorRing K]

theorem overlap_clipped {x0 x1 px : ℤ} (h₀ : x0 ≤ px) (h₁ : px < x1) (xa xb : K) :
    cellOverlap px (max xa (x0 : K)) (min xb (x1 : K)) = cellOverlap px xa xb := by
  have hlo : (x0 : K) ≤ px := Int.cast_le.mpr h₀
  have hhi : (px : K) + 1 ≤ x1 := by exact_mod_cast Int.add_one_le_iff.mpr h₁
  rw [cellOverlap, cellOverlap, overlap, overlap, min_assoc, min_eq_right hhi, max_assoc,
    max_eq_right hlo]

omit [FloorRing K] in
theorem overlap_eq_zero {lo hi a b : K} (h : b ≤ lo ∨ hi ≤ a ∨ b ≤ a) : overlap lo hi a b = 0 := by
  apply max_eq_right
  rw [sub_nonpos]
  cases h with
  | inl h => exact (min_le_left _ _).trans (h.trans (le_max_right _ _))
  | inr h =>
    cases h with
    | inl h => exact (min_le_right _ _).trans (h.trans (le_max_left _ _))
    | inr h => exact (min_le_left _ _).trans (h.trans (le_max_left _ _))

/-- A range of cells whose places are `i32`. -/
structure CellRange (x0 x1 : ℤ) (cov : List K) : Prop where
  lower : -2 ^ 31 ≤ x0
  upper : x1 ≤ 2 ^ 31 - 1
  length : (cov.length : ℤ) = x1 - x0

theorem addSpan_getElem? {x0 x1 : ℤ} {cov : List K} (hcov : CellRange x0 x1 cov) (xa xb weight : K)
    (i : ℕ) :
    (addSpan cov x0 x1 xa xb weight)[i]? = cov[i]?.map fun c =>
      c + weight * cellOverlap (x0 + i) xa xb := by
  obtain ⟨hlower, hupper, hlength⟩ := hcov
  by_cases hi : i < cov.length
  · have hclip := overlap_clipped (show x0 ≤ x0 + i by omega) (show x0 + i < x1 by omega) xa xb
    rw [← hclip, addSpan]
    dsimp only
    by_cases hempty : min xb (x1 : K) ≤ max xa (x0 : K)
    · rw [if_pos hempty, cellOverlap, overlap_eq_zero (Or.inr (Or.inr hempty))]
      simp only [mul_zero, add_zero]
      exact (Option.map_id' ..).symm
    · rw [if_neg hempty, addCells_getElem?]
      rw [not_le] at hempty
      have hfloor : x0 ≤ ⌊max xa (x0 : K)⌋ := Int.le_floor.mpr (le_max_right _ _)
      have hceil : ⌈min xb (x1 : K)⌉ ≤ x1 := Int.ceil_le.mpr (min_le_right _ _)
      have hlt : ⌊max xa (x0 : K)⌋ < ⌈min xb (x1 : K)⌉ := by
        rw [Int.floor_lt]
        exact hempty.trans_le (Int.le_ceil _)
      have hia : saturateI32 ⌊max xa (x0 : K)⌋ = ⌊max xa (x0 : K)⌋ := by
        rw [saturateI32]
        omega
      have hib : saturateI32 ⌈min xb (x1 : K)⌉ = ⌈min xb (x1 : K)⌉ := by
        rw [saturateI32]
        omega
      rw [hia, hib]
      congr 1
      funext c
      split
      · rfl
      · rename_i hout
        have hzero : cellOverlap (x0 + i) (max xa (x0 : K)) (min xb (x1 : K)) = 0 := by
          apply overlap_eq_zero
          by_cases hleft : ⌊max xa (x0 : K)⌋ ≤ x0 + i
          · left
            have hright : ⌈min xb (x1 : K)⌉ ≤ x0 + i := by omega
            exact Int.ceil_le.mp hright
          · right
            left
            have hleft' : x0 + i + 1 ≤ ⌊max xa (x0 : K)⌋ := by omega
            have hle := Int.le_floor.mp hleft'
            push_cast at hle ⊢
            exact hle
        rw [hzero, mul_zero, add_zero]
  · have hnone : cov[i]? = none := List.getElem?_eq_none (not_lt.mp hi)
    rw [hnone, addSpan]
    dsimp only
    split
    · exact hnone
    · rw [addCells_getElem?, hnone]
      rfl

omit [IsStrictOrderedRing K] in
theorem addSpan_length (cov : List K) (x0 x1 : ℤ) (xa xb weight : K) :
    (addSpan cov x0 x1 xa xb weight).length = cov.length := by
  have hcells : ∀ (x0 ia : ℤ) (xa xb : K) (count : ℕ), ((List.range count).foldl
      (fun cov (n : ℕ) => addCell x0 xa xb weight cov (ia + n)) cov).length = cov.length := by
    intro x0 ia xa xb count
    induction count with
    | zero => rfl
    | succ count ih =>
      rw [List.range_succ, List.foldl_append, List.foldl_cons, List.foldl_nil, addCell]
      split
      · rw [List.length_modify, ih]
      · exact ih
  rw [addSpan]
  dsimp only
  split
  · rfl
  · exact hcells _ _ _ _ _

omit [IsStrictOrderedRing K] in
theorem CellRange.addSpan {x0 x1 : ℤ} {cov : List K} (hcov : CellRange x0 x1 cov) (xa xb weight : K) :
    CellRange x0 x1 (addSpan cov x0 x1 xa xb weight) := by
  refine ⟨hcov.lower, hcov.upper, ?_⟩
  rw [addSpan_length]
  exact hcov.length

theorem sweepSpans_getElem? {x0 x1 : ℤ} (weight : K) (points : List (K × ℤ)) (wind : ℤ)
    {cov : List K} (hcov : CellRange x0 x1 cov) :
    CellRange x0 x1 (sweepSpans x0 x1 weight points wind cov) ∧
      ∀ i : ℕ, (sweepSpans x0 x1 weight points wind cov)[i]? = cov[i]?.map fun c =>
        c + weight * sweepLength ((x0 + i : ℤ) : K) ((x0 + i : ℤ) + 1) points wind := by
  fun_induction sweepSpans x0 x1 weight points wind cov with
  | case1 p q rest wind cov total ih =>
    have hnext : CellRange x0 x1
        (if total ≠ 0 then addSpan cov x0 x1 p.1 q.1 weight else cov) := by
      split
      · exact hcov.addSpan _ _ _
      · exact hcov
    obtain ⟨hrange, hcells⟩ := ih hnext
    refine ⟨hrange, ?_⟩
    intro i
    rw [hcells, sweepLength]
    by_cases hwind : total ≠ 0
    · rw [if_pos hwind, if_pos hwind, addSpan_getElem? hcov, Option.map_map]
      congr 1
      funext c
      rw [Function.comp_apply, mul_add, add_assoc]
      rfl
    · rw [if_neg hwind, if_neg hwind, zero_add]
  | case2 points wind cov hshort =>
    refine ⟨hcov, ?_⟩
    intro i
    have hzero : sweepLength ((x0 + i : ℤ) : K) ((x0 + i : ℤ) + 1) points wind = 0 := by
      cases points with
      | nil => rfl
      | cons p rest =>
        cases rest with
        | nil => rfl
        | cons q rest => exact absurd rfl (hshort p q rest)
    simp only [hzero, mul_zero, add_zero]
    exact (Option.map_id' ..).symm

def sortedCrossings (subpaths : List (List (Vec2 K))) (sy : K) : List (K × ℤ) :=
  (crossings subpaths sy).mergeSort fun p q => decide (p.1 ≤ q.1)

theorem scanLine_getElem? (subpaths : List (List (Vec2 K))) {x0 x1 : ℤ} (y : ℤ) {cov : List K}
    (hcov : CellRange x0 x1 cov) (k : ℕ) :
    CellRange x0 x1 (scanLine subpaths x0 x1 y cov k) ∧
      ∀ i : ℕ, (scanLine subpaths x0 x1 y cov k)[i]? = cov[i]?.map fun c =>
        c + 1 / subscanlines * sweepLength ((x0 + i : ℤ) : K) ((x0 + i : ℤ) + 1)
          (sortedCrossings subpaths (sampleRow y k)) 0 := by
  rw [scanLine]
  by_cases hshort : (crossings subpaths (sampleRow y k)).length < 2
  · rw [if_pos hshort]
    refine ⟨hcov, ?_⟩
    intro i
    have hlength : (sortedCrossings subpaths (sampleRow y k)).length < 2 := by
      rw [sortedCrossings, List.length_mergeSort]
      exact hshort
    generalize sortedCrossings subpaths (sampleRow y k) = points at hlength
    have hzero : sweepLength ((x0 + i : ℤ) : K) ((x0 + i : ℤ) + 1) points 0 = 0 := by
      cases points with
      | nil => rfl
      | cons p rest =>
        cases rest with
        | nil => rfl
        | cons q rest =>
          rw [List.length_cons, List.length_cons] at hlength
          omega
    simp only [hzero, mul_zero, add_zero]
    exact (Option.map_id' ..).symm
  · rw [if_neg hshort]
    exact sweepSpans_getElem? _ _ 0 hcov

theorem scanLines_getElem? (subpaths : List (List (Vec2 K))) {x0 x1 : ℤ} (y : ℤ) (ks : List ℕ)
    {cov : List K} (hcov : CellRange x0 x1 cov) (i : ℕ) :
    (ks.foldl (scanLine subpaths x0 x1 y) cov)[i]? = cov[i]?.map fun c =>
      c + 1 / subscanlines * (ks.map fun k => sweepLength ((x0 + i : ℤ) : K) ((x0 + i : ℤ) + 1)
        (sortedCrossings subpaths (sampleRow y k)) 0).sum := by
  induction ks generalizing cov with
  | nil =>
    simp only [List.foldl_nil, List.map_nil, List.sum_nil, mul_zero, add_zero]
    exact (Option.map_id' ..).symm
  | cons k ks ih =>
    obtain ⟨hrange, hcells⟩ := scanLine_getElem? subpaths y hcov k
    rw [List.foldl_cons, ih hrange, hcells, Option.map_map]
    congr 1
    funext c
    rw [Function.comp_apply, List.map_cons, List.sum_cons, mul_add, add_assoc]

theorem rowCoverage_getElem? (subpaths : List (List (Vec2 K))) {x0 x1 : ℤ} (hlower : -2 ^ 31 ≤ x0)
    (hupper : x1 ≤ 2 ^ 31 - 1) (y : ℤ) {i : ℕ} (hi : x0 + i < x1) :
    (rowCoverage subpaths x0 x1 y)[i]? =
      some (1 / subscanlines * ((List.range subscanlines).map fun k =>
        sweepLength ((x0 + i : ℤ) : K) ((x0 + i : ℤ) + 1)
          (sortedCrossings subpaths (sampleRow y k)) 0).sum) := by
  have hblank : CellRange x0 x1 (List.replicate (x1 - x0).toNat (0 : K)) := by
    refine ⟨hlower, hupper, ?_⟩
    rw [List.length_replicate]
    omega
  rw [rowCoverage, scanLines_getElem? subpaths y _ hblank, List.getElem?_replicate,
    if_pos (by omega), Option.map_some, zero_add]

end Cells

end AtomVibe.PathFill
