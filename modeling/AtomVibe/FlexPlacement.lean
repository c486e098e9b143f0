import AtomVibe.MeasuredHeight
import AtomVibe.Foundations.Rows
import Mathlib.Algebra.BigOperators.Ring.List

namespace AtomVibe.Layout

open Ux TextWrap SpacedRow

def mainSpan (dir : Dir) (rect : Bounds) : ℚ × ℚ :=
  if dir = .row then (rect.min.x, rect.max.x) else (rect.min.y, rect.max.y)

def mainExtent (dir : Dir) (content : Bounds) : ℚ :=
  if dir = .row then width content else height content

def crossExtent (dir : Dir) (content : Bounds) : ℚ :=
  if dir = .row then height content else width content

structure Spread (lo hi before between after : ℚ) (spans : List (ℚ × ℚ)) : Prop where
  first : ∀ s ∈ spans.head?, s.1 = lo + before
  next : spans.IsChain fun a b => b.1 = a.2 + between
  last : ∀ s ∈ spans.getLast?, s.2 + after = hi

def remainder (j : Justify) (free : ℚ) (n : ℕ) : ℚ × ℚ × ℚ :=
  match j with
  | .start => (0, 0, free)
  | .center => (free / 2, 0, free / 2)
  | .endJustify => (free, 0, 0)
  | .spaceBetween => if 1 < n then (0, free / (n - 1), 0) else (0, 0, free)

section Placement

variable (fonts : Fonts) (style : Style) (children : List UxNode) (content : Bounds)

def childBase (ch : UxNode) : ℚ :=
  (layoutBase fonts style (mainExtent style.dir content) (crossExtent style.dir content) ch).1

def childWeight (ch : UxNode) : ℚ :=
  (layoutBase fonts style (mainExtent style.dir content) (crossExtent style.dir content) ch).2

def neededExtent : ℚ :=
  (children.map (childBase fonts style content)).sum + gaps style.gap children.length

def weightSum : ℚ := (children.map (childWeight fonts style content)).sum

def childSpans : List (ℚ × ℚ) :=
  (childRects fonts style children content).map (mainSpan style.dir)

end Placement

section Rows

variable {fonts : Fonts} {style : Style} {children : List UxNode} {content : Bounds}

theorem mainSpan_placeFrom (crossStart crossExtent between : ℚ) (main cross : UxNode → ℚ)
    (cursor : ℚ) : (placeFrom style crossStart crossExtent between main cross cursor children).map
      (mainSpan style.dir) = rowFrom (style.gap + between) cursor (children.map main) := by
  induction children generalizing cursor with
  | nil => rfl
  | cons ch children ih =>
    have hnext : cursor + (main ch + style.gap + between) =
        cursor + main ch + (style.gap + between) := by
      rw [add_assoc (main ch), add_assoc]
    rw [placeFrom, List.map_cons, List.map_cons, rowFrom, ih, hnext]
    congr 1
    by_cases hdir : style.dir = .row
    · rw [if_pos hdir, mainSpan, if_pos hdir]
    · rw [if_neg hdir, mainSpan, if_neg hdir]

theorem spread_rowFrom {lo hi before between after : ℚ} {sizes : List ℚ}
    (h : lo + before + sizes.sum + gaps between sizes.length + after = hi) :
    Spread lo hi before between after (rowFrom between (lo + before) sizes) where
  first := head_start between (lo + before) sizes
  next := isChain_gap between (lo + before) sizes
  last := by
    intro s hs
    have hstop := last_stop between (lo + before) sizes s hs
    rw [nsmul_eq_mul] at hstop
    rw [gaps] at h
    linarith

theorem within_rowFrom {lo hi before between after : ℚ} {sizes : List ℚ} (hbetween : 0 ≤ between)
    (hbefore : 0 ≤ before) (hafter : 0 ≤ after) (hsizes : ∀ size ∈ sizes, 0 ≤ size)
    (h : lo + before + sizes.sum + gaps between sizes.length + after = hi) :
    ∀ s ∈ rowFrom between (lo + before) sizes, lo ≤ s.1 ∧ s.2 ≤ hi := by
  intro s hs
  obtain ⟨hstart, -, hstop⟩ := within_row hbetween hsizes s hs
  rw [nsmul_eq_mul] at hstop
  rw [gaps] at h
  constructor
  · linarith
  · linarith

theorem justifyOffsets_zero (j : Justify) (n : ℕ) : justifyOffsets j 0 n = (0, 0) := by
  cases j <;> simp [justifyOffsets]

theorem remainder_sum (j : Justify) (free : ℚ) (n : ℕ) :
    (remainder j free n).1 + gaps (remainder j free n).2.1 n + (remainder j free n).2.2 = free := by
  cases j with
  | start => simp [remainder, gaps]
  | center => simp [remainder, gaps]
  | endJustify => simp [remainder, gaps]
  | spaceBetween =>
    rw [remainder]
    split
    · rename_i hmany
      have hlt : (1 : ℚ) < n := Nat.one_lt_cast.mpr hmany
      have hne : (n : ℚ) - 1 ≠ 0 := by linarith
      simp only [gaps]
      rw [div_mul_cancel₀ _ hne]
      ring
    · simp [gaps]

theorem remainder_nonneg (j : Justify) {free : ℚ} (hfree : 0 ≤ free) (n : ℕ) :
    0 ≤ (remainder j free n).1 ∧ 0 ≤ (remainder j free n).2.1 ∧ 0 ≤ (remainder j free n).2.2 := by
  cases j with
  | start => exact ⟨le_rfl, le_rfl, hfree⟩
  | center => exact ⟨div_nonneg hfree zero_le_two, le_rfl, div_nonneg hfree zero_le_two⟩
  | endJustify => exact ⟨hfree, le_rfl, le_rfl⟩
  | spaceBetween =>
    rw [remainder]
    split
    · rename_i hmany
      have hlt : (1 : ℚ) < n := Nat.one_lt_cast.mpr hmany
      exact ⟨le_rfl, div_nonneg hfree (by linarith), le_rfl⟩
    · exact ⟨le_rfl, le_rfl, hfree⟩

theorem justifyOffsets_remainder (j : Justify) (free : ℚ) (n : ℕ) :
    justifyOffsets j free n = ((remainder j free n).1, (remainder j free n).2.1) := by
  cases j with
  | start => rfl
  | center => rfl
  | endJustify => rfl
  | spaceBetween =>
    rw [justifyOffsets, remainder]
    split <;> rfl

theorem freeExtent_eq : freeExtent fonts style children (mainExtent style.dir content)
    (crossExtent style.dir content) =
      max (mainExtent style.dir content - neededExtent fonts style children content) 0 := by
  rw [freeExtent, neededExtent, List.map_map, ← sub_sub]
  rfl

theorem sumFlex_eq : sumFlex fonts style children (mainExtent style.dir content)
    (crossExtent style.dir content) = weightSum fonts style children content := by
  rw [sumFlex, weightSum, List.map_map]
  rfl

theorem childSpans_eq : childSpans fonts style children content =
    rowFrom (style.gap + (justifyOffsets style.justify
        (if 0 < weightSum fonts style children content then 0 else
          max (mainExtent style.dir content - neededExtent fonts style children content) 0)
        children.length).2)
      ((mainSpan style.dir content).1 + (justifyOffsets style.justify
        (if 0 < weightSum fonts style children content then 0 else
          max (mainExtent style.dir content - neededExtent fonts style children content) 0)
        children.length).1)
      (children.map (mainSize fonts style children (mainExtent style.dir content)
        (crossExtent style.dir content))) := by
  have hstart : (mainSpan style.dir content).1 =
      if style.dir = .row then content.min.x else content.min.y := by
    rw [mainSpan]
    split <;> rfl
  rw [← freeExtent_eq, ← sumFlex_eq, hstart, childSpans, childRects]
  exact mainSpan_placeFrom _ _ _ _ _ _

theorem mainSize_eq (ch : UxNode) : mainSize fonts style children (mainExtent style.dir content)
    (crossExtent style.dir content) ch =
      if 0 < weightSum fonts style children content then childBase fonts style content ch +
        max (mainExtent style.dir content - neededExtent fonts style children content) 0 *
          (childWeight fonts style content ch / weightSum fonts style children content)
      else childBase fonts style content ch := by
  rw [← freeExtent_eq, ← sumFlex_eq]
  rfl

theorem mainSpan_stop : (mainSpan style.dir content).2 =
    (mainSpan style.dir content).1 + mainExtent style.dir content := by
  rw [mainSpan, mainExtent]
  split
  · exact (add_sub_cancel content.min.x content.max.x).symm
  · exact (add_sub_cancel content.min.y content.max.y).symm

theorem gaps_add (a b : ℚ) (n : ℕ) : gaps (a + b) n = gaps a n + gaps b n := add_mul a b _

theorem sum_shares (free : ℚ) (hweights : 0 < weightSum fonts style children content) :
    (children.map fun ch => childBase fonts style content ch +
      free * (childWeight fonts style content ch / weightSum fonts style children content)).sum =
      (children.map (childBase fonts style content)).sum + free := by
  have hshares : (children.map fun ch => free *
      (childWeight fonts style content ch / weightSum fonts style children content)).sum = free := by
    rw [List.sum_map_mul_left]
    simp only [div_eq_mul_inv]
    rw [List.sum_map_mul_right, ← weightSum, mul_inv_cancel₀ hweights.ne', mul_one]
  rw [List.sum_map_add, hshares]

structure Placed (fonts : Fonts) (style : Style) (children : List UxNode) (content : Bounds) : Prop
    where
  /-- One behind the other, with the gap between them. -/
  ordered : (childSpans fonts style children content).Pairwise fun a b => a.2 + style.gap ≤ b.1
  extended : ∀ s ∈ childSpans fonts style children content, s.1 ≤ s.2
  within : neededExtent fonts style children content ≤ mainExtent style.dir content →
    ∀ s ∈ childSpans fonts style children content,
      (mainSpan style.dir content).1 ≤ s.1 ∧ s.2 ≤ (mainSpan style.dir content).2
  shared : neededExtent fonts style children content ≤ mainExtent style.dir content →
    0 < weightSum fonts style children content →
    (childSpans fonts style children content).map (fun s => s.2 - s.1) = children.map (fun ch =>
      childBase fonts style content ch +
        (mainExtent style.dir content - neededExtent fonts style children content) *
          (childWeight fonts style content ch / weightSum fonts style children content)) ∧
    Spread (mainSpan style.dir content).1 (mainSpan style.dir content).2 0 style.gap 0
      (childSpans fonts style children content)
  justified : neededExtent fonts style children content ≤ mainExtent style.dir content →
    weightSum fonts style children content = 0 →
    (childSpans fonts style children content).map (fun s => s.2 - s.1) =
      children.map (childBase fonts style content) ∧
    Spread (mainSpan style.dir content).1 (mainSpan style.dir content).2
      (remainder style.justify (mainExtent style.dir content -
        neededExtent fonts style children content) children.length).1
      (style.gap + (remainder style.justify (mainExtent style.dir content -
        neededExtent fonts style children content) children.length).2.1)
      (remainder style.justify (mainExtent style.dir content -
        neededExtent fonts style children content) children.length).2.2
      (childSpans fonts style children content)
  crowded : mainExtent style.dir content < neededExtent fonts style children content →
    (childSpans fonts style children content).map (fun s => s.2 - s.1) =
      children.map (childBase fonts style content) ∧
    Spread (mainSpan style.dir content).1
      ((mainSpan style.dir content).1 + neededExtent fonts style children content) 0 style.gap 0
      (childSpans fonts style children content)

theorem childSpans_shared (hweights : 0 < weightSum fonts style children content) :
    childSpans fonts style children content =
      rowFrom style.gap ((mainSpan style.dir content).1 + 0) (children.map fun ch =>
        childBase fonts style content ch +
          max (mainExtent style.dir content - neededExtent fonts style children content) 0 *
            (childWeight fonts style content ch / weightSum fonts style children content)) := by
  have hsizes : mainSize fonts style children (mainExtent style.dir content)
      (crossExtent style.dir content) = fun ch => childBase fonts style content ch +
        max (mainExtent style.dir content - neededExtent fonts style children content) 0 *
          (childWeight fonts style content ch / weightSum fonts style children content) := by
    funext ch
    rw [mainSize_eq, if_pos hweights]
  rw [childSpans_eq, if_pos hweights, justifyOffsets_zero, hsizes, add_zero]

theorem childSpans_bases (hweights : ¬0 < weightSum fonts style children content) {free : ℚ}
    (hfree : max (mainExtent style.dir content - neededExtent fonts style children content) 0 =
      free) : childSpans fonts style children content =
      rowFrom (style.gap + (remainder style.justify free children.length).2.1)
        ((mainSpan style.dir content).1 + (remainder style.justify free children.length).1)
        (children.map (childBase fonts style content)) := by
  have hsizes : mainSize fonts style children (mainExtent style.dir content)
      (crossExtent style.dir content) = childBase fonts style content := by
    funext ch
    rw [mainSize_eq, if_neg hweights]
  rw [childSpans_eq, if_neg hweights, hfree, justifyOffsets_remainder, hsizes]

theorem remainder_zero (j : Justify) (n : ℕ) : remainder j 0 n = (0, 0, 0) := by
  cases j <;> simp [remainder]

theorem childSpans_crowded
    (hfree : max (mainExtent style.dir content - neededExtent fonts style children content) 0 = 0) :
    childSpans fonts style children content = rowFrom style.gap ((mainSpan style.dir content).1 + 0)
      (children.map (childBase fonts style content)) := by
  by_cases hsum : 0 < weightSum fonts style children content
  · rw [childSpans_shared hsum, hfree]
    simp only [zero_mul, add_zero]
  · rw [childSpans_bases hsum hfree, remainder_zero]
    dsimp only
    rw [add_zero]

theorem bases_sum (free : ℚ) : (mainSpan style.dir content).1 +
    (remainder style.justify free children.length).1 +
      (children.map (childBase fonts style content)).sum +
      gaps (style.gap + (remainder style.justify free children.length).2.1)
        (children.map (childBase fonts style content)).length +
      (remainder style.justify free children.length).2.2 =
    (mainSpan style.dir content).1 + (neededExtent fonts style children content + free) := by
  have hsum := remainder_sum style.justify free children.length
  rw [List.length_map, gaps_add, neededExtent]
  linarith

theorem shares_sum {free : ℚ} (hweights : 0 < weightSum fonts style children content) :
    (mainSpan style.dir content).1 + 0 + (children.map fun ch => childBase fonts style content ch +
        free * (childWeight fonts style content ch / weightSum fonts style children content)).sum +
      gaps style.gap (children.map fun ch => childBase fonts style content ch +
        free * (childWeight fonts style content ch /
          weightSum fonts style children content)).length + 0 =
    (mainSpan style.dir content).1 + (neededExtent fonts style children content + free) := by
  rw [sum_shares free hweights, List.length_map, neededExtent]
  ring

theorem weightSum_nonneg (hweights : ∀ ch ∈ children, 0 ≤ childWeight fonts style content ch) :
    0 ≤ weightSum fonts style children content := by
  apply List.sum_nonneg
  intro w hw
  obtain ⟨ch, hch, rfl⟩ := List.mem_map.mp hw
  exact hweights ch hch

theorem shares_nonneg (hbases : ∀ ch ∈ children, 0 ≤ childBase fonts style content ch)
    (hweights : ∀ ch ∈ children, 0 ≤ childWeight fonts style content ch) {free : ℚ}
    (hfree : 0 ≤ free) : ∀ size ∈ children.map fun ch =>
    childBase fonts style content ch + free * (childWeight fonts style content ch /
      weightSum fonts style children content), 0 ≤ size := by
  intro size hsize
  obtain ⟨ch, hch, rfl⟩ := List.mem_map.mp hsize
  exact add_nonneg (hbases ch hch)
    (mul_nonneg hfree (div_nonneg (hweights ch hch) (weightSum_nonneg hweights)))

theorem bases_nonneg (hbases : ∀ ch ∈ children, 0 ≤ childBase fonts style content ch) :
    ∀ size ∈ children.map (childBase fonts style content), 0 ≤ size := by
  intro size hsize
  obtain ⟨ch, hch, rfl⟩ := List.mem_map.mp hsize
  exact hbases ch hch

theorem childSpans_ordered (hgap : 0 ≤ style.gap)
    (hbases : ∀ ch ∈ children, 0 ≤ childBase fonts style content ch)
    (hweights : ∀ ch ∈ children, 0 ≤ childWeight fonts style content ch) :
    ((childSpans fonts style children content).Pairwise fun a b =>
    a.2 + style.gap ≤ b.1) ∧ ∀ s ∈ childSpans fonts style children content, s.1 ≤ s.2 := by
  have hfree : 0 ≤ max (mainExtent style.dir content -
      neededExtent fonts style children content) 0 := le_max_right _ _
  by_cases hsum : 0 < weightSum fonts style children content
  · have hnonneg := shares_nonneg hbases hweights hfree
    rw [childSpans_shared hsum]
    exact ⟨pairwise_row hgap hnonneg, fun s hs => (within_row hgap hnonneg s hs).2.1⟩
  · have hnonneg := bases_nonneg hbases
    have hmore := (remainder_nonneg style.justify hfree children.length).2.1
    have hbetween := add_nonneg hgap hmore
    rw [childSpans_bases hsum rfl]
    refine ⟨(pairwise_row hbetween hnonneg).imp fun hab => ?_,
      fun s hs => (within_row hbetween hnonneg s hs).2.1⟩
    linarith

/-- The children of a box one behind the other: within its content where there is room for them,
with what is left shared out by weight or left over, and from its start where there is none. -/
theorem flex_placement (hgap : 0 ≤ style.gap)
    (hbases : ∀ ch ∈ children, 0 ≤ childBase fonts style content ch)
    (hweights : ∀ ch ∈ children, 0 ≤ childWeight fonts style content ch) :
    Placed fonts style children content where
  ordered := (childSpans_ordered hgap hbases hweights).1
  extended := (childSpans_ordered hgap hbases hweights).2
  within hfits := by
    have hfree := sub_nonneg.mpr hfits
    have hstop := @mainSpan_stop style content
    by_cases hsum : 0 < weightSum fonts style children content
    · rw [childSpans_shared hsum, max_eq_left hfree]
      apply within_rowFrom hgap le_rfl le_rfl (shares_nonneg hbases hweights hfree)
      rw [shares_sum hsum, hstop, add_sub_cancel]
    · obtain ⟨hbefore, hmore, hafter⟩ := remainder_nonneg style.justify hfree children.length
      rw [childSpans_bases hsum (max_eq_left hfree)]
      apply within_rowFrom (add_nonneg hgap hmore) hbefore hafter (bases_nonneg hbases)
      rw [bases_sum, hstop, add_sub_cancel]
  shared hfits hsum := by
    rw [childSpans_shared hsum, max_eq_left (sub_nonneg.mpr hfits)]
    refine ⟨map_size _ _ _, spread_rowFrom ?_⟩
    rw [shares_sum hsum, mainSpan_stop, add_sub_cancel]
  justified hfits hsum := by
    rw [childSpans_bases hsum.not_gt (max_eq_left (sub_nonneg.mpr hfits))]
    refine ⟨map_size _ _ _, spread_rowFrom ?_⟩
    rw [bases_sum, mainSpan_stop, add_sub_cancel]
  crowded hcrowded := by
    rw [childSpans_crowded (max_eq_right (sub_nonpos.mpr hcrowded.le))]
    refine ⟨map_size _ _ _, spread_rowFrom ?_⟩
    rw [List.length_map, neededExtent]
    ring

def sharedRow : List UxNode :=
  [.box { Style.col with width := .px 3 } [], .box { Style.col with width := .flex 2 } []]

theorem flex_placement_row : Placed ⟨none, none⟩ { Style.col with dir := .row, gap := 1 } sharedRow
    ⟨⟨0, 0⟩, ⟨10, 10⟩⟩ :=
  flex_placement (by decide) (by decide +kernel) (by decide +kernel)

theorem flex_placement_limits :
    (¬∀ (fonts : Fonts) (style : Style) (children : List UxNode) (content : Bounds),
      0 ≤ style.gap → (∀ ch ∈ children, 0 ≤ childBase fonts style content ch) →
      (∀ ch ∈ children, 0 ≤ childWeight fonts style content ch) →
      neededExtent fonts style children content ≤ mainExtent style.dir content →
      ∀ rect ∈ childRects fonts style children content, content.min.x ≤ rect.min.x ∧
        rect.max.x ≤ content.max.x ∧ content.min.y ≤ rect.min.y ∧ rect.max.y ≤ content.max.y) ∧
    childSpans ⟨none, none⟩ { Style.col with dir := .row }
      [.box { Style.col with width := .flex 0 } []] ⟨⟨0, 0⟩, ⟨10, 10⟩⟩ = [(0, 0)] := by
  constructor
  · intro hinside
    have htall := hinside ⟨none, none⟩ { Style.col with dir := .row }
      [.box { Style.col with width := .px 5, height := .px 20 } []] ⟨⟨0, 0⟩, ⟨10, 10⟩⟩
      (by decide) (by decide +kernel) (by decide +kernel) (by decide +kernel)
      ⟨⟨0, 0⟩, ⟨5, 20⟩⟩ (by decide +kernel)
    exact absurd htall.2.2.2 (by decide)
  · decide +kernel

end Rows

end AtomVibe.Layout
