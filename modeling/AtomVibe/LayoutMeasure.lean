import AtomVibe.Layout
import Mathlib.Tactic.Ring
import Mathlib.Tactic.FieldSimp
import Mathlib.Tactic.Linarith

namespace AtomVibe.Layout

open Ux TextWrap Rich

section Lists

theorem le_largest {x : ℚ} {lengths : List ℚ} (h : x ∈ lengths) : x ≤ largest lengths := by
  have hfold : ∀ (lengths : List ℚ) (start : ℚ), start ≤ lengths.foldl max start ∧
      ∀ x ∈ lengths, x ≤ lengths.foldl max start := by
    intro lengths
    induction lengths with
    | nil => exact fun start => ⟨le_rfl, by simp⟩
    | cons length lengths ih =>
      intro start
      obtain ⟨hstart, hmem⟩ := ih (max start length)
      rw [List.foldl_cons, List.forall_mem_cons]
      exact ⟨(le_max_left _ _).trans hstart, (le_max_right _ _).trans hstart, hmem⟩
  exact (hfold lengths 0).2 x h

theorem largest_nonneg (lengths : List ℚ) : 0 ≤ largest lengths := by
  have h := @le_largest 0 (0 :: lengths) (List.mem_cons_self ..)
  rwa [largest, List.foldl_cons, max_self] at h

theorem stacked_eq (gap : ℚ) {lengths : List ℚ} (h : lengths ≠ []) :
    stacked gap lengths = lengths.sum + gaps gap lengths.length := by
  induction lengths with
  | nil => exact absurd rfl h
  | cons length lengths ih =>
    cases lengths with
    | nil => simp [stacked, gaps]
    | cons next lengths =>
      rw [stacked, ih (List.cons_ne_nil _ _)]
      simp only [gaps, List.sum_cons, List.length_cons]
      push_cast
      ring

theorem stacked_nonneg {gap : ℚ} (hgap : 0 ≤ gap) {lengths : List ℚ}
    (h : ∀ x ∈ lengths, 0 ≤ x) : 0 ≤ stacked gap lengths := by
  cases lengths with
  | nil => exact le_rfl
  | cons length lengths =>
    have hsum := List.sum_nonneg h
    have hgaps : 0 ≤ gaps gap (length :: lengths).length := by
      have hlength : (0 : ℚ) ≤ lengths.length := Nat.cast_nonneg _
      rw [gaps, List.length_cons]
      push_cast
      exact mul_nonneg hgap (by linarith)
    rw [stacked_eq gap (List.cons_ne_nil _ _)]
    linarith

theorem sub_le_sum_sub {α : Type*} {f g : α → ℚ} {xs : List α} (h : ∀ y ∈ xs, g y ≤ f y) {x : α}
    (hx : x ∈ xs) : f x - g x ≤ (xs.map f).sum - (xs.map g).sum := by
  induction xs with
  | nil => exact absurd hx List.not_mem_nil
  | cons y xs ih =>
    rw [List.forall_mem_cons] at h
    rw [List.map_cons, List.map_cons, List.sum_cons, List.sum_cons]
    rcases List.mem_cons.mp hx with rfl | hx
    · linarith [List.sum_le_sum h.2]
    · linarith [ih h.2 hx, h.1]

theorem sum_of_single {α : Type*} {p : α → Bool} {f : α → ℚ} {xs : List α}
    (hrest : ∀ y ∈ xs, p y = false → f y = 0) (hsingle : (xs.filter p).length ≤ 1) {x : α}
    (hx : x ∈ xs) (hp : p x = true) : (xs.map f).sum = f x := by
  have hfilter : (xs.map f).sum = ((xs.filter p).map f).sum := by
    clear hsingle hx
    induction xs with
    | nil => rfl
    | cons y xs ih =>
      rw [List.forall_mem_cons] at hrest
      rw [List.map_cons, List.sum_cons, ih hrest.2]
      cases hy : p y with
      | true => rw [List.filter_cons_of_pos hy, List.map_cons, List.sum_cons]
      | false => rw [List.filter_cons_of_neg (by simp [hy]), hrest.1 hy, zero_add]
  have hmem : x ∈ xs.filter p := List.mem_filter.mpr ⟨hx, hp⟩
  obtain ⟨y, hy⟩ := List.length_eq_one_iff.mp
    (le_antisymm hsingle (List.length_pos_of_mem hmem))
  rw [hy, List.mem_singleton] at hmem
  rw [hfilter, hy, hmem, List.map_singleton, List.sum_singleton]

end Lists

section Measured

variable {fonts : Fonts} {style : Style} {children : List UxNode}

theorem measureAll_eq (availW : Option ℚ) :
    measureAll fonts children availW = children.map fun ch => measure fonts ch availW := by
  induction children with
  | nil => rw [measureAll, List.map_nil]
  | cons ch children ih => rw [measureAll, ih, List.map_cons]

theorem measureAgain_eq (first : UxNode → ℚ × ℚ) (share : UxNode → ℚ) :
    measureAgain fonts children (children.map first) (children.map share) =
      children.map fun ch =>
        if nodeDim ch true = .auto then (first ch).2 else (measure fonts ch (some (share ch))).2 := by
  induction children with
  | nil => rfl
  | cons ch children ih =>
    rw [List.map_cons, List.map_cons, List.map_cons, measureAgain, ih]

theorem measure_column (hdir : style.dir = .column) (availW : Option ℚ) :
    measure fonts (.box style children) availW = boxSize style (children.map fun ch =>
      measure fonts ch ((selfWidth style availW).map fun w => max (w - padW style) 0)) none := by
  simp only [measure, measureAll_eq, childAvail, hdir]

theorem measure_row (hdir : style.dir = .row) {availW : Option ℚ} {w : ℚ}
    (hwidth : selfWidth style availW = some w) :
    measure fonts (.box style children) availW =
      boxSize style (children.map fun ch => measure fonts ch none)
        (some (measureAgain fonts children (children.map fun ch => measure fonts ch none)
          (measureShares style (max (w - padW style) 0) children
            (children.map fun ch => measure fonts ch none)))) := by
  simp only [measure, measureAll_eq, childAvail, hdir, hwidth]

theorem measure_row_none (hdir : style.dir = .row) {availW : Option ℚ}
    (hwidth : selfWidth style availW = none) : measure fonts (.box style children) availW =
      boxSize style (children.map fun ch => measure fonts ch none) none := by
  simp only [measure, measureAll_eq, childAvail, hdir, hwidth]

def share (style : Style) (inner : ℚ) (children : List UxNode) (base : UxNode → ℚ × ℚ)
    (ch : UxNode) : ℚ :=
  (base ch).1 + if 0 < (children.map fun ch => (base ch).2).sum then
    max (inner - (children.map fun ch => (base ch).1).sum - gaps style.gap children.length) 0 *
      (base ch).2 / (children.map fun ch => (base ch).2).sum
  else 0

theorem measureShares_eq (inner : ℚ) (first : UxNode → ℚ × ℚ) :
    measureShares style inner children (children.map first) =
      children.map (share style inner children fun ch => measureBase inner ch (first ch)) := by
  have hzip : children.zipWith (measureBase inner) (children.map first) =
      children.map fun ch => measureBase inner ch (first ch) := by
    rw [List.zipWith_map_right, List.zipWith_self]
  rw [measureShares, hzip]
  simp only [List.map_map]
  rfl

theorem layoutBase_row (hdir : style.dir = .row) (mainExtent crossExtent : ℚ) (ch : UxNode) :
    layoutBase fonts style mainExtent crossExtent ch =
      measureBase mainExtent ch (measure fonts ch none) := by
  simp only [layoutBase, measureBase, hdir, decide_true, if_true]

theorem mainSize_row (hdir : style.dir = .row) (mainExtent crossExtent : ℚ) (ch : UxNode) :
    mainSize fonts style children mainExtent crossExtent ch =
      share style mainExtent children
        (fun ch => measureBase mainExtent ch (measure fonts ch none)) ch := by
  simp only [mainSize, sumFlex, freeExtent, share, layoutBase_row hdir, List.map_map,
    Function.comp_def]
  split
  · rw [mul_div_assoc]
  · rw [add_zero]

theorem layoutBase_column (hdir : style.dir = .column) {ch : UxNode}
    (hheight : nodeDim ch false = .auto) (mainExtent crossExtent : ℚ) :
    layoutBase fonts style mainExtent crossExtent ch =
      ((measure fonts ch (some crossExtent)).2, 0) := by
  simp [layoutBase, hdir, hheight]

theorem sumFlex_column (hdir : style.dir = .column)
    (hheight : ∀ ch ∈ children, nodeDim ch false = .auto) (mainExtent crossExtent : ℚ) :
    sumFlex fonts style children mainExtent crossExtent = 0 := by
  rw [sumFlex, List.map_map]
  apply List.sum_eq_zero
  intro x hx
  obtain ⟨ch, hch, rfl⟩ := List.mem_map.mp hx
  rw [Function.comp_apply, layoutBase_column hdir (hheight ch hch)]

theorem mainSize_column (hdir : style.dir = .column)
    (hheight : ∀ ch ∈ children, nodeDim ch false = .auto) (mainExtent crossExtent : ℚ)
    {ch : UxNode} (hch : ch ∈ children) :
    mainSize fonts style children mainExtent crossExtent ch =
      (measure fonts ch (some crossExtent)).2 := by
  rw [mainSize, layoutBase_column hdir (hheight ch hch), sumFlex_column hdir hheight]
  exact if_neg (lt_irrefl 0)

end Measured

section Placed

variable {fonts : Fonts} {style : Style} {children : List UxNode} {content : Bounds}

theorem width_contentRect (style : Style) (rect : Bounds) : width (contentRect style rect) =
    width rect - (style.margin.l + style.margin.r) - padW style := by
  simp only [width, extent, contentRect, inset, padW]
  ring

theorem height_contentRect (style : Style) (rect : Bounds) : height (contentRect style rect) =
    height rect - (style.margin.t + style.margin.b) - padH style := by
  simp only [height, extent, contentRect, inset, padH]
  ring

def Sized (dir : Dir) (main cross : ℚ) (rect : Bounds) : Prop :=
  match dir with
  | .row => width rect = main ∧ height rect = cross
  | .column => width rect = cross ∧ height rect = main

theorem sized_placeFrom (crossStart crossExtent between : ℚ) (main cross : UxNode → ℚ)
    (cursor : ℚ) : children.Forall₂ (fun ch rect => Sized style.dir (main ch) (cross ch) rect)
      (placeFrom style crossStart crossExtent between main cross cursor children) := by
  induction children generalizing cursor with
  | nil => exact .nil
  | cons ch children ih =>
    rw [placeFrom]
    refine .cons ?_ (ih _)
    cases style.dir <;> simp [Sized, width, height, extent]

theorem childRects_row (hdir : style.dir = .row) :
    children.Forall₂ (fun ch rect => ch ∈ children ∧
        width rect = mainSize fonts style children (width content) (height content) ch ∧
        height rect = crossSize fonts style (height content)
          (mainSize fonts style children (width content) (height content) ch) ch)
      (childRects fonts style children content) := by
  have hsized := @sized_placeFrom style children
  simp only [hdir, Sized] at hsized
  simp only [childRects, hdir, if_true]
  exact (List.forall₂_and_left _ _).mpr ⟨fun _ hch => hch, hsized _ _ _ _ _ _⟩

theorem childRects_column (hdir : style.dir = .column) :
    children.Forall₂ (fun ch rect => ch ∈ children ∧
        width rect = crossSize fonts style (width content)
          (mainSize fonts style children (height content) (width content) ch) ch ∧
        height rect = mainSize fonts style children (height content) (width content) ch)
      (childRects fonts style children content) := by
  have hsized := @sized_placeFrom style children
  simp only [hdir, Sized] at hsized
  simp only [childRects, hdir, reduceCtorEq, if_false]
  exact (List.forall₂_and_left _ _).mpr ⟨fun _ hch => hch, hsized _ _ _ _ _ _⟩

theorem neededEach_eq {need : UxNode → ℚ} {rects : List Bounds}
    (h : children.Forall₂ (fun ch rect => need ch = neededHeight fonts ch rect) rects) :
    neededEach fonts children rects = children.map need := by
  induction h with
  | nil => rfl
  | cons hch hrest ih => rw [neededEach, ih, List.map_cons, hch]

end Placed

def Orderly (n : UxNode) : Prop := ∀ style, HasBox style n → Plain style ∧ Wide style

section Widths

variable {fonts : Fonts} {style : Style} {children : List UxNode}

theorem Orderly.plain (h : Orderly (.box style children)) : Plain style :=
  (h style (.root children)).1

theorem Orderly.wide (h : Orderly (.box style children)) : Wide style :=
  (h style (.root children)).2

theorem Orderly.child (h : Orderly (.box style children)) {ch : UxNode} (hch : ch ∈ children) :
    Orderly ch := fun style hbox => h style (.child hch hbox)

theorem Plain.padW_nonneg (h : Plain style) : 0 ≤ padW style := by
  rw [padW]
  linarith [h.padding.1, h.padding.2.2.1, h.border]

theorem Orderly.margin_nonneg {n : UxNode} (h : Orderly n) :
    0 ≤ (nodeMargin n).l + (nodeMargin n).r := by
  cases n with
  | text content size color => exact (add_zero (0 : ℚ)).ge
  | rich spans align => exact (add_zero (0 : ℚ)).ge
  | box style children => exact add_nonneg h.plain.margin.1 h.plain.margin.2.2.1

theorem Orderly.height_auto {n : UxNode} (h : Orderly n) : nodeDim n false = .auto := by
  cases n with
  | text content size color => rfl
  | rich spans align => rfl
  | box style children => exact h.plain.height

theorem boxSize_height (hplain : Plain style) (firsts : List (ℚ × ℚ)) (heights : Option (List ℚ)) :
    (boxSize style firsts heights).2 = (match style.dir with
      | .row => largest (heights.getD (firsts.map Prod.snd))
      | .column => stacked style.gap (firsts.map Prod.snd)) +
        padH style + (style.margin.t + style.margin.b) := by
  rw [boxSize, hplain.height]
  cases style.dir <;> exact add_assoc _ _ _

theorem boxSize_width (hwidth : ∀ v, style.width ≠ .px v) (firsts : List (ℚ × ℚ))
    (heights : Option (List ℚ)) : (boxSize style firsts heights).1 = (match style.dir with
      | .row => stacked style.gap (firsts.map Prod.fst)
      | .column => largest (firsts.map Prod.fst)) +
        padW style + (style.margin.l + style.margin.r) := by
  rw [boxSize]
  cases hstyle : style.width with
  | px v => exact absurd hstyle (hwidth v)
  | auto => cases style.dir <;> exact add_assoc _ _ _
  | flex w => cases style.dir <;> exact add_assoc _ _ _
  | pct p => cases style.dir <;> exact add_assoc _ _ _

theorem boxSize_px {v : ℚ} (hwidth : style.width = .px v) (firsts : List (ℚ × ℚ))
    (heights : Option (List ℚ)) :
    (boxSize style firsts heights).1 = v + (style.margin.l + style.margin.r) := by
  rw [boxSize, hwidth]
  exact add_assoc _ _ _

theorem margin_le_boxSize (h : Orderly (.box style children)) {firsts : List (ℚ × ℚ)}
    (hfirsts : ∀ first ∈ firsts, 0 ≤ first.1) (heights : Option (List ℚ)) :
    style.margin.l + style.margin.r ≤ (boxSize style firsts heights).1 := by
  have hinner : 0 ≤ (match style.dir with
      | .row => stacked style.gap (firsts.map Prod.fst)
      | .column => largest (firsts.map Prod.fst)) := by
    cases style.dir with
    | column => exact largest_nonneg _
    | row =>
      apply stacked_nonneg h.plain.gap
      intro x hx
      obtain ⟨first, hfirst, rfl⟩ := List.mem_map.mp hx
      exact hfirsts first hfirst
  by_cases hwidth : ∃ v, style.width = .px v
  · obtain ⟨v, hv⟩ := hwidth
    rw [boxSize_px hv]
    linarith [h.wide.px v hv]
  · rw [boxSize_width (fun v hv => hwidth ⟨v, hv⟩)]
    linarith [h.plain.padW_nonneg]

mutual

theorem margin_le_measure (hpos : fonts.Positive) : ∀ (n : UxNode), Orderly n →
    ∀ availW, (nodeMargin n).l + (nodeMargin n).r ≤ (measure fonts n availW).1
  | .text content size color, _, availW => by
    have hsingle : 0 ≤ advance fonts content size := hpos.advanceStyled_nonneg _ _ _
    cases availW with
    | none => simpa [nodeMargin, Edges.all, measure, measureText] using hsingle
    | some w =>
      simp only [measure, measureText]
      split
      · rename_i hw
        simpa [nodeMargin, Edges.all] using hw.1.le
      · simpa [nodeMargin, Edges.all] using hsingle
  | .rich spans align, _, availW => by
    rw [measure, measureRich]
    simpa [nodeMargin, Edges.all] using largest_nonneg _
  | .box style children, h, availW => by
    rw [measure]
    exact margin_le_boxSize h (measureAll_nonneg hpos children (fun ch hch => h.child hch) _) _

theorem measureAll_nonneg (hpos : fonts.Positive) : ∀ (children : List UxNode),
    (∀ ch ∈ children, Orderly ch) → ∀ availW, ∀ size ∈ measureAll fonts children availW, 0 ≤ size.1
  | [], _, availW => by simp [measureAll]
  | ch :: children, h, availW => by
    rw [List.forall_mem_cons] at h
    rw [measureAll, List.forall_mem_cons]
    exact ⟨h.1.margin_nonneg.trans (margin_le_measure hpos ch h.1 availW),
      measureAll_nonneg hpos children h.2 availW⟩

end

end Widths

def Matches (a x : ℚ) : Prop := a = x ∨ (a ≤ 0 ∧ x ≤ 0)

def Assigned (n : UxNode) (a : ℚ) (rect : Bounds) : Prop :=
  match nodeDim n true with
  | .px v => width rect = v + ((nodeMargin n).l + (nodeMargin n).r)
  | .pct p => ∃ x, Matches a x ∧ width rect = p / 100 * x + ((nodeMargin n).l + (nodeMargin n).r)
  | _ => Matches a (width rect)

def Roomy (fonts : Fonts) (n : UxNode) (rect : Bounds) : Prop :=
  match nodeDim n true with
  | .px v => width rect = v + ((nodeMargin n).l + (nodeMargin n).r)
  | _ => (measure fonts n none).1 ≤ width rect

section Leaves

variable {fonts : Fonts}

theorem matches_room {a x room : ℚ} (h : Matches a x) (hroom : 0 ≤ room) :
    Matches (max (a - room) 0) (x - room) := by
  rcases h with rfl | ⟨ha, hx⟩
  · rcases le_total (a - room) 0 with hle | hle
    · exact .inr ⟨(max_eq_right hle).le, hle⟩
    · exact .inl (max_eq_left hle)
  · exact .inr ⟨(max_eq_right (by linarith)).le, by linarith⟩

theorem matches_scale {a x factor : ℚ} (h : Matches a x) (hfactor : 0 ≤ factor) :
    Matches (max (a * factor / 100) 0) (factor / 100 * x) := by
  have hsame : a * factor / 100 = factor / 100 * a := by ring
  have hscale : 0 ≤ factor / 100 := div_nonneg hfactor (by norm_num)
  rw [hsame]
  rcases h with rfl | ⟨ha, hx⟩
  · rcases le_total (factor / 100 * a) 0 with hle | hle
    · exact .inr ⟨(max_eq_right hle).le, hle⟩
    · exact .inl (max_eq_left hle)
  · exact .inr ⟨(max_eq_right (mul_nonpos_of_nonneg_of_nonpos hscale ha)).le,
      mul_nonpos_of_nonneg_of_nonpos hscale hx⟩

theorem measureText_needed (hpos : fonts.Positive) {content : List Char} {size a x : ℚ}
    (hline : OneLine fonts content size) (h : Matches a x) :
    (measureText fonts content size (some a)).2 =
      (wrap fonts content size x).length * (size * (13 / 10)) := by
  rw [measureText]
  split
  · rename_i hwraps
    have hsame : a = x := by
      rcases h with h | ⟨ha, -⟩
      · exact h
      · exact absurd hwraps.1 (not_lt.mpr ha)
    rw [← hsame, max_eq_left (one_le_length_wrap _ _ _)]
  · rename_i hfits
    have hone : (wrap fonts content size x).length = 1 := by
      rcases le_or_gt x 0 with hx | hx
      · rw [wrap, if_pos hx]
        rfl
      · have hsame : a = x := by
          rcases h with h | ⟨-, hle⟩
          · exact h
          · exact absurd hx (not_lt.mpr hle)
        subst hsame
        exact wrap_one_line hpos hline (not_lt.mp fun hlt => hfits ⟨hx, hlt⟩)
    rw [hone, Nat.cast_one, one_mul]

theorem measureText_own (hpos : fonts.Positive) {content : List Char} {size x : ℚ}
    (hline : OneLine fonts content size) (h : (measureText fonts content size none).1 ≤ x) :
    (measureText fonts content size none).2 =
      (wrap fonts content size x).length * (size * (13 / 10)) := by
  rw [measureText] at h ⊢
  rw [wrap_one_line hpos hline h, Nat.cast_one, one_mul]

theorem richLines_filter (spans : List Span) (a : Option ℚ) :
    richLines fonts spans (a.filter fun w => 0 < w) = richLines fonts spans a := by
  rw [richLines, richLines, Option.filter_filter]
  simp only [Bool.and_self]

theorem measureRich_eq (spans : List Span) (availW : Option ℚ) :
    measureRich fonts spans availW =
      (largest ((richLines fonts spans availW).1.map (·.width)),
        (richLines fonts spans availW).1.length * (richLines fonts spans availW).2) := by
  rw [measureRich, richLines_filter]

theorem richLines_matches {spans : List Span} {a x : ℚ} (h : Matches a x) :
    richLines fonts spans (some a) = richLines fonts spans (some x) := by
  rcases h with rfl | ⟨ha, hx⟩
  · rfl
  · rw [richLines_nonpos ha, richLines_nonpos hx]

theorem measureRich_needed {spans : List Span} {a x : ℚ} (h : Matches a x) :
    (measureRich fonts spans (some a)).2 = (richLines fonts spans (some x)).1.length *
      (richLines fonts spans (some x)).2 := by
  rw [measureRich_eq, richLines_matches h]

theorem measureRich_own (hpos : fonts.Positive) {spans : List Span} {x : ℚ}
    (h : (measureRich fonts spans none).1 ≤ x) : (measureRich fonts spans none).2 =
      (richLines fonts spans (some x)).1.length * (richLines fonts spans (some x)).2 := by
  obtain ⟨line, hlines, hwidth⟩ := @richLines_none fonts spans hpos
  rw [measureRich_eq] at h
  have hfits : (unlimited fonts spans).cur.width ≤ x := by
    rw [← hwidth]
    apply le_trans (le_largest _) h
    rw [hlines, List.map_singleton]
    exact List.mem_singleton_self _
  rw [richLines_of_fits hpos hfits, measureRich_eq]

end Leaves

end AtomVibe.Layout
