import Mathlib.Tactic.Linarith
import AtomVibe.Layout
import AtomVibe.UiEvents

namespace AtomVibe.ScrollReach

open TextWrap Ux Layout Ui

section Stack

variable {gap : ℚ}

def topOf (gap : ℚ) : List ℚ → ℕ → ℚ
  | [], _ => 0
  | _ :: _, 0 => 0
  | length :: lengths, i + 1 => length + gap + topOf gap lengths i

theorem stacked_eq {lengths : List ℚ} {last : ℚ} (h : lengths.getLast? = some last) :
    stacked gap lengths = topOf gap lengths (lengths.length - 1) + last := by
  induction lengths with
  | nil => cases h
  | cons length lengths ih =>
    cases lengths with
    | nil =>
      rw [List.getLast?_singleton, Option.some.injEq] at h
      rw [stacked, List.length_singleton, Nat.sub_self, topOf, zero_add, h]
    | cons next lengths =>
      rw [List.getLast?_cons_cons] at h
      rw [stacked, ih h, ← add_assoc]
      rfl

end Stack

section Region

variable (fonts : Fonts) (style : Style) (children : List UxNode) (outer : Bounds)

def region : Bounds := inset outer style.margin 0

def content : Bounds := inset (region style outer) style.padding (borderWidth style)

def contentLen : ℚ :=
  scrollContentHeight fonts children (extent (content style outer)).1 style.gap

def viewH : ℚ := (region style outer).max.y - (region style outer).min.y

def scrollLimit : ℚ := max (contentLen fonts style children outer - viewH style outer) 0

def shown (offset : ℚ) : List Bounds :=
  scrollRects fonts (content style outer) style.gap
    ((content style outer).min.y - scrollOffset (fun _ => offset) style (region style outer)
      (contentLen fonts style children outer)) children

theorem layoutNode_scroll (hrole : style.role = .scroll) (scroll : UInt32 → ℚ)
    (clip : Option Bounds) :
    layoutNode fonts scroll (.box style children) outer clip =
      ⟨region style outer, paintedBox style, style.id, style.role, clip,
          contentLen fonts style children outer⟩ ::
        layoutEach fonts scroll children
          (shown fonts style children outer ((style.id.map scroll).getD 0))
          (clipTo clip (region style outer)) := by
  have hoffset : ∀ rect contentLen, scrollOffset scroll style rect contentLen =
      scrollOffset (fun _ => (style.id.map scroll).getD 0) style rect contentLen := by
    intro rect contentLen
    simp only [scrollOffset]
    cases style.id <;> rfl
  rw [layoutNode, if_pos hrole]
  simp only [hoffset]
  rfl

theorem scrollbarGeom_max {b : LaidBox} {scroll scale : ℚ} {geom : ScrollbarGeom}
    (h : scrollbarGeom b scroll scale = some geom) :
    geom.max = max (b.contentLen - (b.rect.max.y - b.rect.min.y)) 0 := by
  simp only [scrollbarGeom] at h
  split_ifs at h
  cases h
  rfl

theorem handleWheel_sets {solveFor : UiState → List LaidBox} {state : UiState} {x y viewH len : ℚ}
    {id : UInt32} (htarget : (solveFor state).foldl (wheelTarget x y) none = some (id, viewH, len))
    {offset : ℚ} (hlow : 0 ≤ offset) (hhigh : offset ≤ max (len - viewH) 0) :
    ∃ delta, (handleWheel solveFor state x y delta).scrollOf id = offset := by
  refine ⟨offset - clamp (state.scrollOf id) 0 (max (len - viewH) 0), ?_⟩
  rw [handleWheel, htarget]
  simp only [UiState.scrollOf, IdMap.insert, Function.update_self, Option.getD_some]
  rw [add_sub_cancel, clamp, if_neg (not_lt.mpr hlow), if_neg (not_lt.mpr hhigh)]

def effective (offset : ℚ) : ℚ := if style.id.isSome then offset else 0

theorem scrollOffset_eq {offset : ℚ} (hlow : 0 ≤ offset)
    (hhigh : offset ≤ scrollLimit fonts style children outer) :
    scrollOffset (fun _ => offset) style (region style outer) (contentLen fonts style children outer) =
      effective style offset := by
  have hlimit : 0 ≤ scrollLimit fonts style children outer := le_max_right _ _
  have hclamp : ∀ o : ℚ, 0 ≤ o → o ≤ scrollLimit fonts style children outer →
      clamp o 0 (scrollLimit fonts style children outer) = o := by
    intro o hlow hhigh
    rw [clamp, if_neg (not_lt.mpr hlow), if_neg (not_lt.mpr hhigh)]
  rw [effective]
  cases hid : style.id with
  | none =>
    have hzero := hclamp 0 (le_refl 0) hlimit
    simpa [scrollOffset, hid, scrollLimit, viewH] using hzero
  | some id =>
    have hsame := hclamp offset hlow hhigh
    simpa [scrollOffset, hid, scrollLimit, viewH] using hsame

def heights : List ℚ :=
  children.map fun ch => (Layout.measure fonts ch (some (extent (content style outer)).1)).2

theorem scrollRects_getElem? (content : Bounds) (gap cursor : ℚ) (i : ℕ) :
    (scrollRects fonts content gap cursor children)[i]? =
      (children[i]?).map fun ch =>
        let top := cursor + topOf gap (children.map fun ch =>
          (Layout.measure fonts ch (some (extent content).1)).2) i
        ⟨⟨content.min.x, top⟩,
          ⟨content.min.x + (extent content).1, top + (Layout.measure fonts ch (some (extent content).1)).2⟩⟩ := by
  induction children generalizing cursor i with
  | nil => rfl
  | cons ch children ih =>
    cases i with
    | zero =>
      simp only [scrollRects, List.getElem?_cons_zero, Option.map_some, List.map_cons, topOf, add_zero]
    | succ i =>
      simp only [scrollRects, List.getElem?_cons_succ, ih, List.map_cons, topOf, add_assoc]

def topInset : ℚ := style.padding.t + borderWidth style

def reach : ℚ := viewH style outer + effective style (scrollLimit fonts style children outer)

def InView (y : ℚ) : Prop := (region style outer).min.y ≤ y ∧ y ≤ (region style outer).max.y

/-- Every point of every child comes into view, the end of the last at the greatest offset and the
top of the first at none. -/
structure Reachable : Prop where
  points : ∀ (i : ℕ) (rect : Bounds), (shown fonts style children outer 0)[i]? = some rect → ∀ h, 0 ≤ h →
    h ≤ rect.max.y - rect.min.y → ∃ offset, 0 ≤ offset ∧
      offset ≤ scrollLimit fonts style children outer ∧
      ∃ moved : Bounds, (shown fonts style children outer offset)[i]? = some moved ∧
        InView style outer (moved.min.y + h)
  bottom : ∀ rect ∈ (shown fonts style children outer
    (scrollLimit fonts style children outer)).getLast?, rect.max.y ≤ (region style outer).max.y
  top : ∀ rect ∈ (shown fonts style children outer 0).head?, InView style outer rect.min.y

/-- The inset above the content is within the view, and the content with it within reach. With
lengths below 0 this is asked of every child. -/
structure Covered : Prop where
  inset_nonneg : 0 ≤ topInset style
  inset_fits : topInset style ≤ viewH style outer
  content_ends : topInset style + contentLen fonts style children outer ≤
    reach fonts style children outer
  children_fit : ∀ (i : ℕ) (h : ℚ), (heights fonts style children outer)[i]? = some h → 0 ≤ h →
    0 ≤ topInset style + topOf style.gap (heights fonts style children outer) i ∧
      topInset style + topOf style.gap (heights fonts style children outer) i + h ≤
        reach fonts style children outer

variable {fonts style children outer}

theorem scrollLimit_nonneg : 0 ≤ scrollLimit fonts style children outer := le_max_right _ _

theorem shown_getElem? {offset : ℚ} (hlow : 0 ≤ offset)
    (hhigh : offset ≤ scrollLimit fonts style children outer) {i : ℕ} {h : ℚ}
    (hheight : (heights fonts style children outer)[i]? = some h) :
    ∃ rect : Bounds, (shown fonts style children outer offset)[i]? = some rect ∧
      rect.min.y = (region style outer).min.y + (topInset style +
        topOf style.gap (heights fonts style children outer) i - effective style offset) ∧
      rect.max.y = rect.min.y + h := by
  rw [heights, List.getElem?_map, Option.map_eq_some_iff] at hheight
  obtain ⟨ch, hch, rfl⟩ := hheight
  rw [shown, scrollRects_getElem?, hch, Option.map_some, scrollOffset_eq fonts style children outer hlow hhigh]
  refine ⟨_, rfl, ?_, rfl⟩
  simp only [content, inset, topInset, heights]
  ring

theorem length_scrollRects (content : Bounds) (gap cursor : ℚ) :
    (scrollRects fonts content gap cursor children).length = children.length := by
  induction children generalizing cursor with
  | nil => rfl
  | cons ch children ih => rw [scrollRects, List.length_cons, List.length_cons, ih]

theorem height_of_shown {offset : ℚ} {i : ℕ} {rect : Bounds}
    (h : (shown fonts style children outer offset)[i]? = some rect) :
    ∃ height, (heights fonts style children outer)[i]? = some height := by
  obtain ⟨hi, -⟩ := List.getElem?_eq_some_iff.mp h
  rw [shown, length_scrollRects] at hi
  have hheights : i < (heights fonts style children outer).length := by
    rw [heights, List.length_map]
    exact hi
  exact ⟨_, List.getElem?_eq_getElem hheights⟩

theorem effective_nonneg {offset : ℚ} (h : 0 ≤ offset) : 0 ≤ effective style offset := by
  rw [effective]
  split
  · exact h
  · exact le_refl 0

theorem effective_le {offset limit : ℚ} (h : offset ≤ limit) :
    effective style offset ≤ effective style limit := by
  rw [effective, effective]
  split
  · exact h
  · exact le_refl 0

theorem exists_offset (hview : 0 ≤ viewH style outer) {y : ℚ} (hlow : 0 ≤ y)
    (hhigh : y ≤ reach fonts style children outer) :
    ∃ offset, 0 ≤ offset ∧ offset ≤ scrollLimit fonts style children outer ∧
      0 ≤ y - effective style offset ∧ y - effective style offset ≤ viewH style outer := by
  rw [reach] at hhigh
  by_cases hfits : y ≤ viewH style outer
  · refine ⟨0, le_refl 0, scrollLimit_nonneg, ?_⟩
    have hzero : effective style 0 = 0 := by
      rw [effective, ite_self]
    rw [hzero, sub_zero]
    exact ⟨hlow, hfits⟩
  · rw [not_le] at hfits
    cases hid : style.id with
    | none =>
      rw [effective, hid, Option.isSome_none, if_neg Bool.false_ne_true] at hhigh
      linarith
    | some id =>
      have heffective : ∀ offset, effective style offset = offset := by
        intro offset
        rw [effective, hid, Option.isSome_some, if_pos rfl]
      rw [heffective] at hhigh
      refine ⟨y - viewH style outer, by linarith, by linarith, ?_⟩
      rw [heffective]
      constructor <;> linarith

theorem shown_getLast? {offset : ℚ} (hlow : 0 ≤ offset)
    (hhigh : offset ≤ scrollLimit fonts style children outer) (hne : children ≠ []) :
    ∃ rect : Bounds, (shown fonts style children outer offset).getLast? = some rect ∧
      rect.max.y = (region style outer).min.y + (topInset style +
        contentLen fonts style children outer - effective style offset) := by
  have hlength : (heights fonts style children outer).length = children.length := List.length_map _
  have hpos := List.length_pos_of_ne_nil hne
  obtain ⟨last, hlast⟩ : ∃ last, (heights fonts style children outer).getLast? = some last := by
    rw [List.getLast?_eq_getElem?, hlength]
    exact ⟨_, List.getElem?_eq_getElem (by rw [hlength]; omega)⟩
  have hcontent : contentLen fonts style children outer = topOf style.gap
      (heights fonts style children outer) (children.length - 1) + last := by
    rw [← hlength]
    exact stacked_eq hlast
  rw [List.getLast?_eq_getElem?, hlength] at hlast
  obtain ⟨rect, hrect, hmin, hmax⟩ := shown_getElem? hlow hhigh hlast
  refine ⟨rect, ?_, ?_⟩
  · rw [List.getLast?_eq_getElem?, ← hrect]
    congr 1
    rw [shown, length_scrollRects]
  · rw [hmax, hmin, hcontent]
    ring

theorem shown_head? (hne : children ≠ []) :
    ∃ rect : Bounds, (shown fonts style children outer 0).head? = some rect ∧
      rect.min.y = (region style outer).min.y + topInset style := by
  have hlength : (heights fonts style children outer).length = children.length := List.length_map _
  have hpos := List.length_pos_of_ne_nil hne
  have hfirst : (heights fonts style children outer)[0]? =
      some (heights fonts style children outer)[0] := List.getElem?_eq_getElem (by omega)
  obtain ⟨rect, hrect, hmin, -⟩ := shown_getElem? (le_refl 0) scrollLimit_nonneg hfirst
  have htop : topOf style.gap (heights fonts style children outer) 0 = 0 := by
    cases heights fonts style children outer <;> rfl
  refine ⟨rect, by rw [List.head?_eq_getElem?, hrect], ?_⟩
  rw [hmin, htop, effective, ite_self]
  ring

theorem inView_iff {y z : ℚ} (h : y = (region style outer).min.y + z) :
    InView style outer y ↔ 0 ≤ z ∧ z ≤ viewH style outer := by
  rw [InView, viewH, h]
  constructor
  · rintro ⟨hlow, hhigh⟩
    constructor <;> linarith
  · rintro ⟨hlow, hhigh⟩
    constructor <;> linarith

theorem covered_of_reachable (hne : children ≠ []) (h : Reachable fonts style children outer) :
    Covered fonts style children outer := by
  obtain ⟨first, hfirst, hfirstY⟩ := @shown_head? fonts style children outer hne
  have htop := (inView_iff hfirstY).mp (h.top first hfirst)
  obtain ⟨last, hlast, hlastY⟩ :=
    @shown_getLast? fonts style children outer _ scrollLimit_nonneg (le_refl _) hne
  have hbottom := h.bottom last hlast
  refine ⟨htop.1, htop.2, ?_, ?_⟩
  · rw [hlastY] at hbottom
    rw [reach, viewH]
    linarith
  · intro i height hheight hnonneg
    obtain ⟨rect, hrect, hmin, hmax⟩ :=
      shown_getElem? (le_refl 0) (@scrollLimit_nonneg fonts style children outer) hheight
    have hpoint : ∀ y, 0 ≤ y → y ≤ height →
        0 ≤ topInset style + topOf style.gap (heights fonts style children outer) i + y ∧
          topInset style + topOf style.gap (heights fonts style children outer) i + y ≤
            reach fonts style children outer := by
      intro y hlow hhigh
      obtain ⟨offset, hoffset, hlimit, moved, hmoved, hview⟩ :=
        h.points i rect hrect y hlow (by rw [hmax]; linarith)
      obtain ⟨other, hother, hotherY, -⟩ := shown_getElem? hoffset hlimit hheight
      rw [hmoved, Option.some.injEq] at hother
      subst hother
      have heffective := @effective_nonneg style _ hoffset
      have hreach := @effective_le style _ _ hlimit
      have hbounds := (@inView_iff style outer _ (topInset style +
        topOf style.gap (heights fonts style children outer) i + y - effective style offset)
        (by rw [hotherY]; ring)).mp hview
      rw [reach]
      constructor <;> linarith
    have hstart := (hpoint 0 (le_refl 0) hnonneg).1
    rw [add_zero] at hstart
    exact ⟨hstart, (hpoint height hnonneg (le_refl _)).2⟩

theorem reachable_of_covered (h : Covered fonts style children outer) :
    Reachable fonts style children outer := by
  have hview : 0 ≤ viewH style outer := h.inset_nonneg.trans h.inset_fits
  constructor
  · intro i rect hrect y hlow hhigh
    obtain ⟨height, hheight⟩ := height_of_shown hrect
    obtain ⟨same, hsame, hmin, hmax⟩ :=
      shown_getElem? (le_refl 0) (@scrollLimit_nonneg fonts style children outer) hheight
    rw [hrect, Option.some.injEq] at hsame
    subst hsame
    have hy : y ≤ height := by
      rw [hmax] at hhigh
      linarith
    obtain ⟨hstart, hend⟩ := h.children_fit i height hheight (hlow.trans hy)
    obtain ⟨offset, hoffset, hlimit, hbounds⟩ := @exists_offset fonts style children outer hview
      (topInset style + topOf style.gap (heights fonts style children outer) i + y)
      (by linarith) (by linarith)
    obtain ⟨moved, hmoved, hmovedY, -⟩ := shown_getElem? hoffset hlimit hheight
    refine ⟨offset, hoffset, hlimit, moved, hmoved, ?_⟩
    rw [inView_iff (show moved.min.y + y = (region style outer).min.y + (topInset style +
      topOf style.gap (heights fonts style children outer) i + y - effective style offset) by
        rw [hmovedY]; ring)]
    exact hbounds
  · intro rect hrect
    have hne : children ≠ [] := by
      rintro rfl
      cases hrect
    obtain ⟨last, hlast, hlastY⟩ :=
      @shown_getLast? fonts style children outer _ scrollLimit_nonneg (le_refl _) hne
    rw [hlast] at hrect
    cases hrect
    have hends := h.content_ends
    rw [reach, viewH] at hends
    rw [hlastY]
    linarith
  · intro rect hrect
    have hne : children ≠ [] := by
      rintro rfl
      cases hrect
    obtain ⟨first, hfirst, hfirstY⟩ := @shown_head? fonts style children outer hne
    rw [hfirst] at hrect
    cases hrect
    rw [inView_iff hfirstY]
    exact ⟨h.inset_nonneg, h.inset_fits⟩

/-- All the content can be scrolled into view if there is none, or the inset above it leaves it
within reach. -/
theorem reachable_iff : Reachable fonts style children outer ↔
    children = [] ∨ Covered fonts style children outer := by
  constructor
  · intro h
    by_cases hne : children = []
    · exact .inl hne
    · exact .inr (covered_of_reachable hne h)
  · rintro (rfl | h)
    · constructor
      · intro i rect hrect
        cases hrect
      · intro rect hrect
        cases hrect
      · intro rect hrect
        cases hrect
    · exact reachable_of_covered h

end Region

def paddedScroll : Style := { Style.col with padding := .all 10, id := some 1, role := .scroll }

def tallChild : UxNode := .box { Style.col with height := .px 200 } []

def window : Bounds := ⟨⟨0, 0⟩, ⟨100, 100⟩⟩

theorem padded_end_unreachable : ¬Reachable ⟨none, none⟩ paddedScroll [tallChild] window := by
  intro h
  obtain ⟨last, hlast, hlastY⟩ := @shown_getLast? ⟨none, none⟩ paddedScroll [tallChild] window _
    scrollLimit_nonneg (le_refl _) (List.cons_ne_nil _ _)
  have hend := h.bottom last hlast
  have hlen : contentLen ⟨none, none⟩ paddedScroll [tallChild] window = 200 := by
    simp [contentLen, scrollContentHeight, stacked, tallChild, Layout.measure, boxSize, Style.col, Edges.all]
  have hview : viewH paddedScroll window = 100 := by
    simp [viewH, region, inset, paddedScroll, window, Style.col, Edges.all]
  have hinset : topInset paddedScroll = 10 := by
    simp [topInset, borderWidth, paddedScroll, Style.col, Edges.all]
  have hbottom : (region paddedScroll window).max.y = (region paddedScroll window).min.y + 100 := by
    rw [← hview, viewH, add_sub_cancel]
  have hlimit : scrollLimit ⟨none, none⟩ paddedScroll [tallChild] window = 100 := by
    rw [scrollLimit, hlen, hview]
    norm_num
  have heffective : effective paddedScroll 100 = 100 := by
    simp [effective, paddedScroll]
  rw [hlastY, hbottom, hlimit, hlen, hinset, heffective] at hend
  linarith

end AtomVibe.ScrollReach
