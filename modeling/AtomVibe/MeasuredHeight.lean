import AtomVibe.LayoutMeasure

namespace AtomVibe.Layout

open Ux TextWrap Rich

variable {fonts : Fonts} {style : Style} {children : List UxNode}

def Agrees (fonts : Fonts) : Sizing → UxNode → Prop
  | .given, n => ∀ a rect, Assigned n a rect →
    (measure fonts n (some a)).2 = neededHeight fonts n rect
  | .own, n => ∀ rect, Roomy fonts n rect →
    (measure fonts n none).2 = neededHeight fonts n rect

section Given

theorem exists_selfWidth (h : Orderly (.box style children)) {a : ℚ} {rect : Bounds}
    (hrect : Assigned (.box style children) a rect) : ∃ w, selfWidth style (some a) = some w ∧
      Matches (max (w - padW style) 0) (width (contentRect style rect)) := by
  have hpad := h.plain.padW_nonneg
  have hmargin : 0 ≤ style.margin.l + style.margin.r := h.margin_nonneg
  rw [width_contentRect]
  cases hstyle : style.width with
  | px v =>
    simp only [Assigned, nodeDim, nodeMargin, hstyle, if_true] at hrect
    refine ⟨v, by rw [selfWidth, hstyle], ?_⟩
    rw [hrect, add_sub_cancel_right]
    exact matches_room (.inl rfl) hpad
  | pct p =>
    simp only [Assigned, nodeDim, nodeMargin, hstyle, if_true] at hrect
    obtain ⟨x, hmatches, hx⟩ := hrect
    refine ⟨max (a * p / 100) 0, by rw [selfWidth, hstyle]; rfl, ?_⟩
    rw [hx, add_sub_cancel_right]
    exact matches_room (matches_scale hmatches (h.wide.pct p hstyle)) hpad
  | auto =>
    simp only [Assigned, nodeDim, hstyle, if_true] at hrect
    refine ⟨max (a - (style.margin.l + style.margin.r)) 0, by rw [selfWidth, hstyle]; rfl, ?_⟩
    exact matches_room (matches_room hrect hmargin) hpad
  | flex weight =>
    simp only [Assigned, nodeDim, hstyle, if_true] at hrect
    refine ⟨max (a - (style.margin.l + style.margin.r)) 0, by rw [selfWidth, hstyle]; rfl, ?_⟩
    exact matches_room (matches_room hrect hmargin) hpad

theorem assigned_column (hdir : style.dir = .column) (hplain : Plain style) {ch : UxNode}
    {a x main : ℚ} {rect : Bounds} (hmatches : Matches a x)
    (hrect : width rect = crossSize fonts style x main ch) : Assigned ch a rect := by
  simp only [crossSize, hdir, hplain.align] at hrect
  cases hch : nodeDim ch true with
  | px v => simpa [Assigned, hch] using hrect
  | pct p =>
    simp only [Assigned, hch]
    exact ⟨x, hmatches, by simpa [hch] using hrect⟩
  | auto => simp_all [Assigned]
  | flex weight => simp_all [Assigned]

theorem column_given (hdir : style.dir = .column) (h : Orderly (.box style children))
    (hchildren : ∀ ch ∈ children, Agrees fonts .given ch) :
    Agrees fonts .given (.box style children) := by
  intro a rect hrect
  obtain ⟨w, hwidth, hmatches⟩ := exists_selfWidth h hrect
  have hneeded : neededEach fonts children
      (childRects fonts style children (contentRect style rect)) =
      children.map fun ch => (measure fonts ch (some (max (w - padW style) 0))).2 := by
    apply neededEach_eq
    refine (childRects_column hdir).imp fun ch r hr => ?_
    exact hchildren ch hr.1 _ _ (assigned_column hdir h.plain hmatches hr.2.1)
  rw [measure_column hdir, hwidth, Option.map_some, boxSize_height h.plain, neededHeight, hneeded,
    hdir, List.map_map]
  rfl

theorem measureBase_eq {ch : UxNode} (hpct : ∀ p, nodeDim ch true ≠ .pct p) (inner x : ℚ)
    (first : ℚ × ℚ) : measureBase inner ch first = measureBase x ch first := by
  rw [measureBase, measureBase]
  cases hch : nodeDim ch true with
  | pct p => exact absurd hch (hpct p)
  | auto => rfl
  | px v => rfl
  | flex weight => rfl

theorem measureBase_nonneg (hpos : fonts.Positive) {ch : UxNode} (h : Orderly ch)
    (hpct : ∀ p, nodeDim ch true ≠ .pct p) (inner : ℚ) :
    0 ≤ (measureBase inner ch (measure fonts ch none)).1 := by
  have hmargin := h.margin_nonneg
  rw [measureBase]
  cases hch : nodeDim ch true with
  | pct p => exact absurd hch (hpct p)
  | auto => exact hmargin.trans (margin_le_measure hpos ch h none)
  | flex weight => exact hmargin
  | px v =>
    cases ch with
    | text content size color => exact absurd hch Dim.noConfusion
    | rich spans align => exact absurd hch Dim.noConfusion
    | box style children => exact add_nonneg (h.wide.px v hch) hmargin

theorem share_matches {inner x : ℚ} (h : Matches inner x) {base base' : UxNode → ℚ × ℚ}
    (hbase : ∀ ch ∈ children, base ch = base' ch) (hnonneg : ∀ ch ∈ children, 0 ≤ (base ch).1)
    (hgap : 0 ≤ style.gap) {ch : UxNode} (hch : ch ∈ children) :
    share style inner children base ch = share style x children base' ch := by
  have hbases : (children.map fun ch => (base' ch).1) = children.map fun ch => (base ch).1 :=
    List.map_congr_left fun ch hch => by rw [hbase ch hch]
  have hweights : (children.map fun ch => (base' ch).2) = children.map fun ch => (base ch).2 :=
    List.map_congr_left fun ch hch => by rw [hbase ch hch]
  rw [share, share, hbases, hweights, hbase ch hch]
  rcases h with rfl | ⟨hinner, hx⟩
  · rfl
  · have hsum : 0 ≤ (children.map fun ch => (base ch).1).sum := by
      apply List.sum_nonneg
      intro y hy
      obtain ⟨other, hother, rfl⟩ := List.mem_map.mp hy
      exact hnonneg other hother
    have hgaps : 0 ≤ gaps style.gap children.length := by
      have hlength : (1 : ℚ) ≤ children.length :=
        Nat.one_le_cast.mpr (List.length_pos_of_mem hch)
      exact mul_nonneg hgap (by linarith)
    rw [max_eq_right (by linarith), max_eq_right (by linarith)]

theorem share_content (hpos : fonts.Positive) (h : Orderly (.box style children))
    (hpct : ∀ ch ∈ children, ∀ p, nodeDim ch true ≠ .pct p) {inner x : ℚ} (hmatches : Matches inner x)
    {ch : UxNode} (hch : ch ∈ children) :
    share style inner children (fun ch => measureBase inner ch (measure fonts ch none)) ch =
      share style x children (fun ch => measureBase x ch (measure fonts ch none)) ch :=
  share_matches hmatches (fun ch hch => measureBase_eq (hpct ch hch) inner x _)
    (fun ch hch => measureBase_nonneg hpos (h.child hch) (hpct ch hch) inner) h.plain.gap hch

theorem assigned_share {ch : UxNode} (hpct : ∀ p, nodeDim ch true ≠ .pct p)
    (hauto : nodeDim ch true ≠ .auto) {first : UxNode → ℚ × ℚ} {inner : ℚ} {rect : Bounds}
    (hrect : width rect =
      share style inner children (fun ch => measureBase inner ch (first ch)) ch) :
    Assigned ch (width rect) rect := by
  rw [Assigned]
  cases hch : nodeDim ch true with
  | auto => exact absurd hch hauto
  | pct p => exact absurd hch (hpct p)
  | flex weight => exact .inl rfl
  | px v =>
    rw [hrect]
    simp [share, measureBase, hch]

theorem roomy_share {ch : UxNode} (hauto : nodeDim ch true = .auto) {inner : ℚ} {rect : Bounds}
    (hrect : width rect = share style inner children
      (fun ch => measureBase inner ch (measure fonts ch none)) ch) : Roomy fonts ch rect := by
  simp [Roomy, hauto, hrect, share, measureBase]

theorem row_given (hpos : fonts.Positive) (hdir : style.dir = .row)
    (h : Orderly (.box style children)) (hpct : ∀ ch ∈ children, ∀ p, nodeDim ch true ≠ .pct p)
    (hown : ∀ ch ∈ children, nodeDim ch true = .auto → Agrees fonts .own ch)
    (hgiven : ∀ ch ∈ children, nodeDim ch true ≠ .auto → Agrees fonts .given ch) :
    Agrees fonts .given (.box style children) := by
  intro a rect hrect
  obtain ⟨w, hwidth, hmatches⟩ := exists_selfWidth h hrect
  have hneeded : neededEach fonts children
      (childRects fonts style children (contentRect style rect)) =
      children.map fun ch => if nodeDim ch true = .auto then (measure fonts ch none).2
        else (measure fonts ch (some (share style (max (w - padW style) 0) children
          (fun ch => measureBase (max (w - padW style) 0) ch (measure fonts ch none)) ch))).2 := by
    apply neededEach_eq
    refine (childRects_row hdir).imp fun ch r ⟨hch, hr, _⟩ => ?_
    rw [mainSize_row hdir] at hr
    split
    · rename_i hauto
      exact hown ch hch hauto r (roomy_share hauto hr)
    · rename_i hauto
      rw [share_content hpos h hpct hmatches hch, ← hr]
      exact hgiven ch hch hauto _ _ (assigned_share (hpct ch hch) hauto hr)
  rw [measure_row hdir hwidth, boxSize_height h.plain, neededHeight, hneeded, hdir,
    measureShares_eq, measureAgain_eq]
  rfl

end Given

section Own

theorem selfWidth_none (hwidth : ∀ v, style.width ≠ .px v) : selfWidth style none = none := by
  rw [selfWidth]
  cases hstyle : style.width with
  | px v => exact absurd hstyle (hwidth v)
  | auto => rfl
  | flex weight => rfl
  | pct p => rfl

theorem measure_of_px {v : ℚ} (hwidth : style.width = .px v) (a : ℚ) :
    measure fonts (.box style children) none = measure fonts (.box style children) (some a) := by
  have hnone : selfWidth style none = some v := by rw [selfWidth, hwidth]
  have hsome : selfWidth style (some a) = some v := by rw [selfWidth, hwidth]
  cases hdir : style.dir with
  | row => rw [measure_row hdir hnone, measure_row hdir hsome]
  | column => rw [measure_column hdir, measure_column hdir, hnone, hsome]

theorem px_own {v : ℚ} (hwidth : style.width = .px v)
    (h : Agrees fonts .given (.box style children)) :
    Agrees fonts .own (.box style children) := by
  intro rect hrect
  rw [measure_of_px hwidth 0]
  apply h
  simpa only [Assigned, Roomy, nodeDim, if_true, hwidth] using hrect

theorem Roomy.measure_le (hwidth : ∀ v, style.width ≠ .px v) {rect : Bounds}
    (h : Roomy fonts (.box style children) rect) :
    (measure fonts (.box style children) none).1 ≤ width rect := by
  cases hstyle : style.width with
  | px v => exact absurd hstyle (hwidth v)
  | auto => simpa only [Roomy, nodeDim, if_true, hstyle] using h
  | flex weight => simpa only [Roomy, nodeDim, if_true, hstyle] using h
  | pct p => simpa only [Roomy, nodeDim, if_true, hstyle] using h

theorem roomy_column (hdir : style.dir = .column) (hplain : Plain style) {ch : UxNode}
    (h : Orderly ch) (hpct : ∀ p, nodeDim ch true = .pct p → 100 ≤ p) {x main : ℚ} (hx : 0 ≤ x)
    (hroom : (measure fonts ch none).1 ≤ x) {rect : Bounds}
    (hrect : width rect = crossSize fonts style x main ch) : Roomy fonts ch rect := by
  simp only [crossSize, hdir, hplain.align] at hrect
  cases hch : nodeDim ch true with
  | px v => simpa [Roomy, hch] using hrect
  | pct p =>
    simp only [Roomy, hch]
    have hwidth : width rect = p / 100 * x + ((nodeMargin ch).l + (nodeMargin ch).r) := by
      simpa [hch] using hrect
    have hscale : 1 * x ≤ p / 100 * x := by
      apply mul_le_mul_of_nonneg_right _ hx
      linarith [hpct p hch]
    linarith [h.margin_nonneg]
  | auto => simp_all [Roomy]
  | flex weight => simp_all [Roomy]

theorem column_own (hwidth : ∀ v, style.width ≠ .px v) (hdir : style.dir = .column)
    (h : Orderly (.box style children))
    (hpct : ∀ ch ∈ children, ∀ p, nodeDim ch true = .pct p → 100 ≤ p)
    (hchildren : ∀ ch ∈ children, Agrees fonts .own ch) :
    Agrees fonts .own (.box style children) := by
  intro rect hrect
  have hroom := hrect.measure_le hwidth
  rw [measure_column hdir, selfWidth_none hwidth, Option.map_none] at hroom ⊢
  rw [boxSize_width hwidth, hdir, List.map_map] at hroom
  have hlargest : largest (children.map fun ch => (measure fonts ch none).1) ≤
      width (contentRect style rect) := by
    rw [width_contentRect]
    have : largest (children.map (Prod.fst ∘ fun ch => measure fonts ch none)) + padW style +
      (style.margin.l + style.margin.r) ≤ width rect := hroom
    simp only [Function.comp_def] at this
    linarith
  have hneeded : neededEach fonts children
      (childRects fonts style children (contentRect style rect)) =
      children.map fun ch => (measure fonts ch none).2 := by
    apply neededEach_eq
    refine (childRects_column hdir).imp fun ch r ⟨hch, hr, _⟩ => ?_
    have hfits : (measure fonts ch none).1 ≤ width (contentRect style rect) :=
      (le_largest (List.mem_map_of_mem hch)).trans hlargest
    exact hchildren ch hch r (roomy_column hdir h.plain (h.child hch) (hpct ch hch)
      ((largest_nonneg _).trans hlargest) hfits hr)
  rw [boxSize_height h.plain, neededHeight, hneeded, hdir, List.map_map]
  rfl

theorem measureBase_le (hpos : fonts.Positive) {ch : UxNode} (h : Orderly ch)
    (hpct : ∀ p, nodeDim ch true ≠ .pct p) (inner : ℚ) :
    (measureBase inner ch (measure fonts ch none)).1 ≤ (measure fonts ch none).1 := by
  rw [measureBase]
  cases hch : nodeDim ch true with
  | pct p => exact absurd hch (hpct p)
  | auto => exact le_rfl
  | flex weight => exact margin_le_measure hpos ch h none
  | px v =>
    cases ch with
    | text content size color => exact absurd hch Dim.noConfusion
    | rich spans align => exact absurd hch Dim.noConfusion
    | box style children =>
      rw [measure, boxSize_px hch]
      exact le_rfl

theorem measure_le_share (hpos : fonts.Positive) (h : Orderly (.box style children))
    (hpct : ∀ ch ∈ children, ∀ p, nodeDim ch true ≠ .pct p)
    (hflex : (children.filter isFlex).length ≤ 1) {x : ℚ}
    (hroom : stacked style.gap (children.map fun ch => (measure fonts ch none).1) ≤ x)
    {ch : UxNode} (hch : ch ∈ children) {weight : ℚ} (hweight : nodeDim ch true = .flex weight) :
    (measure fonts ch none).1 ≤
      share style x children (fun ch => measureBase x ch (measure fonts ch none)) ch := by
  have hpositive : 0 < weight := by
    cases ch with
    | text content size color => exact absurd hweight Dim.noConfusion
    | rich spans align => exact absurd hweight Dim.noConfusion
    | box inner children => exact (h.child hch).plain.flex weight hweight
  have hsum : (children.map fun ch => (measureBase x ch (measure fonts ch none)).2).sum =
      (measureBase x ch (measure fonts ch none)).2 := by
    apply @sum_of_single _ isFlex _ _ _ hflex _ hch
    · rw [isFlex, hweight]
    · intro other hother hnot
      rw [measureBase]
      cases hdim : nodeDim other true with
      | flex f => simp [isFlex, hdim] at hnot
      | auto => rfl
      | px v => rfl
      | pct p => rfl
  have hself : (measureBase x ch (measure fonts ch none)).2 = weight := by
    rw [measureBase, hweight]
  have hslack := sub_le_sum_sub
    (fun other hother => measureBase_le hpos (h.child hother) (hpct other hother) x) hch
  rw [stacked_eq _ (by simpa using List.ne_nil_of_mem hch), List.length_map] at hroom
  rw [share, hsum, hself, if_pos hpositive, mul_div_assoc, div_self hpositive.ne', mul_one]
  have hfree := le_max_left (x - (children.map fun ch =>
    (measureBase x ch (measure fonts ch none)).1).sum - gaps style.gap children.length) 0
  linarith

theorem row_own (hpos : fonts.Positive) (hwidth : ∀ v, style.width ≠ .px v)
    (hdir : style.dir = .row) (h : Orderly (.box style children))
    (hpct : ∀ ch ∈ children, ∀ p, nodeDim ch true ≠ .pct p)
    (hflex : (children.filter isFlex).length ≤ 1)
    (hchildren : ∀ ch ∈ children, Agrees fonts .own ch) :
    Agrees fonts .own (.box style children) := by
  intro rect hrect
  have hroom := hrect.measure_le hwidth
  rw [measure_row_none hdir (selfWidth_none hwidth)] at hroom ⊢
  rw [boxSize_width hwidth, hdir, List.map_map] at hroom
  have hstacked : stacked style.gap (children.map fun ch => (measure fonts ch none).1) ≤
      width (contentRect style rect) := by
    rw [width_contentRect]
    have : stacked style.gap (children.map (Prod.fst ∘ fun ch => measure fonts ch none)) +
      padW style + (style.margin.l + style.margin.r) ≤ width rect := hroom
    simp only [Function.comp_def] at this
    linarith
  have hneeded : neededEach fonts children
      (childRects fonts style children (contentRect style rect)) =
      children.map fun ch => (measure fonts ch none).2 := by
    apply neededEach_eq
    refine (childRects_row hdir).imp fun ch r ⟨hch, hr, _⟩ => ?_
    rw [mainSize_row hdir] at hr
    apply hchildren ch hch
    cases hdim : nodeDim ch true with
    | pct p => exact absurd hdim (hpct ch hch p)
    | auto => exact roomy_share hdim hr
    | px v =>
      rw [Roomy, hdim, hr]
      simp [share, measureBase, hdim]
    | flex weight =>
      rw [Roomy, hdim, hr]
      exact measure_le_share hpos h hpct hflex hstacked hch hdim
  rw [boxSize_height h.plain, neededHeight, hneeded, hdir, List.map_map]
  rfl

end Own

theorem Settles.agrees (hpos : fonts.Positive) {sizing : Sizing} {n : UxNode}
    (h : Settles fonts sizing n) (horderly : Orderly n) : Agrees fonts sizing n := by
  induction h with
  | @text sizing content size color hline =>
    cases sizing with
    | given => exact fun a rect hrect => measureText_needed hpos hline hrect
    | own => exact fun rect hrect => measureText_own hpos hline hrect
  | @rich sizing spans align =>
    cases sizing with
    | given => exact fun a rect hrect => measureRich_needed hrect
    | own => exact fun rect hrect => measureRich_own hpos hrect
  | column hdir _ ih =>
    exact column_given hdir horderly fun ch hch => ih ch hch (horderly.child hch)
  | row hdir hpct _ _ ihown ihgiven =>
    exact row_given hpos hdir horderly hpct
      (fun ch hch hauto => ihown ch hch hauto (horderly.child hch))
      (fun ch hch hauto => ihgiven ch hch hauto (horderly.child hch))
  | px hwidth _ ih => exact px_own hwidth (ih horderly)
  | ownColumn hwidth hdir hpct _ ih =>
    exact column_own hwidth hdir horderly hpct fun ch hch => ih ch hch (horderly.child hch)
  | ownRow hwidth hdir hpct hflex _ ih =>
    exact row_own hpos hwidth hdir horderly hpct hflex
      fun ch hch => ih ch hch (horderly.child hch)

theorem Settles.given {sizing : Sizing} {n : UxNode} (h : Settles fonts sizing n) :
    Settles fonts .given n := by
  induction h with
  | text hline => exact .text hline
  | rich => exact .rich
  | column hdir h _ => exact .column hdir h
  | row hdir hpct hown hgiven _ _ => exact .row hdir hpct hown hgiven
  | px _ h _ => exact h
  | ownColumn _ hdir _ _ ih => exact .column hdir ih
  | ownRow _ hdir hpct _ h ih =>
    exact .row hdir hpct (fun ch hch _ => h ch hch) fun ch hch _ => ih ch hch

section Room

theorem between_nonneg (j : Justify) {free : ℚ} (hfree : 0 ≤ free) (n : ℕ) :
    0 ≤ (justifyOffsets j free n).2 := by
  cases j with
  | start => exact le_rfl
  | center => exact le_rfl
  | endJustify => exact le_rfl
  | spaceBetween =>
    rw [justifyOffsets]
    split
    · rename_i hn
      have hlength : (1 : ℚ) ≤ n := Nat.one_le_cast.mpr (by omega)
      exact div_nonneg hfree (by linarith)
    · exact le_rfl

theorem apart_placeFrom {crossStart crossExtent between : ℚ} (h : 0 ≤ style.gap + between)
    (main cross : UxNode → ℚ) (cursor : ℚ) :
    (placeFrom style crossStart crossExtent between main cross cursor children).IsChain
      (Apart style.dir) := by
  induction children generalizing cursor with
  | nil => exact .nil
  | cons ch children ih =>
    cases children with
    | nil => exact .singleton _
    | cons next children =>
      have hrest := ih (cursor + (main ch + style.gap + between))
      rw [placeFrom] at hrest ⊢
      rw [placeFrom, List.isChain_cons_cons]
      refine ⟨?_, hrest⟩
      cases hdir : style.dir with
      | row =>
        rw [if_pos rfl, if_pos rfl]
        change cursor + main ch ≤ cursor + (main ch + style.gap + between)
        linarith
      | column =>
        rw [if_neg Dir.noConfusion, if_neg Dir.noConfusion]
        change cursor + main ch ≤ cursor + (main ch + style.gap + between)
        linarith

theorem apart_childRects (hgap : 0 ≤ style.gap) (content : Bounds) :
    (childRects fonts style children content).IsChain (Apart style.dir) := by
  have hleftover : ∀ main cross : ℚ, (0 : ℚ) ≤ if 0 < sumFlex fonts style children main cross then 0
      else freeExtent fonts style children main cross := by
    intro main cross
    split
    · exact le_rfl
    · exact le_max_right _ _
  rw [childRects]
  exact apart_placeFrom (add_nonneg hgap (between_nonneg _ (hleftover _ _) _)) _ _ _

theorem clearEach_of {rects : List Bounds}
    (h : children.Forall₂ (fun ch rect => Clear fonts ch rect) rects) :
    ClearEach fonts children rects := by
  induction h with
  | nil => trivial
  | cons hch _ ih => exact ⟨hch, ih⟩

theorem mem_neededEach {R : UxNode → Bounds → Prop} {rects : List Bounds}
    (h : children.Forall₂ R rects) : children.Forall₂ (fun ch rect => R ch rect ∧
      neededHeight fonts ch rect ∈ neededEach fonts children rects) rects := by
  induction h with
  | nil => exact .nil
  | cons hch _ ih =>
    rw [neededEach]
    refine .cons ⟨hch, List.mem_cons_self ..⟩ (ih.imp fun ch rect hrest => ?_)
    exact ⟨hrest.1, List.mem_cons_of_mem _ hrest.2⟩

def Holds (fonts : Fonts) (n : UxNode) : Prop :=
  ∀ a rect, Assigned n a rect → neededHeight fonts n rect ≤ height rect → Clear fonts n rect

theorem column_clear (hpos : fonts.Positive) (hdir : style.dir = .column)
    (h : Orderly (.box style children)) (hsettles : ∀ ch ∈ children, Settles fonts .given ch)
    (hchildren : ∀ ch ∈ children, Holds fonts ch) : Holds fonts (.box style children) := by
  intro a rect _ _
  refine ⟨apart_childRects h.plain.gap _, clearEach_of ?_⟩
  refine (childRects_column hdir).imp fun ch r ⟨hch, hwidth, hheight⟩ => ?_
  have hassigned := assigned_column hdir h.plain (.inl rfl) hwidth
  rw [mainSize_column hdir (fun ch hch => (h.child hch).height_auto) _ _ hch,
    (hsettles ch hch).agrees hpos (h.child hch) _ r hassigned] at hheight
  exact hchildren ch hch _ r hassigned hheight.ge

theorem row_clear (hdir : style.dir = .row) (h : Orderly (.box style children))
    (hpct : ∀ ch ∈ children, ∀ p, nodeDim ch true ≠ .pct p)
    (hchildren : ∀ ch ∈ children, Holds fonts ch) : Holds fonts (.box style children) := by
  intro a rect _ hroom
  rw [neededHeight, hdir] at hroom
  refine ⟨apart_childRects h.plain.gap _, clearEach_of ?_⟩
  have hrects := @mem_neededEach fonts _ _ _ (@childRects_row fonts style children
    (contentRect style rect) hdir)
  refine hrects.imp fun ch r ⟨⟨hch, hwidth, hheight⟩, hmem⟩ => ?_
  rw [mainSize_row hdir] at hwidth
  have hassigned : Assigned ch (width r) r := by
    by_cases hauto : nodeDim ch true = .auto
    · simp only [Assigned, hauto]
      exact .inl rfl
    · exact assigned_share (hpct ch hch) hauto hwidth
  apply hchildren ch hch _ r hassigned
  have hcross : height r = height (contentRect style rect) := by
    rw [hheight]
    simp [crossSize, hdir, (h.child hch).height_auto, h.plain.align]
  have hlargest := le_largest hmem
  rw [hcross, height_contentRect]
  linarith

theorem Settles.holds (hpos : fonts.Positive) {sizing : Sizing} {n : UxNode}
    (h : Settles fonts sizing n) (horderly : Orderly n) : Holds fonts n := by
  induction h with
  | text hline => exact fun a rect _ hroom => hroom
  | rich => exact fun a rect _ hroom => hroom
  | column hdir h ih =>
    exact column_clear hpos hdir horderly h fun ch hch => ih ch hch (horderly.child hch)
  | row hdir hpct hown hgiven ihown ihgiven =>
    apply row_clear hdir horderly hpct
    intro ch hch
    by_cases hauto : nodeDim ch true = .auto
    · exact ihown ch hch hauto (horderly.child hch)
    · exact ihgiven ch hch hauto (horderly.child hch)
  | px _ _ ih => exact ih horderly
  | ownColumn _ hdir _ h ih =>
    exact column_clear hpos hdir horderly (fun ch hch => (h ch hch).given)
      fun ch hch => ih ch hch (horderly.child hch)
  | ownRow _ hdir hpct _ _ ih =>
    exact row_clear hdir horderly hpct fun ch hch => ih ch hch (horderly.child hch)

end Room

theorem Resolves.assigned {root : UxNode} {w : ℚ} (h : Resolves root w) {rect : Bounds}
    (hrect : width rect = w) : Assigned root w rect := by
  rw [Resolves] at h
  rw [Assigned]
  cases hdim : nodeDim root true with
  | px v => rw [hdim] at h; exact hrect.trans h.symm
  | pct p => rw [hdim] at h; exact ⟨w, .inl rfl, hrect.trans h.symm⟩
  | auto => exact .inl hrect.symm
  | flex weight => exact .inl hrect.symm

/-- Where a tree settles, the height it is measured with is the height it needs, and the rectangles
it is laid out in have room for what they hold. -/
theorem measured_height (hpos : fonts.Positive) {root : UxNode}
    (hplain : ∀ style, HasBox style root → Plain style)
    (hwide : ∀ style, HasBox style root → Wide style) (hsettles : Settles fonts .given root)
    {w : ℚ} (hroot : Resolves root w) {rect : Bounds} (hrect : width rect = w) :
    (measure fonts root (some w)).2 = neededHeight fonts root rect ∧
      ((measure fonts root (some w)).2 ≤ height rect → Clear fonts root rect) := by
  have horderly : Orderly root := fun style hbox => ⟨hplain style hbox, hwide style hbox⟩
  have hassigned := hroot.assigned hrect
  have hagrees := hsettles.agrees hpos horderly w rect hassigned
  exact ⟨hagrees, fun hroom => hsettles.holds hpos horderly w rect hassigned (hagrees ▸ hroom)⟩

def sidebar : UxNode := .box { Style.col with dir := .row }
  [.box { Style.col with width := .px 30 } [.text "abc def".toList 7 default],
    .box { Style.col with width := .flex 1 } [.text "abc def".toList 7 default]]

theorem plain_col {dir : Dir} {width : Dim} (hflex : ∀ weight, width = .flex weight → 0 < weight) :
    Plain { Style.col with dir := dir, width := width } where
  height := rfl
  align := rfl
  role := Role.noConfusion
  padding := ⟨le_rfl, le_rfl, le_rfl, le_rfl⟩
  margin := ⟨le_rfl, le_rfl, le_rfl, le_rfl⟩
  border := le_rfl
  gap := le_rfl
  flex := hflex

theorem positive_bitmap : (⟨none, none⟩ : Fonts).Positive := by
  intro bold face hface
  cases bold <;> cases hface

theorem measured_height_sidebar :
    (measure ⟨none, none⟩ sidebar (some 100)).2 =
        neededHeight ⟨none, none⟩ sidebar ⟨⟨0, 0⟩, ⟨100, 20⟩⟩ ∧
      ((measure ⟨none, none⟩ sidebar (some 100)).2 ≤ height ⟨⟨0, 0⟩, ⟨100, 20⟩⟩ →
        Clear ⟨none, none⟩ sidebar ⟨⟨0, 0⟩, ⟨100, 20⟩⟩) := by
  have hline : OneLine ⟨none, none⟩ "abc def".toList 7 := by
    rw [OneLine]
    decide +kernel
  have hboxes : ∀ style, HasBox style sidebar → Plain style ∧ Wide style := by
    intro style hbox
    cases hbox with
    | root => exact ⟨plain_col fun _ => Dim.noConfusion, ⟨fun _ => Dim.noConfusion, fun _ => Dim.noConfusion⟩⟩
    | child hch hbox =>
      simp only [List.mem_cons, List.not_mem_nil, or_false] at hch
      rcases hch with rfl | rfl
      · cases hbox with
        | root =>
          refine ⟨plain_col fun _ => Dim.noConfusion, ⟨fun v hv => ?_, fun _ => Dim.noConfusion⟩⟩
          cases hv
          norm_num
        | child hch hbox =>
          rw [List.mem_singleton.mp hch] at hbox
          cases hbox
      · cases hbox with
        | root =>
          refine ⟨plain_col fun weight hweight => ?_,
            ⟨fun _ => Dim.noConfusion, fun _ => Dim.noConfusion⟩⟩
          cases hweight
          norm_num
        | child hch hbox =>
          rw [List.mem_singleton.mp hch] at hbox
          cases hbox
  have hchildren : ∀ ch ∈ [UxNode.text "abc def".toList 7 default],
      Settles ⟨none, none⟩ .given ch := by
    intro ch hch
    rw [List.mem_singleton.mp hch]
    exact .text hline
  have hsettles : Settles ⟨none, none⟩ .given sidebar := by
    apply Settles.row rfl
    all_goals
      simp only [List.mem_cons, List.not_mem_nil, or_false, forall_eq_or_imp, forall_eq]
    · exact ⟨fun _ => Dim.noConfusion, fun _ => Dim.noConfusion⟩
    · exact ⟨Dim.noConfusion, Dim.noConfusion⟩
    · exact ⟨fun _ => .column rfl hchildren, fun _ => .column rfl hchildren⟩
  exact measured_height positive_bitmap (fun style hbox => (hboxes style hbox).1)
    (fun style hbox => (hboxes style hbox).2) hsettles trivial (by norm_num [width, extent])

def halves : UxNode := .box { Style.col with dir := .row }
  [.box { Style.col with width := .pct 50 } [.text "abc def".toList 7 default]]

theorem measured_height_halves : ¬ ∀ (fonts : Fonts) (root : UxNode) (w : ℚ) (rect : Bounds),
    fonts.Positive → (∀ style, HasBox style root → Plain style) → 0 < w → width rect = w →
      (measure fonts root (some w)).2 = neededHeight fonts root rect := by
  intro h
  have hplain : ∀ style, HasBox style halves → Plain style := by
    intro style hbox
    cases hbox with
    | root => exact plain_col fun _ => Dim.noConfusion
    | child hch hbox =>
      rw [List.mem_singleton.mp hch] at hbox
      cases hbox with
      | root => exact plain_col fun _ => Dim.noConfusion
      | child hch hbox =>
        rw [List.mem_singleton.mp hch] at hbox
        cases hbox
  have hmeasured : (measure ⟨none, none⟩ halves (some 100)).2 = 91 / 5 := by decide +kernel
  have hneeded : neededHeight ⟨none, none⟩ halves ⟨⟨0, 0⟩, ⟨100, 20⟩⟩ = 91 / 10 := by
    decide +kernel
  have heq := h ⟨none, none⟩ halves 100 ⟨⟨0, 0⟩, ⟨100, 20⟩⟩ positive_bitmap hplain (by norm_num)
    (by norm_num [width, extent])
  rw [hmeasured, hneeded] at heq
  norm_num at heq

end AtomVibe.Layout
