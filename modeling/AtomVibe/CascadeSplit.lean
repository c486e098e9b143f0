import AtomVibe.DeclaredStyle
import AtomVibe.DomStructure
import Mathlib.Data.Nat.Notation

namespace AtomVibe.Html

open Text Ux Overwrite

/-- What the opacity dims. -/
inductive Paint
  | background
  | border
  | shadow

def Paint.alpha (style : Style) : Paint → Option ℚ
  | background => style.background.map (·.a)
  | border => style.border.map (·.2.a)
  | shadow => style.shadow.map (·.color.a)

def faded (k : ℚ) (c : Rgba) : Rgba := c.withAlpha (c.a * k)

def fadedLine (k : ℚ) (line : ℚ × Rgba) : ℚ × Rgba := (line.1, faded k line.2)

def fadedShadow (k : ℚ) (sh : Shadow) : Shadow := { sh with color := faded k sh.color }

def fade (k : Paint → ℚ) (style : Style) : Style :=
  { style with
    background := style.background.map (faded (k .background))
    border := style.border.map (fadedLine (k .border))
    shadow := style.shadow.map (fadedShadow (k .shadow)) }

section Fading

variable {k k' : Paint → ℚ} {style : Style}

theorem faded_one : faded 1 = id := by
  funext c
  rw [faded, mul_one]
  rfl

theorem fadedLine_one : fadedLine 1 = id := by
  funext line
  rw [fadedLine, faded_one]
  rfl

theorem fadedShadow_one : fadedShadow 1 = id := by
  funext sh
  rw [fadedShadow, faded_one]
  rfl

theorem faded_comp (a b : ℚ) : faded b ∘ faded a = faded (a * b) := by
  funext c
  simp only [Function.comp_apply, faded, Rgba.withAlpha, mul_assoc]

theorem fadedLine_comp (a b : ℚ) : fadedLine b ∘ fadedLine a = fadedLine (a * b) := by
  funext line
  rw [fadedLine, ← faded_comp]
  rfl

theorem fadedShadow_comp (a b : ℚ) : fadedShadow b ∘ fadedShadow a = fadedShadow (a * b) := by
  funext sh
  rw [fadedShadow, ← faded_comp]
  rfl

theorem fade_one : fade (fun _ => 1) style = style := by
  rw [fade, faded_one, fadedLine_one, fadedShadow_one, Option.map_id, Option.map_id, Option.map_id]
  rfl

theorem fade_fade : fade k' (fade k style) = fade (fun p => k p * k' p) style := by
  simp only [fade, Option.map_map, faded_comp, fadedLine_comp, fadedShadow_comp]

theorem alpha_fade (p : Paint) : p.alpha (fade k style) = (p.alpha style).map (· * k p) := by
  cases p <;>
    simp only [Paint.alpha, fade, Option.map_map, Function.comp_def, fadedLine, fadedShadow, faded,
      Rgba.withAlpha]

theorem fade_eq_iff : fade k style = fade k' style ↔
    ∀ (p : Paint) (a : ℚ), p.alpha style = some a → a * k p = a * k' p := by
  constructor
  · intro h p a ha
    have halpha := congrArg p.alpha h
    rw [alpha_fade, alpha_fade, ha] at halpha
    exact Option.some.inj halpha
  · intro h
    have hbackground : style.background.map (faded (k .background)) =
        style.background.map (faded (k' .background)) := by
      apply Option.map_congr
      intro bg hbg
      rw [faded, faded, h .background bg.a (congrArg (Option.map _) hbg)]
    have hborder : style.border.map (fadedLine (k .border)) =
        style.border.map (fadedLine (k' .border)) := by
      apply Option.map_congr
      intro line hline
      rw [fadedLine, fadedLine, faded, faded, h .border line.2.a (congrArg (Option.map _) hline)]
    have hshadow : style.shadow.map (fadedShadow (k .shadow)) =
        style.shadow.map (fadedShadow (k' .shadow)) := by
      apply Option.map_congr
      intro sh hsh
      rw [fadedShadow, fadedShadow, faded, faded,
        h .shadow sh.color.a (congrArg (Option.map _) hsh)]
    rw [fade, hbackground, hborder, hshadow, fade]

theorem dim_eq (s : Cascade) :
    (dim s).style = fade (fun _ => min s.inh.opacity 1) s.style ∧ (dim s).inh = s.inh := by
  rw [dim]
  split
  · rename_i hlt
    rw [min_eq_left (le_of_lt hlt)]
    exact ⟨rfl, rfl⟩
  · rename_i hlt
    rw [min_eq_right (not_lt.mp hlt), fade_one]
    exact ⟨rfl, rfl⟩

end Fading

section Sheets

variable (readF32 : List Char → Option ℚ)

def writes (p : Paint) (css : List Char) : Bool :=
  match p with
  | .background => (last (Declared.background readF32) (declsOf css)).isSome
  | .border => (last (Declared.border readF32) (declsOf css)).isSome
  | .shadow => (last (Declared.shadow readF32) (declsOf css)).isSome

def opacityAfter (inh : Inherited) (sheets : List (List Char)) : ℚ :=
  (declaredInherited readF32 (sheets.flatMap declsOf) inh).opacity

def weight (inh : Inherited) (sheets : List (List Char)) : ℚ := min (opacityAfter readF32 inh sheets) 1

def lastDeclared (sheets : List (List Char)) (style : Style) (inh : Inherited) :
    Option (Style × Inherited) :=
  if shown (sheets.flatMap declsOf) then
    some (fade (fun _ => weight readF32 inh sheets)
      (declaredStyle readF32 (sheets.flatMap declsOf) style),
      declaredInherited readF32 (sheets.flatMap declsOf) inh)
  else none

end Sheets

section Cascades

variable {readF32 : List Char → Option ℚ} {style : Style} {inh : Inherited} {css : List Char}
variable {s : Cascade} {sheets : List (List Char)}

theorem declaredStyle_fade (k : Paint → ℚ) :
    declaredStyle readF32 (declsOf css) (fade k style) =
      fade (fun p => if writes readF32 p css then 1 else k p)
        (declaredStyle readF32 (declsOf css) style) := by
  have hbackground : ∀ (w paint : Option Rgba) (k : ℚ), w.or (paint.map (faded k)) =
      (w.or paint).map (faded (if w.isSome then 1 else k)) := by
    intro w paint k
    cases w <;> simp [faded_one]
  have hborder : ∀ (w : Option (Option (ℚ × Rgba))) (paint : Option (ℚ × Rgba)) (k : ℚ),
      w.getD (paint.map (fadedLine k)) =
        (w.getD paint).map (fadedLine (if w.isSome then 1 else k)) := by
    intro w paint k
    cases w <;> simp [fadedLine_one]
  have hshadow : ∀ (w : Option (Option Shadow)) (paint : Option Shadow) (k : ℚ),
      w.getD (paint.map (fadedShadow k)) =
        (w.getD paint).map (fadedShadow (if w.isSome then 1 else k)) := by
    intro w paint k
    cases w <;> simp [fadedShadow_one]
  simp only [declaredStyle, fade, hbackground, hborder, hshadow]
  rfl

theorem applyCss_declared (h : applyCss readF32 style inh css = some s) :
    s.style = fade (fun _ => weight readF32 inh [css])
        (declaredStyle readF32 (declsOf css) style) ∧
      s.inh = declaredInherited readF32 (declsOf css) inh := by
  obtain ⟨t, ht, rfl⟩ := Option.map_eq_some_iff.mp h
  obtain ⟨hstyle, hinh⟩ := applyDecls_declared ht
  obtain ⟨hdim, hkept⟩ := dim_eq t
  rw [hdim, hkept, hstyle, hinh, weight, opacityAfter, List.flatMap_singleton]
  exact ⟨rfl, rfl⟩

theorem weight_cons (inh : Inherited) (css : List Char) :
    weight readF32 (declaredInherited readF32 (declsOf css) inh) =
      fun front => weight readF32 inh (css :: front) := by
  funext front
  rw [weight, opacityAfter, ← declaredInherited_append, ← List.flatMap_cons]
  rfl

theorem cascadeBlock_fade (hcuts : ¬Stops sheets) (hshown : sheets.any hides = false)
    (k : Paint → ℚ) :
    cascadeBlock readF32 sheets (fade k style) inh =
      some (some (fade (fun p => carried (writes readF32 p) (weight readF32 inh) (k p) sheets)
        (declaredStyle readF32 (sheets.flatMap declsOf) style),
        declaredInherited readF32 (sheets.flatMap declsOf) inh)) := by
  induction sheets generalizing style inh k with
  | nil => rfl
  | cons css sheets ih =>
    rw [stops_cons, not_or] at hcuts
    rw [List.any_cons, Bool.or_eq_false_iff] at hshown
    obtain ⟨s, happly⟩ := Option.ne_none_iff_exists'.mp
      (mt (@applyCss_eq_none readF32 (fade k style) inh css).mp hcuts.1)
    obtain ⟨hstyle, hinh⟩ := applyCss_declared happly
    have hvisible : s.visible = true := by rw [visible_applyCss happly, hshown.1, Bool.not_false]
    rw [declaredStyle_fade, fade_fade] at hstyle
    rw [cascadeBlock, happly, Option.bind_eq_bind, Option.bind_some, if_pos hvisible, hstyle, hinh,
      ih hcuts.2 hshown.2, List.flatMap_cons, declaredStyle_append, declaredInherited_append]
    simp only [carried, weight_cons]

theorem untilHidden_subset (sheets : List (List Char)) : untilHidden sheets ⊆ sheets := by
  induction sheets with
  | nil => exact List.Subset.refl []
  | cons css sheets ih =>
    rw [untilHidden]
    split
    · exact List.cons_subset_cons css (List.nil_subset sheets)
    · exact List.cons_subset_cons css ih

theorem cascadeBlock_hidden (hcuts : ¬Stops sheets) (hhidden : sheets.any hides = true) :
    cascadeBlock readF32 sheets style inh = some none := by
  have huntil : ¬Stops (untilHidden sheets) := by
    rintro ⟨css, hmem, hcss⟩
    exact hcuts ⟨css, untilHidden_subset sheets hmem, hcss⟩
  rcases @cascadeBlock_cases readF32 sheets style inh with
    ⟨-, hstops⟩ | ⟨hnone, -⟩ | ⟨styled, -, -, hshown⟩
  · exact absurd hstops huntil
  · exact hnone
  · rw [hhidden] at hshown
    cases hshown

theorem cascadeInline_declared (hcuts : ¬Stops sheets) :
    cascadeInline readF32 sheets style inh =
      some (declaredInherited readF32 (sheets.flatMap declsOf) inh) := by
  induction sheets generalizing style inh with
  | nil => rfl
  | cons css sheets ih =>
    rw [stops_cons, not_or] at hcuts
    obtain ⟨s, happly⟩ := Option.ne_none_iff_exists'.mp
      (mt (@applyCss_eq_none readF32 style inh css).mp hcuts.1)
    rw [cascadeInline, happly, Option.bind_eq_bind, Option.bind_some, ih hcuts.2,
      (applyCss_declared happly).2, List.flatMap_cons, declaredInherited_append]

def joined (sheets : List (List Char)) : List Char := [';'].intercalate sheets

theorem splitOn_joined (hne : sheets ≠ []) :
    splitOn ';' (joined sheets) = sheets.flatMap (splitOn ';') := by
  induction sheets with
  | nil => exact absurd rfl hne
  | cons css sheets ih =>
    by_cases hnil : sheets = []
    · subst hnil
      rw [joined, List.intercalate_singleton, List.flatMap_singleton]
    · rw [joined, List.intercalate_cons_of_ne_nil hnil, List.append_assoc, List.singleton_append,
        splitOn_append_sep, ← joined, ih hnil, List.flatMap_cons]

theorem declsOf_joined (hne : sheets ≠ []) : declsOf (joined sheets) = sheets.flatMap declsOf := by
  rw [declsOf, splitOn_joined hne, List.filterMap_flatMap]
  rfl

theorem stops_joined (hne : sheets ≠ []) : Stops [joined sheets] ↔ Stops sheets := by
  simp only [Stops, List.mem_singleton, exists_eq_left, CutsShadow, splitOn_joined hne,
    List.mem_flatMap]
  constructor
  · rintro ⟨decl, ⟨css, hcss, hdecl⟩, hcuts⟩
    exact ⟨css, hcss, decl, hdecl, hcuts⟩
  · rintro ⟨css, hcss, decl, hdecl, hcuts⟩
    exact ⟨decl, ⟨css, hcss, hdecl⟩, hcuts⟩

theorem hides_joined (hne : sheets ≠ []) : [joined sheets].any hides = sheets.any hides := by
  rw [List.any_cons, List.any_nil, Bool.or_false, hides, splitOn_joined hne, List.any_flatMap]
  rfl

theorem hidesDecl_of_display {decl : List Char} {d : Decl} (hread : declOf decl = some d)
    (hdisplay : Declared.display d = some "none".toList) : hidesDecl decl = true := by
  obtain ⟨val, hval, rfl⟩ := Option.map_eq_some_iff.mp hread
  rw [Declared.display, keyed] at hdisplay
  split at hdisplay
  · rename_i hname
    have hkey := toList_of_ofList (List.mem_singleton.mp hname)
    have hlower := Option.some.inj hdisplay
    rw [hidesDecl, hval, hkey, Option.any_some]
    dsimp only at hlower
    rw [hlower]
    rfl
  · cases hdisplay

theorem shown_of_not_hides (h : sheets.any hides = false) : shown (sheets.flatMap declsOf) = true := by
  rw [shown]
  cases hlast : last Declared.display (sheets.flatMap declsOf) with
  | none => rfl
  | some v =>
    rw [Option.all_some, decide_eq_true_eq]
    rintro rfl
    obtain ⟨d, hd, hdisplay⟩ := List.exists_of_findSome?_eq_some hlast
    rw [List.mem_reverse, List.mem_flatMap] at hd
    obtain ⟨css, hcss, hd⟩ := hd
    obtain ⟨decl, hdecl, hread⟩ := List.mem_filterMap.mp hd
    have hhides : hides css = true :=
      List.any_eq_true.mpr ⟨decl, hdecl, hidesDecl_of_display hread hdisplay⟩
    exact List.any_eq_false.mp h css hcss hhides

structure ByLastDeclaration (readF32 : List Char → Option ℚ) (sheets : List (List Char))
    (style : Style) (inh : Inherited) : Prop where
  separate : cascadeBlock readF32 sheets style inh = some (lastDeclared readF32 sheets style inh)
  together : cascadeBlock readF32 [joined sheets] style inh =
    some (lastDeclared readF32 sheets style inh)
  inlineSeparate : cascadeInline readF32 sheets style inh =
    some (declaredInherited readF32 (sheets.flatMap declsOf) inh)
  inlineTogether : cascadeInline readF32 [joined sheets] style inh =
    some (declaredInherited readF32 (sheets.flatMap declsOf) inh)

/-- No shadow is cut, nothing is shown behind `display:none`, and no paint that can be seen is
carried from a sheet to the next under an opacity. -/
structure UndimmedCuts (readF32 : List Char → Option ℚ) (sheets : List (List Char))
    (style : Style) (inh : Inherited) : Prop where
  uncut : ¬Stops sheets
  display : sheets.any hides = true → shown (sheets.flatMap declsOf) = false
  paint : sheets.any hides = false → ∀ (p : Paint) (a : ℚ),
    p.alpha (declaredStyle readF32 (sheets.flatMap declsOf) style) = some a →
      a = 0 ∨ opacityAfter readF32 inh sheets = 0 ∨ AtCuts (fun front back =>
        (∃ css ∈ back, writes readF32 p css = true) ∨ 1 ≤ opacityAfter readF32 inh front) sheets

theorem clamp_nonneg (x : ℚ) : 0 ≤ clamp x 0 1 := by
  rw [clamp]
  split_ifs with hlt hgt
  · exact le_rfl
  · exact zero_le_one
  · exact not_lt.mp hlt

theorem opacityAfter_nonneg (h : 0 ≤ inh.opacity) (sheets : List (List Char)) :
    0 ≤ opacityAfter readF32 inh sheets := by
  rw [opacityAfter, declaredInherited]
  cases hlast : last (Declared.opacity readF32) (sheets.flatMap declsOf) with
  | none => exact h
  | some o =>
    obtain ⟨d, -, hd⟩ := List.exists_of_findSome?_eq_some hlast
    rw [Declared.opacity, keyed] at hd
    split at hd
    · obtain ⟨x, -, rfl⟩ := Option.map_eq_some_iff.mp hd
      exact clamp_nonneg x
    · cases hd

theorem carried_weight_iff (h : 0 ≤ inh.opacity) (hne : sheets ≠ []) (p : Paint) (a : ℚ) :
    a * carried (writes readF32 p) (weight readF32 inh) 1 sheets = a * weight readF32 inh sheets ↔
      a = 0 ∨ opacityAfter readF32 inh sheets = 0 ∨ AtCuts (fun front back =>
        (∃ css ∈ back, writes readF32 p css = true) ∨ 1 ≤ opacityAfter readF32 inh front) sheets := by
  have hweight : ∀ front, 0 ≤ weight readF32 inh front ∧ weight readF32 inh front ≤ 1 :=
    fun front => ⟨le_min (opacityAfter_nonneg h front) zero_le_one, min_le_right _ _⟩
  have hzero : weight readF32 inh sheets = 0 ↔ opacityAfter readF32 inh sheets = 0 := by
    have hnonneg := @opacityAfter_nonneg readF32 inh h sheets
    rw [weight, min_def]
    split_ifs with hle
    · rfl
    · constructor <;> intro hcase <;> linarith
  rw [carried_eq_iff _ hne hweight, hzero]
  apply or_congr_right
  apply or_congr_right
  apply atCuts_congr
  intro front back
  rw [weight, min_eq_right_iff]

theorem lastDeclared_of_shown (h : shown (sheets.flatMap declsOf) = true) :
    lastDeclared readF32 sheets style inh =
      some (fade (fun _ => weight readF32 inh sheets)
        (declaredStyle readF32 (sheets.flatMap declsOf) style),
        declaredInherited readF32 (sheets.flatMap declsOf) inh) := by
  rw [lastDeclared, if_pos h]

theorem cascadeInline_joined (hne : sheets ≠ []) (hcuts : ¬Stops sheets) :
    cascadeInline readF32 [joined sheets] style inh =
      some (declaredInherited readF32 (sheets.flatMap declsOf) inh) := by
  rw [cascadeInline_declared (mt (stops_joined hne).mp hcuts), List.flatMap_singleton,
    declsOf_joined hne]

theorem cascadeBlock_joined (hne : sheets ≠ []) (hcuts : ¬Stops sheets)
    (hshown : sheets.any hides = false) :
    cascadeBlock readF32 [joined sheets] style inh =
      some (lastDeclared readF32 sheets style inh) := by
  have hblock := @cascadeBlock_fade readF32 style inh [joined sheets]
    (mt (stops_joined hne).mp hcuts) ((hides_joined hne).trans hshown) (fun _ => 1)
  have hcarried : ∀ p, carried (writes readF32 p) (weight readF32 inh) 1 [joined sheets] =
      weight readF32 inh sheets := by
    intro p
    rw [carried, carried, ite_self, one_mul, weight, opacityAfter, List.flatMap_singleton,
      declsOf_joined hne]
    rfl
  rw [fade_one, List.flatMap_singleton, declsOf_joined hne] at hblock
  simp only [hcarried] at hblock
  rw [hblock, lastDeclared_of_shown (shown_of_not_hides hshown)]

theorem byLast_of_hidden (hne : sheets ≠ []) (hcuts : ¬Stops sheets)
    (hhidden : sheets.any hides = true) :
    ByLastDeclaration readF32 sheets style inh ↔ UndimmedCuts readF32 sheets style inh := by
  have hseparate := @cascadeBlock_hidden readF32 style inh sheets hcuts hhidden
  have htogether := @cascadeBlock_hidden readF32 style inh [joined sheets]
    (mt (stops_joined hne).mp hcuts) ((hides_joined hne).trans hhidden)
  constructor
  · intro hlast
    refine ⟨hcuts, fun _ => ?_, fun hshown => ?_⟩
    · have hnone := Option.some.inj (hseparate.symm.trans hlast.separate)
      rw [lastDeclared] at hnone
      split at hnone
      · cases hnone
      · rename_i hnot
        exact Bool.eq_false_iff.mpr hnot
    · rw [hhidden] at hshown
      cases hshown
  · intro hundimmed
    have hnone : lastDeclared readF32 sheets style inh = none := by
      rw [lastDeclared, hundimmed.display hhidden]
      rfl
    exact ⟨hnone ▸ hseparate, hnone ▸ htogether, cascadeInline_declared hcuts,
      cascadeInline_joined hne hcuts⟩

theorem byLast_of_shown (h : 0 ≤ inh.opacity) (hne : sheets ≠ []) (hcuts : ¬Stops sheets)
    (hshown : sheets.any hides = false) :
    ByLastDeclaration readF32 sheets style inh ↔ UndimmedCuts readF32 sheets style inh := by
  have hseparate := @cascadeBlock_fade readF32 style inh sheets hcuts hshown (fun _ => 1)
  have hlast := @lastDeclared_of_shown readF32 style inh sheets (shown_of_not_hides hshown)
  rw [fade_one] at hseparate
  constructor
  · intro hby
    refine ⟨hcuts, fun hhides => ?_, fun _ p a ha => ?_⟩
    · rw [hshown] at hhides
      cases hhides
    · have hpair := Option.some.inj (Option.some.inj (hseparate.symm.trans
        (hby.separate.trans (congrArg some hlast))))
      exact (carried_weight_iff h hne p a).mp (fade_eq_iff.mp (Prod.mk.inj hpair).1 p a ha)
  · intro hundimmed
    refine ⟨?_, cascadeBlock_joined hne hcuts hshown, cascadeInline_declared hcuts,
      cascadeInline_joined hne hcuts⟩
    rw [hseparate, hlast, fade_eq_iff.mpr fun p a ha =>
      (carried_weight_iff h hne p a).mpr (hundimmed.paint hshown p a ha)]

/-- The last declarations decide, in one rule and in many, just where no cut between two rules
dims what is kept and no display follows a hidden one. -/
theorem cascade_last_iff (h : 0 ≤ inh.opacity) (first : List Char) (rest : List (List Char)) :
    ByLastDeclaration readF32 (first :: rest) style inh ↔
      UndimmedCuts readF32 (first :: rest) style inh := by
  have hne : first :: rest ≠ [] := List.cons_ne_nil first rest
  by_cases hcuts : Stops (first :: rest)
  · refine iff_of_false (fun hlast => ?_) fun hundimmed => hundimmed.uncut hcuts
    have hnone := (@cascadeInline_eq_none readF32 (first :: rest) style inh).mpr hcuts
    rw [hlast.inlineSeparate] at hnone
    cases hnone
  · cases hhidden : (first :: rest).any hides with
    | true => exact byLast_of_hidden hne hcuts hhidden
    | false => exact byLast_of_shown h hne hcuts hhidden

end Cascades

def readHalf (cs : List Char) : Option ℚ := if cs = "0.5".toList then some (1 / 2) else none

theorem cascade_last_half :
    ByLastDeclaration readHalf ["opacity:0.5".toList, "background:#000000".toList] .col .default ↔
      UndimmedCuts readHalf ["opacity:0.5".toList, "background:#000000".toList] .col .default :=
  cascade_last_iff (by decide) _ _

theorem cascade_dims_twice :
    ¬ByLastDeclaration readHalf
      ["opacity:0.5;background:#000000".toList, "color:#ffffff".toList] .col .default ∧
    ¬ByLastDeclaration readHalf ["display:none".toList, "display:block".toList] .col .default := by
  constructor
  · intro h
    exact absurd h.separate (by decide +kernel)
  · intro h
    exact absurd h.separate (by decide +kernel)

end AtomVibe.Html
