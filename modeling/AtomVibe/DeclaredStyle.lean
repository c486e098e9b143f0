import AtomVibe.Foundations.Overwrite
import AtomVibe.ShadowCuts

namespace AtomVibe.Html

open Text Ux Overwrite

abbrev Decl := String × List Char

def declOf (decl : List Char) : Option Decl :=
  (splitDecl decl).2.map fun val => (String.ofList (splitDecl decl).1, val)

def declsOf (css : List Char) : List Decl := (splitOn ';' css).filterMap declOf

def keyed {β : Type} (names : List String) (read : List Char → Option β) (d : Decl) : Option β :=
  if d.1 ∈ names then read d.2 else none

namespace Declared

def display : Decl → Option (List Char) := keyed ["display"] fun v => some (lower v)

def align : Decl → Option Align := keyed ["align-items"] fun v => some (alignOf (lower v))

def justify : Decl → Option Justify := keyed ["justify-content"] fun v => some (justifyOf (lower v))

def textAlign : Decl → Option Align := keyed ["text-align"] fun v => some (textAlignOf (lower v))

def underline : Decl → Option Bool :=
  keyed ["text-decoration", "text-decoration-line"] fun v =>
    some (Text.contains "underline".toList (lower v))

def dir (d : Decl) : Option Dir :=
  (keyed ["display"] (fun v =>
    if lower v = "none".toList then none
    else if lower v = "flex".toList then some .row else some .column) d).or
  (keyed ["flex-direction"] (fun v =>
    some (if (stripStart "row" (lower v)).isSome then .row else .column)) d)

variable (readF32 : List Char → Option ℚ)

def flexDim (v : List Char) : Option Dim :=
  if lower v = "none".toList then some .auto
  else (((splitWhitespace v).head?.bind (parseF32 readF32)).or
    (if lower v = "auto".toList then some 1 else none)).map .flex

def size (name : String) (d : Decl) : Option Dim :=
  (keyed [name] (fun v => some (parseDim readF32 v)) d).or
    (keyed ["flex", "flex-grow"] (flexDim readF32) d)

def edge (all one : String) (side : Edges → ℚ) (d : Decl) : Option ℚ :=
  (keyed [all] (fun v => (parseEdges readF32 v).map side) d).or
    (keyed [one] (parsePx readF32) d)

def length (name : String) : Decl → Option ℚ := keyed [name] (parsePx readF32)

def color (v : List Char) : Option Rgba := (parseColor readF32 v).getD none

def background : Decl → Option Rgba := keyed ["background", "background-color"] (color readF32)

def textColor : Decl → Option Rgba := keyed ["color"] (color readF32)

def line (v : List Char) : Option (Option (ℚ × Rgba)) :=
  if lower v = "none".toList then some none
  else match splitWhitespace v with
    | w :: _ :: c :: more => do
      let w ← parsePx readF32 w
      let c ← color readF32 ([' '].intercalate (c :: more))
      return some (w, c)
    | _ => none

def border : Decl → Option (Option (ℚ × Rgba)) := keyed ["border"] (line readF32)

def drop (v : List Char) : Option (Option Shadow) :=
  if lower v = "none".toList then some none
  else ((parseShadow readF32 v).getD none).map some

def shadow : Decl → Option (Option Shadow) := keyed ["box-shadow"] (drop readF32)

def bold : Decl → Option Bool := keyed ["font-weight"] fun v =>
  some (lower v = "bold".toList || lower v = "bolder".toList || (readF32 (lower v)).any (600 ≤ ·))

def opacity : Decl → Option ℚ :=
  keyed ["opacity"] fun v => (parseF32 readF32 v).map (clamp · 0 1)

end Declared

section Cascades

variable (readF32 : List Char → Option ℚ)

def declaredEdges (name : String) (ds : List Decl) (edges : Edges) : Edges where
  l := (last (Declared.edge readF32 name (name ++ "-left") (·.l)) ds).getD edges.l
  t := (last (Declared.edge readF32 name (name ++ "-top") (·.t)) ds).getD edges.t
  r := (last (Declared.edge readF32 name (name ++ "-right") (·.r)) ds).getD edges.r
  b := (last (Declared.edge readF32 name (name ++ "-bottom") (·.b)) ds).getD edges.b

def declaredStyle (ds : List Decl) (style : Style) : Style :=
  { style with
    dir := (last Declared.dir ds).getD style.dir
    width := (last (Declared.size readF32 "width") ds).getD style.width
    height := (last (Declared.size readF32 "height") ds).getD style.height
    padding := declaredEdges readF32 "padding" ds style.padding
    margin := declaredEdges readF32 "margin" ds style.margin
    gap := (last (Declared.length readF32 "gap") ds).getD style.gap
    align := (last Declared.align ds).getD style.align
    justify := (last Declared.justify ds).getD style.justify
    background := (last (Declared.background readF32) ds).or style.background
    radius := (last (Declared.length readF32 "border-radius") ds).getD style.radius
    border := (last (Declared.border readF32) ds).getD style.border
    shadow := (last (Declared.shadow readF32) ds).getD style.shadow }

def declaredInherited (ds : List Decl) (inh : Inherited) : Inherited where
  color := (last (Declared.textColor readF32) ds).getD inh.color
  fontSize := (last (Declared.length readF32 "font-size") ds).getD inh.fontSize
  bold := (last (Declared.bold readF32) ds).getD inh.bold
  underline := (last Declared.underline ds).getD inh.underline
  textAlign := (last Declared.textAlign ds).getD inh.textAlign
  opacity := (last (Declared.opacity readF32) ds).getD inh.opacity

def shown (ds : List Decl) : Bool := (last Declared.display ds).all (· ≠ "none".toList)

end Cascades

section Step

variable {readF32 : List Char → Option ℚ} {s s' : Cascade} {key val : List Char}

theorem setDisplay_declared (lval : List Char) :
    (setDisplay s lval).style = { s.style with
      dir := (if lval = "none".toList then none
        else if lval = "flex".toList then some .row else some .column).getD s.style.dir } ∧
    (setDisplay s lval).inh = s.inh := by
  rw [setDisplay]
  split
  · rename_i hnone
    rw [if_pos (toList_of_ofList hnone)]
    exact ⟨rfl, rfl⟩
  · rename_i hflex
    obtain rfl := toList_of_ofList hflex
    exact ⟨rfl, rfl⟩
  · rename_i hnone hflex
    rw [if_neg fun h => hnone ((congrArg String.ofList h).trans String.ofList_toList),
      if_neg fun h => hflex ((congrArg String.ofList h).trans String.ofList_toList)]
    exact ⟨rfl, rfl⟩

theorem setFlex_declared :
    (setFlex readF32 s val (lower val)).style = { s.style with
      width := (Declared.flexDim readF32 val).getD s.style.width
      height := (Declared.flexDim readF32 val).getD s.style.height } ∧
    (setFlex readF32 s val (lower val)).inh = s.inh := by
  rw [setFlex, Declared.flexDim]
  split
  · exact ⟨rfl, rfl⟩
  · split
    · rename_i n hn
      rw [hn]
      exact ⟨rfl, rfl⟩
    · rename_i hn
      rw [hn]
      exact ⟨rfl, rfl⟩

theorem setBorder_declared (h : setBorder readF32 s val (lower val) = some s') :
    s'.style = { s.style with
      border := (Declared.line readF32 val).getD s.style.border } ∧ s'.inh = s.inh := by
  rw [setBorder] at h
  by_cases hnone : lower val = "none".toList
  · rw [if_pos hnone] at h
    rw [Declared.line, if_pos hnone]
    cases h
    exact ⟨rfl, rfl⟩
  · rw [if_neg hnone] at h
    split at h
    · rename_i w line c more hparts
      obtain ⟨color, hcolor⟩ := parseColor_returns readF32 ([' '].intercalate (c :: more))
      rw [Declared.line, if_neg hnone, hparts]
      simp only [Declared.color, hcolor, Option.bind_eq_bind, Option.bind_some, Option.getD_some]
        at h ⊢
      cases hwidth : parsePx readF32 w <;> cases color <;> (rw [hwidth] at h; cases h; exact ⟨rfl, rfl⟩)
    · rename_i hparts
      cases h
      rw [Declared.line, if_neg hnone]
      split
      · rename_i w line c more hthree
        exact absurd hthree (hparts w line c more)
      · exact ⟨rfl, rfl⟩

theorem setShadow_declared (h : setShadow readF32 s val (lower val) = some s') :
    s'.style = { s.style with
      shadow := (Declared.drop readF32 val).getD s.style.shadow } ∧ s'.inh = s.inh := by
  rw [Declared.drop]
  rw [setShadow] at h
  by_cases hnone : lower val = "none".toList
  · rw [if_pos hnone] at h ⊢
    cases h
    exact ⟨rfl, rfl⟩
  · rw [if_neg hnone] at h ⊢
    obtain ⟨shadow, hshadow, h⟩ := Option.bind_eq_some_iff.mp h
    rw [hshadow]
    cases shadow <;> (cases h; exact ⟨rfl, rfl⟩)

theorem setEdge_eq (edges : Edges) (side : Edges → ℚ → Edges) :
    setEdge readF32 edges val side = ((parsePx readF32 val).map (side edges)).getD edges := by
  rw [setEdge]
  cases parsePx readF32 val <;> rfl

theorem map_parseColor {f : Option Rgba → Cascade} (h : (parseColor readF32 val).map f = some s') :
    s' = f (Declared.color readF32 val) := by
  obtain ⟨color, hcolor, rfl⟩ := Option.map_eq_some_iff.mp h
  rw [Declared.color, hcolor, Option.getD_some]

theorem applyDecl_declared (h : applyDecl readF32 s key val = some s') :
    s'.style = declaredStyle readF32 [(String.ofList key, val)] s.style ∧
      s'.inh = declaredInherited readF32 [(String.ofList key, val)] s.inh := by
  rw [applyDecl] at h
  split at h
  -- A property without a name reads as none everywhere.
  case h_32 =>
    simp only [imp_false] at *
    simp only [declaredStyle, declaredInherited, declaredEdges, Declared.dir, Declared.size,
      Declared.edge, Declared.length, Declared.align, Declared.justify, Declared.background,
      Declared.border, Declared.shadow, Declared.textColor, Declared.bold, Declared.underline,
      Declared.textAlign, Declared.opacity, keyed, last_singleton, List.mem_cons, List.not_mem_nil,
      or_false, String.reduceAppend, reduceIte, Option.none_or, Option.or_none, Option.getD_none,
      *]
    cases h
    exact ⟨rfl, rfl⟩
  all_goals
    rename_i hname
    simp only [hname, declaredStyle, declaredInherited, declaredEdges, Declared.dir, Declared.size,
      Declared.edge, Declared.length, Declared.align, Declared.justify, Declared.background,
      Declared.border, Declared.shadow, Declared.textColor, Declared.bold, Declared.underline,
      Declared.textAlign, Declared.opacity, keyed, last_singleton, List.mem_cons, List.not_mem_nil, or_false, or_true, String.reduceEq,
      String.reduceAppend, reduceIte, Option.none_or, Option.or_none, Option.getD_none]
  case h_1 =>
    cases h
    exact setDisplay_declared (lower val)
  case h_3 | h_4 =>
    cases h
    exact setFlex_declared
  case h_21 => exact setBorder_declared h
  case h_22 => exact setShadow_declared h
  case h_18 | h_19 | h_23 =>
    rw [map_parseColor h]
    exact ⟨rfl, rfl⟩
  case h_7 | h_12 =>
    cases h
    cases parseEdges readF32 val <;> exact ⟨rfl, rfl⟩
  case h_8 | h_9 | h_10 | h_11 | h_13 | h_14 | h_15 | h_16 =>
    rw [setEdge_eq] at h
    cases h
    cases parsePx readF32 val <;> exact ⟨rfl, rfl⟩
  all_goals
    cases h
    exact ⟨rfl, rfl⟩

end Step

section Run

variable {readF32 : List Char → Option ℚ} {s s' : Cascade} {decls : List (List Char)}

theorem declaredStyle_append (ds more : List Decl) (style : Style) :
    declaredStyle readF32 (ds ++ more) style =
      declaredStyle readF32 more (declaredStyle readF32 ds style) := by
  simp only [declaredStyle, declaredEdges, last_append, Option.getD_or, Option.or_assoc]

theorem declaredInherited_append (ds more : List Decl) (inh : Inherited) :
    declaredInherited readF32 (ds ++ more) inh =
      declaredInherited readF32 more (declaredInherited readF32 ds inh) := by
  simp only [declaredInherited, last_append, Option.getD_or]

theorem applyDecls_declared (h : applyDecls readF32 decls s = some s') :
    s'.style = declaredStyle readF32 (decls.filterMap declOf) s.style ∧
      s'.inh = declaredInherited readF32 (decls.filterMap declOf) s.inh := by
  induction decls generalizing s with
  | nil =>
    cases h
    exact ⟨rfl, rfl⟩
  | cons decl decls ih =>
    rw [applyDecls] at h
    rcases hsplit : splitDecl decl with ⟨key, found⟩
    rw [hsplit] at h
    cases found with
    | none =>
      rw [List.filterMap_cons_none (by rw [declOf, hsplit]; rfl)]
      exact ih h
    | some val =>
      obtain ⟨t, ht, hrest⟩ := Option.bind_eq_some_iff.mp h
      have hdecl : declOf decl = some (String.ofList key, val) := by
        rw [declOf, hsplit]
        rfl
      obtain ⟨hstyle, hinh⟩ := applyDecl_declared ht
      rw [List.filterMap_cons_some hdecl, ← List.singleton_append, declaredStyle_append,
        declaredInherited_append, ← hstyle, ← hinh]
      exact ih hrest

end Run

end AtomVibe.Html
