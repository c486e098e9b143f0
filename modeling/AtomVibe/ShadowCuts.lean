import AtomVibe.CssTotal
import AtomVibe.HtmlTree

namespace AtomVibe.Html

open Text Ux

section Last

variable {p : Char → Bool} {front rest : List Char} {c : Char}

theorem rfindWhere_eq_none (h : ∀ x ∈ rest, p x = false) : rfindWhere p rest = none := by
  induction rest with
  | nil => rfl
  | cons x rest ih =>
    rw [List.forall_mem_cons] at h
    rw [rfindWhere, ih h.2, h.1]
    rfl

theorem rfindWhere_last (hc : p c = true) (h : ∀ x ∈ rest, p x = false) :
    rfindWhere p (front ++ c :: rest) = some (utf8Len front) := by
  induction front with
  | nil =>
    rw [List.nil_append, rfindWhere, rfindWhere_eq_none h, hc]
    rfl
  | cons x front ih =>
    rw [List.cons_append, rfindWhere, ih, utf8Len_cons, Nat.add_comm]

theorem none_or_last (p : Char → Bool) (cs : List Char) : (∀ x ∈ cs, p x = false) ∨
    ∃ front c rest, cs = front ++ c :: rest ∧ p c = true ∧ ∀ x ∈ rest, p x = false := by
  induction cs with
  | nil => exact .inl (by simp)
  | cons x cs ih =>
    rcases ih with hnone | ⟨front, c, rest, rfl, hc, hrest⟩
    · by_cases hx : p x = true
      · exact .inr ⟨[], x, cs, rfl, hx, hnone⟩
      · exact .inl (List.forall_mem_cons.mpr ⟨Bool.eq_false_iff.mpr hx, hnone⟩)
    · exact .inr ⟨x :: front, c, rest, rfl, hc, hrest⟩

end Last

section Shadows

def CutsBlank (s : List Char) : Prop :=
  ∃ a w b inner d, s = a ++ w :: b ++ '(' :: inner ++ ')' :: d ∧ isWhitespace w = true ∧
    w.utf8Size ≠ 1 ∧ (∀ c ∈ b, isWhitespace c = false) ∧ '(' ∉ a ++ w :: b ∧ ')' ∉ d

variable {front inner back : List Char}

def colorStart (front : List Char) : ℕ := ((rfindWhere isWhitespace front).map (· + 1)).getD 0

theorem boundary_of_last {a b : List Char} {w : Char} (hw : isWhitespace w = true)
    (hb : ∀ c ∈ b, isWhitespace c = false) (rest : List Char) :
    isCharBoundary (colorStart (a ++ w :: b)) (a ++ w :: b ++ rest) = decide (w.utf8Size = 1) := by
  have hpos := w.utf8Size_pos
  rw [colorStart, rfindWhere_last hw hb, List.append_assoc]
  simp only [Option.map_some, Option.getD_some]
  rw [isCharBoundary_front, List.cons_append, isCharBoundary]
  by_cases hone : w.utf8Size = 1
  · simp [hone, isCharBoundary_zero]
  · have hlong : ¬w.utf8Size ≤ 1 := by omega
    simp [hone, hlong]

theorem colorStart_inside (front rest : List Char) :
    isCharBoundary (colorStart front) (front ++ rest) = false ↔
      ∃ a w b, front = a ++ w :: b ∧ isWhitespace w = true ∧ w.utf8Size ≠ 1 ∧
        ∀ c ∈ b, isWhitespace c = false := by
  constructor
  · intro h
    rcases none_or_last isWhitespace front with hnone | ⟨a, w, b, rfl, hw, hb⟩
    · rw [colorStart, rfindWhere_eq_none hnone, Option.map_none, Option.getD_none,
        isCharBoundary_zero] at h
      cases h
    · rw [boundary_of_last hw hb, decide_eq_false_iff_not] at h
      exact ⟨a, w, b, rfl, hw, h, hb⟩
  · rintro ⟨a, w, b, rfl, hw, hsize, hb⟩
    rw [boundary_of_last hw hb, decide_eq_false_iff_not]
    exact hsize

theorem colorStart_le (front : List Char) : colorStart front ≤ utf8Len front := by
  rcases none_or_last isWhitespace front with hnone | ⟨a, w, b, rfl, hw, hb⟩
  · rw [colorStart, rfindWhere_eq_none hnone]
    exact Nat.zero_le _
  · have hpos := w.utf8Size_pos
    rw [colorStart, rfindWhere_last hw hb, utf8Len_append, utf8Len_cons]
    simp only [Option.map_some, Option.getD_some]
    omega

theorem pullColor_brackets (hopen : '(' ∉ front) (hclose : ')' ∉ back) :
    pullColor (front ++ '(' :: inner ++ ')' :: back) = none ↔
      isCharBoundary (colorStart front) (front ++ '(' :: (inner ++ ')' :: back)) = false := by
  have hassoc : front ++ '(' :: inner ++ ')' :: back = front ++ '(' :: (inner ++ ')' :: back) := by
    rw [List.append_assoc, List.cons_append]
  rw [← hassoc]
  have hstart : findChar '(' (front ++ '(' :: inner ++ ')' :: back) = some (utf8Len front) := by
    rw [hassoc]
    exact findChar_front hopen _
  have hstop : rfindWhere (· = ')') (front ++ '(' :: inner ++ ')' :: back) =
      some (utf8Len (front ++ '(' :: inner)) := by
    apply rfindWhere_last (by decide)
    intro c hc
    rw [decide_eq_false_iff_not]
    rintro rfl
    exact hclose hc
  have hlt : utf8Len front < utf8Len (front ++ '(' :: inner) := by
    have hpos := Char.utf8Size_pos '('
    rw [utf8Len_append, utf8Len_cons]
    omega
  have hfront : checkedSlice (front ++ '(' :: inner ++ ')' :: back) 0 (utf8Len front) =
      some front := by
    have hmiddle := checkedSlice_middle [] front ('(' :: (inner ++ ')' :: back))
    rw [List.nil_append, ← hassoc] at hmiddle
    exact hmiddle
  have hbehind : isCharBoundary (utf8Len (front ++ '(' :: inner) + 1)
      (front ++ '(' :: inner ++ ')' :: back) = true := by
    have hone : Char.utf8Size ')' = 1 := by decide
    rw [isCharBoundary_front, isCharBoundary, hone, Nat.sub_self, isCharBoundary_zero]
    rfl
  have hle : colorStart front ≤ utf8Len (front ++ '(' :: inner) + 1 :=
    (colorStart_le front).trans (by omega)
  generalize front ++ '(' :: inner ++ ')' :: back = s at *
  generalize utf8Len (front ++ '(' :: inner) = close at *
  rw [pullColor, hstart, hstop]
  dsimp only
  rw [if_pos hlt, hfront]
  simp only [Option.bind_eq_bind, Option.bind_some]
  rw [← colorStart]
  cases hcut : isCharBoundary (colorStart front) s with
  | false =>
    rw [checkedSlice, if_neg (by simp [hcut])]
    simp
  | true =>
    rw [checkedSlice, if_pos ⟨hle, hcut, hbehind⟩, replaceRange, if_pos ⟨hle, hcut, hbehind⟩]
    simp

theorem brackets_or_whole (s : List Char) : (∃ front inner back,
    s = front ++ '(' :: inner ++ ')' :: back ∧ '(' ∉ front ∧ ')' ∉ back) ∨
      pullColor s = some (s, []) := by
  rw [pullColor]
  cases hopen : findChar '(' s with
  | none => exact .inr rfl
  | some start =>
    rcases none_or_last (· = ')') s with hnone | ⟨before, c, back, hs, hc, hback⟩
    · rw [rfindWhere_eq_none hnone]
      exact .inr rfl
    · obtain rfl : c = ')' := by simpa using hc
      rw [hs, rfindWhere_last hc hback, ← hs]
      dsimp only
      split
      · rename_i hlt
        obtain ⟨front, d, tail, hsplit, hfront, hd, rfl⟩ := findWhere_spec hopen
        obtain rfl : d = '(' := by simpa using hd
        refine .inl ?_
        rw [hsplit] at hs
        obtain ⟨more, rfl, htail⟩ | ⟨more, rfl, -⟩ := List.append_eq_append_iff.mp hs
        · cases more with
          | nil => cases htail
          | cons e inner =>
            rw [List.cons_append, List.cons.injEq] at htail
            obtain ⟨rfl, rfl⟩ := htail
            refine ⟨front, inner, back, by rw [hsplit, List.append_assoc, List.cons_append],
              fun hmem => ?_, fun hmem => ?_⟩
            · simpa using hfront _ hmem
            · simpa using hback _ hmem
        · rw [utf8Len_append] at hlt
          omega
      · exact .inr rfl

theorem pullColor_eq_none {s : List Char} : pullColor s = none ↔ CutsBlank s := by
  constructor
  · intro h
    rcases brackets_or_whole s with ⟨front, inner, back, rfl, hopen, hclose⟩ | hwhole
    · obtain ⟨a, w, b, rfl, hw, hsize, hb⟩ :=
        (colorStart_inside _ _).mp ((pullColor_brackets hopen hclose).mp h)
      exact ⟨a, w, b, inner, back, rfl, hw, hsize, hb, hopen, hclose⟩
    · rw [hwhole] at h
      cases h
  · rintro ⟨a, w, b, inner, d, rfl, hw, hsize, hb, hopen, hclose⟩
    exact (pullColor_brackets hopen hclose).mpr
      ((colorStart_inside _ _).mpr ⟨a, w, b, rfl, hw, hsize, hb⟩)

end Shadows

def Cuts (decl : List Char) : Prop :=
  ∃ val, splitDecl decl = ("box-shadow".toList, some val) ∧ CutsBlank (trimChars val)

def CutsShadow (css : List Char) : Prop := ∃ decl ∈ splitOn ';' css, Cuts decl

def hidesDecl (decl : List Char) : Bool :=
  (splitDecl decl).1 = "display".toList && (splitDecl decl).2.any (lower · = "none".toList)

def hides (css : List Char) : Bool := (splitOn ';' css).any hidesDecl

section Declarations

variable {readF32 : List Char → Option ℚ} {s s' : Cascade} {key val : List Char}

theorem parseShadow_eq_none : parseShadow readF32 val = none ↔ CutsBlank (trimChars val) := by
  rw [← pullColor_eq_none, parseShadow]
  cases hpull : pullColor (trimChars val) with
  | none => simp
  | some pulled =>
    simp only [Option.bind_eq_bind, Option.bind_some, reduceCtorEq, iff_false]
    split
    · obtain ⟨color, hcolor⟩ := parseColor_returns readF32
        (trimChars (List.foldl (shadowPart readF32) ([], pulled.2) (splitWhitespace pulled.1)).2)
      rw [hcolor]
      simp
    · simp

theorem mem_of_mem_trimChars {c : Char} (h : c ∈ trimChars val) : c ∈ val := by
  rw [trimChars, List.mem_reverse] at h
  have hdropped := (List.dropWhile_sublist _).subset h
  rw [List.mem_reverse] at hdropped
  exact (List.dropWhile_sublist _).subset hdropped

theorem not_cuts_none (h : lower val = "none".toList) : ¬CutsBlank (trimChars val) := by
  rintro ⟨a, w, b, inner, d, hsplit, -⟩
  have hmem : '(' ∈ val := by
    apply mem_of_mem_trimChars
    rw [hsplit]
    simp
  have hlower : '(' ∈ lower val := List.mem_map.mpr ⟨'(', hmem, by decide⟩
  rw [h] at hlower
  exact absurd hlower (by decide)

theorem setShadow_eq_none :
    setShadow readF32 s val (lower val) = none ↔ CutsBlank (trimChars val) := by
  rw [setShadow]
  split
  · rename_i hnone
    simp [not_cuts_none hnone]
  · rw [← @parseShadow_eq_none readF32 val]
    cases hshadow : parseShadow readF32 val with
    | none => simp
    | some shadow => cases shadow <;> simp

theorem visible_setShadow (h : setShadow readF32 s val (lower val) = some s') :
    s'.visible = s.visible := by
  rw [setShadow] at h
  split at h
  · rw [← Option.some.inj h]
  · cases hshadow : parseShadow readF32 val with
    | none => simp [hshadow] at h
    | some shadow => cases shadow <;> (simp [hshadow] at h; rw [← h])

theorem setBorder_keeps (lval : List Char) :
    ∃ s', setBorder readF32 s val lval = some s' ∧ s'.visible = s.visible := by
  rw [setBorder]
  split
  · exact ⟨_, rfl, rfl⟩
  · split
    · rename_i w style c more hparts
      obtain ⟨color, hcolor⟩ := parseColor_returns readF32 ([' '].intercalate (c :: more))
      rw [hcolor]
      simp only [Option.bind_eq_bind, Option.bind_some]
      split <;> exact ⟨_, rfl, rfl⟩
    · exact ⟨_, rfl, rfl⟩

theorem visible_setFlex (lval : List Char) : (setFlex readF32 s val lval).visible = s.visible := by
  rw [setFlex]
  split
  · rfl
  · split <;> rfl

theorem visible_setDisplay (lval : List Char) :
    (setDisplay s lval).visible = (s.visible && !decide (lval = "none".toList)) := by
  rw [setDisplay]
  split
  · rename_i hnone
    have hlval : lval = "none".toList := by rw [← hnone, String.toList_ofList]
    simp [hlval]
  · rename_i hflex
    have hlval : lval = "flex".toList := by rw [← hflex, String.toList_ofList]
    simp [hlval]
  · rename_i hnone hflex
    have hlval : lval ≠ "none".toList := by
      rintro rfl
      exact hnone String.ofList_toList
    rw [decide_eq_false hlval, Bool.not_false, Bool.and_true]

theorem toList_of_ofList {name : String} (h : String.ofList key = name) : key = name.toList := by
  rw [← h, String.toList_ofList]

theorem applyDecl_other (hshadow : key ≠ "box-shadow".toList) (hdisplay : key ≠ "display".toList) :
    ∃ s', applyDecl readF32 s key val = some s' ∧ s'.visible = s.visible := by
  obtain ⟨color, hcolor⟩ := parseColor_returns readF32 val
  rw [applyDecl]
  -- By the names of the properties: most only set a field, colours are read first.
  split
  all_goals first
    | exact ⟨_, rfl, rfl⟩
    | exact ⟨_, rfl, visible_setFlex _⟩
    | exact setBorder_keeps _
    | exact ⟨_, congrArg (Option.map _) hcolor, rfl⟩
    | (rename_i hname; exact absurd (toList_of_ofList hname) hshadow)
    | (rename_i hname; exact absurd (toList_of_ofList hname) hdisplay)

theorem applyDecl_shadow : applyDecl readF32 s "box-shadow".toList val =
    setShadow readF32 s val (lower val) := by
  rw [applyDecl, String.ofList_toList]
  rfl

theorem applyDecl_display : applyDecl readF32 s "display".toList val =
    some (setDisplay s (lower val)) := by
  rw [applyDecl, String.ofList_toList]
  rfl

theorem applyDecl_eq_none : applyDecl readF32 s key val = none ↔
    key = "box-shadow".toList ∧ CutsBlank (trimChars val) := by
  by_cases hshadow : key = "box-shadow".toList
  · subst hshadow
    rw [applyDecl_shadow, setShadow_eq_none]
    simp
  by_cases hdisplay : key = "display".toList
  · subst hdisplay
    rw [applyDecl_display]
    simp
  · obtain ⟨s', hs', -⟩ := @applyDecl_other readF32 s key val hshadow hdisplay
    simp only [hs', hshadow, reduceCtorEq, false_and]

theorem visible_applyDecl (h : applyDecl readF32 s key val = some s') : s'.visible =
    (s.visible && !(decide (key = "display".toList) && decide (lower val = "none".toList))) := by
  by_cases hdisplay : key = "display".toList
  · subst hdisplay
    rw [applyDecl_display] at h
    rw [← Option.some.inj h, visible_setDisplay, decide_eq_true rfl, Bool.true_and]
  rw [decide_eq_false hdisplay, Bool.false_and, Bool.not_false, Bool.and_true]
  by_cases hshadow : key = "box-shadow".toList
  · subst hshadow
    rw [applyDecl_shadow] at h
    exact visible_setShadow h
  · obtain ⟨t, ht, hvisible⟩ := @applyDecl_other readF32 s key val hshadow hdisplay
    rw [ht] at h
    rw [← Option.some.inj h, hvisible]

theorem cuts_iff {decl : List Char} (h : splitDecl decl = (key, some val)) :
    Cuts decl ↔ key = "box-shadow".toList ∧ CutsBlank (trimChars val) := by
  rw [Cuts, h]
  constructor
  · rintro ⟨other, heq, hcuts⟩
    obtain ⟨rfl, hval⟩ := Prod.mk.inj heq
    obtain rfl := Option.some.inj hval
    exact ⟨rfl, hcuts⟩
  · rintro ⟨rfl, hcuts⟩
    exact ⟨val, rfl, hcuts⟩

theorem not_cuts_of_none {decl : List Char} (h : splitDecl decl = (key, none)) : ¬Cuts decl := by
  rintro ⟨val, heq, -⟩
  rw [h] at heq
  cases heq

variable {decls : List (List Char)}

theorem applyDecls_eq_none : applyDecls readF32 decls s = none ↔ ∃ decl ∈ decls, Cuts decl := by
  induction decls generalizing s with
  | nil => simp [applyDecls]
  | cons decl decls ih =>
    rw [applyDecls, List.exists_mem_cons_iff]
    rcases hsplit : splitDecl decl with ⟨key, found⟩
    cases found with
    | none =>
      rw [or_iff_right (not_cuts_of_none hsplit)]
      exact ih
    | some val =>
      rw [cuts_iff hsplit, ← @applyDecl_eq_none readF32 s key val]
      cases happlied : applyDecl readF32 s key val with
      | none => simp [happlied]
      | some t => simp [happlied, ih]

theorem visible_applyDecls (h : applyDecls readF32 decls s = some s') :
    s'.visible = (s.visible && !decls.any hidesDecl) := by
  induction decls generalizing s with
  | nil =>
    rw [applyDecls] at h
    rw [← Option.some.inj h, List.any_nil, Bool.not_false, Bool.and_true]
  | cons decl decls ih =>
    rw [applyDecls] at h
    rw [List.any_cons, hidesDecl]
    rcases hsplit : splitDecl decl with ⟨key, found⟩
    rw [hsplit] at h
    cases found with
    | none => simpa using ih h
    | some val =>
      obtain ⟨t, ht, hrest⟩ := Option.bind_eq_some_iff.mp h
      rw [ih hrest, visible_applyDecl ht, Option.any_some, Bool.not_or, Bool.and_assoc]

theorem visible_dim (s : Cascade) : (dim s).visible = s.visible := by
  rw [dim]
  split <;> rfl

variable {style : Style} {inh : Inherited} {css : List Char}

theorem applyCss_eq_none : applyCss readF32 style inh css = none ↔ CutsShadow css := by
  rw [applyCss, Option.map_eq_none_iff, applyDecls_eq_none, CutsShadow]

theorem visible_applyCss (h : applyCss readF32 style inh css = some s) : s.visible = !hides css := by
  obtain ⟨t, ht, rfl⟩ := Option.map_eq_some_iff.mp h
  rw [visible_dim, visible_applyDecls ht, Bool.true_and, hides]

end Declarations

end AtomVibe.Html
