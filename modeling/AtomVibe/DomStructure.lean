import AtomVibe.ShadowCuts

namespace AtomVibe.Html

open Text Ux

def untilHidden : List (List Char) → List (List Char)
  | [] => []
  | css :: sheets => if hides css then [css] else css :: untilHidden sheets

section Applied

variable (rules : List CssRule)

mutual

def inlineSheets : Dom → List (List Char)
  | .text _ => []
  | .elem tag attrs kids =>
    if isInline tag && tag ≠ "br".toList then sheetsOf rules tag attrs ++ inlineSheetsIn kids else []

def inlineSheetsIn : List Dom → List (List Char)
  | [] => []
  | kid :: kids => inlineSheets kid ++ inlineSheetsIn kids

end

def elemSheets (tag : List Char) (attrs : Attrs) (inner : List (List Char)) : List (List Char) :=
  if isDropped tag then []
  else if tag = "hr".toList then []
  else untilHidden (sheetsOf rules tag attrs) ++
    if (sheetsOf rules tag attrs).any hides then [] else inner

mutual

def nodeSheets : Dom → List (List Char)
  | .text _ => []
  | .elem tag attrs kids =>
    if tag = "br".toList then []
    else if isInline tag then sheetsOf rules tag attrs ++ inlineSheetsIn rules kids
    else elemSheets rules tag attrs (nodeSheetsIn kids)

def nodeSheetsIn : List Dom → List (List Char)
  | [] => []
  | kid :: kids => nodeSheets kid ++ nodeSheetsIn kids

end

end Applied

def appliedSheets (src : List Char) : Option (List (List Char)) := do
  let rules ← parseCssRules src
  let toks ← tokenize src
  let (roots, _) ← parseNodes (toks.length + 1) toks none 0
  return nodeSheetsIn rules roots

section Stops

variable {readF32 : List Char → Option ℚ} {rules : List CssRule} {sheets more : List (List Char)}
  {tag : List Char} {attrs : Attrs} {style : Style} {inh : Inherited}

def Stops (sheets : List (List Char)) : Prop := ∃ css ∈ sheets, CutsShadow css

theorem not_stops_nil : ¬Stops [] := by
  rintro ⟨css, hcss, -⟩
  cases hcss

theorem stops_cons {css : List Char} : Stops (css :: sheets) ↔ CutsShadow css ∨ Stops sheets := by
  simp [Stops]

theorem stops_append : Stops (sheets ++ more) ↔ Stops sheets ∨ Stops more := by
  simp [Stops, or_and_right, exists_or]

theorem cascadeInline_eq_none :
    cascadeInline readF32 sheets style inh = none ↔ Stops sheets := by
  induction sheets generalizing style inh with
  | nil => simp [cascadeInline, not_stops_nil]
  | cons css sheets ih =>
    rw [cascadeInline, stops_cons, 
      ← @applyCss_eq_none readF32 style inh css]
    cases applyCss readF32 style inh css with
    | none => simp
    | some s => simp [ih]

theorem cascadeBlock_cases (sheets : List (List Char)) (style : Style) (inh : Inherited) :
    (cascadeBlock readF32 sheets style inh = none ∧ Stops (untilHidden sheets)) ∨
    (cascadeBlock readF32 sheets style inh = some none ∧ ¬Stops (untilHidden sheets) ∧
      sheets.any hides = true) ∨
    ∃ styled, cascadeBlock readF32 sheets style inh = some (some styled) ∧
      ¬Stops (untilHidden sheets) ∧ sheets.any hides = false := by
  induction sheets generalizing style inh with
  | nil => exact .inr (.inr ⟨_, rfl, not_stops_nil, rfl⟩)
  | cons css sheets ih =>
    rw [cascadeBlock, untilHidden]
    cases happly : applyCss readF32 style inh css with
    | none =>
      have hcuts := applyCss_eq_none.mp happly
      refine .inl ⟨rfl, ?_⟩
      split
      · exact stops_cons.mpr (.inl hcuts)
      · exact stops_cons.mpr (.inl hcuts)
    | some s =>
      have hclean : ¬CutsShadow css := fun hcuts => by
        rw [applyCss_eq_none.mpr hcuts] at happly
        cases happly
      have hvisible := visible_applyCss happly
      simp only [Option.bind_eq_bind, Option.bind_some, hvisible, List.any_cons]
      cases hhides : hides css with
      | true =>
        exact .inr (.inl ⟨rfl, by simp [stops_cons, hclean, not_stops_nil], rfl⟩)
      | false =>
        simp only [Bool.not_false, if_true, Bool.false_or, Bool.false_eq_true, if_false]
        rw [stops_cons, or_iff_right hclean]
        exact ih s.style s.inh

theorem inlineSpans_eq_none {inner : Inherited → Option (List Span)}
    (h : ∀ inh, inner inh = none ↔ Stops more) :
    inlineSpans readF32 rules tag attrs inh inner = none ↔
      Stops (sheetsOf rules tag attrs ++ more) := by
  rw [inlineSpans, stops_append, 
    ← @cascadeInline_eq_none readF32 (sheetsOf rules tag attrs) .col (inlineInherited tag inh)]
  cases cascadeInline readF32 (sheetsOf rules tag attrs) .col (inlineInherited tag inh) with
  | none => simp
  | some inh => simp [h]

mutual

theorem inlineNode_eq_none (inh : Inherited) : ∀ node : Dom,
    inlineNode readF32 rules inh node = none ↔ Stops (inlineSheets rules node)
  | .text t => by simp [inlineNode, inlineSheets, not_stops_nil]
  | .elem tag attrs kids => by
    rw [inlineNode, inlineSheets]
    split
    · exact inlineSpans_eq_none fun inh => inlineNodes_eq_none inh kids
    · simp [not_stops_nil]

theorem inlineNodes_eq_none (inh : Inherited) : ∀ kids : List Dom,
    inlineNodes readF32 rules inh kids = none ↔ Stops (inlineSheetsIn rules kids)
  | [] => by simp [inlineNodes, inlineSheetsIn, not_stops_nil]
  | kid :: kids => by
    rw [inlineNodes, inlineSheetsIn, stops_append, ← inlineNode_eq_none inh kid,
      ← inlineNodes_eq_none inh kids]
    cases inlineNode readF32 rules inh kid with
    | none => simp
    | some spans => cases inlineNodes readF32 rules inh kids <;> simp

end

theorem elemToUx_eq_none {inner : FlowContext → Option Flow} {mark : Option (List Char)}
    (h : ∀ ctx, inner ctx = none ↔ Stops more) :
    elemToUx readF32 rules tag attrs inh mark inner = none ↔
      Stops (elemSheets rules tag attrs more) := by
  rw [elemToUx, elemSheets]
  split
  · simp [not_stops_nil]
  split
  · simp [not_stops_nil]
  rw [stops_append]
  dsimp only
  obtain ⟨hcascade, hstops⟩ | ⟨hcascade, hstops, hhides⟩ | ⟨styled, hcascade, hstops, hhides⟩ :=
    @cascadeBlock_cases readF32 (sheetsOf rules tag attrs) (tagDefaultStyle tag)
      { inh with fontSize := tagFont tag inh.fontSize, bold := isHeading tag || inh.bold }
  · simp [hcascade, hstops]
  · simp [hcascade, hstops, hhides, not_stops_nil]
  · have hinner := h ⟨styled.2, mark, styled.1.dir = .row⟩
    rw [hcascade, hhides, if_neg Bool.false_ne_true, or_iff_right hstops, ← hinner]
    simp only [Option.bind_eq_bind, Option.bind_some]
    cases inner ⟨styled.2, mark, styled.1.dir = .row⟩ <;> simp

mutual

theorem nodeToUx_eq_none (ctx : FlowContext) (s : Flow) : ∀ node : Dom,
    nodeToUx readF32 rules ctx s node = none ↔ Stops (nodeSheets rules node)
  | .text t => by simp [nodeToUx, nodeSheets, not_stops_nil]
  | .elem tag attrs kids => by
    rw [nodeToUx, nodeSheets]
    split
    · simp [not_stops_nil]
    split
    · have hspans := @inlineSpans_eq_none readF32 rules (inlineSheetsIn rules kids) tag attrs ctx.inh
        (fun inh => inlineNodes readF32 rules inh kids) fun inh => inlineNodes_eq_none inh kids
      rw [← hspans]
      cases inlineSpans readF32 rules tag attrs ctx.inh fun inh =>
        inlineNodes readF32 rules inh kids <;> simp
    · rw [← elemToUx_eq_none fun ctx => nodesToUx_eq_none ctx {} kids]
      dsimp only
      generalize elemToUx readF32 rules tag attrs ctx.inh _ _ = node
      cases node <;> simp

theorem nodesToUx_eq_none (ctx : FlowContext) (s : Flow) : ∀ kids : List Dom,
    nodesToUx readF32 rules ctx s kids = none ↔ Stops (nodeSheetsIn rules kids)
  | [] => by simp [nodesToUx, nodeSheetsIn, not_stops_nil]
  | kid :: kids => by
    rw [nodesToUx, nodeSheetsIn, stops_append, ← nodeToUx_eq_none ctx s kid]
    cases nodeToUx readF32 rules ctx s kid with
    | none => simp
    | some s => simp [nodesToUx_eq_none ctx s kids]

end

end Stops

theorem parseNodes_returns {fuel : ℕ} {toks : List Tok} (h : toks.length < fuel)
    (stop : Option (List Char)) (depth : ℕ) : ∃ nodes rest,
    parseNodes fuel toks stop depth = some (nodes, rest) ∧ rest.length ≤ toks.length := by
  induction fuel generalizing toks stop depth with
  | zero => omega
  | succ fuel ih =>
    cases toks with
    | nil => exact ⟨[], [], rfl, le_rfl⟩
    | cons tok toks =>
      rw [List.length_cons] at h
      cases tok with
      | close name =>
        rw [parseNodes]
        split
        · exact ⟨[], toks, rfl, by simp⟩
        · obtain ⟨nodes, rest, hnodes, hle⟩ := @ih toks (by omega) stop depth
          exact ⟨nodes, rest, hnodes, by rw [List.length_cons]; omega⟩
      | text t =>
        obtain ⟨nodes, rest, hnodes, hle⟩ := @ih toks (by omega) stop depth
        rw [parseNodes, hnodes]
        exact ⟨_, rest, rfl, by rw [List.length_cons]; omega⟩
      | openTag tag attrs selfClose =>
        rw [parseNodes]
        split
        · obtain ⟨nodes, rest, hnodes, hle⟩ := @ih toks (by omega) stop depth
          simp only [Option.bind_eq_bind, Option.bind_some, hnodes]
          exact ⟨_, rest, rfl, by rw [List.length_cons]; omega⟩
        · obtain ⟨kids, behind, hkids, hbehind⟩ := @ih toks (by omega) (some tag) (depth + 1)
          obtain ⟨nodes, rest, hnodes, hle⟩ := @ih behind (by omega) stop depth
          simp only [Option.bind_eq_bind, hkids, Option.bind_some, hnodes]
          exact ⟨_, rest, rfl, by rw [List.length_cons]; omega⟩

/-- A document is read to its end exactly if none of the shadows that are applied in it is cut. -/
theorem parse_returns_iff (readF32 : List Char → Option ℚ) (src : List Char) :
    (∃ root, parse readF32 src = some root) ↔
      ∃ sheets, appliedSheets src = some sheets ∧ ∀ css ∈ sheets, ¬CutsShadow css := by
  obtain ⟨rules, hrules⟩ := parseCssRules_returns src
  obtain ⟨toks, htoks⟩ := tokenize_returns src
  obtain ⟨roots, rest, hroots, -⟩ := @parseNodes_returns (toks.length + 1) toks (by omega) none 0
  have hstops := @nodesToUx_eq_none readF32 rules ⟨.default, none, false⟩ {} roots
  have hsheets : appliedSheets src = some (nodeSheetsIn rules roots) := by
    rw [appliedSheets, hrules, Option.bind_eq_bind, Option.bind_some, htoks]
    simp only [Option.bind_eq_bind, Option.bind_some, hroots]
    rfl
  have hclean : (∀ css ∈ nodeSheetsIn rules roots, ¬CutsShadow css) ↔
      ¬Stops (nodeSheetsIn rules roots) := by
    simp [Stops]
  rw [hsheets, parse, hrules, Option.bind_eq_bind, Option.bind_some, htoks]
  simp only [Option.bind_eq_bind, Option.bind_some, hroots, Option.some.injEq, exists_eq_left',
    hclean, ← hstops, childrenToUx]
  cases nodesToUx readF32 rules ⟨.default, none, false⟩ {} roots with
  | none => simp
  | some s =>
    simp only [Option.map_some, Option.bind_some, reduceCtorEq, not_false_eq_true, iff_true]
    split <;> exact ⟨_, rfl⟩

def cutDocument : List Char :=
  "<p style=\"box-shadow:1px 1px\u3000rgba(0,0,0,1)\">x</p>".toList

theorem cut_document_stops :
    parse (fun s => (fromStrRadix 10 u32Size s).map fun n => (n : ℚ)) cutDocument = none := by
  decide +kernel

end AtomVibe.Html

namespace AtomVibe.Html

open Text

/-- An element without its children, or a text. -/
inductive Item
  | elem (tag : List Char) (attrs : Attrs)
  | text (text : List Char)
  deriving DecidableEq

def Tok.item? : Tok → Option Item
  | openTag tag attrs _ => some (.elem tag attrs)
  | text t => some (.text t)
  | close _ => none

mutual

def items : Dom → List Item
  | .text t => [.text t]
  | .elem tag attrs kids => .elem tag attrs :: itemsIn kids

def itemsIn : List Dom → List Item
  | [] => []
  | kid :: kids => items kid ++ itemsIn kids

end

mutual

def height (leaf : ℕ) : Dom → ℕ
  | .text _ => leaf
  | .elem _ _ kids => heightIn leaf kids + 1

def heightIn (leaf : ℕ) : List Dom → ℕ
  | [] => 0
  | kid :: kids => max (height leaf kid) (heightIn leaf kids)

end

section Structure

variable {fuel depth : ℕ} {toks rest : List Tok} {stop : Option (List Char)} {nodes : List Dom}

theorem parseNodes_open {tag : List Char} {attrs : Attrs} {selfClose : Bool} :
    parseNodes (fuel + 1) (.openTag tag attrs selfClose :: toks) stop depth =
      (if selfClose || decide (maxDomDepth ≤ depth) then some ([], toks)
        else parseNodes fuel toks (some tag) (depth + 1)).bind fun inner =>
          (parseNodes fuel inner.2 stop depth).map fun more =>
            (.elem tag attrs inner.1 :: more.1, more.2) := by
  rw [parseNodes]
  split
  · cases hmore : parseNodes fuel toks stop depth <;> simp [hmore]
  · cases parseNodes fuel toks (some tag) (depth + 1) with
    | none => rfl
    | some inner => cases hmore : parseNodes fuel inner.2 stop depth <;> simp [hmore]

theorem parseNodes_structure (hdepth : depth ≤ maxDomDepth)
    (h : parseNodes fuel toks stop depth = some (nodes, rest)) :
    heightIn 1 nodes + depth ≤ maxDomDepth + 1 ∧
      (∃ read, toks = read ++ rest ∧ itemsIn nodes = read.filterMap Tok.item?) ∧
      (stop = none → rest = []) := by
  induction fuel generalizing toks rest stop depth nodes with
  | zero => cases h
  | succ fuel ih =>
    cases toks with
    | nil =>
      cases h
      exact ⟨by rw [heightIn]; omega, ⟨[], rfl, rfl⟩, fun _ => rfl⟩
    | cons tok toks =>
      cases tok with
      | close name =>
        rw [parseNodes] at h
        split at h
        · rename_i hstop
          cases h
          refine ⟨by rw [heightIn]; omega, ⟨[.close name], rfl, rfl⟩, fun hnone => ?_⟩
          rw [hnone] at hstop
          cases hstop
        · obtain ⟨hheight, ⟨read, rfl, hitems⟩, hrest⟩ := ih hdepth h
          exact ⟨hheight, ⟨.close name :: read, rfl, hitems⟩, hrest⟩
      | text t =>
        rw [parseNodes] at h
        obtain ⟨⟨more, left⟩, hmore, h⟩ := Option.bind_eq_some_iff.mp h
        cases h
        obtain ⟨hheight, ⟨read, rfl, hitems⟩, hrest⟩ := ih hdepth hmore
        refine ⟨?_, ⟨.text t :: read, rfl, ?_⟩, hrest⟩
        · rw [heightIn, height]
          omega
        · rw [itemsIn, items, hitems]
          rfl
      | openTag tag attrs selfClose =>
        rw [parseNodes_open] at h
        obtain ⟨⟨kids, behind⟩, hkids, h⟩ := Option.bind_eq_some_iff.mp h
        obtain ⟨⟨more, left⟩, hmore, h⟩ := Option.map_eq_some_iff.mp h
        cases h
        dsimp only at hmore ⊢
        obtain ⟨hheight, ⟨read, hread, hitems⟩, hrest⟩ := ih hdepth hmore
        have hinside : heightIn 1 kids + depth ≤ maxDomDepth ∧
            ∃ read, toks = read ++ behind ∧ itemsIn kids = read.filterMap Tok.item? := by
          split at hkids
          · cases hkids
            exact ⟨by rw [heightIn]; omega, [], rfl, rfl⟩
          · rename_i hopen
            rw [Bool.or_eq_true, not_or, decide_eq_true_eq] at hopen
            obtain ⟨hheight, hitems, -⟩ := ih (by omega) hkids
            exact ⟨by omega, hitems⟩
        obtain ⟨hkidsHeight, inside, hinsideRead, hinsideItems⟩ := hinside
        refine ⟨?_, ⟨.openTag tag attrs selfClose :: (inside ++ read), ?_, ?_⟩, hrest⟩
        · rw [heightIn, height]
          omega
        · rw [hinsideRead, hread, List.cons_append, List.append_assoc]
        · rw [itemsIn, items, hinsideItems, hitems, List.cons_append, ← List.filterMap_append]
          rfl

mutual

def nodeToks : Dom → List Tok
  | .text t => [.text t]
  | .elem tag attrs kids => .openTag tag attrs false :: (nodesToks kids ++ [.close tag])

def nodesToks : List Dom → List Tok
  | [] => []
  | kid :: kids => nodeToks kid ++ nodesToks kids

end

theorem parseNodes_more (h : parseNodes fuel toks stop depth = some (nodes, rest)) (more : ℕ) :
    parseNodes (fuel + more) toks stop depth = some (nodes, rest) := by
  induction fuel generalizing toks rest stop depth nodes with
  | zero => cases h
  | succ fuel ih =>
    rw [Nat.add_right_comm]
    cases toks with
    | nil =>
      cases h
      rfl
    | cons tok toks =>
      cases tok with
      | close name =>
        rw [parseNodes] at h ⊢
        split at h
        · rename_i hstop
          rw [if_pos hstop]
          exact h
        · rename_i hstop
          rw [if_neg hstop]
          exact ih h
      | text t =>
        rw [parseNodes] at h ⊢
        obtain ⟨⟨found, left⟩, hfound, h⟩ := Option.bind_eq_some_iff.mp h
        rw [ih hfound]
        exact h
      | openTag tag attrs selfClose =>
        rw [parseNodes_open] at h ⊢
        obtain ⟨⟨kids, behind⟩, hkids, h⟩ := Option.bind_eq_some_iff.mp h
        obtain ⟨⟨found, left⟩, hfound, h⟩ := Option.map_eq_some_iff.mp h
        split at hkids
        · rename_i hclosed
          cases hkids
          rw [if_pos hclosed, Option.bind_some, ih hfound, ← h]
          rfl
        · rename_i hopen
          rw [if_neg hopen, ih hkids, Option.bind_some, ih hfound, ← h]
          rfl

theorem parseNodes_unique {fuel' : ℕ} {nodes' : List Dom} {rest' : List Tok}
    (h : parseNodes fuel toks stop depth = some (nodes, rest))
    (h' : parseNodes fuel' toks stop depth = some (nodes', rest')) :
    nodes = nodes' ∧ rest = rest' := by
  have hmore := parseNodes_more h fuel'
  rw [Nat.add_comm, parseNodes_more h' fuel, Option.some.injEq, Prod.mk.injEq] at hmore
  exact ⟨hmore.1.symm, hmore.2.symm⟩

mutual

theorem parseNodes_nodeToks : ∀ (node : Dom) {fuel depth : ℕ} {toks rest : List Tok}
    {stop : Option (List Char)} {nodes : List Dom}, height 0 node + depth ≤ maxDomDepth →
    parseNodes fuel toks stop depth = some (nodes, rest) →
    ∃ fuel', parseNodes fuel' (nodeToks node ++ toks) stop depth = some (node :: nodes, rest)
  | .text t, fuel, depth, toks, rest, stop, nodes, _, h => by
    refine ⟨fuel + 1, ?_⟩
    rw [nodeToks, List.singleton_append, parseNodes, h]
    rfl
  | .elem tag attrs kids, fuel, depth, toks, rest, stop, nodes, hheight, h => by
    rw [height] at hheight
    have hclose : parseNodes 1 (.close tag :: toks) (some tag) (depth + 1) = some ([], toks) := by
      rw [parseNodes, if_pos rfl]
    obtain ⟨inside, hinside⟩ := parseNodes_nodesToks kids (by omega) hclose
    have hopen : ¬(false || decide (maxDomDepth ≤ depth)) = true := by
      rw [Bool.false_or, decide_eq_true_eq]
      omega
    refine ⟨inside + fuel + 1, ?_⟩
    rw [nodeToks, List.cons_append, List.append_assoc, List.singleton_append, parseNodes_open,
      if_neg hopen, parseNodes_more hinside fuel, List.append_nil, Option.bind_some,
      Nat.add_comm inside, parseNodes_more h inside]
    rfl

theorem parseNodes_nodesToks : ∀ (kids : List Dom) {fuel depth : ℕ} {toks rest : List Tok}
    {stop : Option (List Char)} {nodes : List Dom}, heightIn 0 kids + depth ≤ maxDomDepth →
    parseNodes fuel toks stop depth = some (nodes, rest) →
    ∃ fuel', parseNodes fuel' (nodesToks kids ++ toks) stop depth = some (kids ++ nodes, rest)
  | [], fuel, _, _, _, _, _, _, h => ⟨fuel, h⟩
  | kid :: kids, fuel, depth, toks, rest, stop, nodes, hheight, h => by
    rw [heightIn] at hheight
    obtain ⟨fuel', hkids⟩ := parseNodes_nodesToks kids (by omega) h
    obtain ⟨fuel'', hkid⟩ := parseNodes_nodeToks kid (by omega) hkids
    refine ⟨fuel'', ?_⟩
    rw [nodesToks, List.append_assoc, hkid]
    rfl

end

theorem parseNodes_tree {kids : List Dom} (hheight : heightIn 0 kids ≤ maxDomDepth) :
    parseNodes ((nodesToks kids).length + 1) (nodesToks kids) none 0 = some (kids, []) := by
  obtain ⟨nodes, rest, hnodes, -⟩ := parseNodes_returns (Nat.lt_succ_self (nodesToks kids).length)
    none 0
  obtain ⟨fuel, hkids⟩ := @parseNodes_nodesToks kids 1 0 [] [] none [] hheight rfl
  rw [List.append_nil, List.append_nil] at hkids
  obtain ⟨rfl, rfl⟩ := parseNodes_unique hnodes hkids
  exact hnodes

end Structure

end AtomVibe.Html
