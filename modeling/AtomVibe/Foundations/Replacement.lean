import Mathlib.Data.List.Basic

/-!
Words replaced one after the other, and all at once. The two agree as long as what is put in never
becomes part of a word that is replaced later.
-/

namespace AtomVibe.Replacement

variable {α β : Type*} [DecidableEq α]

section Replace

variable (key : β → α)

def replaceBy (pattern : List α) (value : List β) : ℕ → List β → List β
  | _, [] => []
  | skip + 1, _ :: text => replaceBy pattern value skip text
  | 0, b :: text =>
    if pattern.isPrefixOf ((b :: text).map key) = true then
      value ++ replaceBy pattern value (pattern.length - 1) text
    else b :: replaceBy pattern value 0 text

def onceBy (rules : List (List α × List β)) : ℕ → List β → List β
  | _, [] => []
  | skip + 1, _ :: text => onceBy rules skip text
  | 0, b :: text =>
    match rules.find? fun rule => rule.1.isPrefixOf ((b :: text).map key) with
    | some rule => rule.2 ++ onceBy rules (rule.1.length - 1) text
    | none => b :: onceBy rules 0 text

def replaceAllBy (rules : List (List α × List β)) (text : List β) : List β :=
  rules.foldl (fun text rule => replaceBy key rule.1 rule.2 0 text) text

variable {key}

theorem replaceBy_skip (pattern : List α) (value : List β) (skip : ℕ) (text : List β) :
    replaceBy key pattern value skip text = replaceBy key pattern value 0 (text.drop skip) := by
  induction skip generalizing text with
  | zero => rfl
  | succ skip ih =>
    cases text with
    | nil => rfl
    | cons b text => rw [replaceBy, ih, List.drop_succ_cons]

theorem onceBy_skip (rules : List (List α × List β)) (skip : ℕ) (text : List β) :
    onceBy key rules skip text = onceBy key rules 0 (text.drop skip) := by
  induction skip generalizing text with
  | zero => rfl
  | succ skip ih =>
    cases text with
    | nil => rfl
    | cons b text => rw [onceBy, ih, List.drop_succ_cons]

theorem drop_pred {n : ℕ} (hn : n ≠ 0) (b : β) (text : List β) :
    text.drop (n - 1) = (b :: text).drop n := by
  obtain ⟨m, rfl⟩ := Nat.exists_eq_succ_of_ne_zero hn
  rw [List.drop_succ_cons, Nat.succ_sub_one]

theorem replaceBy_found {pattern : List α} (hne : pattern ≠ []) (value : List β) {text : List β}
    (h : pattern <+: text.map key) : replaceBy key pattern value 0 text =
      value ++ replaceBy key pattern value 0 (text.drop pattern.length) := by
  cases text with
  | nil => exact absurd (List.prefix_nil.mp h) hne
  | cons b text =>
    have hlength : pattern.length ≠ 0 := fun hzero => hne (List.length_eq_zero_iff.mp hzero)
    rw [replaceBy, if_pos (List.isPrefixOf_iff_prefix.mpr h), replaceBy_skip,
      drop_pred hlength b text]

theorem replaceBy_other {pattern : List α} {value : List β} {b : β} {text : List β}
    (h : ¬pattern <+: (b :: text).map key) : replaceBy key pattern value 0 (b :: text) =
      b :: replaceBy key pattern value 0 text := by
  rw [replaceBy, if_neg]
  exact fun hprefix => h (List.isPrefixOf_iff_prefix.mp hprefix)

theorem replaceBy_ne_nil (pattern : List α) {value text : List β} (hvalue : value ≠ [])
    (htext : text ≠ []) : replaceBy key pattern value 0 text ≠ [] := by
  obtain ⟨b, text, rfl⟩ := List.exists_cons_of_ne_nil htext
  rw [replaceBy]
  split
  · exact List.append_ne_nil_of_left_ne_nil hvalue _
  · exact List.cons_ne_nil _ _

theorem replaceAllBy_ne_nil {rules : List (List α × List β)} {text : List β}
    (hrules : ∀ rule ∈ rules, rule.2 ≠ []) (htext : text ≠ []) :
    replaceAllBy key rules text ≠ [] := by
  induction rules generalizing text with
  | nil => exact htext
  | cons rule rules ih =>
    rw [replaceAllBy, List.foldl_cons]
    apply ih (fun rule hrule => hrules rule (List.mem_cons_of_mem _ hrule))
    exact replaceBy_ne_nil rule.1 (hrules rule List.mem_cons_self) htext

section Map

variable {γ : Type*} (same : β → γ) {other : γ → α} (hkey : ∀ b, other (same b) = key b)

include hkey

omit [DecidableEq α] in
theorem map_key (text : List β) : (text.map same).map other = text.map key := by
  rw [List.map_map]
  exact List.map_congr_left fun b _ => hkey b

theorem map_replaceBy (pattern : List α) (value : List β) (skip : ℕ) (text : List β) :
    (replaceBy key pattern value skip text).map same =
      replaceBy other pattern (value.map same) skip (text.map same) := by
  induction text generalizing skip with
  | nil => cases skip <;> rfl
  | cons b text ih =>
    cases skip with
    | succ skip => exact ih skip
    | zero =>
      rw [List.map_cons (f := same), replaceBy, replaceBy, ← List.map_cons (f := same),
        map_key same hkey]
      by_cases h : pattern.isPrefixOf ((b :: text).map key) = true
      · rw [if_pos h, if_pos h, List.map_append, ih]
      · rw [if_neg h, if_neg h, List.map_cons, ih]

def mapRules {α β γ : Type*} (same : β → γ) (rules : List (List α × List β)) :
    List (List α × List γ) :=
  rules.map fun rule => (rule.1, rule.2.map same)

theorem map_onceBy (rules : List (List α × List β)) (skip : ℕ) (text : List β) :
    (onceBy key rules skip text).map same =
      onceBy other (mapRules same rules) skip (text.map same) := by
  induction text generalizing skip with
  | nil => cases skip <;> rfl
  | cons b text ih =>
    cases skip with
    | succ skip => exact ih skip
    | zero =>
      have hfind : (mapRules same rules).find? (fun rule => rule.1.isPrefixOf ((b :: text).map key)) =
          (rules.find? fun rule => rule.1.isPrefixOf ((b :: text).map key)).map fun rule =>
            (rule.1, rule.2.map same) := by
        rw [mapRules, List.find?_map]
        rfl
      rw [List.map_cons (f := same), onceBy, onceBy, ← List.map_cons (f := same),
        map_key same hkey, hfind]
      cases rules.find? fun rule => rule.1.isPrefixOf ((b :: text).map key) with
      | some rule => simp only [Option.map_some, List.map_append, ih]
      | none => simp only [Option.map_none, List.map_cons, ih]

theorem map_replaceAllBy (rules : List (List α × List β)) (text : List β) :
    (replaceAllBy key rules text).map same =
      replaceAllBy other (mapRules same rules) (text.map same) := by
  induction rules generalizing text with
  | nil => rfl
  | cons rule rules ih =>
    have hstep := map_replaceBy same hkey rule.1 rule.2 0 text
    exact (ih _).trans (congrArg (replaceAllBy other (mapRules same rules)) hstep)

end Map

end Replace

abbrev Mark (α : Type*) := α × Bool

def original (text : List α) : List (Mark α) := text.map fun a => (a, true)

def inserted (text : List α) : List (Mark α) := text.map fun a => (a, false)

abbrev Rules (α : Type*) := List (List α × List α)

def marked (rules : Rules α) : List (List α × List (Mark α)) :=
  mapRules (fun a => (a, false)) rules

def Whole (word : List α) (text : List (Mark α)) : Prop :=
  ∀ before found after, text = before ++ (found ++ after) → found.map Prod.fst = word →
    ∀ item ∈ found, item.2 = true

def Uncaptured : Rules α → List (Mark α) → Prop
  | [], _ => True
  | rule :: rules, text =>
    Whole rule.1 text ∧ Uncaptured rules (replaceBy Prod.fst rule.1 (inserted rule.2) 0 text)

structure Separate (words : List (List α)) : Prop where
  nonempty : ∀ word ∈ words, word ≠ []
  nodup : words.Nodup
  apart : ∀ word ∈ words, ∀ other ∈ words, ∀ front back text, word = front ++ back → back ≠ [] →
    other <+: back ++ text → front = [] ∧ other = word

omit [DecidableEq α] in
theorem Separate.append_left {words others : List (List α)} (h : Separate (words ++ others)) :
    Separate words where
  nonempty word hword := h.nonempty word (List.mem_append_left _ hword)
  nodup := (List.nodup_append.mp h.nodup).1
  apart word hword other hother := h.apart word (List.mem_append_left _ hword) other
    (List.mem_append_left _ hother)

section Once

variable {rules : Rules α} {text : List α}

def once (rules : Rules α) (text : List α) : List (Mark α) :=
  onceBy Prod.fst (marked rules) 0 (original text)

omit [DecidableEq α] in
theorem map_original (text : List α) : (original text).map Prod.fst = text := by
  rw [original, List.map_map]
  exact List.map_id _

theorem find_marked (rules : Rules α) (text : List α) :
    (marked rules).find? (fun rule => rule.1.isPrefixOf text) =
      (rules.find? fun rule => rule.1.isPrefixOf text).map fun rule => (rule.1, inserted rule.2) := by
  rw [marked, mapRules, List.find?_map]
  rfl

theorem once_found {rule : List α × List α} (hne : rule.1 ≠ [])
    (h : (rules.find? fun rule => rule.1.isPrefixOf text) = some rule) :
    once rules text = inserted rule.2 ++ once rules (text.drop rule.1.length) := by
  cases text with
  | nil =>
    have hprefix := List.find?_some h
    exact absurd (List.prefix_nil.mp (List.isPrefixOf_iff_prefix.mp hprefix)) hne
  | cons a text =>
    have hmap : ((a, true) :: original text).map Prod.fst = a :: text := map_original (a :: text)
    have hdrop : (original text).drop (rule.1.length - 1) =
        original ((a :: text).drop rule.1.length) := by
      have hlength : rule.1.length ≠ 0 := fun hzero => hne (List.length_eq_zero_iff.mp hzero)
      rw [← drop_pred hlength a text, original, original, List.map_drop]
    rw [once, original, List.map_cons, onceBy, ← original, hmap, find_marked, h, Option.map_some]
    simp only
    rw [onceBy_skip, hdrop]
    rfl

theorem once_none {a : α}
    (h : (rules.find? fun rule => rule.1.isPrefixOf (a :: text)) = none) :
    once rules (a :: text) = (a, true) :: once rules text := by
  have hmap : ((a, true) :: original text).map Prod.fst = a :: text := map_original (a :: text)
  rw [once, original, List.map_cons, onceBy, ← original, hmap, find_marked, h, Option.map_none]
  rfl

theorem once_original (hne : ∀ rule ∈ rules, rule.1 ≠ [] ∧ rule.2 ≠ []) {front : List (Mark α)}
    (h : front <+: once rules text) (htrue : ∀ item ∈ front, item.2 = true) :
    front.map Prod.fst <+: text := by
  induction text generalizing front with
  | nil =>
    have hnil : front = [] := List.prefix_nil.mp h
    simp [hnil]
  | cons a text ih =>
    cases front with
    | nil => simp
    | cons item front =>
      cases hfind : rules.find? fun rule => rule.1.isPrefixOf (a :: text) with
      | some rule =>
        obtain ⟨hpattern, hvalue⟩ := hne rule (List.mem_of_find?_eq_some hfind)
        obtain ⟨b, value, hb⟩ := List.exists_cons_of_ne_nil hvalue
        rw [once_found hpattern hfind, hb, inserted, List.map_cons, List.cons_append,
          List.cons_prefix_cons] at h
        have hitem := htrue item List.mem_cons_self
        rw [h.1] at hitem
        exact absurd hitem (by simp)
      | none =>
        rw [once_none hfind, List.cons_prefix_cons] at h
        obtain ⟨rfl, h⟩ := h
        rw [List.map_cons, List.cons_prefix_cons]
        exact ⟨rfl, ih h fun item hitem => htrue item (List.mem_cons_of_mem _ hitem)⟩

theorem once_keeps {word : List α}
    (h : ∀ front back, word = front ++ back → back ≠ [] → ∀ rule ∈ rules,
      ¬rule.1 <+: back ++ text) :
    once rules (word ++ text) = original word ++ once rules text := by
  induction word with
  | nil => rfl
  | cons a word ih =>
    have hfind : (rules.find? fun rule => rule.1.isPrefixOf (a :: (word ++ text))) = none := by
      rw [List.find?_eq_none]
      intro rule hrule hprefix
      exact h [] (a :: word) rfl (by simp) rule hrule (List.isPrefixOf_iff_prefix.mp hprefix)
    rw [List.cons_append, once_none hfind, ih fun front back hword => h (a :: front) back (by
      rw [hword, List.cons_append])]
    rfl

end Once

section Sequence

variable {rules : Rules α} {rule : List α × List α}

omit [DecidableEq α] in
theorem Whole.suffix {word : List α} {text : List (Mark α)} (front : List (Mark α))
    (h : Whole word (front ++ text)) : Whole word text :=
  fun before found after htext =>
    h (front ++ before) found after (by rw [htext, List.append_assoc])

omit [DecidableEq α] in
theorem Whole.front {word : List α} {text : List (Mark α)} (h : Whole word text)
    (hstart : word <+: text.map Prod.fst) : ∃ front, front <+: text ∧ front.map Prod.fst = word ∧
      ∀ item ∈ front, item.2 = true := by
  obtain ⟨front, rest, htext, hfront, -⟩ := List.map_eq_append_iff.mp
    (List.prefix_iff_eq_append.mp hstart).symm
  refine ⟨front, ⟨rest, htext.symm⟩, hfront, h [] front rest htext hfront⟩

theorem replaceBy_inserted {word : List α} (hne : word ≠ []) (value : List (Mark α)) (put : List α)
    {text : List (Mark α)} (h : Whole word (inserted put ++ text)) :
    replaceBy Prod.fst word value 0 (inserted put ++ text) =
      inserted put ++ replaceBy Prod.fst word value 0 text := by
  induction put with
  | nil => rfl
  | cons a put ih =>
    have hother : ¬word <+: ((a, false) :: (inserted put ++ text)).map Prod.fst := by
      intro hstart
      obtain ⟨front, hfront, hword, htrue⟩ := Whole.front h hstart
      cases front with
      | nil => exact hne (by rw [← hword, List.map_nil])
      | cons item front =>
        obtain rfl : item = (a, false) := (List.cons_prefix_cons.mp hfront).1
        exact absurd (htrue _ List.mem_cons_self) (by simp)
    have htail : Whole word (inserted put ++ text) := h.suffix [(a, false)]
    rw [inserted, List.map_cons, List.cons_append, ← inserted, replaceBy_other hother, ih htail,
      List.cons_append]

theorem replaceBy_once (hsep : Separate ((rules ++ [rule]).map Prod.fst))
    (hvalues : ∀ r ∈ rules, r.2 ≠ []) (text : List α) (hwhole : Whole rule.1 (once rules text)) :
    replaceBy Prod.fst rule.1 (inserted rule.2) 0 (once rules text) =
      once (rules ++ [rule]) text := by
  have hrules : ∀ r ∈ rules, r.1 ≠ [] ∧ r.2 ≠ [] := fun r hr =>
    ⟨hsep.nonempty _ (List.mem_map_of_mem (List.mem_append_left _ hr)), hvalues r hr⟩
  have hword : rule.1 ≠ [] := hsep.nonempty _ (by simp)
  induction hlength : text.length using Nat.strongRecOn generalizing text with
  | ind n ih =>
    cases text with
    | nil => rfl
    | cons a text =>
      cases hfind : rules.find? fun r => r.1.isPrefixOf (a :: text) with
      | some r =>
        have hboth : (rules ++ [rule]).find? (fun r => r.1.isPrefixOf (a :: text)) = some r := by
          rw [List.find?_append, hfind, Option.some_or]
        have hr := hrules r (List.mem_of_find?_eq_some hfind)
        rw [once_found hr.1 hfind] at hwhole ⊢
        rw [once_found hr.1 hboth, replaceBy_inserted hword _ _ hwhole]
        have hshort : ((a :: text).drop r.1.length).length < n := by
          have hpos := List.length_pos_iff.mpr hr.1
          rw [List.length_drop, hlength]
          simp only [List.length_cons] at hlength
          omega
        rw [ih _ hshort _ (hwhole.suffix _) rfl]
      | none =>
        by_cases hprefix : rule.1 <+: a :: text
        · obtain ⟨rest, hrest⟩ := hprefix
          have hboth : (rules ++ [rule]).find? (fun r => r.1.isPrefixOf (a :: text)) =
              some rule := by
            rw [List.find?_append, hfind, Option.none_or, List.find?_singleton,
              if_pos (List.isPrefixOf_iff_prefix.mpr ⟨rest, hrest⟩)]
          have hkept : once rules (a :: text) = original rule.1 ++ once rules rest := by
            rw [← hrest]
            apply once_keeps
            intro front back hsplit hback r hr hfront
            have hmem : r.1 ∈ rules.map Prod.fst := List.mem_map_of_mem hr
            have hnodup := hsep.nodup
            rw [List.map_append, List.nodup_append] at hnodup
            have hsame := (hsep.apart rule.1 (by simp) r.1 (by simp [hmem]) front back rest hsplit
              hback hfront).2
            exact hnodup.2.2 _ hmem _ (List.mem_singleton_self _) hsame
          have hdrop : (a :: text).drop rule.1.length = rest := by
            rw [← hrest, List.drop_left]
          rw [hkept] at hwhole ⊢
          have hfound : rule.1 <+: (original rule.1 ++ once rules rest).map Prod.fst := by
            rw [List.map_append, map_original]
            exact List.prefix_append _ _
          have hmarked : (original rule.1 ++ once rules rest).drop rule.1.length =
              once rules rest := by
            rw [original, List.drop_left' (List.length_map _)]
          have hshort : rest.length < n := by
            have hpos := List.length_pos_iff.mpr hword
            rw [← hrest, List.length_append] at hlength
            omega
          rw [replaceBy_found hword _ hfound, hmarked, ih _ hshort _ (hwhole.suffix _) rfl,
            once_found hword hboth, hdrop]
        · have hboth : (rules ++ [rule]).find? (fun r => r.1.isPrefixOf (a :: text)) = none := by
            rw [List.find?_append, hfind, Option.none_or, List.find?_singleton, if_neg]
            exact fun h => hprefix (List.isPrefixOf_iff_prefix.mp h)
          have hother : ¬rule.1 <+: (once rules (a :: text)).map Prod.fst := by
            intro h
            obtain ⟨front, hfront, hsame, htrue⟩ := Whole.front hwhole h
            exact hprefix (hsame ▸ once_original hrules hfront htrue)
          rw [once_none hfind] at hother hwhole ⊢
          have hshort : text.length < n := by
            rw [List.length_cons] at hlength
            omega
          have htail : Whole rule.1 (once rules text) :=
            hwhole.suffix [(a, true)]
          rw [replaceBy_other hother, once_none hboth, ih _ hshort _ htail rfl]

theorem replaceAllBy_once (hsep : Separate (rules.map Prod.fst)) (hvalues : ∀ r ∈ rules, r.2 ≠ [])
    {others : Rules α} (done : Rules α) (hrules : rules = done ++ others) (text : List α)
    (h : Uncaptured others (once done text)) :
    replaceAllBy Prod.fst (marked others) (once done text) = once rules text := by
  induction others generalizing done with
  | nil =>
    rw [hrules, List.append_nil]
    rfl
  | cons rule others ih =>
    obtain ⟨hwhole, hrest⟩ := h
    have hsplit : rules = (done ++ [rule]) ++ others := by rw [hrules, List.append_assoc]; rfl
    have hstep : replaceBy Prod.fst rule.1 (inserted rule.2) 0 (once done text) =
        once (done ++ [rule]) text := by
      apply replaceBy_once _ _ text hwhole
      · rw [hsplit, List.map_append] at hsep
        exact hsep.append_left
      · intro r hr
        exact hvalues r (by rw [hrules]; exact List.mem_append_left _ hr)
    rw [hstep] at hrest
    have htail := ih (done ++ [rule]) hsplit hrest
    rw [← hstep] at htail
    exact htail

theorem replaceAllBy_eq_onceBy (hsep : Separate (rules.map Prod.fst))
    (hvalues : ∀ r ∈ rules, r.2 ≠ []) (text : List α) (h : Uncaptured rules (original text)) :
    replaceAllBy id rules text = onceBy id rules 0 text := by
  have hnone : ∀ text : List α, once [] text = original text := by
    intro text
    induction text with
    | nil => rfl
    | cons a text ih => rw [once_none rfl, ih, original, original, List.map_cons]
  have hrules : mapRules Prod.fst (marked rules) = rules := by
    rw [marked, mapRules, mapRules, List.map_map]
    refine (List.map_congr_left fun rule _ => ?_).trans (List.map_id rules)
    exact Prod.ext rfl (by simp [Function.comp_def])
  have hmarked := replaceAllBy_once hsep hvalues [] rfl text (by rwa [hnone])
  have hsame := congrArg (List.map Prod.fst) hmarked
  have hkey : ∀ item : Mark α, id (Prod.fst item) = Prod.fst item := fun _ => rfl
  have hall := map_replaceAllBy Prod.fst hkey (marked rules) (original text)
  have honce := map_onceBy Prod.fst hkey (marked rules) 0 (original text)
  rw [hrules, map_original] at hall honce
  rw [hnone, once] at hsame
  exact hall.symm.trans (hsame.trans honce)

end Sequence

end AtomVibe.Replacement
