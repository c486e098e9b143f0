import Mathlib.Data.Nat.Notation
import Mathlib.Algebra.Order.BigOperators.Group.List
import Mathlib.Algebra.Order.Monoid.WithTop
import Mathlib.Algebra.Order.Monoid.Unbundled.Basic

namespace AtomVibe.LineFill

structure Lines (α : Type*) where
  done : List α
  cur : α
  filled : Bool

variable {α : Type*} [AddCommGroup α] [LinearOrder α] (limit : WithTop α)

namespace Lines

def empty : Lines α := ⟨[], 0, false⟩

def letter (s : Lines α) (w : α) : Lines α :=
  if 0 < s.cur ∧ limit < ↑(s.cur + w) then ⟨s.done ++ [s.cur], w, true⟩
  else ⟨s.done, s.cur + w, true⟩

def long (s : Lines α) (letters : List α) : Lines α :=
  letters.foldl (letter limit) (if 0 < s.cur then ⟨s.done ++ [s.cur], 0, false⟩ else s)

def short (s : Lines α) (space word : α) : Lines α :=
  let space := if s.filled then space else 0
  if s.filled ∧ limit < ↑(s.cur + space + word) then ⟨s.done ++ [s.cur], word, true⟩
  else ⟨s.done, s.cur + space + word, true⟩

def word (s : Lines α) (word : α × List α) : Lines α :=
  if word.2 = [] then { s with filled := true }
  else if limit < word.2.sum then s.long limit word.2
  else s.short limit word.1 word.2.sum

def words (s : Lines α) (words : List (α × List α)) : Lines α := words.foldl (word limit) s

def widths (s : Lines α) : List α :=
  let lines := if s.filled then s.done ++ [s.cur] else s.done
  if lines = [] then [0] else lines

end Lines

variable {limit} {s t : Lines α}

theorem word_empty (space : α) : s.word limit (space, []) = { s with filled := true } := by
  rw [Lines.word, if_pos rfl]

theorem word_long {word : α × List α} (hne : word.2 ≠ []) (hlong : limit < word.2.sum) :
    s.word limit word = s.long limit word.2 := by
  rw [Lines.word, if_neg hne, if_pos hlong]

theorem word_short {word : α × List α} (hne : word.2 ≠ []) (hshort : ¬ limit < word.2.sum) :
    s.word limit word = s.short limit word.1 word.2.sum := by
  rw [Lines.word, if_neg hne, if_neg hshort]

theorem foldl_letter_done (front : List α) (letters : List α) (s : Lines α) :
    letters.foldl (Lines.letter limit) { s with done := front ++ s.done } =
      { letters.foldl (Lines.letter limit) s with
        done := front ++ (letters.foldl (Lines.letter limit) s).done } := by
  induction letters generalizing s with
  | nil => rfl
  | cons w letters ih =>
    rw [List.foldl_cons, List.foldl_cons, ← ih]
    congr 1
    rw [Lines.letter, Lines.letter]
    by_cases h : 0 < s.cur ∧ limit < ↑(s.cur + w)
    · rw [if_pos h, if_pos h, List.append_assoc]
    · rw [if_neg h, if_neg h]

theorem foldl_letter_filled {letters : List α} (hne : letters ≠ []) (s : Lines α) (filled : Bool) :
    letters.foldl (Lines.letter limit) s =
      letters.foldl (Lines.letter limit) { s with filled := filled } := by
  obtain ⟨w, letters, rfl⟩ := List.exists_cons_of_ne_nil hne
  rw [List.foldl_cons, List.foldl_cons]
  rfl

theorem filled_foldl_letter {letters : List α} (s : Lines α) (h : letters ≠ [] ∨ s.filled = true) :
    (letters.foldl (Lines.letter limit) s).filled = true := by
  induction letters generalizing s with
  | nil => exact h.resolve_left (not_not.mpr rfl)
  | cons w letters ih =>
    rw [List.foldl_cons]
    apply ih
    right
    rw [Lines.letter]
    split <;> rfl

theorem filled_word (word : α × List α) : (s.word limit word).filled = true := by
  by_cases hne : word.2 = []
  · rw [Lines.word, if_pos hne]
  by_cases hlong : limit < word.2.sum
  · rw [word_long hne hlong]
    exact filled_foldl_letter _ (Or.inl hne)
  · rw [word_short hne hlong, Lines.short]
    generalize (if s.filled then word.1 else 0) = space
    split <;> rfl

theorem filled_words {words : List (α × List α)} (hne : words ≠ []) (s : Lines α) :
    (s.words limit words).filled = true := by
  induction words generalizing s with
  | nil => exact absurd rfl hne
  | cons word words ih =>
    rw [Lines.words, List.foldl_cons]
    cases words with
    | nil => exact filled_word word
    | cons next words => exact ih (List.cons_ne_nil _ _) _

section Ordered

variable [IsOrderedAddMonoid α]

theorem cur_foldl_letter {letters : List α} (hpos : ∀ w ∈ letters, 0 < w)
    (hcur : 0 ≤ s.cur) (h : letters ≠ [] ∨ 0 < s.cur) :
    0 < (letters.foldl (Lines.letter limit) s).cur := by
  induction letters generalizing s with
  | nil => exact h.resolve_left (not_not.mpr rfl)
  | cons w letters ih =>
    rw [List.forall_mem_cons] at hpos
    have hnext : 0 < (s.letter limit w).cur := by
      rw [Lines.letter]
      split
      · exact hpos.1
      · exact add_pos_of_nonneg_of_pos hcur hpos.1
    rw [List.foldl_cons]
    exact ih hpos.2 hnext.le (Or.inr hnext)

theorem sum_pos_of_ne_nil {letters : List α} (hpos : ∀ w ∈ letters, 0 < w) (hne : letters ≠ []) :
    0 < letters.sum := List.sum_pos letters hpos hne

theorem foldl_letter_of_room {letters : List α} (hpos : ∀ w ∈ letters, 0 < w) (hne : letters ≠ [])
    (hroom : ¬ limit < ↑(s.cur + letters.sum)) :
    letters.foldl (Lines.letter limit) s = ⟨s.done, s.cur + letters.sum, true⟩ := by
  induction letters generalizing s with
  | nil => exact absurd rfl hne
  | cons w letters ih =>
    rw [List.forall_mem_cons] at hpos
    rw [List.sum_cons, ← add_assoc] at hroom ⊢
    have hsum : 0 ≤ letters.sum := List.sum_nonneg fun w hw => (hpos.2 w hw).le
    have hletter : s.letter limit w = ⟨s.done, s.cur + w, true⟩ := by
      rw [Lines.letter, if_neg]
      rintro ⟨-, hfull⟩
      apply hroom
      apply hfull.trans_le
      rw [WithTop.coe_le_coe]
      exact le_add_of_nonneg_right hsum
    rw [List.foldl_cons, hletter]
    by_cases hlast : letters = []
    · rw [hlast, List.foldl_nil, List.sum_nil, add_zero]
    · exact ih hpos.2 hlast hroom

def Parted (xs ys : List α) : Prop := ¬ (xs <+: ys ∨ ys <+: xs)

omit [AddCommGroup α] [LinearOrder α] [IsOrderedAddMonoid α] in
theorem Parted.append {xs ys : List α} (h : Parted xs ys) (more more' : List α) :
    Parted (xs ++ more) (ys ++ more') := by
  intro hfront
  apply h
  rcases hfront with hfront | hfront
  · exact List.prefix_or_prefix_of_prefix ((List.prefix_append xs more).trans hfront)
      (List.prefix_append ys more')
  · exact List.prefix_or_prefix_of_prefix (List.prefix_append xs more)
      ((List.prefix_append ys more').trans hfront)

omit [AddCommGroup α] [IsOrderedAddMonoid α] in
theorem parted_of_lt {xs ys : List α} (hlength : xs.length = ys.length) {x y : α} (h : x < y) :
    Parted (xs ++ [x]) (ys ++ [y]) := by
  have hne : xs ++ [x] ≠ ys ++ [y] := by
    intro heq
    have hlast := (List.append_inj heq hlength).2
    rw [List.cons.injEq] at hlast
    exact h.ne hlast.1
  have hsame : (xs ++ [x]).length = (ys ++ [y]).length := by
    rw [List.length_append, List.length_append, hlength]
    rfl
  rintro (hfront | hfront)
  · exact hne (hfront.eq_of_length hsame)
  · exact hne (hfront.eq_of_length hsame.symm).symm

structure Ahead (s t : Lines α) : Prop where
  cur : 0 < s.cur ∧ 0 < t.cur
  filled : s.filled = true ∧ t.filled = true
  lines : s.done.length < t.done.length ∨ (s.done.length = t.done.length ∧ s.cur < t.cur) ∨
    Parted s.done t.done

omit [IsOrderedAddMonoid α] in
theorem Ahead.widths_ne (h : Ahead s t) : s.widths ≠ t.widths := by
  have hwidths : ∀ r : Lines α, r.filled = true → r.widths = r.done ++ [r.cur] := by
    intro r hr
    rw [Lines.widths, hr, if_pos rfl, if_neg (by simp)]
  rw [hwidths s h.filled.1, hwidths t h.filled.2]
  intro heq
  rcases h.lines with hless | ⟨hlength, hless⟩ | hparted
  · have hlengths := congrArg List.length heq
    simp only [List.length_append, List.length_singleton] at hlengths
    omega
  · apply parted_of_lt hlength hless
    rw [heq]
    exact Or.inl List.prefix_rfl
  · apply hparted.append [s.cur] [t.cur]
    rw [heq]
    exact Or.inl List.prefix_rfl

omit [IsOrderedAddMonoid α] in
theorem long_of_pos {letters : List α} (hcur : 0 < s.cur) :
    s.long limit letters =
      ⟨s.done ++ [s.cur] ++ (letters.foldl (Lines.letter limit) ⟨[], 0, false⟩).done,
        (letters.foldl (Lines.letter limit) ⟨[], 0, false⟩).cur,
        (letters.foldl (Lines.letter limit) ⟨[], 0, false⟩).filled⟩ := by
  have hdone := @foldl_letter_done α _ _ limit (s.done ++ [s.cur]) letters ⟨[], 0, false⟩
  rw [List.append_nil] at hdone
  rw [Lines.long, if_pos hcur, hdone]

theorem Ahead.long (h : Ahead s t) {letters : List α} (hpos : ∀ w ∈ letters, 0 < w)
    (hne : letters ≠ []) : Ahead (s.long limit letters) (t.long limit letters) := by
  have hcur := @cur_foldl_letter α _ _ limit ⟨[], 0, false⟩ _ letters hpos le_rfl (Or.inl hne)
  have hfilled := @filled_foldl_letter α _ _ limit letters ⟨[], 0, false⟩ (Or.inl hne)
  rw [long_of_pos h.cur.1, long_of_pos h.cur.2]
  refine ⟨⟨hcur, hcur⟩, ⟨hfilled, hfilled⟩, ?_⟩
  rcases h.lines with hless | ⟨hlength, hless⟩ | hparted
  · left
    simp only [List.length_append, List.length_singleton]
    omega
  · exact Or.inr (Or.inr ((parted_of_lt hlength hless).append _ _))
  · exact Or.inr (Or.inr ((hparted.append _ _).append _ _))

omit [IsOrderedAddMonoid α] in
theorem short_cases (hfilled : s.filled = true) (space word : α) :
    (limit < ↑(s.cur + space + word) ∧
        s.short limit space word = ⟨s.done ++ [s.cur], word, true⟩) ∨
      (¬ limit < ↑(s.cur + space + word) ∧
        s.short limit space word = ⟨s.done, s.cur + space + word, true⟩) := by
  rw [Lines.short, hfilled, if_pos rfl]
  by_cases hfull : limit < ↑(s.cur + space + word)
  · exact Or.inl ⟨hfull, if_pos ⟨rfl, hfull⟩⟩
  · exact Or.inr ⟨hfull, if_neg fun h => hfull h.2⟩

theorem Ahead.short (h : Ahead s t) {space word : α} (hspace : 0 ≤ space) (hword : 0 < word) :
    Ahead (s.short limit space word) (t.short limit space word) := by
  have hs : 0 < s.cur + space + word := add_pos (add_pos_of_pos_of_nonneg h.cur.1 hspace) hword
  have ht : 0 < t.cur + space + word := add_pos (add_pos_of_pos_of_nonneg h.cur.2 hspace) hword
  rcases @short_cases α _ _ limit s h.filled.1 space word with ⟨hfull, hshort⟩ | ⟨hroom, hshort⟩ <;>
    rcases @short_cases α _ _ limit t h.filled.2 space word with ⟨hfull', hshort'⟩ | ⟨hroom', hshort'⟩ <;>
      rw [hshort, hshort']
  · refine ⟨⟨hword, hword⟩, ⟨rfl, rfl⟩, ?_⟩
    rcases h.lines with hless | ⟨hlength, hless⟩ | hparted
    · left
      simp only [List.length_append, List.length_singleton]
      omega
    · exact Or.inr (Or.inr (parted_of_lt hlength hless))
    · exact Or.inr (Or.inr (hparted.append _ _))
  · refine ⟨⟨hword, ht⟩, ⟨rfl, rfl⟩, ?_⟩
    rcases h.lines with hless | ⟨hlength, hless⟩ | hparted
    · have hle : s.done.length + 1 ≤ t.done.length := hless
      rcases hle.lt_or_eq with hlt | heq
      · left
        rw [List.length_append]
        exact hlt
      · refine Or.inr (Or.inl ⟨by rw [List.length_append]; exact heq, ?_⟩)
        exact lt_add_of_pos_left _ (add_pos_of_pos_of_nonneg h.cur.2 hspace)
    · -- the line that is shorter cannot be the one that is full
      refine absurd (lt_of_lt_of_le hfull ?_) hroom'
      rw [WithTop.coe_le_coe]
      exact add_le_add_left (add_le_add_left hless.le _) _
    · right
      right
      have hmore := hparted.append [s.cur] []
      rw [List.append_nil] at hmore
      exact hmore
  · refine ⟨⟨hs, hword⟩, ⟨rfl, rfl⟩, ?_⟩
    rcases h.lines with hless | ⟨hlength, hless⟩ | hparted
    · left
      rw [List.length_append]
      exact hless.trans (Nat.lt_succ_self _)
    · left
      rw [List.length_append, hlength]
      exact Nat.lt_succ_self _
    · right
      right
      have hmore := hparted.append [] [t.cur]
      rw [List.append_nil] at hmore
      exact hmore
  · refine ⟨⟨hs, ht⟩, ⟨rfl, rfl⟩, ?_⟩
    rcases h.lines with hless | ⟨hlength, hless⟩ | hparted
    · exact Or.inl hless
    · exact Or.inr (Or.inl ⟨hlength, add_lt_add_left (add_lt_add_left hless _) _⟩)
    · exact Or.inr (Or.inr hparted)

def Solid (word : α × List α) : Prop := 0 ≤ word.1 ∧ ∀ w ∈ word.2, 0 < w

theorem Ahead.word (h : Ahead s t) {word : α × List α} (hword : Solid word) :
    Ahead (s.word limit word) (t.word limit word) := by
  by_cases hne : word.2 = []
  · rw [Lines.word, Lines.word, if_pos hne, if_pos hne]
    exact ⟨h.cur, ⟨rfl, rfl⟩, h.lines⟩
  by_cases hlong : limit < word.2.sum
  · rw [word_long hne hlong, word_long hne hlong]
    exact h.long hword.2 hne
  · rw [word_short hne hlong, word_short hne hlong]
    exact h.short hword.1 (sum_pos_of_ne_nil hword.2 hne)

theorem Ahead.words (h : Ahead s t) {words : List (α × List α)} (hwords : ∀ word ∈ words, Solid word) :
    Ahead (s.words limit words) (t.words limit words) := by
  induction words generalizing s t with
  | nil => exact h
  | cons word words ih =>
    rw [List.forall_mem_cons] at hwords
    exact ih (h.word hwords.1) hwords.2

theorem Ahead.of_filled {word : α × List α} (hspace : 0 < word.1) (hpos : ∀ w ∈ word.2, 0 < w)
    (hne : word.2 ≠ []) (hshort : ¬ limit < word.2.sum) :
    Ahead (Lines.empty.word limit word) ((⟨[], 0, true⟩ : Lines α).word limit word) := by
  have hword := sum_pos_of_ne_nil hpos hne
  have hstart : (Lines.empty : Lines α).short limit word.1 word.2.sum = ⟨[], word.2.sum, true⟩ := by
    simp [Lines.short, Lines.empty]
  rw [word_short hne hshort, word_short hne hshort, hstart]
  rcases @short_cases α _ _ limit ⟨[], 0, true⟩ rfl word.1 word.2.sum with ⟨-, hcase⟩ | ⟨-, hcase⟩ <;>
    rw [hcase]
  · refine ⟨⟨hword, hword⟩, ⟨rfl, rfl⟩, Or.inl ?_⟩
    exact Nat.lt_succ_self 0
  · rw [zero_add]
    exact ⟨⟨hword, add_pos hspace hword⟩, ⟨rfl, rfl⟩, Or.inr (Or.inl ⟨rfl, lt_add_of_pos_left _ hspace⟩)⟩

theorem widths_insert_iff {front back : List (α × List α)} (hsolid : ∀ word ∈ back, Solid word)
    (hfirst : ∀ word ∈ back.head?, word.2 ≠ [] ∧ (front = [] → 0 < word.1)) (space : α) :
    (Lines.empty.words limit (front ++ back)).widths =
        (Lines.empty.words limit (front ++ (space, []) :: back)).widths ↔
      ¬ (front = [] ∧ ∃ word ∈ back.head?, ¬ limit < word.2.sum) := by
  rw [Lines.words, Lines.words, List.foldl_append, List.foldl_append, List.foldl_cons, word_empty]
  by_cases hfront : front = []
  · subst hfront
    rw [List.foldl_nil]
    cases back with
    | nil => simp [Lines.empty, Lines.widths]
    | cons word back =>
      have hword := hfirst word rfl
      rw [List.forall_mem_cons] at hsolid
      rw [List.foldl_cons, List.foldl_cons]
      by_cases hlong : limit < word.2.sum
      · have hsame : Lines.empty.word limit word = (⟨[], 0, true⟩ : Lines α).word limit word := by
          rw [word_long hword.1 hlong, word_long hword.1 hlong, Lines.long, Lines.long, Lines.empty,
            if_neg (lt_irrefl 0), if_neg (lt_irrefl 0)]
          exact foldl_letter_filled hword.1 _ true
        constructor
        · rintro - ⟨-, other, hother, hshort⟩
          rw [← Option.some.inj hother] at hshort
          exact hshort hlong
        · intro _
          rw [hsame]
          rfl
      · have hahead := Ahead.of_filled (hword.2 rfl) hsolid.1.2 hword.1 hlong
        constructor
        · intro heq
          exact absurd heq (hahead.words hsolid.2).widths_ne
        · intro hnot
          exact absurd ⟨rfl, word, rfl, hlong⟩ hnot
  · have hfilled := @filled_words α _ _ limit front hfront Lines.empty
    rw [Lines.words] at hfilled
    constructor
    · rintro - ⟨hnil, -⟩
      exact hfront hnil
    · intro _
      congr 2
      rw [← hfilled]

end Ordered

end AtomVibe.LineFill
