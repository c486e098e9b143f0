import Mathlib.Algebra.Order.BigOperators.Group.List
import Mathlib.Algebra.Order.Monoid.Unbundled.Pow
import Mathlib.Algebra.Order.Group.Unbundled.Basic
import Mathlib.Tactic.Abel

namespace AtomVibe.WordWrap

section Letters

variable {γ α : Type*} [AddCommGroup α] (adv : γ → α)

def width (word : List γ) : α := (word.map adv).sum

theorem width_cons (letter : γ) (word : List γ) :
    width adv (letter :: word) = adv letter + width adv word := by
  rw [width, List.map_cons, List.sum_cons, width]

theorem width_append (front back : List γ) :
    width adv (front ++ back) = width adv front + width adv back := by
  rw [width, List.map_append, List.sum_append, width, width]

variable [LinearOrder α]

def fit (room : α) : List γ → ℕ
  | [] => 0
  | letter :: word => if adv letter ≤ room then fit (room - adv letter) word + 1 else 0

def chunk (limit : α) (word : List γ) : ℕ := max (fit adv limit word) 1

theorem one_le_chunk (limit : α) (word : List γ) : 1 ≤ chunk adv limit word :=
  Nat.le_max_right _ _

def breakUp (limit : α) (word : List γ) : List (List γ) :=
  if word = [] then [] else
    word.take (chunk adv limit word) :: breakUp limit (word.drop (chunk adv limit word))
termination_by word.length
decreasing_by
  rename_i h
  have hlength := List.length_pos_of_ne_nil h
  have hchunk := one_le_chunk adv limit word
  rw [List.length_drop]
  omega

theorem breakUp_nil (limit : α) : breakUp adv limit ([] : List γ) = [] := by
  rw [breakUp, if_pos rfl]

variable {adv} {limit room : α} {word : List γ}

theorem breakUp_of_ne_nil (h : word ≠ []) : breakUp adv limit word =
    word.take (chunk adv limit word) :: breakUp adv limit (word.drop (chunk adv limit word)) := by
  rw [breakUp, if_neg h]

theorem breakUp_last (h : word ≠ []) (hlast : word.length ≤ chunk adv limit word) :
    breakUp adv limit word = [word] := by
  rw [breakUp_of_ne_nil h, List.take_of_length_le hlast, List.drop_of_length_le hlast,
    breakUp_nil]

theorem ne_nil_of_mem_breakUp {part : List γ} (h : part ∈ breakUp adv limit word) : part ≠ [] := by
  induction hlength : word.length using Nat.strong_induction_on generalizing word with
  | _ n ih =>
    subst hlength
    by_cases hne : word = []
    · rw [hne, breakUp_nil] at h
      cases h
    · have hchunk := one_le_chunk adv limit word
      have hword := List.length_pos_of_ne_nil hne
      rw [breakUp_of_ne_nil hne, List.mem_cons] at h
      rcases h with rfl | h
      · apply List.ne_nil_of_length_pos
        rw [List.length_take]
        omega
      · exact ih _ (by rw [List.length_drop]; omega) h rfl

theorem flatten_breakUp : (breakUp adv limit word).flatten = word := by
  induction hlength : word.length using Nat.strong_induction_on generalizing word with
  | _ n ih =>
    subst hlength
    by_cases hne : word = []
    · rw [hne, breakUp_nil, List.flatten_nil]
    · have hchunk := one_le_chunk adv limit word
      have hword := List.length_pos_of_ne_nil hne
      rw [breakUp_of_ne_nil hne, List.flatten_cons, ih _ (by rw [List.length_drop]; omega) rfl,
        List.take_append_drop]

theorem fit_rest (h : 0 < fit adv room word) :
    fit adv (room - width adv (word.take (fit adv room word))) (word.drop (fit adv room word)) =
      0 := by
  induction word generalizing room with
  | nil => exact absurd h (lt_irrefl 0)
  | cons letter word ih =>
    rw [fit] at h ⊢
    split at h
    · rename_i hletter
      rw [if_pos hletter, List.take_succ_cons, List.drop_succ_cons, width_cons, ← sub_sub]
      cases hrest : fit adv (room - adv letter) word with
      | zero => simp [width, hrest]
      | succ n =>
        rw [← hrest]
        apply ih
        omega
    · exact absurd h (lt_irrefl 0)

variable [IsOrderedAddMonoid α]

theorem width_pos (hpos : ∀ letter, 0 < adv letter) (h : word ≠ []) : 0 < width adv word := by
  induction word with
  | nil => exact absurd rfl h
  | cons letter word ih =>
    rw [width_cons]
    cases word with
    | nil => simpa [width] using hpos letter
    | cons next word => exact add_pos (hpos letter) (ih (List.cons_ne_nil _ _))

theorem width_fit_le (h : 0 < fit adv room word) :
    width adv (word.take (fit adv room word)) ≤ room := by
  induction word generalizing room with
  | nil => exact absurd h (lt_irrefl 0)
  | cons letter word ih =>
    rw [fit] at h ⊢
    split at h
    · rename_i hletter
      rw [if_pos hletter, List.take_succ_cons, width_cons]
      rcases Nat.eq_zero_or_pos (fit adv (room - adv letter) word) with hrest | hrest
      · rw [hrest, List.take_zero]
        simpa [width] using hletter
      · exact le_sub_iff_add_le'.mp (ih hrest)
    · exact absurd h (lt_irrefl 0)

theorem fit_after_chunk (hpos : ∀ letter, 0 < adv letter) (hne : word ≠ []) :
    fit adv (limit - width adv (word.take (chunk adv limit word)))
      (word.drop (chunk adv limit word)) = 0 := by
  rw [chunk]
  rcases Nat.eq_zero_or_pos (fit adv limit word) with h | h
  · cases word with
    | nil => exact absurd rfl hne
    | cons letter word =>
      have hletter : ¬ adv letter ≤ limit := by
        intro hle
        rw [fit, if_pos hle] at h
        omega
      rw [h, Nat.zero_max, List.take_succ_cons, List.drop_succ_cons, List.take_zero, List.drop_zero]
      cases word with
      | nil => rfl
      | cons next word =>
        rw [fit, if_neg]
        apply not_le.mpr
        apply lt_of_le_of_lt _ (hpos next)
        rw [width, List.map_singleton, List.sum_singleton, sub_nonpos]
        exact (not_le.mp hletter).le
  · rw [Nat.max_eq_left h]
    exact fit_rest h

end Letters

structure Page (γ : Type*) where
  lines : List (List (List γ))
  cur : List (List γ)

def Page.empty {γ : Type*} : Page γ := ⟨[], []⟩

def Page.all {γ : Type*} (page : Page γ) : List (List (List γ)) :=
  if page.cur = [] then page.lines else page.lines ++ [page.cur]

section Lines

variable {γ α : Type*} [AddCommGroup α] (adv : γ → α) (space limit : α)

def lineWidth (line : List (List γ)) : α :=
  (line.map (width adv)).sum + (line.length - 1) • space

theorem lineWidth_singleton (word : List γ) : lineWidth adv space [word] = width adv word := by
  simp [lineWidth]

theorem lineWidth_concat {line : List (List γ)} (h : line ≠ []) (word : List γ) :
    lineWidth adv space (line ++ [word]) = lineWidth adv space line + space + width adv word := by
  have hlength : (line ++ [word]).length - 1 = line.length - 1 + 1 := by
    have hpos := List.length_pos_of_ne_nil h
    rw [List.length_append, List.length_singleton]
    omega
  rw [lineWidth, lineWidth, hlength, succ_nsmul, List.map_append, List.sum_append,
    List.map_singleton, List.sum_singleton]
  abel

variable [LinearOrder α]

def Page.place (page : Page γ) (word : List γ) : Page γ :=
  if limit < width adv word then
    ⟨page.all ++ (breakUp adv limit word).dropLast.map ([·]), (breakUp adv limit word).getLast?.toList⟩
  else if page.cur = [] ∨ lineWidth adv space page.cur + space + width adv word ≤ limit then
    ⟨page.lines, page.cur ++ [word]⟩
  else ⟨page.lines ++ [page.cur], [word]⟩

variable {adv space limit} in
theorem Page.forall_place (Q : List γ → Prop) {page : Page γ} {word : List γ}
    (hpage : ∀ line ∈ page.all, ∀ part ∈ line, Q part) (hword : Q word)
    (hparts : ∀ part ∈ breakUp adv limit word, Q part) :
    ∀ line ∈ (page.place adv space limit word).all, ∀ part ∈ line, Q part := by
  have hcur : ∀ part ∈ page.cur, Q part := by
    intro part hpart
    have hne : page.cur ≠ [] := List.ne_nil_of_mem hpart
    apply hpage page.cur _ part hpart
    rw [Page.all, if_neg hne]
    exact List.mem_append_right _ List.mem_cons_self
  have hall : ∀ lines cur, (∀ line ∈ lines, ∀ part ∈ line, Q part) → (∀ part ∈ cur, Q part) →
      ∀ line ∈ Page.all ⟨lines, cur⟩, ∀ part ∈ line, Q part := by
    intro lines cur hlines hcur
    rw [Page.all]
    split
    · exact hlines
    · rw [List.forall_mem_append, List.forall_mem_singleton]
      exact ⟨hlines, hcur⟩
  have hlines : ∀ line ∈ page.lines, ∀ part ∈ line, Q part := by
    intro line hline
    apply hpage
    rw [Page.all]
    split
    · exact hline
    · exact List.mem_append_left _ hline
  rw [Page.place]
  split
  · apply hall
    · rw [List.forall_mem_append, List.forall_mem_map]
      refine ⟨hpage, fun part hpart other hother => ?_⟩
      rw [List.mem_singleton.mp hother]
      exact hparts part ((List.dropLast_sublist _).subset hpart)
    · intro part hpart
      rw [Option.mem_toList] at hpart
      exact hparts part (List.mem_of_mem_getLast? hpart)
  · split
    · apply hall
      · exact hlines
      · rw [List.forall_mem_append, List.forall_mem_singleton]
        exact ⟨hcur, hword⟩
    · apply hall
      · rw [List.forall_mem_append, List.forall_mem_singleton]
        exact ⟨hlines, hcur⟩
      · rw [List.forall_mem_singleton]
        exact hword

def layout (words : List (List γ)) : List (List (List γ)) :=
  (words.foldl (Page.place adv space limit) .empty).all

theorem forall_layout (Q : List γ → Prop) {words : List (List γ)} (hwords : ∀ word ∈ words, Q word)
    (hparts : ∀ word ∈ words, ∀ part ∈ breakUp adv limit word, Q part) :
    ∀ line ∈ layout adv space limit words, ∀ part ∈ line, Q part := by
  have hfold : ∀ page : Page γ, (∀ line ∈ page.all, ∀ part ∈ line, Q part) →
      ∀ line ∈ (words.foldl (Page.place adv space limit) page).all, ∀ part ∈ line, Q part := by
    induction words with
    | nil => exact fun page hpage => hpage
    | cons word words ih =>
      rw [List.forall_mem_cons] at hwords hparts
      exact fun page hpage => ih hwords.2 hparts.2 _ (page.forall_place Q hpage hwords.1 hparts.1)
  exact hfold .empty (by simp [Page.all, Page.empty])

section Fitting

variable [IsOrderedAddMonoid α]

variable {adv space limit} in
theorem lineWidth_le_append (hspace : 0 ≤ space) (line : List (List γ)) {more : List (List γ)}
    (hmore : ∀ word ∈ more, 0 ≤ width adv word) :
    lineWidth adv space line ≤ lineWidth adv space (line ++ more) := by
  have hsum : 0 ≤ (more.map (width adv)).sum := by
    apply List.sum_nonneg
    intro x hx
    obtain ⟨word, hword, rfl⟩ := List.mem_map.mp hx
    exact hmore word hword
  rw [lineWidth, lineWidth, List.map_append, List.sum_append, List.length_append]
  exact add_le_add (le_add_of_nonneg_right hsum) (nsmul_le_nsmul_left hspace (by omega))

variable {adv space limit} in
theorem foldl_place_of_fits (hspace : 0 ≤ space) {words : List (List γ)} (front : List (List γ))
    (hwords : ∀ word ∈ front ++ words, 0 ≤ width adv word)
    (hfits : lineWidth adv space (front ++ words) ≤ limit) :
    words.foldl (Page.place adv space limit) ⟨[], front⟩ = ⟨[], front ++ words⟩ := by
  induction words generalizing front with
  | nil => rw [List.foldl_nil, List.append_nil]
  | cons word words ih =>
    have hsplit : front ++ word :: words = front ++ [word] ++ words := by
      rw [List.append_assoc, List.singleton_append]
    have hline : lineWidth adv space (front ++ [word]) ≤ limit := by
      apply (lineWidth_le_append hspace _ _).trans (hsplit ▸ hfits)
      exact fun other hother => hwords other
        (List.mem_append_right _ (List.mem_cons_of_mem _ hother))
    have hfront : 0 ≤ lineWidth adv space front := by
      have h := @lineWidth_le_append _ _ _ adv space _ _ hspace [] front fun other hother =>
        hwords other (List.mem_append_left _ hother)
      simpa [lineWidth] using h
    have hplace : Page.place adv space limit ⟨[], front⟩ word = ⟨[], front ++ [word]⟩ := by
      by_cases hempty : front = []
      · subst hempty
        rw [List.nil_append, lineWidth_singleton] at hline
        rw [Page.place, if_neg (not_lt.mpr hline), if_pos (.inl rfl)]
      · rw [lineWidth_concat adv space hempty] at hline
        have hword : width adv word ≤ limit :=
          (le_add_of_nonneg_left (add_nonneg hfront hspace)).trans hline
        rw [Page.place, if_neg (not_lt.mpr hword), if_pos (.inr hline)]
    rw [List.foldl_cons, hplace, ih _ (hsplit ▸ hwords) (hsplit ▸ hfits), hsplit]

variable {adv space limit} in
theorem layout_of_fits (hspace : 0 ≤ space) {words : List (List γ)}
    (hwords : ∀ word ∈ words, 0 ≤ width adv word) (hne : words ≠ [])
    (hfits : lineWidth adv space words ≤ limit) : layout adv space limit words = [words] := by
  have hfold := foldl_place_of_fits hspace [] hwords hfits
  rw [layout, Page.empty, hfold, List.nil_append, Page.all, if_neg hne]
  rfl

end Fitting

end Lines

end AtomVibe.WordWrap
