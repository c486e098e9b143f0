import Mathlib.Data.List.Basic
import Mathlib.Data.List.TakeWhile

namespace AtomVibe.SpacedWords

variable {α : Type*} (blank : α → Bool)

def words (text : List α) : List (List α) := (text.splitOnP blank).filter fun word => !word.isEmpty

inductive Spaced : List α → List (List α × List α) → Prop
  | blanks {gap : List α} (h : ∀ c ∈ gap, blank c = true) : Spaced gap []
  | word {gap word rest : List α} {tokens : List (List α × List α)}
      (hgap : ∀ c ∈ gap, blank c = true) (hword : ∀ c ∈ word, blank c = false) (hne : word ≠ [])
      (hends : ∀ c ∈ rest.head?, blank c = true) (more : Spaced rest tokens) :
      Spaced (gap ++ (word ++ rest)) ((gap, word) :: tokens)

variable {blank}

theorem Spaced.blank_cons {c : α} {text : List α} (hc : blank c = true)
    {tokens : List (List α × List α)} (h : Spaced blank text tokens) :
    ∃ tokens, Spaced blank (c :: text) tokens := by
  cases h with
  | blanks h => exact ⟨[], .blanks (List.forall_mem_cons.mpr ⟨hc, h⟩)⟩
  | word hgap hword hne hends more =>
    exact ⟨_, .word (List.forall_mem_cons.mpr ⟨hc, hgap⟩) hword hne hends more⟩

theorem Spaced.letter_cons {c : α} {text : List α} (hc : blank c = false)
    {tokens : List (List α × List α)} (h : Spaced blank text tokens) :
    ∃ tokens, Spaced blank (c :: text) tokens := by
  have hletter : ∀ d ∈ [c], blank d = false := by simpa using hc
  have hempty : ∀ d ∈ ([] : List α), blank d = true := by simp
  cases h with
  | blanks h =>
    have hends : ∀ d ∈ text.head?, blank d = true := fun d hd => h d (List.mem_of_mem_head? hd)
    exact ⟨_, .word hempty hletter (List.cons_ne_nil _ _) hends (.blanks h)⟩
  | @word gap word rest tokens hgap hword hne hends more =>
    cases gap with
    | nil =>
      have hlonger : ∀ d ∈ c :: word, blank d = false := List.forall_mem_cons.mpr ⟨hc, hword⟩
      exact ⟨_, .word hempty hlonger (List.cons_ne_nil _ _) hends more⟩
    | cons d gap =>
      have hstarts : ∀ e ∈ (d :: gap ++ (word ++ rest)).head?, blank e = true := by
        intro e he
        obtain rfl := Option.some.inj he
        exact hgap d List.mem_cons_self
      exact ⟨_, .word hempty hletter (List.cons_ne_nil _ _) hstarts (.word hgap hword hne hends more)⟩

variable (blank) in
theorem exists_spaced (text : List α) : ∃ tokens, Spaced blank text tokens := by
  induction text with
  | nil => exact ⟨[], .blanks (by simp)⟩
  | cons c text ih =>
    obtain ⟨tokens, h⟩ := ih
    cases hc : blank c with
    | true => exact h.blank_cons hc
    | false => exact h.letter_cons hc

theorem words_cons {c : α} (h : blank c = true) (text : List α) :
    words blank (c :: text) = words blank text := by
  rw [words, List.splitOnP_cons_eq_if_modifyHead, if_pos h, List.filter_cons_of_neg (by simp), words]

theorem words_gap {gap : List α} (h : ∀ c ∈ gap, blank c = true) (text : List α) :
    words blank (gap ++ text) = words blank text := by
  induction gap with
  | nil => rfl
  | cons c gap ih =>
    rw [List.forall_mem_cons] at h
    rw [List.cons_append, words_cons h.1, ih h.2]

theorem words_word {word : List α} (h : ∀ c ∈ word, blank c = false) (hne : word ≠ []) :
    words blank word = [word] := by
  rw [words, List.splitOnP_eq_singleton h, List.filter_cons_of_pos (by simpa using hne)]
  rfl

theorem words_append {text rest : List α} (hends : ∀ c ∈ rest.head?, blank c = true) :
    words blank (text ++ rest) = words blank text ++ words blank rest := by
  cases rest with
  | nil => simp [words]
  | cons c rest =>
    have hc : blank c = true := hends c rfl
    rw [words_cons hc, words, List.splitOnP_append_cons text rest hc, List.filter_append, words, words]

theorem Spaced.words_eq {text : List α} {tokens : List (List α × List α)}
    (h : Spaced blank text tokens) : words blank text = tokens.map Prod.snd := by
  induction h with
  | @blanks gap h =>
    have hgap := words_gap h []
    rw [List.append_nil] at hgap
    rw [hgap]
    rfl
  | word hgap hword hne hends more ih =>
    rw [words_gap hgap, words_append hends, words_word hword hne, ih]
    rfl

theorem Spaced.letters {text : List α} {tokens : List (List α × List α)}
    (h : Spaced blank text tokens) {word : List α} (hword : word ∈ tokens.map Prod.snd) :
    word ≠ [] ∧ ∀ c ∈ word, blank c = false := by
  induction h with
  | blanks _ => cases hword
  | word _ hletters hne _ _ ih =>
    rw [List.map_cons, List.mem_cons] at hword
    rcases hword with rfl | hword
    · exact ⟨hne, hletters⟩
    · exact ih hword

variable (blank) in
theorem letters_of_mem_words {text word : List α} (h : word ∈ words blank text) :
    word ≠ [] ∧ ∀ c ∈ word, blank c = false := by
  obtain ⟨tokens, hspaced⟩ := exists_spaced blank text
  rw [hspaced.words_eq] at h
  exact hspaced.letters h

theorem Spaced.gap_ne_nil {text gap word : List α} {tokens : List (List α × List α)}
    (h : Spaced blank text ((gap, word) :: tokens)) (hends : ∀ c ∈ text.head?, blank c = true) :
    gap ≠ [] := by
  cases h with
  | word hgap hword hne _ more =>
    rintro rfl
    cases word with
    | nil => exact hne rfl
    | cons c word =>
      have hletter := hword c List.mem_cons_self
      rw [hends c rfl] at hletter
      cases hletter

end AtomVibe.SpacedWords

namespace AtomVibe.WordStream

open SpacedWords

structure Builder (β : Type*) where
  words : List (Bool × List β)
  opened : Option (Bool × List β)
  pending : Bool

variable {β : Type*} (blank : β → Bool)

namespace Builder

def empty : Builder β := ⟨[], none, false⟩

def add (s : Builder β) (item : β) : Builder β :=
  if blank item then ⟨s.words ++ s.opened.toList, none, true⟩
  else match s.opened with
    | some word => { s with opened := some (word.1, word.2 ++ [item]) }
    | none => ⟨s.words, some (s.pending, [item]), false⟩

def all (s : Builder β) : List (Bool × List β) := s.words ++ s.opened.toList

end Builder

def build (items : List β) : List (Bool × List β) :=
  (items.foldl (Builder.add blank) .empty).all

variable {blank} {s : Builder β} {item : β}

theorem add_blank (h : blank item = true) :
    s.add blank item = ⟨s.words ++ s.opened.toList, none, true⟩ := by
  rw [Builder.add, if_pos h]

theorem add_opened (h : blank item = false) {word : Bool × List β} (hopened : s.opened = some word) :
    s.add blank item = { s with opened := some (word.1, word.2 ++ [item]) } := by
  rw [Builder.add, if_neg (by rw [h]; exact Bool.false_ne_true), hopened]

theorem add_closed (h : blank item = false) (hopened : s.opened = none) :
    s.add blank item = ⟨s.words, some (s.pending, [item]), false⟩ := by
  rw [Builder.add, if_neg (by rw [h]; exact Bool.false_ne_true), hopened]

theorem foldl_add_words (front : List (Bool × List β)) (items : List β) (s : Builder β) :
    items.foldl (Builder.add blank) { s with words := front ++ s.words } =
      { items.foldl (Builder.add blank) s with
        words := front ++ (items.foldl (Builder.add blank) s).words } := by
  induction items generalizing s with
  | nil => rfl
  | cons item items ih =>
    obtain ⟨words, opened, pending⟩ := s
    rw [List.foldl_cons, List.foldl_cons, ← ih]
    congr 1
    cases hitem : blank item with
    | true => rw [add_blank hitem, add_blank hitem, List.append_assoc]
    | false =>
      cases opened with
      | none => rw [add_closed hitem rfl, add_closed hitem rfl]
      | some word => rw [add_opened hitem rfl, add_opened hitem rfl]

theorem all_foldl_words (front : List (Bool × List β)) (items : List β)
    (opened : Option (Bool × List β)) (pending : Bool) :
    (items.foldl (Builder.add blank) ⟨front, opened, pending⟩).all =
      front ++ (items.foldl (Builder.add blank) ⟨[], opened, pending⟩).all := by
  have hwords := @foldl_add_words _ blank front items ⟨[], opened, pending⟩
  rw [List.append_nil] at hwords
  rw [hwords, Builder.all, Builder.all, List.append_assoc]

theorem foldl_add_gap {gap : List β} (hgap : ∀ c ∈ gap, blank c = true) (hne : gap ≠ [])
    (s : Builder β) :
    gap.foldl (Builder.add blank) s = ⟨s.words ++ s.opened.toList, none, true⟩ := by
  induction gap generalizing s with
  | nil => exact absurd rfl hne
  | cons c gap ih =>
    rw [List.forall_mem_cons] at hgap
    rw [List.foldl_cons, add_blank hgap.1]
    cases gap with
    | nil => rfl
    | cons d gap =>
      rw [ih hgap.2 (List.cons_ne_nil _ _), Option.toList_none, List.append_nil]

theorem foldl_add_opened {run : List β} (hrun : ∀ c ∈ run, blank c = false)
    {word : Bool × List β} (hopened : s.opened = some word) :
    run.foldl (Builder.add blank) s = { s with opened := some (word.1, word.2 ++ run) } := by
  induction run generalizing s word with
  | nil =>
    rw [List.foldl_nil, List.append_nil, ← hopened]
  | cons c run ih =>
    rw [List.forall_mem_cons] at hrun
    rw [List.foldl_cons, add_opened hrun.1 hopened, ih hrun.2 rfl, List.append_assoc,
      List.singleton_append]

theorem foldl_add_closed {run : List β} (hrun : ∀ c ∈ run, blank c = false) (hne : run ≠ [])
    (hopened : s.opened = none) :
    run.foldl (Builder.add blank) s = ⟨s.words, some (s.pending, run), false⟩ := by
  cases run with
  | nil => exact absurd rfl hne
  | cons c run =>
    rw [List.forall_mem_cons] at hrun
    rw [List.foldl_cons, add_closed hrun.1 hopened, foldl_add_opened hrun.2 rfl,
      List.singleton_append]

def spacedWord (token : List β × List β) : Bool × List β := (!token.1.isEmpty, token.2)

theorem all_foldl_spaced {text : List β} {tokens : List (List β × List β)}
    (h : Spaced blank text tokens) (hpending : s.pending = false)
    (hopened : s.opened.isSome → ∀ c ∈ text.head?, blank c = true) :
    (text.foldl (Builder.add blank) s).all = s.all ++ tokens.map spacedWord := by
  induction h generalizing s with
  | @blanks gap hgap =>
    rw [List.map_nil, List.append_nil]
    by_cases hne : gap = []
    · rw [hne, List.foldl_nil]
    · rw [foldl_add_gap hgap hne, Builder.all, Builder.all, Option.toList_none, List.append_nil]
  | @word gap word rest tokens hgap hword hne hends more ih =>
    have hrest : ∀ s : Builder β, s.opened = none →
        ((word ++ rest).foldl (Builder.add blank) s).all =
          s.words ++ (s.pending, word) :: tokens.map spacedWord := by
      intro s hnone
      rw [List.foldl_append, foldl_add_closed hword hne hnone, ih rfl fun _ => hends, Builder.all,
        Option.toList_some, List.append_assoc, List.singleton_append]
    rw [List.map_cons, List.foldl_append, spacedWord]
    by_cases hgapped : gap = []
    · subst hgapped
      have hnone : s.opened = none := by
        cases hsome : s.opened with
        | none => rfl
        | some opened =>
          obtain ⟨c, word, rfl⟩ := List.exists_cons_of_ne_nil hne
          have hblank := hopened (by rw [hsome]; rfl) c rfl
          rw [hword c List.mem_cons_self] at hblank
          cases hblank
      rw [List.foldl_nil, hrest s hnone, hpending, Builder.all, hnone, Option.toList_none,
        List.append_nil]
      rfl
    · rw [foldl_add_gap hgap hgapped, hrest _ rfl, Builder.all]
      simp [hgapped]

theorem build_spaced {text : List β} {tokens : List (List β × List β)}
    (h : Spaced blank text tokens) : build blank text = tokens.map spacedWord :=
  all_foldl_spaced h rfl (by simp [Builder.empty])

theorem letters_of_mem_build {items : List β} {word : Bool × List β} (h : word ∈ build blank items) :
    word.2 ≠ [] ∧ ∀ c ∈ word.2, blank c = false := by
  obtain ⟨tokens, hspaced⟩ := exists_spaced blank items
  rw [build_spaced hspaced] at h
  obtain ⟨token, htoken, rfl⟩ := List.mem_map.mp h
  exact hspaced.letters (List.mem_map_of_mem htoken)

theorem build_map {γ : Type*} {blank' : γ → Bool} {f : β → γ}
    (hblank : ∀ item, blank' (f item) = blank item) (items : List β) :
    build blank' (items.map f) = (build blank items).map fun word => (word.1, word.2.map f) := by
  obtain ⟨tokens, h⟩ := exists_spaced blank items
  have hmapped : Spaced blank' (items.map f) (tokens.map fun token => (token.1.map f, token.2.map f)) := by
    induction h with
    | blanks hgap =>
      apply Spaced.blanks
      intro c hc
      obtain ⟨item, hitem, rfl⟩ := List.mem_map.mp hc
      rw [hblank, hgap item hitem]
    | word hgap hword hne hends more ih =>
      rw [List.map_append, List.map_append, List.map_cons]
      apply Spaced.word _ _ _ _ ih
      · intro c hc
        obtain ⟨item, hitem, rfl⟩ := List.mem_map.mp hc
        rw [hblank, hgap item hitem]
      · intro c hc
        obtain ⟨item, hitem, rfl⟩ := List.mem_map.mp hc
        rw [hblank, hword item hitem]
      · simpa using hne
      · intro c hc
        rw [List.head?_map] at hc
        obtain ⟨item, hitem, rfl⟩ := Option.map_eq_some_iff.mp hc
        rw [hblank, hends item hitem]
  rw [build_spaced hmapped, build_spaced h, List.map_map, List.map_map]
  apply List.map_congr_left
  intro token _
  simp [spacedWord]

variable (blank) in
def leading (items : List β) : List β :=
  (items.dropWhile blank).takeWhile fun item => !blank item

theorem all_foldl_opened (front : List (Bool × List β)) (word : Bool × List β) (pending : Bool)
    (items : List β) :
    (items.foldl (Builder.add blank) ⟨front, some word, pending⟩).all =
      front ++ (word.1, word.2 ++ items.takeWhile fun item => !blank item) ::
        build blank (items.dropWhile fun item => !blank item) := by
  have hrun : ∀ c ∈ items.takeWhile (fun item => !blank item), blank c = false := by
    intro c hc
    simpa using List.mem_takeWhile_imp hc
  have hsplit : items.takeWhile (fun item => !blank item) ++
      items.dropWhile (fun item => !blank item) = items := List.takeWhile_append_dropWhile
  generalize items.takeWhile (fun item => !blank item) = run at hrun hsplit
  have hhead : ∀ c ∈ (items.dropWhile fun item => !blank item).head?, blank c = true := by
    intro c hc
    have hstop := List.head?_dropWhile_not (fun item => !blank item) items
    rw [Option.mem_def.mp hc] at hstop
    simpa using hstop
  generalize items.dropWhile (fun item => !blank item) = rest at hsplit hhead
  rw [← hsplit, List.foldl_append, foldl_add_opened hrun rfl]
  cases rest with
  | nil => rfl
  | cons c rest =>
    have hc := hhead c rfl
    rw [List.foldl_cons, add_blank hc, all_foldl_words, build, List.foldl_cons, add_blank hc,
      Option.toList_some, List.append_assoc, List.singleton_append]
    rfl

theorem build_blank_cons {c : β} (hc : blank c = true) (items : List β) :
    build blank (c :: items) =
      if leading blank (c :: items) = [] then []
      else (true, leading blank (c :: items)) ::
        build blank ((items.dropWhile blank).dropWhile fun item => !blank item) := by
  have hgap : ∀ d ∈ c :: items.takeWhile blank, blank d = true := by
    rw [List.forall_mem_cons]
    exact ⟨hc, fun d hd => List.mem_takeWhile_imp hd⟩
  have hsplit : c :: items = (c :: items.takeWhile blank) ++ items.dropWhile blank := by
    rw [List.cons_append, List.takeWhile_append_dropWhile]
  have hleading : leading blank (c :: items) =
      (items.dropWhile blank).takeWhile fun item => !blank item := by
    rw [leading, List.dropWhile_cons_of_pos hc]
  have hhead : ∀ d ∈ (items.dropWhile blank).head?, blank d = false := by
    intro d hd
    have hstop := List.head?_dropWhile_not blank items
    rw [Option.mem_def.mp hd] at hstop
    exact hstop
  rw [hleading, hsplit, build, List.foldl_append, foldl_add_gap hgap (List.cons_ne_nil _ _)]
  generalize items.dropWhile blank = rest at hhead ⊢
  cases rest with
  | nil => rfl
  | cons d rest =>
    have hd := hhead d rfl
    have htake : (d :: rest).takeWhile (fun item => !blank item) =
        d :: rest.takeWhile fun item => !blank item := List.takeWhile_cons_of_pos (by simp [hd])
    have hdrop : (d :: rest).dropWhile (fun item => !blank item) =
        rest.dropWhile fun item => !blank item := List.dropWhile_cons_of_pos (by simp [hd])
    rw [List.foldl_cons, add_closed hd rfl, all_foldl_opened, htake, if_neg (List.cons_ne_nil _ _),
      hdrop, List.singleton_append]
    rfl

theorem build_eq_nil_of_blanks {items : List β} (h : ∀ c ∈ items, blank c = true) :
    build blank items = [] := build_spaced (.blanks h)

theorem build_eq_nil_iff {items : List β} :
    build blank items = [] ↔ ∀ c ∈ items, blank c = true := by
  obtain ⟨tokens, h⟩ := exists_spaced blank items
  refine ⟨fun hnil => ?_, build_eq_nil_of_blanks⟩
  rw [build_spaced h, List.map_eq_nil_iff] at hnil
  subst hnil
  cases h with
  | blanks hgap => exact hgap

theorem build_insert (hitem : blank item = false) (front back : List β) :
    (∃ words space u v more, build blank (front ++ back) = words ++ (space, u ++ v) :: more ∧
        build blank (front ++ item :: back) = words ++ (space, u ++ item :: v) :: more ∧
        ¬ ((∀ c ∈ front, blank c = true) ∧ ∀ c ∈ back.head?, blank c = true)) ∨
      ((∀ c ∈ back.head?, blank c = true) ∧
        build blank (front ++ back) = build blank front ++ build blank back ∧
        ∃ space, build blank (front ++ item :: back) =
          build blank front ++ (space, [item]) :: build blank back) := by
  have hblanks : (∀ c ∈ front, blank c = true) →
      (front.foldl (Builder.add blank) .empty).opened = none := by
    intro hfront
    by_cases hne : front = []
    · rw [hne]
      rfl
    · rw [foldl_add_gap hfront hne]
  rw [build, build, List.foldl_append, List.foldl_append, List.foldl_cons, build, build]
  generalize front.foldl (Builder.add blank) .empty = s at hblanks
  obtain ⟨words, opened, pending⟩ := s
  cases opened with
  | some word =>
    left
    refine ⟨words, word.1, word.2, _, _, all_foldl_opened _ _ _ _, ?_, fun h => ?_⟩
    · rw [add_opened hitem rfl, all_foldl_opened, List.append_assoc, List.singleton_append]
    · cases hblanks h.1
  | none =>
    rw [add_closed hitem rfl]
    cases back with
    | nil =>
      right
      refine ⟨by simp, ?_, pending, ?_⟩
      · simp [Builder.all, Builder.empty]
      · simp [Builder.all, Builder.empty]
    | cons c back =>
      cases hc : blank c with
      | true =>
        right
        rw [List.foldl_cons, List.foldl_cons, List.foldl_cons, add_blank hc, add_blank hc,
          add_blank hc, all_foldl_words, all_foldl_words (words ++ _)]
        refine ⟨?_, rfl, pending, ?_⟩
        · intro d hd
          rw [← Option.some.inj hd]
          exact hc
        · simp [Builder.all, Builder.empty]
      | false =>
        left
        rw [List.foldl_cons, List.foldl_cons, add_closed hc rfl, add_opened hc rfl,
          all_foldl_opened, all_foldl_opened]
        refine ⟨words, pending, [], c :: back.takeWhile fun item => !blank item, _, rfl, rfl, ?_⟩
        intro h
        have hblank := h.2 c rfl
        rw [hc] at hblank
        cases hblank

end AtomVibe.WordStream
