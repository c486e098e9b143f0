import Mathlib.Data.List.Infix

/-!
A tree of directories, in which files are created one after the other, with the directories they are
in. A path is the list of its names.
-/

namespace AtomVibe.FileTree

inductive Kind
  | file
  | dir
  deriving DecidableEq

variable {α : Type*}

abbrev Tree (α : Type*) := List α → Option Kind

def Apart (p q : List α) : Prop := ¬p <+: q ∧ ¬q <+: p

theorem Apart.symm {p q : List α} (h : Apart p q) : Apart q p := ⟨h.2, h.1⟩

theorem prefix_dropLast {p path : List α} (hpath : path ≠ []) :
    p <+: path.dropLast ↔ p <+: path ∧ p ≠ path := by
  conv_rhs => rw [← List.dropLast_append_getLast hpath]
  rw [List.prefix_concat_iff]
  constructor
  · intro h
    refine ⟨.inr h, ?_⟩
    rintro rfl
    have hlength := h.length_le
    rw [List.length_append, List.length_singleton] at hlength
    omega
  · rintro ⟨h | h, hne⟩
    · exact absurd h hne
    · exact h

def bare : Tree α := fun path => if path = [] then some .dir else none

section Create

variable [DecidableEq α]

def create (tree : Tree α) (path : List α) : Option (Tree α) :=
  if path.dropLast.inits.any (fun dir => tree dir = some .file) ∨ tree path ≠ none then none
  else some fun p => if p = path then some .file else if p <+: path then some .dir else tree p

def createAll (tree : Tree α) (paths : List (List α)) : Option (Tree α) := paths.foldlM create tree

end Create

structure Holds (tree : Tree α) (files : List (List α)) : Prop where
  file : ∀ p, tree p = some .file ↔ p ∈ files
  dir : ∀ p, tree p = some .dir ↔ p = [] ∨ ∃ f ∈ files, p <+: f ∧ p ≠ f

theorem holds_bare : Holds (bare : Tree α) [] where
  file p := by
    rw [bare]
    split_ifs <;> simp
  dir p := by
    rw [bare]
    split_ifs with h <;> simp [h]

variable [DecidableEq α] {tree : Tree α} {files paths : List (List α)} {path : List α}

theorem Holds.free_iff (h : Holds tree files) (hpath : path ≠ []) :
    ¬(path.dropLast.inits.any (fun dir => tree dir = some .file) = true ∨ tree path ≠ none) ↔
      ∀ f ∈ files, Apart f path := by
  have hway : path.dropLast.inits.any (fun dir => tree dir = some .file) = true ↔
      ∃ f ∈ files, f <+: path ∧ f ≠ path := by
    simp only [List.any_eq_true, List.mem_inits, decide_eq_true_eq, h.file,
      prefix_dropLast hpath]
    exact ⟨fun ⟨f, hf, hmem⟩ => ⟨f, hmem, hf⟩, fun ⟨f, hmem, hf⟩ => ⟨f, hf, hmem⟩⟩
  have htaken : tree path ≠ none ↔ ∃ f ∈ files, path <+: f := by
    constructor
    · intro hne
      obtain ⟨kind, hkind⟩ := Option.ne_none_iff_exists'.mp hne
      cases kind with
      | file => exact ⟨path, (h.file path).mp hkind, List.prefix_rfl⟩
      | dir =>
        obtain ⟨f, hf, hbegins, -⟩ := ((h.dir path).mp hkind).resolve_left hpath
        exact ⟨f, hf, hbegins⟩
    · rintro ⟨f, hf, hbegins⟩ hnone
      by_cases heq : path = f
      · have hkind := (h.file path).mpr (heq ▸ hf)
        rw [hkind] at hnone
        cases hnone
      · have hkind := (h.dir path).mpr (.inr ⟨f, hf, hbegins, heq⟩)
        rw [hkind] at hnone
        cases hnone
  rw [hway, htaken]
  constructor
  · intro hnot f hf
    refine ⟨fun hbegins => hnot ?_, fun hbegins => hnot (.inr ⟨f, hf, hbegins⟩)⟩
    by_cases heq : f = path
    · exact .inr ⟨f, hf, heq ▸ List.prefix_rfl⟩
    · exact .inl ⟨f, hf, hbegins, heq⟩
  · rintro hapart (⟨f, hf, hbegins, -⟩ | ⟨f, hf, hbegins⟩)
    · exact (hapart f hf).1 hbegins
    · exact (hapart f hf).2 hbegins

theorem Holds.grow (h : Holds tree files) (hpath : path ≠ [])
    (hapart : ∀ f ∈ files, Apart f path) :
    ∃ next, create tree path = some next ∧ Holds next (path :: files) := by
  refine ⟨_, if_neg ((h.free_iff hpath).mpr hapart), ?_, ?_⟩
  · intro p
    rw [List.mem_cons]
    split_ifs with heq hbegins
    · simp [heq]
    · refine iff_of_false (by simp) (not_or.mpr ⟨heq, fun hp => (hapart p hp).1 hbegins⟩)
    · rw [h.file, or_iff_right heq]
  · intro p
    simp only [List.exists_mem_cons_iff]
    split_ifs with heq hbegins
    · subst heq
      refine iff_of_false (by simp) ?_
      rintro (hnil | ⟨-, hne⟩ | ⟨f, hf, hbegins, -⟩)
      · exact hpath hnil
      · exact hne rfl
      · exact (hapart f hf).2 hbegins
    · exact iff_of_true rfl (.inr (.inl ⟨hbegins, heq⟩))
    · rw [h.dir]
      constructor
      · rintro (hnil | hf)
        · exact .inl hnil
        · exact .inr (.inr hf)
      · rintro (hnil | ⟨hp, -⟩ | hf)
        · exact .inl hnil
        · exact absurd hp hbegins
        · exact .inr hf

theorem Holds.createAll_isSome (h : Holds tree files) (hpaths : ∀ path ∈ paths, path ≠ []) :
    (createAll tree paths).isSome = true ↔
      paths.Pairwise Apart ∧ ∀ path ∈ paths, ∀ f ∈ files, Apart f path := by
  induction paths generalizing tree files with
  | nil => simp [createAll]
  | cons path paths ih =>
    rw [List.forall_mem_cons] at hpaths
    rw [createAll, List.foldlM_cons, List.pairwise_cons, List.forall_mem_cons]
    by_cases hapart : ∀ f ∈ files, Apart f path
    · obtain ⟨next, hnext, hholds⟩ := h.grow hpaths.1 hapart
      rw [hnext]
      refine (ih hholds hpaths.2).trans ?_
      simp only [List.forall_mem_cons]
      constructor
      · rintro ⟨hpairwise, hrest⟩
        exact ⟨⟨fun p hp => (hrest p hp).1, hpairwise⟩, hapart, fun p hp => (hrest p hp).2⟩
      · rintro ⟨⟨hfirst, hpairwise⟩, -, hrest⟩
        exact ⟨hpairwise, fun p hp => ⟨hfirst p hp, hrest p hp⟩⟩
    · have hnone : create tree path = none := by
        rw [create, if_pos]
        by_contra hfree
        exact hapart ((h.free_iff hpaths.1).mp hfree)
      rw [hnone]
      exact iff_of_false (by simp) fun hall => hapart hall.2.1

theorem createAll_bare_isSome (hpaths : ∀ path ∈ paths, path ≠ []) :
    (createAll bare paths).isSome = true ↔ paths.Pairwise Apart := by
  rw [holds_bare.createAll_isSome hpaths]
  exact and_iff_left fun _ _ => by simp

end AtomVibe.FileTree
