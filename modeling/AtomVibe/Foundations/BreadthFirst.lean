import Mathlib.Data.List.Nodup
import Mathlib.Data.Finset.Card
import Mathlib.Combinatorics.SimpleGraph.Paths

/-!
Breadth-first search for one vertex of a finite graph, with a bound on the depth. A vertex is marked
when it leaves the queue, with the depth it entered the queue at.
-/

namespace AtomVibe.BreadthFirst

structure Network (α : Type*) where
  next : α → List α
  vertices : List α
  isolated : ∀ x, x ∉ vertices → next x = []

variable {α : Type*}

inductive Trail (net : Network α) (source : α) : ℕ → α → Prop
  | start : Trail net source 0 source
  | step {k : ℕ} {x y : α} : Trail net source k x → y ∈ net.next x → Trail net source (k + 1) y

theorem Trail.head {net : Network α} {source x y : α} {k : ℕ} (hx : x ∈ net.next source)
    (h : Trail net x k y) : Trail net source (k + 1) y := by
  induction h with
  | start => exact .step .start hx
  | step _ hy ih => exact .step ih hy

def atDepth (depth : ℕ) (xs : List α) : List (α × ℕ) := xs.map fun x => (x, depth)

section Search

variable [DecidableEq α] (net : Network α) (target : α) (maxDepth : ℕ)

def unseen (seen : List α) : Finset α := net.vertices.toFinset.filter (· ∉ seen)

theorem card_unseen_lt {seen : List α} {x : α} (hseen : x ∉ seen) (hx : x ∈ net.vertices) :
    (unseen net (x :: seen)).card < (unseen net seen).card := by
  apply Finset.card_lt_card
  constructor
  · intro y hy
    simp only [unseen, Finset.mem_filter, List.mem_cons, not_or] at hy ⊢
    exact ⟨hy.1, hy.2.2⟩
  · intro hsub
    have hmem : x ∈ unseen net (x :: seen) :=
      hsub (by simp only [unseen, Finset.mem_filter, List.mem_toFinset]; exact ⟨hx, hseen⟩)
    simp [unseen] at hmem

theorem card_unseen_le (seen : List α) (x : α) :
    (unseen net (x :: seen)).card ≤ (unseen net seen).card := by
  apply Finset.card_le_card
  intro y hy
  simp only [unseen, Finset.mem_filter, List.mem_cons, not_or] at hy ⊢
  exact ⟨hy.1, hy.2.2⟩

def search : List α → List (α × ℕ) → Bool
  | _, [] => false
  | seen, (x, depth) :: queue =>
    if x ∈ seen then search seen queue
    else if maxDepth ≤ depth then search (x :: seen) queue
    else if target ∈ net.next x then true
    else search (x :: seen) (queue ++ atDepth (depth + 1) (net.next x))
termination_by seen queue => ((unseen net seen).card, queue.length)
decreasing_by
  · exact .right _ (by simp)
  · exact Prod.lex_iff.mpr ((card_unseen_le net seen x).lt_or_eq.imp id fun h => ⟨h, by simp⟩)
  · rename_i hseen _ _
    by_cases hx : x ∈ net.vertices
    · exact .left _ _ (card_unseen_lt net hseen hx)
    · refine Prod.lex_iff.mpr ((card_unseen_le net seen x).lt_or_eq.imp id fun h => ⟨h, ?_⟩)
      simp [net.isolated x hx, atDepth]

end Search

variable {net : Network α} {target : α} {maxDepth : ℕ}

theorem search_sound [DecidableEq α] {source : α} {seen : List α} {queue : List (α × ℕ)}
    (hqueue : ∀ entry ∈ queue, Trail net source entry.2 entry.1)
    (h : search net target maxDepth seen queue = true) :
    ∃ k ≤ maxDepth, Trail net source k target := by
  fun_induction search net target maxDepth seen queue with
  | case1 seen => contradiction
  | case2 seen x depth queue hseen ih =>
    exact ih (fun entry hentry => hqueue entry (List.mem_cons_of_mem _ hentry)) h
  | case3 seen x depth queue hseen hdepth ih =>
    exact ih (fun entry hentry => hqueue entry (List.mem_cons_of_mem _ hentry)) h
  | case4 seen x depth queue hseen hdepth htarget =>
    have hx := hqueue (x, depth) List.mem_cons_self
    exact ⟨depth + 1, by omega, .step hx htarget⟩
  | case5 seen x depth queue hseen hdepth htarget ih =>
    have hx := hqueue (x, depth) List.mem_cons_self
    refine ih (fun entry hentry => ?_) h
    rcases List.mem_append.mp hentry with hentry | hentry
    · exact hqueue entry (List.mem_cons_of_mem _ hentry)
    · obtain ⟨y, hy, rfl⟩ := List.mem_map.mp hentry
      exact .step hx hy

def Found (seen : List α) (queue : List (α × ℕ)) (depth : α → ℕ) (x : α) (bound : ℕ) : Prop :=
  (x ∈ seen ∧ depth x ≤ bound) ∨ ∃ d ≤ bound, (x, d) ∈ queue

structure Levels (net : Network α) (target : α) (maxDepth : ℕ) (source : α) (seen : List α)
    (queue : List (α × ℕ)) (depth : α → ℕ) (level : ℕ) : Prop where
  sorted : queue.Pairwise fun a b => a.2 ≤ b.2
  within : ∀ entry ∈ queue, level ≤ entry.2 ∧ entry.2 ≤ level + 1
  marked : ∀ x ∈ seen, depth x ≤ level
  closed : ∀ x ∈ seen, depth x < maxDepth → ∀ y ∈ net.next x,
    y ≠ target ∧ Found seen queue depth y (depth x + 1)
  start : Found seen queue depth source 0

variable {source : α} {seen : List α} {queue : List (α × ℕ)} {depth : α → ℕ} {level d : ℕ} {x : α}

theorem levels_start : Levels net target maxDepth source [] [(source, 0)] (fun _ => 0) 0 where
  sorted := List.pairwise_singleton _ _
  within := by simp
  marked := by simp
  closed := by simp
  start := .inr ⟨0, le_refl 0, List.mem_singleton.mpr rfl⟩

theorem Found.skip {y : α} {bound : ℕ} (hx : x ∈ seen) (hdepth : depth x ≤ d)
    (h : Found seen ((x, d) :: queue) depth y bound) : Found seen queue depth y bound := by
  rcases h with h | ⟨e, he, hmem⟩
  · exact .inl h
  · rcases List.mem_cons.mp hmem with heq | hmem
    · obtain ⟨rfl, rfl⟩ := Prod.mk.inj heq
      exact .inl ⟨hx, by omega⟩
    · exact .inr ⟨e, he, hmem⟩

theorem Found.mark [DecidableEq α] {y : α} {bound : ℕ} (hx : x ∉ seen)
    (h : Found seen ((x, d) :: queue) depth y bound) :
    Found (x :: seen) queue (Function.update depth x d) y bound := by
  rcases h with ⟨hy, hbound⟩ | ⟨e, he, hmem⟩
  · have hne : y ≠ x := fun heq => hx (heq ▸ hy)
    exact .inl ⟨List.mem_cons_of_mem _ hy, by rwa [Function.update_of_ne hne]⟩
  · rcases List.mem_cons.mp hmem with heq | hmem
    · obtain ⟨rfl, rfl⟩ := Prod.mk.inj heq
      exact .inl ⟨List.mem_cons_self, by rwa [Function.update_self]⟩
    · exact .inr ⟨e, he, hmem⟩

theorem Found.grow {y : α} {bound : ℕ} (added : List (α × ℕ)) (h : Found seen queue depth y bound) :
    Found seen (queue ++ added) depth y bound := by
  rcases h with h | ⟨e, he, hmem⟩
  · exact .inl h
  · exact .inr ⟨e, he, List.mem_append_left _ hmem⟩

namespace Levels

theorem depths (h : Levels net target maxDepth source seen ((x, d) :: queue) depth level) :
    ∀ entry ∈ queue, d ≤ entry.2 ∧ entry.2 ≤ d + 1 := by
  intro entry hentry
  have hfirst := h.within (x, d) List.mem_cons_self
  have hlater := h.within entry (List.mem_cons_of_mem _ hentry)
  have hsorted := (List.pairwise_cons.mp h.sorted).1 entry hentry
  exact ⟨hsorted, by simp only at *; omega⟩

theorem skip (h : Levels net target maxDepth source seen ((x, d) :: queue) depth level)
    (hx : x ∈ seen) : Levels net target maxDepth source seen queue depth level where
  sorted := (List.pairwise_cons.mp h.sorted).2
  within entry hentry := h.within entry (List.mem_cons_of_mem _ hentry)
  marked := h.marked
  closed u hu hlt y hy := by
    have hdepth := (h.marked x hx).trans (h.within (x, d) List.mem_cons_self).1
    obtain ⟨hne, hfound⟩ := h.closed u hu hlt y hy
    exact ⟨hne, hfound.skip hx hdepth⟩
  start := h.start.skip hx ((h.marked x hx).trans (h.within (x, d) List.mem_cons_self).1)

theorem expand [DecidableEq α] (h : Levels net target maxDepth source seen ((x, d) :: queue) depth level)
    (hx : x ∉ seen) (added : List α)
    (hnext : d < maxDepth → target ∉ net.next x ∧ net.next x ⊆ added) :
    Levels net target maxDepth source (x :: seen) (queue ++ atDepth (d + 1) added)
      (Function.update depth x d) d where
  sorted := by
    rw [List.pairwise_append]
    refine ⟨(List.pairwise_cons.mp h.sorted).2, ?_, ?_⟩
    · exact List.pairwise_map.mpr (List.pairwise_of_forall fun _ _ => le_refl _)
    · intro a ha b hb
      obtain ⟨y, -, rfl⟩ := List.mem_map.mp hb
      exact (h.depths a ha).2
  within entry hentry := by
    rcases List.mem_append.mp hentry with hentry | hentry
    · exact h.depths entry hentry
    · obtain ⟨y, -, rfl⟩ := List.mem_map.mp hentry
      simp
  marked u hu := by
    rcases List.mem_cons.mp hu with rfl | hu
    · rw [Function.update_self]
    · have hne : u ≠ x := fun heq => hx (heq ▸ hu)
      rw [Function.update_of_ne hne]
      exact (h.marked u hu).trans (h.within (x, d) List.mem_cons_self).1
  closed u hu hlt y hy := by
    rcases List.mem_cons.mp hu with rfl | hu
    · rw [Function.update_self] at hlt ⊢
      obtain ⟨htarget, hsub⟩ := hnext hlt
      refine ⟨fun heq => htarget (heq ▸ hy), .inr ⟨d + 1, le_refl _, ?_⟩⟩
      exact List.mem_append_right _ (List.mem_map_of_mem (hsub hy))
    · have hne : u ≠ x := fun heq => hx (heq ▸ hu)
      rw [Function.update_of_ne hne] at hlt ⊢
      obtain ⟨hy', hfound⟩ := h.closed u hu hlt y hy
      exact ⟨hy', (hfound.mark hx).grow _⟩
  start := (h.start.mark hx).grow _

theorem reached (h : Levels net target maxDepth source seen [] depth level) {k : ℕ} {y : α}
    (htrail : Trail net source k y) (hk : k ≤ maxDepth) :
    y ∈ seen ∧ depth y ≤ k ∧ (y = target → k = 0) := by
  have hfound : ∀ {z bound}, Found seen [] depth z bound → z ∈ seen ∧ depth z ≤ bound := by
    rintro z bound (h | ⟨e, -, hmem⟩)
    · exact h
    · contradiction
  induction htrail with
  | start =>
    obtain ⟨hseen, hdepth⟩ := hfound h.start
    exact ⟨hseen, hdepth, fun _ => rfl⟩
  | step _ hz ih =>
    obtain ⟨hseen, hdepth, -⟩ := ih (by omega)
    obtain ⟨hne, hnext⟩ := h.closed _ hseen (by omega) _ hz
    obtain ⟨hseen', hdepth'⟩ := hfound hnext
    exact ⟨hseen', by omega, fun heq => absurd heq hne⟩

end Levels

theorem search_complete [DecidableEq α] (h : Levels net target maxDepth source seen queue depth level)
    (hsearch : search net target maxDepth seen queue = false) {k : ℕ}
    (htrail : Trail net source k target) (hk : k ≤ maxDepth) : k = 0 := by
  fun_induction search net target maxDepth seen queue generalizing depth level with
  | case1 seen => exact (h.reached htrail hk).2.2 rfl
  | case2 seen x d queue hseen ih => exact ih (h.skip hseen) hsearch
  | case3 seen x d queue hseen hdepth ih =>
    have hexpand := h.expand hseen [] (fun hlt => absurd hlt (by omega))
    rw [atDepth, List.map_nil, List.append_nil] at hexpand
    exact ih hexpand hsearch
  | case4 seen x d queue hseen hdepth htarget => contradiction
  | case5 seen x d queue hseen hdepth htarget ih =>
    exact ih (h.expand hseen _ fun _ => ⟨htarget, List.Subset.refl _⟩) hsearch

theorem search_iff [DecidableEq α] (hne : source ≠ target) :
    search net target maxDepth [] [(source, 0)] = true ↔
      ∃ k ≤ maxDepth, Trail net source k target := by
  constructor
  · intro h
    refine search_sound (fun entry hentry => ?_) h
    rw [List.mem_singleton.mp hentry]
    exact .start
  · rintro ⟨k, hk, htrail⟩
    by_contra hsearch
    have hzero := search_complete levels_start (Bool.not_eq_true _ ▸ hsearch) htrail hk
    subst hzero
    cases htrail
    exact hne rfl

section Undirected

variable {graph : SimpleGraph α} (hgraph : ∀ {x y}, graph.Adj x y ↔ x ≠ y ∧ y ∈ net.next x)

include hgraph

theorem Trail.exists_walk {k : ℕ} (h : Trail net source k x) :
    ∃ walk : graph.Walk source x, walk.length ≤ k := by
  induction h with
  | start => exact ⟨.nil, le_refl 0⟩
  | @step k x y _ hy ih =>
    obtain ⟨walk, hwalk⟩ := ih
    by_cases heq : x = y
    · subst heq
      exact ⟨walk, by omega⟩
    · exact ⟨walk.concat (hgraph.mpr ⟨heq, hy⟩), by rw [SimpleGraph.Walk.length_concat]; omega⟩

theorem trail_of_walk (walk : graph.Walk source x) : Trail net source walk.length x := by
  induction walk with
  | nil => exact .start
  | cons hadj _ ih => exact ih.head (hgraph.mp hadj).2

theorem exists_trail_iff_path [DecidableEq α] :
    (∃ k ≤ maxDepth, Trail net source k x) ↔
      ∃ path : graph.Walk source x, path.IsPath ∧ path.length ≤ maxDepth := by
  constructor
  · rintro ⟨k, hk, htrail⟩
    obtain ⟨walk, hwalk⟩ := htrail.exists_walk hgraph
    have hbypass := walk.length_bypass_le_length
    exact ⟨walk.bypass, walk.bypass_isPath, by omega⟩
  · rintro ⟨path, -, hlength⟩
    exact ⟨path.length, hlength, trail_of_walk hgraph path⟩

end Undirected

end AtomVibe.BreadthFirst
