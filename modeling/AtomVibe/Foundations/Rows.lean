import Mathlib.Algebra.BigOperators.Group.Finset.Basic
import Mathlib.Algebra.Order.BigOperators.Group.Finset
import Mathlib.Tactic.Ring
import Mathlib.Algebra.BigOperators.Group.List.Basic
import Mathlib.Algebra.Order.BigOperators.Group.List
import Mathlib.Algebra.Order.Group.Defs
import Mathlib.Algebra.Order.Group.Basic
import Mathlib.Tactic.Abel

/-! The sum of the values around a place, which moves on by one removal and one addition. -/

namespace AtomVibe.SlidingWindow

open Finset

section Sum

variable {K : Type*} [AddCommGroup K] (f : ℤ → K)

def window (r : ℕ) (i : ℤ) : K := ∑ k ∈ range (2 * r + 1), f (i + k - r)

theorem window_succ (r : ℕ) (i : ℤ) :
    window f r (i + 1) = window f r i - f (i - r) + f (i + r + 1) := by
  have hshift : ∀ k : ℕ, i + 1 + k - r = i + (k + 1 : ℕ) - r := by
    intro k
    rw [Nat.cast_succ]
    ring
  have hfirst : i + (0 : ℕ) - r = i - r := by
    rw [Nat.cast_zero, add_zero]
  have hlast : i + (2 * r + 1 : ℕ) - r = i + r + 1 := by
    push_cast
    ring
  have hboth := sum_range_succ (fun k : ℕ => f (i + k - r)) (2 * r + 1)
  rw [sum_range_succ', hfirst, hlast] at hboth
  rw [window, window, eq_comm, sub_add_eq_add_sub, sub_eq_iff_eq_add, ← hboth]
  simp only [hshift]

theorem window_const (c : K) (r : ℕ) (i : ℤ) : window (fun _ => c) r i = (2 * r + 1) • c := by
  rw [window, sum_const, card_range]

end Sum

section Order

variable {K : Type*} [AddCommGroup K] [PartialOrder K] [IsOrderedAddMonoid K] {f g : ℤ → K}

theorem window_mono (h : ∀ i, f i ≤ g i) (r : ℕ) (i : ℤ) : window f r i ≤ window g r i :=
  sum_le_sum fun _ _ => h _

end Order

end AtomVibe.SlidingWindow

namespace AtomVibe.SpacedRow

variable {K : Type*} [AddCommGroup K]

def rowFrom (gap : K) : K → List K → List (K × K)
  | _, [] => []
  | start, size :: sizes => (start, start + size) :: rowFrom gap (start + size + gap) sizes

section Row

variable (gap start : K) (sizes : List K)

theorem map_size : (rowFrom gap start sizes).map (fun piece => piece.2 - piece.1) = sizes := by
  induction sizes generalizing start with
  | nil => rfl
  | cons size sizes ih =>
    rw [rowFrom, List.map_cons, ih, add_sub_cancel_left]

theorem head_start : ∀ piece ∈ (rowFrom gap start sizes).head?, piece.1 = start := by
  intro piece hpiece
  cases sizes with
  | nil => cases hpiece
  | cons size sizes =>
    cases hpiece
    rfl

theorem isChain_gap : (rowFrom gap start sizes).IsChain fun a b => b.1 = a.2 + gap := by
  induction sizes generalizing start with
  | nil => exact .nil
  | cons size sizes ih =>
    cases sizes with
    | nil => exact .singleton _
    | cons next sizes =>
      have hrest := ih (start + size + gap)
      rw [rowFrom] at hrest ⊢
      rw [rowFrom, List.isChain_cons_cons]
      exact ⟨rfl, hrest⟩

theorem last_stop : ∀ piece ∈ (rowFrom gap start sizes).getLast?,
    piece.2 + gap = start + sizes.sum + sizes.length • gap := by
  induction sizes generalizing start with
  | nil =>
    intro piece hpiece
    cases hpiece
  | cons size sizes ih =>
    intro piece hpiece
    rw [rowFrom] at hpiece
    rw [List.sum_cons, List.length_cons, succ_nsmul]
    cases sizes with
    | nil =>
      rw [rowFrom, List.getLast?_singleton, Option.mem_some] at hpiece
      rw [← hpiece]
      simp
    | cons next sizes =>
      rw [rowFrom, List.getLast?_cons_cons, ← rowFrom] at hpiece
      rw [ih _ piece hpiece]
      abel

end Row

section Order

variable [LinearOrder K] [IsOrderedAddMonoid K] {gap start : K} {sizes : List K}

theorem within_row (hgap : 0 ≤ gap) (hsizes : ∀ size ∈ sizes, 0 ≤ size) :
    ∀ piece ∈ rowFrom gap start sizes, start ≤ piece.1 ∧ piece.1 ≤ piece.2 ∧
      piece.2 + gap ≤ start + sizes.sum + sizes.length • gap := by
  induction sizes generalizing start with
  | nil =>
    intro piece hpiece
    cases hpiece
  | cons size sizes ih =>
    rw [List.forall_mem_cons] at hsizes
    have hsum : 0 ≤ sizes.sum := List.sum_nonneg hsizes.2
    have hgaps : 0 ≤ sizes.length • gap := nsmul_nonneg hgap _
    have hsplit : start + (size :: sizes).sum + (size :: sizes).length • gap =
        start + size + gap + sizes.sum + sizes.length • gap := by
      rw [List.sum_cons, List.length_cons, succ_nsmul]
      abel
    rw [rowFrom, hsplit, List.forall_mem_cons]
    constructor
    · refine ⟨le_rfl, le_add_of_nonneg_right hsizes.1, ?_⟩
      exact (le_add_of_nonneg_right hsum).trans (le_add_of_nonneg_right hgaps)
    · intro piece hpiece
      obtain ⟨hstart, hstop, hend⟩ := ih hsizes.2 piece hpiece
      refine ⟨?_, hstop, hend⟩
      exact ((le_add_of_nonneg_right hsizes.1).trans (le_add_of_nonneg_right hgap)).trans hstart

theorem pairwise_row (hgap : 0 ≤ gap) (hsizes : ∀ size ∈ sizes, 0 ≤ size) :
    (rowFrom gap start sizes).Pairwise fun a b => a.2 + gap ≤ b.1 := by
  induction sizes generalizing start with
  | nil => exact .nil
  | cons size sizes ih =>
    rw [List.forall_mem_cons] at hsizes
    rw [rowFrom]
    refine .cons (fun piece hpiece => ?_) (ih hsizes.2)
    exact (within_row hgap hsizes.2 piece hpiece).1

end Order

end AtomVibe.SpacedRow
