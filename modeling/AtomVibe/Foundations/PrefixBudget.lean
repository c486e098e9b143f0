import Mathlib.Algebra.BigOperators.Group.List.Basic
import Mathlib.Algebra.GroupWithZero.Nat
import Mathlib.Data.List.Infix

namespace AtomVibe.PrefixBudget

variable {α : Type*} (size : α → ℕ)

def total (xs : List α) : ℕ := (xs.map size).sum

@[simp] theorem total_nil : total size ([] : List α) = 0 := rfl

@[simp] theorem total_cons (x : α) (xs : List α) :
    total size (x :: xs) = size x + total size xs := by
  rw [total, List.map_cons, List.sum_cons, total]

theorem total_append (xs ys : List α) :
    total size (xs ++ ys) = total size xs + total size ys := by
  rw [total, List.map_append, List.sum_append, total, total]

theorem total_perm {xs ys : List α} (h : xs.Perm ys) : total size xs = total size ys :=
  (h.map size).sum_eq

def fitting : ℕ → List α → List α
  | _, [] => []
  | budget, x :: xs => if size x ≤ budget then x :: fitting (budget - size x) xs else []

theorem fitting_prefix (budget : ℕ) (xs : List α) : fitting size budget xs <+: xs := by
  induction xs generalizing budget with
  | nil => exact List.prefix_refl _
  | cons x xs ih =>
    rw [fitting]
    split
    · exact (List.prefix_cons_inj x).mpr (ih _)
    · exact List.nil_prefix

theorem total_fitting_le (budget : ℕ) (xs : List α) : total size (fitting size budget xs) ≤ budget := by
  induction xs generalizing budget with
  | nil => exact Nat.zero_le _
  | cons x xs ih =>
    rw [fitting]
    split
    · have hrest := ih (budget - size x)
      rw [total_cons]
      omega
    · exact Nat.zero_le _

theorem prefix_fitting {budget : ℕ} {xs ys : List α} (hys : ys <+: xs)
    (htotal : total size ys ≤ budget) : ys <+: fitting size budget xs := by
  induction xs generalizing budget ys with
  | nil =>
    rw [List.prefix_nil] at hys
    rw [hys]
    exact List.nil_prefix
  | cons x xs ih =>
    cases ys with
    | nil => exact List.nil_prefix
    | cons y ys =>
      rw [List.cons_prefix_cons] at hys
      obtain ⟨rfl, hys⟩ := hys
      rw [total_cons] at htotal
      have hfits : size y ≤ budget := by omega
      rw [fitting, if_pos hfits]
      apply (List.prefix_cons_inj y).mpr
      apply ih hys
      omega

def next (budget : ℕ) (xs : List α) : Option α := (xs.drop (fitting size budget xs).length).head?

theorem fitting_cons_of_le {budget : ℕ} {x : α} (h : size x ≤ budget) (xs : List α) :
    fitting size budget (x :: xs) = x :: fitting size (budget - size x) xs :=
  if_pos h

theorem fitting_cons_of_not_le {budget : ℕ} {x : α} (h : ¬size x ≤ budget) (xs : List α) :
    fitting size budget (x :: xs) = [] :=
  if_neg h

theorem next_cons_of_le {budget : ℕ} {x : α} (h : size x ≤ budget) (xs : List α) :
    next size budget (x :: xs) = next size (budget - size x) xs := by
  rw [next, fitting_cons_of_le size h, List.length_cons, List.drop_succ_cons, next]

theorem next_cons_of_not_le {budget : ℕ} {x : α} (h : ¬size x ≤ budget) (xs : List α) :
    next size budget (x :: xs) = some x := by
  rw [next, fitting_cons_of_not_le size h, List.length_nil, List.drop_zero, List.head?_cons]

theorem fitting_append_next (budget : ℕ) (xs : List α) :
    fitting size budget xs ++ (next size budget xs).toList <+: xs := by
  have hsplit := List.prefix_iff_eq_append.mp ( fitting_prefix size budget xs)
  cases hrest : xs.drop (fitting size budget xs).length with
  | nil =>
    rw [next, hrest, List.head?_nil, Option.toList_none, List.append_nil]
    exact fitting_prefix size budget xs
  | cons x rest =>
    rw [next, hrest, List.head?_cons, Option.toList_some]
    refine ⟨rest, ?_⟩
    rw [List.append_assoc, List.singleton_append, ← hrest]
    exact hsplit

theorem lt_of_next {budget : ℕ} {xs : List α} {x : α} (h : next size budget xs = some x) :
    budget < total size (fitting size budget xs) + size x := by
  by_contra hfits
  rw [not_lt] at hfits
  have hnext := fitting_append_next size budget xs
  rw [h, Option.toList_some] at hnext
  have htotal : total size (fitting size budget xs ++ [x]) ≤ budget := by
    rw [total_append, total_cons, total_nil]
    exact hfits
  have hlonger := prefix_fitting size hnext htotal
  have hlength := hlonger.length_le
  rw [List.length_append, List.length_singleton] at hlength
  omega

end AtomVibe.PrefixBudget
