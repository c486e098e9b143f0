import Mathlib.Algebra.Order.Field.Basic
import Mathlib.Data.List.Basic
import Mathlib.Tactic.Linarith

namespace AtomVibe.Overwrite

section Last

variable {α β : Type*} (read : α → Option β)

def last (xs : List α) : Option β := xs.reverse.findSome? read

@[simp]
theorem last_nil : last read [] = none := rfl

@[simp]
theorem last_singleton (x : α) : last read [x] = read x := by
  rw [last, List.reverse_singleton, List.findSome?_singleton]

theorem last_append (xs ys : List α) : last read (xs ++ ys) = (last read ys).or (last read xs) := by
  rw [last, List.reverse_append, List.findSome?_append]
  rfl

end Last

section Cuts

variable {α : Type*} {P Q : List α → List α → Prop} {x : α} {xs : List α}

def AtCuts (P : List α → List α → Prop) (xs : List α) : Prop :=
  ∀ front back, front ≠ [] → back ≠ [] → front ++ back = xs → P front back

theorem atCuts_singleton : AtCuts P [x] := by
  intro front back hfront hback hcut
  have hlength := congrArg List.length hcut
  have hpos := List.length_pos_of_ne_nil hfront
  have hpos' := List.length_pos_of_ne_nil hback
  rw [List.length_append, List.length_singleton] at hlength
  omega

theorem atCuts_cons (hxs : xs ≠ []) :
    AtCuts P (x :: xs) ↔ P [x] xs ∧ AtCuts (fun front back => P (x :: front) back) xs := by
  constructor
  · intro h
    refine ⟨h [x] xs (List.cons_ne_nil _ _) hxs rfl, fun front back _ hback hcut => ?_⟩
    exact h (x :: front) back (List.cons_ne_nil _ _) hback (congrArg (x :: ·) hcut)
  · rintro ⟨hfirst, hrest⟩ front back hfront hback hcut
    cases front with
    | nil => exact absurd rfl hfront
    | cons y front =>
      rw [List.cons_append, List.cons.injEq] at hcut
      obtain ⟨rfl, rfl⟩ := hcut
      by_cases hnil : front = []
      · subst hnil
        exact hfirst
      · exact hrest front back hnil hback rfl

theorem atCuts_congr (h : ∀ front back, P front back ↔ Q front back) :
    AtCuts P xs ↔ AtCuts Q xs :=
  forall₂_congr fun front back => imp_congr_right fun _ => imp_congr_right fun _ =>
    imp_congr_right fun _ => h front back

end Cuts

section Carried

variable {α F : Type*} [Field F] [LinearOrder F] [IsStrictOrderedRing F]
variable (writes : α → Bool)

def carried (weight : List α → F) (k : F) : List α → F
  | [] => k
  | x :: xs =>
    carried (fun front => weight (x :: front)) ((if writes x then 1 else k) * weight [x]) xs

theorem mul_eq_one {a b : F} (ha : 0 ≤ a) (ha' : a ≤ 1) (hb : 0 ≤ b) (hb' : b ≤ 1) :
    a * b = 1 ↔ a = 1 ∧ b = 1 := by
  constructor
  · intro h
    have ha'' : a = 1 := by nlinarith
    rw [ha'', one_mul] at h
    exact ⟨ha'', h⟩
  · rintro ⟨rfl, rfl⟩
    exact mul_one 1

theorem carried_split (xs : List α) : xs ≠ [] → ∀ (weight : List α → F) (k : F),
    (∀ front, 0 ≤ weight front ∧ weight front ≤ 1) → 0 ≤ k → k ≤ 1 →
    ∃ before, carried writes weight k xs = before * weight xs ∧
      (before = 1 ↔ ((∃ x ∈ xs, writes x = true) ∨ k = 1) ∧
        AtCuts (fun front back => (∃ x ∈ back, writes x = true) ∨ weight front = 1) xs) := by
  induction xs with
  | nil => exact fun hxs => absurd rfl hxs
  | cons x xs ih =>
    intro _ weight k hweight hk hk'
    have hfirst : (if writes x then (1 : F) else k) = 1 ↔ writes x = true ∨ k = 1 := by
      split <;> simp [*]
    have hnonneg : 0 ≤ if writes x then (1 : F) else k := by
      split
      · exact zero_le_one
      · exact hk
    have hle : (if writes x then (1 : F) else k) ≤ 1 := by
      split
      · exact le_rfl
      · exact hk'
    by_cases hxs : xs = []
    · subst hxs
      refine ⟨_, rfl, ?_⟩
      rw [and_iff_left atCuts_singleton, hfirst]
      simp
    · obtain ⟨hpos, hone⟩ := hweight [x]
      obtain ⟨before, hcarried, hbefore⟩ := ih hxs (fun front => weight (x :: front))
        ((if writes x then 1 else k) * weight [x]) (fun front => hweight (x :: front))
        (mul_nonneg hnonneg hpos) (by nlinarith)
      refine ⟨before, hcarried, ?_⟩
      rw [hbefore, mul_eq_one hnonneg hle hpos hone, hfirst, atCuts_cons hxs,
        List.exists_mem_cons_iff]
      by_cases hlater : ∃ y ∈ xs, writes y = true
      · simp only [hlater, true_or, or_true, true_and]
      · simp only [hlater, false_or, or_false, and_assoc]

theorem carried_eq_iff {xs : List α} (hxs : xs ≠ []) {weight : List α → F}
    (hweight : ∀ front, 0 ≤ weight front ∧ weight front ≤ 1) (a : F) :
    a * carried writes weight 1 xs = a * weight xs ↔ a = 0 ∨ weight xs = 0 ∨
      AtCuts (fun front back => (∃ x ∈ back, writes x = true) ∨ weight front = 1) xs := by
  obtain ⟨before, hcarried, hbefore⟩ :=
    carried_split writes xs hxs weight 1 hweight zero_le_one le_rfl
  have hcuts : before = 1 ↔
      AtCuts (fun front back => (∃ x ∈ back, writes x = true) ∨ weight front = 1) xs := by
    rw [hbefore]
    exact and_iff_right (.inr rfl)
  rw [← hcuts, hcarried, mul_eq_mul_left_iff, mul_left_eq_self₀,
    or_comm, @or_comm (before = 1)]

end Carried

end AtomVibe.Overwrite
