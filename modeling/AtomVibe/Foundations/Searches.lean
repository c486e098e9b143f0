import Mathlib.Data.List.Basic
import Mathlib.Data.Nat.Notation
import Mathlib.Order.Lattice
import Mathlib.Data.List.Pairwise
import Mathlib.Data.List.TakeDrop
import Mathlib.Data.List.Count

/-! A text that ends with a marker and a short trailer, taken apart at the last such marker. -/

namespace AtomVibe.LastMarker

variable {α : Type*} [DecidableEq α]

def splitLast (marker : List α) : List α → Option (List α × List α)
  | [] => if marker = [] then some ([], []) else none
  | a :: as =>
    match splitLast marker as with
    | some (before, after) => some (a :: before, after)
    | none => if marker <+: a :: as then some ([], (a :: as).drop marker.length) else none

variable {a : α} {marker text trailer : List α}

theorem splitLast_of_notMem (h : a ∉ text) : splitLast (a :: marker) text = none := by
  induction text with
  | nil => simp [splitLast]
  | cons b text ih =>
    obtain ⟨hb, htext⟩ := not_or.mp (mt List.mem_cons.mpr h)
    rw [splitLast, ih htext]
    simp only
    rw [if_neg]
    intro hprefix
    exact hb (List.cons_prefix_cons.mp hprefix).1

theorem splitLast_append (hmarker : a ∉ marker) (htrailer : a ∉ trailer) (text : List α) :
    splitLast (a :: marker) (text ++ (a :: marker ++ trailer)) = some (text, trailer) := by
  induction text with
  | nil =>
    have hrest : a ∉ marker ++ trailer := by simp [hmarker, htrailer]
    have hprefix : a :: marker <+: a :: (marker ++ trailer) := ⟨trailer, rfl⟩
    rw [List.nil_append, List.cons_append, splitLast, splitLast_of_notMem hrest]
    simp only
    rw [if_pos hprefix, List.length_cons, List.drop_succ_cons, List.drop_left]
  | cons b text ih =>
    rw [List.cons_append, splitLast, ih]

end AtomVibe.LastMarker

namespace AtomVibe.BinarySearch

def search (below : ℕ → Option Bool) (lo hi : ℕ) : Option ℕ :=
  if lo < hi then
    match below ((lo + hi) / 2) with
    | none => none
    | some true => search below ((lo + hi) / 2 + 1) hi
    | some false => search below lo ((lo + hi) / 2)
  else some lo
termination_by hi - lo

variable {below : ℕ → Option Bool} {p : ℕ → Bool}

theorem search_spec {lo hi : ℕ} (hle : lo ≤ hi)
    (hprobe : ∀ i, lo ≤ i → i < hi → below i = some (p i))
    (hfirst : ∀ i j, lo ≤ i → i ≤ j → j < hi → p j = true → p i = true) :
    ∃ k, search below lo hi = some k ∧ lo ≤ k ∧ k ≤ hi ∧
      (∀ i, lo ≤ i → i < k → p i = true) ∧ ∀ i, k ≤ i → i < hi → p i = false := by
  induction hwidth : hi - lo using Nat.strongRecOn generalizing lo hi with
  | ind width ih =>
    subst hwidth
    by_cases hlt : lo < hi
    · have hmid := hprobe ((lo + hi) / 2) (by omega) (by omega)
      rw [search, if_pos hlt, hmid]
      cases hp : p ((lo + hi) / 2) with
      | true =>
        obtain ⟨k, hk, hlow, hhigh, hbefore, hafter⟩ :=
          @ih (hi - ((lo + hi) / 2 + 1)) (by omega) ((lo + hi) / 2 + 1) hi (by omega)
            (fun i hi' => hprobe i (by omega)) (fun i j hi' => hfirst i j (by omega)) rfl
        refine ⟨k, hk, by omega, hhigh, ?_, hafter⟩
        intro i hi' hik
        by_cases hside : i ≤ (lo + hi) / 2
        · exact hfirst i ((lo + hi) / 2) hi' hside (by omega) hp
        · exact hbefore i (by omega) hik
      | false =>
        obtain ⟨k, hk, hlow, hhigh, hbefore, hafter⟩ :=
          @ih ((lo + hi) / 2 - lo) (by omega) lo ((lo + hi) / 2) (by omega)
            (fun i hlo hi' => hprobe i hlo (by omega))
            (fun i j hlo hij hj => hfirst i j hlo hij (by omega)) rfl
        refine ⟨k, hk, hlow, by omega, hbefore, ?_⟩
        intro i hki hi'
        by_cases hside : i < (lo + hi) / 2
        · exact hafter i hki hside
        · cases hpi : p i with
          | false => rfl
          | true =>
            have hback := hfirst ((lo + hi) / 2) i (by omega) (by omega) hi' hpi
            rw [hp] at hback
            cases hback
    · refine ⟨lo, by rw [search, if_neg hlt], Nat.le_refl lo, hle, ?_, ?_⟩
      · intro i hlow hhigh
        omega
      · intro i hlow hhigh
        omega

end AtomVibe.BinarySearch

/-! The first of the best items of a list that grows. -/

namespace AtomVibe.FirstBest

variable {α κ : Type*} [LinearOrder κ] (rank : α → κ)

structure First (items : List α) (i : ℕ) (best : α) : Prop where
  item : items[i]? = some best
  least : ∀ item ∈ items, rank best ≤ rank item
  first : ∀ j < i, ∀ item, items[j]? = some item → rank best < rank item

variable {rank} {items : List α} {i : ℕ} {best item : α}

theorem first_singleton (item : α) : First rank [item] 0 item where
  item := rfl
  least := by simp
  first := fun j hj => absurd hj (Nat.not_lt_zero j)

theorem First.keep (h : First rank items i best) (hitem : ¬ rank item < rank best) :
    First rank (items ++ [item]) i best where
  item := by
    rw [List.getElem?_append_left (List.getElem?_eq_some_iff.mp h.item).1, h.item]
  least := by
    rw [List.forall_mem_append, List.forall_mem_singleton]
    exact ⟨h.least, not_lt.mp hitem⟩
  first := by
    intro j hj other hother
    have hlength := (List.getElem?_eq_some_iff.mp h.item).1
    rw [List.getElem?_append_left (by omega)] at hother
    exact h.first j hj other hother

theorem First.replace (h : First rank items i best) (hitem : rank item < rank best) :
    First rank (items ++ [item]) items.length item where
  item := by rw [List.getElem?_concat_length]
  least := by
    rw [List.forall_mem_append, List.forall_mem_singleton]
    exact ⟨fun other hother => le_of_lt (lt_of_lt_of_le hitem (h.least other hother)), le_rfl⟩
  first := by
    intro j hj other hother
    rw [List.getElem?_append_left hj] at hother
    exact lt_of_lt_of_le hitem (h.least other (List.mem_of_getElem? hother))

end AtomVibe.FirstBest

namespace AtomVibe.RankedTake

variable {α : Type*} {xs : List α}

section Order

variable {before : α → α → Prop} [DecidableRel before]

theorem mem_take_iff (hxs : xs.Pairwise before) (hasymm : ∀ a b, before a b → ¬before b a) {x : α}
    (n : ℕ) : x ∈ xs.take n ↔ x ∈ xs ∧ xs.countP (before · x) < n := by
  induction xs generalizing n with
  | nil => simp
  | cons a xs ih =>
    rw [List.pairwise_cons] at hxs
    cases n with
    | zero => simp
    | succ n =>
      rw [List.take_succ_cons, List.mem_cons, List.mem_cons, ih hxs.2, List.countP_cons]
      constructor
      · rintro (rfl | ⟨hmem, hcount⟩)
        · have hnone : xs.countP (before · x) = 0 := by
            rw [List.countP_eq_zero]
            intro b hb hbefore
            exact hasymm x b (hxs.1 b hb) (of_decide_eq_true hbefore)
          have hself : ¬before x x := fun h => hasymm x x h h
          refine ⟨.inl rfl, ?_⟩
          rw [hnone, if_neg (by simpa using hself)]
          exact Nat.succ_pos n
        · refine ⟨.inr hmem, ?_⟩
          rw [if_pos (by simpa using hxs.1 x hmem)]
          exact Nat.succ_lt_succ hcount
      · rintro ⟨rfl | hmem, hcount⟩
        · exact .inl rfl
        · rw [if_pos (by simpa using hxs.1 x hmem)] at hcount
          exact .inr ⟨hmem, Nat.lt_of_succ_lt_succ hcount⟩

end Order

section Exception

variable {p : α → Bool}

theorem filter_take_succ (hone : xs.Pairwise fun a b => p a = true ∨ p b = true) {n : ℕ}
    (hexception : ∃ x ∈ xs.take (n + 1), p x = false) :
    (xs.take (n + 1)).filter p = (xs.filter p).take n := by
  induction xs generalizing n with
  | nil => simp at hexception
  | cons a xs ih =>
    rw [List.pairwise_cons] at hone
    rw [List.take_succ_cons]
    cases ha : p a with
    | false =>
      have hall : ∀ x ∈ xs, p x = true := fun x hx =>
        (hone.1 x hx).resolve_left (by rw [ha]; exact Bool.false_ne_true)
      rw [List.filter_cons_of_neg (by rw [ha]; exact Bool.false_ne_true),
        List.filter_cons_of_neg (by rw [ha]; exact Bool.false_ne_true),
        List.filter_eq_self.mpr fun x hx => hall x (List.mem_of_mem_take hx),
        List.filter_eq_self.mpr hall]
    | true =>
      obtain ⟨x, hx, hpx⟩ := hexception
      rw [List.take_succ_cons, List.mem_cons] at hx
      rcases hx with rfl | hx
      · rw [ha] at hpx
        exact absurd hpx Bool.false_ne_true.symm
      · cases n with
        | zero => simp at hx
        | succ n =>
          rw [List.filter_cons_of_pos ha, List.filter_cons_of_pos ha, List.take_succ_cons,
            ih hone.2 ⟨x, hx, hpx⟩]

theorem take_filter {n : ℕ} (hall : ∀ x ∈ xs.take n, p x = true) :
    (xs.filter p).take n = xs.take n := by
  induction xs generalizing n with
  | nil => rfl
  | cons a xs ih =>
    cases n with
    | zero => simp
    | succ n =>
      rw [List.take_succ_cons] at hall
      rw [List.filter_cons_of_pos (hall a List.mem_cons_self), List.take_succ_cons,
        List.take_succ_cons, ih fun x hx => hall x (List.mem_cons_of_mem a hx)]

end Exception

end AtomVibe.RankedTake
