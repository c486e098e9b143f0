import Mathlib.MeasureTheory.Measure.Lebesgue.Basic

namespace AtomVibe.SweepLine

open MeasureTheory Set

def signSum {K : Type} [LinearOrder K] (points : List (K × ℤ)) (t : K) : ℤ :=
  (points.map fun p => if p.1 < t then p.2 else 0).sum

def overlap {K : Type} [Field K] [LinearOrder K] (lo hi a b : K) : K := max (min b hi - max a lo) 0

def sweepLength {K : Type} [Field K] [LinearOrder K] (lo hi : K) : List (K × ℤ) → ℤ → K
  | [], _ => 0
  | [_], _ => 0
  | p :: q :: rest, sum =>
    (if sum + p.2 ≠ 0 then overlap lo hi p.1 q.1 else 0) + sweepLength lo hi (q :: rest) (sum + p.2)

section Sums

variable {K : Type} [LinearOrder K]

theorem signSum_cons (p : K × ℤ) (points : List (K × ℤ)) (t : K) :
    signSum (p :: points) t = (if p.1 < t then p.2 else 0) + signSum points t := by
  rw [signSum, List.map_cons, List.sum_cons]
  rfl

theorem signSum_perm {points points' : List (K × ℤ)} (h : points.Perm points') (t : K) :
    signSum points t = signSum points' t := (h.map _).sum_eq

theorem signSum_append (points points' : List (K × ℤ)) (t : K) :
    signSum (points ++ points') t = signSum points t + signSum points' t := by
  rw [signSum, List.map_append, List.sum_append]
  rfl

theorem signSum_of_le {points : List (K × ℤ)} {t : K} (h : ∀ p ∈ points, t ≤ p.1) :
    signSum points t = 0 := by
  apply List.sum_eq_zero
  intro x hx
  obtain ⟨p, hp, rfl⟩ := List.mem_map.mp hx
  exact if_neg (h p hp).not_gt

end Sums

def support (lo hi : ℝ) (points : List (ℝ × ℤ)) (sum : ℤ) (first : ℝ) : Set ℝ :=
  {t | t ∈ Ioc lo hi ∧ first < t ∧ sum + signSum points t ≠ 0}

theorem overlap_nonneg (lo hi a b : ℝ) : 0 ≤ overlap lo hi a b := le_max_right _ _

theorem volume_overlap (lo hi a b : ℝ) :
    volume (Ioc lo hi ∩ Ioc a b) = ENNReal.ofReal (overlap lo hi a b) := by
  rw [Ioc_inter_Ioc, Real.volume_Ioc, overlap, ENNReal.ofReal_max, ENNReal.ofReal_zero,
    max_eq_left zero_le, max_comm lo a, min_comm hi b]

theorem sweepLength_nonneg (lo hi : ℝ) (points : List (ℝ × ℤ)) (sum : ℤ) :
    0 ≤ sweepLength lo hi points sum := by
  fun_induction sweepLength lo hi points sum with
  | case1 => exact le_rfl
  | case2 => exact le_rfl
  | case3 p q rest sum ih =>
    apply add_nonneg _ ih
    split
    · exact overlap_nonneg _ _ _ _
    · exact le_rfl

theorem support_inter_Iic {lo hi : ℝ} {p q : ℝ × ℤ} {rest : List (ℝ × ℤ)} {sum : ℤ}
    (hsorted : (p :: q :: rest).Pairwise fun p q => p.1 ≤ q.1) :
    support lo hi (p :: q :: rest) sum p.1 ∩ Iic q.1 =
      if sum + p.2 ≠ 0 then Ioc lo hi ∩ Ioc p.1 q.1 else ∅ := by
  rw [List.pairwise_cons, List.pairwise_cons] at hsorted
  obtain ⟨-, hq, -⟩ := hsorted
  have hsum : ∀ t, p.1 < t → t ≤ q.1 → signSum (p :: q :: rest) t = p.2 := by
    intro t hp ht
    rw [signSum_cons, if_pos hp, signSum_of_le, add_zero]
    intro r hr
    cases List.mem_cons.mp hr with
    | inl heq => exact heq ▸ ht
    | inr hrest => exact ht.trans (hq r hrest)
  split
  · rename_i hne
    ext t
    constructor
    · rintro ⟨⟨hin, hp, -⟩, ht⟩
      exact ⟨hin, hp, ht⟩
    · rintro ⟨hin, hp, ht⟩
      refine ⟨⟨hin, hp, ?_⟩, ht⟩
      rw [hsum t hp ht]
      exact hne
  · rename_i hzero
    rw [eq_empty_iff_forall_notMem]
    rintro t ⟨⟨-, hp, hne⟩, ht⟩
    rw [hsum t hp ht] at hne
    exact hzero hne

theorem support_diff_Iic {lo hi : ℝ} {p q : ℝ × ℤ} {rest : List (ℝ × ℤ)} {sum : ℤ}
    (hpq : p.1 ≤ q.1) :
    support lo hi (p :: q :: rest) sum p.1 \ Iic q.1 = support lo hi (q :: rest) (sum + p.2) q.1 := by
  ext t
  have hsum : p.1 < t →
      sum + signSum (p :: q :: rest) t = sum + p.2 + signSum (q :: rest) t := by
    intro hp
    rw [signSum_cons, if_pos hp, add_assoc]
  constructor
  · rintro ⟨⟨hin, hp, hne⟩, ht⟩
    refine ⟨hin, not_le.mp ht, ?_⟩
    rw [← hsum hp]
    exact hne
  · rintro ⟨hin, ht, hne⟩
    have hp := hpq.trans_lt ht
    refine ⟨⟨hin, hp, ?_⟩, not_le.mpr ht⟩
    rw [hsum hp]
    exact hne

theorem volume_support (lo hi : ℝ) {points : List (ℝ × ℤ)} {sum : ℤ} {first : ℝ}
    (hsorted : points.Pairwise fun p q => p.1 ≤ q.1) (hfirst : ∀ p ∈ points.head?, first = p.1)
    (htotal : sum + (points.map Prod.snd).sum = 0) :
    volume (support lo hi points sum first) = ENNReal.ofReal (sweepLength lo hi points sum) := by
  fun_induction sweepLength lo hi points sum generalizing first with
  | case1 sum =>
    have hempty : support lo hi [] sum first = ∅ := by
      rw [eq_empty_iff_forall_notMem]
      rintro t ⟨-, -, hne⟩
      exact hne htotal
    rw [hempty, measure_empty, ENNReal.ofReal_zero]
  | case2 p sum =>
    have hempty : support lo hi [p] sum first = ∅ := by
      rw [eq_empty_iff_forall_notMem]
      rintro t ⟨-, hlt, hne⟩
      rw [hfirst p rfl] at hlt
      rw [signSum_cons, if_pos hlt] at hne
      exact hne htotal
    rw [hempty, measure_empty, ENNReal.ofReal_zero]
  | case3 p q rest sum ih =>
    obtain rfl := hfirst p rfl
    have hpq : p.1 ≤ q.1 := (List.pairwise_cons.mp hsorted).1 q (List.mem_cons_self ..)
    have hrest := @ih q.1 (List.pairwise_cons.mp hsorted).2
      (fun r hr => congrArg Prod.fst (Option.some.inj hr))
      (by
        rw [List.map_cons, List.sum_cons] at htotal
        rw [add_assoc]
        exact htotal)
    rw [← measure_inter_add_sdiff (support lo hi (p :: q :: rest) sum p.1) measurableSet_Iic,
      support_inter_Iic hsorted, support_diff_Iic hpq, hrest]
    split
    · rw [volume_overlap, ← ENNReal.ofReal_add (overlap_nonneg _ _ _ _)
        (sweepLength_nonneg _ _ _ _)]
    · rw [measure_empty, zero_add, zero_add]

theorem volume_signSum (lo hi : ℝ) {points : List (ℝ × ℤ)}
    (hsorted : points.Pairwise fun p q => p.1 ≤ q.1) (htotal : (points.map Prod.snd).sum = 0) :
    volume {t | t ∈ Icc lo hi ∧ signSum points t ≠ 0} =
      ENNReal.ofReal (sweepLength lo hi points 0) := by
  have hopen : volume {t | t ∈ Icc lo hi ∧ signSum points t ≠ 0} =
      volume {t | t ∈ Ioc lo hi ∧ signSum points t ≠ 0} :=
    measure_congr (Ioc_ae_eq_Icc.symm.inter (ae_eq_refl _))
  rw [hopen]
  cases points with
  | nil =>
    have hempty : {t | t ∈ Ioc lo hi ∧ signSum [] t ≠ 0} = ∅ := by
      rw [eq_empty_iff_forall_notMem]
      rintro t ⟨-, hne⟩
      exact hne rfl
    rw [hempty, measure_empty, sweepLength, ENNReal.ofReal_zero]
  | cons p rest =>
    have hright : {t | t ∈ Ioc lo hi ∧ signSum (p :: rest) t ≠ 0} =
        support lo hi (p :: rest) 0 p.1 := by
      ext t
      constructor
      · rintro ⟨hin, hne⟩
        refine ⟨hin, ?_, ?_⟩
        · by_contra hle
          apply hne
          apply signSum_of_le
          intro r hr
          cases List.mem_cons.mp hr with
          | inl heq => exact heq ▸ not_lt.mp hle
          | inr hrest => exact (not_lt.mp hle).trans ((List.pairwise_cons.mp hsorted).1 r hrest)
        · rw [zero_add]
          exact hne
      · rintro ⟨hin, -, hne⟩
        rw [zero_add] at hne
        exact ⟨hin, hne⟩
    rw [hright]
    apply volume_support lo hi hsorted
    · intro r hr
      exact congrArg Prod.fst (Option.some.inj hr)
    · rw [zero_add]
      exact htotal

theorem sweepLength_le {lo hi : ℝ} (hlohi : lo ≤ hi) {points : List (ℝ × ℤ)}
    (hsorted : points.Pairwise fun p q => p.1 ≤ q.1) (htotal : (points.map Prod.snd).sum = 0) :
    sweepLength lo hi points 0 ≤ hi - lo := by
  have hle : volume {t | t ∈ Icc lo hi ∧ signSum points t ≠ 0} ≤ volume (Icc lo hi) :=
    measure_mono fun t ht => ht.1
  rw [volume_signSum lo hi hsorted htotal, Real.volume_Icc] at hle
  exact (ENNReal.ofReal_le_ofReal_iff (sub_nonneg.mpr hlohi)).mp hle

end AtomVibe.SweepLine
