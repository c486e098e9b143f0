import Mathlib.Algebra.Order.Group.Int
import Mathlib.Data.List.Basic
import Mathlib.Data.List.Infix
import Mathlib.Tactic.Ring

/-!
Reading a text with quoted parts from left to right, and the brackets outside of them. A bracket
closes the text where it brings the depth back to zero.
-/

namespace AtomVibe.Quoted

structure Reading where
  inString : Bool := false
  escaped : Bool := false
  deriving DecidableEq

structure Signs (α : Type*) where
  quote : α
  escape : α
  opening : α
  closing : α

variable {α : Type*} [DecidableEq α] (signs : Signs α)

def Reading.step (r : Reading) (b : α) : Reading :=
  if r.inString then
    if r.escaped then { r with escaped := false }
    else if b = signs.escape then { r with escaped := true }
    else if b = signs.quote then { r with inString := false }
    else r
  else if b = signs.quote then { r with inString := true }
  else r

def readFrom (r : Reading) (bs : List α) : Reading := bs.foldl (Reading.step signs) r

def weight (r : Reading) (b : α) : ℤ :=
  if r.inString then 0
  else if b = signs.opening then 1
  else if b = signs.closing then -1
  else 0

def depthFrom (r : Reading) : List α → ℤ
  | [] => 0
  | b :: bs => weight signs r b + depthFrom (r.step signs b) bs

def depth (bs : List α) : ℤ := depthFrom signs {} bs

def Closes (bs : List α) (n : ℕ) : Prop :=
  ∃ front, front ++ [signs.closing] = bs.take n ∧ n ≤ bs.length ∧
    (readFrom signs {} front).inString = false ∧ depth signs (bs.take n) = 0

def LastClose (bs : List α) : Option ℕ → Prop
  | none => ∀ n, ¬Closes signs bs n
  | some n => Closes signs bs n ∧ ∀ m, Closes signs bs m → m ≤ n

def Within (low high : ℤ) (bs : List α) : Prop :=
  ∀ n, low ≤ depth signs (bs.take n) ∧ depth signs (bs.take n) < high

variable {signs} {r : Reading} {bs cs : List α} {b : α} {n : ℕ}

theorem readFrom_append : readFrom signs r (bs ++ cs) = readFrom signs (readFrom signs r bs) cs :=
  List.foldl_append

theorem depthFrom_append : depthFrom signs r (bs ++ cs) =
    depthFrom signs r bs + depthFrom signs (readFrom signs r bs) cs := by
  induction bs generalizing r with
  | nil => simp [depthFrom, readFrom]
  | cons b bs ih =>
    rw [List.cons_append, depthFrom, depthFrom, ih, ← add_assoc]
    rfl

theorem depth_concat : depth signs (bs ++ [b]) =
    depth signs bs + weight signs (readFrom signs {} bs) b := by
  rw [depth, depthFrom_append, depthFrom, depthFrom, add_zero]
  rfl

theorem depth_nil : depth signs [] = 0 := rfl

theorem closes_append (h : n ≤ bs.length) : Closes signs (bs ++ cs) n ↔ Closes signs bs n := by
  have htake : (bs ++ cs).take n = bs.take n := List.take_append_of_le_length h
  have hlength : n ≤ (bs ++ cs).length := by
    rw [List.length_append]
    omega
  constructor
  · rintro ⟨front, hfront, -, hread, hdepth⟩
    rw [htake] at hfront hdepth
    exact ⟨front, hfront, h, hread, hdepth⟩
  · rintro ⟨front, hfront, -, hread, hdepth⟩
    rw [← htake] at hfront hdepth
    exact ⟨front, hfront, hlength, hread, hdepth⟩

theorem closes_concat : Closes signs (bs ++ [b]) (bs.length + 1) ↔
    b = signs.closing ∧ (readFrom signs {} bs).inString = false ∧ depth signs (bs ++ [b]) = 0 := by
  have htake : (bs ++ [b]).take (bs.length + 1) = bs ++ [b] := by
    rw [List.take_of_length_le]
    simp
  rw [Closes, htake]
  constructor
  · rintro ⟨front, hfront, -, hread, hdepth⟩
    obtain ⟨rfl, hlast⟩ := List.append_inj' hfront rfl
    exact ⟨(List.cons.inj hlast).1.symm, hread, hdepth⟩
  · rintro ⟨rfl, hread, hdepth⟩
    exact ⟨bs, rfl, by simp, hread, hdepth⟩

theorem Closes.le_length (h : Closes signs bs n) : n ≤ bs.length := by
  obtain ⟨front, -, hle, -⟩ := h
  exact hle

theorem lastClose_nil : LastClose signs [] none := by
  rintro n ⟨front, hfront, -⟩
  simp at hfront

theorem LastClose.concat {cut : Option ℕ} (h : LastClose signs bs cut) :
    (Closes signs (bs ++ [b]) (bs.length + 1) →
      LastClose signs (bs ++ [b]) (some (bs.length + 1))) ∧
    (¬Closes signs (bs ++ [b]) (bs.length + 1) → LastClose signs (bs ++ [b]) cut) := by
  constructor
  · intro hcloses
    refine ⟨hcloses, fun m hm => ?_⟩
    have hle := hm.le_length
    rwa [List.length_append] at hle
  · intro hnot
    have hback : ∀ m, Closes signs (bs ++ [b]) m → Closes signs bs m := by
      intro m hm
      have hle := hm.le_length
      rw [List.length_append, List.length_singleton] at hle
      rcases Nat.lt_succ_iff_lt_or_eq.mp (Nat.lt_succ_of_le hle) with hlt | rfl
      · exact (closes_append (Nat.le_of_lt_succ hlt)).mp hm
      · exact absurd hm hnot
    cases cut with
    | none => exact fun m hm => h m (hback m hm)
    | some n =>
      exact ⟨(closes_append h.1.le_length).mpr h.1, fun m hm => h.2 m (hback m hm)⟩

theorem LastClose.ahead {cut : Option ℕ} (h : LastClose signs bs cut) :
    (∀ m ∈ cut, n ≤ m) ↔ (∀ m, ¬Closes signs bs m) ∨ ∃ m, n ≤ m ∧ Closes signs bs m := by
  cases cut with
  | none => exact iff_of_true (by simp) (.inl h)
  | some m =>
    constructor
    · exact fun hle => .inr ⟨m, hle m rfl, h.1⟩
    · rintro (hnone | ⟨k, hk, hcloses⟩) m' hm'
      · exact absurd h.1 (hnone m)
      · obtain rfl := Option.some.inj hm'
        exact hk.trans (h.2 k hcloses)

variable {low high : ℤ}

theorem within_nil (hlow : low ≤ 0) (hhigh : 0 < high) : Within signs low high [] := by
  intro n
  rw [List.take_nil, depth_nil]
  exact ⟨hlow, hhigh⟩

theorem within_of_append (h : Within signs low high (bs ++ cs)) : Within signs low high bs := by
  intro n
  have hn := h (min n bs.length)
  rw [List.take_append_of_le_length (Nat.min_le_right _ _)] at hn
  rcases Nat.le_total n bs.length with hle | hle
  · rwa [Nat.min_eq_left hle] at hn
  · rw [List.take_of_length_le hle]
    rwa [Nat.min_eq_right hle, List.take_length] at hn

theorem within_concat : Within signs low high (bs ++ [b]) ↔ Within signs low high bs ∧
    low ≤ depth signs (bs ++ [b]) ∧ depth signs (bs ++ [b]) < high := by
  constructor
  · intro h
    have hn := h (bs ++ [b]).length
    rw [List.take_length] at hn
    exact ⟨within_of_append h, hn⟩
  · rintro ⟨h, hlast⟩ n
    rcases Nat.lt_or_ge bs.length n with hlt | hle
    · rw [List.take_of_length_le]
      · exact hlast
      · rw [List.length_append]
        exact hlt
    · rw [List.take_append_of_le_length hle]
      exact h n

end AtomVibe.Quoted
