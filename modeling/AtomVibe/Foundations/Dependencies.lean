import Mathlib.Data.List.Basic
import Mathlib.Logic.Relation
import Mathlib.Data.Finset.Dedup
import Mathlib.Data.Finset.Card
import Mathlib.Data.List.Nodup

/-! Logs that only grow, whose entries each name the earlier entries they use. -/

namespace AtomVibe.DependencyLog

variable {ν ι σ : Type*} (name : ν → ι) (uses : ν → List ι) (fits : ℕ → ν → Prop)

inductive Wired : List ν → Prop
  | nil : Wired []
  | concat {log : List ν} {entry : ν} (before : Wired log) (place : fits log.length entry)
      (known : ∀ x ∈ uses entry, x ∈ log.map name) : Wired (log ++ [entry])

def Feeds (log : List ν) (x y : ι) : Prop := ∃ entry ∈ log, name entry = y ∧ x ∈ uses entry

def Reaches (log : List ν) : ι → ι → Prop := Relation.TransGen (Feeds name uses log)

structure Grows (look : ν → σ) (before : List ν) (looks : List σ) (after : List ν) : Prop where
  added : ∃ entries, after = before ++ entries ∧ entries.map look = looks
  wired : Wired name uses fits after

variable {name uses fits} {look : ν → σ} {log before middle after : List ν} {looks looks' : List σ}

theorem Wired.split (h : Wired name uses fits log) {left right : List ν} {entry : ν}
    (hlog : log = left ++ entry :: right) :
    fits left.length entry ∧ ∀ x ∈ uses entry, x ∈ left.map name := by
  induction h generalizing right with
  | nil => simp at hlog
  | @concat log last _ hplace hknown ih =>
    rcases List.eq_nil_or_concat' right with rfl | ⟨right, other, rfl⟩
    · obtain ⟨rfl, hlast⟩ := List.append_inj' hlog rfl
      obtain rfl : last = entry := by simpa using hlast
      exact ⟨hplace, hknown⟩
    · have hlog' : log = left ++ entry :: right := by
        rw [← List.cons_append, ← List.append_assoc] at hlog
        exact (List.append_inj' hlog rfl).1
      exact ih hlog'

theorem Wired.fits_getElem (h : Wired name uses fits log) {i : ℕ} {entry : ν}
    (hi : log[i]? = some entry) :
    fits i entry ∧ ∀ x ∈ uses entry, x ∈ (log.take i).map name := by
  obtain ⟨hlt, hget⟩ := List.getElem?_eq_some_iff.mp hi
  have hsplit : log = log.take i ++ entry :: log.drop (i + 1) := by
    rw [← hget, List.getElem_cons_drop, List.take_append_drop]
  have hlength : (log.take i).length = i := List.length_take_of_le (Nat.le_of_lt hlt)
  have h := h.split hsplit
  rwa [hlength] at h

theorem Feeds.mono (hsub : ∀ entry ∈ log, entry ∈ after) {x y : ι}
    (h : Feeds name uses log x y) : Feeds name uses after x y := by
  obtain ⟨entry, hmem, hname, hx⟩ := h
  exact ⟨entry, hsub entry hmem, hname, hx⟩

theorem Reaches.mono (hsub : ∀ entry ∈ log, entry ∈ after) {x y : ι}
    (h : Reaches name uses log x y) : Reaches name uses after x y :=
  Relation.TransGen.mono (fun _ _ hfeeds => Feeds.mono hsub hfeeds) x y h

theorem Grows.refl (h : Wired name uses fits log) : Grows name uses fits look log [] log :=
  ⟨⟨[], by simp, rfl⟩, h⟩

theorem Grows.trans (h : Grows name uses fits look before looks middle)
    (h' : Grows name uses fits look middle looks' after) :
    Grows name uses fits look before (looks ++ looks') after := by
  obtain ⟨⟨xs, rfl, hxs⟩, -⟩ := h
  obtain ⟨⟨ys, rfl, hys⟩, hwired⟩ := h'
  exact ⟨⟨xs ++ ys, by simp, by rw [List.map_append, hxs, hys]⟩, hwired⟩

theorem Grows.push (h : Wired name uses fits log) {entry : ν} (place : fits log.length entry)
    (known : ∀ x ∈ uses entry, x ∈ log.map name) :
    Grows name uses fits look log [look entry] (log ++ [entry]) :=
  ⟨⟨[entry], rfl, rfl⟩, h.concat place known⟩

theorem Grows.sub (h : Grows name uses fits look before looks after) :
    ∀ entry ∈ before, entry ∈ after := by
  obtain ⟨⟨entries, rfl, -⟩, -⟩ := h
  exact fun entry => List.mem_append_left entries

theorem Grows.names (h : Grows name uses fits look before looks after) {x : ι}
    (hx : x ∈ before.map name) : x ∈ after.map name := by
  obtain ⟨entry, hmem, hname⟩ := List.mem_map.mp hx
  exact List.mem_map.mpr ⟨entry, h.sub entry hmem, hname⟩

theorem Grows.length (h : Grows name uses fits look before looks after) :
    after.length = before.length + looks.length := by
  obtain ⟨⟨entries, rfl, rfl⟩, -⟩ := h
  simp

theorem Grows.looks_eq (h : Grows name uses fits look before looks after) :
    after.map look = before.map look ++ looks := by
  obtain ⟨⟨entries, rfl, rfl⟩, -⟩ := h
  simp

end AtomVibe.DependencyLog

namespace AtomVibe.TopologicalOrder

variable {α : Type*}

def Before (order : List α) (a b : α) : Prop := [a, b].Sublist order

def Acyclic (R : α → α → Prop) : Prop := ∀ a, ¬Relation.TransGen R a a

theorem Before.left_mem {order : List α} {a b : α} (h : Before order a b) : a ∈ order :=
  h.subset List.mem_cons_self

theorem Before.right_mem {order : List α} {a b : α} (h : Before order a b) : b ∈ order :=
  h.subset (List.mem_cons_of_mem _ List.mem_cons_self)

theorem before_cons {order : List α} {a b c : α} :
    Before (c :: order) a b ↔ a = c ∧ b ∈ order ∨ Before order a b := by
  unfold Before
  constructor
  · intro h
    cases h with
    | cons _ h => exact .inr h
    | cons_cons _ h => exact .inl ⟨rfl, List.singleton_sublist.mp h⟩
  · rintro (⟨rfl, hb⟩ | h)
    · exact (List.singleton_sublist.mpr hb).cons_cons _
    · exact h.cons _

theorem before_iff {order : List α} {a b : α} :
    Before order a b ↔ ∃ i j : ℕ, i < j ∧ order[i]? = some a ∧ order[j]? = some b := by
  induction order with
  | nil => simp [Before]
  | cons c order ih =>
    rw [before_cons, ih]
    constructor
    · rintro (⟨rfl, hb⟩ | ⟨i, j, hij, ha, hb⟩)
      · obtain ⟨j, hj⟩ := List.mem_iff_getElem?.mp hb
        exact ⟨0, j + 1, j.succ_pos, rfl, hj⟩
      · exact ⟨i + 1, j + 1, Nat.succ_lt_succ hij, ha, hb⟩
    · rintro ⟨i, j, hij, ha, hb⟩
      obtain ⟨j, rfl⟩ := Nat.exists_eq_add_one_of_ne_zero (Nat.ne_zero_of_lt hij)
      cases i with
      | zero =>
        left
        simp only [List.getElem?_cons_zero, Option.some.injEq] at ha
        exact ⟨ha.symm, List.mem_iff_getElem?.mpr ⟨j, hb⟩⟩
      | succ i => exact .inr ⟨i, j, Nat.lt_of_succ_lt_succ hij, ha, hb⟩

theorem getElem?_inj_of_nodup {order : List α} (hnodup : order.Nodup) {i j : ℕ} {a : α}
    (hi : order[i]? = some a) (hj : order[j]? = some a) : i = j := by
  have hlength : i < order.length := (List.getElem?_eq_some_iff.mp hi).1
  exact (List.getElem?_inj hlength hnodup).mp (hi.trans hj.symm)

theorem Before.irrefl {order : List α} (hnodup : order.Nodup) (a : α) : ¬Before order a a := by
  intro h
  obtain ⟨i, j, hij, hi, hj⟩ := before_iff.mp h
  exact hij.ne (getElem?_inj_of_nodup hnodup hi hj)

theorem Before.trans {order : List α} (hnodup : order.Nodup) {a b c : α}
    (hab : Before order a b) (hbc : Before order b c) : Before order a c := by
  obtain ⟨i, j, hij, hi, hj⟩ := before_iff.mp hab
  obtain ⟨j', k, hjk, hj', hk⟩ := before_iff.mp hbc
  obtain rfl := getElem?_inj_of_nodup hnodup hj hj'
  exact before_iff.mpr ⟨i, k, hij.trans hjk, hi, hk⟩

theorem acyclic_of_before {order : List α} (hnodup : order.Nodup) {R : α → α → Prop}
    (h : ∀ a b, R a b → Before order a b) : Acyclic R := by
  intro a ha
  have hpath : ∀ b, Relation.TransGen R a b → Before order a b := by
    intro b hb
    induction hb with
    | single hab => exact h _ _ hab
    | tail _ hbc ih => exact ih.trans hnodup (h _ _ hbc)
  exact Before.irrefl hnodup a (hpath a ha)

variable [DecidableEq α]

theorem nodup_iff_card_toFinset {xs : List α} : xs.toFinset.card = xs.length ↔ xs.Nodup :=
  Multiset.toFinset_card_eq_card_iff_nodup (m := (xs : Multiset α))

theorem perm_iff_length_toFinset {xs ys : List α} (hys : ys.Nodup) :
    xs.length = ys.toFinset.card ∧ xs.toFinset = ys.toFinset ↔ xs.Perm ys := by
  constructor
  · rintro ⟨hlength, hmembers⟩
    have hxs : xs.Nodup := by
      rw [← nodup_iff_card_toFinset, hmembers, hlength]
    exact List.perm_of_nodup_nodup_toFinset_eq hxs hys hmembers
  · intro h
    exact ⟨by rw [List.toFinset_card_of_nodup hys, h.length_eq], List.toFinset_eq_of_perm _ _ h⟩

theorem find?_zipIdx_iff {order : List α} (hnodup : order.Nodup) {a : α} {i : ℕ} :
    (order.zipIdx.reverse.find? fun entry => entry.1 == a).map (·.2) = some i ↔
      order[i]? = some a := by
  have hentry : ∀ entry, entry ∈ order.zipIdx.reverse ↔ order[entry.2]? = some entry.1 :=
    fun entry => by rw [List.mem_reverse, List.mem_zipIdx_iff_getElem?]
  rw [Option.map_eq_some_iff]
  constructor
  · rintro ⟨⟨b, j⟩, hfind, rfl⟩
    have hname : b = a := by simpa using List.find?_some hfind
    exact hname ▸ (hentry (b, j)).mp (List.mem_of_find?_eq_some hfind)
  · intro hi
    obtain ⟨⟨b, j⟩, hfind⟩ : ∃ entry,
        order.zipIdx.reverse.find? (fun entry => entry.1 == a) = some entry := by
      rw [← Option.isSome_iff_exists, List.find?_isSome]
      exact ⟨(a, i), (hentry (a, i)).mpr hi, beq_self_eq_true a⟩
    have hname : b = a := by simpa using List.find?_some hfind
    have hj : order[j]? = some a := hname ▸ (hentry (b, j)).mp (List.mem_of_find?_eq_some hfind)
    exact ⟨(b, j), hfind, getElem?_inj_of_nodup hnodup hj hi⟩

end AtomVibe.TopologicalOrder
