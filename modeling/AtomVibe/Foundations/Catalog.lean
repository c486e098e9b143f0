import Mathlib.Data.List.Basic
import Mathlib.Order.Lattice

namespace AtomVibe

structure Catalog (κ β : Type*) [LinearOrder κ] where
  entries : List (κ × β)
  sorted : entries.Pairwise fun x y => x.1 < y.1

namespace Catalog

variable {κ β : Type*} [LinearOrder κ]

theorem ext {c d : Catalog κ β} (h : c.entries = d.entries) : c = d := by
  cases c
  cases d
  cases h
  rfl

def empty : Catalog κ β := ⟨[], List.Pairwise.nil⟩

def lookup (c : Catalog κ β) (k : κ) : Option β := (c.entries.find? fun e => e.1 == k).map (·.2)

def insertEntry (k : κ) (v : β) : List (κ × β) → List (κ × β)
  | [] => [(k, v)]
  | e :: es =>
    if k < e.1 then (k, v) :: e :: es
    else if e.1 < k then e :: insertEntry k v es
    else (k, v) :: es

theorem mem_insertEntry {k : κ} {v : β} {es : List (κ × β)}
    (h : es.Pairwise fun x y => x.1 < y.1) (x : κ × β) :
    x ∈ insertEntry k v es ↔ x = (k, v) ∨ (x ∈ es ∧ x.1 ≠ k) := by
  induction es with
  | nil => simp [insertEntry]
  | cons e es ih =>
    obtain ⟨he, hes⟩ := List.pairwise_cons.mp h
    simp only [insertEntry]
    split_ifs with hlt hgt
    · have hne : ∀ y ∈ e :: es, y.1 ≠ k := by
        intro y hy
        rcases List.mem_cons.mp hy with rfl | hy
        · exact hlt.ne'
        · exact (lt_trans hlt (he y hy)).ne'
      rw [List.mem_cons]
      exact or_congr_right ⟨fun hx => ⟨hx, hne x hx⟩, fun hx => hx.1⟩
    · rw [List.mem_cons, List.mem_cons, ih hes]
      constructor
      · rintro (rfl | rfl | ⟨hx, hk⟩)
        · exact .inr ⟨.inl rfl, hgt.ne⟩
        · exact .inl rfl
        · exact .inr ⟨.inr hx, hk⟩
      · rintro (rfl | ⟨rfl | hx, hk⟩)
        · exact .inr (.inl rfl)
        · exact .inl rfl
        · exact .inr (.inr ⟨hx, hk⟩)
    · have hk : e.1 = k := le_antisymm (not_lt.mp hlt) (not_lt.mp hgt)
      have hne : ∀ y ∈ es, y.1 ≠ k := fun y hy => hk ▸ (he y hy).ne'
      rw [List.mem_cons, List.mem_cons]
      constructor
      · rintro (rfl | hx)
        · exact .inl rfl
        · exact .inr ⟨.inr hx, hne x hx⟩
      · rintro (rfl | ⟨rfl | hx, hxk⟩)
        · exact .inl rfl
        · exact absurd hk hxk
        · exact .inr hx

theorem pairwise_insertEntry (k : κ) (v : β) {es : List (κ × β)}
    (h : es.Pairwise fun x y => x.1 < y.1) :
    (insertEntry k v es).Pairwise fun x y => x.1 < y.1 := by
  induction es with
  | nil => simp [insertEntry]
  | cons e es ih =>
    obtain ⟨he, hes⟩ := List.pairwise_cons.mp h
    simp only [insertEntry]
    split_ifs with hlt hgt
    · refine List.pairwise_cons.mpr ⟨fun x hx => ?_, h⟩
      rcases List.mem_cons.mp hx with rfl | hx
      · exact hlt
      · exact lt_trans hlt (he x hx)
    · refine List.pairwise_cons.mpr ⟨fun x hx => ?_, ih hes⟩
      rcases (mem_insertEntry hes x).mp hx with rfl | ⟨hx, -⟩
      · exact hgt
      · exact he x hx
    · have hk : e.1 = k := le_antisymm (not_lt.mp hlt) (not_lt.mp hgt)
      exact List.pairwise_cons.mpr ⟨fun x hx => hk ▸ he x hx, hes⟩

def insert (c : Catalog κ β) (k : κ) (v : β) : Catalog κ β :=
  ⟨insertEntry k v c.entries, pairwise_insertEntry k v c.sorted⟩

theorem mem_insert {c : Catalog κ β} {k : κ} {v : β} {x : κ × β} :
    x ∈ (c.insert k v).entries ↔ x = (k, v) ∨ (x ∈ c.entries ∧ x.1 ≠ k) :=
  mem_insertEntry c.sorted x

theorem lookup_eq_some {c : Catalog κ β} {k : κ} {v : β} :
    c.lookup k = some v ↔ (k, v) ∈ c.entries := by
  obtain ⟨es, hes⟩ := c
  simp only [lookup]
  induction es with
  | nil => simp
  | cons e es ih =>
    obtain ⟨he, hes⟩ := List.pairwise_cons.mp hes
    by_cases hk : e.1 = k
    · have hnot : (k, v) ∉ es := fun hm => (he (k, v) hm).ne hk
      rw [List.find?_cons, beq_iff_eq.mpr hk, List.mem_cons]
      simp only [Option.map_some, Option.some.injEq, hnot, or_false]
      exact ⟨fun hv => Prod.ext hk.symm hv.symm, fun h => (congrArg Prod.snd h).symm⟩
    · have hne : (k, v) ≠ e := fun h => hk (h ▸ rfl)
      rw [List.find?_cons, beq_eq_false_iff_ne.mpr hk, List.mem_cons]
      simp only [hne, false_or]
      exact ih hes

theorem lookup_eq_none {c : Catalog κ β} {k : κ} :
    c.lookup k = none ↔ ∀ e ∈ c.entries, e.1 ≠ k := by
  simp [lookup]

theorem nodup_names (c : Catalog κ β) : (c.entries.map (·.1)).Nodup := by
  exact (List.pairwise_map.mpr c.sorted).imp fun h => h.ne

theorem mem_names {c : Catalog κ β} {k : κ} :
    k ∈ c.entries.map (·.1) ↔ ∃ v, c.lookup k = some v := by
  simp only [List.mem_map, Prod.exists, exists_and_right, exists_eq_right, lookup_eq_some]

theorem insert_perm {c : Catalog κ β} {k : κ} (v : β) (h : ∀ e ∈ c.entries, e.1 ≠ k) :
    (c.insert k v).entries.Perm ((k, v) :: c.entries) := by
  obtain ⟨es, hes⟩ := c
  simp only [insert]
  induction es with
  | nil => exact List.Perm.refl _
  | cons e es ih =>
    obtain ⟨he, hes⟩ := List.pairwise_cons.mp hes
    obtain ⟨hek, hrest⟩ := List.forall_mem_cons.mp h
    simp only [insertEntry]
    split_ifs with hlt hgt
    · exact List.Perm.refl _
    · exact ((ih hes hrest).cons e).trans (List.Perm.swap _ _ _)
    · exact absurd (le_antisymm (not_lt.mp hlt) (not_lt.mp hgt)) hek

theorem lookup_insert (c : Catalog κ β) (k : κ) (v : β) (j : κ) :
    (c.insert k v).lookup j = if j = k then some v else c.lookup j := by
  refine Option.ext fun w => ?_
  rw [lookup_eq_some, mem_insert]
  split_ifs with h
  · simp [h, eq_comm]
  · simp [h, lookup_eq_some]

theorem filter_insert (c : Catalog κ β) {p : κ → Bool} {k : κ} (v : β) (hp : p k = true)
    (hlast : ∀ e ∈ c.entries, p e.1 = true → e.1 < k) :
    (c.insert k v).entries.filter (fun e => p e.1) =
      c.entries.filter (fun e => p e.1) ++ [(k, v)] := by
  obtain ⟨es, hes⟩ := c
  simp only [insert] at hlast ⊢
  induction es with
  | nil => simp [insertEntry, hp]
  | cons e es ih =>
    obtain ⟨he, hes⟩ := List.pairwise_cons.mp hes
    have hrest := ih hes fun x hx => hlast x (List.mem_cons_of_mem _ hx)
    simp only [insertEntry]
    split_ifs with hlt hgt
    · have hempty : (e :: es).filter (fun x => p x.1) = [] := by
        rw [List.filter_eq_nil_iff]
        intro x hx hpx
        have hkx : k ≤ x.1 := by
          rcases List.mem_cons.mp hx with rfl | hx
          · exact hlt.le
          · exact hlt.le.trans (he x hx).le
        exact absurd (hlast x hx hpx) (not_lt.mpr hkx)
      rw [List.filter_cons, if_pos hp, hempty]
      rfl
    · by_cases hpe : p e.1 = true
      · simp only [List.filter_cons, hpe, if_true, hrest, List.cons_append]
      · simp only [List.filter_cons, hpe, hrest, Bool.false_eq_true, if_false]
    · have hk : e.1 = k := le_antisymm (not_lt.mp hlt) (not_lt.mp hgt)
      exact absurd (hlast e List.mem_cons_self (hk ▸ hp)) hgt

end Catalog

end AtomVibe
