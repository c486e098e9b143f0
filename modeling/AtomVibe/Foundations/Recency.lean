import Mathlib.Data.List.DropRight
import Mathlib.Data.List.Nodup
import Mathlib.Data.List.Pairwise

/-!
A memory of bounded size: a new item takes the place of the one with its key, and the oldest item
goes when there are too many. What it holds after any items is what one pass over them selects.
-/

namespace AtomVibe.Recency

variable {α κ : Type*} [DecidableEq κ] (key : α → κ)

def latest (items : List α) : List α := items.pwFilter fun a b => key a ≠ key b

def remember (limit : ℕ) (memory : List α) (item : α) : List α :=
  (memory.filter (fun old => key old ≠ key item) ++ [item]).rtake limit

section Rtake

variable {front back : List α} {n : ℕ}

theorem rtake_of_length_le (h : back.length ≤ n) : back.rtake n = back := by
  rw [List.rtake, Nat.sub_eq_zero_of_le h, List.drop_zero]

theorem rtake_append_of_le (h : n ≤ back.length) : (front ++ back).rtake n = back.rtake n := by
  have hlength : (front ++ back).length - n = front.length + (back.length - n) := by
    rw [List.length_append]
    omega
  rw [List.rtake, List.rtake, hlength, List.drop_length_add_append]

end Rtake

section Latest

variable {key}

theorem pairwise_latest (items : List α) :
    (latest key items).Pairwise fun a b => key a ≠ key b :=
  List.pairwise_pwFilter items

theorem latest_of_pairwise {items : List α} (h : items.Pairwise fun a b => key a ≠ key b) :
    latest key items = items :=
  List.pwFilter_eq_self.mpr h

theorem latest_cons (item : α) (items : List α) :
    latest key (item :: items) = if ∀ other ∈ latest key items, key item ≠ key other
      then item :: latest key items else latest key items := by
  by_cases h : ∀ other ∈ latest key items, key item ≠ key other
  · rw [if_pos h]
    exact List.pwFilter_cons_of_pos h
  · rw [if_neg h]
    exact List.pwFilter_cons_of_neg h

theorem exists_latest_append (items others : List α) :
    ∃ front, latest key (items ++ others) = front ++ latest key others := by
  induction items with
  | nil => exact ⟨[], rfl⟩
  | cons item items ih =>
    obtain ⟨front, hfront⟩ := ih
    rw [List.cons_append, latest_cons]
    split
    · exact ⟨item :: front, by rw [hfront, List.cons_append]⟩
    · exact ⟨front, hfront⟩

theorem latest_append_congr (items : List α) {others others' : List α}
    (h : latest key others = latest key others') :
    latest key (items ++ others) = latest key (items ++ others') := by
  induction items with
  | nil => exact h
  | cons item items ih => rw [List.cons_append, List.cons_append, latest_cons, latest_cons, ih]

theorem latest_concat (items : List α) (item : α) :
    latest key (items ++ [item]) =
      (latest key items).filter (fun old => key old ≠ key item) ++ [item] := by
  induction items with
  | nil => rfl
  | cons first items ih =>
    rw [List.cons_append, latest_cons, latest_cons, ih]
    by_cases hkey : key first = key item
    · rw [if_neg (by simp [hkey])]
      split
      · rw [List.filter_cons_of_neg (by simp [hkey])]
      · rfl
    · have hiff : (∀ other ∈ (latest key items).filter (fun old => key old ≠ key item) ++ [item],
          key first ≠ key other) ↔ ∀ other ∈ latest key items, key first ≠ key other := by
        constructor
        · intro h other hother heq
          exact h other (by simp [hother, ← heq, hkey]) heq
        · intro h other hother
          rcases List.mem_append.mp hother with hother | hother
          · exact h other (List.mem_of_mem_filter hother)
          · rw [List.mem_singleton.mp hother]
            exact hkey
      simp only [hiff]
      split
      · rw [List.filter_cons_of_pos (by simpa using hkey), List.cons_append]
      · rfl

omit [DecidableEq κ] in
theorem key_inj {memory : List α} (h : memory.Pairwise fun a b => key a ≠ key b) {a b : α}
    (ha : a ∈ memory) (hb : b ∈ memory) (hkey : key a = key b) : a = b :=
  List.inj_on_of_nodup_map (List.pairwise_map.mpr h) ha hb hkey

theorem filter_ne_of_forall {memory : List α} {k : κ} (h : ∀ old ∈ memory, key old ≠ k) :
    memory.filter (fun old => key old ≠ k) = memory := by
  rw [List.filter_eq_self]
  intro old hold
  simpa using h old hold

theorem length_le_filter {memory : List α} (h : memory.Pairwise fun a b => key a ≠ key b)
    (k : κ) : memory.length ≤ (memory.filter fun old => key old ≠ k).length + 1 := by
  induction memory with
  | nil => simp
  | cons first memory ih =>
    obtain ⟨hfirst, hrest⟩ := List.pairwise_cons.mp h
    by_cases hkey : key first = k
    · have hself : memory.filter (fun old => key old ≠ k) = memory :=
        filter_ne_of_forall fun old hold => hkey ▸ (hfirst old hold).symm
      rw [List.filter_cons_of_neg (by simp [hkey]), hself, List.length_cons]
    · have hmemory := ih hrest
      rw [List.filter_cons_of_pos (by simpa using hkey), List.length_cons, List.length_cons]
      omega

theorem eraseP_eq_filter {memory : List α} (h : memory.Pairwise fun a b => key a ≠ key b)
    (k : κ) : memory.eraseP (fun old => key old == k) = memory.filter fun old => key old ≠ k := by
  induction memory with
  | nil => rfl
  | cons first memory ih =>
    obtain ⟨hfirst, hrest⟩ := List.pairwise_cons.mp h
    by_cases hkey : key first = k
    · rw [List.eraseP_cons_of_pos (by simp [hkey]), List.filter_cons_of_neg (by simp [hkey]),
        filter_ne_of_forall]
      intro old hold
      rw [← hkey]
      exact (hfirst old hold).symm
    · rw [List.eraseP_cons_of_neg (by simp [hkey]), ih hrest,
        List.filter_cons_of_pos (by simpa using hkey)]

theorem filter_not_mem_take {memory : List α} (h : (memory.map key).Nodup) (n : ℕ) :
    memory.filter (fun old => key old ∉ (memory.take n).map key) = memory.drop n := by
  have hapart : ∀ old ∈ memory.drop n, key old ∉ (memory.take n).map key := by
    rw [← List.take_append_drop n memory, List.map_append, List.nodup_append] at h
    intro old hold hmem
    exact h.2.2 _ hmem _ (List.mem_map_of_mem hold) rfl
  conv_lhs => rw [← List.take_append_drop n memory, List.filter_append]
  rw [List.take_append_drop, List.filter_eq_nil_iff.mpr, List.nil_append, List.filter_eq_self]
  · intro old hold
    simpa using hapart old hold
  · intro old hold
    simpa using List.mem_map_of_mem hold

end Latest

section Remember

variable {key} {limit : ℕ}

theorem length_remember (memory : List α) (item : α) :
    (remember key limit memory item).length ≤ limit := by
  rw [remember, List.rtake, List.length_drop]
  omega

theorem mem_remember {memory : List α} {item other : α}
    (h : other ∈ remember key limit memory item) : other ∈ memory ∨ other = item := by
  rw [remember, List.rtake] at h
  rcases List.mem_append.mp ((List.drop_sublist _ _).subset h) with h | h
  · exact .inl (List.mem_of_mem_filter h)
  · exact .inr (List.mem_singleton.mp h)

theorem item_mem_remember (h : 0 < limit) (memory : List α) (item : α) :
    item ∈ remember key limit memory item := by
  obtain ⟨n, rfl⟩ : ∃ n, limit = n + 1 := ⟨limit - 1, by omega⟩
  rw [remember, List.rtake_concat_succ]
  exact List.mem_append_right _ (List.mem_singleton.mpr rfl)

theorem mem_foldl_remember {items memory : List α} {other : α}
    (h : other ∈ items.foldl (remember key limit) memory) : other ∈ memory ∨ other ∈ items := by
  induction items generalizing memory with
  | nil => exact .inl h
  | cons item items ih =>
    rcases ih h with h | h
    · rcases mem_remember h with h | rfl
      · exact .inl h
      · exact .inr List.mem_cons_self
    · exact .inr (List.mem_cons_of_mem _ h)

theorem remember_latest (items : List α) (item : α) :
    remember key limit ((latest key items).rtake limit) item =
      (latest key (items ++ [item])).rtake limit := by
  rw [remember, latest_concat]
  cases limit with
  | zero => rw [List.rtake_zero, List.rtake_zero]
  | succ n =>
    rw [List.rtake_concat_succ, List.rtake_concat_succ, List.append_cancel_right_eq]
    by_cases hlength : (latest key items).length ≤ n + 1
    · rw [rtake_of_length_le hlength]
    · have hsplit : (latest key items).take ((latest key items).length - (n + 1)) ++
          (latest key items).rtake (n + 1) = latest key items := List.take_append_drop _ _
      have hpairs : ((latest key items).rtake (n + 1)).Pairwise fun a b => key a ≠ key b :=
        (pairwise_latest items).sublist (List.drop_sublist _ _)
      have hkept := length_le_filter hpairs (key item)
      have hsize : ((latest key items).rtake (n + 1)).length = n + 1 := by
        rw [List.rtake, List.length_drop]
        omega
      conv_rhs => rw [← hsplit, List.filter_append]
      rw [rtake_append_of_le (by omega)]

theorem foldl_remember (items : List α) :
    items.foldl (remember key limit) [] = (latest key items).rtake limit := by
  induction items using List.reverseRecOn with
  | nil => exact (List.rtake_nil limit).symm
  | append_singleton items item ih =>
    rw [List.foldl_append, ih, List.foldl_cons, List.foldl_nil, remember_latest]

end Remember

end AtomVibe.Recency
