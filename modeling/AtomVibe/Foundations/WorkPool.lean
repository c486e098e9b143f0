import Mathlib.Algebra.BigOperators.Group.Finset.Basic
import Mathlib.Algebra.Order.BigOperators.Group.Finset
import Mathlib.Algebra.Order.Group.Multiset
import Mathlib.Data.Fintype.Card
import Mathlib.Data.List.Perm.Basic
import Mathlib.Logic.Relation
import Mathlib.Tactic.Abel

/-! Workers that fetch tasks from a source and carry them out on a memory they share. -/

namespace AtomVibe.WorkPool

open Finset Function Relation

variable {ι S τ σ : Type*} [Fintype ι] [DecidableEq ι]

/-- What the source has left, the tasks each worker has before it, who has left, and the memory. -/
structure Pool (ι S τ σ : Type*) where
  source : S
  held : ι → List τ
  left : Finset ι
  memory : σ

/-- A worker without tasks fetches some, or hears that there are none left; one with tasks carries
out the first. -/
inductive Step (fetch : ι → S → Option (List τ) → S → Prop) (act : τ → σ → σ) :
    Pool ι S τ σ → Pool ι S τ σ → Prop
  | fetched {p : Pool ι S τ σ} {i : ι} {tasks : List τ} {source : S} (idle : p.held i = [])
      (stays : i ∉ p.left) (given : fetch i p.source (some tasks) source) :
      Step fetch act p { p with source, held := update p.held i tasks }
  | leaves {p : Pool ι S τ σ} {i : ι} {source : S} (idle : p.held i = []) (stays : i ∉ p.left)
      (given : fetch i p.source none source) :
      Step fetch act p { p with source, left := insert i p.left }
  | works {p : Pool ι S τ σ} {i : ι} {task : τ} {rest : List τ} (next : p.held i = task :: rest) :
      Step fetch act p { p with held := update p.held i rest, memory := act task p.memory }

/-- The source hands out what it has from the front and never blocks; `ok` counts the workers it
may still send away. -/
structure Serves (fetch : ι → S → Option (List τ) → S → Prop) (rest : S → List τ) (size : S → ℕ)
    (ok : ℕ → S → Prop) : Prop where
  hands {n : ℕ} {i : ι} {s s' : S} {tasks : List τ} (h : ok (n + 1) s)
    (given : fetch i s (some tasks) s') :
    rest s = tasks ++ rest s' ∧ size s' < size s ∧ ok (n + 1) s'
  sends {n : ℕ} {i : ι} {s s' : S} (h : ok (n + 1) s) (given : fetch i s none s') :
    rest s = [] ∧ rest s' = [] ∧ size s' ≤ size s ∧ ok n s'
  answers {n : ℕ} {s : S} (i : ι) (h : ok (n + 1) s) : ∃ given s', fetch i s given s'

namespace Pool

def pending (rest : S → List τ) (p : Pool ι S τ σ) : Multiset τ :=
  ∑ i, (p.held i : Multiset τ) + rest p.source

def ahead (rest : S → List τ) (size : S → ℕ) (p : Pool ι S τ σ) : ℕ :=
  size p.source + ∑ i, (p.held i).length + (rest p.source).length + (univ \ p.left).card

structure Sound (rest : S → List τ) (ok : ℕ → S → Prop) (p : Pool ι S τ σ) : Prop where
  idle : ∀ i ∈ p.left, p.held i = []
  drained : p.left.Nonempty → rest p.source = []
  serving : ok (univ \ p.left).card p.source

end Pool

variable {fetch : ι → S → Option (List τ) → S → Prop} {act : τ → σ → σ} {rest : S → List τ}
  {size : S → ℕ} {ok : ℕ → S → Prop} {p q : Pool ι S τ σ}

theorem sum_update {M : Type*} [AddCommMonoid M] (f : List τ → M) (held : ι → List τ) (i : ι)
    (tasks : List τ) :
    ∑ j, f (update held i tasks j) + f (held i) = ∑ j, f (held j) + f tasks := by
  have hrest : ∑ j ∈ univ.erase i, f (update held i tasks j) = ∑ j ∈ univ.erase i, f (held j) := by
    apply sum_congr rfl
    intro j hj
    rw [update_of_ne (ne_of_mem_erase hj)]
  rw [← add_sum_erase _ _ (mem_univ i), ← add_sum_erase (a := i) _ (fun j => f (held j)) (mem_univ i),
    hrest, update_self]
  abel

theorem card_stays {left : Finset ι} {i : ι} (h : i ∉ left) :
    (univ \ left).card = (univ \ insert i left).card + 1 := by
  rw [← card_insert_of_notMem (a := i) (s := univ \ insert i left) (by simp)]
  congr 1
  ext j
  by_cases hj : j = i
  · simp [hj, h]
  · simp [hj]

theorem Step.spec (serves : Serves fetch rest size ok) (h : Step fetch act p q)
    (hp : p.Sound rest ok) : q.Sound rest ok ∧ q.ahead rest size < p.ahead rest size ∧
      ((q.pending rest = p.pending rest ∧ q.memory = p.memory) ∨
        ∃ task, p.pending rest = task ::ₘ q.pending rest ∧ q.memory = act task p.memory) := by
  obtain ⟨hidle, hdrained, hserving⟩ := hp
  cases h with
  | @fetched i tasks source idle stays given =>
    rw [card_stays stays] at hserving
    obtain ⟨hrest, hsize, hok⟩ := serves.hands hserving given
    rw [← card_stays stays] at hok
    refine ⟨⟨?_, ?_, hok⟩, ?_, .inl ⟨?_, rfl⟩⟩
    · intro j hj
      have hne : j ≠ i := by
        rintro rfl
        exact stays hj
      simp only [update_of_ne hne, hidle j hj]
    · intro hleft
      exact (List.append_eq_nil_iff.mp (hrest.symm.trans (hdrained hleft))).2
    · have hsum := sum_update List.length p.held i tasks
      simp only [Pool.ahead]
      rw [idle, List.length_nil, add_zero] at hsum
      rw [hrest, List.length_append]
      omega
    · have hsum := sum_update (fun ts : List τ => (ts : Multiset τ)) p.held i tasks
      rw [idle, Multiset.coe_nil, add_zero] at hsum
      rw [Pool.pending, hsum, Pool.pending, hrest, ← Multiset.coe_add, add_assoc]
  | @leaves i source idle stays given =>
    have hcard := card_stays stays
    rw [hcard] at hserving
    obtain ⟨hrest, hrest', hsize, hok⟩ := serves.sends hserving given
    refine ⟨⟨?_, fun _ => hrest', hok⟩, ?_, .inl ⟨?_, rfl⟩⟩
    · intro j hj
      rcases mem_insert.mp hj with rfl | hj
      · exact idle
      · exact hidle j hj
    · simp only [Pool.ahead]
      rw [hrest, hrest']
      omega
    · rw [Pool.pending, Pool.pending, hrest, hrest']
  | @works i task tasks next =>
    refine ⟨⟨?_, hdrained, hserving⟩, ?_, .inr ⟨task, ?_, rfl⟩⟩
    · intro j hj
      have hne : j ≠ i := by
        rintro rfl
        rw [hidle j hj] at next
        exact absurd next (by simp)
      simp only [update_of_ne hne, hidle j hj]
    · have hsum := sum_update List.length p.held i tasks
      rw [next, List.length_cons] at hsum
      simp only [Pool.ahead]
      omega
    · have hsum := sum_update (fun ts : List τ => (ts : Multiset τ)) p.held i tasks
      rw [next, ← Multiset.cons_coe, Multiset.add_cons] at hsum
      rw [Pool.pending, Pool.pending, ← Multiset.cons_add]
      congr 1
      apply add_right_cancel (b := (tasks : Multiset τ))
      rw [← hsum, Multiset.cons_add]

/-- Whatever the interleaving, the memory is what the tasks carried out have made of it. -/
theorem run_spec (serves : Serves fetch rest size ok) (h : ReflTransGen (Step fetch act) p q)
    (hp : p.Sound rest ok) : q.Sound rest ok ∧ ∃ done : List τ,
      p.pending rest = done + q.pending rest ∧
        q.memory = done.foldl (fun memory task => act task memory) p.memory := by
  induction h with
  | refl => exact ⟨hp, [], by simp, rfl⟩
  | tail _ hstep ih =>
    obtain ⟨hsound, done, hpending, hmemory⟩ := ih
    obtain ⟨hnext, -, ⟨hsame, hkept⟩ | ⟨task, htask, hmade⟩⟩ := hstep.spec serves hsound
    · exact ⟨hnext, done, by rw [hsame, hpending], by rw [hkept, hmemory]⟩
    · refine ⟨hnext, done ++ [task], ?_, ?_⟩
      · rw [hpending, htask, ← Multiset.coe_add, add_assoc]
        rfl
      · rw [List.foldl_append, ← hmemory, hmade]
        rfl

/-- A pool that can make no step has nothing pending. -/
theorem pending_of_stuck [Nonempty ι] (serves : Serves fetch rest size ok) (hp : p.Sound rest ok)
    (hstuck : ∀ q, ¬Step fetch act p q) : p.pending rest = 0 := by
  have hheld : ∀ i, p.held i = [] := by
    intro i
    cases hi : p.held i with
    | nil => rfl
    | cons task tasks => exact absurd (Step.works hi) (hstuck _)
  have hleft : ∀ i, i ∈ p.left := by
    intro i
    by_contra hi
    have hserving := hp.serving
    rw [card_stays hi] at hserving
    obtain ⟨given, source, hfetch⟩ := serves.answers i hserving
    cases given with
    | none => exact hstuck _ (.leaves (hheld i) hi hfetch)
    | some tasks => exact hstuck _ (.fetched (hheld i) hi hfetch)
  rw [Pool.pending, hp.drained ⟨Classical.arbitrary ι, hleft _⟩]
  simp [hheld]

/-- The memories a pool can end with, once no step can be made any more. -/
def Finished (fetch : ι → S → Option (List τ) → S → Prop) (act : τ → σ → σ) (p : Pool ι S τ σ)
    (memory : σ) : Prop :=
  ∃ q, ReflTransGen (Step fetch act) p q ∧ (∀ r, ¬Step fetch act q r) ∧ q.memory = memory

theorem exists_finished (act : τ → σ → σ) (serves : Serves fetch rest size ok) (hp : p.Sound rest ok) :
    ∃ q, ReflTransGen (Step fetch act) p q ∧ ∀ r, ¬Step fetch act q r := by
  induction hahead : p.ahead rest size using Nat.strong_induction_on generalizing p with
  | _ ahead ih =>
    by_cases hstuck : ∃ r, Step fetch act p r
    · obtain ⟨r, hstep⟩ := hstuck
      obtain ⟨hr, hlt, -⟩ := hstep.spec serves hp
      obtain ⟨q, hq, hend⟩ := ih _ (hahead ▸ hlt) hr rfl
      exact ⟨q, hq.head hstep, hend⟩
    · exact ⟨p, .refl, fun r hr => hstuck ⟨r, hr⟩⟩

/-- Tasks that commute leave the memory as if they were carried out one after the other. -/
theorem finished_iff [Nonempty ι] (serves : Serves fetch rest size ok) (hp : p.Sound rest ok)
    {tasks : List τ} (htasks : p.pending rest = tasks)
    (hcomm : ∀ s ∈ tasks, ∀ t ∈ tasks, s ≠ t →
      ∀ memory, act s (act t memory) = act t (act s memory)) {memory : σ} :
    Finished fetch act p memory ↔
      memory = tasks.foldl (fun memory task => act task memory) p.memory := by
  have hends : ∀ q, ReflTransGen (Step fetch act) p q → (∀ r, ¬Step fetch act q r) →
      q.memory = tasks.foldl (fun memory task => act task memory) p.memory := by
    intro q h hstuck
    obtain ⟨hq, done, hpending, hmemory⟩ := run_spec serves h hp
    rw [pending_of_stuck serves hq hstuck, add_zero, htasks] at hpending
    have hperm : done.Perm tasks := Multiset.coe_eq_coe.mp hpending.symm
    rw [hmemory]
    refine hperm.foldl_eq' (fun s hs t ht memory => ?_) p.memory
    by_cases hst : s = t
    · rw [hst]
    · exact hcomm t (hperm.mem_iff.mp ht) s (hperm.mem_iff.mp hs) (Ne.symm hst) memory
  constructor
  · rintro ⟨q, h, hstuck, rfl⟩
    exact hends q h hstuck
  · rintro rfl
    obtain ⟨q, h, hstuck⟩ := exists_finished act serves hp
    exact ⟨q, h, hstuck, hends q h hstuck⟩

end AtomVibe.WorkPool

namespace AtomVibe.CellGrid

variable {α : Type} {τ : Type*} {w h : ℕ} {f g : ℕ → ℕ → α} {b : List α}

/-- The buffer begins with the rectangle, row by row. -/
structure Shows (w h : ℕ) (g : ℕ → ℕ → α) (b : List α) : Prop where
  room : w * h ≤ b.length
  cell : ∀ x y, x < w → y < h → b[y * w + x]? = some (g x y)

theorem cell_lt {x y : ℕ} (hx : x < w) (hy : y < h) : y * w + x < w * h := by
  calc y * w + x < y * w + w := Nat.add_lt_add_left hx _
    _ = (y + 1) * w := (Nat.succ_mul y w).symm
    _ ≤ h * w := Nat.mul_le_mul_right w hy
    _ = w * h := Nat.mul_comm h w

theorem cell_inj {x y x' y' : ℕ} (hx : x < w) (hx' : x' < w) (h : y * w + x = y' * w + x') :
    (x, y) = (x', y') := by
  have hmod := congrArg (· % w) h
  have hdiv := congrArg (· / w) h
  have hw : 0 < w := Nat.zero_lt_of_lt hx
  simp only [Nat.mul_comm _ w, Nat.mul_add_mod, Nat.mod_eq_of_lt hx, Nat.mod_eq_of_lt hx',
    Nat.mul_add_div hw, Nat.div_eq_of_lt hx, Nat.div_eq_of_lt hx', add_zero] at hmod hdiv
  rw [hmod, hdiv]

theorem Shows.unique {b' : List α} (hb : Shows w h g b) (hb' : Shows w h g b')
    (hlength : b.length = w * h) (hlength' : b'.length = w * h) : b = b' := by
  apply List.ext_getElem?
  intro j
  by_cases hj : j < w * h
  · have hw : 0 < w := Nat.pos_of_mul_pos_right (Nat.zero_lt_of_lt hj)
    have hplace : j / w * w + j % w = j := Nat.div_add_mod' j w
    have hx := Nat.mod_lt j hw
    have hy : j / w < h := Nat.div_lt_of_lt_mul hj
    rw [← hplace, hb.cell _ _ hx hy, hb'.cell _ _ hx hy]
  · rw [List.getElem?_eq_none (hlength ▸ not_lt.mp hj),
      List.getElem?_eq_none (hlength' ▸ not_lt.mp hj)]

theorem Shows.congr (hb : Shows w h f b) (heq : ∀ x y, x < w → y < h → f x y = g x y) :
    Shows w h g b :=
  ⟨hb.room, fun x y hx hy => by rw [hb.cell x y hx hy, heq x y hx hy]⟩

theorem exists_shows [Nonempty α] (hroom : w * h ≤ b.length) : ∃ f, Shows w h f b := by
  refine ⟨fun x y => b[y * w + x]?.getD (Classical.arbitrary α), hroom, fun x y hx hy => ?_⟩
  rw [List.getElem?_eq_getElem ((cell_lt hx hy).trans_le hroom)]
  rfl

/-- What a task writes, and where: the old value of its cell gives the new one. Without a result an
index is out of range, here or where a value is read. -/
def newValue (index : τ → Option ℕ) (value : τ → α → Option α) (task : τ) (b : List α) :
    Option (ℕ × α) := do
  let i ← index task
  let old ← b[i]?
  let new ← value task old
  return (i, new)

def change (index : τ → Option ℕ) (value : τ → α → Option α) (task : τ) (b : Option (List α)) :
    Option (List α) := do
  let b ← b
  let (i, new) ← newValue index value task b
  return b.set i new

variable {index : τ → Option ℕ} {value : τ → α → Option α} {cell : τ → ℕ × ℕ}

theorem newValue_fst {task : τ} {i : ℕ} {a : α} (h : newValue index value task b = some (i, a)) :
    index task = some i := by
  simp only [newValue, Option.bind_eq_bind, Option.bind_eq_some_iff, Option.pure_def,
    Option.some.injEq, Prod.mk.injEq] at h
  obtain ⟨j, hj, -, -, -, -, rfl, -⟩ := h
  exact hj

theorem newValue_set (value : τ → α → Option α) {task : τ} {i : ℕ} (h : index task ≠ some i) (a : α) :
    newValue index value task (b.set i a) = newValue index value task b := by
  unfold newValue
  cases hj : index task with
  | none => rfl
  | some j =>
    have hij : i ≠ j := fun hij => h (hij ▸ hj)
    simp only [Option.bind_eq_bind, Option.bind_some, List.getElem?_set_ne hij]

theorem change_comm {s t : τ} (hne : ∀ i, index s = some i → index t ≠ some i)
    (b : Option (List α)) : change index value s (change index value t b) =
      change index value t (change index value s b) := by
  cases b with
  | none => rfl
  | some b =>
    cases hs : newValue index value s b with
    | none =>
      cases ht : newValue index value t b with
      | none => simp [change, hs, ht]
      | some new =>
        have hsame := newValue_set (b := b) value
          (fun heq => hne _ heq (newValue_fst ht)) new.2
        simp [change, hs, ht, hsame]
    | some new =>
      have hother := newValue_set (b := b) value (hne _ (newValue_fst hs)) new.2
      cases ht : newValue index value t b with
      | none => simp [change, hs, ht, hother]
      | some new' =>
        have hsame := newValue_set (b := b) value
          (fun heq => hne _ heq (newValue_fst ht)) new'.2
        have hij : new.1 ≠ new'.1 := fun heq =>
          hne _ (newValue_fst hs) (heq ▸ newValue_fst ht)
        simp [change, hs, ht, hother, hsame, List.set_comm _ _ hij]

/-- Tasks for different cells of the rectangle change those cells and no other. -/
theorem foldl_change (index : τ → Option ℕ) (value : τ → α → Option α) (cell : τ → ℕ × ℕ)
    {tasks : List τ} (hnodup : (tasks.map cell).Nodup)
    (hin : ∀ t ∈ tasks, (cell t).1 < w ∧ (cell t).2 < h)
    (hindex : ∀ t ∈ tasks, index t = some ((cell t).2 * w + (cell t).1))
    (hvalue : ∀ t ∈ tasks, value t (f (cell t).1 (cell t).2) = some (g (cell t).1 (cell t).2))
    (hb : Shows w h f b) : ∃ b', tasks.foldl (fun b t => change index value t b) (some b) = some b' ∧
      b'.length = b.length ∧ Shows w h (fun x y => if (x, y) ∈ tasks.map cell then g x y else f x y) b' := by
  induction tasks using List.reverseRecOn with
  | nil => exact ⟨b, rfl, rfl, by simpa using hb⟩
  | append_singleton tasks t ih =>
    rw [List.map_append, List.nodup_append'] at hnodup
    obtain ⟨hfront, -, hapart⟩ := hnodup
    obtain ⟨b', hb', hlength, hshows⟩ := ih hfront (fun s hs => hin s (by simp [hs]))
      (fun s hs => hindex s (by simp [hs])) (fun s hs => hvalue s (by simp [hs]))
    obtain ⟨hx, hy⟩ := hin t (by simp)
    have hnew : cell t ∉ tasks.map cell := fun hmem => hapart hmem (by simp)
    have hold : b'[(cell t).2 * w + (cell t).1]? = some (f (cell t).1 (cell t).2) := by
      rw [hshows.cell _ _ hx hy, if_neg hnew]
    refine ⟨b'.set ((cell t).2 * w + (cell t).1) (g (cell t).1 (cell t).2), ?_,
      by rw [List.length_set, hlength], ?_, ?_⟩
    · rw [List.foldl_append, hb']
      simp [change, newValue, hindex t (by simp), hold, hvalue t (by simp)]
    · rw [List.length_set]
      exact hshows.room
    · intro x y hxw hyh
      rw [List.getElem?_set]
      by_cases hsame : (x, y) = cell t
      · obtain ⟨rfl, rfl⟩ : x = (cell t).1 ∧ y = (cell t).2 := by simp [← hsame]
        rw [if_pos rfl, if_pos ((cell_lt hx hy).trans_le hshows.room), if_pos (by simp)]
      · rw [if_neg (fun heq => hsame (cell_inj hx hxw heq).symm), hshows.cell x y hxw hyh]
        simp [hsame]

end AtomVibe.CellGrid
