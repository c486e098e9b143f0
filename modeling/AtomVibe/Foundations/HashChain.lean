import Mathlib.Data.List.Basic
import Mathlib.Data.List.Induction

namespace AtomVibe.HashChain

variable {β δ : Type*} (prev digest : β → δ)

def Linked : δ → List β → Prop
  | _, [] => True
  | g, b :: bs => prev b = g ∧ Linked (digest b) bs

def tip (g : δ) : List β → δ
  | [] => g
  | b :: bs => tip (digest b) bs

/-- No block of `bs` and block of `cs` collide under `digest`. -/
def CollisionFree (bs cs : List β) : Prop :=
  ∀ b ∈ bs, ∀ c ∈ cs, digest b = digest c → b = c

variable {prev digest}

@[simp]
theorem tip_concat (g : δ) (bs : List β) (b : β) : tip digest g (bs ++ [b]) = digest b := by
  induction bs generalizing g with
  | nil => rfl
  | cons c bs ih => exact ih (digest c)

theorem tip_eq_getLast (g : δ) (bs : List β) : tip digest g bs = (bs.getLast?.map digest).getD g := by
  rcases List.eq_nil_or_concat' bs with rfl | ⟨bs, b, rfl⟩
  · rfl
  · simp

theorem linked_append {g : δ} {bs cs : List β} :
    Linked prev digest g (bs ++ cs) ↔
      Linked prev digest g bs ∧ Linked prev digest (tip digest g bs) cs := by
  induction bs generalizing g with
  | nil => simp [Linked, tip]
  | cons b bs ih => simp only [List.cons_append, Linked, tip, ih, and_assoc]

theorem linked_concat {g : δ} {bs : List β} {b : β} :
    Linked prev digest g (bs ++ [b]) ↔
      Linked prev digest g bs ∧ prev b = tip digest g bs := by
  simp [linked_append, Linked]

theorem CollisionFree.dropLast {bs cs : List β} {b c : β}
    (h : CollisionFree digest (bs ++ [b]) (cs ++ [c])) : CollisionFree digest bs cs :=
  fun x hx y hy => h x (List.mem_append_left _ hx) y (List.mem_append_left _ hy)

theorem linked_unique {g g' : δ} {bs cs : List β} (hb : Linked prev digest g bs)
    (hc : Linked prev digest g' cs) (hfree : CollisionFree digest bs cs)
    (hlength : bs.length = cs.length) (hlast : bs.getLast? = cs.getLast?) : bs = cs := by
  induction bs using List.reverseRecOn generalizing cs with
  | nil => exact (List.length_eq_zero_iff.mp hlength.symm).symm
  | append_singleton bs b ih =>
    rcases List.eq_nil_or_concat' cs with rfl | ⟨cs, c, rfl⟩
    · simp at hlength
    obtain rfl : b = c := by simpa using hlast
    obtain ⟨hb, hbprev⟩ := linked_concat.mp hb
    obtain ⟨hc, hcprev⟩ := linked_concat.mp hc
    have hn : bs.length = cs.length := by simpa using hlength
    -- the shared last block carries the digest of both predecessors
    have hl : bs.getLast? = cs.getLast? := by
      rcases List.eq_nil_or_concat' bs with rfl | ⟨bs', x, rfl⟩
      · rw [List.length_eq_zero_iff.mp hn.symm]
      rcases List.eq_nil_or_concat' cs with rfl | ⟨cs', y, rfl⟩
      · simp at hn
      have hxy : digest x = digest y := by
        have hx := hbprev.trans (tip_concat g bs' x)
        have hy := hcprev.trans (tip_concat g' cs' y)
        exact hx.symm.trans hy
      rw [hfree.dropLast x (by simp) y (by simp) hxy]
      simp
    rw [ih hb hc hfree.dropLast hn hl]

end AtomVibe.HashChain

namespace AtomVibe.ReadChain

open HashChain

inductive Chain {φ β δ : Type*} (reads : ℕ → δ → φ → β → Prop) (digest : β → δ) :
    ℕ → δ → List φ → List β → Prop
  | nil (i : ℕ) (g : δ) : Chain reads digest i g [] []
  | cons {i : ℕ} {g : δ} {f : φ} {b : β} {fs : List φ} {bs : List β} (head : reads i g f b)
      (tail : Chain reads digest (i + 1) (digest b) fs bs) :
      Chain reads digest i g (f :: fs) (b :: bs)

variable {φ β δ : Type*} {reads : ℕ → δ → φ → β → Prop} {digest : β → δ} {i : ℕ} {g : δ}
  {fs : List φ} {bs : List β}

theorem Chain.length_eq (h : Chain reads digest i g fs bs) : fs.length = bs.length := by
  induction h with
  | nil => rfl
  | cons _ _ ih => simp [ih]

theorem Chain.concat (h : Chain reads digest i g fs bs) {f : φ} {b : β}
    (hlast : reads (i + bs.length) (tip digest g bs) f b) :
    Chain reads digest i g (fs ++ [f]) (bs ++ [b]) := by
  induction h with
  | nil i g => exact .cons hlast (.nil _ _)
  | @cons i _ _ b _ bs head _ ih =>
    refine .cons head (ih ?_)
    rw [List.length_cons, ← Nat.add_assoc, Nat.add_right_comm] at hlast
    exact hlast

theorem Chain.of_concat {f : φ} (h : Chain reads digest i g (fs ++ [f]) bs) :
    ∃ bs' b, bs = bs' ++ [b] ∧ Chain reads digest i g fs bs' ∧
      reads (i + bs'.length) (tip digest g bs') f b := by
  induction fs generalizing i g bs with
  | nil =>
    cases h with
    | @cons _ _ _ b _ _ head tail =>
      cases tail
      exact ⟨[], b, rfl, .nil i g, head⟩
  | cons f' fs ih =>
    cases h with
    | @cons _ _ _ b' _ _ head tail =>
      obtain ⟨bs', b, rfl, htail, hlast⟩ := ih tail
      rw [Nat.add_right_comm] at hlast
      exact ⟨b' :: bs', b, rfl, .cons head htail, hlast⟩

theorem Chain.get (h : Chain reads digest i g fs bs) {k : ℕ} {f : φ} (hk : fs[k]? = some f) :
    ∃ g' b, bs[k]? = some b ∧ reads (i + k) g' f b := by
  induction h generalizing k with
  | nil => simp at hk
  | @cons i g _ b _ _ head _ ih =>
    cases k with
    | zero =>
      obtain rfl := Option.some.inj hk
      exact ⟨g, b, rfl, head⟩
    | succ k =>
      obtain ⟨g', b', hb, hr⟩ := ih (by simpa using hk)
      rw [Nat.add_right_comm] at hr
      exact ⟨g', b', by simpa using hb, hr⟩

theorem Chain.mem (h : Chain reads digest i g fs bs) {b : β} (hb : b ∈ bs) :
    ∃ k g' f, f ∈ fs ∧ k < bs.length ∧ reads (i + k) g' f b := by
  obtain ⟨k, hk, rfl⟩ := List.mem_iff_getElem.mp hb
  have hlt : k < fs.length := h.length_eq ▸ hk
  obtain ⟨g', b', hb', hr⟩ := h.get (List.getElem?_eq_getElem hlt)
  rw [List.getElem?_eq_getElem hk] at hb'
  exact ⟨k, g', _, List.getElem_mem _, hk, Option.some.inj hb' ▸ hr⟩

theorem Chain.linked {prev : β → δ} (hprev : ∀ i g f b, reads i g f b → prev b = g)
    (h : Chain reads digest i g fs bs) : Linked prev digest g bs := by
  induction h with
  | nil => trivial
  | cons head _ ih => exact ⟨hprev _ _ _ _ head, ih⟩

theorem Chain.files_eq {view : β → φ} (hview : ∀ i g f b, reads i g f b → f = view b)
    (h : Chain reads digest i g fs bs) : fs = bs.map view := by
  induction h with
  | nil => rfl
  | cons head _ ih => rw [hview _ _ _ _ head, ih, List.map_cons]

theorem Chain.unique (hread : ∀ i g f b b', reads i g f b → reads i g f b' → b = b')
    {bs' : List β} (h : Chain reads digest i g fs bs) (h' : Chain reads digest i g fs bs') :
    bs = bs' := by
  induction h generalizing bs' with
  | nil =>
    cases h'
    rfl
  | cons head _ ih =>
    cases h' with
    | cons head' tail' =>
      obtain rfl := hread _ _ _ _ _ head head'
      rw [ih tail']

end AtomVibe.ReadChain
