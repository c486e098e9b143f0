import Mathlib.Algebra.BigOperators.Group.List.Basic
import Mathlib.Algebra.GroupWithZero.Nat
import Mathlib.Algebra.Order.BigOperators.Group.List
import Mathlib.Data.List.Basic

namespace AtomVibe.PrefixCode

variable {α β : Type*}

def SelfDelimiting (code : α → List β) : Prop :=
  ∀ a b s t, code a ++ s = code b ++ t → a = b ∧ s = t

theorem SelfDelimiting.injective {code : α → List β} (h : SelfDelimiting code) :
    Function.Injective code :=
  fun a b hab => (h a b [] [] (by simpa using hab)).1

theorem SelfDelimiting.flatMap_injective {code : α → List β} (h : SelfDelimiting code)
    (hne : ∀ a, code a ≠ []) : Function.Injective (List.flatMap code) := by
  intro as
  induction as with
  | nil =>
    intro bs hbs
    cases bs with
    | nil => rfl
    | cons b bs =>
      rw [List.flatMap_nil, List.flatMap_cons] at hbs
      exact absurd (List.append_eq_nil_iff.mp hbs.symm).1 (hne b)
  | cons a as ih =>
    intro bs hbs
    cases bs with
    | nil =>
      rw [List.flatMap_nil, List.flatMap_cons] at hbs
      exact absurd (List.append_eq_nil_iff.mp hbs).1 (hne a)
    | cons b bs =>
      rw [List.flatMap_cons, List.flatMap_cons] at hbs
      obtain ⟨rfl, hrest⟩ := h a b _ _ hbs
      rw [ih hrest]

theorem append_terminator {sep : β} {x y s t : List β} (hx : sep ∉ x) (hy : sep ∉ y)
    (h : x ++ sep :: s = y ++ sep :: t) : x = y ∧ s = t := by
  induction x generalizing y with
  | nil =>
    cases y with
    | nil => simpa using h
    | cons b y =>
      simp only [List.nil_append, List.cons_append, List.cons.injEq] at h
      exact absurd (h.1 ▸ List.mem_cons_self) hy
  | cons a x ih =>
    cases y with
    | nil =>
      simp only [List.nil_append, List.cons_append, List.cons.injEq] at h
      exact absurd (h.1 ▸ List.mem_cons_self) hx
    | cons b y =>
      simp only [List.cons_append, List.cons.injEq] at h
      obtain ⟨rfl, h⟩ := h
      obtain ⟨rfl, rfl⟩ := ih (fun hm => hx (List.mem_cons_of_mem _ hm))
        (fun hm => hy (List.mem_cons_of_mem _ hm)) h
      exact ⟨rfl, rfl⟩

theorem append_last_separator {sep : β} {x y s t : List β} (hs : sep ∉ s) (ht : sep ∉ t)
    (h : x ++ sep :: s = y ++ sep :: t) : x = y ∧ s = t := by
  have hreverse := congrArg List.reverse h
  simp only [List.reverse_append, List.reverse_cons, List.append_assoc,
    List.singleton_append] at hreverse
  obtain ⟨hst, hxy⟩ := append_terminator (by simpa using hs) (by simpa using ht) hreverse
  exact ⟨List.reverse_injective hxy, List.reverse_injective hst⟩

theorem append_weight {w : β → ℕ} (hw : ∀ b, 0 < w b) {x y s t : List β}
    (hxy : (x.map w).sum = (y.map w).sum) (h : x ++ s = y ++ t) : x = y ∧ s = t := by
  induction x generalizing y with
  | nil =>
    cases y with
    | nil => exact ⟨rfl, h⟩
    | cons b y =>
      have hb := hw b
      simp only [List.map_nil, List.sum_nil, List.map_cons, List.sum_cons] at hxy
      omega
  | cons a x ih =>
    cases y with
    | nil =>
      have ha := hw a
      simp only [List.map_nil, List.sum_nil, List.map_cons, List.sum_cons] at hxy
      omega
    | cons b y =>
      simp only [List.cons_append, List.cons.injEq] at h
      obtain ⟨rfl, h⟩ := h
      simp only [List.map_cons, List.sum_cons, Nat.add_left_cancel_iff] at hxy
      obtain ⟨rfl, rfl⟩ := ih hxy h
      exact ⟨rfl, rfl⟩

theorem selfDelimiting_of_header {header : ℕ → List β} {sep : β} {payload : α → List β}
    {w : β → ℕ} (hw : ∀ b, 0 < w b) (hsep : ∀ n, sep ∉ header n)
    (hheader : Function.Injective header) (hpayload : Function.Injective payload) :
    SelfDelimiting (fun a => header ((payload a).map w).sum ++ sep :: payload a) := by
  intro a b s t h
  simp only [List.append_assoc, List.cons_append] at h
  obtain ⟨hlen, hrest⟩ := append_terminator (hsep _) (hsep _) h
  obtain ⟨hp, hst⟩ := append_weight hw (hheader hlen) hrest
  exact ⟨hpayload hp, hst⟩

end AtomVibe.PrefixCode

/-!
Words joined by a separator that may occur in them: what the joined word leaves open is only how
the separators are spread over the words.
-/

namespace AtomVibe.Separated

variable {β : Type*}

section Counted

variable [DecidableEq β] {sep : β}

theorem append_count {x y s t : List β} (hcount : x.count sep = y.count sep)
    (h : x ++ sep :: s = y ++ sep :: t) : x = y ∧ s = t := by
  induction x generalizing y with
  | nil =>
    cases y with
    | nil => simpa using h
    | cons b y =>
      simp only [List.nil_append, List.cons_append, List.cons.injEq] at h
      rw [List.count_nil, ← h.1, List.count_cons_self] at hcount
      omega
  | cons a x ih =>
    cases y with
    | nil =>
      simp only [List.nil_append, List.cons_append, List.cons.injEq] at h
      rw [List.count_nil, h.1, List.count_cons_self] at hcount
      omega
    | cons b y =>
      simp only [List.cons_append, List.cons.injEq] at h
      obtain ⟨rfl, h⟩ := h
      rw [List.count_cons, List.count_cons] at hcount
      obtain ⟨rfl, rfl⟩ := ih (by omega) h
      exact ⟨rfl, rfl⟩

theorem intercalate_inj {xs ys : List (List β)}
    (hcount : xs.map (List.count sep) = ys.map (List.count sep))
    (h : [sep].intercalate xs = [sep].intercalate ys) : xs = ys := by
  induction xs generalizing ys with
  | nil => exact (List.map_eq_nil_iff.mp hcount.symm).symm
  | cons x xs ih =>
    cases ys with
    | nil => simp at hcount
    | cons y ys =>
      obtain ⟨hhead, htail⟩ := List.cons.inj hcount
      have hlength := congrArg List.length htail
      simp only [List.length_map] at hlength
      cases xs with
      | nil =>
        obtain rfl := List.length_eq_zero_iff.mp hlength.symm
        simpa using h
      | cons x' xs =>
        cases ys with
        | nil => simp at hlength
        | cons y' ys =>
          rw [List.intercalate_cons_cons, List.intercalate_cons_cons] at h
          simp only [List.append_assoc, List.singleton_append] at h
          obtain ⟨rfl, hrest⟩ := append_count hhead h
          rw [ih htail hrest]

end Counted

section Marked

theorem append_marked {mark : β → Prop} {x y s t : List β} (hx : ∀ b ∈ x, ¬mark b)
    (hy : ∀ b ∈ y, ¬mark b) (hs : ∀ b ∈ s.head?, mark b) (ht : ∀ b ∈ t.head?, mark b)
    (h : x ++ s = y ++ t) : x = y ∧ s = t := by
  induction x generalizing y with
  | nil =>
    cases y with
    | nil => exact ⟨rfl, h⟩
    | cons b y =>
      rw [List.nil_append] at h
      exact absurd (hs b (by simp [h])) (hy b List.mem_cons_self)
  | cons a x ih =>
    cases y with
    | nil =>
      rw [List.nil_append] at h
      exact absurd (ht a (by simp [← h])) (hx a List.mem_cons_self)
    | cons b y =>
      rw [List.cons_append, List.cons_append] at h
      obtain ⟨rfl, hrest⟩ := List.cons.inj h
      obtain ⟨rfl, rfl⟩ := ih (fun b hb => hx b (List.mem_cons_of_mem _ hb))
        (fun b hb => hy b (List.mem_cons_of_mem _ hb)) hrest
      exact ⟨rfl, rfl⟩

def IsBlock (mark : β → Prop) (block : β × List β) : Prop :=
  mark block.1 ∧ ∀ b ∈ block.2, ¬mark b

def blockWords (blocks : List (β × List β)) : List β := blocks.flatMap fun block => block.1 :: block.2

theorem head_blockWords {mark : β → Prop} {blocks : List (β × List β)}
    (h : ∀ block ∈ blocks, IsBlock mark block) : ∀ b ∈ (blockWords blocks).head?, mark b := by
  cases blocks with
  | nil => simp [blockWords]
  | cons block blocks =>
    intro b hb
    obtain rfl : block.1 = b := by simpa [blockWords] using hb
    exact (h block List.mem_cons_self).1

theorem blockWords_inj {mark : β → Prop} {xs ys : List (β × List β)}
    (hxs : ∀ block ∈ xs, IsBlock mark block) (hys : ∀ block ∈ ys, IsBlock mark block)
    (h : blockWords xs = blockWords ys) : xs = ys := by
  induction xs generalizing ys with
  | nil =>
    cases ys with
    | nil => rfl
    | cons y ys => simp [blockWords] at h
  | cons x xs ih =>
    cases ys with
    | nil => simp [blockWords] at h
    | cons y ys =>
      obtain ⟨hx, hxs⟩ := List.forall_mem_cons.mp hxs
      obtain ⟨hy, hys⟩ := List.forall_mem_cons.mp hys
      simp only [blockWords, List.flatMap_cons, List.cons_append, List.cons.injEq] at h
      obtain ⟨hmark, hbody⟩ := h
      obtain ⟨hsame, hrest⟩ :=
        append_marked hx.2 hy.2 (head_blockWords hxs) (head_blockWords hys) hbody
      rw [Prod.ext hmark hsame, ih hxs hys hrest]

end Marked

end AtomVibe.Separated
