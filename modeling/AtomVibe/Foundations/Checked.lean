import Mathlib.Data.List.Forall2

/-! Computations that may refuse their input, read off where they succeed. -/

namespace AtomVibe.Checked

variable {ε α β : Type}

@[simp]
theorem ok_bind (a : α) (f : α → Except ε β) : (Except.ok a >>= f) = f a := rfl

theorem bind_eq_ok {x : Except ε α} {f : α → Except ε β} {b : β} :
    (x >>= f) = .ok b ↔ ∃ a, x = .ok a ∧ f a = .ok b := by
  cases x <;> simp [bind, Except.bind]

theorem pure_eq_ok {a b : α} : (pure a : Except ε α) = .ok b ↔ a = b := by
  simp [pure, Except.pure]

theorem exists_ok_of_any {x : Except ε α} {p : α → Bool} (h : x.toOption.any p = true) :
    ∃ a, x = .ok a ∧ p a = true := by
  cases x with
  | error e => simp [Except.toOption] at h
  | ok a => exact ⟨a, rfl, by simpa [Except.toOption] using h⟩

def okOr (error : ε) : Option α → Except ε α
  | some value => .ok value
  | none => .error error

@[simp]
theorem okOr_some (error : ε) (value : α) : okOr error (some value) = .ok value := rfl

theorem okOr_eq_ok {error : ε} {x : Option α} {a : α} : okOr error x = .ok a ↔ x = some a := by
  cases x <;> simp [okOr]

def refuseIf (bad : Prop) [Decidable bad] (error : ε) : Except ε Unit :=
  if bad then .error error else .ok ()

theorem refuseIf_eq_ok {bad : Prop} [Decidable bad] {error : ε} {u : Unit} :
    refuseIf bad error = .ok u ↔ ¬bad := by
  unfold refuseIf
  split_ifs with h <;> simp [h]

theorem mapError_eq_ok {ε' : Type} {f : ε → ε'} {x : Except ε α} {a : α} :
    x.mapError f = .ok a ↔ x = .ok a := by
  cases x <;> simp [Except.mapError]

def checkAll (check : α → Except ε Unit) : List α → Except ε Unit
  | [] => .ok ()
  | value :: values => do
    check value
    checkAll check values

theorem checkAll_eq_ok {check : α → Except ε Unit} {values : List α} {u : Unit} :
    checkAll check values = .ok u ↔ ∀ value ∈ values, check value = .ok () := by
  induction values with
  | nil => simp [checkAll]
  | cons value values ih =>
    rw [List.forall_mem_cons, ← ih, checkAll, bind_eq_ok]
    exact ⟨fun ⟨_, h⟩ => h, fun h => ⟨(), h⟩⟩

theorem mapM_eq_ok_iff {read : α → Except ε β} {xs : List α} {ys : List β} :
    xs.mapM read = .ok ys ↔ List.Forall₂ (fun x y => read x = .ok y) xs ys := by
  induction xs generalizing ys with
  | nil =>
    rw [List.mapM_nil, pure_eq_ok, List.forall₂_nil_left_iff]
    exact eq_comm
  | cons x xs ih =>
    simp only [List.mapM_cons, bind_eq_ok, pure_eq_ok, ih]
    constructor
    · rintro ⟨y, hy, ys', hys, rfl⟩
      exact .cons hy hys
    · rintro (_ | ⟨hy, hys⟩)
      exact ⟨_, hy, _, hys, rfl⟩

theorem exists_mapM_ok {read : α → Except ε β} {xs : List α}
    (h : ∀ x ∈ xs, ∃ y, read x = .ok y) : ∃ ys, xs.mapM read = .ok ys := by
  induction xs with
  | nil => exact ⟨[], rfl⟩
  | cons x xs ih =>
    obtain ⟨⟨y, hy⟩, hxs⟩ := List.forall_mem_cons.mp h
    obtain ⟨ys, hys⟩ := ih hxs
    exact ⟨y :: ys, by rw [List.mapM_cons, hy, ok_bind, hys]; rfl⟩

theorem mem_of_mapM_ok {read : α → Except ε β} {xs : List α} {ys : List β}
    (h : xs.mapM read = .ok ys) (y : β) : y ∈ ys ↔ ∃ x ∈ xs, read x = .ok y := by
  have hall := mapM_eq_ok_iff.mp h
  clear h
  induction hall with
  | nil => simp
  | @cons x z xs ys hx _ ih =>
    simp only [List.mem_cons, exists_eq_or_imp, hx, Except.ok.injEq, @eq_comm _ y z]
    exact or_congr_right ih

theorem mapM_ok {γ : Type} {read : β → Except ε γ} {value : α → β} {out : α → γ} (xs : List α)
    (h : ∀ x ∈ xs, read (value x) = .ok (out x)) :
    (xs.map value).mapM read = .ok (xs.map out) := by
  rw [mapM_eq_ok_iff, List.forall₂_map_left_iff, List.forall₂_map_right_iff]
  exact List.forall₂_same.mpr h

theorem mapM_eq_ok {read : β → Except ε α} {value : α → β} (xs : List α) :
    (xs.map value).mapM read = .ok xs ↔ ∀ x ∈ xs, read (value x) = .ok x := by
  rw [mapM_eq_ok_iff, List.forall₂_map_left_iff]
  exact List.forall₂_same

theorem mapM_option_eq_ok {read : β → Except ε α} {value : α → β} (x : Option α) :
    (x.map value).mapM read = .ok x ↔ ∀ a ∈ x.toList, read (value a) = .ok a := by
  cases x with
  | none => simp [pure, Except.pure]
  | some a => cases h : read (value a) <;> simp [h, Functor.map, Except.map]

def RefusesWith (p : ε → Prop) (x : Except ε α) : Prop := ∀ error, x = .error error → p error

section Refusals

variable {p : ε → Prop}

@[simp]
theorem refusesWith_pure (a : α) : RefusesWith p (pure a : Except ε α) := by
  intro error h
  exact absurd h (by simp [pure, Except.pure])

@[simp]
theorem refusesWith_bind {x : Except ε α} {f : α → Except ε β} :
    RefusesWith p (x >>= f) ↔ RefusesWith p x ∧ ∀ a, x = .ok a → RefusesWith p (f a) := by
  cases x <;> simp [RefusesWith, bind, Except.bind]

@[simp]
theorem refusesWith_map {x : Except ε α} {f : α → β} :
    RefusesWith p (f <$> x) ↔ RefusesWith p x := by
  cases x <;> simp [RefusesWith, Functor.map, Except.map]

theorem refusesWith_okOr {error : ε} (h : p error) (x : Option α) :
    RefusesWith p (okOr error x) := by
  cases x <;> simp [RefusesWith, okOr, h]

theorem refusesWith_refuseIf {bad : Prop} [Decidable bad] {error : ε} (h : p error) :
    RefusesWith p (refuseIf bad error) := by
  unfold refuseIf
  split_ifs <;> simp [RefusesWith, h]

theorem refusesWith_mapError {ε' : Type} {f : ε' → ε} (h : ∀ error, p (f error))
    (x : Except ε' α) : RefusesWith p (x.mapError f) := by
  cases x <;> simp [RefusesWith, Except.mapError, h]

theorem refusesWith_mapM {read : α → Except ε β} (h : ∀ x, RefusesWith p (read x))
    (xs : List α) : RefusesWith p (xs.mapM read) := by
  induction xs with
  | nil => simp
  | cons x xs ih => simp [h x, ih]

theorem refusesWith_mapM_option {read : α → Except ε β} (h : ∀ x, RefusesWith p (read x))
    (x : Option α) : RefusesWith p (x.mapM read) := by
  cases x with
  | none => simp
  | some a => simp [h a]

end Refusals

theorem okOr_bind {error : ε} {x : Option α} {f : α → Option β} {g : α → Except ε β}
    (h : ∀ a, x = some a → g a = okOr error (f a)) :
    (okOr error x >>= g) = okOr error (x >>= f) := by
  cases x with
  | none => rfl
  | some a => exact h a rfl

theorem refuseIf_not {bad : Prop} [Decidable bad] (error : ε) :
    refuseIf (¬bad) error = okOr error (guard bad) := by
  by_cases h : bad <;> simp [refuseIf, guard, h, okOr, pure, failure]

structure Meets (p : ε → Prop) (q : α → Prop) (x : Except ε α) : Prop where
  refuses : RefusesWith p x
  returns : ∀ a, x = .ok a → q a

namespace Meets

variable {p : ε → Prop} {q : α → Prop} {r : β → Prop} {x : Except ε α}

protected theorem ok {a : α} (h : q a) : Meets p q (.ok a) := by
  constructor
  · intro e he
    cases he
  · intro b hb
    cases hb
    exact h

protected theorem error {e : ε} (h : p e) : Meets p q (.error e : Except ε α) := by
  constructor
  · intro e' he
    cases he
    exact h
  · intro a ha
    cases ha

protected theorem bind {f : α → Except ε β} (hx : Meets p q x) (hf : ∀ a, q a → Meets p r (f a)) :
    Meets p r (x >>= f) := by
  cases x with
  | error e => exact .error (hx.refuses e rfl)
  | ok a => exact hf a (hx.returns a rfl)

theorem imp {q' : α → Prop} (hx : Meets p q x) (h : ∀ a, q a → q' a) : Meets p q' x :=
  ⟨hx.refuses, fun a ha => h a (hx.returns a ha)⟩

theorem okOr {error : ε} (h : p error) {x : Option α} (hx : ∀ a, x = some a → q a) :
    Meets p q (okOr error x) := by
  cases x with
  | none => exact .error h
  | some a => exact .ok (hx a rfl)

theorem refuseIf {bad : Prop} [Decidable bad] {error : ε} (h : p error) :
    Meets p (fun _ => ¬bad) (refuseIf bad error) :=
  ⟨refusesWith_refuseIf h, fun _ hok => refuseIf_eq_ok.mp hok⟩

theorem foldlM {step : β → α → Except ε β} {xs : List α} {b : β} (hb : r b)
    (hstep : ∀ a ∈ xs, ∀ b, r b → Meets p r (step b a)) : Meets p r (xs.foldlM step b) := by
  induction xs generalizing b with
  | nil => exact .ok hb
  | cons a xs ih =>
    obtain ⟨ha, hxs⟩ := List.forall_mem_cons.mp hstep
    rw [List.foldlM_cons]
    exact (ha b hb).bind fun b hb => ih hb hxs

theorem mapM {read : α → Except ε β} {xs : List α} (h : ∀ x ∈ xs, Meets p r (read x)) :
    Meets p (fun ys => ys.length = xs.length ∧ ∀ y ∈ ys, r y) (xs.mapM read) := by
  induction xs with
  | nil => exact .ok ⟨rfl, List.forall_mem_nil r⟩
  | cons x xs ih =>
    obtain ⟨hx, hxs⟩ := List.forall_mem_cons.mp h
    rw [List.mapM_cons]
    refine hx.bind fun y hy => (ih hxs).bind fun ys hys => .ok ?_
    exact ⟨congrArg (· + 1) hys.1, List.forall_mem_cons.mpr ⟨hy, hys.2⟩⟩

theorem exists_ok (hx : Meets (fun _ => False) q x) : ∃ a, x = .ok a ∧ q a := by
  cases x with
  | error e => exact (hx.refuses e rfl).elim
  | ok a => exact ⟨a, rfl, hx.returns a rfl⟩

end Meets

theorem forall₂_left {R : α → β → Prop} {xs : List α} {ys : List β}
    (h : List.Forall₂ R xs ys) : ∀ x ∈ xs, ∃ y, R x y := by
  induction h with
  | nil => simp
  | cons hxy _ ih => exact List.forall_mem_cons.mpr ⟨⟨_, hxy⟩, ih⟩

end AtomVibe.Checked
