import Mathlib.Data.List.Induction

namespace AtomVibe.Transition

variable {σ ι ο : Type*}

structure Visit (σ ι ο : Type*) where
  before : σ
  input : ι
  output : ο
  after : σ

variable (step : σ → ι → ο × σ)

def visit (s : σ) (i : ι) : Visit σ ι ο := ⟨s, i, (step s i).1, (step s i).2⟩

def trace : σ → List ι → List (Visit σ ι ο)
  | _, [] => []
  | s, i :: is => visit step s i :: trace (step s i).2 is

def final : σ → List ι → σ
  | s, [] => s
  | s, i :: is => final (step s i).2 is

def Guarded (ok : σ → ι → Prop) (s : σ) (is : List ι) : Prop :=
  ∀ v ∈ trace step s is, ok v.before v.input

theorem final_append (s : σ) (is js : List ι) :
    final step s (is ++ js) = final step (final step s is) js := by
  induction is generalizing s with
  | nil => rfl
  | cons i is ih => exact ih (step s i).2

theorem trace_append (s : σ) (is js : List ι) :
    trace step s (is ++ js) = trace step s is ++ trace step (final step s is) js := by
  induction is generalizing s with
  | nil => rfl
  | cons i is ih => simp only [List.cons_append, trace, final, ih]

theorem trace_concat (s : σ) (is : List ι) (i : ι) :
    trace step s (is ++ [i]) = trace step s is ++ [visit step (final step s is) i] :=
  trace_append step s is [i]

theorem final_concat (s : σ) (is : List ι) (i : ι) :
    final step s (is ++ [i]) = (step (final step s is) i).2 :=
  final_append step s is [i]

theorem map_input_trace (s : σ) (is : List ι) : (trace step s is).map (·.input) = is := by
  induction is generalizing s with
  | nil => rfl
  | cons i is ih => rw [trace, List.map_cons, ih]; rfl

variable {step}

theorem Guarded.append_left {ok : σ → ι → Prop} {s : σ} {is js : List ι}
    (h : Guarded step ok s (is ++ js)) : Guarded step ok s is := by
  intro v hv
  apply h v
  rw [trace_append]
  exact List.mem_append_left _ hv

theorem Guarded.last {ok : σ → ι → Prop} {s : σ} {is : List ι} {i : ι}
    (h : Guarded step ok s (is ++ [i])) : ok (final step s is) i := by
  apply h (visit step (final step s is) i)
  rw [trace_concat]
  exact List.mem_append_right _ List.mem_cons_self

theorem guarded_induction (ok : σ → ι → Prop) (Inv : List (Visit σ ι ο) → σ → Prop) {s : σ}
    (h0 : Inv [] s)
    (hstep : ∀ past t i, Inv past t → ok t i → Inv (past ++ [visit step t i]) (step t i).2)
    (is : List ι) (hg : Guarded step ok s is) : Inv (trace step s is) (final step s is) := by
  induction is using List.reverseRecOn with
  | nil => exact h0
  | append_singleton is i ih =>
    rw [trace_concat, final_concat]
    exact hstep _ _ _ (ih hg.append_left) hg.last

theorem run_induction (Inv : List (Visit σ ι ο) → σ → Prop) {s : σ} (h0 : Inv [] s)
    (hstep : ∀ past t i, Inv past t → Inv (past ++ [visit step t i]) (step t i).2)
    (is : List ι) : Inv (trace step s is) (final step s is) :=
  guarded_induction (fun _ _ => True) Inv h0 (fun past t i h _ => hstep past t i h) is
    (fun _ _ => trivial)

theorem invariant (Inv : σ → Prop) {s : σ} (h0 : Inv s)
    (hstep : ∀ t i, Inv t → Inv (step t i).2) (is : List ι) : Inv (final step s is) :=
  run_induction (fun _ t => Inv t) h0 (fun _ t i h => hstep t i h) is

theorem guarded_visits (ok : σ → ι → Prop) (Inv : σ → Prop) {s : σ} (h0 : Inv s)
    (hstep : ∀ t i, Inv t → ok t i → Inv (step t i).2) (is : List ι)
    (hg : Guarded step ok s is) :
    ∀ v ∈ trace step s is, v = visit step v.before v.input ∧ Inv v.before ∧ Inv v.after := by
  refine (guarded_induction ok (fun past t => Inv t ∧ ∀ v ∈ past,
    v = visit step v.before v.input ∧ Inv v.before ∧ Inv v.after) ⟨h0, by simp⟩ ?_ is hg).2
  rintro past t i ⟨ht, hp⟩ hok
  have hn := hstep t i ht hok
  refine ⟨hn, fun v hv => ?_⟩
  rcases List.mem_append.mp hv with hv | hv
  · exact hp v hv
  · rw [List.mem_singleton.mp hv]
    exact ⟨rfl, ht, hn⟩

theorem visits (Inv : σ → Prop) {s : σ} (h0 : Inv s)
    (hstep : ∀ t i, Inv t → Inv (step t i).2) (is : List ι) :
    ∀ v ∈ trace step s is, v = visit step v.before v.input ∧ Inv v.before ∧ Inv v.after :=
  guarded_visits (fun _ _ => True) Inv h0 (fun t i h _ => hstep t i h) is (fun _ _ => trivial)

theorem guarded_pairwise (ok : σ → ι → Prop) (Inv : σ → Prop) (Le : σ → σ → Prop)
    (hrefl : ∀ t, Le t t) (htrans : ∀ t u v, Le t u → Le u v → Le t v) {s : σ} (h0 : Inv s)
    (hstep : ∀ t i, Inv t → ok t i → Inv (step t i).2 ∧ Le t (step t i).2) (is : List ι)
    (hg : Guarded step ok s is) :
    (trace step s is).Pairwise fun v w => Le v.after w.before := by
  have h := guarded_induction ok (fun past t => Inv t ∧ (∀ v ∈ past, Le v.after t) ∧
    past.Pairwise fun v w => Le v.after w.before) ⟨h0, by simp, .nil⟩ ?_ is hg
  · exact h.2.2
  · rintro past t i ⟨ht, hpast, hpairs⟩ hok
    obtain ⟨hnext, hle⟩ := hstep t i ht hok
    refine ⟨hnext, fun v hv => ?_, ?_⟩
    · rcases List.mem_append.mp hv with hv | hv
      · exact htrans _ _ _ (hpast v hv) hle
      · rw [List.mem_singleton.mp hv]
        exact hrefl _
    · apply List.pairwise_append.mpr
      refine ⟨hpairs, List.pairwise_singleton _ _, fun v hv w hw => ?_⟩
      rw [List.mem_singleton.mp hw]
      exact hpast v hv

end AtomVibe.Transition

namespace AtomVibe.PartialRun

open Transition

variable {σ ι ο : Type*}

inductive Run (step : σ → ι → Option (ο × σ)) (start : σ → Prop) :
    List (Visit σ ι ο) → σ → Prop
  | start {s : σ} (h : start s) : Run step start [] s
  | call {past : List (Visit σ ι ο)} {s t : σ} {i : ι} {o : ο} (before : Run step start past s)
      (made : step s i = some (o, t)) : Run step start (past ++ [⟨s, i, o, t⟩]) t

variable {step : σ → ι → Option (ο × σ)} {start : σ → Prop} {past : List (Visit σ ι ο)} {s : σ}

theorem Run.guarded_induction (ok : Visit σ ι ο → Prop) (Inv : List (Visit σ ι ο) → σ → Prop)
    (h0 : ∀ s, start s → Inv [] s)
    (hstep : ∀ past v, Inv past v.before → step v.before v.input = some (v.output, v.after) →
      ok v → Inv (past ++ [v]) v.after)
    (h : Run step start past s) (hok : ∀ v ∈ past, ok v) : Inv past s := by
  induction h with
  | start h => exact h0 _ h
  | call before made ih =>
    rw [List.forall_mem_append, List.forall_mem_singleton] at hok
    exact hstep _ _ (ih hok.1) made hok.2

theorem Run.induction (Inv : List (Visit σ ι ο) → σ → Prop) (h0 : ∀ s, start s → Inv [] s)
    (hstep : ∀ past v, Inv past v.before → step v.before v.input = some (v.output, v.after) →
      Inv (past ++ [v]) v.after)
    (h : Run step start past s) : Inv past s :=
  h.guarded_induction (fun _ => True) Inv h0 (fun past v hinv hmade _ => hstep past v hinv hmade)
    (fun _ _ => trivial)

theorem Run.split {before after : List (Visit σ ι ο)} {v : Visit σ ι ο}
    (h : Run step start past s) (hpast : past = before ++ v :: after) :
    Run step start before v.before ∧ step v.before v.input = some (v.output, v.after) := by
  induction h generalizing after with
  | start _ => exact absurd hpast.symm (by simp)
  | @call past s t i o hrun made ih =>
    rcases List.eq_nil_or_concat after with rfl | ⟨rest, last, rfl⟩
    · obtain ⟨rfl, hv⟩ := List.append_inj' hpast rfl
      obtain rfl := List.head_eq_of_cons_eq hv
      exact ⟨hrun, made⟩
    · rw [List.concat_eq_append, ← List.cons_append, ← List.append_assoc] at hpast
      exact ih (List.append_inj' hpast rfl).1

end AtomVibe.PartialRun
