import AtomVibe.FastBuild
import Mathlib.Data.Prod.Lex

namespace AtomVibe.AvcCore

open Text FirstBest

section Errors

theorem length_le_utf8Len (cs : List Char) : cs.length ≤ utf8Len cs := by
  induction cs with
  | nil => exact le_rfl
  | cons c cs ih =>
    have hsize := Char.utf8Size_pos c
    rw [utf8Len_cons, List.length_cons]
    omega

theorem length_linesFrom (line cs : List Char) :
    (linesFrom line cs).length ≤ line.length + cs.length := by
  induction cs generalizing line with
  | nil =>
    rw [linesFrom]
    split
    · omega
    · rename_i hne
      have hlength := List.length_pos_of_ne_nil hne
      rw [List.length_singleton]
      omega
  | cons c cs ih =>
    by_cases hc : c = '\n'
    · have hrest := ih []
      obtain ⟨read, hread⟩ := linesFrom_newline line
      subst hc
      rw [hread]
      simp only [List.length_cons, List.length_nil] at hrest ⊢
      omega
    · have hrest := ih (c :: line)
      rw [linesFrom_cons hc]
      simp only [List.length_cons] at hrest ⊢
      omega

theorem utf8Len_boundedText (limit : ℕ) (text : String) :
    utf8Len (boundedText limit text).toList ≤ limit + 3 := by
  rw [boundedText]
  split
  · rename_i hsize
    rw [utf8ByteSize_eq] at hsize
    omega
  · rw [String.toList_append, String.toList_ofList, utf8Len_append, utf8Len_takeBytes_floor]
    have hfloor := floorCharBoundary_le text.toList limit
    have hdots : utf8Len "...".toList = 3 := by decide
    omega

theorem countRustcErrors_lt {run : RustcRun} {errors : String} (h : statusOf run = .failed errors) :
    countRustcErrors errors < usizeMax := by
  obtain ⟨stderr, rfl⟩ : ∃ stderr, errors = boundedText 4000 stderr := by
    cases run with
    | notRun => cases h
    | success => cases h
    | failure stderr => exact ⟨trim stderr, (CompileStatus.failed.inj h).symm⟩
  have hbytes := utf8Len_boundedText 4000 stderr
  have hchars := length_le_utf8Len (boundedText 4000 stderr).toList
  have hlines := length_linesFrom [] (boundedText 4000 stderr).toList
  have hcount : countRustcErrors (boundedText 4000 stderr) ≤
      (lines (boundedText 4000 stderr)).length := List.countP_le_length
  rw [lines] at hcount
  rw [List.length_nil] at hlines
  rw [usizeMax]
  omega

end Errors

def failureOf (check : String × CompileStatus) : Option (String × String) :=
  match check.2 with
  | .failed errors => some (check.1, errors)
  | _ => none

def failures (checks : List (String × CompileStatus)) : List (String × String) :=
  checks.filterMap failureOf

def rank (failure : String × String) : ℕ ×ₗ ℕ :=
  toLex (if candidateHasMain failure.1 then 0 else 1, countRustcErrors failure.2)

theorem better_iff (code errors code' errors' : String) :
    Build.better (Build.score code errors) (Build.score code' errors') = true ↔
      rank (code', errors') < rank (code, errors) := by
  rw [Build.score, Build.score, rank, rank, Prod.Lex.toLex_lt_toLex, Build.better]
  cases candidateHasMain code <;> cases candidateHasMain code' <;> simp

theorem better_first (code : String) {errors : String} (h : countRustcErrors errors < usizeMax) :
    Build.better (false, usizeMax) (Build.score code errors) = true := by
  rw [Build.score, Build.better]
  cases candidateHasMain code with
  | true => rfl
  | false => simpa using h

/-- The state between two turns of the loop: all checks so far have failed, and the best of their
programs is kept with its score and its errors. -/
structure Kept (limit left : ℕ) (s : Build) : Prop where
  count : s.checks.length = s.repairAttempts
  left : s.repairAttempts + left = limit
  compiled : s.compiled = false
  failed : ∀ check ∈ s.checks, ∃ errors, check.2 = .failed errors
  best : (s.checks = [] ∧ s.bestScore = (false, usizeMax)) ∨
    ∃ i, First rank (failures s.checks) i (s.bestCode, s.compileErrors) ∧
      s.bestScore = Build.score s.bestCode s.compileErrors ∧ s.verified = true

structure Settled (limit : ℕ) (s : Build) : Prop where
  checks : s.checks.length ≤ limit + 1
  repairs : s.repairAttempts ≤ limit
  passed : (∃ check ∈ s.checks, check.2 = .ok) →
    s.compiled = true ∧ (s.bestCode, CompileStatus.ok) ∈ s.checks
  failed : (∀ check ∈ s.checks, check.2 ≠ .ok) → failures s.checks ≠ [] →
    s.compiled = false ∧ s.verified = true ∧
      ∃ i, First rank (failures s.checks) i (s.bestCode, s.compileErrors)

section Loop

variable {limit left : ℕ} {s : Build} {errors : String}

theorem failures_concat_failed (checks : List (String × CompileStatus)) (code errors : String) :
    failures (checks ++ [(code, .failed errors)]) = failures checks ++ [(code, errors)] := by
  rw [failures, List.filterMap_append]
  rfl

theorem fail_fields : (s.fail errors).checks = s.checks ∧
    (s.fail errors).repairAttempts = s.repairAttempts ∧ (s.fail errors).compiled = s.compiled := by
  rw [Build.fail]
  split <;> exact ⟨rfl, rfl, rfl⟩

theorem Kept.fail (h : Kept limit left s) (herrors : countRustcErrors errors < usizeMax) :
    ∃ i, First rank (failures (s.checked (.failed errors)).checks) i
        (((s.checked (.failed errors)).fail errors).bestCode,
          ((s.checked (.failed errors)).fail errors).compileErrors) ∧
      ((s.checked (.failed errors)).fail errors).bestScore =
        Build.score ((s.checked (.failed errors)).fail errors).bestCode
          ((s.checked (.failed errors)).fail errors).compileErrors ∧
      ((s.checked (.failed errors)).fail errors).verified = true := by
  rw [Build.checked, failures_concat_failed, Build.fail]
  rcases h.best with ⟨hchecks, hscore⟩ | ⟨i, hfirst, hscore, hverified⟩
  · rw [hscore, if_pos (better_first s.code herrors), hchecks]
    exact ⟨0, first_singleton (s.code, errors), rfl, rfl⟩
  · rw [hscore]
    by_cases hbetter : Build.better (Build.score s.bestCode s.compileErrors)
        (Build.score s.code errors) = true
    · rw [if_pos hbetter]
      exact ⟨_, hfirst.replace ((better_iff _ _ _ _).mp hbetter), rfl, rfl⟩
    · rw [if_neg hbetter]
      exact ⟨i, hfirst.keep ((better_iff _ _ _ _).not.mp hbetter), rfl, rfl⟩

theorem Kept.not_ok (h : Kept limit left s) : ∀ check ∈ s.checks, check.2 ≠ .ok := by
  intro check hcheck
  obtain ⟨errors, herrors⟩ := h.failed check hcheck
  rw [herrors]
  rintro ⟨⟩

theorem Kept.passed (h : Kept limit left s) :
    Settled limit { s.checked .ok with
      verified := true, compiled := true, compileErrors := "", bestCode := s.code } where
  checks := by
    have hcount := h.count
    have hleft := h.left
    simp only [Build.checked, List.length_append, List.length_singleton]
    omega
  repairs := by
    have hleft := h.left
    simp only [Build.checked]
    omega
  passed := fun _ => ⟨rfl, List.mem_append_right _ List.mem_cons_self⟩
  failed := fun hnone => absurd rfl (hnone _ (List.mem_append_right _ List.mem_cons_self))

theorem Kept.unavailable (h : Kept limit left s) : Settled limit (s.checked .unavailable) where
  checks := by
    have hcount := h.count
    have hleft := h.left
    simp only [Build.checked, List.length_append, List.length_singleton]
    omega
  repairs := by
    have hleft := h.left
    simp only [Build.checked]
    omega
  passed := by
    rintro ⟨check, hcheck, hok⟩
    rcases List.mem_append.mp hcheck with hcheck | hcheck
    · exact absurd hok (h.not_ok check hcheck)
    · rw [List.mem_singleton.mp hcheck] at hok
      cases hok
  failed := by
    intro _ hne
    have hsame : failures (s.checked .unavailable).checks = failures s.checks := by
      rw [Build.checked, failures, List.filterMap_append]
      exact List.append_nil _
    rw [hsame] at hne ⊢
    rcases h.best with ⟨hchecks, -⟩ | ⟨i, hfirst, -, hverified⟩
    · rw [hchecks] at hne
      exact absurd rfl hne
    · exact ⟨h.compiled, hverified, i, hfirst⟩

theorem Kept.exhausted (h : Kept limit 0 s) (herrors : countRustcErrors errors < usizeMax) :
    Settled limit ((s.checked (.failed errors)).fail errors) := by
  obtain ⟨i, hfirst, -, hverified⟩ := h.fail herrors
  obtain ⟨hchecks, hrepairs, hcompiled⟩ := @fail_fields (s.checked (.failed errors)) errors
  have hcount := h.count
  have hleft := h.left
  constructor
  · rw [hchecks]
    simp only [Build.checked, List.length_append, List.length_singleton]
    omega
  · rw [hrepairs]
    simp only [Build.checked]
    omega
  · rw [hchecks]
    rintro ⟨check, hcheck, hok⟩
    rcases List.mem_append.mp hcheck with hcheck | hcheck
    · exact absurd hok (h.not_ok check hcheck)
    · rw [List.mem_singleton.mp hcheck] at hok
      cases hok
  · intro _ _
    rw [hchecks, hcompiled]
    exact ⟨h.compiled, hverified, i, hfirst⟩

theorem Kept.repair (h : Kept limit (left + 1) s) (herrors : countRustcErrors errors < usizeMax)
    (code : String) :
    Kept limit left { (s.checked (.failed errors)).fail errors with
      repairAttempts := ((s.checked (.failed errors)).fail errors).repairAttempts + 1
      code := code } := by
  have hbest := h.fail herrors
  obtain ⟨hchecks, hrepairs, hcompiled⟩ := @fail_fields (s.checked (.failed errors)) errors
  have hcount := h.count
  have hleft := h.left
  rw [← hchecks] at hbest
  constructor
  · dsimp only
    rw [hchecks, hrepairs]
    simp only [Build.checked, List.length_append, List.length_singleton]
    omega
  · dsimp only
    rw [hrepairs]
    simp only [Build.checked]
    omega
  · exact hcompiled.trans h.compiled
  · dsimp only
    rw [hchecks]
    intro check hcheck
    rcases List.mem_append.mp hcheck with hcheck | hcheck
    · exact h.failed check hcheck
    · exact ⟨errors, by rw [List.mem_singleton.mp hcheck]⟩
  · exact Or.inr hbest

theorem repairLoop_settled (host : Host) (config : ProviderConversion.Avc.ProviderConfig)
    (intent plan : String) (priorLessons : List (String × String)) (h : Kept limit left s) {r : Build}
    (hr : repairLoop host config intent plan priorLessons left s = some (.ok r)) :
    Settled limit r := by
  induction left generalizing s with
  | zero =>
    rw [repairLoop] at hr
    cases hstatus : statusOf (host.rustc s.checks.length s.code) with
    | ok =>
      simp only [hstatus, Option.some.injEq, Except.ok.injEq] at hr
      rw [← hr]
      exact h.passed
    | unavailable =>
      simp only [hstatus, Option.some.injEq, Except.ok.injEq] at hr
      rw [← hr]
      exact h.unavailable
    | failed errors =>
      simp only [hstatus, Option.some.injEq, Except.ok.injEq] at hr
      rw [← hr]
      exact h.exhausted (countRustcErrors_lt hstatus)
  | succ left ih =>
    rw [repairLoop] at hr
    cases hstatus : statusOf (host.rustc s.checks.length s.code) with
    | ok =>
      simp only [hstatus, Option.some.injEq, Except.ok.injEq] at hr
      rw [← hr]
      exact h.passed
    | unavailable =>
      simp only [hstatus, Option.some.injEq, Except.ok.injEq] at hr
      rw [← hr]
      exact h.unavailable
    | failed errors =>
      simp only [hstatus] at hr
      split at hr
      · cases hr
      · cases hr
      · exact ih (h.repair (countRustcErrors_lt hstatus) _) hr

end Loop

theorem kept_start (limit : ℕ) (code : String) : Kept limit limit (Build.start code) where
  count := rfl
  left := Nat.zero_add limit
  compiled := rfl
  failed := fun _ hcheck => absurd hcheck List.not_mem_nil
  best := Or.inl ⟨rfl, rfl⟩

/-- A build with verification on checks no more often than its repairs allow, and what it writes is
the program that compiles, or else the first of the best programs that were checked, with the
errors of this program. -/
theorem runFastBuild_best (host : Host) (config : ProviderConversion.Avc.ProviderConfig)
    (intent plan : String) (priorLessons : List (String × String)) (stamp : ℕ)
    (hverify : verify host = true) {run : Run}
    (h : runFastBuild host config intent plan priorLessons stamp = some (.ok run)) :
    run.checks.length ≤ maxRepair host + 1 ∧ run.build.repairAttempts ≤ maxRepair host ∧
      ((∃ check ∈ run.checks, check.2 = .ok) →
        run.build.compiled = true ∧ (run.code, CompileStatus.ok) ∈ run.checks) ∧
      ((∀ check ∈ run.checks, check.2 ≠ .ok) → failures run.checks ≠ [] →
        run.build.compiled = false ∧ run.build.verified = true ∧
          ∃ i errors, First rank (failures run.checks) i (run.code, errors) ∧
            run.build.compileErrors = truncateForLog errors) := by
  rw [runFastBuild] at h
  split at h
  · cases h
  · cases h
  · rename_i code _
    simp only [hverify, if_true, Option.map_eq_some_iff] at h
    obtain ⟨result, hresult, hfinish⟩ := h
    cases result with
    | error error => cases hfinish
    | ok r =>
      obtain rfl := Except.ok.inj hfinish
      have hsettled := repairLoop_settled host config intent plan priorLessons
        (kept_start (maxRepair host) (code.getD noCodeStub)) hresult
      refine ⟨hsettled.checks, hsettled.repairs, hsettled.passed, fun hnone hne => ?_⟩
      obtain ⟨hcompiled, hverified, i, hfirst⟩ := hsettled.failed hnone hne
      exact ⟨hcompiled, hverified, i, r.compileErrors, hfirst, rfl⟩

def repairedHost : Host where
  env := fun name => if name = "VIBE_REPAIR_ATTEMPTS" then some "1" else none
  execute := fun _ _ => .ok "x"
  rustc := fun n _ => if n = 0 then .failure "error: e" else .success
  writeSource := fun name _ => .ok name

def readyConfig : ProviderConversion.Avc.ProviderConfig :=
  ⟨.custom, .ollamaChat, "e", "m", "k", "h", "s", "", "r", true⟩

theorem runFastBuild_best_repaired : ∃ run,
    runFastBuild repairedHost readyConfig "t" "p" [] 7 = some (.ok run) ∧
      run.build.repairAttempts ≤ 1 := by
  have hok : (runFastBuild repairedHost readyConfig "t" "p" [] 7).map Except.isOk = some true := by
    decide +kernel
  obtain ⟨result, hresult, hisOk⟩ := Option.map_eq_some_iff.mp hok
  cases result with
  | error error => cases hisOk
  | ok run =>
    have hlimit : maxRepair repairedHost = 1 := by decide +kernel
    have hbest := runFastBuild_best repairedHost readyConfig "t" "p" [] 7 (by decide) hresult
    rw [hlimit] at hbest
    exact ⟨run, hresult, hbest.2.1⟩

end AtomVibe.AvcCore
