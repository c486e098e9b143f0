import AtomVibe.NativeSteps
import AtomVibe.RuntimeReturns

namespace AtomVibe.Native

open Text Proof Learning LedgerFields CoreRuntime

variable {Graph : Type} {state : AppState Graph}

theorem blockStore_grounded (h : Grounded state.app.runtime) (reason : String) :
    Grounded (state.app.blockStore reason).runtime :=
  markStoreBlocked_grounded h reason

theorem appendLearningRecord_returns (h : Grounded state.app.runtime) (host : Host Graph)
    (machine : Machine) : ∃ result next,
      state.appendLearningRecord host machine = some (result, next) ∧ Grounded next.app.runtime := by
  rw [AppState.appendLearningRecord]
  split
  · exact ⟨_, _, rfl, h⟩
  · rename_i record hrecord
    dsimp only
    split
    · exact ⟨_, _, rfl, h⟩
    · obtain ⟨runtime, hlearned, hnext⟩ := learnLearningRecord_returns h host record
      exact ⟨_, _, Option.bind_eq_some_iff.mpr ⟨runtime, hlearned, rfl⟩, hnext⟩

theorem appendProofRecord_returns (h : Grounded state.app.runtime) (host : Host Graph)
    (machine : Machine) (learn : Bool) : ∃ outcome next,
      state.appendProofRecord host machine learn = some (outcome, next) ∧
        Grounded next.app.runtime := by
  rw [AppState.appendProofRecord]
  dsimp only
  split
  · rename_i reason _
    exact ⟨_, _, rfl, blockStore_grounded h reason⟩
  · have hlearned := learnProofRecord_grounded h host (currentProofRecord state.app)
    split
    · obtain ⟨result, after, hresult, hafter⟩ := @appendLearningRecord_returns _
        (learned host state (state.app.appendProof machine state.disk).2) hlearned host machine
      cases result with
      | ok => exact ⟨_, after, Option.bind_eq_some_iff.mpr ⟨_, hresult, rfl⟩, hafter⟩
      | error reason =>
        exact ⟨_, _, Option.bind_eq_some_iff.mpr ⟨_, hresult, rfl⟩,
          blockStore_grounded hafter reason⟩
    · exact ⟨_, _, rfl, hlearned⟩

theorem deliver_returns (h : Grounded state.app.runtime) (host : Host Graph)
    (delivery : AppState.Delivery)
    (hchecked : ∀ output persisted, delivery.result = .ok output →
      delivery.persisted = .ok persisted →
        state.app.runtime.verifyProviderExecutionReport host delivery.evidence
          ⟨persisted.path, persisted.hash, persisted.len, output⟩ ≠ none) :
    ∃ output runtime, state.deliver host delivery = some (output, runtime) ∧ Grounded runtime := by
  cases hresult : delivery.result with
  | error error =>
    obtain ⟨next, hmarked, hnext⟩ := markProviderBlocked_returns h (host.debugError error)
    rw [AppState.deliver, hresult]
    exact ⟨_, next, Option.bind_eq_some_iff.mpr ⟨next, hmarked, rfl⟩, hnext⟩
  | ok output =>
    cases hpersisted : delivery.persisted with
    | error error =>
      obtain ⟨next, hmarked, hnext⟩ := markProviderBlocked_returns h
        ("provider output evidence persistence failed: " ++ error)
      rw [AppState.deliver, hresult, hpersisted]
      exact ⟨_, next, Option.bind_eq_some_iff.mpr ⟨next, hmarked, rfl⟩, hnext⟩
    | ok persisted =>
      obtain ⟨checked, hchecked⟩ := Option.ne_none_iff_exists'.mp
        (hchecked output persisted hresult hpersisted)
      obtain ⟨accepted, next, hmarked, hnext⟩ := markProviderExecutionReport_returns h hchecked
      rw [AppState.deliver, hresult, hpersisted]
      cases accepted with
      | true => exact ⟨_, next, Option.bind_eq_some_iff.mpr ⟨_, hmarked, rfl⟩, hnext⟩
      | false => exact ⟨_, next, Option.bind_eq_some_iff.mpr ⟨_, hmarked, rfl⟩, hnext⟩

theorem beginProviderExecution_returns (h : Grounded state.app.runtime) :
    ∃ worker next, state.beginProviderExecution = some (worker, next) ∧
      Grounded next.app.runtime := by
  rw [AppState.beginProviderExecution]
  split
  · exact ⟨_, _, rfl, h⟩
  · obtain ⟨task, next, hscheduled, hnext⟩ := scheduleProviderExecution_returns h
    cases task with
    | none => exact ⟨_, _, Option.bind_eq_some_iff.mpr ⟨_, hscheduled, rfl⟩, hnext⟩
    | some task => exact ⟨_, _, Option.bind_eq_some_iff.mpr ⟨_, hscheduled, rfl⟩, hnext⟩

theorem recordFastBuildLearning_returns (h : Grounded state.app.runtime) (host : Host Graph)
    (build : FastBuild) (machine : Machine) :
    ∃ next, state.recordFastBuildLearning host build machine = some next ∧
      Grounded next.app.runtime := by
  rw [AppState.recordFastBuildLearning]
  split
  · exact ⟨_, rfl, h⟩
  · rename_i record hrecord
    dsimp only
    split
    · exact ⟨_, rfl, h⟩
    · obtain ⟨runtime, hlearned, hnext⟩ := learnLearningRecord_returns h host record
      exact ⟨_, Option.bind_eq_some_iff.mpr ⟨runtime, hlearned, rfl⟩, hnext⟩

theorem completeFastBuild_returns (h : Grounded state.app.runtime) (host : Host Graph)
    (result : Except String FastBuild) (memory : Except String Bool) (machine : Machine) :
    ∃ next, state.completeFastBuild host result memory machine = some next ∧
      Grounded next.app.runtime := by
  cases result with
  | error reason => exact ⟨_, rfl, h⟩
  | ok build =>
    rw [completeFastBuild_ok]
    exact @recordFastBuildLearning_returns _ (built state build memory) h host build machine

theorem runCurrentIntent_returns (h : Grounded state.app.runtime) (host : Host Graph)
    (input : String) (machine : Machine) :
    ∃ next, state.runCurrentIntent host input machine = some next ∧ Grounded next.app.runtime := by
  obtain ⟨_, run, runtime, -, hrun, hmade⟩ :=
    runIntentInMode_returns h host (currentIntent input) true rfl rfl rfl
  have hran : Grounded (ran state input runtime).app.runtime := hmade.grounded
  obtain ⟨outcome, next, hproof, hnext⟩ := appendProofRecord_returns hran host machine true
  refine ⟨next, ?_, hnext⟩
  simp only [AppState.runCurrentIntent, Option.bind_eq_bind, MathAtomsRuntime.runCoderIntent, hrun,
    Option.bind_some]
  change ((ran state input runtime).appendProofRecord host machine true).bind _ = _
  rw [hproof]
  rfl

theorem act_returns (h : Grounded state.app.runtime) (host : Host Graph) (call : AppCall)
    (hchecked : ∀ delivery machine output persisted,
      call = .completeProviderExecutionReport delivery machine → delivery.result = .ok output →
        delivery.persisted = .ok persisted →
          state.app.runtime.verifyProviderExecutionReport host delivery.evidence
            ⟨persisted.path, persisted.hash, persisted.len, output⟩ ≠ none) :
    ∃ answer next, act host state call = some (answer, next) ∧ Grounded next.app.runtime := by
  cases call with
  | runCurrentIntent input machine =>
    obtain ⟨next, hmade, hnext⟩ := runCurrentIntent_returns h host input machine
    exact ⟨.done, next, by rw [act, hmade]; rfl, hnext⟩
  | markDrift => exact ⟨.done, state.markDrift, rfl, markDrift_grounded h _⟩
  | applyProviderConfig config =>
    exact ⟨.done, state.applyProviderConfig config, rfl, h.bus,
      fun _ hroute => absurd hroute List.not_mem_nil⟩
  | captureCurrentProof machine =>
    rw [act, AppState.captureCurrentProof]
    split
    · exact ⟨.done, state, rfl, h⟩
    · split
      · exact ⟨.done, state, rfl, h⟩
      · obtain ⟨outcome, next, hproof, hnext⟩ := appendProofRecord_returns h host machine false
        exact ⟨.done, next, by rw [hproof]; rfl, hnext⟩
  | beginProviderExecution =>
    obtain ⟨worker, next, hmade, hnext⟩ := beginProviderExecution_returns h
    exact ⟨.provider worker, next, by rw [act, hmade]; rfl, hnext⟩
  | completeProviderExecutionReport delivery machine =>
    obtain ⟨output, runtime, hdelivered, hgrounded⟩ := deliver_returns h host delivery
      fun output persisted => hchecked delivery machine output persisted rfl
    have hreported : Grounded (reported state output runtime).app.runtime := hgrounded
    obtain ⟨outcome, next, hproof, hnext⟩ := appendProofRecord_returns hreported host machine true
    have hmade : state.completeProviderExecutionReport host delivery machine = some next := by
      simp only [AppState.completeProviderExecutionReport, Option.bind_eq_bind, hdelivered,
        Option.bind_some]
      change ((reported state output runtime).appendProofRecord host machine true).bind _ = _
      rw [hproof]
      rfl
    exact ⟨.done, next, by rw [act, hmade]; rfl, hnext⟩
  | beginFastBuild input ready =>
    refine ⟨.fastBuild (state.beginFastBuild input ready).1, (state.beginFastBuild input ready).2,
      rfl, ?_⟩
    rw [AppState.beginFastBuild]
    split
    · exact h
    · cases ready with
      | error error => exact h
      | ok => exact h
  | completeFastBuild result memory machine =>
    obtain ⟨next, hmade, hnext⟩ := completeFastBuild_returns h host result memory machine
    exact ⟨.done, next, by rw [act, hmade]; rfl, hnext⟩

end AtomVibe.Native

namespace AtomVibe.Native

open Text Proof Learning LedgerFields CoreRuntime Transition PartialRun

variable {Graph : Type} {host : Host Graph} {state next : AppState Graph}

abbrev AppVisit (Graph : Type) := Visit (AppState Graph) AppCall AppAnswer

def Opened (host : Host Graph) (state : AppState Graph) : Prop :=
  ∃ provider store learningStore graph,
    NativeApp.newWithStores host provider store learningStore graph state.disk = some state.app

structure FastWorker where
  intent : String
  ranSince : Option String

def FastWorker.known (worker : FastWorker) : String := worker.ranSince.getD worker.intent

def followWorker (worker : Option FastWorker) (visit : AppVisit Graph) : Option FastWorker :=
  match visit.input, visit.output with
  | .beginFastBuild _ _, .fastBuild (some intent) => some ⟨intent, none⟩
  | .runCurrentIntent input _, _ =>
    worker.map fun worker => { worker with ranSince := some (currentIntent input) }
  | .completeFastBuild _ _ _, _ => none
  | _, _ => worker

def workerAfter (past : List (AppVisit Graph)) : Option FastWorker := past.foldl followWorker none

def LessonOf (intent : String) (app app' : NativeApp Graph) : Prop :=
  SameAccounts app app' ∨ ∃ record : LearningRecord,
    record.intent = sanitizeText intent maxLongField ∧
      app'.learningRecords =
        effectiveRecords (app.learningRecords ++ [record]) defaultGraphMemoryLimit ∧
      app'.learningSummary = app.learningSummary.add record.outcome ∧
      app'.learningAttempts = app.learningAttempts.insert (intent, fastBuildGate) record.attempt

def Attended (worker : Option FastWorker) (app : NativeApp Graph) : Prop :=
  ∀ out, worker = some out → app.fastBuildRunning = true ∧ app.lastIntent = out.known

theorem beginFastBuild_started {input intent : String} {ready : Except String Unit}
    (h : (state.beginFastBuild input ready).1 = some intent) :
    (state.beginFastBuild input ready).2.app.fastBuildRunning = true ∧
      (state.beginFastBuild input ready).2.app.lastIntent = intent := by
  rw [AppState.beginFastBuild] at h ⊢
  split at h
  · cases h
  · rename_i hidle
    rw [if_neg hidle]
    cases ready with
    | error error => cases h
    | ok =>
      cases h
      exact ⟨rfl, rfl⟩

theorem Attended.step {worker : Option FastWorker} {call : AppCall} {answer : AppAnswer}
    (h : Attended worker state.app) (made : act host state call = some (answer, next)) :
    Attended (followWorker worker ⟨state, call, answer, next⟩) next.app := by
  have hacted := act_acted made
  have hkept : next.app.fastBuildRunning = state.app.fastBuildRunning →
      next.app.lastIntent = state.app.lastIntent → Attended worker next.app := by
    intro hrunning hintent out hout
    rw [hrunning, hintent]
    exact h out hout
  cases call with
  | runCurrentIntent input machine =>
    intro out hout
    obtain ⟨before, hbefore, rfl⟩ := Option.map_eq_some_iff.mp hout
    exact ⟨hacted.fastBuildRunning.trans (h before hbefore).1, hacted.lastIntent⟩
  | completeFastBuild result memory machine => exact nofun
  | beginFastBuild input ready =>
    rw [act, Option.some_inj, Prod.mk.injEq] at made
    obtain ⟨hanswer, hnext⟩ := made
    cases hstarted : (state.beginFastBuild input ready).1 with
    | some intent =>
      rw [hstarted] at hanswer
      subst hanswer
      intro out hout
      cases hout
      rw [← hnext]
      exact beginFastBuild_started hstarted
    | none =>
      rw [hstarted] at hanswer
      subst hanswer
      intro out hout
      obtain ⟨hrunning, hintent⟩ := h out hout
      constructor
      · rw [hacted.fastBuildRunning, buildingAfter, hrunning]
        rfl
      · rw [hacted.lastIntent, intentAfter, if_pos hrunning, hintent]
  | _ => exact hkept hacted.fastBuildRunning hacted.lastIntent

theorem attended {start : AppState Graph → Prop} {past : List (AppVisit Graph)}
    (h : Run (act host) start past state) : Attended (workerAfter past) state.app := by
  apply h.induction fun past state => Attended (workerAfter past) state.app
  · intro state _ out hout
    cases hout
  · intro past visit hinv made
    rw [workerAfter, List.foldl_concat]
    exact hinv.step made

section Records

variable (stamp : RecordStamp) (state : RuntimeState) (lastIntent fallbackModel : String)
  (attempt : UInt32)

theorem fastBuildRecord_intent (outcome : LearningOutcome)
    (failure correction artifactPath : String) :
    (fastBuildRecord stamp state lastIntent fallbackModel attempt outcome failure correction
      artifactPath).intent = sanitizeText lastIntent maxLongField := by
  simp only [fastBuildRecord, newLearningRecord]

theorem fastBuildRecord_attempt (outcome : LearningOutcome)
    (failure correction artifactPath : String) :
    (fastBuildRecord stamp state lastIntent fallbackModel attempt outcome failure correction
      artifactPath).attempt = attempt := by
  simp only [fastBuildRecord, newLearningRecord]

end Records

theorem fastBuildLesson_spec {build : FastBuild} {machine : Machine} {record : LearningRecord}
    (h : state.fastBuildLesson build machine = some record) :
    record.intent = sanitizeText state.app.lastIntent maxLongField ∧
      record.attempt = state.app.learningAttempts.next (state.app.lastIntent, fastBuildGate) := by
  rw [AppState.fastBuildLesson] at h
  split at h
  · cases h
  · split at h
    · rw [← Option.some.inj h, fastBuildSuccessRecord]
      exact ⟨fastBuildRecord_intent _ _ _ _ _ _ _ _ _, fastBuildRecord_attempt _ _ _ _ _ _ _ _ _⟩
    · split at h
      · cases h
      · rw [← Option.some.inj h, fastBuildFailureRecord]
        exact ⟨fastBuildRecord_intent _ _ _ _ _ _ _ _ _, fastBuildRecord_attempt _ _ _ _ _ _ _ _ _⟩

theorem add_ne (summary : LearningSummary) (outcome : LearningOutcome) :
    summary.add outcome ≠ summary := by
  intro h
  have htotal := congrArg LearningSummary.total h
  cases outcome <;> exact absurd htotal (Nat.succ_ne_self _)

theorem next_ne (attempts : LearningAttempts) (key : String × String) :
    attempts key ≠ some (attempts.next key) := by
  intro h
  rw [LearningAttempts.next] at h
  cases hkey : attempts key with
  | none => exact absurd (hkey.symm.trans h) nofun
  | some attempt =>
    rw [hkey, Option.getD_some, Option.some_inj] at h
    have hnat := congrArg UInt32.toNat h
    rw [UInt32.toNat_add] at hnat
    have hlt := attempt.toNat_lt
    simp only [UInt32.toNat_one] at hnat
    omega

theorem completeFastBuild_filed {result : Except String FastBuild} {memory : Except String Bool}
    {machine : Machine} {answer : AppAnswer}
    (made : act host state (.completeFastBuild result memory machine) = some (answer, next)) :
    LessonOf state.app.lastIntent state.app next.app ∧
      ∀ intent, LessonOf intent state.app next.app →
        intent = state.app.lastIntent ∨ SameAccounts state.app next.app := by
  have hfiled := (act_acted made).filed
  cases hfiled with
  | nothing same => exact ⟨.inl same.toSameAccounts, fun _ _ => .inr same.toSameAccounts⟩
  | @lesson mid after machine' record key before lesson booked rest =>
    cases result with
    | error reason => exact lesson.elim
    | ok build =>
      obtain ⟨rfl, hintent, hrecord, rfl⟩ := lesson
      obtain ⟨hname, hattempt⟩ := fastBuildLesson_spec hrecord
      cases booked with
      | refused _ =>
        have hsame := (before.toSameAccounts.trans ⟨rfl, rfl, rfl⟩).trans rest.toSameAccounts
        exact ⟨.inl hsame, fun _ _ => .inr hsame⟩
      | kept h learned =>
        have hrecords : next.app.learningRecords = effectiveRecords
            (state.app.learningRecords ++ [record]) defaultGraphMemoryLimit := by
          rw [rest.learningRecords, ← before.learningRecords]
          rfl
        have hsummary : next.app.learningSummary =
            state.app.learningSummary.add record.outcome := by
          rw [rest.learningSummary, ← before.learningSummary]
          rfl
        have hattempts : next.app.learningAttempts = state.app.learningAttempts.insert
            (state.app.lastIntent, fastBuildGate) record.attempt := by
          rw [rest.learningAttempts, ← before.learningAttempts]
          rfl
        constructor
        · exact .inr ⟨record, by rw [hname, hintent], hrecords, hsummary, hattempts⟩
        · intro intent hlesson
          rcases hlesson with hsame | ⟨other, -, -, -, hother⟩
          · exact .inr hsame
          · left
            by_contra hne
            have hkey := congrFun (hattempts.symm.trans hother)
              (state.app.lastIntent, fastBuildGate)
            rw [LearningAttempts.insert, Function.update_self, LearningAttempts.insert,
              Function.update_of_ne (by simpa using Ne.symm hne), hattempt, hintent,
              before.learningAttempts] at hkey
            exact next_ne _ _ hkey.symm

/-- A fast build that is completed files its lesson under the intent its worker was started with if
the intent run last since, if any, is that one. Otherwise it does not, unless it files none. -/
theorem fast_build_lessons_filed {past before after : List (AppVisit Graph)} {visit : AppVisit Graph}
    (h : Run (act host) (Opened host) past state) (hpast : past = before ++ visit :: after)
    {result : Except String FastBuild} {memory : Except String Bool} {machine : Machine}
    (hcall : visit.input = .completeFastBuild result memory machine) {worker : FastWorker}
    (hworker : workerAfter before = some worker) :
    (worker.known = worker.intent → LessonOf worker.intent visit.before.app visit.after.app) ∧
      (worker.known ≠ worker.intent → LessonOf worker.intent visit.before.app visit.after.app →
        SameAccounts visit.before.app visit.after.app) := by
  obtain ⟨hbefore, made⟩ := h.split hpast
  obtain ⟨-, hintent⟩ := attended hbefore worker hworker
  rw [hcall] at made
  obtain ⟨hfiled, honly⟩ := completeFastBuild_filed made
  constructor
  · intro hknown
    rw [← hknown, ← hintent]
    exact hfiled
  · intro hknown hlesson
    rcases honly worker.intent hlesson with heq | hsame
    · exact absurd (heq.trans hintent).symm hknown
    · exact hsame

def memoryApp (provider : CoreProviderConfig) : NativeApp Unit where
  runtime := .withGraph provider ()
  store := none
  learningStore := none
  learningRecords := []
  learningSummary := ⟨0, 0, 0⟩
  learningAttempts := fun _ => none
  lastProviderOutput := initialProviderOutput provider
  providerRunning := false
  fastBuildRunning := false
  lastIntent := ""

def memoryState (provider : CoreProviderConfig) : AppState Unit :=
  ⟨memoryApp provider, Catalog.empty⟩

theorem opened_memoryState (provider : CoreProviderConfig) :
    Opened sampleHost (memoryState provider) :=
  ⟨provider, none, none, (), rfl⟩

def sampleMachine : Machine := ⟨none, none, noEvidence, ⟨1, 1, 1⟩⟩

def sampleBuild : FastBuild where
  name := "app"
  sourcePath := "app.rs"
  bytes := 1
  preview := "fn main() {}"
  verified := true
  compiled := true
  repairAttempts := 0
  compileErrors := ""

def begunState : AppState Unit :=
  ((memoryState sampleProvider).beginFastBuild "x" (.ok ())).2

theorem begunState_run : Run (act sampleHost) (Opened sampleHost)
    [⟨memoryState sampleProvider, .beginFastBuild "x" (.ok ()), .fastBuild (some "x"), begunState⟩]
    begunState := by
  have hmade : act sampleHost (memoryState sampleProvider) (.beginFastBuild "x" (.ok ())) =
      some (.fastBuild (some "x"), begunState) := by
    have hintent : currentIntent "x" = "x" := by decide
    rw [act, begunState, AppState.beginFastBuild, hintent]
    rfl
  exact Run.call (.start (opened_memoryState sampleProvider)) hmade

theorem grounded_begunState : Grounded begunState.app.runtime := grounded_withGraph sampleProvider ()

theorem fast_build_lessons_filed_x : ∃ next,
    act sampleHost begunState (.completeFastBuild (.ok sampleBuild) (.ok true) sampleMachine) =
      some (.done, next) ∧ LessonOf "x" begunState.app next.app := by
  obtain ⟨next, hmade, -⟩ := completeFastBuild_returns grounded_begunState sampleHost
    (.ok sampleBuild) (.ok true) sampleMachine
  have hact : act sampleHost begunState (.completeFastBuild (.ok sampleBuild) (.ok true)
      sampleMachine) = some (.done, next) := by
    rw [act, hmade]
    rfl
  exact ⟨next, hact, (fast_build_lessons_filed (Run.call begunState_run hact) rfl rfl rfl).1 rfl⟩

theorem completeFastBuild_kept {build : FastBuild} {memory : Except String Bool} {machine : Machine}
    (hledger : state.app.learningStore = none) (hverified : build.verified = true)
    (hcompiled : build.compiled = true)
    (h : state.completeFastBuild host (.ok build) memory machine = some next) :
    ¬ SameAccounts state.app next.app := by
  intro hsame
  rw [completeFastBuild_ok] at h
  rcases recordFastBuildLearning_cases h with ⟨hnone, -⟩ | ⟨record, -, hbooked⟩
  · rw [AppState.fastBuildLesson, hverified, hcompiled] at hnone
    exact absurd hnone (by simp)
  · cases hbooked with
    | refused hrefused =>
      have hledger' : (built state build memory).app.learningStore = none := hledger
      rw [NativeApp.appendLesson, hledger'] at hrefused
      cases hrefused
    | kept _ _ => exact add_ne _ _ hsame.learningSummary

theorem lesson_of_x_filed_under_y : ∃ before visit state,
    Run (act sampleHost) (Opened sampleHost) (before ++ [visit]) state ∧
      visit.input = .completeFastBuild (.ok sampleBuild) (.ok true) sampleMachine ∧
      (∃ worker, workerAfter before = some worker ∧ worker.intent = "x") ∧
      ¬ LessonOf "x" visit.before.app visit.after.app := by
  obtain ⟨mid, hran, hmid⟩ := runCurrentIntent_returns grounded_begunState sampleHost "y"
    sampleMachine
  have hrun : act sampleHost begunState (.runCurrentIntent "y" sampleMachine) =
      some (.done, mid) := by
    rw [act, hran]
    rfl
  obtain ⟨next, hmade, -⟩ := completeFastBuild_returns hmid sampleHost
    (.ok sampleBuild) (.ok true) sampleMachine
  have hact : act sampleHost mid (.completeFastBuild (.ok sampleBuild) (.ok true)
      sampleMachine) = some (.done, next) := by
    rw [act, hmade]
    rfl
  have hintent : mid.app.lastIntent = "y" := by
    rw [(act_acted hrun).lastIntent]
    decide
  refine ⟨_, _, next, Run.call (Run.call begunState_run hrun) hact, rfl, ⟨_, rfl, rfl⟩, ?_⟩
  intro hlesson
  rcases (completeFastBuild_filed hact).2 "x" hlesson with hx | hsame
  · rw [hintent] at hx
    exact absurd hx (by decide)
  · have hledger : mid.app.learningStore = none := (act_acted hrun).filed.learningStore
    exact completeFastBuild_kept hledger rfl rfl hmade hsame

end AtomVibe.Native
