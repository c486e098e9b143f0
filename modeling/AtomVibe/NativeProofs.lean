import AtomVibe.NativeWorkers

namespace AtomVibe.Native

open Text Proof Learning LedgerFields CoreRuntime Transition PartialRun

variable {Graph : Type} {host : Host Graph} {state next : AppState Graph}

def proofMade (host : Host Graph) (state : AppState Graph) : AppCall → Option ProofRecord
  | .runCurrentIntent input _ =>
    (state.app.runtime.runCoderIntent host (currentIntent input)).map fun made =>
      currentProofRecord (ran state input made.2).app
  | .completeProviderExecutionReport delivery _ =>
    (state.deliver host delivery).map fun made =>
      currentProofRecord (reported state made.1 made.2).app
  | .captureCurrentProof _ =>
    if state.app.runtime.state.lastRoute = [] ∨ state.app.runtime.state.status = .providerPending
    then none else some (currentProofRecord state.app)
  | _ => none

def acceptedReport (host : Host Graph) (state : AppState Graph) (delivery : AppState.Delivery) :
    Option ProviderReport :=
  match delivery.result, delivery.persisted with
  | .ok output, .ok persisted =>
    let report : ProviderReport := ⟨persisted.path, persisted.hash, persisted.len, output⟩
    match state.app.runtime.verifyProviderExecutionReport host delivery.evidence report with
    | some (.ok ()) => some report
    | _ => none
  | _, _ => none

def followReport (host : Host Graph) (standing : Option ProviderReport) (visit : AppVisit Graph) :
    Option ProviderReport :=
  match visit.input with
  | .runCurrentIntent _ _ => none
  | .applyProviderConfig _ => none
  | .completeProviderExecutionReport delivery _ =>
    (acceptedReport host visit.before delivery).or standing
  | _ => standing

def standingAfter (host : Host Graph) (past : List (AppVisit Graph)) : Option ProviderReport :=
  past.foldl (followReport host) none

/-- A record says that the provider ran exactly if a report stands, and carries what that report
left; any other record carries nothing of it. -/
structure TellsTruth (record : ProofRecord) (standing : Option ProviderReport) : Prop where
  ran : record.providerState = "provider:ran" ↔ standing ≠ none
  carried : ∀ report, standing = some report →
    record.providerOutputArtifact = report.outputArtifact ∧
      record.providerOutputHash = report.outputHash ∧
      record.providerOutputLen = .ofNat report.outputLen ∧
      record.workPlanId = report.output.workPlanId ∧
      record.workPlanManifest = report.output.workPlanManifest ∧
      record.workPacketCount = .ofNat report.output.packetIds.length ∧
      record.candidateVerification = report.output.candidateVerification
  empty : standing = none → record.providerOutputArtifact = "" ∧ record.providerOutputHash = "" ∧
    record.providerOutputLen = 0 ∧ record.workPlanId = "" ∧ record.workPlanManifest = "" ∧
      record.workPacketCount = 0 ∧ record.candidateVerification = none

def ShowsOutput (text : String) : Prop :=
  startsWith "Provider blocked:" text = false ∧ text ≠ "Provider has not been executed."

def Shown (app : NativeApp Graph) : Prop :=
  app.providerRunning = false ∧ app.fastBuildRunning = false ∧ ShowsOutput app.lastProviderOutput

theorem providerTitleState_ran (app : NativeApp Graph) :
    app.providerTitleState = "provider:ran" ↔ Shown app := by
  rw [NativeApp.providerTitleState, Shown, ShowsOutput]
  split
  · rename_i hrunning
    simp only [Bool.or_eq_true] at hrunning
    constructor
    · intro h
      exact absurd h (by decide)
    · rintro ⟨hprovider, hbuild, -⟩
      rw [hprovider, hbuild] at hrunning
      exact absurd hrunning (by decide)
  · rename_i hidle
    simp only [Bool.or_eq_true, not_or, Bool.not_eq_true] at hidle
    split
    · rename_i hblocked
      constructor
      · intro h
        exact absurd h (by decide)
      · rintro ⟨-, -, hshown, -⟩
        exact absurd hblocked (by simp [hshown])
    · rename_i hprefix
      split
      · rename_i hfirst
        constructor
        · intro h
          exact absurd h (by decide)
        · rintro ⟨-, -, -, hother⟩
          exact absurd hfirst hother
      · rename_i hother
        exact ⟨fun _ => ⟨hidle.1, hidle.2, Bool.eq_false_iff.mpr hprefix, hother⟩, fun _ => rfl⟩

def Stands (standing : Option ProviderReport) (state : RuntimeState) : Prop :=
  ∀ report, standing = some report → HoldsReport state report

theorem tellsTruth_iff {app : NativeApp Graph} {standing : Option ProviderReport}
    (h : Stands standing app.runtime.state) :
    TellsTruth (currentProofRecord app) standing ↔ (Shown app ↔ standing ≠ none) := by
  constructor
  · intro htruth
    rw [← providerTitleState_ran]
    exact htruth.ran
  · intro hshown
    rw [← providerTitleState_ran] at hshown
    refine ⟨hshown, fun report hstanding => ?_, fun hstanding => ?_⟩
    · have hran := hshown.mpr (by rw [hstanding]; exact Option.some_ne_none report)
      obtain ⟨hartifact, hhash, hlen, hplan, hmanifest, hpackets, hcandidate⟩ := h report hstanding
      rw [currentProofRecord, proofRecordFromState]
      simp only [hran, if_true, hartifact, hhash, hlen, hplan, hmanifest, hpackets, hcandidate,
        and_self]
    · have hran : app.providerTitleState ≠ "provider:ran" := fun h => hshown.mp h hstanding
      rw [currentProofRecord, proofRecordFromState]
      simp only [hran, if_false, and_self]

theorem startsWith_append (front back : String) : startsWith front (front ++ back) = true := by
  rw [startsWith, String.toList_append, List.isPrefixOf_iff_prefix]
  exact List.prefix_append _ _

theorem deliver_spec {delivery : AppState.Delivery} {output : String}
    {runtime : MathAtomsRuntime Graph} (h : state.deliver host delivery = some (output, runtime)) :
    (∃ report route, acceptedReport host state delivery = some report ∧
        output = report.output.text ∧
        runtime.state = { state.app.runtime.reportedState report with lastRoute := route }) ∨
      (acceptedReport host state delivery = none ∧ startsWith "Provider blocked:" output = true ∧
        ∃ reason route,
          runtime.state = { state.app.runtime.blockedState reason with lastRoute := route }) := by
  have hblocked : ∀ reason shown, state.app.runtime.markProviderBlocked reason = some runtime →
      output = "Provider blocked: " ++ shown → startsWith "Provider blocked:" output = true ∧
        ∃ reason route,
          runtime.state = { state.app.runtime.blockedState reason with lastRoute := route } := by
    intro reason shown hmarked hshown
    obtain ⟨route, hstate⟩ := markProviderBlocked_spec hmarked
    refine ⟨?_, _, route, hstate⟩
    rw [hshown, show ("Provider blocked: " : String) = "Provider blocked:" ++ " " from by decide,
      String.append_assoc]
    exact startsWith_append _ _
  cases hresult : delivery.result with
  | error error =>
    rw [AppState.deliver, hresult] at h
    obtain ⟨marked, hmarked, hmade⟩ := Option.bind_eq_some_iff.mp h
    obtain ⟨hshown, rfl⟩ := Prod.mk.inj (Option.some.inj hmade)
    right
    rw [acceptedReport, hresult]
    exact ⟨rfl, hblocked _ _ hmarked hshown.symm⟩
  | ok made =>
    cases hpersisted : delivery.persisted with
    | error error =>
      rw [AppState.deliver, hresult, hpersisted] at h
      obtain ⟨marked, hmarked, hmade⟩ := Option.bind_eq_some_iff.mp h
      obtain ⟨hshown, rfl⟩ := Prod.mk.inj (Option.some.inj hmade)
      right
      rw [acceptedReport, hresult, hpersisted]
      exact ⟨rfl, hblocked _ _ hmarked hshown.symm⟩
    | ok persisted =>
      rw [AppState.deliver, hresult, hpersisted] at h
      rw [acceptedReport, hresult, hpersisted]
      obtain ⟨⟨accepted, marked⟩, hmarked, hmade⟩ := Option.bind_eq_some_iff.mp h
      rw [MathAtomsRuntime.markProviderExecutionReport, Option.bind_eq_bind,
        Option.bind_eq_some_iff] at hmarked
      obtain ⟨verdict, hverdict, hmarked⟩ := hmarked
      simp only [hverdict]
      cases verdict with
      | ok _ =>
        obtain ⟨route, -, hmarked⟩ := Option.bind_eq_some_iff.mp hmarked
        obtain ⟨rfl, rfl⟩ := Prod.mk.inj (Option.some.inj hmarked)
        obtain ⟨hshown, rfl⟩ := Prod.mk.inj (Option.some.inj hmade)
        exact .inl ⟨_, route, rfl, hshown.symm, rfl⟩
      | error reason =>
        obtain ⟨blocked, hmarkedBlocked, hmarked⟩ := Option.bind_eq_some_iff.mp hmarked
        obtain ⟨rfl, rfl⟩ := Prod.mk.inj (Option.some.inj hmarked)
        obtain ⟨hshown, rfl⟩ := Prod.mk.inj (Option.some.inj hmade)
        exact .inr ⟨rfl, hblocked _ _ hmarkedBlocked hshown.symm⟩

def reportFields (state : RuntimeState) :=
  (state.lastProviderOutputArtifact, state.lastProviderOutputHash, state.lastProviderOutputLen,
    state.lastWorkPlanId, state.lastWorkPlanManifest, state.lastWorkPacketCount,
    state.lastCandidateVerification)

theorem Stands.congr {standing : Option ProviderReport} {before after : RuntimeState}
    (h : Stands standing before) (hsame : reportFields after = reportFields before) :
    Stands standing after := by
  intro report hstanding
  obtain ⟨hartifact, hhash, hlen, hplan, hmanifest, hpackets, hcandidate⟩ := h report hstanding
  simp only [reportFields, Prod.mk.injEq] at hsame
  obtain ⟨h1, h2, h3, h4, h5, h6, h7⟩ := hsame
  exact ⟨h1.trans hartifact, h2.trans hhash, h3.trans hlen, h4.trans hplan, h5.trans hmanifest,
    h6.trans hpackets, h7.trans hcandidate⟩

theorem stands_none (state : RuntimeState) : Stands none state := nofun

theorem stands_reported (runtime : MathAtomsRuntime Graph) (report : ProviderReport)
    (route : List Bus.EnvelopeId) :
    Stands (some report) { runtime.reportedState report with lastRoute := route } := by
  intro standing hstanding
  obtain rfl := Option.some.inj hstanding
  exact ⟨rfl, rfl, rfl, rfl, rfl, rfl, rfl⟩

theorem appendProofRecord_fields {machine : Machine} {learn : Bool} {outcome : StoreOutcome}
    (h : state.appendProofRecord host machine learn = some (outcome, next)) :
    reportFields next.app.runtime.state = reportFields state.app.runtime.state := by
  rcases appendProofRecord_cases h with ⟨reason, disk, -, rfl⟩ | ⟨disk, -, hrest⟩
  · rfl
  · have hlearned : (learned host state disk).app.runtime.state = state.app.runtime.state :=
      learnProofRecord_state _ _ _
    rcases hrest with ⟨-, rfl⟩ | ⟨-, result, after, hlesson, rfl⟩
    · rw [hlearned]
    · have hafter : reportFields after.app.runtime.state =
          reportFields state.app.runtime.state := by
        rcases appendLearningRecord_cases hlesson with ⟨-, -, rfl⟩ | ⟨record, -, -, hbooked⟩
        · rw [hlearned]
        · cases hbooked with
          | refused _ => rw [hlearned]
          | kept _ hmade =>
            obtain ⟨route, hstate⟩ := learnLearningRecord_state hmade
            rw [NativeApp.keepLesson, hstate, hlearned]
            rfl
      cases result with
      | ok => exact hafter
      | error reason => exact hafter

theorem recordFastBuildLearning_fields {build : FastBuild} {machine : Machine}
    (h : state.recordFastBuildLearning host build machine = some next) :
    reportFields next.app.runtime.state = reportFields state.app.runtime.state := by
  rcases recordFastBuildLearning_cases h with ⟨-, rfl⟩ | ⟨record, -, hbooked⟩
  · rfl
  · cases hbooked with
    | refused _ => rfl
    | kept _ hmade =>
      obtain ⟨route, hstate⟩ := learnLearningRecord_state hmade
      rw [NativeApp.keepLesson, hstate]
      rfl

theorem beginProviderExecution_fields {worker : Option PreparedProviderCall}
    (h : state.beginProviderExecution = some (worker, next)) :
    reportFields next.app.runtime.state = reportFields state.app.runtime.state := by
  rw [AppState.beginProviderExecution] at h
  split at h
  · obtain ⟨-, rfl⟩ := Prod.mk.inj (Option.some.inj h)
    rfl
  · obtain ⟨⟨task, runtime⟩, hscheduled, hmade⟩ := Option.bind_eq_some_iff.mp h
    have hfields : reportFields runtime.state = reportFields state.app.runtime.state := by
      rcases scheduleProviderExecution_spec hscheduled with ⟨_, hstate⟩ | ⟨_, _, hstate⟩
      · rw [hstate]
        rfl
      · rw [hstate]
        rfl
    cases task with
    | none =>
      obtain ⟨-, rfl⟩ := Prod.mk.inj (Option.some.inj hmade)
      exact hfields
    | some task =>
      obtain ⟨-, rfl⟩ := Prod.mk.inj (Option.some.inj hmade)
      exact hfields

theorem beginFastBuild_fields (input : String) (ready : Except String Unit) :
    reportFields (state.beginFastBuild input ready).2.app.runtime.state =
      reportFields state.app.runtime.state := by
  rw [AppState.beginFastBuild]
  split
  · rfl
  · cases ready <;> rfl

theorem deliver_stands {standing : Option ProviderReport} {delivery : AppState.Delivery}
    {output : String} {runtime : MathAtomsRuntime Graph}
    (h : Stands standing state.app.runtime.state)
    (hdelivered : state.deliver host delivery = some (output, runtime)) :
    Stands ((acceptedReport host state delivery).or standing) runtime.state := by
  rcases deliver_spec hdelivered with ⟨report, route, haccepted, -, hstate⟩ |
    ⟨haccepted, -, reason, route, hstate⟩
  · rw [haccepted, hstate]
    exact stands_reported _ _ _
  · rw [haccepted, hstate]
    exact h.congr rfl

theorem Stands.step {standing : Option ProviderReport} {call : AppCall} {answer : AppAnswer}
    (h : Stands standing state.app.runtime.state)
    (made : act host state call = some (answer, next)) :
    Stands (followReport host standing ⟨state, call, answer, next⟩) next.app.runtime.state := by
  cases call with
  | runCurrentIntent input machine => exact stands_none _
  | applyProviderConfig config => exact stands_none _
  | markDrift =>
    rw [act, Option.some_inj, Prod.mk.injEq] at made
    rw [← made.2]
    exact h.congr rfl
  | captureCurrentProof machine =>
    rw [act, Option.map_eq_some_iff] at made
    obtain ⟨after, hcaptured, hmade⟩ := made
    obtain ⟨-, rfl⟩ := Prod.mk.inj hmade
    rcases captureCurrentProof_cases hcaptured with rfl | ⟨-, -, outcome, happend⟩
    · exact h
    · exact h.congr (appendProofRecord_fields happend)
  | beginProviderExecution =>
    rw [act, Option.map_eq_some_iff] at made
    obtain ⟨⟨worker, after⟩, hbegun, hmade⟩ := made
    obtain ⟨-, rfl⟩ := Prod.mk.inj hmade
    exact h.congr (beginProviderExecution_fields hbegun)
  | completeProviderExecutionReport delivery machine =>
    rw [act, Option.map_eq_some_iff] at made
    obtain ⟨after, hcompleted, hmade⟩ := made
    obtain ⟨-, rfl⟩ := Prod.mk.inj hmade
    obtain ⟨output, runtime, outcome, hdelivered, happend⟩ :=
      completeProviderExecutionReport_cases hcompleted
    exact (deliver_stands h hdelivered).congr (appendProofRecord_fields happend)
  | beginFastBuild input ready =>
    rw [act, Option.some_inj, Prod.mk.injEq] at made
    rw [← made.2]
    exact h.congr (beginFastBuild_fields input ready)
  | completeFastBuild result memory machine =>
    rw [act, Option.map_eq_some_iff] at made
    obtain ⟨after, hcompleted, hmade⟩ := made
    obtain ⟨-, rfl⟩ := Prod.mk.inj hmade
    cases result with
    | error reason =>
      rw [AppState.completeFastBuild] at hcompleted
      rw [← Option.some.inj hcompleted]
      exact h
    | ok build =>
      rw [completeFastBuild_ok] at hcompleted
      have hfields := recordFastBuildLearning_fields hcompleted
      exact h.congr hfields

theorem stands {start : AppState Graph → Prop} {past : List (AppVisit Graph)}
    (h : Run (act host) start past state) :
    Stands (standingAfter host past) state.app.runtime.state := by
  apply h.induction fun past state => Stands (standingAfter host past) state.app.runtime.state
  · intro state _
    exact stands_none _
  · intro past visit hinv made
    rw [standingAfter, List.foldl_concat]
    exact hinv.step made

/-- When the record of a call tells the truth: a run finds a worker out or no output shown, an
accepted report is shown as an output with no build going on, a rejected one comes when none stands,
and a capture finds an output shown exactly if a report stands. -/
def Told (host : Host Graph) (state : AppState Graph) (standing : Option ProviderReport) :
    AppCall → Prop
  | .runCurrentIntent _ _ => ¬ Shown state.app
  | .completeProviderExecutionReport delivery _ =>
    match acceptedReport host state delivery with
    | some report => state.app.fastBuildRunning = false ∧ ShowsOutput report.output.text
    | none => standing = none
  | .captureCurrentProof _ => Shown state.app ↔ standing ≠ none
  | _ => True

theorem proofMade_spec {call : AppCall} {answer : AppAnswer} {record : ProofRecord}
    {standing : Option ProviderReport} (h : Stands standing state.app.runtime.state)
    (hmade : proofMade host state call = some record) :
    TellsTruth record (followReport host standing ⟨state, call, answer, next⟩) ↔
      Told host state standing call := by
  cases call with
  | runCurrentIntent input machine =>
    rw [proofMade, Option.map_eq_some_iff] at hmade
    obtain ⟨⟨run, runtime⟩, -, hrecord⟩ := hmade
    have htruth := @tellsTruth_iff _ (ran state input runtime).app none (stands_none _)
    have hshown : Shown (ran state input runtime).app ↔ Shown state.app := Iff.rfl
    rw [← hrecord, followReport, Told]
    rw [hshown] at htruth
    simpa only [ne_eq, not_true_eq_false, iff_false] using htruth
  | completeProviderExecutionReport delivery machine =>
    rw [proofMade, Option.map_eq_some_iff] at hmade
    obtain ⟨⟨output, runtime⟩, hdelivered, hrecord⟩ := hmade
    have htruth := @tellsTruth_iff _ (reported state output runtime).app _
      (deliver_stands h hdelivered)
    have hshown : Shown (reported state output runtime).app ↔
        state.app.fastBuildRunning = false ∧ ShowsOutput output :=
      ⟨fun h => h.2, fun h => ⟨rfl, h⟩⟩
    rw [← hrecord, followReport, Told]
    refine htruth.trans ?_
    rw [hshown]
    rcases deliver_spec hdelivered with ⟨report, -, haccepted, houtput, -⟩ | ⟨haccepted, hprefix, -⟩
    · simp only [haccepted, houtput, Option.some_or]
      exact iff_true_right (Option.some_ne_none report)
    · have hhidden : ¬ ShowsOutput output := fun hshows => by
        rw [hshows.1] at hprefix
        exact absurd hprefix (by decide)
      simp only [haccepted, Option.none_or, hhidden, and_false, false_iff, ne_eq, not_not]
  | captureCurrentProof machine =>
    rw [proofMade] at hmade
    split at hmade
    · cases hmade
    · rw [← Option.some.inj hmade]
      exact tellsTruth_iff h
  | _ => cases hmade

def keptBy : AppCall → Option Machine
  | .runCurrentIntent _ machine => some machine
  | .captureCurrentProof machine => some machine
  | .completeProviderExecutionReport _ machine => some machine
  | .completeFastBuild _ _ machine => some machine
  | _ => none

/-- In every run, the proof record of a call tells the truth about the provider exactly if the call
finds the shell in one of these states. -/
theorem proof_records_tell_truth {past before after : List (AppVisit Graph)} {visit : AppVisit Graph}
    (h : Run (act host) (Opened host) past state) (hpast : past = before ++ visit :: after)
    {record : ProofRecord} (hmade : proofMade host visit.before visit.input = some record) :
    TellsTruth record (standingAfter host (before ++ [visit])) ↔
      Told host visit.before (standingAfter host before) visit.input := by
  obtain ⟨hbefore, -⟩ := h.split hpast
  rw [standingAfter, List.foldl_concat]
  exact proofMade_spec (stands hbefore) hmade

theorem proof_records_tell_truth_idle : ∃ record next,
    proofMade sampleHost (memoryState sampleProvider) (.runCurrentIntent "x" sampleMachine) =
      some record ∧
    act sampleHost (memoryState sampleProvider) (.runCurrentIntent "x" sampleMachine) =
      some (.done, next) ∧ TellsTruth record none := by
  have hgrounded : Grounded (memoryState sampleProvider).app.runtime :=
    grounded_withGraph sampleProvider ()
  obtain ⟨next, hran, -⟩ := runCurrentIntent_returns hgrounded sampleHost "x" sampleMachine
  have hact : act sampleHost (memoryState sampleProvider) (.runCurrentIntent "x" sampleMachine) =
      some (.done, next) := by
    rw [act, hran]
    rfl
  obtain ⟨run, runtime, outcome, hrun, -⟩ := runCurrentIntent_cases hran
  have hmade : proofMade sampleHost (memoryState sampleProvider)
      (.runCurrentIntent "x" sampleMachine) =
        some (currentProofRecord (ran (memoryState sampleProvider) "x" runtime).app) := by
    rw [proofMade, hrun]
    rfl
  refine ⟨_, next, hmade, hact, ?_⟩
  apply (proof_records_tell_truth (Run.call (.start (opened_memoryState sampleProvider)) hact) rfl
    hmade).mpr
  intro hshown
  have hidle : (memoryState sampleProvider).app.lastProviderOutput =
      "Provider has not been executed." := by decide
  exact hshown.2.2.2 hidle

theorem completeFastBuild_shell {build : FastBuild} {memory : Except String Bool}
    {machine : Machine} (h : state.completeFastBuild host (.ok build) memory machine = some next) :
    SameShell (built state build memory).app next.app := by
  rw [completeFastBuild_ok] at h
  rcases recordFastBuildLearning_cases h with ⟨-, rfl⟩ | ⟨record, -, hbooked⟩
  · exact SameShell.refl _
  · cases hbooked with
    | refused _ => exact SameShell.refl _
    | kept _ _ => exact ⟨rfl, rfl, rfl, rfl, rfl, rfl⟩

theorem run_after_fast_build_lies : ∃ before visit state record,
    Run (act sampleHost) (Opened sampleHost) (before ++ [visit]) state ∧
      proofMade sampleHost visit.before visit.input = some record ∧
      standingAfter sampleHost (before ++ [visit]) = none ∧
      ¬ TellsTruth record (standingAfter sampleHost (before ++ [visit])) := by
  obtain ⟨mid, hbuilt, hmid⟩ := completeFastBuild_returns grounded_begunState sampleHost
    (.ok sampleBuild) (.ok true) sampleMachine
  have hbuild : act sampleHost begunState (.completeFastBuild (.ok sampleBuild) (.ok true)
      sampleMachine) = some (.done, mid) := by
    rw [act, hbuilt]
    rfl
  obtain ⟨next, hran, -⟩ := runCurrentIntent_returns hmid sampleHost "x" sampleMachine
  have hact : act sampleHost mid (.runCurrentIntent "x" sampleMachine) = some (.done, next) := by
    rw [act, hran]
    rfl
  obtain ⟨run, runtime, outcome, hrun, -⟩ := runCurrentIntent_cases hran
  have hmade : proofMade sampleHost mid (.runCurrentIntent "x" sampleMachine) =
      some (currentProofRecord (ran mid "x" runtime).app) := by
    rw [proofMade, hrun]
    rfl
  have hshell := completeFastBuild_shell hbuilt
  have hshown : Shown mid.app := by
    refine ⟨hshell.providerRunning.trans rfl, hshell.fastBuildRunning.trans rfl, ?_⟩
    rw [hshell.lastProviderOutput]
    exact ⟨by decide, by decide⟩
  have htold := @proofMade_spec _ sampleHost mid next (.runCurrentIntent "x" sampleMachine) .done _
    none (stands_none _) hmade
  refine ⟨_, _, next, _, Run.call (Run.call begunState_run hbuild) hact, hmade, rfl, ?_⟩
  intro htruth
  exact htold.mp htruth hshown

end AtomVibe.Native
