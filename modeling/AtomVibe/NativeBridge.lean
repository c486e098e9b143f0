import AtomVibe.TurnExecution

namespace AtomVibe.NativeBridge

open Bus BuildProtocol PlannerModel Provider RuntimeModel AtomVibe.Runtime

def nativeProjectId : String := "native-atom-vibe-coder"

structure ExecutedTurn where
  outputArtifact : String
  resultRoute : ProviderResultRoute
  record : TurnStore.TurnRecord

structure VibeWorkerResult where
  runtime : AtomVibeRuntime
  result : Except RuntimeError ExecutedTurn

structure VibeWorker where
  runtime : AtomVibeRuntime
  prepared : PreparedTurn

inductive VibeState
  | unavailable
  | idle
  | prepared
  | running
  | verificationPending
  | blocked
  deriving DecidableEq

structure NativeVibe where
  runtime : Option AtomVibeRuntime
  root : Option String
  prepared : Option PreparedTurn
  activeBuildId : Option String
  currentStep : Option String
  contextRouteLen : ℕ
  resultRouteLen : ℕ
  turnCount : ℕ
  state : VibeState
  detail : String

structure Surroundings where
  clock : StartClock
  entries : List String
  wiki : Except String Unit
  files : RuntimeFiles

namespace NativeVibe

def unavailable (reason : String) : NativeVibe :=
  ⟨none, none, none, none, none, 0, 0, 0, .unavailable, reason⟩

def openAt (root : String) (provider : ProviderConfig) (around : Surroundings) : NativeVibe :=
  match AtomVibeRuntime.openAt root provider around.entries around.wiki around.files with
  | .ok runtime =>
    ⟨some runtime, some root, none, none, none, 0, 0, 0, .idle,
      "Ready to start a durable six-stage build."⟩
  | .error error => { unavailable error.display with root := some root }

def holding (vibe : NativeVibe) (runtime : AtomVibeRuntime) (buildId : String)
    (prepared : PreparedTurn) : NativeVibe :=
  { vibe with
    runtime := some runtime
    contextRouteLen := prepared.context.route.length
    currentStep := some prepared.step.asStr
    activeBuildId := some buildId
    prepared := some prepared
    resultRouteLen := 0
    turnCount := 0
    state := .prepared
    detail := "Build " ++ buildId ++ " prepared " ++ prepared.step.asStr ++ " through " ++
      prepared.context.route.length.repr ++ " context envelopes." }

def startBuild (vibe : NativeVibe) (guide : Guide) (operatorRequest : String)
    (around : Surroundings) : Except String Unit × NativeVibe × RuntimeFiles :=
  match vibe.runtime with
  | none => (.error "Atom Vibe runtime is unavailable", vibe, around.files)
  | some runtime =>
    match runtime.startBuild nativeProjectId operatorRequest around.clock around.files with
    | (.error error, runtime, files) => (.error error.display, { vibe with runtime }, files)
    | (.ok session, runtime, files) =>
      match runtime.prepareTurn guide session.buildId files with
      | (.error error, runtime, files) => (.error error.display, { vibe with runtime }, files)
      | (.ok prepared, runtime, files) =>
        (.ok (), vibe.holding runtime session.buildId prepared, files)

def beginStep (vibe : NativeVibe) : Option VibeWorker × NativeVibe :=
  if vibe.state = .running then
    (none, { vibe with detail := "A Vibe step is already running." })
  else
    match vibe.runtime, vibe.prepared with
    | none, _ =>
      (none, { vibe with state := .blocked, detail := "Atom Vibe runtime is unavailable." })
    | some _, none =>
      if vibe.state = .verificationPending then
        (none, { vibe with
          detail := "Step output persisted; holding for deterministic gate verification before " ++
            "the next stage." })
      else
        (none, { vibe with
          state := .blocked
          detail := "Run an operator request before executing a Vibe step." })
    | some runtime, some prepared =>
      (some ⟨runtime, prepared⟩, { vibe with
        runtime := none
        prepared := none
        state := .running
        detail := "Executing " ++ prepared.step.asStr ++
          " through the thinking-required provider route." })

def completeStep (vibe : NativeVibe) (worker : VibeWorkerResult) : NativeVibe :=
  match worker.result with
  | .ok executed => { vibe with
      runtime := some worker.runtime
      resultRouteLen := executed.resultRoute.route.length
      turnCount := executed.record.ordinal.toNat
      currentStep := some executed.record.step.asStr
      state := .verificationPending
      detail := executed.record.step.asStr ++ " output persisted as " ++ executed.outputArtifact ++
        " with " ++ executed.resultRoute.route.length.repr ++
        " result-route envelopes; deterministic gate verification is pending." }
  | .error error => { vibe with
      runtime := some worker.runtime
      state := .blocked
      detail := "Vibe step blocked: " ++ error.display }

def workerDisconnected (vibe : NativeVibe) : NativeVibe :=
  { vibe with
    runtime := none
    state := .blocked
    detail := "Vibe provider worker disconnected; apply a provider to reopen the runtime." }

def renewed (vibe : NativeVibe) (runtime : AtomVibeRuntime) : NativeVibe :=
  ⟨some runtime, vibe.root, none, none, none, 0, 0, 0, .idle,
    "Provider changed; start a new durable build session."⟩

def setProvider (vibe : NativeVibe) (provider : ProviderConfig) (around : Surroundings) :
    Except String Unit × NativeVibe :=
  if vibe.state = .running then
    (.error "Vibe provider cannot change while a step is running", vibe)
  else
    match vibe.runtime with
    | some runtime =>
      match runtime.setProvider provider with
      | (.error error, runtime) => (.error error.display, { vibe with runtime })
      | (.ok (), runtime) => (.ok (), vibe.renewed runtime)
    | none =>
      match vibe.root with
      | none => (.error ("Atom Vibe runtime is unavailable: " ++ vibe.detail), vibe)
      | some root =>
        match AtomVibeRuntime.openAt root provider around.entries around.wiki around.files with
        | .error error => (.error error.display, vibe)
        | .ok runtime => (.ok (), vibe.renewed runtime)

structure Keeps (vibe vibe' : NativeVibe) : Prop where
  state : vibe'.state = vibe.state
  prepared : vibe'.prepared = vibe.prepared
  activeBuildId : vibe'.activeBuildId = vibe.activeBuildId

end NativeVibe

/-- The bridge and the workers whose end it has not seen: each either sends its result or lets go
of its channel. -/
structure Session where
  vibe : NativeVibe
  workers : List VibeWorker

inductive Step (guide : Guide) : Session → Session → Prop
  | startBuild {s} (operatorRequest : String) (around : Surroundings) :
      Step guide s ⟨(s.vibe.startBuild guide operatorRequest around).2.1, s.workers⟩
  | beginStep {s} : Step guide s ⟨s.vibe.beginStep.2, s.vibe.beginStep.1.toList ++ s.workers⟩
  | setProvider {s} (provider : ProviderConfig) (around : Surroundings) :
      Step guide s ⟨(s.vibe.setProvider provider around).2, s.workers⟩
  | completeStep {vibe before worker after} (result : VibeWorkerResult) :
      Step guide ⟨vibe, before ++ worker :: after⟩ ⟨vibe.completeStep result, before ++ after⟩
  | workerDisconnected {vibe before worker after} :
      Step guide ⟨vibe, before ++ worker :: after⟩ ⟨vibe.workerDisconnected, before ++ after⟩

inductive Reachable (guide : Guide) : Session → Prop
  | unavailable (reason : String) : Reachable guide ⟨.unavailable reason, []⟩
  | opened (root : String) (provider : ProviderConfig) (around : Surroundings) :
      Reachable guide ⟨.openAt root provider around, []⟩
  | step {s s'} (before : Reachable guide s) (step : Step guide s s') : Reachable guide s'

structure Sound (s : Session) : Prop where
  turn : s.vibe.prepared.isSome = true ↔ s.vibe.state = .prepared
  ready : ∀ turn, s.vibe.prepared = some turn →
    s.vibe.runtime.isSome = true ∧ s.vibe.activeBuildId = some turn.buildId
  running : s.vibe.state = .running → s.vibe.runtime = none ∧ ∃ worker, s.workers = [worker]
  resting : s.vibe.state ≠ .running → s.workers = []

section Calls

variable {guide : Guide} {vibe : NativeVibe} {operatorRequest : String} {around : Surroundings}
  {provider : ProviderConfig}

theorem startBuild_cases :
    ((∃ error, (vibe.startBuild guide operatorRequest around).1 = .error error) ∧
      vibe.Keeps (vibe.startBuild guide operatorRequest around).2.1 ∧
      (vibe.startBuild guide operatorRequest around).2.1.runtime.isSome = vibe.runtime.isSome) ∨
    ∃ runtime turn, (vibe.startBuild guide operatorRequest around).1 = .ok () ∧
      vibe.runtime.isSome = true ∧
      (vibe.startBuild guide operatorRequest around).2.1 =
        vibe.holding runtime turn.buildId turn := by
  unfold NativeVibe.startBuild
  cases hruntime : vibe.runtime with
  | none => exact .inl ⟨⟨_, rfl⟩, ⟨rfl, rfl, rfl⟩, by rw [hruntime]⟩
  | some runtime =>
    cases hstarted : runtime.startBuild nativeProjectId operatorRequest around.clock
        around.files with
    | mk started rest =>
      cases started with
      | error error =>
        dsimp only
        rw [hstarted]
        exact .inl ⟨⟨_, rfl⟩, ⟨rfl, rfl, rfl⟩, rfl⟩
      | ok session =>
        cases hprepared : rest.1.prepareTurn guide session.buildId rest.2 with
        | mk prepared rest' =>
          cases prepared with
          | error error =>
            dsimp only
            rw [hstarted]
            dsimp only
            rw [hprepared]
            exact .inl ⟨⟨_, rfl⟩, ⟨rfl, rfl, rfl⟩, rfl⟩
          | ok turn =>
            obtain ⟨_, -, hid, -⟩ := AtomVibeRuntime.prepareTurn_ok (congrArg Prod.fst hprepared)
            dsimp only
            rw [hstarted]
            dsimp only
            rw [hprepared]
            exact .inr ⟨rest'.1, turn, rfl, rfl, by rw [hid]⟩

theorem setProvider_cases :
    ((∃ error, (vibe.setProvider provider around).1 = .error error) ∧
      vibe.Keeps (vibe.setProvider provider around).2 ∧
      (vibe.setProvider provider around).2.runtime.isSome = vibe.runtime.isSome) ∨
    ∃ runtime, (vibe.setProvider provider around).1 = .ok () ∧ vibe.state ≠ .running ∧
      (vibe.setProvider provider around).2 = vibe.renewed runtime := by
  unfold NativeVibe.setProvider
  by_cases hrunning : vibe.state = .running
  · rw [if_pos hrunning]
    exact .inl ⟨⟨_, rfl⟩, ⟨rfl, rfl, rfl⟩, rfl⟩
  · rw [if_neg hrunning]
    cases hruntime : vibe.runtime with
    | some runtime =>
      cases hset : runtime.setProvider provider with
      | mk result runtime' =>
        cases result with
        | error error =>
          dsimp only
          rw [hset]
          exact .inl ⟨⟨_, rfl⟩, ⟨rfl, rfl, rfl⟩, rfl⟩
        | ok u =>
          dsimp only
          rw [hset]
          exact .inr ⟨runtime', rfl, hrunning, rfl⟩
    | none =>
      cases hroot : vibe.root with
      | none => exact .inl ⟨⟨_, rfl⟩, ⟨rfl, rfl, rfl⟩, by rw [hruntime]⟩
      | some root =>
        cases hopen : AtomVibeRuntime.openAt root provider around.entries around.wiki
            around.files with
        | error error =>
          dsimp only
          rw [hopen]
          exact .inl ⟨⟨_, rfl⟩, ⟨rfl, rfl, rfl⟩, by rw [hruntime]⟩
        | ok runtime =>
          dsimp only
          rw [hopen]
          exact .inr ⟨runtime, rfl, hrunning, rfl⟩

theorem beginStep_cases :
    (∃ runtime turn, vibe.runtime = some runtime ∧ vibe.prepared = some turn ∧
      vibe.state ≠ .running ∧ vibe.beginStep.1 = some ⟨runtime, turn⟩ ∧
      vibe.beginStep.2.runtime = none ∧ vibe.beginStep.2.prepared = none ∧
      vibe.beginStep.2.state = .running) ∨
    (vibe.beginStep.1 = none ∧ vibe.beginStep.2.runtime = vibe.runtime ∧
      vibe.beginStep.2.prepared = vibe.prepared ∧
      vibe.beginStep.2.activeBuildId = vibe.activeBuildId ∧
      (vibe.beginStep.2.state = vibe.state ∨
        vibe.beginStep.2.state = .blocked ∧ vibe.state ≠ .running ∧
          (vibe.runtime = none ∨ vibe.prepared = none))) := by
  obtain ⟨runtime, root, prepared, activeBuildId, currentStep, context, result, turns, state,
    detail⟩ := vibe
  unfold NativeVibe.beginStep
  by_cases hrunning : state = .running
  · rw [if_pos hrunning]
    exact .inr ⟨rfl, rfl, rfl, rfl, .inl rfl⟩
  · rw [if_neg hrunning]
    cases runtime with
    | none => exact .inr ⟨rfl, rfl, rfl, rfl, .inr ⟨rfl, hrunning, .inl rfl⟩⟩
    | some runtime =>
      cases prepared with
      | some turn => exact .inl ⟨runtime, turn, rfl, rfl, hrunning, rfl, rfl, rfl, rfl⟩
      | none =>
        by_cases hpending : state = .verificationPending
        · dsimp only
          rw [if_pos hpending]
          exact .inr ⟨rfl, rfl, rfl, rfl, .inl rfl⟩
        · dsimp only
          rw [if_neg hpending]
          exact .inr ⟨rfl, rfl, rfl, rfl, .inr ⟨rfl, hrunning, .inr rfl⟩⟩

theorem completeStep_eq (result : VibeWorkerResult) :
    (vibe.completeStep result).runtime = some result.runtime ∧
      (vibe.completeStep result).prepared = vibe.prepared ∧
      ((vibe.completeStep result).state = .verificationPending ∨
        (vibe.completeStep result).state = .blocked) := by
  unfold NativeVibe.completeStep
  cases result.result with
  | ok executed => exact ⟨rfl, rfl, .inl rfl⟩
  | error error => exact ⟨rfl, rfl, .inr rfl⟩

end Calls

section Run

variable {guide : Guide} {s s' : Session}

theorem Sound.keep (h : Sound s) {vibe : NativeVibe} (hkeeps : s.vibe.Keeps vibe)
    (hruntime : vibe.runtime.isSome = s.vibe.runtime.isSome) : Sound ⟨vibe, s.workers⟩ := by
  constructor
  · rw [hkeeps.prepared, hkeeps.state]
    exact h.turn
  · intro turn hturn
    rw [hkeeps.prepared] at hturn
    rw [hruntime, hkeeps.activeBuildId]
    exact h.ready turn hturn
  · intro hrunning
    rw [hkeeps.state] at hrunning
    obtain ⟨hnone, hworker⟩ := h.running hrunning
    rw [hnone] at hruntime
    exact ⟨Option.not_isSome_iff_eq_none.mp (by simp [hruntime]), hworker⟩
  · rw [hkeeps.state]
    exact h.resting

theorem Sound.worker {vibe : NativeVibe} {before after : List VibeWorker} {worker : VibeWorker}
    (h : Sound ⟨vibe, before ++ worker :: after⟩) :
    vibe.state = .running ∧ vibe.prepared = none ∧ before ++ after = [] := by
  have hrunning : vibe.state = .running := by
    by_contra hne
    simpa using h.resting hne
  obtain ⟨-, other, hother⟩ := h.running hrunning
  have hlength := congrArg List.length hother
  simp only [List.length_append, List.length_cons, List.length_nil] at hlength
  refine ⟨hrunning, ?_, ?_⟩
  · by_contra hne
    have hprepared := h.turn.mp (Option.isSome_iff_ne_none.mpr hne)
    rw [hrunning] at hprepared
    exact absurd hprepared (by simp)
  · rw [← List.length_eq_zero_iff, List.length_append]
    omega

theorem sound_without {vibe : NativeVibe} (hprepared : vibe.prepared = none)
    (hstate : vibe.state ≠ .prepared) (hrunning : vibe.state ≠ .running) : Sound ⟨vibe, []⟩ := by
  constructor
  · simp [hprepared, hstate]
  · simp [hprepared]
  · exact fun h => absurd h hrunning
  · exact fun _ => rfl

theorem sound_step (h : Sound s) (hstep : Step guide s s') : Sound s' := by
  cases hstep with
  | startBuild operatorRequest around =>
    rcases @startBuild_cases guide s.vibe operatorRequest around with
      ⟨-, hkeeps, hruntime⟩ | ⟨runtime, turn, -, hsome, heq⟩
    · exact h.keep hkeeps hruntime
    · have hidle : s.vibe.state ≠ .running := by
        intro hrunning
        rw [(h.running hrunning).1] at hsome
        exact absurd hsome (by simp)
      rw [heq]
      constructor
      · simp [NativeVibe.holding]
      · rintro _ ⟨⟩
        exact ⟨rfl, rfl⟩
      · exact fun hrunning => absurd hrunning (by simp [NativeVibe.holding])
      · exact fun _ => h.resting hidle
  | beginStep =>
    rcases @beginStep_cases s.vibe with
      ⟨runtime, turn, -, -, hidle, hworker, hruntime, hprepared, hstate⟩ |
      ⟨hnone, hruntime, hprepared, hactive, hstate⟩
    · rw [hworker, h.resting hidle]
      constructor
      · simp [hprepared, hstate]
      · simp [hprepared]
      · exact fun _ => ⟨hruntime, _, rfl⟩
      · exact fun hne => absurd hstate hne
    · rw [hnone]
      rcases hstate with hstate | ⟨hstate, hidle, hmissing⟩
      · exact h.keep ⟨hstate, hprepared, hactive⟩ (by rw [hruntime])
      · have hwithout : s.vibe.prepared = none := by
          rcases hmissing with hmissing | hmissing
          · by_contra hne
            obtain ⟨turn, hturn⟩ := Option.ne_none_iff_exists'.mp hne
            have hsome := (h.ready turn hturn).1
            rw [hmissing] at hsome
            exact absurd hsome (by simp)
          · exact hmissing
        rw [h.resting hidle]
        exact sound_without (hprepared.trans hwithout) (by simp [hstate]) (by simp [hstate])
  | setProvider provider around =>
    rcases @setProvider_cases s.vibe around provider with
      ⟨-, hkeeps, hruntime⟩ | ⟨runtime, -, hidle, heq⟩
    · exact h.keep hkeeps hruntime
    · rw [heq, h.resting hidle]
      exact sound_without rfl (by simp [NativeVibe.renewed]) (by simp [NativeVibe.renewed])
  | @completeStep vibe before worker after result =>
    obtain ⟨-, hprepared, hworkers⟩ := h.worker
    obtain ⟨-, hkept, hstate⟩ := @completeStep_eq vibe result
    rw [hworkers]
    apply sound_without (hkept.trans hprepared)
    · rcases hstate with hstate | hstate <;> simp [hstate]
    · rcases hstate with hstate | hstate <;> simp [hstate]
  | workerDisconnected =>
    obtain ⟨-, hprepared, hworkers⟩ := h.worker
    rw [hworkers]
    exact sound_without hprepared (by simp [NativeVibe.workerDisconnected])
      (by simp [NativeVibe.workerDisconnected])

theorem sound_reachable (h : Reachable guide s) : Sound s := by
  induction h with
  | unavailable reason =>
    exact sound_without rfl (by simp [NativeVibe.unavailable]) (by simp [NativeVibe.unavailable])
  | opened root provider around =>
    unfold NativeVibe.openAt
    split
    · exact sound_without rfl (by simp) (by simp)
    · exact sound_without rfl (by simp [NativeVibe.unavailable]) (by simp [NativeVibe.unavailable])
  | step before step ih => exact sound_step ih step

structure Obeys (guide : Guide) (s : Session) : Prop extends Sound s where
  refused : s.vibe.state = .running →
    (∀ operatorRequest around, (∃ error,
      (s.vibe.startBuild guide operatorRequest around).1 = .error error) ∧
      s.vibe.Keeps (s.vibe.startBuild guide operatorRequest around).2.1) ∧
    (∀ provider around, (∃ error, (s.vibe.setProvider provider around).1 = .error error) ∧
      s.vibe.Keeps (s.vibe.setProvider provider around).2) ∧
    s.vibe.beginStep.1 = none ∧ s.vibe.Keeps s.vibe.beginStep.2
  failed : (∀ operatorRequest around error,
      (s.vibe.startBuild guide operatorRequest around).1 = .error error →
        s.vibe.Keeps (s.vibe.startBuild guide operatorRequest around).2.1) ∧
    ∀ provider around error, (s.vibe.setProvider provider around).1 = .error error →
      s.vibe.Keeps (s.vibe.setProvider provider around).2
  returned : ∀ result, (s.vibe.completeStep result).runtime = some result.runtime

/-- The state machine of the bridge: in every session, whatever its calls come to. -/
theorem session_obeys (guide : Guide) (s : Session) (h : Reachable guide s) : Obeys guide s := by
  have hsound := sound_reachable h
  refine { hsound with refused := fun hrunning => ⟨?_, ?_, ?_⟩, failed := ⟨?_, ?_⟩, returned := ?_ }
  · intro operatorRequest around
    rcases @startBuild_cases guide s.vibe operatorRequest around with
      ⟨herror, hkeeps, -⟩ | ⟨runtime, turn, -, hsome, -⟩
    · exact ⟨herror, hkeeps⟩
    · rw [(hsound.running hrunning).1] at hsome
      exact absurd hsome (by simp)
  · intro provider around
    rcases @setProvider_cases s.vibe around provider with ⟨herror, hkeeps, -⟩ | ⟨-, -, hidle, -⟩
    · exact ⟨herror, hkeeps⟩
    · exact absurd hrunning hidle
  · unfold NativeVibe.beginStep
    rw [if_pos hrunning]
    exact ⟨rfl, rfl, rfl, rfl⟩
  · intro operatorRequest around error herror
    rcases @startBuild_cases guide s.vibe operatorRequest around with
      ⟨-, hkeeps, -⟩ | ⟨runtime, turn, hok, -⟩
    · exact hkeeps
    · rw [hok] at herror
      exact absurd herror (by simp)
  · intro provider around error herror
    rcases @setProvider_cases s.vibe around provider with ⟨-, hkeeps, -⟩ | ⟨-, hok, -⟩
    · exact hkeeps
    · rw [hok] at herror
      exact absurd herror (by simp)
  · exact fun result => (completeStep_eq result).1

def bareGuide : Guide where
  prepare _ _ pad bus := (.error "wiki graph is unavailable: knowledge/wiki", bus, pad)
  systemPrompt step := .ok step.skillId
  outputContract step := step.asStr

theorem session_obeys_blocked :
    (NativeVibe.unavailable "no credential").beginStep.2.state = .blocked ∧
      Obeys bareGuide ⟨(NativeVibe.unavailable "no credential").beginStep.2, []⟩ :=
  ⟨rfl, session_obeys bareGuide _ (.step (.unavailable "no credential") .beginStep)⟩

end Run

end AtomVibe.NativeBridge
