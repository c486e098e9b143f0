import AtomVibe.CoordinatorChain
import AtomVibe.Runtime

namespace AtomVibe.RuntimeGate

open Checked JsonText Secrets BuildProtocol PlannerModel BuildPlanner PlannerSteps PlannerInvariant
open LedgerCodec LedgerRoundTrip LedgerStore BuildLedgerStore LedgerSave LedgerAtomic Coordinator ChainFiles
open Scratchpad ScratchpadStore ScratchpadChain ScratchpadAppend ScratchpadSeal ScratchpadOpen
open RuntimeModel AtomVibe.Runtime AtomVibeRuntime

section Record

variable {store : ScratchpadStore} {step : BuildStep} {ledger : BuildLedger}
  {decision : BuildPlannerDecision} {clock : PadClock} {pad : ScratchpadFiles}

def PadTakes (store : ScratchpadStore) (ledger : BuildLedger) (decision : BuildPlannerDecision)
    (clock : PadClock) (pad : ScratchpadFiles) : Prop :=
  ∃ entries, (store.load pad).1 = .ok entries ∧
    Admitted pad entries (decisionScratchpad ledger decision).2.1
      (decisionScratchpad ledger decision).2.2 ∧
    Lossless (redactSensitiveText (decisionScratchpad ledger decision).2.1) ∧
    (ledger.status = .complete → ¬Late clock.sealedAt clock.sealModified)

def Gained (store : ScratchpadStore) (step : BuildStep) (ledger : BuildLedger)
    (decision : BuildPlannerDecision) (pad pad' : ScratchpadFiles) : Prop :=
  ∃ entries entry, (store.load pad).1 = .ok entries ∧
    (store.load pad').1 = .ok (entries ++ [entry]) ∧ entry.step = some step ∧
    entry.kind = (decisionScratchpad ledger decision).1 ∧
    entry.content = redactSensitiveText (decisionScratchpad ledger decision).2.1 ∧
    entry.sourceIds = (decisionScratchpad ledger decision).2.2 ∧
    (ledger.status = .complete → pad'.sealFile.isSome)

theorem recordEntry_cases {entries : List ScratchpadEntry} (h : Accepts store pad entries) :
    (PadTakes store ledger decision clock pad ∧
      (recordEntry store step ledger decision clock pad).1 = .ok () ∧
      Gained store step ledger decision pad
        (recordEntry store step ledger decision clock pad).2) ∨
    (¬PadTakes store ledger decision clock pad ∧
      ∃ error, (recordEntry store step ledger decision clock pad).1 = .error error) := by
  have hload := load_eq_ok.mpr h
  have hentries : ∀ entries', (store.load pad).1 = .ok entries' → entries' = entries :=
    fun entries' he => Except.ok.inj (he.symm.trans hload)
  have hiff := append_ok_iff h clock.appendedAt (some step) (decisionScratchpad ledger decision).1
    (decisionScratchpad ledger decision).2.1 (decisionScratchpad ledger decision).2.2
  unfold recordEntry
  cases happend : store.append clock.appendedAt (some step) (decisionScratchpad ledger decision).1
      (decisionScratchpad ledger decision).2.1 (decisionScratchpad ledger decision).2.2 pad with
  | mk result pad' =>
    rw [happend] at hiff
    cases result with
    | error error =>
      right
      refine ⟨?_, by simp [happend]⟩
      rintro ⟨entries', he, hadmitted, hlossless, -⟩
      obtain rfl := hentries entries' he
      obtain ⟨entry, hentry⟩ := hiff.mpr ⟨hadmitted, hlossless⟩
      exact absurd hentry (by simp)
    | ok entry =>
      obtain ⟨hadmitted, hlossless⟩ := hiff.mp ⟨entry, rfl⟩
      have hresult := congrArg Prod.fst happend
      have hatomic := (appendAtomic_of_lossless h clock.appendedAt (some step)
        (decisionScratchpad ledger decision).1 fun _ => hlossless).accepted entry hresult
      rw [happend] at hatomic
      obtain ⟨hstep, hkind, hsources⟩ := append_fields _ _ _ hresult
      have haccepts := load_eq_ok.mp hatomic.1
      simp only [happend]
      by_cases hcomplete : ledger.status = .complete
      · rw [if_pos hcomplete]
        have hopen := append_open h hresult
        rw [happend] at hopen
        rcases sealPad_cases haccepts hopen clock.sealedAt clock.sealModified with
          ⟨hlate, hok, haccepts', hsealed⟩ | ⟨hlate, herror⟩
        · left
          exact ⟨⟨entries, hload, hadmitted, hlossless, fun _ => hlate⟩, hok, entries, entry, hload,
            load_eq_ok.mpr haccepts', hstep, hkind, hatomic.2, hsources, fun _ => hsealed⟩
        · right
          refine ⟨?_, herror⟩
          rintro ⟨_, -, -, -, hearly⟩
          exact hearly hcomplete hlate
      · rw [if_neg hcomplete]
        left
        exact ⟨⟨entries, hload, hadmitted, hlossless, fun hc => absurd hc hcomplete⟩, rfl, entries,
          entry, hload, hatomic.1, hstep, hkind, hatomic.2, hsources, fun hc => absurd hc hcomplete⟩

end Record

section Decision

variable {runtime : AtomVibeRuntime} {files : RuntimeFiles} {buildId : String} {step : BuildStep}
  {ledger : BuildLedger} {decision : BuildPlannerDecision} {clock : PadClock}

theorem padTakes_withScope {store : ScratchpadStore} {pad : ScratchpadFiles}
    {entries : List ScratchpadEntry} (h : Accepts store pad entries) :
    PadTakes store ledger decision clock (ScratchpadChain.withScope store pad) ↔
      PadTakes store ledger decision clock pad := by
  have hadmitted : ∀ entries content sources,
      Admitted (ScratchpadChain.withScope store pad) entries content sources ↔
        Admitted pad entries content sources :=
    fun entries content sources => ⟨fun ⟨h1, h2, h3, h4, h5⟩ => ⟨h1, h2, h3, h4, h5⟩,
      fun ⟨h1, h2, h3, h4, h5⟩ => ⟨h1, h2, h3, h4, h5⟩⟩
  rw [PadTakes, PadTakes, load_eq_ok.mpr h, load_eq_ok.mpr (accepts_withScope h)]
  simp only [hadmitted]

def Takes (runtime : AtomVibeRuntime) (buildId : String) (ledger : BuildLedger)
    (decision : BuildPlannerDecision) (clock : PadClock) (files : RuntimeFiles) : Prop :=
  ∃ store, runtime.padStore buildId = .ok store ∧
    PadTakes store ledger decision clock (files.pad store)

theorem recordDecision_cases :
    (Takes runtime buildId ledger decision clock files ∧
      (runtime.recordDecision buildId step ledger decision clock files).1 = .ok () ∧
      ∃ store, runtime.padStore buildId = .ok store ∧
        Gained store step ledger decision (files.pad store)
          ((runtime.recordDecision buildId step ledger decision clock files).2.pad store)) ∨
    (¬Takes runtime buildId ledger decision clock files ∧
      ∃ error, (runtime.recordDecision buildId step ledger decision clock files).1 =
        .error error) := by
  unfold recordDecision scratchpad
  cases hstore : runtime.padStore buildId with
  | error error =>
    right
    exact ⟨by rintro ⟨store, h, -⟩; rw [hstore] at h; exact absurd h (by simp), _, rfl⟩
  | ok store =>
    have htakes : Takes runtime buildId ledger decision clock files ↔
        PadTakes store ledger decision clock (files.pad store) := by
      rw [Takes, hstore]
      simp
    rw [htakes]
    by_cases hload : ∃ entries, Accepts store (files.pad store) entries
    · obtain ⟨entries, haccepts⟩ := hload
      simp only [openPad_of_accepts haccepts, Except.mapError, RuntimeFiles.pad_setPad]
      rcases recordEntry_cases (accepts_withScope haccepts) with ⟨htaken, hok, hgained⟩ |
        ⟨hrefused, error, herror⟩
      · left
        rw [padTakes_withScope haccepts] at htaken
        refine ⟨htaken, by rw [hok], store, rfl, ?_⟩
        rw [RuntimeFiles.pad_setPad]
        obtain ⟨entries', entry, hbefore, hrest⟩ := hgained
        rw [load_eq_ok.mpr (accepts_withScope haccepts)] at hbefore
        exact ⟨entries', entry, (load_eq_ok.mpr haccepts).trans hbefore, hrest⟩
      · right
        rw [padTakes_withScope haccepts] at hrefused
        exact ⟨hrefused, _, by rw [herror]⟩
    · right
      obtain ⟨error, herror⟩ := openPad_refused (not_exists.mp hload)
      refine ⟨fun ⟨entries, hentries, _⟩ => hload ⟨entries, load_eq_ok.mp hentries⟩, ?_⟩
      simp only [herror, Except.mapError]
      exact ⟨_, rfl⟩

theorem planners_recordDecision :
    (runtime.recordDecision buildId step ledger decision clock files).2.planners =
      files.planners := by
  unfold recordDecision scratchpad
  cases runtime.padStore buildId with
  | error error => rfl
  | ok store =>
    cases hopened : (openPad store (files.pad store)).1 with
    | error error => simp only [hopened, Except.mapError]; rfl
    | ok opened => simp only [hopened, Except.mapError]; rfl

end Decision

section Gate

variable {runtime : AtomVibeRuntime} {files : RuntimeFiles} {buildId : String} {call : Call}
  {clock : PadClock}

structure AllOrNothing (runtime : AtomVibeRuntime) (files : RuntimeFiles) (buildId : String)
    (call : Call) (clock : PadClock) : Prop where
  rejected : ∀ error, (runtime.evaluateGate buildId call clock files).1 = .error error →
    (runtime.evaluateGate buildId call clock files).2.1.coordinator.planners.lookup buildId =
      runtime.coordinator.planners.lookup buildId ∧
    (runtime.coordinator.store.load buildId
      (runtime.evaluateGate buildId call clock files).2.2.planners).1 =
      (runtime.coordinator.store.load buildId files.planners).1
  accepted : ∀ decision, (runtime.evaluateGate buildId call clock files).1 = .ok decision →
    ∃ ledger ledger' store, runtime.coordinator.planners.lookup buildId = some ledger ∧
      (runtime.evaluateGate buildId call clock files).2.1.coordinator.planners.lookup buildId =
        some ledger' ∧
      (runtime.coordinator.store.load buildId
        (runtime.evaluateGate buildId call clock files).2.2.planners).1 = .ok ledger' ∧
      ledger'.revision.toNat = ledger.revision.toNat + 1 ∧
      runtime.padStore buildId = .ok store ∧
      Gained store call.input.step ledger' decision (files.pad store)
        ((runtime.evaluateGate buildId call clock files).2.2.pad store)

/-- The condition: a candidate that would be written reads back as it is, and the pad takes the
record of one that is written or found there. -/
def Committable (runtime : AtomVibeRuntime) (files : RuntimeFiles) (buildId : String)
    (call : Call) (clock : PadClock) : Prop :=
  ∀ manifest planner decision candidate,
    SessionStore.load buildId files.sessions = .ok manifest →
    runtime.coordinator.planners.lookup buildId = some planner →
    evaluateAndHandle planner call = (.ok decision, candidate) →
    (Writes runtime.coordinator.store files.planners candidate →
      Storable candidate ∧ candidate.revision.toNat < 10 ^ 6) ∧
    (Writes runtime.coordinator.store files.planners candidate ∨
      (runtime.coordinator.store.load buildId files.planners).1 = .ok candidate →
      Takes runtime buildId candidate decision clock files)

theorem allOrNothing_unchanged {error : RuntimeError}
    (hresult : (runtime.evaluateGate buildId call clock files).1 = .error error)
    (hplanners : (runtime.evaluateGate buildId call clock files).2.1.coordinator =
      runtime.coordinator)
    (hload : (runtime.coordinator.store.load buildId
      (runtime.evaluateGate buildId call clock files).2.2.planners).1 =
      (runtime.coordinator.store.load buildId files.planners).1) :
    AllOrNothing runtime files buildId call clock := by
  constructor
  · intro _ _
    rw [hplanners]
    exact ⟨rfl, hload⟩
  · intro decision hdecision
    rw [hresult] at hdecision
    exact absurd hdecision (by simp)

section Commit

variable {manifest : SessionManifest} {planner candidate : BuildLedger}
  {decision : BuildPlannerDecision}
  (hsession : SessionStore.load buildId files.sessions = .ok manifest)
  (hplanner : runtime.coordinator.planners.lookup buildId = some planner)
  (he : evaluateAndHandle planner call = (.ok decision, candidate))

include hplanner he

theorem evaluate_eq_commit : candidate.buildId = buildId ∧
    runtime.coordinator.evaluate buildId call files.planners =
      runtime.coordinator.commit candidate.buildId decision candidate files.planners := by
  obtain ⟨-, hid, -⟩ := evaluateAndHandle_ok he
  have hbuild := hid.trans (runtime.sound buildId planner hplanner).1
  refine ⟨hbuild, ?_⟩
  simp only [BuildCoordinator.evaluate, hplanner, he, hbuild]

include hsession

theorem evaluateGate_unsaved {error : BuildLedgerStoreError}
    (hsave : (runtime.coordinator.store.save candidate files.planners).1 = .error error) :
    (∃ error, (runtime.evaluateGate buildId call clock files).1 = .error error) ∧
      (runtime.evaluateGate buildId call clock files).2.1.coordinator = runtime.coordinator ∧
      (runtime.evaluateGate buildId call clock files).2.2.planners =
        (runtime.coordinator.store.save candidate files.planners).2 := by
  obtain ⟨hbuild, hevaluate⟩ :=
    @evaluate_eq_commit runtime files buildId call planner candidate decision hplanner he
  rw [BuildCoordinator.commit_error hsave] at hevaluate
  unfold evaluateGate
  simp only [hsession, hevaluate]
  exact ⟨⟨_, rfl⟩, congrArg (fun done => done.2.1) hevaluate, trivial⟩

theorem evaluateGate_saved {path : String}
    (hsave : (runtime.coordinator.store.save candidate files.planners).1 = .ok path) :
    ∃ changed : AtomVibeRuntime,
      changed.coordinator.planners.lookup buildId = some candidate ∧
      changed.padStore buildId = runtime.padStore buildId ∧
      runtime.evaluateGate buildId call clock files =
        let recorded := changed.recordDecision buildId call.input.step candidate decision clock
          { files with planners := (runtime.coordinator.store.save candidate files.planners).2 }
        (recorded.1.map fun _ => decision, changed, recorded.2) := by
  obtain ⟨hbuild, hevaluate⟩ :=
    @evaluate_eq_commit runtime files buildId call planner candidate decision hplanner he
  obtain ⟨changed, hkeeps, hcommit⟩ := @BuildCoordinator.commit_ok runtime.coordinator decision
    candidate files.planners path hsave
  rw [hcommit] at hevaluate
  have hcoordinator : (runtime.evaluated buildId call files.planners).coordinator = changed :=
    congrArg (fun done => done.2.1) hevaluate
  have hlookup : changed.planners.lookup buildId = some candidate := by
    rw [hkeeps.planners, Catalog.lookup_insert, if_pos hbuild.symm]
  refine ⟨runtime.evaluated buildId call files.planners, hcoordinator ▸ hlookup, rfl, ?_⟩
  unfold evaluateGate
  simp only [hsession, hevaluate, hcoordinator, hlookup]

theorem allOrNothing_unsaved {error : BuildLedgerStoreError}
    (hsave : (runtime.coordinator.store.save candidate files.planners).1 = .error error) :
    AllOrNothing runtime files buildId call clock ↔
      (Writes runtime.coordinator.store files.planners candidate →
        Storable candidate ∧ candidate.revision.toNat < 10 ^ 6) := by
  obtain ⟨hbuild, -⟩ :=
    @evaluate_eq_commit runtime files buildId call planner candidate decision hplanner he
  have hvalid := (evaluateAndHandle_ok he).1
  obtain ⟨⟨refusal, hresult⟩, hcoordinator, hroot⟩ :=
    @evaluateGate_unsaved runtime files buildId call clock _ _ _ _ hsession hplanner he error hsave
  constructor
  · intro hatomic
    apply storable_of_kept hvalid
    intro _ _
    rw [hbuild, ← hroot]
    exact (hatomic.rejected refusal hresult).2
  · intro hstorable
    apply allOrNothing_unchanged hresult hcoordinator
    rw [hroot, ← hbuild]
    exact (saveAtomic_of_storable hvalid hstorable).rejected error hsave

omit hsession hplanner in
theorem revision_of_saved {path : String}
    (hsave : (runtime.coordinator.store.save candidate files.planners).1 = .ok path) :
    candidate.revision.toNat = planner.revision.toNat + 1 := by
  obtain ⟨hvalid, -, hrevision⟩ := evaluateAndHandle_ok he
  have hlt := (load_of_saved hvalid hsave).2
  have hsize : 10 ^ 6 < UInt64.size := by decide
  rw [hrevision] at hlt ⊢
  apply toNat_saturatingSucc
  by_contra hfull
  rw [saturatingSucc, if_neg hfull] at hlt
  omega

theorem allOrNothing_saved {path : String}
    (hsave : (runtime.coordinator.store.save candidate files.planners).1 = .ok path) :
    AllOrNothing runtime files buildId call clock ↔
      Takes runtime buildId candidate decision clock files := by
  obtain ⟨hbuild, -⟩ :=
    @evaluate_eq_commit runtime files buildId call planner candidate decision hplanner he
  have hrevision := @revision_of_saved runtime files call planner candidate decision he path hsave
  have hload := (load_of_saved (evaluateAndHandle_ok he).1 hsave).1
  rw [hbuild] at hload
  obtain ⟨changed, hlookup, hpad, hgate⟩ :=
    @evaluateGate_saved runtime files buildId call clock _ _ _ _ hsession hplanner he path hsave
  have htakes : Takes changed buildId candidate decision clock
      { files with planners := (runtime.coordinator.store.save candidate files.planners).2 } ↔
        Takes runtime buildId candidate decision clock files := by
    rw [Takes, Takes, hpad]
    rfl
  rcases @recordDecision_cases changed
    { files with planners := (runtime.coordinator.store.save candidate files.planners).2 } buildId
    call.input.step candidate decision clock with ⟨htaken, hok, store, hstore, hgained⟩ |
    ⟨hrefused, error, herror⟩
  · refine iff_of_true ⟨?_, ?_⟩ (htakes.mp htaken)
    · intro error hresult
      rw [hgate] at hresult
      simp only [hok] at hresult
      exact absurd hresult (by simp [Except.map])
    · intro decision' hresult
      rw [hgate] at hresult ⊢
      simp only [hok, Except.map, Except.ok.injEq] at hresult
      subst hresult
      refine ⟨planner, candidate, store, hplanner, hlookup, ?_, hrevision, hpad ▸ hstore, hgained⟩
      simp only [planners_recordDecision]
      exact hload
  · refine iff_of_false ?_ (fun htaken => hrefused (htakes.mpr htaken))
    intro hatomic
    have hkept := (hatomic.rejected error (by rw [hgate]; simp only [herror]; rfl)).1
    rw [hgate, hlookup, hplanner] at hkept
    rw [Option.some.inj hkept] at hrevision
    omega

theorem committable_iff :
    Committable runtime files buildId call clock ↔
      (Writes runtime.coordinator.store files.planners candidate →
        Storable candidate ∧ candidate.revision.toNat < 10 ^ 6) ∧
      (Writes runtime.coordinator.store files.planners candidate ∨
        (runtime.coordinator.store.load buildId files.planners).1 = .ok candidate →
        Takes runtime buildId candidate decision clock files) := by
  constructor
  · intro h
    exact h manifest planner decision candidate hsession hplanner he
  · intro h manifest' planner' decision' candidate' _ hplanner' he'
    obtain rfl := Option.some.inj (hplanner.symm.trans hplanner')
    obtain ⟨hdecision, rfl⟩ := Prod.mk.inj (he.symm.trans he')
    obtain rfl := Except.ok.inj hdecision
    exact h

end Commit

/-- The evaluation of a gate is all or nothing exactly when what it would save can be stored and
its record goes into the pad. -/
theorem evaluate_gate_all_or_nothing_iff (runtime : AtomVibeRuntime) (files : RuntimeFiles)
    (buildId : String) (call : Call) (clock : PadClock) :
    AllOrNothing runtime files buildId call clock ↔
      Committable runtime files buildId call clock := by
  have hvacuous : ∀ error, (runtime.evaluateGate buildId call clock files).1 = .error error →
      (runtime.evaluateGate buildId call clock files).2.1.coordinator = runtime.coordinator →
      (runtime.evaluateGate buildId call clock files).2.2.planners = files.planners →
      Committable runtime files buildId call clock →
      (AllOrNothing runtime files buildId call clock ↔
        Committable runtime files buildId call clock) := by
    intro error hresult hcoordinator hplanners hcommittable
    exact iff_of_true (allOrNothing_unchanged hresult hcoordinator (by rw [hplanners])) hcommittable
  cases hsession : SessionStore.load buildId files.sessions with
  | error error =>
    apply hvacuous error
    · simp only [evaluateGate, hsession]
    · simp only [evaluateGate, hsession]
    · simp only [evaluateGate, hsession]
    · intro manifest _ _ _ hload
      rw [hsession] at hload
      exact absurd hload (by simp)
  | ok manifest =>
  cases hplanner : runtime.coordinator.planners.lookup buildId with
  | none =>
    have hevaluate : runtime.coordinator.evaluate buildId call files.planners =
        (.error (.buildNotFound buildId), runtime.coordinator, files.planners) := by
      simp only [BuildCoordinator.evaluate, hplanner]
    apply hvacuous (.planner (BuildPlannerError.buildNotFound buildId).display)
    · simp only [evaluateGate, hsession, hevaluate]
    · simp only [evaluateGate, hsession, hevaluate, evaluated]
    · simp only [evaluateGate, hsession, hevaluate]
    · intro _ planner _ _ _ hlookup
      rw [hplanner] at hlookup
      exact absurd hlookup (by simp)
  | some planner =>
  cases he : evaluateAndHandle planner call with
  | mk result candidate =>
  cases result with
  | error error =>
    have hevaluate : runtime.coordinator.evaluate buildId call files.planners =
        (.error error, runtime.coordinator, files.planners) := by
      simp only [BuildCoordinator.evaluate, hplanner, he]
    apply hvacuous (.planner error.display)
    · simp only [evaluateGate, hsession, hevaluate]
    · simp only [evaluateGate, hsession, hevaluate, evaluated]
    · simp only [evaluateGate, hsession, hevaluate]
    · intro _ planner' decision' _ _ hlookup he'
      obtain rfl := Option.some.inj (hplanner.symm.trans hlookup)
      rw [he] at he'
      exact absurd (congrArg Prod.fst he') (by simp)
  | ok decision =>
    obtain ⟨hbuild, -⟩ :=
      @evaluate_eq_commit runtime files buildId call planner candidate decision hplanner he
    have hsaves := @save_ok_iff runtime.coordinator.store files.planners candidate
      (evaluateAndHandle_ok he).1
    rw [hbuild] at hsaves
    rw [committable_iff hsession hplanner he]
    cases hsave : (runtime.coordinator.store.save candidate files.planners).1 with
    | error error =>
      rw [allOrNothing_unsaved hsession hplanner he hsave]
      refine ⟨fun hstorable => ⟨hstorable, fun hpending => ?_⟩, fun h => h.1⟩
      obtain ⟨path, hpath⟩ := hsaves.mpr (hpending.imp_left fun hwrites => ⟨hwrites, hstorable hwrites⟩)
      rw [hsave] at hpath
      exact absurd hpath (by simp)
    | ok path =>
      rw [allOrNothing_saved hsession hplanner he hsave]
      rcases hsaves.mp ⟨path, hsave⟩ with ⟨hwrites, hstorable⟩ | hload
      · exact ⟨fun htakes => ⟨fun _ => hstorable, fun _ => htakes⟩, fun h => h.2 (.inl hwrites)⟩
      · rw [← hbuild] at hload
        refine ⟨fun htakes => ⟨fun hwrites => absurd hwrites (not_writes_of_load hload),
          fun _ => htakes⟩, fun h => h.2 (.inr ?_)⟩
        rw [← hbuild]
        exact hload

end Gate

section Deep

open GateModel SourceInspection GateSpec CoordinatorChain Hash Text

def deepChars : List Char :=
  (List.replicate 290 ['d', '/']).flatten ++ ['n', 'o', 't', 'e', 's']

def deepPath : String := String.ofList deepChars

def deepArtifact : BuildArtifactRef :=
  ⟨deepPath, sha256Hex sampleSource.toByteArray.data.toList, "requirements"⟩

def deepCall : Call :=
  sampleCall { sampleInput 1 .intake with
    requirements := some { sampleRequirements with artifact := deepArtifact } }

theorem toList_deepPath : deepPath.toList = deepChars := String.toList_ofList

theorem utf8ByteSize_deepPath : deepPath.utf8ByteSize = 585 := by
  rw [utf8ByteSize_eq, toList_deepPath]
  decide +kernel

theorem isSafeEvidencePath_deepPath : isSafeEvidencePath deepPath = true := by
  have hnormalized : replaceChar '\\' '/' deepPath = deepPath := by
    have hchars : (deepChars.map fun c => if c = '\\' then '/' else c) = deepChars := by
      decide +kernel
    rw [replaceChar, toList_deepPath, hchars, deepPath]
  have hne : deepPath ≠ "" := by
    intro h
    have hsize := utf8ByteSize_deepPath
    rw [h] at hsize
    exact absurd hsize (by decide)
  have hchars : (!("/".toList.isPrefixOf deepChars) && !deepChars.contains ':' &&
      (splitOn '/' deepChars).all (fun part => part != [] && part != ['.'] && part != ['.', '.']) &&
      !deepChars.any isControl) = true := by
    decide +kernel
  simp only [isSafeEvidencePath, hnormalized, utf8ByteSize_deepPath, startsWith, toList_deepPath,
    bne_iff_ne.mpr hne]
  simpa using hchars

theorem deepArtifact_verified : verifyArtifact sampleFs "root" deepArtifact = .ok () := by
  rw [deepArtifact]
  apply artifact_verified isSafeEvidencePath_deepPath
  · decide +kernel
  · decide

theorem validateSourceIds_long {values : List String} {value : String} (hmem : value ∈ values)
    (hlong : 512 < value.utf8ByteSize) : validateSourceIds values ≠ .ok () := by
  intro h
  unfold validateSourceIds at h
  split_ifs at h with hbad
  simp only [Bool.or_eq_true, not_or, List.any_eq_true, not_exists, not_and] at hbad
  have hshort := (hbad.2 value hmem).1.2
  exact hshort (by simpa using hlong)

theorem gateOutcome_deepCall : ∃ evidence,
    gateOutcome deepCall = .pass evidence ∧ deepArtifact ∈ evidence.artifacts := by
  have hall : ∀ artifact, artifact ∈ deepCall.input.allArtifacts ↔ artifact = deepArtifact := by
    intro artifact
    rw [mem_allArtifacts]
    exact List.mem_singleton
  refine ⟨_, evaluateGate_pass.mpr ⟨"root", _, ?_, rfl, rfl⟩, (hall deepArtifact).mpr rfl⟩
  refine verifyArtifacts_eq_ok.mpr ⟨rfl, rfl, fun artifact hmem => ?_⟩
  rw [(hall artifact).mp hmem]
  exact deepArtifact_verified

theorem evaluate_deepCall : ∃ decision candidate,
    evaluateAndHandle demoLedger deepCall = (.ok decision, candidate) ∧
      validateSourceIds (decisionScratchpad candidate decision).2.2 ≠ .ok () := by
  obtain ⟨evidence, hpass, hmem⟩ := gateOutcome_deepCall
  have hreleased : Released demoLedger deepCall := ⟨rfl, rfl⟩
  obtain ⟨decision, hdecision⟩ :=
    (accepted_iff (aligned_of_new new_demoLedger) deepCall).mpr hreleased
  obtain ⟨event, he⟩ := evaluateAndHandle_pass hreleased hpass
  rw [he] at hdecision
  obtain ⟨rfl, -⟩ := conclude_eq_ok.mp hdecision
  refine ⟨.advance event, stamp (advance demoLedger deepCall evidence) deepCall,
    he.trans (Prod.ext hdecision rfl), fun hsources => ?_⟩
  have hids : (decisionScratchpad (stamp (advance demoLedger deepCall evidence) deepCall)
      (.advance event)).2.2 = evidence.artifacts.map fun artifact => "artifact:" ++ artifact.path := by
    simp [decisionScratchpad, decisionEvidenceIds, stamp, stepOutputs_advance, passedOutput]
  have hlong : 512 < ("artifact:" ++ deepPath).utf8ByteSize := by
    rw [String.utf8ByteSize_append, utf8ByteSize_deepPath]
    exact lt_of_lt_of_le (by decide) (Nat.le_add_left 585 _)
  rw [hids] at hsources
  exact validateSourceIds_long (List.mem_map_of_mem hmem) hlong hsources

def demoRuntime : AtomVibeRuntime where
  root := ".atom-vibe"
  coordinator := ⟨sampleStore, Catalog.empty.insert demoLedger.buildId demoLedger, .new, [],
    Bus.SpiderwebBus.fresh_new⟩
  provider := Provider.sampleAdapter
  contextBus := .new
  providerBus := .new
  providerRoutes := []
  sound := by
    have hvalid := (aligned_of_new new_demoLedger).valid
    refine @sound_insert ⟨sampleStore, Catalog.empty, .new, [], Bus.SpiderwebBus.fresh_new⟩ _ ?_
      demoLedger hvalid rfl
    intro buildId planner hlookup
    exact absurd hlookup (Option.some_ne_none planner).symm

def demoSession : SessionManifest :=
  SessionStore.newManifest demoLedger.buildId "demo" "Track my inventory" Provider.sampleConfig 0

def demoFiles : RuntimeFiles where
  planners := (sampleStore.save demoLedger freshRoot).2
  sessions := Catalog.empty.insert (SessionStore.sessionName demoLedger.buildId)
    (SessionStore.manifestJson demoSession).toByteArray
  scratchpads := Catalog.empty
  turns := Catalog.empty
  outputs := Catalog.empty

theorem load_demoSession :
    SessionStore.load demoLedger.buildId demoFiles.sessions = .ok demoSession := by
  apply SessionStore.load_new
  · decide +kernel
  · decide +kernel
  · decide +kernel

theorem evaluate_gate_not_all_or_nothing :
    ¬AllOrNothing demoRuntime demoFiles demoLedger.buildId deepCall ⟨0, 0, none⟩ := by
  rw [evaluate_gate_all_or_nothing_iff]
  intro hcommittable
  obtain ⟨decision, candidate, he, hsources⟩ := evaluate_deepCall
  have hplanner : demoRuntime.coordinator.planners.lookup demoLedger.buildId = some demoLedger := by
    rw [demoRuntime, Catalog.lookup_insert, if_pos rfl]
  have hwrites : Writes demoRuntime.coordinator.store demoFiles.planners candidate := by
    simp only [demoFiles]
    exact (writes_after_demo ⟨deepCall, decision, he⟩).2
  obtain ⟨-, htakes⟩ :=
    hcommittable demoSession demoLedger decision candidate load_demoSession hplanner he
  obtain ⟨_, -, _, -, hadmitted, -⟩ := htakes (.inl hwrites)
  exact hsources hadmitted.sources

end Deep

end AtomVibe.RuntimeGate
