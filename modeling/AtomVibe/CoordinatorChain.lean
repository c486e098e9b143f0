import AtomVibe.LedgerListing
import AtomVibe.RecordedEvidence

namespace AtomVibe.CoordinatorChain

open Checked Transition ChainFiles BuildProtocol PlannerModel BuildPlanner PlannerSteps PlannerInvariant
open JsonText BoundedRetries LedgerCodec LedgerRoundTrip LedgerStore BuildLedgerStore LedgerChain LedgerSave
open LedgerAtomic LedgerListing RecordedEvidence Coordinator GateSpec Text

structure World where
  root : LedgerRoot
  coordinators : List BuildCoordinator

inductive CoordinatorOp
  | openRoot (entries : List String)
  | startBuild (index : ℕ) (projectId : String) (autonomousCorrection : Bool) (retryLimit : UInt8)
    (now : UInt64) (pid : UInt32) (sequence : UInt64)
  | evaluate (index : ℕ) (buildId : String) (call : Call)

inductive CoordinatorResult
  | opened (result : Except BuildPlannerError Unit)
  | started (result : Except BuildPlannerError String)
  | evaluated (result : Except BuildPlannerError BuildPlannerDecision)
  | nobody

def openCoordinator (store : BuildLedgerStore) (world : World) (entries : List String) :
    CoordinatorResult × World :=
  match BuildCoordinator.openRoot store entries world.root with
  | .error error => (.opened (.error error), world)
  | .ok coordinator =>
    (.opened (.ok ()), { world with coordinators := world.coordinators ++ [coordinator] })

def runCoordinator (store : BuildLedgerStore) (world : World) :
    CoordinatorOp → CoordinatorResult × World
  | .openRoot entries => openCoordinator store world entries
  | .startBuild index projectId autonomousCorrection retryLimit now pid sequence =>
    match world.coordinators[index]? with
    | none => (.nobody, world)
    | some coordinator =>
      let done := coordinator.startBuild projectId autonomousCorrection retryLimit now pid sequence
        world.root
      (.started done.1, ⟨done.2.2, world.coordinators.set index done.2.1⟩)
  | .evaluate index buildId call =>
    match world.coordinators[index]? with
    | none => (.nobody, world)
    | some coordinator =>
      let done := coordinator.evaluate buildId call world.root
      (.evaluated done.1, ⟨done.2.2, world.coordinators.set index done.2.1⟩)

abbrev CoordinatorVisit := Visit World CoordinatorOp CoordinatorResult

def freshWorld : World := ⟨freshRoot, []⟩

def Started (ledger : BuildLedger) : Prop :=
  ∃ projectId autonomousCorrection retryLimit now pid sequence,
    new projectId autonomousCorrection retryLimit now pid sequence = .ok ledger

def PlannerStep (ledger next : BuildLedger) : Prop :=
  ∃ call decision, evaluateAndHandle ledger call = (.ok decision, next)

structure Linear (ledgers : List BuildLedger) : Prop where
  started : ∀ ledger, ledgers.head? = some ledger → Started ledger
  stepped : ledgers.IsChain PlannerStep

section Linear

variable {ledgers : List BuildLedger} {ledger previous : BuildLedger}

theorem linear_nil : Linear [] := ⟨by simp, .nil⟩

theorem linear_started (h : Started ledger) : Linear [ledger] :=
  ⟨fun first hfirst => by rwa [← Option.some.inj hfirst], .singleton ledger⟩

theorem Linear.concat (h : Linear ledgers) (hlast : ledgers.getLast? = some previous)
    (hstep : PlannerStep previous ledger) : Linear (ledgers ++ [ledger]) := by
  have hne : ledgers ≠ [] := by
    rintro rfl
    simp at hlast
  refine ⟨fun first hfirst => h.started first ?_, ?_⟩
  · rwa [List.head?_append_of_ne_nil _ hne] at hfirst
  · refine List.isChain_append.mpr ⟨h.stepped, .singleton ledger, fun x hx y hy => ?_⟩
    obtain rfl := Option.some.inj (hlast.symm.trans hx)
    obtain rfl := Option.some.inj hy
    exact hstep

theorem sound_step (h : Aligned previous ∧ Bounded previous) (hstep : PlannerStep previous ledger) :
    Aligned ledger ∧ Bounded ledger := by
  obtain ⟨call, decision, he⟩ := hstep
  have haligned := aligned_evaluateAndHandle h.1 call
  have hbounded := bounded_evaluateAndHandle h.2 h.1 call
  rw [he] at haligned hbounded
  exact ⟨haligned, hbounded⟩

theorem sound_started (h : Started ledger) : Aligned ledger ∧ Bounded ledger := by
  obtain ⟨_, _, _, _, _, _, hnew⟩ := h
  refine ⟨aligned_of_new hnew, ?_⟩
  obtain ⟨-, rfl⟩ := new_eq_ok.mp hnew
  exact bounded_freshLedger _ _ _ _ _

theorem Linear.sound (h : Linear ledgers) : ∀ ledger ∈ ledgers, Aligned ledger ∧ Bounded ledger := by
  obtain ⟨hstarted, hstepped⟩ := h
  cases ledgers with
  | nil => simp
  | cons first rest =>
    have hfirst := sound_started (hstarted first rfl)
    clear hstarted
    induction rest generalizing first with
    | nil => exact List.forall_mem_singleton.mpr hfirst
    | cons second rest ih =>
      obtain ⟨hstep, hstepped⟩ := List.isChain_cons_cons.mp hstepped
      exact List.forall_mem_cons.mpr ⟨hfirst, ih second hstepped (sound_step hfirst hstep)⟩

theorem revision_lt (haligned : Aligned ledger) (hbounded : Bounded ledger) :
    ledger.revision.toNat < 10 ^ 6 := by
  have hle := hbounded.length_le haligned
  have hlimit := UInt8.le_iff_toNat_le.mp haligned.valid.retryLimit.2
  have hrevision := hbounded.revision
  have h32 : (32 : UInt8).toNat = 32 := rfl
  omega

theorem PlannerStep.next (h : Aligned previous ∧ Bounded previous)
    (hstep : PlannerStep previous ledger) :
    ledger.revision.toNat = previous.revision.toNat + 1 ∧ ledger.buildId = previous.buildId := by
  have hnext := sound_step h hstep
  obtain ⟨call, decision, he⟩ := hstep
  have hkept := kept_evaluateAndHandle previous call
  have hrecorded := recorded_evaluateAndHandle h.1 call
  rw [he] at hkept hrecorded
  refine ⟨?_, hkept.buildId⟩
  rw [hnext.2.revision, h.2.revision]
  simp only [recorded, Except.isOk, Except.toBool, if_true] at hrecorded
  omega

end Linear

section Save

variable {store : BuildLedgerStore} {root : LedgerRoot} {ledger : BuildLedger} {chain : List Loaded}

theorem save_outcome (h : Stored root ledger.buildId chain) (hvalid : ledger.Valid)
    (hstorable : Writes store root ledger → Storable ledger ∧ ledger.revision.toNat < 10 ^ 6) :
    ((∃ error, (store.save ledger root).1 = .error error) ∧
      ∀ buildId, snapshotFiles (store.save ledger root).2 buildId = snapshotFiles root buildId) ∨
    ((∃ path, (store.save ledger root).1 = .ok path) ∧
      (∀ buildId, snapshotFiles (store.save ledger root).2 buildId = snapshotFiles root buildId) ∧
      ∃ last, chain.getLast? = some last ∧ last.ledger = ledger) ∨
    ((∃ path, (store.save ledger root).1 = .ok path) ∧ Writes store root ledger ∧
      Stored (store.save ledger root).2 ledger.buildId (chain ++ [written ledger chain]) ∧
      ∀ buildId, buildId ≠ ledger.buildId →
        snapshotFiles (store.save ledger root).2 buildId = snapshotFiles root buildId) := by
  rcases save_cases store root hvalid with ⟨-, hroot, hload⟩ | ⟨hwrites, -⟩
  · have hfiles : ∀ buildId,
        snapshotFiles (store.save ledger root).2 buildId = snapshotFiles root buildId :=
      fun buildId => by rw [hroot, snapshotFiles_acquire]
    cases hresult : (store.save ledger root).1 with
    | error error => exact .inl ⟨⟨error, rfl⟩, hfiles⟩
    | ok path =>
      obtain ⟨chain', last, h', hlast, hledger⟩ := load_eq_ok.mp (hload path hresult)
      obtain rfl := h'.unique h
      exact .inr (.inl ⟨⟨path, rfl⟩, hfiles, last, hlast, hledger⟩)
  · obtain ⟨chain', h', hok, hroot, hnext⟩ := save_extends hvalid hwrites (hstorable hwrites)
    obtain rfl := h'.unique h
    refine .inr (.inr ⟨⟨_, hok⟩, hwrites, hnext, fun buildId hid => ?_⟩)
    rw [hroot, snapshotFiles_withSnapshot_ne _ hid, snapshotFiles_acquire]

end Save

structure Consistent (world : World) : Prop where
  chains : ∀ buildId, isSafeBuildId buildId = true → ∃ chain, Stored world.root buildId chain ∧
    Linear (chain.map (·.ledger)) ∧ ∀ loaded ∈ chain, Storable loaded.ledger
  planners : ∀ coordinator ∈ world.coordinators, ∀ buildId planner,
    coordinator.planners.lookup buildId = some planner →
      ∃ chain loaded, Stored world.root buildId chain ∧ loaded ∈ chain ∧ loaded.ledger = planner

def Extends (root root' : LedgerRoot) : Prop :=
  ∀ buildId chain, Stored root buildId chain → ∃ chain', Stored root' buildId chain' ∧ chain <+: chain'

theorem extends_of_files {root root' : LedgerRoot}
    (h : ∀ buildId, snapshotFiles root' buildId = snapshotFiles root buildId) :
    Extends root root' :=
  fun buildId chain hstored => ⟨chain, (Stored.congr (h buildId)).mpr hstored, List.prefix_refl _⟩

section Steps

variable {store : BuildLedgerStore} {world : World}

theorem Consistent.sound (h : Consistent world) {buildId : String} {chain : List Loaded}
    (hstored : Stored world.root buildId chain) {loaded : Loaded} (hmem : loaded ∈ chain) :
    (Aligned loaded.ledger ∧ Bounded loaded.ledger) ∧ Storable loaded.ledger := by
  obtain ⟨chain', hstored', hlinear, hstorable⟩ := h.chains buildId hstored.safe
  obtain rfl := hstored'.unique hstored
  exact ⟨hlinear.sound _ (List.mem_map_of_mem hmem), hstorable loaded hmem⟩

theorem consistent_same (h : Consistent world) {root : LedgerRoot}
    {coordinators : List BuildCoordinator}
    (hfiles : ∀ buildId, snapshotFiles root buildId = snapshotFiles world.root buildId)
    (hplanners : ∀ coordinator ∈ coordinators, ∀ buildId planner,
      coordinator.planners.lookup buildId = some planner → ∃ chain loaded,
        Stored world.root buildId chain ∧ loaded ∈ chain ∧ loaded.ledger = planner) :
    Consistent ⟨root, coordinators⟩ := by
  refine ⟨fun buildId hsafe => ?_, fun coordinator hmem buildId planner hlookup => ?_⟩
  · obtain ⟨chain, hstored, hchain⟩ := h.chains buildId hsafe
    exact ⟨chain, (Stored.congr (hfiles buildId)).mpr hstored, hchain⟩
  · obtain ⟨chain, loaded, hstored, hloaded⟩ := hplanners coordinator hmem buildId planner hlookup
    exact ⟨chain, loaded, (Stored.congr (hfiles buildId)).mpr hstored, hloaded⟩

theorem consistent_kept (h : Consistent world) {root : LedgerRoot} {ledger : BuildLedger}
    {chain chain' : List Loaded} {index : ℕ} {coordinator changed : BuildCoordinator}
    (hstored : Stored world.root ledger.buildId chain)
    (hstored' : Stored root ledger.buildId chain') (hinit : chain <+: chain')
    (hlinear : Linear (chain'.map (·.ledger))) (hstorable : ∀ loaded ∈ chain', Storable loaded.ledger)
    (hmem : ∃ loaded ∈ chain', loaded.ledger = ledger)
    (hfiles : ∀ buildId, buildId ≠ ledger.buildId →
      snapshotFiles root buildId = snapshotFiles world.root buildId)
    (hindex : world.coordinators[index]? = some coordinator)
    (hkeeps : BuildCoordinator.Keeps coordinator ledger changed) :
    Consistent ⟨root, world.coordinators.set index changed⟩ ∧ Extends world.root root := by
  have hextends : Extends world.root root := by
    intro buildId chain₀ hstored₀
    by_cases hid : buildId = ledger.buildId
    · subst hid
      obtain rfl := hstored₀.unique hstored
      exact ⟨chain', hstored', hinit⟩
    · exact ⟨chain₀, (Stored.congr (hfiles buildId hid)).mpr hstored₀, List.prefix_refl _⟩
  refine ⟨⟨fun buildId hsafe => ?_, fun other hother buildId planner hlookup => ?_⟩, hextends⟩
  · by_cases hid : buildId = ledger.buildId
    · subst hid
      exact ⟨chain', hstored', hlinear, hstorable⟩
    · obtain ⟨chain₀, hstored₀, hchain₀⟩ := h.chains buildId hsafe
      exact ⟨chain₀, (Stored.congr (hfiles buildId hid)).mpr hstored₀, hchain₀⟩
  · have hbefore : ∀ coordinator ∈ world.coordinators,
        coordinator.planners.lookup buildId = some planner →
          ∃ chain loaded, Stored root buildId chain ∧ loaded ∈ chain ∧ loaded.ledger = planner := by
      intro coordinator hmem hlookup
      obtain ⟨chain₀, loaded, hstored₀, hloaded, hplanner⟩ :=
        h.planners coordinator hmem buildId planner hlookup
      obtain ⟨chain₁, hstored₁, hinit₁⟩ := hextends buildId chain₀ hstored₀
      exact ⟨chain₁, loaded, hstored₁, hinit₁.subset hloaded, hplanner⟩
    rcases List.mem_or_eq_of_mem_set hother with hother | rfl
    · exact hbefore other hother hlookup
    · rw [hkeeps.planners, Catalog.lookup_insert] at hlookup
      split_ifs at hlookup with hid
      · obtain ⟨loaded, hloaded, hledger⟩ := hmem
        obtain rfl := Option.some.inj hlookup
        exact ⟨chain', loaded, hid ▸ hstored', hloaded, hledger⟩
      · exact hbefore coordinator (List.mem_of_getElem? hindex) hlookup

end Steps

section Calls

variable {world : World} {index : ℕ} {coordinator : BuildCoordinator} {buildId : String}
  {planner candidate : BuildLedger} {call : Call} {decision : BuildPlannerDecision}

theorem last_of_writes (h : Consistent world) {chain : List Loaded} {loaded : Loaded}
    (hstored : Stored world.root buildId chain) (hmem : loaded ∈ chain)
    (hstep : PlannerStep loaded.ledger candidate)
    (hwrites : Writes coordinator.store world.root candidate) :
    (coordinator.store.load buildId world.root).1 = .ok loaded.ledger ∧
      chain.getLast? = some loaded := by
  obtain ⟨hrevision, hid⟩ := hstep.next (h.sound hstored hmem).1
  have hbuild := hstored.buildId_eq hmem
  obtain ⟨chain', hstored', hlength⟩ := hwrites.stored
  rw [hid, hbuild] at hstored'
  obtain rfl := hstored'.unique hstored
  obtain ⟨k, hk⟩ := List.getElem?_of_mem hmem
  have hplace := hstored.revision_eq hk
  have hlast : chain'.getLast? = some loaded := by
    rw [List.getLast?_eq_getElem?, show chain'.length - 1 = k by omega]
    exact hk
  exact ⟨load_eq_ok.mpr ⟨chain', loaded, hstored, hlast, rfl⟩, hlast⟩

def Link (root : LedgerRoot) (buildId : String) (ledger next : BuildLedger) : Prop :=
  ∃ chain k, Stored root buildId chain ∧ chain[k]?.map (·.ledger) = some ledger ∧
    chain[k + 1]?.map (·.ledger) = some next

def Answered (before after : World) (index : ℕ) (buildId : String) (call : Call) :
    Except BuildPlannerError BuildPlannerDecision → Prop
  | .ok decision => ∃ coordinator planner candidate,
      before.coordinators[index]? = some coordinator ∧
      coordinator.planners.lookup buildId = some planner ∧
      evaluateAndHandle planner call = (.ok decision, candidate) ∧
      Link after.root buildId planner candidate
  | .error _ =>
      (∀ buildId, snapshotFiles after.root buildId = snapshotFiles before.root buildId) ∧
        after.coordinators = before.coordinators

def Recording (world : World) (index : ℕ) (buildId : String) (call : Call) : Prop :=
  ∀ coordinator planner, world.coordinators[index]? = some coordinator →
    coordinator.planners.lookup buildId = some planner →
    (coordinator.store.load buildId world.root).1 = .ok planner → Released planner call →
    Recordable call

theorem set_same {α : Type} {xs : List α} {i : ℕ} {x : α} (h : xs[i]? = some x) : xs.set i x = xs := by
  obtain ⟨hi, rfl⟩ := List.getElem?_eq_some_iff.mp h
  exact List.set_getElem_self hi

theorem link_of_last (h : Consistent world) {root : LedgerRoot} {chain chain' : List Loaded}
    {loaded last : Loaded} (hstored : Stored world.root buildId chain) (hmem : loaded ∈ chain)
    (hstep : PlannerStep loaded.ledger last.ledger) (hstored' : Stored root buildId chain')
    (hinit : chain <+: chain') (hlast : chain'.getLast? = some last) :
    Link root buildId loaded.ledger last.ledger := by
  obtain ⟨hrevision, -⟩ := hstep.next (h.sound hstored hmem).1
  obtain ⟨k, hk⟩ := List.getElem?_of_mem (hinit.subset hmem)
  have hplace := hstored'.revision_eq hk
  have hlength := hstored'.revision_last hlast
  refine ⟨chain', k, hstored', by rw [hk]; rfl, ?_⟩
  rw [List.getLast?_eq_getElem?, show chain'.length - 1 = k + 1 by omega] at hlast
  rw [hlast]
  rfl

theorem commit_answered (h : Consistent world)
    (hindex : world.coordinators[index]? = some coordinator)
    (hplanner : coordinator.planners.lookup buildId = some planner)
    (hcall : Recording world index buildId call) (hreleased : Released planner call)
    (he : evaluateAndHandle planner call = (.ok decision, candidate)) :
    let done := coordinator.commit buildId decision candidate world.root
    let after : World := ⟨done.2.2, world.coordinators.set index done.2.1⟩
    Consistent after ∧ Extends world.root after.root ∧
      Answered world after index buildId call done.1 := by
  obtain ⟨chain, loaded, hstored, hmem, rfl⟩ :=
    h.planners coordinator (List.mem_of_getElem? hindex) buildId planner hplanner
  have hstep : PlannerStep loaded.ledger candidate := ⟨call, decision, he⟩
  have hsound := h.sound hstored hmem
  have hnext := sound_step hsound.1 hstep
  have hid : candidate.buildId = buildId := (hstep.next hsound.1).2.trans (hstored.buildId_eq hmem)
  subst hid
  have hstorable : Writes coordinator.store world.root candidate →
      Storable candidate ∧ candidate.revision.toNat < 10 ^ 6 := by
    intro hwrites
    have hload := (last_of_writes h hstored hmem hstep hwrites).1
    have hstorable := storable_evaluateAndHandle hsound.2
      (hcall coordinator _ hindex hplanner hload hreleased)
    rw [he] at hstorable
    exact ⟨hstorable, revision_lt hnext.1 hnext.2⟩
  obtain ⟨chain₀, hstored₀, hlinear, hall⟩ := h.chains candidate.buildId hstored.safe
  obtain rfl := hstored₀.unique hstored
  rcases save_outcome hstored hnext.1.valid hstorable with ⟨⟨error, herror⟩, hfiles⟩ |
    ⟨⟨path, hok⟩, hfiles, last, hlast, hledger⟩ | ⟨⟨path, hok⟩, hwrites, hnew, hfiles⟩
  · rw [BuildCoordinator.commit_error herror]
    simp only [set_same hindex]
    exact ⟨consistent_same h hfiles h.planners, extends_of_files hfiles, hfiles, rfl⟩
  · obtain ⟨changed, hkeeps, hcommit⟩ :=
      @BuildCoordinator.commit_ok coordinator decision candidate world.root path hok
    rw [hcommit]
    have hsame := (Stored.congr (hfiles candidate.buildId)).mpr hstored
    obtain ⟨hconsistent, hextends⟩ := consistent_kept h hstored hsame (List.prefix_refl _) hlinear
      hall ⟨last, List.mem_of_getLast? hlast, hledger⟩ (fun buildId _ => hfiles buildId) hindex hkeeps
    refine ⟨hconsistent, hextends, coordinator, _, candidate, hindex, hplanner, he, ?_⟩
    subst hledger
    exact link_of_last h hstored hmem hstep hsame (List.prefix_refl _) hlast
  · obtain ⟨changed, hkeeps, hcommit⟩ :=
      @BuildCoordinator.commit_ok coordinator decision candidate world.root path hok
    rw [hcommit]
    have hlast := (last_of_writes h hstored hmem hstep hwrites).2
    have hgrown : Linear ((chain₀ ++ [written candidate chain₀]).map (·.ledger)) := by
      rw [List.map_append]
      exact hlinear.concat (by rw [List.getLast?_map, hlast]; rfl) hstep
    obtain ⟨hconsistent, hextends⟩ := consistent_kept h hstored hnew (List.prefix_append _ _) hgrown
      (List.forall_mem_append.mpr ⟨hall, List.forall_mem_singleton.mpr (hstorable hwrites).1⟩)
      ⟨written candidate chain₀, by simp, rfl⟩ hfiles hindex hkeeps
    have hlink : Link (coordinator.store.save candidate world.root).2 candidate.buildId loaded.ledger
        (written candidate chain₀).ledger :=
      link_of_last h hstored hmem hstep hnew (List.prefix_append _ _) List.getLast?_concat
    exact ⟨hconsistent, hextends, coordinator, _, candidate, hindex, hplanner, he, hlink⟩

theorem evaluate_answered (h : Consistent world)
    (hindex : world.coordinators[index]? = some coordinator)
    (hcall : Recording world index buildId call) :
    let done := coordinator.evaluate buildId call world.root
    let after : World := ⟨done.2.2, world.coordinators.set index done.2.1⟩
    Consistent after ∧ Extends world.root after.root ∧
      Answered world after index buildId call done.1 := by
  have hsame : ∀ error : BuildPlannerError,
      Consistent ⟨world.root, world.coordinators.set index coordinator⟩ ∧
        Extends world.root world.root ∧ Answered world
          ⟨world.root, world.coordinators.set index coordinator⟩ index buildId call
          (.error error) := by
    intro error
    rw [set_same hindex]
    exact ⟨h, extends_of_files fun _ => rfl, fun _ => rfl, rfl⟩
  unfold BuildCoordinator.evaluate
  cases hplanner : coordinator.planners.lookup buildId with
  | none => exact hsame _
  | some planner =>
    simp only
    rcases he : evaluateAndHandle planner call with ⟨_ | decision, candidate⟩
    · exact hsame _
    · have hreleased : Released planner call := by
        rcases evaluateAndHandle_cases planner call with ⟨-, error, herror⟩ | ⟨hreleased, -⟩ |
          ⟨hreleased, -⟩
        · rw [he] at herror
          exact absurd (congrArg Prod.fst herror) (by simp)
        · exact hreleased
        · exact hreleased
      exact commit_answered h hindex hplanner hcall hreleased he

theorem startBuild_of_new {projectId : String} {autonomousCorrection : Bool} {retryLimit : UInt8}
    {now : UInt64} {pid : UInt32} {sequence : UInt64} {root : LedgerRoot}
    (h : new projectId autonomousCorrection retryLimit now pid sequence = .ok planner) :
    coordinator.startBuild projectId autonomousCorrection retryLimit now pid sequence root =
      coordinator.startPlanner planner root := by
  unfold BuildCoordinator.startBuild
  cases hnew : new projectId autonomousCorrection retryLimit now pid sequence with
  | error error => exact absurd (hnew.symm.trans h) (by simp)
  | ok started =>
    obtain rfl := Except.ok.inj (hnew.symm.trans h)
    rfl

theorem startPlanner_consistent (h : Consistent world)
    (hindex : world.coordinators[index]? = some coordinator) (hstarted : Started planner) :
    let done := coordinator.startPlanner planner world.root
    Consistent ⟨done.2.2, world.coordinators.set index done.2.1⟩ ∧
      Extends world.root done.2.2 := by
  obtain ⟨projectId, correction, limit, now, pid, sequence, hnew⟩ := id hstarted
  have hsound := sound_started hstarted
  have hone : planner.revision = 1 := by
    obtain ⟨-, rfl⟩ := new_eq_ok.mp hnew
    rfl
  obtain ⟨chain, hstored, hlinear, hall⟩ := h.chains planner.buildId hsound.1.valid.buildId
  rcases save_outcome hstored hsound.1.valid
      (fun _ => ⟨storable_of_new hnew, revision_lt hsound.1 hsound.2⟩) with
    ⟨⟨error, herror⟩, hfiles⟩ | ⟨⟨path, hok⟩, hfiles, last, hlast, hledger⟩ |
    ⟨⟨path, hok⟩, hwrites, hnext, hfiles⟩
  · rw [BuildCoordinator.startPlanner_error herror]
    simp only [set_same hindex]
    exact ⟨consistent_same h hfiles h.planners, extends_of_files hfiles⟩
  · obtain ⟨changed, hkeeps, hstart⟩ := BuildCoordinator.startPlanner_ok hok
    rw [hstart]
    exact consistent_kept h hstored ((Stored.congr (hfiles planner.buildId)).mpr hstored)
      (List.prefix_refl _) hlinear hall ⟨last, List.mem_of_getLast? hlast, hledger⟩
      (fun buildId _ => hfiles buildId) hindex hkeeps
  · obtain ⟨changed, hkeeps, hstart⟩ := BuildCoordinator.startPlanner_ok hok
    rw [hstart]
    obtain ⟨chain', hstored', hlength⟩ := hwrites.stored
    obtain rfl := hstored'.unique hstored
    -- the first revision goes into an empty directory
    have hempty : chain'.length + 1 = 1 := by rw [← hlength, hone]; rfl
    obtain rfl : chain' = [] := List.length_eq_zero_iff.mp (by omega)
    exact consistent_kept h hstored hnext (List.prefix_append _ _) (linear_started hstarted)
      (List.forall_mem_singleton.mpr (storable_of_new hnew)) ⟨written planner [], by simp, rfl⟩
      hfiles hindex hkeeps

end Calls

section Run

variable {store : BuildLedgerStore} {world : World}

theorem restorePlanners_from {ledgers rest : List BuildLedger} {planners planners' : Catalog String BuildLedger}
    (hrest : ∀ ledger ∈ rest, ledger ∈ ledgers) (hplanners : PlannersFrom ledgers planners)
    (h : BuildCoordinator.restorePlanners planners rest = .ok planners') :
    PlannersFrom ledgers planners' := by
  induction rest generalizing planners with
  | nil =>
    obtain rfl := Except.ok.inj h
    exact hplanners
  | cons ledger rest ih =>
    obtain ⟨hledger, hrest⟩ := List.forall_mem_cons.mp hrest
    simp only [BuildCoordinator.restorePlanners, bind_eq_ok, fromLedger_eq_ok] at h
    obtain ⟨_, ⟨-, rfl⟩, h⟩ := h
    refine ih hrest (fun buildId planner hlookup => ?_) h
    rw [Catalog.lookup_insert] at hlookup
    split_ifs at hlookup with hid
    · obtain rfl := Option.some.inj hlookup
      exact ⟨hledger, hid.symm⟩
    · exact hplanners _ _ hlookup

theorem openRoot_planners {entries : List String} {root : LedgerRoot} {coordinator : BuildCoordinator}
    (h : BuildCoordinator.openRoot store entries root = .ok coordinator) {buildId : String}
    {planner : BuildLedger} (hlookup : coordinator.planners.lookup buildId = some planner) :
    (store.load buildId root).1 = .ok planner := by
  simp only [BuildCoordinator.openRoot, bind_eq_ok, mapError_eq_ok, pure_eq_ok] at h
  obtain ⟨ledgers, hlist, planners, hplanners, rfl⟩ := h
  obtain ⟨hmem, rfl⟩ := restorePlanners_from (fun _ h => h)
    (show PlannersFrom ledgers Catalog.empty from fun _ _ h =>
      absurd h (by simp [Catalog.lookup, Catalog.empty])) hplanners buildId planner hlookup
  simp only [list, bind_eq_ok, pure_eq_ok] at hlist
  obtain ⟨found, hfound, rfl⟩ := hlist
  obtain ⟨listed, -, hload⟩ := (mem_of_mapM_ok hfound _).mp (List.mem_mergeSort.mp hmem)
  rwa [(buildId_of_load hload).1]

theorem openCoordinator_consistent (h : Consistent world) (entries : List String) :
    Consistent (openCoordinator store world entries).2 ∧
      Extends world.root (openCoordinator store world entries).2.root := by
  unfold openCoordinator
  cases hopen : BuildCoordinator.openRoot store entries world.root with
  | error error => exact ⟨h, extends_of_files fun _ => rfl⟩
  | ok coordinator =>
    refine ⟨⟨h.chains, fun other hother buildId planner hlookup => ?_⟩, extends_of_files fun _ => rfl⟩
    rcases List.mem_append.mp hother with hother | hother
    · exact h.planners other hother buildId planner hlookup
    · obtain rfl := List.mem_singleton.mp hother
      obtain ⟨chain, loaded, hstored, hlast, hledger⟩ :=
        load_eq_ok.mp (openRoot_planners hopen hlookup)
      exact ⟨chain, loaded, hstored, List.mem_of_getLast? hlast, hledger⟩

def Allowed (world : World) : CoordinatorOp → Prop
  | .evaluate index buildId call => Recording world index buildId call
  | _ => True

structure Sound (visit : CoordinatorVisit) : Prop where
  linear : ∀ buildId, isSafeBuildId buildId = true → ∃ chain,
    Stored visit.after.root buildId chain ∧ Linear (chain.map (·.ledger))
  grows : Extends visit.before.root visit.after.root
  answered : ∀ index buildId call result, visit.input = .evaluate index buildId call →
    visit.output = .evaluated result → Answered visit.before visit.after index buildId call result

theorem startBuild_consistent (h : Consistent world) {index : ℕ} {coordinator : BuildCoordinator}
    (hindex : world.coordinators[index]? = some coordinator) (projectId : String)
    (autonomousCorrection : Bool) (retryLimit : UInt8) (now : UInt64) (pid : UInt32)
    (sequence : UInt64) :
    let done := coordinator.startBuild projectId autonomousCorrection retryLimit now pid sequence
      world.root
    Consistent ⟨done.2.2, world.coordinators.set index done.2.1⟩ ∧
      Extends world.root done.2.2 := by
  unfold BuildCoordinator.startBuild
  cases hnew : new projectId autonomousCorrection retryLimit now pid sequence with
  | error error =>
    simp only [set_same hindex]
    exact ⟨h, extends_of_files fun _ => rfl⟩
  | ok planner => exact startPlanner_consistent h hindex ⟨_, _, _, _, _, _, hnew⟩

theorem consistent_step (h : Consistent world) (op : CoordinatorOp) (hop : Allowed world op) :
    Consistent (runCoordinator store world op).2 ∧
      Extends world.root (runCoordinator store world op).2.root := by
  cases op with
  | openRoot entries => exact openCoordinator_consistent h entries
  | startBuild index projectId autonomousCorrection retryLimit now pid sequence =>
    cases hindex : world.coordinators[index]? with
    | none =>
      simp only [runCoordinator, hindex]
      exact ⟨h, extends_of_files fun _ => rfl⟩
    | some coordinator =>
      simp only [runCoordinator, hindex]
      exact startBuild_consistent h hindex _ _ _ _ _ _
  | evaluate index buildId call =>
    cases hindex : world.coordinators[index]? with
    | none =>
      simp only [runCoordinator, hindex]
      exact ⟨h, extends_of_files fun _ => rfl⟩
    | some coordinator =>
      simp only [runCoordinator, hindex]
      obtain ⟨hafter, hgrows, -⟩ := evaluate_answered h hindex hop
      exact ⟨hafter, hgrows⟩

theorem sound_visit (h : Consistent world) (op : CoordinatorOp) (hop : Allowed world op) :
    Sound (visit (runCoordinator store) world op) := by
  obtain ⟨hafter, hgrows⟩ := @consistent_step store world h op hop
  refine ⟨fun buildId hsafe => ?_, hgrows, ?_⟩
  · obtain ⟨chain, hstored, hchain, -⟩ := hafter.chains buildId hsafe
    exact ⟨chain, hstored, hchain⟩
  · rintro index buildId call result (rfl : op = _) houtput
    cases hindex : world.coordinators[index]? with
    | none => simp [visit, runCoordinator, hindex] at houtput
    | some coordinator =>
      simp only [visit, runCoordinator, hindex, CoordinatorResult.evaluated.injEq] at houtput ⊢
      subst houtput
      exact (evaluate_answered h hindex hop).2.2

theorem consistent_freshWorld : Consistent freshWorld := by
  refine ⟨fun buildId hsafe => ⟨[], stored_fresh hsafe, linear_nil, by simp⟩, ?_⟩
  simp [freshWorld]

def SoundRun (store : BuildLedgerStore) (ops : List CoordinatorOp) : Prop :=
  ∀ visit ∈ trace (runCoordinator store) freshWorld ops, Sound visit

/-- Whatever the order in which the coordinators of a root call, each from its own planners: if
what they record reads back as it is written, every chain stays one linear history, every accepted
evaluation is one of its links, and every refused one leaves no trace. -/
theorem coordinators_linear (store : BuildLedgerStore) (ops : List CoordinatorOp)
    (hops : Guarded (runCoordinator store) Allowed freshWorld ops) : SoundRun store ops := by
  intro v hv
  obtain ⟨hvisit, hbefore, -⟩ := guarded_visits Allowed Consistent consistent_freshWorld
    (fun _ op h hop => (consistent_step h op hop).1) ops hops v hv
  rw [hvisit]
  exact sound_visit hbefore v.input (hops v hv)

def rivalRun : List CoordinatorOp :=
  [.openRoot [], .startBuild 0 "demo" true 2 0 1 1, .openRoot [demoLedger.buildId],
    .evaluate 0 demoLedger.buildId (passingCall .intake),
    .evaluate 1 demoLedger.buildId (passingCall .intake)]

theorem coordinators_linear_demo : SoundRun sampleStore rivalRun := by
  refine coordinators_linear sampleStore rivalRun fun v hv => ?_
  have hrecordable : Recordable (passingCall .intake) := by decide +kernel
  have hinput : v.input ∈ rivalRun := by
    rw [← map_input_trace (runCoordinator sampleStore) freshWorld rivalRun]
    exact List.mem_map_of_mem hv
  have hallowed : ∀ op ∈ rivalRun, Allowed v.before op := by
    simp only [rivalRun, List.forall_mem_cons, List.not_mem_nil, false_imp_iff, implies_true, and_true]
    exact ⟨trivial, trivial, trivial, fun _ _ _ _ _ _ => hrecordable, fun _ _ _ _ _ _ => hrecordable⟩
  exact hallowed _ hinput

end Run

section Coloured

def colouredCall : Call :=
  sampleCall { sampleInput 1 .intake with
    requirements := some { sampleRequirements with purpose := "\x1b[31mTrack inventory" } }

theorem gateOutcome_colouredCall : ∃ evidence, gateOutcome colouredCall = .pass evidence := by
  have hartifacts : ∀ artifact ∈ colouredCall.input.collectArtifacts, ∃ role,
      isBlank role = false ∧ role.utf8ByteSize ≤ 96 ∧ artifact = sampleArtifact role :=
    collectArtifacts_sample 1 .intake
  exact ⟨_, evaluateGate_sample rfl hartifacts rfl 0⟩

theorem released_colouredCall : Released demoLedger colouredCall := ⟨rfl, rfl⟩

theorem evaluate_colouredCall : ∃ decision candidate,
    evaluateAndHandle demoLedger colouredCall = (.ok decision, candidate) ∧ ¬Storable candidate := by
  obtain ⟨evidence, hpass⟩ := gateOutcome_colouredCall
  obtain ⟨decision, hdecision⟩ := (accepted_iff (aligned_of_new new_demoLedger) colouredCall).mpr
    released_colouredCall
  obtain ⟨_, he⟩ := evaluateAndHandle_pass released_colouredCall hpass
  rw [he] at hdecision
  refine ⟨decision, stamp (advance demoLedger colouredCall evidence) colouredCall,
    he.trans (Prod.ext hdecision rfl), fun hstorable => ?_⟩
  have hpurpose : Lossless "\x1b[31mTrack inventory" := by
    simp only [Storable, ledgerItems, List.forall_mem_append, List.forall_mem_flatMap] at hstorable
    have hrequirements := hstorable.1.1.1.1.1.1.1.1.1 _
      (Option.mem_toList.mpr (show _ = some _ from rfl))
    exact hrequirements (.text _) (by simp [requirementsItems, texts])
  exact absurd hpurpose (by decide +kernel)

theorem stored_demo : Stored (sampleStore.save demoLedger freshRoot).2 demoLedger.buildId
    [written demoLedger []] := by
  have hvalid := (aligned_of_new new_demoLedger).valid
  obtain ⟨chain, hfresh, -, -, hstored⟩ := save_extends hvalid (writes_fresh hvalid rfl)
    ⟨storable_of_new new_demoLedger, by decide⟩
  obtain rfl := hfresh.unique (stored_fresh hvalid.buildId)
  exact hstored

theorem writes_after_demo {store : BuildLedgerStore} {candidate : BuildLedger}
    (hstep : PlannerStep demoLedger candidate) :
    candidate.buildId = demoLedger.buildId ∧
      Writes store (sampleStore.save demoLedger freshRoot).2 candidate := by
  have hsound := sound_started ⟨"demo", true, 2, 0, 1, 1, new_demoLedger⟩
  obtain ⟨hrevision, hid⟩ := hstep.next hsound
  refine ⟨hid, .inl ⟨demoLedger, ?_, fun hsame => ?_, UInt64.toNat_inj.mp ?_⟩⟩
  · exact load_eq_ok.mpr ⟨_, _, hid ▸ stored_demo, rfl, rfl⟩
  · rw [hsame] at hrevision
    omega
  · rw [hrevision]
    rfl

theorem started_demo : ∃ coordinator : BuildCoordinator,
    final (runCoordinator sampleStore) freshWorld
        [.openRoot [], .startBuild 0 "demo" true 2 0 1 1] =
      ⟨(sampleStore.save demoLedger freshRoot).2, [coordinator]⟩ ∧
    coordinator.planners.lookup demoLedger.buildId = some demoLedger := by
  have hvalid := (aligned_of_new new_demoLedger).valid
  obtain ⟨_, -, hok, -⟩ := save_extends hvalid (writes_fresh hvalid rfl)
    ⟨storable_of_new new_demoLedger, by decide⟩
  let opened : BuildCoordinator := ⟨sampleStore, Catalog.empty, .new, [], Bus.SpiderwebBus.fresh_new⟩
  have hlist : sampleStore.list [] freshRoot = .ok [] := by simp [list, bind, Except.bind, pure, Except.pure]
  have hopen : openCoordinator sampleStore freshWorld [] =
      (.opened (.ok ()), ⟨freshRoot, [opened]⟩) := by
    rw [openCoordinator, BuildCoordinator.openRoot, freshWorld, hlist]
    rfl
  obtain ⟨changed, hkeeps, hstart⟩ := @BuildCoordinator.startPlanner_ok opened demoLedger freshRoot _ hok
  refine ⟨changed, ?_, ?_⟩
  · have hbuild : opened.startBuild "demo" true 2 0 1 1 freshRoot =
        opened.startPlanner demoLedger freshRoot := startBuild_of_new new_demoLedger
    simp only [final, runCoordinator, hopen, List.getElem?_cons_zero, hbuild, hstart, List.set_cons_zero]
    rfl
  · rw [hkeeps.planners, Catalog.lookup_insert, if_pos rfl]

theorem commit_unstorable {coordinator : BuildCoordinator} {candidate : BuildLedger}
    {decision : BuildPlannerDecision} {root : LedgerRoot} {chain : List Loaded}
    (hstored : Stored root candidate.buildId chain) (hvalid : candidate.Valid)
    (hwrites : Writes coordinator.store root candidate) (hunstorable : ¬Storable candidate) :
    ∃ error root', coordinator.commit candidate.buildId decision candidate root =
        (.error error, coordinator, root') ∧
      (jsonFiles (snapshotFiles root' candidate.buildId)).length = chain.length + 1 := by
  have hfiles := snapshotFiles_acquire root candidate.buildId candidate.buildId
  rcases save_cases coordinator.store root hvalid with ⟨hno, -⟩ | ⟨-, chain', h', hrevision, hsave⟩
  · exact absurd hwrites hno
  obtain rfl := h'.unique hstored
  have hstored' := (Stored.congr hfiles).mpr hstored
  have hlength := length_withSnapshot hstored' hrevision
  cases hresult : (coordinator.store.save candidate root).1 with
  | ok path =>
    rw [hsave] at hresult
    exact absurd ((readBack_written hstored' hrevision hvalid).mp hresult).1.1 hunstorable
  | error error =>
    refine ⟨_, _, BuildCoordinator.commit_error hresult, ?_⟩
    rw [hsave]
    exact hlength

def colouredRun : List CoordinatorOp :=
  [.openRoot [], .startBuild 0 "demo" true 2 0 1 1] ++
    [.evaluate 0 demoLedger.buildId colouredCall]

theorem coordinators_not_linear : ¬SoundRun sampleStore colouredRun := by
  intro hsound
  obtain ⟨coordinator, hworld, hplanner⟩ := started_demo
  obtain ⟨decision, candidate, he, hunstorable⟩ := evaluate_colouredCall
  rw [SoundRun, colouredRun, trace_concat, hworld] at hsound
  have hanswer := (hsound _ (List.mem_append_right _ List.mem_cons_self)).answered 0
    demoLedger.buildId colouredCall _ rfl rfl
  have hcommit : coordinator.evaluate demoLedger.buildId colouredCall
      (sampleStore.save demoLedger freshRoot).2 = coordinator.commit demoLedger.buildId decision
        candidate (sampleStore.save demoLedger freshRoot).2 := by
    simp only [BuildCoordinator.evaluate, hplanner, he]
  have hstep : PlannerStep demoLedger candidate := ⟨colouredCall, decision, he⟩
  have hsound := sound_started ⟨"demo", true, 2, 0, 1, 1, new_demoLedger⟩
  obtain ⟨hid, hwrites⟩ := writes_after_demo hstep
  obtain ⟨error, root, hresult, hlength⟩ := @commit_unstorable coordinator candidate decision _ _
    (hid ▸ stored_demo) (sound_step hsound hstep).1.valid hwrites hunstorable
  rw [hid] at hresult hlength
  simp only [visit, runCoordinator, List.getElem?_cons_zero, hcommit, hresult, Answered] at hanswer
  have hsame := stored_demo.chain.length_eq
  rw [← hanswer.1 demoLedger.buildId, hlength] at hsame
  simp at hsame

end Coloured

end AtomVibe.CoordinatorChain
