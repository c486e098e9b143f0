import Mathlib.Data.List.Destutter
import Mathlib.Data.List.Sort
import AtomVibe.Text

namespace AtomVibe.Bus

abbrev EnvelopeId := ℕ

abbrev ThreadId := ℕ

inductive BusLayer
  | l0Transport
  | l1Message
  | l2Flow
  | l3Orchestration
  deriving DecidableEq, Repr

inductive Ramp
  | ingress
  | internal
  | offRamp
  deriving DecidableEq

inductive TransferPolicy
  | sharedNode
  | backpressure
  deriving DecidableEq

inductive BusMessageKind
  | intentIngress
  | intentClassified
  | retrievalRequested
  | evidenceRetrieved
  | providerPrepared
  | providerExecutionRequested
  | providerExecutionScheduled
  | providerExecuted
  | providerBlocked
  | workPlanCreated
  | workPacketExecuted
  | workPlanCompleted
  | recipeSelected
  | proofCaptured
  | proofPending
  | proofBlocked
  | storeLearned
  | storeObserved
  | storeBlocked
  | learningObserved
  | learningPersisted
  | learningApplied
  | driftFlagged
  deriving DecidableEq

structure Envelope where
  id : EnvelopeId
  parent : Option EnvelopeId
  threadId : ThreadId
  layer : BusLayer
  ramp : Ramp
  kind : BusMessageKind
  source : String
  target : String
  body : String
  evidenceIds : List String
  deriving DecidableEq

structure FabricThread where
  id : ThreadId
  envelopes : List EnvelopeId
  nodes : List String
  layers : List BusLayer
  deriving DecidableEq

structure Intersection where
  node : String
  threads : List ThreadId
  transfer : TransferPolicy
  deriving DecidableEq

structure PreloadPlan where
  threadId : ThreadId
  fromEnvelope : EnvelopeId
  targets : List String
  deriving DecidableEq

structure BackpressureSignal where
  threadId : ThreadId
  envelope : EnvelopeId
  layer : BusLayer
  source : String
  reason : String
  deriving DecidableEq

structure EnvelopeDraft where
  parent : Option EnvelopeId
  layer : BusLayer
  ramp : Ramp
  kind : BusMessageKind
  source : String
  target : String
  body : String
  evidenceIds : List String

/-- The bus; its identifiers are natural numbers, the source's `u64` counters never wrap. -/
structure SpiderwebBus where
  nextId : EnvelopeId
  nextThreadId : ThreadId
  envelopes : List Envelope
  threads : List FabricThread
  intersections : List Intersection
  preloads : List PreloadPlan
  backpressure : List BackpressureSignal
  deriving DecidableEq

def isBlockingKind : BusMessageKind → Bool
  | .providerBlocked | .proofBlocked | .storeBlocked => true
  | _ => false

def transferFor (kind : BusMessageKind) : TransferPolicy :=
  if isBlockingKind kind then .backpressure else .sharedNode

def pushUnique {α : Type} [DecidableEq α] (values : List α) (value : α) : List α :=
  if value ∈ values then values else values ++ [value]

def modifyFirst {α : Type} (p : α → Bool) (f : α → α) : List α → List α
  | [] => []
  | x :: xs => if p x then f x :: xs else x :: modifyFirst p f xs

namespace SpiderwebBus

def new : SpiderwebBus := ⟨1, 1, [], [], [], [], []⟩

def threadForParent (bus : SpiderwebBus) (parent : Option EnvelopeId) : Option ThreadId :=
  parent.bind fun parent => (bus.envelopes.find? fun env => env.id == parent).map (·.threadId)

def createThread (bus : SpiderwebBus) : ThreadId × SpiderwebBus :=
  (bus.nextThreadId,
    { bus with
      nextThreadId := bus.nextThreadId + 1
      threads := bus.threads ++ [⟨bus.nextThreadId, [], [], []⟩] })

def addIntersection (bus : SpiderwebBus) (node : String) (threads : List ThreadId)
    (transfer : TransferPolicy) : SpiderwebBus :=
  let threads := (threads.insertionSort (· ≤ ·)).destutter (· ≠ ·)
  let isThere := fun item : Intersection => item.node == node && item.threads == threads
  if bus.intersections.any isThere then
    if transfer = .backpressure then
      { bus with
        intersections := modifyFirst isThere (fun item => { item with transfer }) bus.intersections }
    else bus
  else { bus with intersections := bus.intersections ++ [⟨node, threads, transfer⟩] }

def crossingThreads (bus : SpiderwebBus) (threadId : ThreadId) (endpoints : List String) :
    List ThreadId :=
  (bus.threads.filter fun thread =>
    thread.id != threadId && endpoints.any thread.nodes.contains).foldl
      (fun ids thread => pushUnique ids thread.id) []

def joinThread (bus : SpiderwebBus) (id : EnvelopeId) (threadId : ThreadId)
    (draft : EnvelopeDraft) : SpiderwebBus :=
  { bus with
    threads := modifyFirst (fun thread => thread.id == threadId) (fun thread => { thread with
      envelopes := thread.envelopes ++ [id]
      layers := pushUnique thread.layers draft.layer
      nodes := [draft.source, draft.target].foldl pushUnique thread.nodes }) bus.threads }

def crossEndpoints (threads : List ThreadId) (transfer : TransferPolicy) (bus : SpiderwebBus)
    (endpoints : List String) : SpiderwebBus :=
  endpoints.foldl (fun bus endpoint =>
    if 1 < threads.length then bus.addIntersection endpoint threads transfer else bus) bus

def recordPreload (bus : SpiderwebBus) (id : EnvelopeId) (threadId : ThreadId)
    (draft : EnvelopeDraft) : SpiderwebBus :=
  if draft.layer = .l2Flow ∨ draft.layer = .l3Orchestration then
    let targets := if draft.evidenceIds = [] then [draft.target] else draft.evidenceIds
    { bus with preloads := bus.preloads ++ [⟨threadId, id, targets⟩] }
  else bus

def recordBackpressure (bus : SpiderwebBus) (id : EnvelopeId) (threadId : ThreadId)
    (draft : EnvelopeDraft) : SpiderwebBus :=
  if isBlockingKind draft.kind then
    { bus with
      backpressure := bus.backpressure ++ [⟨threadId, id, draft.layer, draft.source, draft.body⟩] }
  else bus

def recordFabric (bus : SpiderwebBus) (id : EnvelopeId) (threadId : ThreadId)
    (draft : EnvelopeDraft) : SpiderwebBus :=
  let endpoints := [draft.source, draft.target]
  let threads := pushUnique (bus.crossingThreads threadId endpoints) threadId
  let joined := bus.joinThread id threadId draft
  let crossed := crossEndpoints threads (transferFor draft.kind) joined endpoints
  (crossed.recordPreload id threadId draft).recordBackpressure id threadId draft

def threadFor (bus : SpiderwebBus) (parent : Option EnvelopeId) : ThreadId × SpiderwebBus :=
  match bus.threadForParent parent with
  | some threadId => (threadId, bus)
  | none => bus.createThread

def pushEnvelope (bus : SpiderwebBus) (id : EnvelopeId) (threadId : ThreadId)
    (draft : EnvelopeDraft) : SpiderwebBus :=
  { bus with
    nextId := id + 1
    envelopes := bus.envelopes ++ [⟨id, draft.parent, threadId, draft.layer, draft.ramp, draft.kind,
      draft.source, draft.target, draft.body, draft.evidenceIds⟩] }

def emit (bus : SpiderwebBus) (draft : EnvelopeDraft) : EnvelopeId × SpiderwebBus :=
  let (threadId, threaded) := bus.threadFor draft.parent
  let id := bus.nextId
  (id, (threaded.pushEnvelope id threadId draft).recordFabric id threadId draft)

def l0TransportFrom (bus : SpiderwebBus) (parent : Option EnvelopeId) (kind : BusMessageKind)
    (source target body : String) : EnvelopeId × SpiderwebBus :=
  bus.emit ⟨parent, .l0Transport, .ingress, kind, source, target, body, []⟩

def l0Transport (bus : SpiderwebBus) (kind : BusMessageKind) (source target body : String) :
    EnvelopeId × SpiderwebBus :=
  bus.l0TransportFrom none kind source target body

def l1Message (bus : SpiderwebBus) (parent : EnvelopeId) (kind : BusMessageKind)
    (source target body : String) : EnvelopeId × SpiderwebBus :=
  bus.emit ⟨some parent, .l1Message, .internal, kind, source, target, body, []⟩

def l2Flow (bus : SpiderwebBus) (parent : EnvelopeId) (kind : BusMessageKind)
    (source target body : String) (evidenceIds : List String) : EnvelopeId × SpiderwebBus :=
  bus.emit ⟨some parent, .l2Flow, .internal, kind, source, target, body, evidenceIds⟩

def l3Orchestrate (bus : SpiderwebBus) (parent : EnvelopeId) (kind : BusMessageKind)
    (source target body : String) (evidenceIds : List String) : EnvelopeId × SpiderwebBus :=
  bus.emit ⟨some parent, .l3Orchestration, .offRamp, kind, source, target, body, evidenceIds⟩

/-- The loop of `route_for`, from the end of the route on. It walks a cycle of parents for ever;
that is the `none` here. -/
def routeFrom (envelopes : List Envelope) : ℕ → Option EnvelopeId → Option (List Envelope)
  | _, none => some []
  | 0, some _ => none
  | fuel + 1, some current =>
    match envelopes.find? fun env => env.id == current with
    | none => some []
    | some env => (routeFrom envelopes fuel env.parent).map (env :: ·)

def routeFor (bus : SpiderwebBus) (id : EnvelopeId) : Option (List Envelope) :=
  (routeFrom bus.envelopes (bus.envelopes.length + 1) (some id)).map List.reverse

def allLayers : List BusLayer := [.l0Transport, .l1Message, .l2Flow, .l3Orchestration]

def containsAllLayers (route : List Envelope) : Bool :=
  allLayers.all fun layer => route.any fun env => env.layer == layer

def routeContainsAllLayers (bus : SpiderwebBus) (id : EnvelopeId) : Option Bool :=
  (bus.routeFor id).map containsAllLayers

def Fresh (bus : SpiderwebBus) : Prop := ∀ env ∈ bus.envelopes, env.id < bus.nextId

theorem fresh_new : Fresh new := by simp [Fresh, new]

def SameEnvelopes (bus bus' : SpiderwebBus) : Prop :=
  bus'.nextId = bus.nextId ∧ bus'.envelopes = bus.envelopes

theorem SameEnvelopes.trans {a b c : SpiderwebBus} (h : SameEnvelopes a b)
    (h' : SameEnvelopes b c) : SameEnvelopes a c :=
  ⟨h'.1.trans h.1, h'.2.trans h.2⟩

theorem crossEndpoints_frame (threads : List ThreadId) (transfer : TransferPolicy)
    (bus : SpiderwebBus) (endpoints : List String) :
    SameEnvelopes bus (crossEndpoints threads transfer bus endpoints) := by
  have hadd : ∀ b endpoint, SameEnvelopes b
      (if 1 < threads.length then b.addIntersection endpoint threads transfer else b) := by
    intro b endpoint
    unfold addIntersection
    dsimp only
    split_ifs <;> exact ⟨rfl, rfl⟩
  induction endpoints generalizing bus with
  | nil => exact ⟨rfl, rfl⟩
  | cons endpoint endpoints ih => exact (hadd bus endpoint).trans (ih _)

theorem recordFabric_frame (bus : SpiderwebBus) (id : EnvelopeId) (threadId : ThreadId)
    (draft : EnvelopeDraft) : SameEnvelopes bus (bus.recordFabric id threadId draft) := by
  have hpreload : ∀ b : SpiderwebBus, SameEnvelopes b (b.recordPreload id threadId draft) := by
    intro b
    unfold recordPreload
    split_ifs <;> exact ⟨rfl, rfl⟩
  have hblock : ∀ b : SpiderwebBus, SameEnvelopes b (b.recordBackpressure id threadId draft) := by
    intro b
    unfold recordBackpressure
    split_ifs <;> exact ⟨rfl, rfl⟩
  have hjoin : SameEnvelopes bus (bus.joinThread id threadId draft) := ⟨rfl, rfl⟩
  exact ((hjoin.trans (crossEndpoints_frame _ _ _ _)).trans (hpreload _)).trans (hblock _)

theorem emit_spec (bus : SpiderwebBus) (draft : EnvelopeDraft) :
    (bus.emit draft).1 = bus.nextId ∧ (bus.emit draft).2.nextId = bus.nextId + 1 ∧
      ∃ env : Envelope, (bus.emit draft).2.envelopes = bus.envelopes ++ [env] ∧
        env.id = bus.nextId ∧ env.parent = draft.parent ∧ env.layer = draft.layer := by
  have hthread : (bus.threadFor draft.parent).2.envelopes = bus.envelopes := by
    unfold threadFor
    split <;> rfl
  unfold emit
  dsimp only
  obtain ⟨hnext, henvs⟩ := recordFabric_frame
    ((bus.threadFor draft.parent).2.pushEnvelope bus.nextId (bus.threadFor draft.parent).1 draft)
    bus.nextId (bus.threadFor draft.parent).1 draft
  rw [hnext, henvs, pushEnvelope, hthread]
  exact ⟨rfl, rfl, _, rfl, rfl, rfl, rfl⟩

theorem fresh_emit {bus : SpiderwebBus} (h : Fresh bus) (draft : EnvelopeDraft) :
    Fresh (bus.emit draft).2 := by
  obtain ⟨-, hnext, env, henvs, hid, -⟩ := emit_spec bus draft
  intro e he
  rw [henvs] at he
  rw [hnext]
  rcases List.mem_append.mp he with he | he
  · exact Nat.lt_succ_of_lt (h e he)
  · rw [List.mem_singleton.mp he, hid]
    exact Nat.lt_succ_self _

def Holds (bus : SpiderwebBus) (env : Envelope) : Prop :=
  (bus.envelopes.find? fun e => e.id == env.id) = some env

theorem holds_emit {bus : SpiderwebBus} {env : Envelope} (h : bus.Holds env)
    (draft : EnvelopeDraft) : (bus.emit draft).2.Holds env := by
  obtain ⟨-, -, new, henvs, -⟩ := emit_spec bus draft
  rw [Holds, henvs, List.find?_append]
  rw [Holds] at h
  rw [h]
  rfl

theorem holds_new {bus : SpiderwebBus} (h : Fresh bus) (draft : EnvelopeDraft) :
    ∃ env, (bus.emit draft).2.Holds env ∧ env.id = (bus.emit draft).1 ∧
      env.parent = draft.parent ∧ env.layer = draft.layer := by
  obtain ⟨hfst, -, env, henvs, hid, hparent, hlayer⟩ := emit_spec bus draft
  refine ⟨env, ?_, hid.trans hfst.symm, hparent, hlayer⟩
  have hnone : (bus.envelopes.find? fun e => e.id == env.id) = none := by
    rw [List.find?_eq_none]
    intro e he heq
    exact absurd (h e he) (by rw [beq_iff_eq.mp heq, hid]; exact lt_irrefl _)
  rw [Holds, henvs, List.find?_append, hnone]
  simp

theorem routeFrom_of_holds {bus : SpiderwebBus} {env : Envelope} (h : bus.Holds env) (fuel : ℕ) :
    routeFrom bus.envelopes (fuel + 1) (some env.id) =
      (routeFrom bus.envelopes fuel env.parent).map (env :: ·) := by
  rw [routeFrom]
  rw [Holds] at h
  rw [h]

theorem routeFor_of_holds {bus : SpiderwebBus} {e0 e1 e2 e3 : Envelope} (h0 : bus.Holds e0)
    (h1 : bus.Holds e1) (h2 : bus.Holds e2) (h3 : bus.Holds e3) (hroot : e0.parent = none)
    (p1 : e1.parent = some e0.id) (p2 : e2.parent = some e1.id) (p3 : e3.parent = some e2.id)
    (hlength : 4 ≤ bus.envelopes.length) : bus.routeFor e3.id = some [e0, e1, e2, e3] := by
  obtain ⟨rest, hrest⟩ := Nat.exists_eq_add_of_le hlength
  rw [routeFor, show bus.envelopes.length + 1 = rest + 1 + 1 + 1 + 1 + 1 by omega,
    routeFrom_of_holds h3, p3, routeFrom_of_holds h2, p2, routeFrom_of_holds h1, p1,
    routeFrom_of_holds h0, hroot, routeFrom]
  rfl

theorem route_of_emissions {bus : SpiderwebBus} (h : bus.Fresh) {d0 d1 d2 d3 : EnvelopeDraft}
    (hroot : d0.parent = none) (hlayers : d0.layer = .l0Transport ∧ d1.layer = .l1Message ∧
      d2.layer = .l2Flow ∧ d3.layer = .l3Orchestration)
    (p1 : d1.parent = some (bus.emit d0).1)
    (p2 : d2.parent = some ((bus.emit d0).2.emit d1).1)
    (p3 : d3.parent = some (((bus.emit d0).2.emit d1).2.emit d2).1) :
    ((((bus.emit d0).2.emit d1).2.emit d2).2.emit d3).2.routeContainsAllLayers
      ((((bus.emit d0).2.emit d1).2.emit d2).2.emit d3).1 = some true := by
  have f1 := fresh_emit h d0
  have f2 := fresh_emit f1 d1
  have f3 := fresh_emit f2 d2
  obtain ⟨e0, h0, i0, q0, l0⟩ := holds_new h d0
  obtain ⟨e1, h1, i1, q1, l1⟩ := holds_new f1 d1
  obtain ⟨e2, h2, i2, q2, l2⟩ := holds_new f2 d2
  obtain ⟨e3, h3, i3, q3, l3⟩ := holds_new f3 d3
  have hlength : ∀ (b : SpiderwebBus) d, (b.emit d).2.envelopes.length = b.envelopes.length + 1 := by
    intro b d
    obtain ⟨-, -, env, henvs, -⟩ := emit_spec b d
    rw [henvs, List.length_append, List.length_singleton]
  have hroute := routeFor_of_holds (holds_emit (holds_emit (holds_emit h0 d1) d2) d3)
    (holds_emit (holds_emit h1 d2) d3) (holds_emit h2 d3) h3 (q0.trans hroot)
    (by rw [q1, p1, i0]) (by rw [q2, p2, i1]) (by rw [q3, p3, i2])
    (by simp only [hlength]; omega)
  rw [← i3, routeContainsAllLayers, hroute, Option.map_some, containsAllLayers]
  simp [allLayers, l0, l1, l2, l3, hlayers]

end SpiderwebBus

end AtomVibe.Bus
