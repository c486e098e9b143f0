import Mathlib.Data.List.Chain
import AtomVibe.Bus
import AtomVibe.Foundations.Transition

namespace AtomVibe.Bus

open Transition SpiderwebBus

inductive BusCall where
  | l0Transport (kind : BusMessageKind) (source target body : String)
  | l0TransportFrom (parent : Option EnvelopeId) (kind : BusMessageKind)
      (source target body : String)
  | l1Message (parent : EnvelopeId) (kind : BusMessageKind) (source target body : String)
  | l2Flow (parent : EnvelopeId) (kind : BusMessageKind) (source target body : String)
      (evidenceIds : List String)
  | l3Orchestrate (parent : EnvelopeId) (kind : BusMessageKind) (source target body : String)
      (evidenceIds : List String)

def busStep (bus : SpiderwebBus) : BusCall → EnvelopeId × SpiderwebBus
  | .l0Transport kind source target body => bus.l0Transport kind source target body
  | .l0TransportFrom parent kind source target body =>
    bus.l0TransportFrom parent kind source target body
  | .l1Message parent kind source target body => bus.l1Message parent kind source target body
  | .l2Flow parent kind source target body evidenceIds =>
    bus.l2Flow parent kind source target body evidenceIds
  | .l3Orchestrate parent kind source target body evidenceIds =>
    bus.l3Orchestrate parent kind source target body evidenceIds

def BusCall.draft : BusCall → EnvelopeDraft
  | .l0Transport kind source target body =>
    ⟨none, .l0Transport, .ingress, kind, source, target, body, []⟩
  | .l0TransportFrom parent kind source target body =>
    ⟨parent, .l0Transport, .ingress, kind, source, target, body, []⟩
  | .l1Message parent kind source target body =>
    ⟨some parent, .l1Message, .internal, kind, source, target, body, []⟩
  | .l2Flow parent kind source target body evidenceIds =>
    ⟨some parent, .l2Flow, .internal, kind, source, target, body, evidenceIds⟩
  | .l3Orchestrate parent kind source target body evidenceIds =>
    ⟨some parent, .l3Orchestration, .offRamp, kind, source, target, body, evidenceIds⟩

theorem busStep_eq (bus : SpiderwebBus) (call : BusCall) :
    busStep bus call = bus.emit call.draft := by
  cases call <;> rfl

inductive Origin
  | new
  | default

def Origin.bus : Origin → SpiderwebBus
  | new => SpiderwebBus.new
  | default => ⟨0, 0, [], [], [], [], []⟩

def newEnvelope (bus : SpiderwebBus) (draft : EnvelopeDraft) : Envelope :=
  ⟨bus.nextId, draft.parent, (bus.threadFor draft.parent).1, draft.layer, draft.ramp, draft.kind,
    draft.source, draft.target, draft.body, draft.evidenceIds⟩

theorem envelopes_emit (bus : SpiderwebBus) (draft : EnvelopeDraft) :
    (bus.emit draft).2.envelopes = bus.envelopes ++ [newEnvelope bus draft] := by
  have hthread : (bus.threadFor draft.parent).2.envelopes = bus.envelopes := by
    unfold threadFor
    split <;> rfl
  unfold emit
  dsimp only
  rw [(recordFabric_frame _ _ _ _).2, pushEnvelope, hthread]
  rfl

def KnownParent (bus : SpiderwebBus) (draft : EnvelopeDraft) : Prop :=
  ∀ p, draft.parent = some p → ∃ env ∈ bus.envelopes, env.id = p

def ParentsEarlier (envelopes : List Envelope) : Prop :=
  ∀ before env after, envelopes = before ++ env :: after →
    ∀ p, env.parent = some p → ∃ e ∈ before, e.id = p

theorem parentsEarlier_concat {envelopes : List Envelope} {env : Envelope} :
    ParentsEarlier (envelopes ++ [env]) ↔ ParentsEarlier envelopes ∧
      ∀ p, env.parent = some p → ∃ e ∈ envelopes, e.id = p := by
  constructor
  · intro h
    refine ⟨fun before e after heq => ?_, h envelopes env [] rfl⟩
    exact h before e (after ++ [env]) (by rw [heq, List.append_assoc, List.cons_append])
  · rintro ⟨h, hlast⟩ before e after heq
    rcases List.eq_nil_or_concat after with rfl | ⟨after, last, rfl⟩
    · obtain ⟨rfl, hsingle⟩ := List.append_inj' heq rfl
      obtain rfl := List.singleton_inj.mp hsingle
      exact hlast
    · have hsplit : envelopes ++ [env] = (before ++ e :: after) ++ [last] := by
        rw [heq]
        simp
      exact h before e after (List.append_inj' hsplit rfl).1

structure Chained (bus : SpiderwebBus) : Prop where
  ordered : bus.envelopes.Pairwise fun env later => env.id < later.id
  fresh : Fresh bus
  parents : ParentsEarlier bus.envelopes
  threads : ∀ env ∈ bus.envelopes, ∀ e ∈ bus.envelopes, env.parent = some e.id →
    env.threadId = e.threadId

theorem Chained.unique {bus : SpiderwebBus} (h : Chained bus) {env e : Envelope}
    (henv : env ∈ bus.envelopes) (he : e ∈ bus.envelopes) (hid : env.id = e.id) : env = e := by
  have hnodup : (bus.envelopes.map (·.id)).Nodup := by
    rw [List.nodup_iff_pairwise_ne, List.pairwise_map]
    exact h.ordered.imp fun hlt => ne_of_lt hlt
  exact List.inj_on_of_nodup_map hnodup henv he hid

theorem Chained.find {bus : SpiderwebBus} (h : Chained bus) {env : Envelope}
    (henv : env ∈ bus.envelopes) : (bus.envelopes.find? fun e => e.id == env.id) = some env := by
  have hsome : (bus.envelopes.find? fun e => e.id == env.id).isSome :=
    List.find?_isSome.mpr ⟨env, henv, beq_self_eq_true _⟩
  obtain ⟨e, he⟩ := Option.isSome_iff_exists.mp hsome
  rw [he, h.unique (List.mem_of_find?_eq_some he) henv (by simpa using List.find?_some he)]

theorem chained_origin (origin : Origin) : Chained origin.bus := by
  cases origin <;>
    exact ⟨.nil, by simp [Fresh, Origin.bus, SpiderwebBus.new],
      by simp [ParentsEarlier, Origin.bus, SpiderwebBus.new],
      by simp [Origin.bus, SpiderwebBus.new]⟩

theorem Chained.emit {bus : SpiderwebBus} (h : Chained bus) {draft : EnvelopeDraft}
    (hknown : KnownParent bus draft) : Chained (bus.emit draft).2 where
  ordered := by
    rw [envelopes_emit, List.pairwise_append]
    exact ⟨h.ordered, List.pairwise_singleton _ _, by simpa [newEnvelope, Fresh] using h.fresh⟩
  fresh := fresh_emit h.fresh draft
  parents := by
    rw [envelopes_emit, parentsEarlier_concat]
    exact ⟨h.parents, hknown⟩
  threads := by
    rw [envelopes_emit]
    intro env henv e he hparent
    rcases List.mem_append.mp henv with henv | henv
    · have hold : ∃ e' ∈ bus.envelopes, e'.id = e.id := by
        obtain ⟨before, after, hsplit⟩ := List.append_of_mem henv
        obtain ⟨e', he', hid⟩ := h.parents before env after hsplit _ hparent
        exact ⟨e', by rw [hsplit]; exact List.mem_append_left _ he', hid⟩
      obtain ⟨e', he', hid⟩ := hold
      rcases List.mem_append.mp he with he | he
      · exact h.threads env henv e he hparent
      · rw [List.mem_singleton.mp he] at hid
        exact absurd (h.fresh e' he') (by rw [hid]; exact lt_irrefl _)
    · obtain rfl := List.mem_singleton.mp henv
      obtain ⟨e', he', hid⟩ := hknown _ hparent
      have hsame : e = e' := by
        rcases List.mem_append.mp he with he | he
        · exact h.unique he he' hid.symm
        · rw [List.mem_singleton.mp he] at hid
          exact absurd (h.fresh e' he') (by rw [hid]; exact lt_irrefl _)
      subst hsame
      have hthread : bus.threadForParent draft.parent = some e.threadId := by
        rw [show draft.parent = some e.id from hparent, threadForParent, Option.bind_some,
          h.find he', Option.map_some]
      rw [newEnvelope, threadFor, hthread]

structure IsRoute (bus : SpiderwebBus) (id : EnvelopeId) (route : List Envelope) : Prop where
  stored : ∀ env ∈ route, env ∈ bus.envelopes
  ends : if id ∈ bus.envelopes.map (·.id) then route.getLast?.map (·.id) = some id else route = []
  root : ∀ env, route.head? = some env → env.parent = none
  linked : route.IsChain fun env child => child.parent = some env.id
  thread : ∀ env ∈ route, ∀ other ∈ route, env.threadId = other.threadId

structure Walk (bus : SpiderwebBus) (id : EnvelopeId) (walk : List Envelope) : Prop where
  stored : ∀ env ∈ walk, env ∈ bus.envelopes
  starts : if id ∈ bus.envelopes.map (·.id) then walk.head?.map (·.id) = some id else walk = []
  root : ∀ env, walk.getLast? = some env → env.parent = none
  linked : walk.IsChain fun child env => child.parent = some env.id

variable {bus : SpiderwebBus}

theorem walk_missing {id : EnvelopeId} (h : (bus.envelopes.find? fun env => env.id == id) = none)
    (fuel : ℕ) : routeFrom bus.envelopes (fuel + 1) (some id) = some [] ∧ Walk bus id [] := by
  have hmem : id ∉ bus.envelopes.map (·.id) := by
    simpa [List.find?_eq_none] using h
  exact ⟨by rw [routeFrom, h], by simp, by rw [if_neg hmem], by simp, .nil⟩

theorem Walk.cons {env : Envelope} {walk : List Envelope} (henv : env ∈ bus.envelopes)
    (h : match env.parent with
      | none => walk = []
      | some q => q ∈ bus.envelopes.map (·.id) ∧ Walk bus q walk) :
    Walk bus env.id (env :: walk) := by
  have hmem : env.id ∈ bus.envelopes.map (·.id) := List.mem_map_of_mem henv
  cases hparent : env.parent with
  | none =>
    obtain rfl : walk = [] := by simpa [hparent] using h
    exact ⟨by simpa using henv, by simp [hmem], by simp [hparent], .singleton _⟩
  | some q =>
    rw [hparent] at h
    obtain ⟨hq, hwalk⟩ := h
    have hstarts := hwalk.starts
    rw [if_pos hq, Option.map_eq_some_iff] at hstarts
    obtain ⟨next, hnext, hid⟩ := hstarts
    obtain ⟨rest, rfl⟩ := List.head?_eq_some_iff.mp hnext
    refine ⟨List.forall_mem_cons.mpr ⟨henv, hwalk.stored⟩, by simp [hmem], ?_, ?_⟩
    · simpa using hwalk.root
    · exact .cons_cons (by rw [hparent, hid]) hwalk.linked

theorem walk_from (h : Chained bus) (k : ℕ) (id : EnvelopeId)
    (hk : ∀ env ∈ bus.envelopes, env.id = id → env ∈ bus.envelopes.take k) :
    ∃ walk, routeFrom bus.envelopes (k + 1) (some id) = some walk ∧ Walk bus id walk := by
  induction k generalizing id with
  | zero =>
    refine ⟨[], walk_missing (List.find?_eq_none.mpr fun env henv heq => ?_) 0⟩
    simpa using hk env henv (by simpa using heq)
  | succ k ih =>
    cases hfind : bus.envelopes.find? fun env => env.id == id with
    | none => exact ⟨[], walk_missing hfind (k + 1)⟩
    | some env =>
      have henv := List.mem_of_find?_eq_some hfind
      obtain rfl : env.id = id := by simpa using List.find?_some hfind
      have hnext : routeFrom bus.envelopes (k + 1 + 1) (some env.id) =
          (routeFrom bus.envelopes (k + 1) env.parent).map (env :: ·) := by
        rw [routeFrom, hfind]
      cases hparent : env.parent with
      | none =>
        exact ⟨[env], by rw [hnext, hparent, routeFrom]; rfl, Walk.cons henv (by rw [hparent])⟩
      | some q =>
        obtain ⟨before, after, htake⟩ := List.append_of_mem (hk env henv rfl)
        have hsplit : bus.envelopes = before ++ env :: (after ++ bus.envelopes.drop (k + 1)) := by
          rw [← List.cons_append, ← List.append_assoc, ← htake, List.take_append_drop]
        obtain ⟨e, he, hid⟩ := h.parents before env _ hsplit q hparent
        have hmem : e ∈ bus.envelopes := by
          rw [hsplit]
          exact List.mem_append_left _ he
        have hbefore : before <+: bus.envelopes.take k := by
          have hlength := congrArg List.length htake
          rw [List.length_take, List.length_append, List.length_cons] at hlength
          rw [hsplit, List.prefix_take_iff]
          exact ⟨List.prefix_append _ _, by omega⟩
        obtain ⟨walk, hwalk, hspec⟩ := ih q fun other hother hq => by
          rw [h.unique hother hmem (hq.trans hid.symm)]
          exact hbefore.subset he
        refine ⟨env :: walk, by rw [hnext, hparent, hwalk, Option.map_some], Walk.cons henv ?_⟩
        rw [hparent]
        exact ⟨List.mem_map.mpr ⟨e, hmem, hid⟩, hspec⟩

theorem Walk.route (h : Chained bus) {id : EnvelopeId} {walk : List Envelope}
    (hwalk : Walk bus id walk) : IsRoute bus id walk.reverse where
  stored := by simpa using hwalk.stored
  ends := by
    rw [List.getLast?_reverse, List.reverse_eq_nil_iff]
    exact hwalk.starts
  root := by simpa [List.head?_reverse] using hwalk.root
  linked := List.isChain_reverse.mpr hwalk.linked
  thread := by
    have hchain : walk.IsChain fun child env => child.threadId = env.threadId := by
      refine List.IsChain.imp_of_mem_imp (fun child env hchild henv hparent => ?_) hwalk.linked
      exact h.threads child (hwalk.stored child hchild) env (hwalk.stored env henv) hparent
    have hsame : (walk.map (·.threadId)).IsChain (· = ·) := (List.isChain_map _).mpr hchain
    have hconst : ∀ env ∈ walk, ∀ other ∈ walk, env.threadId = other.threadId := by
      rw [List.isChain_eq_iff_eq_replicate] at hsame
      cases walk with
      | nil => simp
      | cons first rest =>
        have hall := List.eq_replicate_iff.mp (hsame first.threadId (by simp))
        intro env henv other hother
        rw [hall.2 _ (List.mem_map_of_mem henv), hall.2 _ (List.mem_map_of_mem hother)]
    intro env henv other hother
    exact hconst env (List.mem_reverse.mp henv) other (List.mem_reverse.mp hother)

theorem Chained.route (h : Chained bus) (id : EnvelopeId) :
    ∃ route, bus.routeFor id = some route ∧ IsRoute bus id route := by
  obtain ⟨walk, hwalk, hspec⟩ := walk_from h bus.envelopes.length id fun env henv _ => by
    rwa [List.take_length]
  exact ⟨walk.reverse, by rw [routeFor, hwalk, Option.map_some], hspec.route h⟩

structure RoutesSound (bus : SpiderwebBus) : Prop where
  parents : ParentsEarlier bus.envelopes
  routes : ∀ id, ∃ route, bus.routeFor id = some route ∧ IsRoute bus id route
  layers : ∀ id, bus.routeContainsAllLayers id = some true → ∃ route,
    bus.routeFor id = some route ∧ ∀ layer ∈ allLayers, ∃ env ∈ route, env.layer = layer

theorem layers_of_route {id : EnvelopeId} (h : bus.routeContainsAllLayers id = some true) :
    ∃ route, bus.routeFor id = some route ∧ ∀ layer ∈ allLayers, ∃ env ∈ route,
      env.layer = layer := by
  rw [routeContainsAllLayers, Option.map_eq_some_iff] at h
  obtain ⟨route, hroute, hall⟩ := h
  refine ⟨route, hroute, fun layer hlayer => ?_⟩
  have hany := List.all_eq_true.mp hall layer hlayer
  simpa using hany

theorem Chained.sound (h : Chained bus) : RoutesSound bus :=
  ⟨h.parents, h.route, fun _ => layers_of_route⟩

/-- The routes of every state of a run are sound exactly if each call passes the id of an envelope
the bus already holds, or none. -/
theorem routes_sound_iff (origin : Origin) (calls : List BusCall) :
    (∀ v ∈ trace busStep origin.bus calls, RoutesSound v.after) ↔
      Guarded busStep (fun bus call => KnownParent bus call.draft) origin.bus calls := by
  constructor
  · intro h v hv
    have hafter := h v hv
    have hvisits : ∀ v ∈ trace busStep origin.bus calls,
        v = visit busStep v.before v.input ∧ True ∧ True :=
      visits (fun _ => True) trivial (fun _ _ _ => trivial) calls
    obtain ⟨hvisit, -⟩ := hvisits v hv
    rw [hvisit] at hafter
    have hparents := hafter.parents
    rw [visit, busStep_eq, envelopes_emit, parentsEarlier_concat] at hparents
    exact hparents.2
  · intro hg v hv
    have hstep : ∀ bus call, Chained bus → KnownParent bus call.draft →
        Chained (busStep bus call).2 := by
      intro bus call hbus hknown
      rw [busStep_eq]
      exact hbus.emit hknown
    exact (guarded_visits _ Chained (chained_origin origin) hstep calls hg v hv).2.2.sound

theorem route_without_end : ∃ call, ∀ v ∈ trace busStep Origin.new.bus [call],
    ¬RoutesSound v.after ∧ ∀ fuel, routeFrom v.after.envelopes fuel (some 1) = none := by
  refine ⟨.l1Message 1 .intentClassified "runtime" "wiki-graph" "atoms", fun v hv => ?_⟩
  obtain rfl := List.mem_singleton.mp hv
  have hloop : ∀ fuel, routeFrom (visit busStep Origin.new.bus
      (.l1Message 1 .intentClassified "runtime" "wiki-graph" "atoms")).after.envelopes fuel
        (some 1) = none := by
    intro fuel
    induction fuel with
    | zero => rfl
    | succ fuel ih =>
      rw [routeFrom]
      exact congrArg (Option.map _) ih
  refine ⟨fun h => ?_, hloop⟩
  obtain ⟨route, hroute, -⟩ := h.routes 1
  rw [routeFor, hloop] at hroute
  exact absurd hroute (by simp)

end AtomVibe.Bus
