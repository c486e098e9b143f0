import AtomVibe.BusRoutes

namespace AtomVibe.Bus

open SpiderwebBus

section Walks

variable {envelopes : List Envelope} {last : Envelope}

theorem routeFrom_concat (hparents : ∀ env ∈ envelopes, ∀ q, env.parent = some q → q < env.id)
    (fuel : ℕ) {p : EnvelopeId} (hp : p < last.id) :
    routeFrom (envelopes ++ [last]) fuel (some p) = routeFrom envelopes fuel (some p) := by
  induction fuel generalizing p with
  | zero => rfl
  | succ fuel ih =>
    have hlast : ([last].find? fun env => env.id == p) = none := by
      rw [List.find?_singleton, if_neg]
      simpa using hp.ne'
    rw [routeFrom, routeFrom, List.find?_append, hlast, Option.or_none]
    cases hfind : envelopes.find? fun env => env.id == p with
    | none => rfl
    | some env =>
      have henv := List.mem_of_find?_eq_some hfind
      obtain rfl : env.id = p := by simpa using List.find?_some hfind
      cases hparent : env.parent with
      | none => simp only [hparent, routeFrom]
      | some q =>
        simp only [hparent]
        rw [ih (lt_trans (hparents env henv q hparent) hp)]

theorem routeFrom_more {fuel : ℕ} {id : Option EnvelopeId} {walk : List Envelope}
    (h : routeFrom envelopes fuel id = some walk) :
    routeFrom envelopes (fuel + 1) id = some walk := by
  induction fuel generalizing id walk with
  | zero =>
    cases id with
    | none => exact h
    | some id => cases h
  | succ fuel ih =>
    cases id with
    | none => exact h
    | some id =>
      rw [routeFrom] at h ⊢
      split at h
      · exact h
      · obtain ⟨rest, hrest, hwalk⟩ := Option.map_eq_some_iff.mp h
        rw [ih hrest]
        exact congrArg some hwalk

end Walks

structure Descending (bus : SpiderwebBus) : Prop where
  positive : 0 < bus.nextId
  fresh : Fresh bus
  parents : ∀ env ∈ bus.envelopes, ∀ p, env.parent = some p → p < env.id
  returns : ∀ id, ∃ route, bus.routeFor id = some route

theorem descending_new : Descending .new := by
  refine ⟨by decide, fresh_new, by simp [SpiderwebBus.new], fun id => ⟨[], rfl⟩⟩

variable {bus : SpiderwebBus} {draft : EnvelopeDraft}

def OlderParent (bus : SpiderwebBus) (draft : EnvelopeDraft) : Prop :=
  ∀ p, draft.parent = some p → p < bus.nextId

theorem Descending.routeFor_emit (h : Descending bus) (hparent : OlderParent bus draft) :
    (bus.emit draft).2.routeFor bus.nextId =
      ((draft.parent.map bus.routeFor).getD (some [])).map (· ++ [newEnvelope bus draft]) := by
  have hfind : (bus.envelopes ++ [newEnvelope bus draft]).find? (fun env => env.id == bus.nextId) =
      some (newEnvelope bus draft) := by
    have hnone : (bus.envelopes.find? fun env => env.id == bus.nextId) = none := by
      rw [List.find?_eq_none]
      intro env henv hid
      exact absurd (h.fresh env henv) (by simpa using (beq_iff_eq.mp hid).ge)
    rw [List.find?_append, hnone, Option.none_or, List.find?_singleton, if_pos]
    simp [newEnvelope]
  rw [routeFor, envelopes_emit, routeFrom, hfind]
  cases hcase : draft.parent with
  | none =>
    have hroot : (newEnvelope bus draft).parent = none := hcase
    simp only [hroot, routeFrom]
    rfl
  | some p =>
    have hchild : (newEnvelope bus draft).parent = some p := hcase
    have hfuel : (bus.envelopes ++ [newEnvelope bus draft]).length = bus.envelopes.length + 1 := by
      simp
    simp only [hchild, hfuel]
    rw [routeFrom_concat h.parents _ (hparent p hcase), Option.map_some, Option.getD_some, routeFor,
      Option.map_map, Option.map_map]
    congr 1
    funext walk
    simp

theorem Descending.emit (h : Descending bus) (hparent : OlderParent bus draft) :
    Descending (bus.emit draft).2 := by
  obtain ⟨-, hnext, -⟩ := emit_spec bus draft
  refine ⟨hnext ▸ Nat.succ_pos _, fresh_emit h.fresh draft, ?_, fun id => ?_⟩
  · rw [envelopes_emit, List.forall_mem_append, List.forall_mem_singleton]
    exact ⟨h.parents, hparent⟩
  · rcases lt_trichotomy id bus.nextId with hid | rfl | hid
    · obtain ⟨route, hroute⟩ := h.returns id
      obtain ⟨walk, hwalk, -⟩ := Option.map_eq_some_iff.mp hroute
      have hlength : (bus.envelopes ++ [newEnvelope bus draft]).length = bus.envelopes.length + 1 :=
        by simp
      rw [routeFor, envelopes_emit, hlength, routeFrom_concat h.parents _ hid,
        routeFrom_more hwalk]
      exact ⟨_, rfl⟩
    · rw [h.routeFor_emit hparent]
      cases draft.parent with
      | none => exact ⟨_, rfl⟩
      | some p =>
        obtain ⟨route, hroute⟩ := h.returns p
        rw [Option.map_some, Option.getD_some, hroute]
        exact ⟨_, rfl⟩
    · have hmissing : ((bus.envelopes ++ [newEnvelope bus draft]).find? fun env => env.id == id) =
          none := by
        rw [List.find?_eq_none]
        intro env henv hsame
        have hbound : env.id ≤ bus.nextId := by
          rcases List.mem_append.mp henv with henv | henv
          · exact (h.fresh env henv).le
          · rw [List.mem_singleton.mp henv]
            exact le_refl _
        exact absurd (beq_iff_eq.mp hsame) (lt_of_le_of_lt hbound hid).ne
      rw [routeFor, envelopes_emit, routeFrom, hmissing]
      exact ⟨_, rfl⟩

structure Emitted (bus : SpiderwebBus) (made : EnvelopeId × SpiderwebBus) : Prop where
  descending : Descending made.2
  older : made.1 < made.2.nextId
  grows : bus.nextId ≤ made.2.nextId

theorem Descending.emitted (h : Descending bus) (hparent : OlderParent bus draft) :
    Emitted bus (bus.emit draft) := by
  obtain ⟨hid, hnext, -⟩ := emit_spec bus draft
  exact ⟨h.emit hparent, by rw [hid, hnext]; exact Nat.lt_succ_self _,
    by rw [hnext]; exact Nat.le_succ _⟩

theorem Emitted.trans {made made' : EnvelopeId × SpiderwebBus} (h : Emitted bus made)
    (h' : Emitted made.2 made') : Emitted bus made' :=
  ⟨h'.descending, h'.older, h.grows.trans h'.grows⟩

theorem olderParent_none (h : draft.parent = none) : OlderParent bus draft := by
  intro p hp
  rw [h] at hp
  cases hp

theorem olderParent_some {p : EnvelopeId} (h : draft.parent = some p) (hp : p < bus.nextId) :
    OlderParent bus draft := by
  intro q hq
  obtain rfl := Option.some.inj (h.symm.trans hq)
  exact hp

section Levels

variable {made : EnvelopeId × SpiderwebBus} {kind : BusMessageKind} {source target body : String}
  {ids : List String}

theorem Emitted.l1 (h : Emitted bus made) :
    Emitted bus (made.2.l1Message made.1 kind source target body) :=
  h.trans (h.descending.emitted (olderParent_some rfl h.older))

theorem Emitted.l2 (h : Emitted bus made) :
    Emitted bus (made.2.l2Flow made.1 kind source target body ids) :=
  h.trans (h.descending.emitted (olderParent_some rfl h.older))

theorem Emitted.l3 (h : Emitted bus made) :
    Emitted bus (made.2.l3Orchestrate made.1 kind source target body ids) :=
  h.trans (h.descending.emitted (olderParent_some rfl h.older))

theorem emitted_root (h : Descending bus) :
    Emitted bus (bus.l0Transport kind source target body) :=
  h.emitted (olderParent_none rfl)

end Levels

theorem routeFrom_mem {envelopes : List Envelope} {fuel : ℕ} {id : Option EnvelopeId}
    {walk : List Envelope} (h : routeFrom envelopes fuel id = some walk) :
    ∀ env ∈ walk, env ∈ envelopes := by
  induction fuel generalizing id walk with
  | zero =>
    cases id with
    | none => simp [← Option.some.inj h]
    | some id => cases h
  | succ fuel ih =>
    cases id with
    | none => simp [← Option.some.inj h]
    | some id =>
      rw [routeFrom] at h
      split at h
      · simp [← Option.some.inj h]
      · rename_i env hfind
        obtain ⟨rest, hrest, rfl⟩ := Option.map_eq_some_iff.mp h
        rw [List.forall_mem_cons]
        exact ⟨List.mem_of_find?_eq_some hfind, ih hrest⟩

theorem Descending.route_older (h : Descending bus) {id : EnvelopeId} {route : List Envelope}
    (hroute : bus.routeFor id = some route) : ∀ env ∈ route, env.id < bus.nextId := by
  intro env henv
  obtain ⟨walk, hwalk, rfl⟩ := Option.map_eq_some_iff.mp hroute
  exact h.fresh env (routeFrom_mem hwalk env (List.mem_reverse.mp henv))

def Spans (bus : SpiderwebBus) (id : EnvelopeId) (layers : List BusLayer) : Prop :=
  ∃ route, bus.routeFor id = some route ∧ ∀ layer ∈ layers, ∃ env ∈ route, env.layer = layer

theorem Descending.spans_root (h : Descending bus) (hparent : draft.parent = none) :
    Spans (bus.emit draft).2 (bus.emit draft).1 [draft.layer] := by
  rw [(emit_spec bus draft).1]
  refine ⟨_, (h.routeFor_emit (olderParent_none hparent)).trans (by rw [hparent]; rfl), ?_⟩
  rw [List.forall_mem_singleton]
  exact ⟨newEnvelope bus draft, List.mem_append_right _ (List.mem_singleton_self _), rfl⟩

theorem Descending.spans_emit (h : Descending bus) {p : EnvelopeId} {layers : List BusLayer}
    (hparent : draft.parent = some p) (hp : p < bus.nextId) (ht : Spans bus p layers) :
    Spans (bus.emit draft).2 (bus.emit draft).1 (draft.layer :: layers) := by
  obtain ⟨route, hroute, hlayers⟩ := ht
  rw [(emit_spec bus draft).1]
  refine ⟨_, (h.routeFor_emit (olderParent_some hparent hp)).trans
    (by rw [hparent, Option.map_some, Option.getD_some, hroute]; rfl), ?_⟩
  rw [List.forall_mem_cons]
  constructor
  · exact ⟨newEnvelope bus draft, List.mem_append_right _ (List.mem_singleton_self _), rfl⟩
  · intro layer hlayer
    obtain ⟨env, henv, heq⟩ := hlayers layer hlayer
    exact ⟨env, List.mem_append_left _ henv, heq⟩

theorem Spans.all {id : EnvelopeId} {layers : List BusLayer} (h : Spans bus id layers)
    (hall : ∀ layer ∈ allLayers, layer ∈ layers) : bus.routeContainsAllLayers id = some true := by
  obtain ⟨route, hroute, hlayers⟩ := h
  rw [routeContainsAllLayers, hroute, Option.map_some, containsAllLayers]
  congr 1
  rw [List.all_eq_true]
  intro layer hlayer
  obtain ⟨env, henv, heq⟩ := hlayers layer (hall layer hlayer)
  exact List.any_eq_true.mpr ⟨env, henv, beq_iff_eq.mpr heq⟩

structure Routed (bus : SpiderwebBus) (made : EnvelopeId × SpiderwebBus)
    (layers : List BusLayer) : Prop extends Emitted bus made where
  spans : Spans made.2 made.1 layers

section Routes

variable {made : EnvelopeId × SpiderwebBus} {layers : List BusLayer} {kind : BusMessageKind}
  {source target body : String} {ids : List String}

theorem routed_root (h : Descending bus) :
    Routed bus (bus.l0Transport kind source target body) [.l0Transport] :=
  ⟨emitted_root h, h.spans_root rfl⟩

theorem Routed.l1 (h : Routed bus made layers) :
    Routed bus (made.2.l1Message made.1 kind source target body) (.l1Message :: layers) :=
  ⟨h.toEmitted.l1, h.descending.spans_emit rfl h.older h.spans⟩

theorem Routed.l2 (h : Routed bus made layers) :
    Routed bus (made.2.l2Flow made.1 kind source target body ids) (.l2Flow :: layers) :=
  ⟨h.toEmitted.l2, h.descending.spans_emit rfl h.older h.spans⟩

theorem Routed.l3 (h : Routed bus made layers) :
    Routed bus (made.2.l3Orchestrate made.1 kind source target body ids)
      (.l3Orchestration :: layers) :=
  ⟨h.toEmitted.l3, h.descending.spans_emit rfl h.older h.spans⟩

theorem Routed.mono {layers' : List BusLayer} (h : Routed bus made layers)
    (hsub : ∀ layer ∈ layers', layer ∈ layers) : Routed bus made layers' := by
  obtain ⟨route, hroute, hlayers⟩ := h.spans
  exact ⟨h.toEmitted, route, hroute, fun layer hlayer => hlayers layer (hsub layer hlayer)⟩

end Routes

end AtomVibe.Bus
