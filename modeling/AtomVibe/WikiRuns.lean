import AtomVibe.WikiRecall

namespace AtomVibe.Wiki

open Checked Text Doctrine Learning Proof Recency

inductive Call
  | learn (v : Verifiers) (record : LearningRecord)
  | prove (v : Verifiers) (record : ProofRecord)

def Call.apply (fingerprint : ProofRecord → UInt64) : Call → WikiGraph → WikiGraph
  | learn v record, graph => graph.addLearningRecord v record
  | prove v record, graph => graph.addProofRecord fingerprint v record

def runCalls (fingerprint : ProofRecord → UInt64) (calls : List Call) (graph : WikiGraph) :
    WikiGraph :=
  calls.foldl (fun graph call => call.apply fingerprint graph) graph

namespace WikiGraph

variable {graph graph' graph'' : WikiGraph} {memory : List LearningRecord}

def Untouched (graph : WikiGraph) (id : String) : Prop :=
  ∀ edge ∈ graph.edges, edge.fromId ≠ id ∧ edge.toId ≠ id

def plainNodes (graph : WikiGraph) : List WikiNode :=
  graph.nodes.filter fun node => !isLearning node.id

def plainEdges (graph : WikiGraph) : List WikiEdge :=
  graph.edges.filter fun edge => !isLearning edge.fromId && !isLearning edge.toId

structure Keeps (graph graph' : WikiGraph) : Prop where
  released : ∀ id, isLearning id = true → id ∈ graph.queued ∨ graph.Untouched id →
    id ∈ graph'.queued ∨ graph'.Untouched id
  nodes : graph.plainNodes.Sublist graph'.nodes
  edges : graph.plainEdges.Sublist graph'.edges

theorem filter_sublist_filter {α : Type} {p : α → Bool} {items items' : List α}
    (h : (items.filter p).Sublist items') : (items.filter p).Sublist (items'.filter p) := by
  have hfilter := h.filter p
  rw [List.filter_filter] at hfilter
  simpa using hfilter

theorem Keeps.refl (graph : WikiGraph) : graph.Keeps graph :=
  ⟨fun _ _ h => h, List.filter_sublist, List.filter_sublist⟩

theorem Keeps.trans (h : graph.Keeps graph') (h' : graph'.Keeps graph'') : graph.Keeps graph'' :=
  ⟨fun id hlearning hid => h'.released id hlearning (h.released id hlearning hid),
    (filter_sublist_filter h.nodes).trans h'.nodes, (filter_sublist_filter h.edges).trans h'.edges⟩

theorem sublist_without {dead : List String} (hdead : ∀ id ∈ dead, isLearning id = true)
    (graph : WikiGraph) :
    graph.plainNodes.Sublist (graph.without dead).nodes ∧
      graph.plainEdges.Sublist (graph.without dead).edges := by
  have halive : ∀ id, isLearning id = false → id ∉ dead := by
    intro id hplain hmem
    rw [hdead id hmem] at hplain
    exact absurd hplain (by decide)
  constructor
  · apply List.monotone_filter_right
    intro node hnode
    simpa using halive node.id (by simpa using hnode)
  · apply List.monotone_filter_right
    intro edge hedge
    simp only [Bool.and_eq_true, Bool.not_eq_true'] at hedge
    simpa using ⟨halive _ hedge.1, halive _ hedge.2⟩

theorem Remembers.isLearning_superseded (h : Remembers graph memory) (memoryKey : String) :
    ∀ id ∈ graph.superseded memoryKey, Wiki.isLearning id = true := by
  intro id hid
  apply h.isLearning
  rw [superseded, Option.mem_toList] at hid
  obtain ⟨entry, hentry, rfl⟩ := Option.map_eq_some_iff.mp hid
  exact List.mem_map_of_mem (List.mem_of_find?_eq_some hentry)

theorem Remembers.isLearning_evicted (h : Remembers graph memory) :
    ∀ id ∈ graph.evicted, Wiki.isLearning id = true := by
  intro id hid
  exact h.isLearning ((List.take_sublist _ _).map _ |>.subset hid)

theorem mem_evicted_or_queued {id : String} (h : id ∈ graph.queued) :
    id ∈ graph.evicted ∨ id ∈ graph.evict.queued := by
  have hqueued : graph.evict.queued = (graph.learningNodes.drop graph.overflow).map Prod.fst := by
    rw [evict_eq, queued]
  rw [evicted, hqueued, ← List.mem_append, ← List.map_append, List.take_append_drop]
  exact h

section Learn

variable {v : Verifiers} {record : LearningRecord}

theorem Remembers.mem_superseded_or_queued (h : Remembers graph memory)
    (hfresh : record.nodeId ∉ graph.ids) {id : String} (hid : id ∈ graph.queued) :
    id ∈ graph.superseded record.memoryKey ∨ id ∈ (graph.enlist v record).queued := by
  rw [h.queued] at hid
  obtain ⟨old, hold, rfl⟩ := List.mem_map.mp hid
  by_cases hkey : old.memoryKey = record.memoryKey
  · exact .inl ((h.mem_superseded hold _).mpr hkey)
  · right
    rw [(h.enlist v hfresh).queued]
    apply List.mem_map_of_mem
    exact List.mem_append_left _ (List.mem_filter.mpr ⟨hold, by simpa using hkey⟩)

theorem enlist_edges (v : Verifiers) (record : LearningRecord) (graph : WikiGraph)
    {edge : WikiEdge} (hedge : edge ∈ (graph.enlist v record).edges) :
    edge ∈ (graph.without (graph.superseded record.memoryKey)).edges ∨
      edge.fromId ∈ (graph.enlist v record).ids ∧ edge.toId ∈ (graph.enlist v record).ids := by
  rw [enlist, supersede_eq] at hedge
  rcases List.mem_append.mp hedge with hedge | hedge
  · exact .inl hedge
  · right
    have hself : record.nodeId ∈ (graph.enlist v record).ids := by
      rw [enlist, ids, List.map_append]
      exact List.mem_append_right _ (List.mem_singleton.mpr rfl)
    rw [recipeEdges] at hedge
    split at hedge
    · rename_i hrecipe
      have hmem : record.recipeId ∈ (graph.enlist v record).ids := by
        rw [enlist, supersede_eq]
        exact hasNode_iff.mp hrecipe
      rcases List.mem_cons.mp hedge with rfl | hedge
      · exact ⟨hmem, hself⟩
      · split at hedge
        · rw [List.mem_singleton.mp hedge]
          exact ⟨hself, hmem⟩
        · exact absurd hedge List.not_mem_nil
    · exact absurd hedge List.not_mem_nil

theorem Remembers.released_add (h : Remembers graph memory) (hvalid : record.validate v = .ok ())
    (hfresh : record.nodeId ∉ graph.ids) {id : String} (hlearning : Wiki.isLearning id = true)
    (hid : id ∈ graph.queued ∨ graph.Untouched id) :
    id ∈ (graph.addLearningRecord v record).queued ∨
      (graph.addLearningRecord v record).Untouched id := by
  have henlist := h.enlist v hfresh
  have hself : record.nodeId ∈ (graph.addLearningRecord v record).queued := by
    rw [(h.add hvalid hfresh).queued]
    exact List.mem_map_of_mem (item_mem_remember (by decide) memory record)
  rw [addLearningRecord_eq hvalid hfresh] at hself ⊢
  by_cases hqueued : id ∈ (graph.enlist v record).evict.queued
  · exact .inl hqueued
  · right
    -- A node of the enlisted graph that is not in the queue after it has been popped.
    have hpopped : id ∈ (graph.enlist v record).ids → id ∈ (graph.enlist v record).evicted := by
      intro hmem
      exact (mem_evicted_or_queued ((henlist.mem_queued hlearning).mpr hmem)).resolve_right hqueued
    have hgone : id ∈ graph.queued → id ∈ graph.superseded record.memoryKey ∨
        id ∈ (graph.enlist v record).evicted := by
      intro hmem
      rcases h.mem_superseded_or_queued hfresh hmem with hmem | hmem
      · exact .inl hmem
      · exact .inr ((mem_evicted_or_queued hmem).resolve_right hqueued)
    intro edge hedge
    rcases List.mem_append.mp hedge with hedge | hedge
    · rw [evict_eq] at hedge
      obtain ⟨hedge, hapart⟩ := List.mem_filter.mp hedge
      simp only [decide_eq_true_eq] at hapart
      rcases enlist_edges v record graph hedge with hold | ⟨hfrom, hto⟩
      · obtain ⟨hold, hkept⟩ := List.mem_filter.mp hold
        simp only [decide_eq_true_eq] at hkept
        rcases hid with hid | hid
        · rcases hgone hid with hgone | hgone
          · exact ⟨fun heq => hkept.1 (heq ▸ hgone), fun heq => hkept.2 (heq ▸ hgone)⟩
          · exact ⟨fun heq => hapart.1 (heq ▸ hgone), fun heq => hapart.2 (heq ▸ hgone)⟩
        · exact hid edge hold
      · exact ⟨fun heq => hapart.1 (heq ▸ hpopped (heq ▸ hfrom)),
          fun heq => hapart.2 (heq ▸ hpopped (heq ▸ hto))⟩
    · obtain ⟨atom, hatom, rfl⟩ := List.mem_map.mp hedge
      simp only [List.mem_filter, Bool.and_eq_true] at hatom
      constructor
      · rintro rfl
        rw [isLearning_atom hatom.2.1] at hlearning
        exact absurd hlearning (by decide)
      · rintro rfl
        exact hqueued hself

theorem Remembers.keeps_add (h : Remembers graph memory) (hvalid : record.validate v = .ok ())
    (hfresh : record.nodeId ∉ graph.ids) : graph.Keeps (graph.addLearningRecord v record) := by
  have hsuperseded := sublist_without (h.isLearning_superseded record.memoryKey) graph
  have hevicted := sublist_without (h.enlist v hfresh).isLearning_evicted (graph.enlist v record)
  have hnodes : (graph.without (graph.superseded record.memoryKey)).nodes.Sublist
      (graph.enlist v record).nodes := by
    rw [WikiGraph.enlist, supersede_eq]
    exact List.sublist_append_left _ _
  have hedges : (graph.without (graph.superseded record.memoryKey)).edges.Sublist
      (graph.enlist v record).edges := by
    rw [WikiGraph.enlist, supersede_eq]
    exact List.sublist_append_left _ _
  refine ⟨fun id hlearning hid => h.released_add hvalid hfresh hlearning hid, ?_, ?_⟩
  · rw [addLearningRecord_eq hvalid hfresh, evict_eq]
    exact (filter_sublist_filter (hsuperseded.1.trans hnodes)).trans hevicted.1
  · rw [addLearningRecord_eq hvalid hfresh, evict_eq]
    exact ((filter_sublist_filter (hsuperseded.2.trans hedges)).trans hevicted.2).trans
      (List.sublist_append_left _ _)

end Learn

theorem isLearning_recipeId {v : Verifiers} {record : ProofRecord}
    (h : isPositiveEvidence v record = true) : isLearning record.recipeId = false := by
  apply isLearning_recipe
  rw [isPositiveEvidence] at h
  split at h
  · exact absurd h (by decide)
  · rw [isRecipe, List.any_eq_true]
    cases hfind : recipes.find? (·.id == record.recipeId) with
    | none =>
      rw [hfind] at h
      exact absurd h Bool.false_ne_true
    | some recipe =>
      exact ⟨recipe, List.mem_of_find?_eq_some hfind, by simpa using List.find?_some hfind⟩

theorem isLearning_recordAtom {record : ProofRecord} {atom : String}
    (h : atom ∈ authoredRecordAtoms record) : isLearning atom = false := by
  apply isLearning_atom
  rw [authoredRecordAtoms] at h
  split at h
  · exact absurd h List.not_mem_nil
  · rename_i recipe hfind
    exact isAtom_of_recipe recipe (List.mem_of_find?_eq_some hfind) atom (List.mem_of_mem_filter h)

theorem keeps_addProof (fingerprint : ProofRecord → UInt64) (v : Verifiers) (record : ProofRecord)
    (graph : WikiGraph) : graph.Keeps (graph.addProofRecord fingerprint v record) := by
  rw [addProofRecord]
  split
  · exact .refl graph
  · rename_i hadded
    rw [not_or, Bool.not_eq_false] at hadded
    refine ⟨fun id hlearning hid => ?_,
      List.filter_sublist.trans (List.sublist_append_left _ _),
      List.filter_sublist.trans (List.sublist_append_left _ _)⟩
    rcases hid with hid | hid
    · exact .inl hid
    · right
      have hapart : ∀ other, isLearning other = false → other ≠ id := by
        rintro other hother rfl
        rw [hother] at hlearning
        exact absurd hlearning (by decide)
      have hself := hapart _
        (isLearning_proofNodeId fingerprint record (authoredRecordAtoms record))
      have hrecipe := hapart _ (isLearning_recipeId hadded.1)
      intro edge hedge
      rcases List.mem_append.mp hedge with hedge | hedge
      · exact hid edge hedge
      · rw [proofEdges] at hedge
        rcases List.mem_append.mp hedge with hedge | hedge
        · rcases List.mem_cons.mp hedge with rfl | hedge
          · exact ⟨hself, hrecipe⟩
          · rw [List.mem_singleton.mp hedge]
            exact ⟨hrecipe, hself⟩
        · obtain ⟨atom, hatom, rfl⟩ := List.mem_map.mp hedge
          exact ⟨hapart _ (isLearning_recordAtom hatom), hself⟩

/-- The queue is as long as its limit allows, its places name the learning nodes of the graph one by
one, and no two have a memory key in common. -/
structure Tidy (graph : WikiGraph) : Prop where
  bound : graph.learningNodes.length ≤ defaultGraphMemoryLimit
  named : graph.queued = (graph.nodes.filter fun node => isLearning node.id).map WikiNode.id
  distinct : graph.queued.Nodup
  keys : (graph.learningNodes.map Prod.snd).Nodup

theorem Remembers.tidy (h : Remembers graph memory)
    (hlength : memory.length ≤ defaultGraphMemoryLimit) : graph.Tidy := by
  constructor
  · rw [h.queue, List.length_map]
    exact hlength
  · rw [h.queued, h.nodes, List.map_map]
    rfl
  · rw [h.queued]
    exact h.ids
  · rw [h.queue, List.map_map]
    exact List.pairwise_map.mpr h.keys

end WikiGraph

section Runs

variable {fingerprint : ProofRecord → UInt64} {graph : WikiGraph} {memory : List LearningRecord}

open WikiGraph

theorem apply_keeps (h : graph.Remembers memory)
    (hlength : memory.length ≤ defaultGraphMemoryLimit) (call : Call) :
    graph.Keeps (call.apply fingerprint graph) ∧ ∃ memory',
      (call.apply fingerprint graph).Remembers memory' ∧
        memory'.length ≤ defaultGraphMemoryLimit := by
  cases call with
  | prove v record =>
    exact ⟨keeps_addProof fingerprint v record graph, memory, h.addProof fingerprint v record,
      hlength⟩
  | learn v record =>
    rw [Call.apply]
    by_cases hadded : record.validate v = .ok () ∧ record.nodeId ∉ graph.ids
    · exact ⟨h.keeps_add hadded.1 hadded.2, _, h.add hadded.1 hadded.2, length_remember _ _⟩
    · rw [addLearningRecord_refused hadded]
      exact ⟨.refl graph, memory, h, hlength⟩

theorem run_keeps (h : graph.Remembers memory)
    (hlength : memory.length ≤ defaultGraphMemoryLimit) (calls : List Call) :
    graph.Keeps (runCalls fingerprint calls graph) ∧ ∃ memory',
      (runCalls fingerprint calls graph).Remembers memory' ∧
        memory'.length ≤ defaultGraphMemoryLimit := by
  induction calls generalizing graph memory with
  | nil => exact ⟨.refl graph, memory, h, hlength⟩
  | cons call calls ih =>
    obtain ⟨hkeeps, memory', hmemory, hbound⟩ := @apply_keeps fingerprint _ _ h hlength call
    obtain ⟨hrest, hafter⟩ := ih hmemory hbound
    exact ⟨hkeeps.trans hrest, hafter⟩

end Runs

def WikiGraph.isPlainEdge (graph : WikiGraph) (edge : WikiEdge) : Bool :=
  [edge.fromId, edge.toId].all fun id => decide (id ∈ graph.ids ∧ id ∉ graph.queued)

/-- From any graph that is built, in every state of a run of calls: the queue is tidy; an id that
was in the queue before and is not any more is at no edge; and the nodes that were no learning
nodes, and the edges between them, are still there. -/
theorem memory_kept (unicode : RustUnicode) (fingerprint : ProofRecord → UInt64)
    (graph : WikiGraph) (hbuilt : Built unicode graph) (earlier later : List Call) :
    (runCalls fingerprint (earlier ++ later) graph).Tidy ∧
      (∀ id ∈ (runCalls fingerprint earlier graph).queued,
        id ∉ (runCalls fingerprint (earlier ++ later) graph).queued →
          (runCalls fingerprint (earlier ++ later) graph).Untouched id) ∧
      ((runCalls fingerprint earlier graph).nodes.filter fun node =>
        node.id ∉ (runCalls fingerprint earlier graph).queued).Sublist
          (runCalls fingerprint (earlier ++ later) graph).nodes ∧
      ((runCalls fingerprint earlier graph).edges.filter
        (runCalls fingerprint earlier graph).isPlainEdge).Sublist
          (runCalls fingerprint (earlier ++ later) graph).edges := by
  obtain ⟨-, memory, hbefore, hlength⟩ :=
    @run_keeps fingerprint _ _ hbuilt.remembers (Nat.zero_le _) earlier
  obtain ⟨hkeeps, memory', hafter, hbound⟩ := @run_keeps fingerprint _ _ hbefore hlength later
  have hsplit : runCalls fingerprint later (runCalls fingerprint earlier graph) =
      runCalls fingerprint (earlier ++ later) graph := List.foldl_append.symm
  rw [hsplit] at hkeeps hafter
  have hplain : ∀ id ∈ (runCalls fingerprint earlier graph).ids,
      id ∉ (runCalls fingerprint earlier graph).queued → isLearning id = false := by
    intro id hid hqueued
    by_contra hlearning
    exact hqueued ((hbefore.mem_queued (by simpa using hlearning)).mpr hid)
  refine ⟨hafter.tidy hbound, ?_, ?_, ?_⟩
  · intro id hid hgone
    exact (hkeeps.released id (hbefore.isLearning hid) (.inl hid)).resolve_left hgone
  · have hfilter : ((runCalls fingerprint earlier graph).nodes.filter fun node =>
        node.id ∉ (runCalls fingerprint earlier graph).queued) =
          (runCalls fingerprint earlier graph).plainNodes := by
      apply List.filter_congr
      intro node hnode
      have hmem : node.id ∈ (runCalls fingerprint earlier graph).ids := List.mem_map_of_mem hnode
      cases hlearning : isLearning node.id with
      | false => simpa using fun hqueued => by simp [hbefore.isLearning hqueued] at hlearning
      | true => simpa using (hbefore.mem_queued hlearning).mpr hmem
    rw [hfilter]
    exact hkeeps.nodes
  · refine (List.monotone_filter_right _ fun edge hedge => ?_).trans hkeeps.edges
    simp only [WikiGraph.isPlainEdge, List.all_cons, List.all_nil, Bool.and_true, Bool.and_eq_true,
      decide_eq_true_eq] at hedge
    simp [hplain _ hedge.1.1 hedge.1.2, hplain _ hedge.2.1 hedge.2.2]

theorem memory_kept_sample :
    (runCalls (fun _ => 0) ([.learn noEvidence (sampleLesson "a1")] ++
      [.learn noEvidence (sampleLesson "a2")]) .seeded).Untouched "learning:failed:a1" :=
  (memory_kept asciiUnicode (fun _ => 0) .seeded .seeded [.learn noEvidence (sampleLesson "a1")]
    [.learn noEvidence (sampleLesson "a2")]).2.1 _ (by decide +kernel) (by decide +kernel)

end AtomVibe.Wiki
