import AtomVibe.Foundations.Recency
import AtomVibe.WikiMemory

namespace AtomVibe.Wiki

open Checked Text Doctrine Learning Proof Recency

def isLearning (id : String) : Bool := startsWith "learning:" id

theorem isLearning_nodeId (record : LearningRecord) : isLearning record.nodeId = true := by
  simp [isLearning, startsWith, LearningRecord.nodeId, String.toList_append]

theorem isLearning_of_start {start id : String} (hstart : start = "wiki:" ∨ start = "proof:")
    (h : start.toList.isPrefixOf id.toList = true) : isLearning id = false := by
  rw [List.isPrefixOf_iff_prefix] at h
  obtain ⟨rest, hrest⟩ := h
  rw [isLearning, startsWith, ← hrest]
  rcases hstart with rfl | rfl <;> rfl

theorem isLearning_proofNodeId (fingerprint : ProofRecord → UInt64) (record : ProofRecord)
    (recordAtoms : List String) :
    isLearning (proofNodeId fingerprint record recordAtoms) = false := by
  apply @isLearning_of_start "proof:" _ (.inr rfl)
  rw [proofNodeId, String.toList_append, List.isPrefixOf_iff_prefix]
  exact List.prefix_append _ _

theorem isLearning_doctrine : (∀ atom ∈ atoms, isLearning atom.key = false) ∧
    ∀ recipe ∈ recipes, isLearning recipe.id = false := by decide +kernel

theorem isLearning_atom {atom : String} (h : isAtom atom = true) : isLearning atom = false := by
  obtain ⟨found, hfound, hkey⟩ := List.any_eq_true.mp h
  rw [← beq_iff_eq.mp hkey]
  exact isLearning_doctrine.1 found hfound

theorem isLearning_recipe {id : String} (h : isRecipe id = true) : isLearning id = false := by
  obtain ⟨found, hfound, hid⟩ := List.any_eq_true.mp h
  rw [← beq_iff_eq.mp hid]
  exact isLearning_doctrine.2 found hfound

namespace WikiGraph

variable {graph : WikiGraph}

def queued (graph : WikiGraph) : List String := graph.learningNodes.map Prod.fst

def without (dead : List String) (graph : WikiGraph) : WikiGraph :=
  { graph with
    nodes := graph.nodes.filter fun node => node.id ∉ dead
    edges := graph.edges.filter fun edge => edge.fromId ∉ dead ∧ edge.toId ∉ dead }

theorem removeNode_eq (id : String) (graph : WikiGraph) :
    graph.removeNode id = graph.without [id] := by
  simp [removeNode, without]

theorem without_nil (graph : WikiGraph) : graph.without [] = graph := by
  simp [without]

theorem without_without (dead dead' : List String) (graph : WikiGraph) :
    (graph.without dead).without dead' = graph.without (dead ++ dead') := by
  simp only [without, List.filter_filter, List.mem_append, not_or]
  congr 1
  · apply List.filter_congr
    intro node _
    rw [Bool.eq_iff_iff]
    simp only [Bool.and_eq_true, decide_eq_true_eq]
    exact and_comm
  · apply List.filter_congr
    intro edge _
    rw [Bool.eq_iff_iff]
    simp only [Bool.and_eq_true, decide_eq_true_eq]
    tauto

def superseded (memoryKey : String) (graph : WikiGraph) : List String :=
  ((graph.learningNodes.find? (·.2 == memoryKey)).map Prod.fst).toList

def overflow (graph : WikiGraph) : ℕ := graph.learningNodes.length - defaultGraphMemoryLimit

def evicted (graph : WikiGraph) : List String :=
  (graph.learningNodes.take graph.overflow).map Prod.fst

theorem supersede_eq (memoryKey : String) (graph : WikiGraph) :
    graph.supersede memoryKey = { graph.without (graph.superseded memoryKey) with
      learningNodes := graph.learningNodes.eraseP (·.2 == memoryKey) } := by
  rw [supersede, superseded]
  cases hfind : graph.learningNodes.find? (·.2 == memoryKey) with
  | none =>
    have herase : graph.learningNodes.eraseP (·.2 == memoryKey) = graph.learningNodes :=
      List.eraseP_of_forall_not fun entry hentry => List.find?_eq_none.mp hfind entry hentry
    rw [herase]
    exact (without_nil graph).symm
  | some entry => exact removeNode_eq entry.1 _

theorem evictFrom_eq (queue : List (String × String)) (graph : WikiGraph) :
    evictFrom queue graph =
      { graph.without ((queue.take (queue.length - defaultGraphMemoryLimit)).map Prod.fst) with
        learningNodes := queue.drop (queue.length - defaultGraphMemoryLimit) } := by
  induction queue generalizing graph with
  | nil =>
    rw [evictFrom]
    simp [without_nil]
  | cons entry queue ih =>
    rw [evictFrom]
    split
    · rename_i hlimit
      have hcount : (entry :: queue).length - defaultGraphMemoryLimit =
          queue.length - defaultGraphMemoryLimit + 1 := by
        rw [List.length_cons]
        omega
      rw [ih, removeNode_eq, without_without, hcount, List.take_succ_cons, List.drop_succ_cons]
      rfl
    · rename_i hlimit
      have hcount : (entry :: queue).length - defaultGraphMemoryLimit = 0 := by
        rw [List.length_cons]
        omega
      rw [hcount, List.take_zero, List.map_nil, without_nil, List.drop_zero]

theorem evict_eq (graph : WikiGraph) :
    graph.evict = { graph.without graph.evicted with
      learningNodes := graph.learningNodes.drop graph.overflow } :=
  evictFrom_eq graph.learningNodes graph

structure Remembers (graph : WikiGraph) (memory : List LearningRecord) : Prop where
  nodes : graph.nodes.filter (fun node => isLearning node.id) = memory.map learningNode
  queue : graph.learningNodes = memory.map queueEntry
  ids : (memory.map LearningRecord.nodeId).Nodup
  keys : memory.Pairwise fun a b => a.memoryKey ≠ b.memoryKey

section Memory

variable {memory : List LearningRecord}

theorem Remembers.queued (h : Remembers graph memory) :
    graph.queued = memory.map LearningRecord.nodeId := by
  rw [WikiGraph.queued, h.queue, List.map_map]
  rfl

theorem Remembers.mem_queued (h : Remembers graph memory) {id : String}
    (hlearning : isLearning id = true) : id ∈ graph.queued ↔ id ∈ graph.ids := by
  have hfilter : (graph.nodes.filter fun node => isLearning node.id).map WikiNode.id =
      memory.map LearningRecord.nodeId := by
    rw [h.nodes, List.map_map]
    rfl
  rw [h.queued, ← hfilter, WikiGraph.ids]
  simp only [List.mem_map, List.mem_filter]
  constructor
  · rintro ⟨node, ⟨hnode, -⟩, rfl⟩
    exact ⟨node, hnode, rfl⟩
  · rintro ⟨node, hnode, rfl⟩
    exact ⟨node, ⟨hnode, hlearning⟩, rfl⟩

theorem Remembers.isLearning (h : Remembers graph memory) {id : String} (hid : id ∈ graph.queued) :
    isLearning id = true := by
  rw [h.queued] at hid
  obtain ⟨record, -, rfl⟩ := List.mem_map.mp hid
  exact isLearning_nodeId record

theorem Remembers.mem_superseded (h : Remembers graph memory) {record : LearningRecord}
    (hrecord : record ∈ memory) (memoryKey : String) :
    record.nodeId ∈ graph.superseded memoryKey ↔ record.memoryKey = memoryKey := by
  have hfind : graph.learningNodes.find? (·.2 == memoryKey) =
      (memory.find? fun old => old.memoryKey == memoryKey).map queueEntry := by
    rw [h.queue, List.find?_map]
    rfl
  rw [superseded, hfind, Option.map_map, Option.mem_toList]
  constructor
  · intro hmem
    obtain ⟨found, hfound, hid⟩ := Option.map_eq_some_iff.mp hmem
    obtain rfl := List.inj_on_of_nodup_map h.ids (List.mem_of_find?_eq_some hfound) hrecord hid
    simpa using List.find?_some hfound
  · intro hkey
    obtain ⟨found, hfound⟩ : ∃ found, memory.find? (fun old => old.memoryKey == memoryKey) =
        some found := by
      rw [← Option.isSome_iff_exists, List.find?_isSome]
      exact ⟨record, hrecord, by simpa using hkey⟩
    have hfoundKey : found.memoryKey = memoryKey := by simpa using List.find?_some hfound
    have hsame := key_inj h.keys (List.mem_of_find?_eq_some hfound) hrecord
      (hfoundKey.trans hkey.symm)
    rw [hfound, hsame]
    rfl

theorem Remembers.filter_without (h : Remembers graph memory) {dead : List String}
    {kept : LearningRecord → Bool}
    (hkept : ∀ record ∈ memory, record.nodeId ∉ dead ↔ kept record = true) :
    (graph.without dead).nodes.filter (fun node => Wiki.isLearning node.id) =
      (memory.filter kept).map learningNode := by
  have hswap : (graph.without dead).nodes.filter (fun node => Wiki.isLearning node.id) =
      (graph.nodes.filter fun node => Wiki.isLearning node.id).filter
        fun node => node.id ∉ dead := by
    simp only [without, List.filter_filter]
    apply List.filter_congr
    intro node _
    exact Bool.and_comm _ _
  rw [hswap, h.nodes, List.filter_map]
  congr 1
  apply List.filter_congr
  intro record hrecord
  rw [Bool.eq_iff_iff, ← hkept record hrecord]
  exact decide_eq_true_iff

theorem Remembers.supersede (h : Remembers graph memory) (memoryKey : String) :
    Remembers (graph.supersede memoryKey)
      (memory.filter fun old => old.memoryKey ≠ memoryKey) := by
  rw [supersede_eq]
  constructor
  · apply h.filter_without
    intro record hrecord
    rw [h.mem_superseded hrecord, decide_eq_true_eq]
  · rw [h.queue, List.eraseP_map]
    exact congrArg (List.map queueEntry) (eraseP_eq_filter h.keys memoryKey)
  · exact h.ids.sublist (List.filter_sublist.map _)
  · exact h.keys.filter _

theorem Remembers.push (h : Remembers graph memory) {record : LearningRecord}
    (hid : record.nodeId ∉ memory.map LearningRecord.nodeId)
    (hkey : ∀ old ∈ memory, old.memoryKey ≠ record.memoryKey) (edges : List WikiEdge) :
    Remembers ⟨graph.nodes ++ [learningNode record], edges,
      graph.learningNodes ++ [queueEntry record]⟩ (memory ++ [record]) := by
  constructor
  · have hlearning : Wiki.isLearning (learningNode record).id = true := isLearning_nodeId record
    rw [List.filter_append, h.nodes, List.filter_cons_of_pos (by simpa using hlearning),
      List.map_append]
    rfl
  · rw [h.queue, List.map_append]
    rfl
  · rw [List.map_append, List.nodup_append]
    refine ⟨h.ids, List.nodup_singleton _, ?_⟩
    rintro id hold other hother rfl
    rw [List.map_singleton, List.mem_singleton] at hother
    exact hid (hother ▸ hold)
  · rw [List.pairwise_append]
    refine ⟨h.keys, List.pairwise_singleton _ _, fun old hold other hother => ?_⟩
    rw [List.mem_singleton.mp hother]
    exact hkey old hold

theorem Remembers.evict (h : Remembers graph memory) :
    Remembers graph.evict (memory.rtake defaultGraphMemoryLimit) := by
  have hlength : graph.learningNodes.length = memory.length := by rw [h.queue, List.length_map]
  have hdrop : memory.rtake defaultGraphMemoryLimit = memory.drop graph.overflow := by
    rw [List.rtake, overflow, hlength]
  have hevicted : graph.evicted = (memory.take graph.overflow).map LearningRecord.nodeId := by
    rw [evicted, h.queue, List.map_take, List.map_map, List.map_take]
    rfl
  have hnodes := @Remembers.filter_without _ _ h graph.evicted
    (fun record => record.nodeId ∉ (memory.take graph.overflow).map LearningRecord.nodeId)
    fun record _ => by rw [hevicted, decide_eq_true_eq]
  rw [evict_eq, hdrop]
  constructor
  · rw [← filter_not_mem_take h.ids graph.overflow]
    exact hnodes
  · rw [h.queue, List.map_drop]
  · exact h.ids.sublist ((List.drop_sublist _ _).map _)
  · exact h.keys.sublist (List.drop_sublist _ _)

def enlist (v : Verifiers) (record : LearningRecord) (graph : WikiGraph) : WikiGraph :=
  let kept := graph.supersede record.memoryKey
  let nodes := kept.nodes ++ [learningNode record]
  ⟨nodes, kept.edges ++ recipeEdges v record { kept with nodes },
    kept.learningNodes ++ [queueEntry record]⟩

theorem addLearningRecord_eq {v : Verifiers} {record : LearningRecord}
    (hvalid : record.validate v = .ok ()) (hfresh : record.nodeId ∉ graph.ids) :
    graph.addLearningRecord v record = { (graph.enlist v record).evict with
      edges := (graph.enlist v record).evict.edges ++
        (graph.enlist v record).evict.atomEdges record } := by
  have hnode := hasNode_eq_false_iff.mpr hfresh
  rw [addLearningRecord, if_neg]
  · rfl
  · rw [hvalid, hnode]
    rintro (h | h) <;> exact absurd h (by decide)

theorem addLearningRecord_refused {v : Verifiers} {record : LearningRecord}
    (h : ¬(record.validate v = .ok () ∧ record.nodeId ∉ graph.ids)) :
    graph.addLearningRecord v record = graph := by
  rw [addLearningRecord, if_pos]
  by_contra hadded
  rw [not_or] at hadded
  apply h
  constructor
  · cases hvalidate : record.validate v with
    | ok u => rfl
    | error reason =>
      rw [hvalidate] at hadded
      exact absurd rfl hadded.1
  · rw [← hasNode_eq_false_iff]
    simpa using hadded.2

theorem Remembers.enlist (h : Remembers graph memory) (v : Verifiers) {record : LearningRecord}
    (hfresh : record.nodeId ∉ graph.ids) : Remembers (graph.enlist v record)
      (memory.filter (fun old => old.memoryKey ≠ record.memoryKey) ++ [record]) := by
  apply (h.supersede record.memoryKey).push
  · intro hmem
    rw [← h.mem_queued (isLearning_nodeId record), h.queued] at hfresh
    exact hfresh ((List.filter_sublist.map _).subset hmem)
  · intro old hold
    simpa using (List.mem_filter.mp hold).2

theorem Remembers.add (h : Remembers graph memory) {v : Verifiers} {record : LearningRecord}
    (hvalid : record.validate v = .ok ()) (hfresh : record.nodeId ∉ graph.ids) :
    Remembers (graph.addLearningRecord v record)
      (remember LearningRecord.memoryKey defaultGraphMemoryLimit memory record) := by
  have hevict := (h.enlist v hfresh).evict
  rw [addLearningRecord_eq hvalid hfresh]
  exact ⟨hevict.nodes, hevict.queue, hevict.ids, hevict.keys⟩

theorem Remembers.addProof (h : Remembers graph memory) (fingerprint : ProofRecord → UInt64)
    (v : Verifiers) (record : ProofRecord) :
    Remembers (graph.addProofRecord fingerprint v record) memory := by
  rw [addProofRecord]
  split
  · exact h
  · refine ⟨?_, h.queue, h.ids, h.keys⟩
    have hproof := isLearning_proofNodeId fingerprint record (authoredRecordAtoms record)
    rw [List.filter_append, h.nodes, List.filter_cons_of_neg (by simpa [proofNode] using hproof),
      List.filter_nil, List.append_nil]

theorem Remembers.addRecords (v : Verifiers) {records : List LearningRecord}
    (hvalid : ∀ record ∈ records, record.validate v = .ok ())
    (hids : (records.map LearningRecord.id).Nodup) (h : Remembers graph memory)
    (hnew : ∀ record ∈ records, record.id ∉ memory.map LearningRecord.id) :
    Remembers (graph.addLearningRecords v records)
      (records.foldl (remember LearningRecord.memoryKey defaultGraphMemoryLimit) memory) := by
  induction records generalizing graph memory with
  | nil => exact h
  | cons record records ih =>
    rw [List.map_cons, List.nodup_cons] at hids
    have hfresh : record.nodeId ∉ graph.ids := by
      rw [← h.mem_queued (isLearning_nodeId record), h.queued]
      intro hmem
      obtain ⟨old, hold, hsame⟩ := List.mem_map.mp hmem
      have hid := (LearningRecord.nodeId_injective hsame).2
      exact hnew record List.mem_cons_self (hid ▸ List.mem_map_of_mem hold)
    have hadd := h.add (hvalid record List.mem_cons_self) hfresh
    rw [addLearningRecords, List.foldl_cons, List.foldl_cons]
    refine ih (fun other hother => hvalid other (List.mem_cons_of_mem _ hother)) hids.2 hadd ?_
    intro other hother hmem
    obtain ⟨old, hold, hsame⟩ := List.mem_map.mp hmem
    rcases mem_remember hold with hold | rfl
    · exact hnew other (List.mem_cons_of_mem _ hother) (hsame ▸ List.mem_map_of_mem hold)
    · exact hids.1 (hsame ▸ List.mem_map_of_mem hother)

end Memory

end WikiGraph

section Selection

theorem selectLatest_eq {limit : ℕ} (records : List LearningRecord) {seen : List String}
    {selected : List LearningRecord}
    (hseen : ∀ key, key ∈ seen ↔ key ∈ selected.map LearningRecord.memoryKey)
    (hkeys : selected.Pairwise fun a b => a.memoryKey ≠ b.memoryKey)
    (hlength : selected.length < limit) : selectLatest limit records seen selected =
      (latest LearningRecord.memoryKey (records.reverse ++ selected)).rtake limit := by
  induction records generalizing seen selected with
  | nil => rw [selectLatest, List.reverse_nil, List.nil_append, latest_of_pairwise hkeys,
      rtake_of_length_le (Nat.le_of_lt hlength)]
  | cons record records ih =>
    rw [selectLatest, List.reverse_cons, List.append_assoc, List.singleton_append]
    by_cases hkey : record.memoryKey ∈ seen
    · have hskip : latest LearningRecord.memoryKey (record :: selected) =
          latest LearningRecord.memoryKey selected := by
        rw [latest_cons, if_neg]
        intro hall
        obtain ⟨old, hold, hsame⟩ := List.mem_map.mp ((hseen _).mp hkey)
        rw [latest_of_pairwise hkeys] at hall
        exact hall old hold hsame.symm
      rw [if_pos hkey, ih hseen hkeys hlength, latest_append_congr _ hskip]
    · have hmore : (record :: selected).Pairwise fun a b => a.memoryKey ≠ b.memoryKey := by
        rw [List.pairwise_cons]
        refine ⟨fun old hold hsame => hkey ?_, hkeys⟩
        exact (hseen _).mpr (hsame ▸ List.mem_map_of_mem hold)
      rw [if_neg hkey]
      split
      · rename_i hlimit
        obtain ⟨front, hfront⟩ :=
          @exists_latest_append _ _ _ LearningRecord.memoryKey records.reverse (record :: selected)
        rw [hfront, latest_of_pairwise hmore,
          rtake_append_of_le (by rw [List.length_cons, hlimit]),
          rtake_of_length_le (by rw [List.length_cons, hlimit])]
      · rename_i hlimit
        apply ih _ hmore (by rw [List.length_cons]; omega)
        intro key
        rw [List.mem_cons, hseen, List.map_cons, List.mem_cons]

theorem effectiveRecords_eq (records : List LearningRecord) (limit : ℕ) :
    effectiveRecords records limit =
      (latest LearningRecord.memoryKey records).rtake limit := by
  rw [effectiveRecords]
  split
  · rename_i hlimit
    rw [hlimit, List.rtake_zero]
  · rename_i hlimit
    rw [selectLatest_eq _ (by simp) List.Pairwise.nil (by rw [List.length_nil]; omega),
      List.reverse_reverse, List.append_nil]

end Selection

/-- The graphs that lessons and proofs are added to. -/
inductive Built (unicode : RustUnicode) : WikiGraph → Prop
  | seeded : Built unicode .seeded
  | markdown {root : WikiDir} {graph : WikiGraph}
      (h : fromMarkdownDir unicode root = .ok graph) : Built unicode graph

section Bases

variable {unicode : RustUnicode} {graph graph' : WikiGraph}

theorem Loaded.plain {documents : List Document} (h : Loaded unicode graph documents graph') :
    graph'.learningNodes = graph.learningNodes ∧
      ((∀ id ∈ graph.ids, isLearning id = false) → ∀ id ∈ graph'.ids, isLearning id = false) := by
  induction h with
  | nil => exact ⟨rfl, fun h => h⟩
  | cons start fresh _ ih =>
    refine ⟨ih.1, fun hgraph => ih.2 fun id hid => ?_⟩
    rw [ids_addDocument, List.mem_append] at hid
    rcases hid with hid | hid
    · exact hgraph id hid
    · exact isLearning_of_start (.inl rfl) (start_sectionId start hid)

theorem remembers_nil (hqueue : graph.learningNodes = [])
    (hids : ∀ id ∈ graph.ids, isLearning id = false) : graph.Remembers [] := by
  refine ⟨?_, hqueue, List.nodup_nil, List.Pairwise.nil⟩
  rw [List.map_nil, List.filter_eq_nil_iff]
  intro node hnode
  rw [hids node.id (List.mem_map_of_mem hnode)]
  exact Bool.false_ne_true

theorem isLearning_seeded : ∀ id ∈ WikiGraph.seeded.ids, isLearning id = false :=
  fun id hid => WikiGraph.seeded_apart id hid "learning:" (by decide)

theorem Built.remembers (h : Built unicode graph) : graph.Remembers [] := by
  cases h with
  | seeded => exact remembers_nil rfl isLearning_seeded
  | markdown h =>
    obtain ⟨documents, -, hloaded⟩ := loadMarkdownDir_ok h
    exact remembers_nil hloaded.plain.1 (hloaded.plain.2 isLearning_seeded)

end Bases

def addBatches (batches : List (Verifiers × List LearningRecord)) (graph : WikiGraph) : WikiGraph :=
  batches.foldl (fun graph batch => graph.addLearningRecords batch.1 batch.2) graph

theorem remembers_addBatches {graph : WikiGraph} {memory : List LearningRecord}
    {batches : List (Verifiers × List LearningRecord)} (h : graph.Remembers memory)
    (hvalid : ∀ batch ∈ batches, ∀ record ∈ batch.2, record.validate batch.1 = .ok ())
    (hids : ((batches.flatMap Prod.snd).map LearningRecord.id).Nodup)
    (hnew : ∀ record ∈ batches.flatMap Prod.snd, record.id ∉ memory.map LearningRecord.id) :
    (addBatches batches graph).Remembers ((batches.flatMap Prod.snd).foldl
      (remember LearningRecord.memoryKey defaultGraphMemoryLimit) memory) := by
  induction batches generalizing graph memory with
  | nil => exact h
  | cons batch batches ih =>
    rw [List.flatMap_cons, List.map_append, List.nodup_append] at hids
    rw [List.flatMap_cons] at hnew
    rw [List.flatMap_cons, List.foldl_append]
    apply ih _ (fun other hother => hvalid other (List.mem_cons_of_mem _ hother)) hids.2.1
    · intro record hrecord hmem
      obtain ⟨old, hold, hsame⟩ := List.mem_map.mp hmem
      rcases mem_foldl_remember hold with hold | hold
      · exact hnew record (List.mem_append_right _ hrecord) (hsame ▸ List.mem_map_of_mem hold)
      · exact hids.2.2 _ (List.mem_map_of_mem hold) _ (List.mem_map_of_mem hrecord) hsame
    · exact h.addRecords batch.1 (hvalid batch List.mem_cons_self) hids.1
        fun record hrecord => hnew record (List.mem_append_left _ hrecord)

/-- Valid lessons with different ids, however the calls divide them: the learning nodes are those of
the lessons that `effective_records` selects of them all, in their order, and so is the queue. -/
theorem learning_nodes_effective (unicode : RustUnicode) (graph : WikiGraph)
    (hbuilt : Built unicode graph) (batches : List (Verifiers × List LearningRecord))
    (hvalid : ∀ batch ∈ batches, ∀ record ∈ batch.2, record.validate batch.1 = .ok ())
    (hids : ((batches.flatMap Prod.snd).map LearningRecord.id).Nodup) :
    (addBatches batches graph).nodes.filter (fun node => isLearning node.id) =
        (effectiveRecords (batches.flatMap Prod.snd) defaultGraphMemoryLimit).map learningNode ∧
      (addBatches batches graph).learningNodes =
        (effectiveRecords (batches.flatMap Prod.snd) defaultGraphMemoryLimit).map queueEntry := by
  have h := remembers_addBatches hbuilt.remembers hvalid hids (by simp)
  rw [foldl_remember, ← effectiveRecords_eq] at h
  exact ⟨h.nodes, h.queue⟩

theorem learning_nodes_effective_sample :
    (addBatches [(noEvidence, [sampleLesson "a1", sampleLesson "a2"]), (noEvidence, [])]
      .seeded).learningNodes =
        (effectiveRecords [sampleLesson "a1", sampleLesson "a2"] 256).map queueEntry :=
  (learning_nodes_effective asciiUnicode .seeded .seeded
    [(noEvidence, [sampleLesson "a1", sampleLesson "a2"]), (noEvidence, [])]
    (by simp; exact ⟨rfl, rfl⟩) (by decide)).2

end AtomVibe.Wiki
