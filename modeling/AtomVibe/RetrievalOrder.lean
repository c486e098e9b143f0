import AtomVibe.Foundations.Searches
import AtomVibe.WikiRuns
import Mathlib.Algebra.Order.BigOperators.Group.List
import Mathlib.Algebra.Order.Ring.Int

namespace AtomVibe.Wiki

open Learning Proof RankedTake

inductive Grown (unicode : RustUnicode) (fingerprint : ProofRecord → UInt64) : WikiGraph → Prop
  | built {graph : WikiGraph} (h : Built unicode graph) : Grown unicode fingerprint graph
  | call {graph : WikiGraph} (h : Grown unicode fingerprint graph) (call : Call) :
    Grown unicode fingerprint (call.apply fingerprint graph)

def WikiEdge.Light (edge : WikiEdge) : Prop := 0 ≤ edge.weight ∧ edge.weight ≤ 9

theorem WikiEdge.Light.mk {fromId toId : String} {weight : ℤ} (h : 0 ≤ weight ∧ weight ≤ 9) :
    (WikiEdge.mk fromId toId weight).Light := h

namespace WikiGraph

variable {unicode : RustUnicode} {graph graph' : WikiGraph}

def Weighted (graph : WikiGraph) : Prop := ∀ edge ∈ graph.edges, edge.Light

theorem weighted_seeded : Weighted seeded := by
  have hstatic : ∀ edge ∈ staticEdges, 0 ≤ edge.weight ∧ edge.weight ≤ 9 := by decide
  intro edge hedge
  rcases List.mem_append.mp hedge with hedge | hedge
  · exact hstatic edge hedge
  · obtain ⟨recipe, -, hedge⟩ := List.mem_flatMap.mp hedge
    obtain ⟨atom, -, rfl⟩ := List.mem_map.mp hedge
    exact .mk (by decide)

theorem weighted_sectionEdges (id : String) (prior : Option String)
    (sections : List (String × String)) :
    ∀ edge ∈ Document.sectionEdges id prior sections, edge.Light := by
  induction sections generalizing prior with
  | nil => exact fun edge hedge => absurd hedge List.not_mem_nil
  | cons part rest ih =>
    intro edge hedge
    rw [Document.sectionEdges, List.mem_append, List.mem_append, List.mem_append] at hedge
    rcases hedge with ((hedge | hedge) | hedge) | hedge
    · obtain rfl := List.mem_singleton.mp hedge
      exact .mk (by decide)
    · obtain ⟨before, -, rfl⟩ := List.mem_map.mp hedge
      exact .mk (by decide)
    · obtain ⟨link, -, rfl⟩ := List.mem_map.mp hedge
      exact .mk (by decide)
    · exact ih _ edge hedge

theorem Weighted.addDocument (h : graph.Weighted) (document : Document) :
    (graph.addDocument unicode document).Weighted := by
  intro edge hedge
  rcases List.mem_append.mp hedge with hedge | hedge
  · exact h edge hedge
  · rcases List.mem_append.mp hedge with hedge | hedge
    · obtain ⟨link, -, rfl⟩ := List.mem_map.mp hedge
      exact .mk (by decide)
    · exact weighted_sectionEdges _ _ _ edge hedge

theorem Weighted.loaded (h : graph.Weighted) {documents : List Document}
    (hloaded : Loaded unicode graph documents graph') : graph'.Weighted := by
  induction hloaded with
  | nil => exact h
  | cons _ _ _ ih => exact ih (h.addDocument _)

theorem Weighted.without (h : graph.Weighted) (dead : List String) :
    (graph.without dead).Weighted :=
  fun edge hedge => h edge (List.mem_of_mem_filter hedge)

theorem Weighted.addProofRecord (h : graph.Weighted) (fingerprint : ProofRecord → UInt64)
    (v : Verifiers) (record : ProofRecord) :
    (graph.addProofRecord fingerprint v record).Weighted := by
  rw [WikiGraph.addProofRecord]
  split
  · exact h
  · intro edge hedge
    rcases List.mem_append.mp hedge with hedge | hedge
    · exact h edge hedge
    · rcases List.mem_append.mp hedge with hedge | hedge
      · rw [List.mem_cons, List.mem_singleton] at hedge
        rcases hedge with rfl | rfl
        · exact .mk (by decide)
        · exact .mk (by decide)
      · obtain ⟨atom, -, rfl⟩ := List.mem_map.mp hedge
        exact .mk (by decide)

theorem weighted_recipeEdges (v : Verifiers) (record : LearningRecord) (graph : WikiGraph) :
    ∀ edge ∈ graph.recipeEdges v record, edge.Light := by
  intro edge hedge
  rw [recipeEdges] at hedge
  split at hedge
  · rcases List.mem_cons.mp hedge with rfl | hedge
    · exact .mk (by decide)
    · split at hedge
      · obtain rfl := List.mem_singleton.mp hedge
        exact .mk (by decide)
      · exact absurd hedge List.not_mem_nil
  · exact absurd hedge List.not_mem_nil

theorem Weighted.enlist (h : graph.Weighted) (v : Verifiers) (record : LearningRecord) :
    (graph.enlist v record).Weighted := by
  intro edge hedge
  rcases List.mem_append.mp hedge with hedge | hedge
  · rw [supersede_eq] at hedge
    exact h.without _ edge hedge
  · exact weighted_recipeEdges v record _ edge hedge

theorem Weighted.addLearningRecord (h : graph.Weighted) (v : Verifiers)
    (record : LearningRecord) : (graph.addLearningRecord v record).Weighted := by
  by_cases hadded : record.validate v = .ok () ∧ record.nodeId ∉ graph.ids
  · rw [addLearningRecord_eq hadded.1 hadded.2]
    intro edge hedge
    rcases List.mem_append.mp hedge with hedge | hedge
    · rw [evict_eq] at hedge
      have hkept := (h.enlist v record).without (graph.enlist v record).evicted
      exact hkept edge hedge
    · obtain ⟨atom, -, rfl⟩ := List.mem_map.mp hedge
      exact .mk (by decide)
  · rw [addLearningRecord_refused hadded]
    exact h

end WikiGraph

section Reachable

variable {unicode : RustUnicode} {fingerprint : ProofRecord → UInt64} {graph : WikiGraph}

theorem Built.weighted (h : Built unicode graph) : graph.Weighted := by
  cases h with
  | seeded => exact WikiGraph.weighted_seeded
  | markdown h =>
    obtain ⟨documents, -, hloaded⟩ := loadMarkdownDir_ok h
    exact WikiGraph.weighted_seeded.loaded hloaded

theorem Grown.weighted (h : Grown unicode fingerprint graph) : graph.Weighted := by
  induction h with
  | built h => exact h.weighted
  | call _ call ih =>
    cases call with
    | learn v record => exact ih.addLearningRecord v record
    | prove v record => exact ih.addProofRecord fingerprint v record

end Reachable

section Bounds

variable {unicode : RustUnicode} {graph : WikiGraph} {terms atomKeys : List String}

theorem sum_bounds {α : Type} {xs : List α} {f : α → ℤ} {most : ℤ}
    (h : ∀ x ∈ xs, 0 ≤ f x ∧ f x ≤ most) :
    0 ≤ (xs.map f).sum ∧ (xs.map f).sum ≤ most * xs.length := by
  induction xs with
  | nil => simp
  | cons x xs ih =>
    rw [List.forall_mem_cons] at h
    obtain ⟨hlow, hhigh⟩ := ih h.2
    rw [List.map_cons, List.sum_cons, List.length_cons]
    push_cast
    rw [Int.mul_add, Int.mul_one]
    omega

theorem termScore_bounds (node : WikiNode) (title excerpt term : String) :
    0 ≤ termScore node title excerpt term ∧ termScore node title excerpt term ≤ 21 := by
  rw [termScore]
  split_ifs <;> decide

theorem atomScore_bounds (node : WikiNode) (atom : String) :
    0 ≤ atomScore node atom ∧ atomScore node atom ≤ 4 := by
  rw [atomScore]
  split_ifs <;> decide

theorem directScore_bounds (node : WikiNode) : 0 ≤ directScore unicode node terms atomKeys ∧
    directScore unicode node terms atomKeys ≤ 21 * terms.length + 4 * atomKeys.length := by
  have hterms := @sum_bounds _ terms
    (termScore node (unicode.lowercase node.title) (unicode.lowercase node.excerpt)) 21
    fun term _ => termScore_bounds node _ _ term
  have hatoms := @sum_bounds _ atomKeys (atomScore node) 4 fun atom _ => atomScore_bounds node atom
  rw [directScore]
  omega

theorem termScore_le_directScore {node : WikiNode} {term : String} (hterm : term ∈ terms) :
    termScore node (unicode.lowercase node.title) (unicode.lowercase node.excerpt) term ≤
      directScore unicode node terms atomKeys := by
  have hatoms := @sum_bounds _ atomKeys (atomScore node) 4 fun atom _ => atomScore_bounds node atom
  have hmem := List.single_le_sum (M := ℤ) (l := terms.map (termScore node
    (unicode.lowercase node.title) (unicode.lowercase node.excerpt))) (by
      intro score hscore
      obtain ⟨other, -, rfl⟩ := List.mem_map.mp hscore
      exact (termScore_bounds node _ _ other).1) _ (List.mem_map_of_mem hterm)
  rw [directScore]
  omega

theorem ownScore_bounds (node : WikiNode) : 0 ≤ ownScore unicode terms atomKeys node ∧
    ownScore unicode terms atomKeys node ≤ 50 + 21 * terms.length + 4 * atomKeys.length := by
  have hdirect := @directScore_bounds unicode terms atomKeys node
  rw [ownScore]
  split <;> omega

theorem passedOn_bounds (h : graph.Weighted) {edge : WikiEdge} (hedge : edge ∈ graph.edges) :
    0 ≤ passedOn unicode graph terms atomKeys edge ∧
      passedOn unicode graph terms atomKeys edge ≤ 19 := by
  obtain ⟨hlow, hhigh⟩ := h edge hedge
  rw [passedOn]
  split <;> omega

theorem nodeScore_bounds (h : graph.Weighted) (node : WikiNode) :
    ownScore unicode terms atomKeys node ≤ nodeScore unicode graph terms atomKeys node ∧
      nodeScore unicode graph terms atomKeys node ≤
        50 + 21 * terms.length + 4 * atomKeys.length + 19 * graph.edges.length := by
  have hown := @ownScore_bounds unicode terms atomKeys node
  have hpassed := @sum_bounds _ (graph.edges.filter (·.toId = node.id))
    (passedOn unicode graph terms atomKeys) 19
    fun edge hedge => passedOn_bounds h (List.mem_of_mem_filter hedge)
  have hlength := List.length_filter_le (fun edge : WikiEdge => decide (edge.toId = node.id))
    graph.edges
  rw [nodeScore]
  omega

theorem nodeScore_le (h : graph.Weighted) (hsmall : 50 + 21 * terms.length +
    4 * atomKeys.length + 19 * graph.edges.length < 2 ^ 31) (node : WikiNode) :
    0 ≤ nodeScore unicode graph terms atomKeys node ∧
      nodeScore unicode graph terms atomKeys node < 2 ^ 31 := by
  have hown := @ownScore_bounds unicode terms atomKeys node
  have hbounds := @nodeScore_bounds unicode graph terms atomKeys h node
  omega

/-- No score overflows, whatever notes the graph was loaded from and whatever runs have added to it. -/
theorem score_in_range {fingerprint : ProofRecord → UInt64} (h : Grown unicode fingerprint graph)
    (hsmall : 50 + 21 * terms.length + 4 * atomKeys.length + 19 * graph.edges.length < 2 ^ 31)
    (node : WikiNode) : 0 ≤ nodeScore unicode graph terms atomKeys node ∧
      nodeScore unicode graph terms atomKeys node < 2 ^ 31 :=
  nodeScore_le h.weighted hsmall node

theorem score_in_range_seeded :
    0 ≤ nodeScore asciiUnicode .seeded ["spiderweb"] ["flow"] (.seeded missionId "" "" []) ∧
      nodeScore asciiUnicode .seeded ["spiderweb"] ["flow"] (.seeded missionId "" "" []) < 2 ^ 31 :=
  score_in_range (show Grown asciiUnicode (fun _ => 0) .seeded from .built .seeded) (by decide) _

theorem mission_score (h : graph.Weighted) {node : WikiNode} (hmission : node.id = missionId) :
    50 ≤ nodeScore unicode graph terms atomKeys node := by
  have hdirect := @directScore_bounds unicode terms atomKeys node
  have hbounds := @nodeScore_bounds unicode graph terms atomKeys h node
  rw [ownScore, if_pos hmission] at hbounds
  omega

end Bounds

def RanksBefore (left right : Evidence) : Prop :=
  right.score < left.score ∨ left.score = right.score ∧ left.nodeId < right.nodeId

instance : DecidableRel RanksBefore := fun _ _ => inferInstanceAs (Decidable (_ ∨ _))

def Contends (unicode : RustUnicode) (graph : WikiGraph) (terms atomKeys : List String)
    (node : WikiNode) : Prop :=
  node.id ≠ missionId ∧ 0 < nodeScore unicode graph terms atomKeys node

instance (unicode : RustUnicode) (graph : WikiGraph) (terms atomKeys : List String) :
    DecidablePred (Contends unicode graph terms atomKeys) :=
  fun _ => inferInstanceAs (Decidable (_ ∧ _))

def WikiNode.ranked (unicode : RustUnicode) (graph : WikiGraph) (terms atomKeys : List String)
    (node : WikiNode) : Evidence :=
  node.evidence (nodeScore unicode graph terms atomKeys node)

def rank (unicode : RustUnicode) (graph : WikiGraph) (terms atomKeys : List String)
    (node : WikiNode) : ℕ :=
  graph.nodes.countP fun other => decide (Contends unicode graph terms atomKeys other ∧
    RanksBefore (other.ranked unicode graph terms atomKeys)
      (node.ranked unicode graph terms atomKeys))

structure Retrieved (unicode : RustUnicode) (graph : WikiGraph) (terms atomKeys : List String)
    (limit : ℕ) (items : List Evidence) : Prop where
  length_le : items.length ≤ limit
  nodup : (items.map Evidence.nodeId).Nodup
  sorted : items.Pairwise RanksBefore
  mission : ∃ node ∈ graph.nodes, node.id = missionId ∧
    (node.ranked unicode graph terms atomKeys ∈ items ∨ node.evidence 50 ∈ items)
  others : ∀ item, item ∈ items ∧ item.nodeId ≠ missionId ↔
    ∃ node ∈ graph.nodes, Contends unicode graph terms atomKeys node ∧
      rank unicode graph terms atomKeys node < limit - 1 ∧
        item = node.ranked unicode graph terms atomKeys

section Ranking

variable {unicode : RustUnicode} {graph : WikiGraph} {terms atomKeys : List String}
  {query : String}

theorem RanksBefore.asymm {left right : Evidence} (h : RanksBefore left right) :
    ¬RanksBefore right left := by
  rintro (hscore | ⟨hscore, hid⟩)
  · rcases h with h | ⟨h, -⟩ <;> omega
  · rcases h with h | ⟨-, h⟩
    · omega
    · exact lt_asymm h hid

theorem evidenceLe_iff {left right : Evidence} : evidenceLe left right = true ↔
    right.score < left.score ∨ left.score = right.score ∧ left.nodeId ≤ right.nodeId := by
  simp [evidenceLe]

theorem ranksBefore_of_le {left right : Evidence} (hle : evidenceLe left right = true)
    (hne : left.nodeId ≠ right.nodeId) : RanksBefore left right := by
  rcases evidenceLe_iff.mp hle with h | ⟨h, hid⟩
  · exact .inl h
  · exact .inr ⟨h, lt_of_le_of_ne hid hne⟩

theorem RanksBefore.trans {a b c : Evidence} (hab : RanksBefore a b) (hbc : RanksBefore b c) :
    RanksBefore a c := by
  rcases hab with hab | ⟨hab, hidab⟩
  · left
    rcases hbc with hbc | ⟨hbc, -⟩ <;> omega
  · rcases hbc with hbc | ⟨hbc, hidbc⟩
    · left
      omega
    · exact .inr ⟨hab.trans hbc, hidab.trans hidbc⟩

theorem pairwise_evidenceLe (evidence : List Evidence) :
    (sortEvidence evidence).Pairwise fun a b => evidenceLe a b = true := by
  have htrans : ∀ a b c : Evidence, evidenceLe a b = true → evidenceLe b c = true →
      evidenceLe a c = true := by
    intro a b c hab hbc
    rw [evidenceLe_iff] at *
    rcases hab with hab | ⟨hab, hidab⟩
    · left
      rcases hbc with hbc | ⟨hbc, -⟩ <;> omega
    · rcases hbc with hbc | ⟨hbc, hidbc⟩
      · left
        omega
      · exact .inr ⟨hab.trans hbc, hidab.trans hidbc⟩
  have htotal : ∀ a b : Evidence, (evidenceLe a b || evidenceLe b a) = true := by
    intro a b
    rw [Bool.or_eq_true, evidenceLe_iff, evidenceLe_iff]
    rcases lt_trichotomy a.score b.score with h | h | h
    · exact .inr (.inl h)
    · rcases le_total a.nodeId b.nodeId with hid | hid
      · exact .inl (.inr ⟨h, hid⟩)
      · exact .inr (.inr ⟨h.symm, hid⟩)
    · exact .inl (.inl h)
  exact List.pairwise_mergeSort htrans htotal evidence

theorem perm_sortEvidence (evidence : List Evidence) : (sortEvidence evidence).Perm evidence :=
  List.mergeSort_perm evidence evidenceLe

theorem pairwise_sortEvidence (evidence : List Evidence)
    (hids : (evidence.map Evidence.nodeId).Nodup) :
    (sortEvidence evidence).Pairwise RanksBefore := by
  have hdistinct : (sortEvidence evidence).Pairwise fun a b => a.nodeId ≠ b.nodeId :=
    List.pairwise_map.mp ((((perm_sortEvidence evidence).map Evidence.nodeId).nodup_iff).mpr hids)
  exact (pairwise_evidenceLe evidence).imp₂ (fun a b hle hne => ranksBefore_of_le hle hne)
    hdistinct

def scoredEvidence (unicode : RustUnicode) (graph : WikiGraph) (terms atomKeys : List String) :
    List Evidence :=
  (graph.nodes.filter fun node => 0 < nodeScore unicode graph terms atomKeys node).map
    (WikiNode.ranked unicode graph terms atomKeys)

theorem filter_zip_map {nodes : List WikiNode} (score : WikiNode → ℤ) :
    (((nodes.zip (nodes.map score)).filter fun entry => 0 < entry.2).map
        fun entry => entry.1.evidence entry.2) =
      (nodes.filter fun node => 0 < score node).map fun node => node.evidence (score node) := by
  induction nodes with
  | nil => rfl
  | cons node nodes ih =>
    rw [List.map_cons, List.zip_cons_cons]
    by_cases h : 0 < score node
    · rw [List.filter_cons_of_pos (by simpa using h), List.filter_cons_of_pos (by simpa using h),
        List.map_cons, List.map_cons, ih]
    · rw [List.filter_cons_of_neg (by simpa using h), List.filter_cons_of_neg (by simpa using h),
        ih]

theorem retrieve_eq (hids : graph.ids.Nodup) (query : String) (limit : ℕ) :
    graph.retrieve unicode query atomKeys limit = graph.pinMissionEvidence limit
      ((sortEvidence (scoredEvidence unicode graph (tokenize unicode query) atomKeys)).take
        limit) := by
  rw [WikiGraph.retrieve, scores_eq hids, filter_zip_map]
  rfl

theorem nodup_scoredEvidence (hids : graph.ids.Nodup) :
    ((scoredEvidence unicode graph terms atomKeys).map Evidence.nodeId).Nodup := by
  rw [scoredEvidence, List.map_map]
  exact hids.sublist ((List.filter_sublist).map WikiNode.id)

theorem mem_scoredEvidence {item : Evidence} :
    item ∈ scoredEvidence unicode graph terms atomKeys ↔ ∃ node ∈ graph.nodes,
      0 < nodeScore unicode graph terms atomKeys node ∧
        node.ranked unicode graph terms atomKeys = item := by
  simp [scoredEvidence, and_assoc]

theorem countP_others (node : WikiNode) :
    ((sortEvidence (scoredEvidence unicode graph terms atomKeys)).filter
        fun item => item.nodeId ≠ missionId).countP
      (fun item => RanksBefore item (node.ranked unicode graph terms atomKeys)) =
        rank unicode graph terms atomKeys node := by
  rw [((perm_sortEvidence _).filter _).countP_eq, List.countP_filter, scoredEvidence, List.countP_map,
    List.countP_filter, rank]
  apply List.countP_congr
  intro other _
  rw [Function.comp_apply, Bool.and_eq_true, Bool.and_eq_true, decide_eq_true_eq,
    decide_eq_true_eq, decide_eq_true_eq, decide_eq_true_eq]
  constructor
  · rintro ⟨⟨hbefore, hid⟩, hscore⟩
    exact ⟨⟨hid, hscore⟩, hbefore⟩
  · rintro ⟨⟨hid, hscore⟩, hbefore⟩
    exact ⟨⟨hbefore, hid⟩, hscore⟩

theorem mem_take_others (hids : graph.ids.Nodup) {item : Evidence} (n : ℕ) :
    item ∈ ((sortEvidence (scoredEvidence unicode graph terms atomKeys)).filter
        fun item => item.nodeId ≠ missionId).take n ↔
      ∃ node ∈ graph.nodes, Contends unicode graph terms atomKeys node ∧
        rank unicode graph terms atomKeys node < n ∧
          item = node.ranked unicode graph terms atomKeys := by
  have hsorted := (pairwise_sortEvidence _
    (@nodup_scoredEvidence unicode graph terms atomKeys hids)).filter
      fun item => decide (item.nodeId ≠ missionId)
  rw [mem_take_iff hsorted (fun a b h => h.asymm) n, List.mem_filter, decide_eq_true_eq,
    sortEvidence, List.mem_mergeSort, mem_scoredEvidence]
  constructor
  · rintro ⟨⟨⟨node, hnode, hscore, rfl⟩, hid⟩, hrank⟩
    rw [← sortEvidence, countP_others] at hrank
    exact ⟨node, hnode, ⟨hid, hscore⟩, hrank, rfl⟩
  · rintro ⟨node, hnode, ⟨hid, hscore⟩, hrank, rfl⟩
    rw [← sortEvidence, countP_others]
    exact ⟨⟨⟨node, hnode, hscore, rfl⟩, hid⟩, hrank⟩

theorem pairwise_not_mission {items : List Evidence} (hids : (items.map Evidence.nodeId).Nodup) :
    items.Pairwise fun a b =>
      decide (a.nodeId ≠ missionId) = true ∨ decide (b.nodeId ≠ missionId) = true := by
  refine (List.pairwise_map.mp hids).imp fun {a b} hne => ?_
  rw [decide_eq_true_eq, decide_eq_true_eq]
  by_contra hboth
  simp only [not_or, not_not] at hboth
  exact hne (hboth.1.trans hboth.2.symm)

theorem RanksBefore.pin {item mission : Evidence} {score : ℤ} (h : RanksBefore item mission)
    (hscore : score ≤ mission.score) : RanksBefore item { mission with score } := by
  rcases h with h | ⟨h, hid⟩
  · exact .inl (hscore.trans_lt h)
  · rcases hscore.lt_or_eq with hless | heq
    · exact .inl (hless.trans_eq h.symm)
    · exact .inr ⟨h.trans heq.symm, hid⟩

theorem find_mission (hmission : missionId ∈ graph.ids) :
    ∃ node, graph.nodes.find? (·.id == missionId) = some node := by
  rw [← Option.isSome_iff_exists, List.find?_isSome]
  obtain ⟨node, hnode, hid⟩ := List.mem_map.mp hmission
  exact ⟨node, hnode, beq_iff_eq.mpr hid⟩

theorem pin_ranked {node : WikiNode} (hnode : graph.nodes.find? (·.id == missionId) = some node)
    {evidence : List Evidence} {score : ℤ} (hmem : node.evidence score ∈ evidence) (n : ℕ)
    (hout : ∀ item ∈ evidence.take (n + 1), item.nodeId ≠ missionId) :
    graph.pinMissionEvidence (n + 1) (evidence.take (n + 1)) =
      evidence.take n ++ [node.evidence 50] := by
  have hid : node.id = missionId := by simpa using List.find?_some hnode
  have hlong : n + 1 < evidence.length := by
    by_contra hshort
    rw [List.take_of_length_le (not_lt.mp hshort)] at hout
    exact hout _ hmem hid
  have hlength : (evidence.take (n + 1)).length = n + 1 := by
    rw [List.length_take]
    omega
  rw [WikiGraph.pinMissionEvidence, if_neg, hnode]
  · dsimp only
    rw [if_pos hlength.ge, List.dropLast_eq_take, hlength, List.take_take]
    rw [Nat.add_sub_cancel, Nat.min_eq_left (Nat.le_succ n)]
  · rintro (h | h)
    · omega
    · obtain ⟨item, hitem, hmission⟩ := List.any_eq_true.mp h
      exact hout item hitem (beq_iff_eq.mp hmission)

theorem pin_present {evidence : List Evidence} {limit : ℕ} {item : Evidence}
    (hitem : item ∈ evidence) (hid : item.nodeId = missionId) :
    graph.pinMissionEvidence limit evidence = evidence := by
  rw [WikiGraph.pinMissionEvidence, if_pos]
  exact .inr (List.any_eq_true.mpr ⟨item, hitem, beq_iff_eq.mpr hid⟩)

theorem exists_mission_pin (hmission : missionId ∈ graph.ids) {limit : ℕ} (hlimit : 1 ≤ limit)
    (evidence : List Evidence) :
    ∃ item ∈ graph.pinMissionEvidence limit evidence, item.nodeId = missionId := by
  by_cases hpresent : evidence.any (·.nodeId == missionId) = true
  · rw [WikiGraph.pinMissionEvidence, if_pos (.inr hpresent)]
    obtain ⟨item, hitem, hid⟩ := List.any_eq_true.mp hpresent
    exact ⟨item, hitem, beq_iff_eq.mp hid⟩
  · obtain ⟨node, hnode⟩ := find_mission hmission
    have hid : node.id = missionId := by simpa using List.find?_some hnode
    rw [WikiGraph.pinMissionEvidence, if_neg, hnode]
    · exact ⟨node.evidence 50, List.mem_append_right _ (List.mem_singleton_self _), hid⟩
    · rintro (h | h)
      · omega
      · exact hpresent h

theorem nodup_ids_pin {evidence : List Evidence} (h : (evidence.map Evidence.nodeId).Nodup)
    (limit : ℕ) : ((graph.pinMissionEvidence limit evidence).map Evidence.nodeId).Nodup := by
  rw [WikiGraph.pinMissionEvidence]
  split
  · exact h
  · rename_i hout
    split
    · exact h
    · rename_i node hnode
      have hid : node.id = missionId := by simpa using List.find?_some hnode
      have hsublist : (if limit ≤ evidence.length then evidence.dropLast else evidence).Sublist
          evidence := by
        split
        · exact List.dropLast_sublist evidence
        · exact List.Sublist.refl evidence
      rw [List.map_append, List.nodup_append]
      refine ⟨h.sublist (hsublist.map _), List.nodup_singleton _, ?_⟩
      intro id hold id' hpin heq
      obtain ⟨item, hitem, rfl⟩ := List.mem_map.mp hold
      rw [List.map_singleton, List.mem_singleton] at hpin
      apply hout
      right
      exact List.any_eq_true.mpr ⟨item, hsublist.subset hitem,
        beq_iff_eq.mpr (heq.trans (hpin.trans hid))⟩

theorem nodup_ids_retrieve (hids : graph.ids.Nodup) (limit : ℕ) :
    ((graph.retrieve unicode query atomKeys limit).map Evidence.nodeId).Nodup := by
  rw [retrieve_eq hids]
  apply nodup_ids_pin
  have hscored := @nodup_scoredEvidence unicode graph (tokenize unicode query) atomKeys hids
  exact (((perm_sortEvidence _).map _).nodup_iff.mpr hscored).sublist
    ((List.take_sublist _ _).map _)

theorem retrieved_of_mission (hids : graph.ids.Nodup) {node : WikiNode}
    (hnode : graph.nodes.find? (·.id == missionId) = some node)
    (hscore : 50 ≤ nodeScore unicode graph (tokenize unicode query) atomKeys node) (n : ℕ) :
    Retrieved unicode graph (tokenize unicode query) atomKeys (n + 1)
      (graph.retrieve unicode query atomKeys (n + 1)) := by
  have hid : node.id = missionId := by simpa using List.find?_some hnode
  have hin : node ∈ graph.nodes := List.mem_of_find?_eq_some hnode
  have hscored := @nodup_scoredEvidence unicode graph (tokenize unicode query) atomKeys hids
  have hsorted := pairwise_sortEvidence _ hscored
  have hmem : node.ranked unicode graph (tokenize unicode query) atomKeys ∈
      sortEvidence (scoredEvidence unicode graph (tokenize unicode query) atomKeys) := by
    rw [sortEvidence, List.mem_mergeSort]
    exact mem_scoredEvidence.mpr ⟨node, hin, by omega, rfl⟩
  have hothers := fun item => @mem_take_others unicode graph (tokenize unicode query) atomKeys
    hids item n
  rw [retrieve_eq hids]
  have hdistinct := ((perm_sortEvidence _).map Evidence.nodeId).nodup_iff.mpr hscored
  generalize sortEvidence (scoredEvidence unicode graph (tokenize unicode query) atomKeys) =
    evidence at hsorted hmem hothers hdistinct
  have hone := pairwise_not_mission hdistinct
  by_cases hpresent : ∃ item ∈ evidence.take (n + 1), item.nodeId = missionId
  · obtain ⟨item, hitem, hmission⟩ := hpresent
    have hsame : item = node.ranked unicode graph (tokenize unicode query) atomKeys :=
      List.inj_on_of_nodup_map hdistinct (List.mem_of_mem_take hitem) hmem
        (hmission.trans hid.symm)
    rw [pin_present hitem hmission]
    refine ⟨List.length_take_le _ _, hdistinct.sublist ((List.take_sublist _ _).map _),
      hsorted.sublist (List.take_sublist _ _), ⟨node, hin, hid, .inl (hsame ▸ hitem)⟩,
      fun other => ?_⟩
    rw [Nat.add_sub_cancel, ← hothers,
      ← filter_take_succ hone ⟨item, hitem, by simpa using hmission⟩, List.mem_filter,
      decide_eq_true_eq]
  · have hout : ∀ item ∈ evidence.take (n + 1), item.nodeId ≠ missionId :=
      fun item hitem hmission => hpresent ⟨item, hitem, hmission⟩
    have hfront : ∀ item ∈ evidence.take n, item.nodeId ≠ missionId := fun item hitem =>
      hout item (List.take_subset_take_left evidence (Nat.le_succ n) hitem)
    have hbefore : ∀ item ∈ evidence.take n, RanksBefore item (node.evidence 50) := by
      intro item hitem
      have hlate : node.ranked unicode graph (tokenize unicode query) atomKeys ∈
          evidence.drop n := by
        rw [← List.take_append_drop n evidence, List.mem_append] at hmem
        exact hmem.resolve_left fun hearly => hfront _ hearly hid
      rw [← List.take_append_drop n evidence, List.pairwise_append] at hsorted
      exact (hsorted.2.2 item hitem _ hlate).pin hscore
    rw [pin_ranked hnode hmem n hout]
    refine ⟨?_, ?_, ?_, ⟨node, hin, hid, .inr (by simp)⟩, fun other => ?_⟩
    · rw [List.length_append, List.length_singleton]
      exact Nat.succ_le_succ (List.length_take_le _ _)
    · rw [List.map_append, List.nodup_append]
      refine ⟨hdistinct.sublist ((List.take_sublist _ _).map _), List.nodup_singleton _, ?_⟩
      intro id hold id' hpin heq
      obtain ⟨item, hitem, rfl⟩ := List.mem_map.mp hold
      rw [List.map_singleton, List.mem_singleton] at hpin
      exact hfront item hitem (heq.trans (hpin.trans hid))
    · rw [List.pairwise_append]
      refine ⟨hsorted.sublist (List.take_sublist _ _), List.pairwise_singleton _ _, ?_⟩
      intro item hitem pinned hpinned
      obtain rfl := List.mem_singleton.mp hpinned
      exact hbefore item hitem
    · rw [Nat.add_sub_cancel, ← hothers, take_filter fun item hitem => by
        simpa using hfront item hitem, List.mem_append, List.mem_singleton]
      constructor
      · rintro ⟨hother | rfl, hne⟩
        · exact hother
        · exact absurd hid hne
      · intro hother
        exact ⟨.inl hother, hfront other hother⟩

end Ranking

/-- From any graph with distinct ids retrieval returns the mission and the best of the others. -/
theorem retrieve_best (unicode : RustUnicode) (fingerprint : ProofRecord → UInt64)
    (graph : WikiGraph) (hgrown : Grown unicode fingerprint graph)
    (hmission : missionId ∈ graph.ids) (hids : graph.ids.Nodup) (query : String)
    (atomKeys : List String) (limit : ℕ) (hlimit : 1 ≤ limit) :
    Retrieved unicode graph (tokenize unicode query) atomKeys limit
      (graph.retrieve unicode query atomKeys limit) := by
  obtain ⟨n, rfl⟩ : ∃ n, limit = n + 1 := ⟨limit - 1, by omega⟩
  obtain ⟨node, hnode⟩ := find_mission hmission
  have hid : node.id = missionId := by simpa using List.find?_some hnode
  exact retrieved_of_mission hids hnode (mission_score hgrown.weighted hid) n

theorem retrieve_best_seeded :
    Retrieved asciiUnicode .seeded (tokenize asciiUnicode "provider model spiderweb") ["flow"] 2
      (WikiGraph.seeded.retrieve asciiUnicode "provider model spiderweb" ["flow"] 2) :=
  retrieve_best asciiUnicode (fun _ => 0) .seeded (.built .seeded) (by decide +kernel)
    WikiGraph.nodup_ids_seeded _ _ 2 (by decide)

end AtomVibe.Wiki
