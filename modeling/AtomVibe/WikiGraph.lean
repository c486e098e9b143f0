import AtomVibe.Doctrine
import AtomVibe.Foundations.BreadthFirst
import Mathlib.Data.Int.Notation
import Mathlib.Data.List.Nodup

namespace AtomVibe.Wiki

open Doctrine

structure WikiNode where
  id : String
  title : String
  excerpt : String
  body : String
  tags : List String
  deriving DecidableEq

def WikiNode.seeded (id title excerpt : String) (tags : List String) : WikiNode :=
  ⟨id, title, excerpt, excerpt, tags⟩

structure WikiEdge where
  fromId : String
  toId : String
  weight : ℤ
  deriving DecidableEq

/-- `learningNodes` is the queue of the learning nodes with their memory keys, oldest first. -/
structure WikiGraph where
  nodes : List WikiNode
  edges : List WikiEdge
  learningNodes : List (String × String)

def fixedNodes : List WikiNode :=
  [.seeded "mission:production-app-build" mission.title mission.body
      ["production", "app", "mission", "product", "proof"],
    .seeded "bus:spiderweb" "Spiderweb Bus"
      ("Messages move through L0 transport, L1 message, L2 flow, and L3 orchestration with " ++
        "ramps, evidence, and off-ramps.")
      ["spiderweb", "bus", "fabric", "flow", "transport", "orchestration"],
    .seeded "rag:wiki-graph" "Wiki Graph RAG"
      ("Retrieval starts from atom and recipe graph relationships before text excerpts are used " ++
        "as supporting evidence.")
      ["wiki", "graph", "rag", "retrieval", "evidence", "relationship"],
    .seeded "provider:openai-responses" "Provider API"
      ("OpenAI Responses API calls are prepared from current graph evidence and must fail " ++
        "closed when credentials are absent.")
      ["provider", "api", "model", "openai", "responses", "credential"],
    .seeded "renderer:pmre-native" "Native Atom Renderer"
      ("PMRE renders the product as local mathematical primitives without Chrome, Electron, " ++
        "Tauri, or browser-local state.")
      ["renderer", "pmre", "native", "artifact", "atom", "no-browser"],
    .seeded "gate:fail-closed" "Fail Closed Gate"
      ("Missing provider credentials, stale evidence, and unsupported routes become blockers, " ++
        "not silent fallbacks.")
      ["gate", "fail", "closed", "blocker", "provider", "evidence"]]

def staticEdges : List WikiEdge :=
  [⟨"mission:production-app-build", "production-app-runtime", 8⟩,
    ⟨"mission:production-app-build", "bus:spiderweb", 7⟩,
    ⟨"mission:production-app-build", "renderer:pmre-native", 7⟩,
    ⟨"mission:production-app-build", "rag:wiki-graph", 7⟩,
    ⟨"mission:production-app-build", "provider:openai-responses", 7⟩,
    ⟨"bus:spiderweb", "spiderweb-proof-loop", 9⟩,
    ⟨"rag:wiki-graph", "wiki-graph-rag", 9⟩,
    ⟨"provider:openai-responses", "provider-model-loop", 9⟩,
    ⟨"renderer:pmre-native", "native-atom-renderer", 9⟩,
    ⟨"gate:fail-closed", "provider-model-loop", 5⟩]

namespace WikiGraph

def seeded : WikiGraph where
  nodes := fixedNodes ++
    (atoms.map fun atom => .seeded atom.key atom.key atom.currency atom.keywords) ++
    (recipes.map fun recipe => .seeded recipe.id recipe.name recipe.summary recipe.atoms) ++
    gates.map fun gate => .seeded gate.title gate.title gate.body [gate.layer, "gate", "proof"]
  edges := staticEdges ++
    recipes.flatMap fun recipe => recipe.atoms.map fun atom => ⟨atom, recipe.id, 4⟩
  learningNodes := []

def ids (graph : WikiGraph) : List String := graph.nodes.map WikiNode.id

def hasNode (graph : WikiGraph) (id : String) : Bool := graph.nodes.any (·.id == id)

def bodyOf (graph : WikiGraph) (id : String) : Option String :=
  (graph.nodes.find? (·.id == id)).map (·.body)

theorem hasNode_iff {graph : WikiGraph} {id : String} :
    graph.hasNode id = true ↔ id ∈ graph.ids := by
  simp [hasNode, ids]

theorem hasNode_eq_false_iff {graph : WikiGraph} {id : String} :
    graph.hasNode id = false ↔ id ∉ graph.ids := by
  rw [← hasNode_iff, Bool.not_eq_true]

theorem bodyOf_node {graph : WikiGraph} (h : graph.ids.Nodup) {node : WikiNode}
    (hnode : node ∈ graph.nodes) : graph.bodyOf node.id = some node.body := by
  obtain ⟨found, hfound⟩ : ∃ found, graph.nodes.find? (·.id == node.id) = some found := by
    rw [← Option.isSome_iff_exists, List.find?_isSome]
    exact ⟨node, hnode, by simp⟩
  have hid : found.id = node.id := by simpa using List.find?_some hfound
  have hsame : found = node :=
    List.inj_on_of_nodup_map h (List.mem_of_find?_eq_some hfound) hnode hid
  rw [bodyOf, hfound, hsame]
  rfl

theorem nodup_ids_seeded : seeded.ids.Nodup := by
  decide +kernel

end WikiGraph

def addedPrefixes : List String := ["wiki:", "learning:", "proof:"]

theorem WikiGraph.seeded_apart : ∀ id ∈ seeded.ids, ∀ start ∈ addedPrefixes,
    start.toList.isPrefixOf id.toList = false := by
  decide +kernel

end AtomVibe.Wiki

namespace AtomVibe.Wiki

open BreadthFirst

def WikiEdge.across (edge : WikiEdge) (node : String) : String :=
  if edge.fromId = node then edge.toId else edge.fromId

namespace WikiGraph

def neighbours (graph : WikiGraph) (node : String) : List String :=
  (graph.edges.filter fun edge => edge.fromId == node || edge.toId == node).map (·.across node)

theorem mem_neighbours {graph : WikiGraph} {a b : String} :
    b ∈ graph.neighbours a ↔ (∃ edge ∈ graph.edges, edge.fromId = a ∧ edge.toId = b) ∨
      ∃ edge ∈ graph.edges, edge.fromId = b ∧ edge.toId = a := by
  simp only [neighbours, List.mem_map, List.mem_filter, Bool.or_eq_true, beq_iff_eq,
    WikiEdge.across]
  constructor
  · rintro ⟨edge, ⟨hedge, hends⟩, rfl⟩
    split_ifs with hfrom
    · exact .inl ⟨edge, hedge, hfrom, rfl⟩
    · exact .inr ⟨edge, hedge, rfl, hends.resolve_left hfrom⟩
  · rintro (⟨edge, hedge, hfrom, rfl⟩ | ⟨edge, hedge, rfl, hto⟩)
    · exact ⟨edge, ⟨hedge, .inl hfrom⟩, if_pos hfrom⟩
    · refine ⟨edge, ⟨hedge, .inr hto⟩, ?_⟩
      split_ifs with hfrom
      · rw [hto, hfrom]
      · rfl

def network (graph : WikiGraph) : Network String where
  next := graph.neighbours
  vertices := graph.edges.flatMap fun edge => [edge.fromId, edge.toId]
  isolated := by
    intro node hnode
    apply List.eq_nil_iff_forall_not_mem.mpr
    intro other hother
    apply hnode
    simp only [List.mem_flatMap, List.mem_cons, List.not_mem_nil, or_false]
    rcases mem_neighbours.mp hother with ⟨edge, hedge, hfrom, -⟩ | ⟨edge, hedge, -, hto⟩
    · exact ⟨edge, hedge, .inl hfrom.symm⟩
    · exact ⟨edge, hedge, .inr hto.symm⟩

def hasRelationshipPath (graph : WikiGraph) (fromId toId : String) (maxDepth : ℕ) : Bool :=
  if fromId = toId then true else search graph.network toId maxDepth [] [(fromId, 0)]

def undirected (graph : WikiGraph) : SimpleGraph String :=
  .fromRel fun a b => ∃ edge ∈ graph.edges, edge.fromId = a ∧ edge.toId = b

theorem undirected_adj {graph : WikiGraph} {a b : String} :
    graph.undirected.Adj a b ↔ a ≠ b ∧ b ∈ graph.network.next a := by
  rw [undirected, SimpleGraph.fromRel_adj]
  exact and_congr_right fun _ => mem_neighbours.symm

/-- Two nodes are related just where they are the same or a path of the undirected graph, with at
most that many edges, joins them. -/
theorem hasRelationshipPath_iff (graph : WikiGraph) (fromId toId : String) (maxDepth : ℕ) :
    graph.hasRelationshipPath fromId toId maxDepth = true ↔
      fromId = toId ∨ ∃ path : graph.undirected.Walk fromId toId,
        path.IsPath ∧ path.length ≤ maxDepth := by
  rw [hasRelationshipPath]
  split_ifs with heq
  · simp [heq]
  · rw [search_iff heq, exists_trail_iff_path undirected_adj]
    exact (or_iff_right heq).symm

end WikiGraph

end AtomVibe.Wiki
