import AtomVibe.ProofLedger
import AtomVibe.WikiIds

namespace AtomVibe.Wiki

open Checked Text Hash Doctrine Learning Proof

def authoredRecordAtoms (record : ProofRecord) : List String :=
  match recipes.find? (·.id == record.recipeId) with
  | none => []
  | some recipe => recipe.atoms.filter record.atoms.contains

def proofNodeId (fingerprint : ProofRecord → UInt64) (record : ProofRecord)
    (recordAtoms : List String) : String :=
  let digits := Nat.toDigits 16 (fingerprint { record with atoms := recordAtoms }).toNat
  "proof:" ++ String.ofList (List.replicate (16 - digits.length) '0' ++ digits)

def candidateVerified (v : Verifiers) (record : ProofRecord) : Bool :=
  record.candidateVerification.any fun candidate =>
    candidate.bundleHash == record.providerOutputHash &&
      match v.candidate candidate.manifestPath candidate.manifestHash record.workPlanId
        candidate.bundleHash with
      | .ok verified => verified == (candidate.attempts, candidate.repairs)
      | .error _ => false

def workVerified (v : Verifiers) (record : ProofRecord) : Bool :=
  match v.workPlanModel record.workPlanManifest record.workPlanId record.workPacketCount with
  | .ok model => model == record.providerModel
  | .error _ => false

def isPositiveEvidence (v : Verifiers) (record : ProofRecord) : Bool :=
  if record.status ≠ "proven" ∨ record.blockers ≠ [] ∨ record.evidenceCount = 0 ∨
      record.routeLen < 4 then false
  else match recipes.find? (·.id == record.recipeId) with
    | none => false
    | some recipe => !recipe.requiresProvider ||
      (record.providerState == "provider:ran" && !isBlank record.providerModel &&
        !isBlank record.providerEndpoint && !isBlank record.providerOutputArtifact &&
        validSha256Tag record.providerOutputHash &&
        v.sha256File record.providerOutputArtifact == some record.providerOutputHash &&
        v.fileLen record.providerOutputArtifact == some record.providerOutputLen &&
        0 < record.providerOutputLen && startsWith "work-" record.workPlanId &&
        19 ≤ record.workPacketCount && candidateVerified v record && workVerified v record)

def proofTags (record : ProofRecord) (recordAtoms : List String) : List String :=
  ["proof", "store", toAsciiLowercase record.status, toAsciiLowercase record.providerState] ++
    (if record.providerOutputHash ≠ "" then
      ["provider-output-audited", toAsciiLowercase record.providerModel]
    else []) ++
    recordAtoms.map toAsciiLowercase

def proofExcerpt (record : ProofRecord) : String :=
  record.status ++ " proof for " ++ record.recipeId ++ " with " ++
    record.evidenceCount.toNat.repr ++ " evidence nodes, " ++ record.routeLen.toNat.repr ++
    " route envelopes, " ++ record.blockers.length.repr ++ " blockers, provider " ++
    record.providerState ++ ", output " ++ record.providerOutputLen.toNat.repr ++ " bytes " ++
    record.providerOutputHash ++ "."

def proofNode (id : String) (record : ProofRecord) (recordAtoms : List String) : WikiNode :=
  ⟨id, "Proof: " ++ record.recipeId, proofExcerpt record, proofExcerpt record,
    proofTags record recordAtoms⟩

def proofEdges (id : String) (record : ProofRecord) (recordAtoms : List String) : List WikiEdge :=
  [⟨id, record.recipeId, 8⟩, ⟨record.recipeId, id, 5⟩] ++
    recordAtoms.map fun atom => ⟨atom, id, 4⟩

def learningNode (record : LearningRecord) : WikiNode :=
  ⟨record.nodeId, record.title, record.excerpt, record.excerpt, record.tags⟩

def queueEntry (record : LearningRecord) : String × String := (record.nodeId, record.memoryKey)

namespace WikiGraph

def addProofRecord (fingerprint : ProofRecord → UInt64) (v : Verifiers) (record : ProofRecord)
    (graph : WikiGraph) : WikiGraph :=
  let recordAtoms := authoredRecordAtoms record
  let id := proofNodeId fingerprint record recordAtoms
  if isPositiveEvidence v record = false ∨ graph.hasNode id then graph
  else { graph with
    nodes := graph.nodes ++ [proofNode id record recordAtoms]
    edges := graph.edges ++ proofEdges id record recordAtoms }

def removeNode (id : String) (graph : WikiGraph) : WikiGraph :=
  { graph with
    nodes := graph.nodes.filter fun node => node.id ≠ id
    edges := graph.edges.filter fun edge => edge.fromId ≠ id ∧ edge.toId ≠ id }

def supersede (memoryKey : String) (graph : WikiGraph) : WikiGraph :=
  match graph.learningNodes.find? (·.2 == memoryKey) with
  | none => graph
  | some (superseded, _) =>
    removeNode superseded
      { graph with learningNodes := graph.learningNodes.eraseP (·.2 == memoryKey) }

def recipeEdges (v : Verifiers) (record : LearningRecord) (graph : WikiGraph) : List WikiEdge :=
  if graph.hasNode record.recipeId then
    ⟨record.recipeId, record.nodeId, 5⟩ ::
      if record.outcome = .succeeded ∧ record.isPromotableSuccess v then
        [⟨record.nodeId, record.recipeId, 6⟩]
      else []
  else []

def evictFrom : List (String × String) → WikiGraph → WikiGraph
  | [], graph => { graph with learningNodes := [] }
  | entry :: queue, graph =>
    if defaultGraphMemoryLimit < queue.length + 1 then evictFrom queue (graph.removeNode entry.1)
    else { graph with learningNodes := entry :: queue }

def evict (graph : WikiGraph) : WikiGraph := evictFrom graph.learningNodes graph

def atomEdges (record : LearningRecord) (graph : WikiGraph) : List WikiEdge :=
  (record.atomStack.filter fun atom => isAtom atom && graph.hasNode atom).map
    fun atom => ⟨atom, record.nodeId, 4⟩

def addLearningRecord (v : Verifiers) (record : LearningRecord) (graph : WikiGraph) : WikiGraph :=
  if (record.validate v).isOk = false ∨ graph.hasNode record.nodeId then graph
  else
    let graph := graph.supersede record.memoryKey
    let graph := { graph with nodes := graph.nodes ++ [learningNode record] }
    let graph := { graph with edges := graph.edges ++ graph.recipeEdges v record }
    let graph := { graph with learningNodes := graph.learningNodes ++ [queueEntry record] }
    let graph := graph.evict
    { graph with edges := graph.edges ++ graph.atomEdges record }

def addLearningRecords (v : Verifiers) (records : List LearningRecord) (graph : WikiGraph) :
    WikiGraph :=
  records.foldl (fun graph record => graph.addLearningRecord v record) graph

end WikiGraph

end AtomVibe.Wiki
