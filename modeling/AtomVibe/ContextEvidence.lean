import AtomVibe.ContextData
import AtomVibe.ScratchpadProjection
import AtomVibe.WikiRetrieve

namespace AtomVibe.ContextEvidence

open Checked Text BuildProtocol Wiki

structure ContextRequest extends Context.CoderContextRequest where
  evidenceLimit : ℕ
  scratchpadBudget : ℕ

inductive ContextError
  | invalidRequest (reason : String)
  | missingGraphEvidence (step : BuildStep)
  | requiredGraphEvidenceMissing (node : String)
  deriving DecidableEq

def maxIntentBytes : ℕ := 16 * 1024

def maxFailureContextBytes : ℕ := 16 * 1024

def requiredGraphEvidence : List (String × String) :=
  [("wiki:atom-vibe-build-spine",
      "Atom Vibe Coder fixed build spine gates corrections launch proof"),
    ("wiki:model-scratchpad",
      "model scratchpad scoped working context relationship to wiki graph RAG"),
    ("wiki:thinking-model-requirements",
      "mandatory thinking evidence Qwen3.5 9B Q8 model requirements release gate")]

def isInvalidAtom (atom : String) : Bool :=
  trim atom != atom || atom == "" || 96 < atom.utf8ByteSize || atom.toList.any isControl

def ContextRequest.validate (request : ContextRequest) : Except ContextError Unit := do
  refuseIf (isBlank request.buildId ∨ 160 < request.buildId.utf8ByteSize)
    (.invalidRequest "build id is empty or exceeds bounds")
  refuseIf (isBlank request.intent ∨ maxIntentBytes < request.intent.utf8ByteSize)
    (.invalidRequest ("intent must be nonempty and no larger than " ++ maxIntentBytes.repr ++
      " bytes"))
  refuseIf (maxFailureContextBytes < request.failureContext.utf8ByteSize)
    (.invalidRequest ("failure context exceeds " ++ maxFailureContextBytes.repr ++ " bytes"))
  refuseIf (request.evidenceLimit < 4 ∨ 64 < request.evidenceLimit)
    (.invalidRequest ("evidence limit must be between 4 and 64 so mandatory graph contracts and " ++
      "mission evidence fit"))
  refuseIf (request.scratchpadBudget < 512 ∨
      Scratchpad.maxProjectionBytes < request.scratchpadBudget)
    (.invalidRequest ("scratchpad budget must be between 512 and " ++
      Scratchpad.maxProjectionBytes.repr ++ " bytes"))
  refuseIf (64 < request.atomStack.length ∨ request.atomStack.any isInvalidAtom)
    (.invalidRequest "atom stack contains invalid values")

def stepLabel : BuildStep → String
  | .intake => "Intake"
  | .blueprint => "Blueprint"
  | .crateBuild => "Crate Build"
  | .crateCouple => "Crate Couple"
  | .buildTest => "Build Test"
  | .launchProof => "Launch Proof"

def retrievalQuery (request : ContextRequest) : String :=
  request.intent ++ "\nBuild step: " ++ stepLabel request.step ++ "\nCurrent skill: " ++
    request.step.skillId ++
    "\nRequired subsystems: wiki graph RAG, Spiderweb Bus, model scratchpad, mandatory thinking " ++
    "evidence, Qwen3.5 9B Q8-or-stronger local baseline, independent gate evidence." ++
    (if request.atomStack ≠ [] then
      "\nCanonical atom stack: " ++ String.intercalate " -> " request.atomStack
    else "") ++
    if isBlank request.failureContext = false then
      "\nCurrent verified failure: " ++ request.failureContext
    else ""

def belongsTo (contract : String × String) (item : Evidence) : Bool :=
  startsWith contract.1 item.nodeId

def pinContracts (unicode : RustUnicode) (graph : WikiGraph) (atomStack : List String) :
    List (String × String) → List Evidence → Except ContextError (List Evidence)
  | [], evidence => .ok evidence
  | contract :: contracts, evidence =>
    if evidence.any (belongsTo contract) then
      pinContracts unicode graph atomStack contracts evidence
    else
      match (graph.retrieve unicode contract.2 atomStack 16).find? (belongsTo contract) with
      | none => .error (.requiredGraphEvidenceMissing contract.1)
      | some required => pinContracts unicode graph atomStack contracts (evidence ++ [required])

def isRemovable (item : Evidence) : Bool :=
  item.nodeId != missionId && !requiredGraphEvidence.any (belongsTo · item)

def dropOver : ℕ → List Evidence → Except ContextError (List Evidence)
  | 0, evidence => .ok evidence
  | excess + 1, evidence =>
    if evidence.any isRemovable then dropOver excess (evidence.reverse.eraseP isRemovable).reverse
    else .error (.invalidRequest "evidence limit cannot contain required graph contracts")

def sortDedupEvidence (evidence : List Evidence) : List Evidence :=
  (sortEvidence evidence).destutter fun left right => left.nodeId ≠ right.nodeId

def pinRequiredGraphEvidence (unicode : RustUnicode) (graph : WikiGraph)
    (evidence : List Evidence) (atomStack : List String) (limit : ℕ) :
    Except ContextError (List Evidence) := do
  let evidence ← pinContracts unicode graph atomStack requiredGraphEvidence evidence
  let evidence := sortDedupEvidence evidence
  dropOver (evidence.length - limit) evidence

/-- The part of `prepare` that selects the evidence of a request. -/
def selectEvidence (unicode : RustUnicode) (graph : WikiGraph) (request : ContextRequest) :
    Except ContextError (List Evidence) :=
  let evidence := graph.retrieve unicode (retrievalQuery request) request.atomStack
    request.evidenceLimit
  if evidence = [] then .error (.missingGraphEvidence request.step)
  else pinRequiredGraphEvidence unicode graph evidence request.atomStack request.evidenceLimit

end AtomVibe.ContextEvidence
