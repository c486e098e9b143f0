import Mathlib.Data.List.Sort
import AtomVibe.Doctrine
import AtomVibe.ProviderBody

namespace AtomVibe.CoreRuntime

open Checked Text Hash Context Doctrine Provider Work

def intentTokens (intent : String) : List String :=
  (((toAsciiLowercase intent).toList.splitOnP fun c => !isAsciiAlphanumeric c).filter
    fun token => token != []).map String.ofList

def tokensMatchKeyword (tokens : List String) (keyword : String) : Bool :=
  let keywordTokens := intentTokens keyword
  keywordTokens != [] && tokens.tails.any fun window => window.take keywordTokens.length == keywordTokens

def tokensContainAny (tokens choices : List String) : Bool :=
  tokens.any fun token => choices.contains token

def providerRequestedFromTokens (tokens : List String) : Bool :=
  tokensContainAny tokens
    ["provider", "api", "model", "openai", "llm", "rag", "chatgpt", "deepseek", "mistral", "ollama"]

def rendererTerms : List String := ["renderer", "render", "artifact", "native", "pmre", "surface"]

def rendererOnlyRequestedFromTokens (tokens : List String) : Bool :=
  tokens.contains "only" && tokensContainAny tokens rendererTerms

def softwareGenerationRequestedFromTokens (tokens : List String) : Bool :=
  !rendererOnlyRequestedFromTokens tokens &&
    tokensContainAny tokens
      ["build", "create", "develop", "generate", "implement", "make", "code", "write", "scaffold",
        "fix", "repair", "update", "modify", "improve", "refactor"] &&
    tokensContainAny tokens
      ["app", "application", "software", "program", "tool", "dashboard", "driver", "engine",
        "adapter", "service", "website", "browser", "game", "module", "crate", "library", "cli",
        "interface"]

def providerSignatureAtoms (atoms : List String) : ℕ :=
  (["measure", "compose", "flow", "preserve"].filter atoms.contains).length

def providerRouteRequiredFromTokens (tokens atoms : List String) : Bool :=
  providerRequestedFromTokens tokens || softwareGenerationRequestedFromTokens tokens ||
    3 ≤ providerSignatureAtoms atoms

def scoredAtoms (tokens : List String) : List String :=
  let scored := (Doctrine.atoms.map fun atom =>
    (atom, (atom.keywords.filter (tokensMatchKeyword tokens)).length)).filter fun scored =>
      0 < scored.2
  (scored.insertionSort fun a b => b.2 < a.2 ∨ (a.2 = b.2 ∧ a.1.id ≤ b.1.id)).map (·.1.key)

def classifyIntentWithoutProviderForcing (tokens : List String) : List String := scoredAtoms tokens

def providerRouteRequired (intent : String) : Bool :=
  let tokens := intentTokens intent
  providerRouteRequiredFromTokens tokens (classifyIntentWithoutProviderForcing tokens)

def appendUniqueAtoms (atoms required : List String) : List String :=
  required.foldl (fun atoms atom => if atoms.contains atom then atoms else atoms ++ [atom]) atoms

def classifyIntent (intent : String) : List String :=
  let tokens := intentTokens intent
  let providerRoute := providerRouteRequiredFromTokens tokens []
  let forced := if providerRoute then
      appendUniqueAtoms [] ["measure", "compose", "flow", "preserve"] else []
  let atoms := appendUniqueAtoms forced (scoredAtoms tokens)
  let atoms := if atoms = [] then ["scan", "project", "compare", "compose", "measure"] else atoms
  let atoms := if providerRoute then appendUniqueAtoms atoms ["scan", "project"] else atoms
  atoms.take 6

/-! The recipe for an intent. Scores are integers; the source's `i32` does not overflow on them. -/

def recipeComplexity (recipe : Recipe) : ℤ := recipe.atoms.length + recipe.bonds.toNat

def stackScore (observed : List String) : Option ℕ → ℤ → List String → ℤ
  | _, score, [] => score
  | last, score, atom :: canonical =>
    if observed.contains atom then
      let pos := observed.idxOf atom
      let gain : ℤ := match last with
        | some last => if last < pos then (if pos = last + 1 then 10 else 6) else -8
        | none => 3
      stackScore observed (some pos) (score + gain) canonical
    else stackScore observed last score canonical

def stackQuality (observed canonical : List String) : ℤ :=
  if canonical = [] then -100 else stackScore observed none canonical.length canonical

def intentFitBonus (intent : String) (recipe : Recipe) (providerRoute : Bool) : ℤ :=
  let tokens := intentTokens intent
  if recipe.kind = "renderer" ∧ tokensContainAny tokens rendererTerms then
    if tokens.contains "only" then 95 else 42
  else if recipe.kind = "provider" ∧ providerRequestedFromTokens tokens then 35
  else if recipe.kind = "provider" ∧ providerRoute then 12
  else if recipe.kind = "retrieval" ∧ tokensContainAny tokens ["wiki", "graph", "rag"] then 14
  else if recipe.kind = "fabric" ∧
      tokensContainAny tokens ["spiderweb", "bus", "route", "fabric"] then 14
  else if recipe.kind = "product" ∧ rendererOnlyRequestedFromTokens tokens then -40
  else if recipe.kind = "product" ∧ softwareGenerationRequestedFromTokens tokens then 72
  else if recipe.kind = "product" ∧
      tokensContainAny tokens ["app", "build", "production", "dashboard", "usable"] then 16
  else 0

def recipeScore (intent : String) (atoms : List String) (evidence : List Evidence)
    (providerReady providerRoute : Bool) (recipe : Recipe) : ℤ :=
  let atomOverlap : ℤ := (recipe.atoms.filter atoms.contains).length
  let scores := (evidence.filter fun item => item.nodeId == recipe.id).map fun item =>
    item.score.toInt
  let evidenceScore := (scores.max?).getD 0
  let providerPenalty : ℤ :=
    if recipe.requiresProvider && !providerReady && !providerRoute then -30 else 0
  atomOverlap * 8 + stackQuality atoms recipe.atoms + evidenceScore +
    intentFitBonus intent recipe providerRoute + providerPenalty - recipeComplexity recipe

def RanksBefore (score : Recipe → ℤ) (a b : Recipe) : Prop :=
  score b < score a ∨ (score a = score b ∧
    (recipeComplexity a < recipeComplexity b ∨
      (recipeComplexity a = recipeComplexity b ∧ ¬b.id < a.id)))

instance (score : Recipe → ℤ) : DecidableRel (RanksBefore score) :=
  fun _ _ => inferInstanceAs (Decidable (_ ∨ _))

def selectRecipe (intent : String) (atoms : List String) (evidence : List Evidence)
    (providerReady providerRoute : Bool) : Option Recipe :=
  (recipes.insertionSort
    (RanksBefore (recipeScore intent atoms evidence providerReady providerRoute))).head?

structure CoreProviderConfig extends ProviderConfig where
  planTimeoutSeconds : UInt64
  verificationAttemptLimit : UInt32
  verificationTimeoutSeconds : UInt64
  deriving DecidableEq

inductive ProviderError
  | missingApiKey (env : String)
  | missingEndpoint
  | missingModel
  | emptyPrompt
  | invalidBodyTemplate
  | thinkingRequired
  | thinkingEvidenceMissing
  | credentialScopeChanged
  | io (reason : String)
  | curlFailed (code : Option Int32) (httpStatus : Option UInt16) (stderr body : String)
  | responseTextMissing
  | responseEnvelopeInvalid
  | responseTooLarge
  | workPacketFailed (reason : String)

structure PreparedProviderCall where
  endpoint : String
  model : String
  apiKeyEnv : String
  authHeader : String
  authScheme : String
  wireFormat : ProviderWireFormat
  responseKey : String
  thinkingLevel : ProviderThinkingLevel
  body : String
  workPlan : Option WorkPlan
  evidenceContext : String
  bodyTemplate : String
  requestTimeoutSeconds : UInt64
  planTimeoutSeconds : UInt64
  verificationAttemptLimit : UInt32
  verificationTimeoutSeconds : UInt64
  credentialScopeHash : String
  deriving DecidableEq

def emptyCall : PreparedProviderCall :=
  ⟨"", "", "", "", "", .openAiResponses, "", .low, "", none, "", "", 120, 11520, 8, 180, ""⟩

def workErrorText : WorkError → String
  | .emptyIntent => "work plan intent is empty"
  | .intentTooLarge => "work plan intent exceeds " ++ maxIntentBytes.repr ++ " bytes"
  | .invalidPlan reason => "invalid work plan: " ++ reason
  | .invalidManifest reason => "invalid work manifest: " ++ reason
  | .invalidOutput reason => "invalid work packet output: " ++ reason
  | .missingDependency id => "work packet dependency is incomplete: " ++ id
  | .outputTooLarge packetId limit =>
    "work packet " ++ packetId ++ " output exceeds " ++ limit.repr ++ " bytes"
  | .io reason => "work packet storage failed: " ++ reason

def workError {α : Type} (x : Except WorkError α) : Except ProviderError α :=
  x.mapError fun error => .workPacketFailed (workErrorText error)

namespace CoreProviderConfig

variable (config : CoreProviderConfig)

def isReady : Bool :=
  config.apiKeyPresent && !isBlank config.endpoint && !isBlank config.model &&
    !isBlank config.authHeader && config.thinkingLevel.isSome

def workFingerprint (evidence : List Evidence) : String :=
  let value := "\x00".intercalate
    [config.kind.asStr, config.model, config.endpoint, config.wireFormat.asStr, config.authHeader,
      config.authScheme, config.responseKey,
      (config.thinkingLevel.map ProviderThinkingLevel.asStr).getD "invalid",
      sha256Tagged (asBytes config.bodyTemplate), config.credentialScopeHash,
      config.requestTimeoutSeconds.toNat.repr, config.planTimeoutSeconds.toNat.repr,
      config.verificationAttemptLimit.toNat.repr, config.verificationTimeoutSeconds.toNat.repr]
  sha256Tagged (asBytes (value ++ String.join ((evidence.take 8).map fun item =>
    "\x00" ++ item.nodeId ++ ":" ++ item.score.toInt.repr ++ ":" ++
      sha256Tagged (asBytes item.excerpt))))

def evidenceContext (evidence : List Evidence) : String :=
  String.join ((evidence.take 6).map fun item => "- " ++ item.title ++ ": " ++ item.excerpt ++ "\n")

def prepareCallWithAtoms (intent selectedRecipe : String) (atomStack : List String)
    (evidence : List Evidence) : Except ProviderError PreparedProviderCall := do
  refuseIf (isBlank intent = true) .emptyPrompt
  refuseIf (isBlank config.endpoint = true) .missingEndpoint
  refuseIf (isBlank config.model = true) .missingModel
  refuseIf (config.apiKeyPresent = false) (.missingApiKey config.apiKeyEnv)
  let thinkingLevel ← okOr .thinkingRequired config.thinkingLevel
  refuseIf (isBlank config.bodyTemplate = false ∧
      (templateHasValue config.bodyTemplate "instructions" = false ∨
        templateHasValue config.bodyTemplate "data" = false ∨
        templateHasValue config.bodyTemplate "thinking" = false)) .invalidBodyTemplate
  let context := evidenceContext evidence
  let plan ← workError (meticulous intent selectedRecipe atomStack
    (config.workFingerprint evidence))
  let first ← okOr (.workPacketFailed "index out of bounds") plan.packets.head?
  let prompt ← workError (plan.prompt first [] context)
  return {
    endpoint := config.endpoint
    model := config.model
    apiKeyEnv := config.apiKeyEnv
    authHeader := config.authHeader
    authScheme := config.authScheme
    wireFormat := config.wireFormat
    responseKey := config.responseKey
    thinkingLevel
    body := providerBody config.wireFormat config.model prompt config.bodyTemplate thinkingLevel
    workPlan := some plan
    evidenceContext := context
    bodyTemplate := config.bodyTemplate
    requestTimeoutSeconds := config.requestTimeoutSeconds
    planTimeoutSeconds := config.planTimeoutSeconds
    verificationAttemptLimit := config.verificationAttemptLimit
    verificationTimeoutSeconds := config.verificationTimeoutSeconds
    credentialScopeHash := config.credentialScopeHash }

end CoreProviderConfig

end AtomVibe.CoreRuntime
