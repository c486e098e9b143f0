namespace AtomVibe.Doctrine

structure Atom where
  id : UInt8
  key : String
  currency : String
  keywords : List String

structure Recipe where
  id : String
  name : String
  kind : String
  summary : String
  atoms : List String
  bonds : UInt8
  requiresProvider : Bool

structure Gate where
  title : String
  body : String
  layer : String

structure Mission where
  title : String
  body : String
  readinessFloor : String

def atoms : List Atom :=
  [⟨1, "scan", "Coverage over a finite set.",
      ["read", "inspect", "visit", "list", "inventory", "scan", "parse"]⟩,
    ⟨2, "hash", "Stable identity or integrity proof.",
      ["hash", "identity", "checksum", "fingerprint", "integrity", "proof"]⟩,
    ⟨3, "fold", "Single result from many inputs.",
      ["reduce", "summarize", "total", "aggregate", "fold"]⟩,
    ⟨4, "project", "Relevant surface without unrelated state.",
      ["view", "slice", "select", "pane", "surface", "preview", "project"]⟩,
    ⟨5, "scale", "Same intent at a new size or precision.",
      ["resize", "normalize", "quantize", "scale", "fit", "responsive"]⟩,
    ⟨6, "compare", "Difference, ordering, or pass/fail decision.",
      ["compare", "diff", "decide", "rank", "gate", "verdict"]⟩,
    ⟨7, "combine", "Useful joined output.",
      ["join", "merge", "bind", "combine", "connect", "bond"]⟩,
    ⟨8, "order", "Correct ordering or run sequence.",
      ["order", "sequence", "sort", "route", "loop", "timeline"]⟩,
    ⟨9, "transform", "Representation changes become simpler and measurable.",
      ["transform", "basis", "representation", "serialize", "rotation"]⟩,
    ⟨10, "flow", "Message or value route is explicit and testable.",
      ["flow", "path", "lane", "transport", "propagate", "bus", "fabric"]⟩,
    ⟨11, "preserve", "Named invariant survives a transformation.",
      ["preserve", "invariant", "conserve", "budget", "stable", "required"]⟩,
    ⟨12, "compose", "Higher-level operations become easier to inspect.",
      ["compose", "nested", "molecule", "tree", "orchestrator", "recipe"]⟩,
    ⟨13, "dual", "Pairing exposes useful reversible or complementary work.",
      ["dual", "paired", "forward", "backward", "encode", "decode"]⟩,
    ⟨14, "measure", "Observability cost is named and bounded.",
      ["measure", "telemetry", "observe", "profile", "log", "capture", "proof"]⟩,
    ⟨15, "symmetrize", "Symmetry reduces work or rejects drift.",
      ["symmetry", "symmetrize", "mirror", "rotation", "parallel"]⟩,
    ⟨16, "superpose", "Interference matters beyond ordinary weighted combine.",
      ["superpose", "interference", "attention", "weighted", "coherent"]⟩]

def recipes : List Recipe :=
  [⟨"native-atom-renderer", "Native Atom Renderer", "renderer",
      "PMRE-rendered local surface with no browser runtime dependency.",
      ["project", "combine", "measure", "compose"], 2, false⟩,
    ⟨"spiderweb-proof-loop", "Spiderweb Proof Loop", "fabric",
      "L0-L3 route with ingress, message, flow, orchestration, evidence, and proof " ++
        "capture.",
      ["scan", "flow", "preserve", "order", "compare", "measure"], 4, false⟩,
    ⟨"wiki-graph-rag", "Wiki Graph RAG", "retrieval",
      "Graph-first retrieval over atom, recipe, provider, proof, and renderer " ++
        "evidence.",
      ["scan", "hash", "project", "compare", "order"], 3, false⟩,
    ⟨"provider-model-loop", "Provider Model Loop", "provider",
      "Prepare an OpenAI Responses API model call from current graph evidence and " ++
        "proof state.",
      ["measure", "compose", "flow", "preserve"], 3, true⟩,
    ⟨"production-app-runtime", "Production App Runtime", "product",
      "Select the smallest gate-passing native recipe that matches the requested app " ++
        "behavior.",
      ["scan", "compare", "compose", "measure", "preserve", "order"], 5, true⟩]

def gates : List Gate :=
  [⟨"Recipe first",
      "Local atom recipes and graph evidence are tried before generic model text.", "L3"⟩,
    ⟨"Proof required",
      "No done state without current evidence and a recorded bus route.", "L1"⟩,
    ⟨"Artifact visible",
      "The native PMRE artifact must reflect the latest run state.", "L2"⟩,
    ⟨"Fail closed",
      "Unsupported or unconfigured provider paths become blockers.", "L3"⟩,
    ⟨"App fit",
      "The selected route must match the requested app behavior instead of an " ++
        "unrelated benchmark.", "L3"⟩,
    ⟨"Stack order",
      "The atom stack order is a hard performance contract, not an unordered tag " ++
        "list.", "L3"⟩]

def mission : Mission :=
  ⟨"Production App Build",
    "Build the requested app through native atom rendering, canonical atom stacks, " ++
      "Spiderweb Bus routing, graph evidence, provider calls when required, and " ++
      "proof artifacts that match the actual user request.",
    "requested app behavior"⟩

def atomByKey (key : String) : Option Atom := atoms.find? fun atom => atom.key == key

def isRecipe (id : String) : Bool := recipes.any (·.id == id)

def isAtom (key : String) : Bool := atoms.any (·.key == key)

theorem isAtom_of_recipe : ∀ recipe ∈ recipes, ∀ atom ∈ recipe.atoms, isAtom atom = true := by
  decide

end AtomVibe.Doctrine
