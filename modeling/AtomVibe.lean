import AtomVibe.HashStandard
import AtomVibe.CandidateBundle
import AtomVibe.CandidateManifest
import AtomVibe.ScratchpadBinding
import AtomVibe.FrozenBlueprint
import AtomVibe.DebtGate
import AtomVibe.TurnBinding
import AtomVibe.WorkAtomic
import AtomVibe.RepairContext
import AtomVibe.WorkIdentity
import AtomVibe.WorkPackets
import AtomVibe.BusFabric
import AtomVibe.FileLease
import AtomVibe.NativeBridge
import AtomVibe.LearningKeys
import AtomVibe.CoreResponse
import AtomVibe.ScratchpadOutput
import AtomVibe.TurnFreshness
import AtomVibe.RuntimeCompletion
import AtomVibe.AttestationReads
import AtomVibe.NativeAccounts
import AtomVibe.UiEditor
import AtomVibe.UiPointer
import AtomVibe.EvidencePins
import AtomVibe.CoreItems
import AtomVibe.CoreJson
import AtomVibe.PromptPlan
import AtomVibe.ScrollReach
import AtomVibe.CaretLines
import AtomVibe.RichFaithful
import AtomVibe.FastBuildBest
import AtomVibe.WordsKept
import AtomVibe.SourceRoundTrip
import AtomVibe.CoreLinks
import AtomVibe.FlexPlacement
import AtomVibe.RasterReach
import AtomVibe.ClipConfined
import AtomVibe.PathExact
import AtomVibe.FontRaster
import AtomVibe.Bloom
