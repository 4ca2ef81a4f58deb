import Hansa.Library.SelfDelimiting
import Hansa.Library.KeyedMap
import Hansa.Library.Transition
import Hansa.Library.ReplacedFile
import Hansa.Library.Program
import Hansa.Library.Processes
import Hansa.Library.CriticalSections
import Hansa.Library.HashChain
import Hansa.Library.FloatOrder
import Hansa.Library.ExactNumbers
import Hansa.Library.Prefix
import Hansa.Library.StateErrors
import Hansa.Library.TopSelection
import Hansa.Library.GreedyFill
import Hansa.Library.Apportionment
import Hansa.Library.TextLines
import Hansa.Library.QuotedFields
import Hansa.Library.Words
import Hansa.Library.Reservoir
import Hansa.Library.NearestMeans
import Hansa.Library.WeightedChoice
import Hansa.Error
import Hansa.Sign
import Hansa.Member
import Hansa.Genesis
import Hansa.Chain
import Hansa.Registry
import Hansa.RegistrySteps
import Hansa.HeadCache
import Hansa.Key
import Hansa.Keystore
import Hansa.Hex
import Hansa.Float
import Hansa.Sort
import Hansa.Saga
import Hansa.SagaBuild
import Hansa.Manifest
import Hansa.ManifestFile
import Hansa.Allocation
import Hansa.Membrane
import Hansa.Cache
import Hansa.Handle
import Hansa.Background
import Hansa.Migrate
import Hansa.Hybrid
import Hansa.Context
import Hansa.Render
import Hansa.Cli.Config
import Hansa.Cli.Machine
import Hansa.Cli.Commands
import Hansa.Verif.Canonical
import Hansa.Verif.Replay
import Hansa.Verif.LastEvent
import Hansa.Verif.LogFile
import Hansa.Verif.RegistryRun
import Hansa.Verif.LogLines
import Hansa.Verif.LogReading
import Hansa.Verif.Instance
import Hansa.Verif.Extend
import Hansa.Verif.TornAppend
import Hansa.Verif.Refinement
import Hansa.Verif.LogWriting
import Hansa.Verif.LogSections
import Hansa.Verif.ConcurrentRegistry
import Hansa.Verif.LogAlone
import Hansa.Verif.ConcurrentRuns
import Hansa.Verif.History
import Hansa.Verif.Lineage
import Hansa.Verif.HandleRun
import Hansa.Verif.HandleInstance
import Hansa.Verif.Pinning
import Hansa.Verif.HybridView
import Hansa.Verif.HeadFile
import Hansa.Verif.HeadRace
import Hansa.Verif.HexDecoding
import Hansa.Verif.KeyFile
import Hansa.Verif.Keystores
import Hansa.Verif.SagaPull
import Hansa.Verif.CliConfig
import Hansa.Verif.CliParts
import Hansa.Verif.CliInstance
import Hansa.Verif.CliIdentity
import Hansa.Verif.CliRoster
import Hansa.Verif.RecordIds
import Hansa.Verif.ManifestRace
import Hansa.Verif.Rollback
import Hansa.Verif.Budget
import Hansa.Verif.FanOut
import Hansa.Verif.FloatLaws
import Hansa.Verif.Query
import Hansa.Verif.Contribution
import Hansa.Verif.MembraneInstance
import Hansa.Verif.RemoteCap
import Hansa.Verif.Attribution
import Hansa.Verif.Crossing
import Hansa.Verif.Digest
import Hansa.Verif.CacheRun
import Hansa.Verif.FairShare
import Hansa.Verif.ExactArithmetic
import Hansa.Verif.ExactFactor
import Hansa.Verif.ExactAllocation
import Hansa.Verif.ExactScore
import Hansa.Verif.ManifestBias
import Hansa.Verif.SentenceText
import Hansa.Verif.ContextFilter
import Hansa.Verif.ContextBudget
import Hansa.Verif.ContextBundle
import Hansa.Verif.ContextAccounting
import Hansa.Verif.Provenance
import Hansa.Verif.SentenceLoss
import Hansa.Verif.NanRanking
import Hansa.Verif.Migration
import Hansa.Verif.SharedDim
import Hansa.Verif.Membership
import Hansa.Verif.Refusal
import Hansa.Verif.Feedback
import Hansa.Verif.HitAccounting
import Hansa.Verif.Outsiders
import Hansa.Verif.Fleet
import Hansa.Verif.Refresh
import Hansa.Verif.KeySeparation
import Hansa.Verif.RenderedText
import Hansa.Verif.CompactRendering
import Hansa.Verif.ToonRendering
import Hansa.Verif.MarkdownRendering
import Hansa.Verif.PromptOrigins
import Hansa.Verif.LatestAnswer
import Hansa.Verif.LeastRecent
import Hansa.Verif.Lloyd
import Hansa.Verif.LloydRun
import Hansa.Verif.Seeding
import Hansa.Verif.BuiltSaga
import Hansa.Verif.UniformSample
import Hansa.Verif.DedupKey
import Hansa.Verif.SentenceSlices
