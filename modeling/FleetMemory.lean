import FleetMemory.Program
import FleetMemory.Text
import FleetMemory.Transitions
import FleetMemory.Like
import FleetMemory.Distinct
import FleetMemory.Pairings
import FleetMemory.Python
import FleetMemory.JsonReader
import FleetMemory.JsonText
import FleetMemory.Errors
import FleetMemory.Payloads
import FleetMemory.Store
import FleetMemory.PrefixEngine
import FleetMemory.Supersession
import FleetMemory.Writer
import FleetMemory.Retrieval
import FleetMemory.Tools
import FleetMemory.SupersessionInvariant
import FleetMemory.BatchWrites
import FleetMemory.Chunker
import FleetMemory.Utf8
import FleetMemory.Windows
import FleetMemory.Stripping
import FleetMemory.Sections
import FleetMemory.ChunkTexts
import FleetMemory.ChunkBounds
import FleetMemory.ChunkSections
import FleetMemory.ChunkContent
import FleetMemory.RelayService
import FleetMemory.ProseIngest
import FleetMemory.ProjectFrame
import FleetMemory.PoisonBodies
import FleetMemory.Redelivery
import FleetMemory.RelayHandler
import FleetMemory.Fence
import FleetMemory.FenceVerdict
import FleetMemory.FenceWaning
import FleetMemory.Calendar
import FleetMemory.Marker
import FleetMemory.Interleaving
import FleetMemory.ConcurrentWrites
import FleetMemory.SupersessionRace
import FleetMemory.Interference
import FleetMemory.Doors
import FleetMemory.SearchTools
import FleetMemory.SpecialTokens
import FleetMemory.DoorTools
import FleetMemory.DroppedRows
import FleetMemory.ReplaceableRecords
import FleetMemory.DoorIsolation
import FleetMemory.Envelopes
import FleetMemory.WritePaths
import FleetMemory.BackwardEdges
import FleetMemory.EdgeStorage
import FleetMemory.PosixPath
import FleetMemory.CompositeIds
import FleetMemory.CorpusManifest
import FleetMemory.Markdown
import FleetMemory.TaskDocuments
import FleetMemory.Reindex
import FleetMemory.ReindexAccounting
import FleetMemory.Settling
import FleetMemory.ReindexRuns
import FleetMemory.KeyedUpdates
import FleetMemory.StreamUpdates
import FleetMemory.SustainedWrites
import FleetMemory.ReindexAudit
import FleetMemory.AuditSoundness
import FleetMemory.Sql
import FleetMemory.TemporalCut
import FleetMemory.Grouping
import FleetMemory.Chronicler
import FleetMemory.Declassification
import FleetMemory.FaultyWrites
import FleetMemory.WriteFrames
import FleetMemory.Retries
import FleetMemory.VersionLaw
import FleetMemory.Pointers
import FleetMemory.SupersessionCycles
import FleetMemory.VersionRace
import FleetMemory.DoorRendering
import FleetMemory.SandboxWrites
import FleetMemory.Gather
import FleetMemory.SearchTies
import FleetMemory.ProjectNames
import FleetMemory.ScratchDiscard
import FleetMemory.ScratchRollouts
import FleetMemory.SinceBound
import FleetMemory.SearchBounds
import FleetMemory.SearchCompleteness
import FleetMemory.ChunkWrites
import FleetMemory.Packing
import FleetMemory.Embedding
import FleetMemory.EmbedContract
import FleetMemory.Assembly
import FleetMemory.RoleScope
import FleetMemory.FairMerge
import FleetMemory.Composition
import FleetMemory.FenceReading
import FleetMemory.AckBounds
import FleetMemory.ReindexOrder
import FleetMemory.HarvestPartition
import FleetMemory.StoryCardFiles
import FleetMemory.CardFrontmatter
import FleetMemory.FixtureHash
import FleetMemory.CredentialLeaks
import FleetMemory.RelayStream
import FleetMemory.JsonSpelling
import FleetMemory.JsonPrefixes
import FleetMemory.CopyText
import FleetMemory.FixtureFiles
import FleetMemory.FixtureSnapshot
import FleetMemory.FixtureRestore
import FleetMemory.FixtureRoundTrip
import FleetMemory.FixtureRuns
import FleetMemory.FenceScan
import FleetMemory.FencePass
import FleetMemory.FenceRecords
import FleetMemory.EnvelopeDoor
import FleetMemory.Backfill
