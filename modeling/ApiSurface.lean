import ApiSurface.Unicode.Identifier
import ApiSurface.Python.Node
import ApiSurface.Python.Layout
import ApiSurface.Command.Arguments
import ApiSurface.Command.Run
import ApiSurface.Proofs.DiffTiers
import ApiSurface.Proofs.RemovalGate
import ApiSurface.Proofs.TwoDirections
import ApiSurface.Proofs.GateChain
import ApiSurface.Proofs.JsonReading
import ApiSurface.Proofs.SnapshotText
import ApiSurface.Proofs.ClassSurface
import ApiSurface.Proofs.DiffText
import ApiSurface.Proofs.LosslessText
import ApiSurface.Proofs.PathFollowing
import ApiSurface.Proofs.SourceScan
import ApiSurface.Proofs.FreshFile
import ApiSurface.Proofs.SavedSnapshot
import ApiSurface.Proofs.DocumentOrder
import ApiSurface.Proofs.TokenReading
import ApiSurface.Proofs.Skeleton
import ApiSurface.Proofs.LineReading
import ApiSurface.Proofs.SkeletonReading
import ApiSurface.Proofs.CrawlOutcome
import ApiSurface.Proofs.FailedRun
import ApiSurface.Proofs.JsonSkipping
import ApiSurface.Proofs.TruncatedText
import ApiSurface.Proofs.SnapshotVariants
import ApiSurface.Proofs.EqualSubtrees
import ApiSurface.Proofs.LinkedRoot
import ApiSurface.Proofs.ReportLines
import ApiSurface.Proofs.ArgumentReading
import ApiSurface.Proofs.ExcludeOption
import ApiSurface.Proofs.DottedNames
import ApiSurface.Proofs.ReportText
import ApiSurface.Proofs.FirstFault
import ApiSurface.Proofs.NodeFlags
import ApiSurface.Proofs.TomlTokens
import ApiSurface.Proofs.TomlStrings
import ApiSurface.Proofs.TomlMultiline
import ApiSurface.Proofs.TomlDates
import ApiSurface.Proofs.TomlNumbers
import ApiSurface.Proofs.TomlValues
import ApiSurface.Proofs.TomlLines
import ApiSurface.Proofs.TomlTopLevel
import ApiSurface.Proofs.TomlRoles
import ApiSurface.Proofs.ConfigFields
