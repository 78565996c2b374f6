import SqlTide.Locking.StaleRelease
import SqlTide.Compiler.DependencyOrder
import SqlTide.Destruction.PlanStoreAgreement
import SqlTide.Destruction.Bystanders
import SqlTide.Destruction.ExecutionProtocol
import SqlTide.Replay.CapturedWindow
import SqlTide.Replay.ActiveFrontier
import SqlTide.Replay.VirtualBuild
import SqlTide.Planner.RebuildSubtrees
import SqlTide.Population.ShadowRelations
import SqlTide.Planner.RelationOperations
import SqlTide.Cli.ModelSelection
import SqlTide.Sensors.LateRows
import SqlTide.Sensors.DurableStep
import SqlTide.Sensors.TickListing
import SqlTide.SqlAnalysis.RawRelations
import SqlTide.SqlAnalysis.QueryRewriting
import SqlTide.SqlAnalysis.CatalogCompleteness
import SqlTide.SqlText.ConjoinedPredicate
import SqlTide.Auth.LastAdministrator
import SqlTide.Auth.SessionInvalidation
import SqlTide.Auth.CacheFreshness
import SqlTide.SqlAnalysis.SubstitutionAgreement
import SqlTide.SqlText.HeaderBlocks
import SqlTide.SqlText.ProjectionSplit
import SqlTide.SqlText.ParenthesisMatcher
import SqlTide.SqlText.MergedCtes
import SqlTide.ModelHeader.HeaderTrees
import SqlTide.SqlAnalysis.ReferenceIdentities
import SqlTide.Authorization.BuildTransfer
import SqlTide.Destruction.DropOrder
import SqlTide.Authorization.Capabilities
import SqlTide.Kafka.ConsumerGroups
import SqlTide.Sensors.DispatchLease
import SqlTide.DevServer.SingleFlight
import SqlTide.DevServer.ErrorBackoff
import SqlTide.DevServer.MessageTokens
import SqlTide.DevServer.MessagePages
import SqlTide.DevServer.RunWindow
import SqlTide.Kafka.DriftExactness
import SqlTide.Readiness.ReadySoundness
import SqlTide.Baselines.FailedBuild
import SqlTide.Adapters.LiteralSecrets
import SqlTide.Testing.BagVerdicts
import SqlTide.Compiler.MacroExpansion
import SqlTide.Testing.AssembledTests
import SqlTide.Janitor.LiveBindings
