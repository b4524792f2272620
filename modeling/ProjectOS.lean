import ProjectOS.Base.Raise
import ProjectOS.Base.Text
import ProjectOS.Base.Glob
import ProjectOS.Base.GlobLanguage
import ProjectOS.Base.Dict
import ProjectOS.Base.Layers
import ProjectOS.Base.Sha256
import ProjectOS.Base.Json
import ProjectOS.Error
import ProjectOS.Orchestration.Failure
import ProjectOS.Artifact.Ref
import ProjectOS.Orchestration.PathPattern
import ProjectOS.Orchestration.ExecutionMode
import ProjectOS.Orchestration.DeliveryRegistry
import ProjectOS.Orchestration.WorkItem
import ProjectOS.Orchestration.OwnedFiles
import ProjectOS.Orchestration.ScopeTransition
import ProjectOS.Orchestration.DenyOverlay
import ProjectOS.Orchestration.WorkerProgress
import ProjectOS.Orchestration.MonitorRuns
import ProjectOS.Orchestration.Plan
import ProjectOS.Orchestration.NodeResult
import ProjectOS.Orchestration.State
import ProjectOS.Orchestration.Checkpoint
import ProjectOS.Orchestration.Recording
import ProjectOS.Orchestration.Retry
import ProjectOS.Orchestration.RetryBudget
import ProjectOS.Orchestration.RetryLoop
import ProjectOS.Architecture.ImplementationContract
import ProjectOS.Base.Levels
import ProjectOS.Base.Schedules
import ProjectOS.Architecture.Bindings
import ProjectOS.Workflow.FileUnits
import ProjectOS.Workflow.Compiler
import ProjectOS.Workflow.CompiledItems
import ProjectOS.Workflow.CompiledPlan
import ProjectOS.Workflow.DeliveryGraph
import ProjectOS.Workflow.WaveBarrier
import ProjectOS.Workflow.FilePartition
import ProjectOS.Workflow.Grants
import ProjectOS.Workflow.Compilable
import ProjectOS.Architecture.DesignContract
import ProjectOS.Planner.DynamicBuilder
import ProjectOS.Planner.DeliveryTail
import ProjectOS.Agent.Registry
import ProjectOS.Base.Downstream
import ProjectOS.Planner.Patch
import ProjectOS.Orchestration.Trace
import ProjectOS.Orchestration.PlanRecord
import ProjectOS.Planner.PatchReport
import ProjectOS.Orchestration.Runner
import ProjectOS.Orchestration.PlanContract
import ProjectOS.Orchestration.RewriteRun
import ProjectOS.Orchestration.Delivery
import ProjectOS.Orchestration.Traceability
import ProjectOS.Base.ReadModifyWrite
import ProjectOS.Orchestration.BindingRace
import ProjectOS.Orchestration.WorkerLease
import ProjectOS.Orchestration.SchemaEvolution
import ProjectOS.Orchestration.SchemaCompatibility
import ProjectOS.Artifact.Repository
import ProjectOS.Artifact.Publication
import ProjectOS.Orchestration.Scheduling
import ProjectOS.Orchestration.RunLoop
import ProjectOS.Base.Pattern
import ProjectOS.Base.Matches
import ProjectOS.Base.PurePath
import ProjectOS.Base.GitObjects
import ProjectOS.Code.GitRepository
import ProjectOS.Code.Checkout
import ProjectOS.Code.Staging
import ProjectOS.Code.TaskNames
import ProjectOS.Code.Isolation
import ProjectOS.Code.Durability
import ProjectOS.Code.LocalImports
import ProjectOS.Code.BindingGate
import ProjectOS.Base.JsonText
import ProjectOS.Base.JsonLines
import ProjectOS.Base.JsonRepr
import ProjectOS.Memory.Event
import ProjectOS.Memory.Store
import ProjectOS.Memory.Lossless
import ProjectOS.Orchestration.EventLog
import ProjectOS.Memory.AppendOnly
import ProjectOS.Memory.Crashes
import ProjectOS.Memory.TornLines
import ProjectOS.Memory.Governance
import ProjectOS.Memory.Lifecycle
import ProjectOS.Memory.GovernedRuns
import ProjectOS.Orchestration.CodeDelivery
import ProjectOS.Policy.GitIntegration
import ProjectOS.Orchestration.DeliveryAgreement
import ProjectOS.Application.Conversations
import ProjectOS.Application.Numbering
import ProjectOS.Base.Leftmost
import ProjectOS.Orchestration.ReviewVerdict
import ProjectOS.Orchestration.ReviewGate
import ProjectOS.Runtime.PortLifecycle
import ProjectOS.Runtime.PortHost
import ProjectOS.Runtime.CommandValidator
import ProjectOS.Runtime.BackendCommand
import ProjectOS.Runtime.PortOwnership
import ProjectOS.Sandbox.ApplicationRunner
import ProjectOS.Sandbox.Leftovers
import ProjectOS.ToolManager.ToolResult
import ProjectOS.ToolManager.Grants
import ProjectOS.ToolManager.GrantLedger
import ProjectOS.ToolManager.AccessPolicy
import ProjectOS.ToolManager.GrantMeaning
import ProjectOS.ToolManager.GrantRace
import ProjectOS.ToolManager.GrantPersistence
import ProjectOS.Orchestration.BatchJournal
import ProjectOS.Orchestration.SiblingResults
import ProjectOS.Base.Shlex
import ProjectOS.Orchestration.FieldAliases
import ProjectOS.Architecture.ContractInput
import ProjectOS.Architecture.ProjectContract
import ProjectOS.Architecture.Handoff
import ProjectOS.Architecture.ContractForms
import ProjectOS.Base.DepthFirst
import ProjectOS.Orchestration.ArchitectureConsistency
import ProjectOS.Orchestration.CircularDependencies
import ProjectOS.Architecture.Designs
import ProjectOS.Architecture.DesignPasses
import ProjectOS.Architecture.UnitWaves
import ProjectOS.Architecture.InterfaceRenaming
import ProjectOS.Orchestration.VersionOrder
import ProjectOS.Artifact.StagedOutputs
import ProjectOS.Application.MonitorRetry
import ProjectOS.Base.Words
import ProjectOS.Base.Fields
import ProjectOS.Orchestration.CreateTable
import ProjectOS.Orchestration.SqlFields
import ProjectOS.Orchestration.SqlStatements
import ProjectOS.Orchestration.SqlReferences
import ProjectOS.Code.Listings
import ProjectOS.Base.Worklist
import ProjectOS.Application.ArchitectureFindings
import ProjectOS.Application.ArchitectureRecovery
import ProjectOS.Code.HttpContract
import ProjectOS.Code.JsSource
import ProjectOS.Code.JsCalls
import ProjectOS.Code.Integration
import ProjectOS.Planner.ModuleGraph
import ProjectOS.Base.JsonSorted
import ProjectOS.ToolManager.Catalog
import ProjectOS.ToolManager.CatalogRuns
import ProjectOS.Memory.Checkpoints
import ProjectOS.Llm.Responses
import ProjectOS.Base.Latest
import ProjectOS.Orchestration.Evidence
import ProjectOS.Orchestration.TestGate
import ProjectOS.Base.Replace
import ProjectOS.Base.Sections
import ProjectOS.Orchestration.ReviewQuality
import ProjectOS.Llm.StreamCreation
import ProjectOS.Base.Episodes
import ProjectOS.Application.ResultSummary
import ProjectOS.Application.SendMessage
import ProjectOS.Application.TerminalTurns
import ProjectOS.Application.TerminalRuns
import ProjectOS.Orchestration.SameValue
import ProjectOS.Orchestration.AliasNormalization
import ProjectOS.Base.JsonIndented
import ProjectOS.Artifact.Intermediate
import ProjectOS.Sandbox.Resolver
import ProjectOS.Memory.Index
import ProjectOS.Memory.Recall
import ProjectOS.Sandbox.ResourceNames
import ProjectOS.Planner.ModuleExpansion
