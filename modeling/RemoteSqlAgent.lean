import RemoteSqlAgent.JsText
import RemoteSqlAgent.JsJson
import RemoteSqlAgent.JsArray
import RemoteSqlAgent.JsSame
import RemoteSqlAgent.FlowGraph
import RemoteSqlAgent.JobDefinition
import RemoteSqlAgent.JobFlow
import RemoteSqlAgent.JobEdit
import RemoteSqlAgent.StepNodes
import RemoteSqlAgent.StepRebuild
import RemoteSqlAgent.StepRenumbering
import RemoteSqlAgent.StepBypass
import RemoteSqlAgent.StepRestoration
import RemoteSqlAgent.NormalisedText
import RemoteSqlAgent.Canonical
import RemoteSqlAgent.CanonicalEquivalence
import RemoteSqlAgent.JobDiff
import RemoteSqlAgent.Commands
import RemoteSqlAgent.Signing
import RemoteSqlAgent.Capabilities
import RemoteSqlAgent.CallProgram
import RemoteSqlAgent.SqlCalls
import RemoteSqlAgent.AgentWriter
import RemoteSqlAgent.AgentRepo
import RemoteSqlAgent.Outbox
import RemoteSqlAgent.CommandHandler
import RemoteSqlAgent.CommandWrites
import RemoteSqlAgent.CommandRemembrance
import RemoteSqlAgent.AppliedOnce
import RemoteSqlAgent.Session
import RemoteSqlAgent.SessionSafety
import RemoteSqlAgent.BoundedQueue
import RemoteSqlAgent.OutboxQueue
import RemoteSqlAgent.HistoryDelivery
import RemoteSqlAgent.HistoryAccount
import RemoteSqlAgent.Versioning
import RemoteSqlAgent.VersionTimeline
import RemoteSqlAgent.SnapshotAssembly
import RemoteSqlAgent.SnapshotCompleteness
import RemoteSqlAgent.Interleaving
import RemoteSqlAgent.CommandService
import RemoteSqlAgent.CommandRules
import RemoteSqlAgent.CommandStates
import RemoteSqlAgent.FourEyes
import RemoteSqlAgent.JsMap
import RemoteSqlAgent.Hub
import RemoteSqlAgent.HubRules
import RemoteSqlAgent.RemoteAttribution
import RemoteSqlAgent.LateReports
import RemoteSqlAgent.Supersession
import RemoteSqlAgent.DatedHistory
import RemoteSqlAgent.InstanceMonitor
import RemoteSqlAgent.MonitorRules
import RemoteSqlAgent.DefinitionPolling
import RemoteSqlAgent.KeyedTable
import RemoteSqlAgent.Sequencing
import RemoteSqlAgent.HistoryIngest
import RemoteSqlAgent.HistoryConfluence
import RemoteSqlAgent.LastRunColumns
import RemoteSqlAgent.JsCase
import RemoteSqlAgent.Environments
import RemoteSqlAgent.GrantsStore
import RemoteSqlAgent.Notifications
import RemoteSqlAgent.AlertStore
import RemoteSqlAgent.RunAlerts
import RemoteSqlAgent.HistoryHandler
import RemoteSqlAgent.FailureAlerts
import RemoteSqlAgent.AlertOrder
import RemoteSqlAgent.AlertThrottle
import RemoteSqlAgent.WorkerStream
import RemoteSqlAgent.WorkerTables
import RemoteSqlAgent.WorkerEffects
import RemoteSqlAgent.WorkerRules
import RemoteSqlAgent.WorkerIsolation
import RemoteSqlAgent.SessionLinks
import RemoteSqlAgent.LinkRules
import RemoteSqlAgent.LinkRuns
import RemoteSqlAgent.ConnectionFlag
import RemoteSqlAgent.DispatchDelivery
import RemoteSqlAgent.MonitorSet
import RemoteSqlAgent.MonitorExclusion
import RemoteSqlAgent.MonitorPrecedence
import RemoteSqlAgent.SessionDialing
import RemoteSqlAgent.SessionLiveness
import RemoteSqlAgent.SessionChannels
import RemoteSqlAgent.SecretFile
import RemoteSqlAgent.CertRenewal
import RemoteSqlAgent.PairInstallation
import RemoteSqlAgent.RenewalRounds
import RemoteSqlAgent.RenewalSafety
import RemoteSqlAgent.TracedRuns
import RemoteSqlAgent.RowLocks
import RemoteSqlAgent.Enrolment
import RemoteSqlAgent.EnrolmentRules
import RemoteSqlAgent.EnrolmentAtomicity
import RemoteSqlAgent.RunningJobs
import RemoteSqlAgent.RunTimeline
import RemoteSqlAgent.StepReachability
import RemoteSqlAgent.OutboxDraining
import RemoteSqlAgent.JsDigits
import RemoteSqlAgent.ScheduleCodec
import RemoteSqlAgent.AttributionExpiry
import RemoteSqlAgent.DeliveryAttempts
import RemoteSqlAgent.AuditExport
import RemoteSqlAgent.AuditAccounting
import RemoteSqlAgent.ListSlides
import RemoteSqlAgent.StepSlides
import RemoteSqlAgent.StepMoves
import RemoteSqlAgent.AddedStep
import RemoteSqlAgent.JsonReading
import RemoteSqlAgent.JobSchema
import RemoteSqlAgent.CanonicalRoundTrip
import RemoteSqlAgent.FanOutJoin
import RemoteSqlAgent.HistoryPolling
import RemoteSqlAgent.JsDate
import RemoteSqlAgent.AgentLogPolling
import RemoteSqlAgent.RowOrder
import RemoteSqlAgent.RunGrouping
import RemoteSqlAgent.JsScalars
import RemoteSqlAgent.LikePattern
import RemoteSqlAgent.JobSearch
import RemoteSqlAgent.JsRegExp
import RemoteSqlAgent.RowScrubbing
import RemoteSqlAgent.ReportedCeilings
import RemoteSqlAgent.InstanceConfigs
import RemoteSqlAgent.CredentialStatus
import RemoteSqlAgent.InstanceConfigRoutes
import RemoteSqlAgent.ConfigRequests
import RemoteSqlAgent.JsRegExpSyntax
import RemoteSqlAgent.LintDiagnostics
import RemoteSqlAgent.LintLocator
import RemoteSqlAgent.TsqlScan
import RemoteSqlAgent.TsqlRegions
import RemoteSqlAgent.TsqlMasking
import RemoteSqlAgent.TsqlRules
import RemoteSqlAgent.TsqlLint
import RemoteSqlAgent.PowerShellLint
import RemoteSqlAgent.BracketWords
import RemoteSqlAgent.BracketFindings
import RemoteSqlAgent.JsParseInt
import RemoteSqlAgent.LexComparison
import RemoteSqlAgent.VersionGate
import RemoteSqlAgent.EditingSessions
import RemoteSqlAgent.JsHex
import RemoteSqlAgent.Accounts
import RemoteSqlAgent.AccountRules
import RemoteSqlAgent.AccountAccess
import RemoteSqlAgent.AccountAdministration
import RemoteSqlAgent.CommandProvenance
import RemoteSqlAgent.RepeatedDeliveries
import RemoteSqlAgent.AppliedAsIssued
import RemoteSqlAgent.JsUtf8
import RemoteSqlAgent.JsBase64
import RemoteSqlAgent.SqlCredentials
import RemoteSqlAgent.CredentialDelivery
import RemoteSqlAgent.TypedPasswords
