import NoraInterviewer.Replay
import NoraInterviewer.Planner
import NoraInterviewer.Evidence
import NoraInterviewer.Collaborators
import NoraInterviewer.Controls
import NoraInterviewer.Judging
import NoraInterviewer.ReplayAgreement
import NoraInterviewer.AuditIntegrity
import NoraInterviewer.AuditHistories
import NoraInterviewer.Lifecycle
import NoraInterviewer.IfMatch
import NoraInterviewer.StartedFirst
import NoraInterviewer.StoreEquivalence
import NoraInterviewer.Decisions
import NoraInterviewer.Workbench
import NoraInterviewer.Rights
import NoraInterviewer.QuestionBudget
import NoraInterviewer.AnchorShare
import NoraInterviewer.AnchorLane
import NoraInterviewer.HeadCommitment
import NoraInterviewer.FailedRuns
import NoraInterviewer.SemanticProvenance
import NoraInterviewer.EvidenceRecompute
import NoraInterviewer.CurrentFindings
import NoraInterviewer.AllOrNothing
import NoraInterviewer.DecisionReplay
import NoraInterviewer.AudioLedger
import NoraInterviewer.MicrophoneRuns
import NoraInterviewer.VoiceStreamBridge
import NoraInterviewer.Transcripts
import NoraInterviewer.ControlTargets
import NoraInterviewer.OriginalWords
import NoraInterviewer.StickyContradictions
import NoraInterviewer.WorkbenchSteps
import NoraInterviewer.ToolLifecycle
import NoraInterviewer.Precedence
import NoraInterviewer.Lineage
import NoraInterviewer.JobIntake
import NoraInterviewer.ToolRequests
import NoraInterviewer.RequestedTools
import NoraInterviewer.VoiceCoordinator
import NoraInterviewer.VoiceSteps
import NoraInterviewer.VoiceGenerations
import NoraInterviewer.VoiceRuns
import NoraInterviewer.VoiceFloor
import NoraInterviewer.VoiceClosing
import NoraInterviewer.VoiceLog
import NoraInterviewer.VoiceAccounts
import NoraInterviewer.VoiceAgreement
import NoraInterviewer.Cooperative
import NoraInterviewer.VoiceOutputBridge
import NoraInterviewer.OutputSteps
import NoraInterviewer.OutputTables
import NoraInterviewer.StaleAudio
import NoraInterviewer.EventQueue
import NoraInterviewer.AudioSockets
import NoraInterviewer.StreamExpiry
import NoraInterviewer.Traces
import NoraInterviewer.TraceCounts
import NoraInterviewer.SessionRecords
import NoraInterviewer.ReviewReports
import NoraInterviewer.EvidenceBundles
import NoraInterviewer.WithdrawnEvidence
import NoraInterviewer.FallibleScans
import NoraInterviewer.ReviewQueues
import NoraInterviewer.LatestRuns
import NoraInterviewer.Dashboard
import NoraInterviewer.TenantDashboards
import NoraInterviewer.ReviewAssignments
import NoraInterviewer.OwnedRuns
import NoraInterviewer.AssignmentMoves
import NoraInterviewer.AssignmentProtocol
import NoraInterviewer.AssignmentRuns
import NoraInterviewer.RetentionRuns
import NoraInterviewer.RetentionPreview
import NoraInterviewer.TrackedRuns
import NoraInterviewer.ArtifactClients
import NoraInterviewer.ArtifactReads
import NoraInterviewer.ArtifactBacking
import NoraInterviewer.CircuitBreakers
import NoraInterviewer.EditSummaries
import NoraInterviewer.EnsembleVotes
import NoraInterviewer.EnsembleConsensus
import NoraInterviewer.EnsembleGate
import NoraInterviewer.IdealAead
import NoraInterviewer.EncryptedObjects
import NoraInterviewer.EncryptedEnvelopes
import NoraInterviewer.JsonText
import NoraInterviewer.JsonRoundTrip
import NoraInterviewer.JsonProgress
import NoraInterviewer.CodingTool
import NoraInterviewer.CodingResults
import NoraInterviewer.Base64Url
import NoraInterviewer.JsonBytes
import NoraInterviewer.JsonLimits
import NoraInterviewer.LinearInterpolation
import NoraInterviewer.Resampler
import NoraInterviewer.TrailingRuns
import NoraInterviewer.EnergyVad
import NoraInterviewer.VadReadings
import NoraInterviewer.VadBoundaries
import NoraInterviewer.VadRuns
import NoraInterviewer.AccessTokens
import NoraInterviewer.AcceptedTokens
import NoraInterviewer.ChunkPushes
import NoraInterviewer.StreamOpenings
import NoraInterviewer.FailedOpens
import NoraInterviewer.LoadedPairs
import NoraInterviewer.ExportedBundles
import NoraInterviewer.Coverage
import NoraInterviewer.AnswerProgress
import NoraInterviewer.Termination
import NoraInterviewer.DispatchedRuns
import NoraInterviewer.Webhooks
import NoraInterviewer.WebhookRuns
import NoraInterviewer.Ledgers
import NoraInterviewer.EvidenceLog
import NoraInterviewer.JudgeLog
import NoraInterviewer.CompleteLog
import NoraInterviewer.LockstepRuns
import NoraInterviewer.Backstage
import NoraInterviewer.BackstageSteps
import NoraInterviewer.UndisturbedRuns
import NoraInterviewer.AdmittedRuns
import NoraInterviewer.Authn
import NoraInterviewer.VouchedWrites
import NoraInterviewer.ClientRuns
import NoraInterviewer.RubricWorkflow
import NoraInterviewer.RubricBooks
import NoraInterviewer.RubricApprovals
import NoraInterviewer.CellViews
