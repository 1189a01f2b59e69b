import Localview.JournalDurability
import Localview.JournalLifecycle
import Localview.SurfaceRestart
import Localview.ReconciliationRetry
import Localview.ActionProtocol
import Localview.SurfaceRotation
import Localview.GovernorCaps
import Localview.OwnerPins
import Localview.SurfaceClaims
import Localview.SessionAssignment
import Localview.SessionLifecycle
import Localview.ContractCodec
import Localview.BoundedVerification
import Localview.LeaseTable
import Localview.VisualBaselineCache
import Localview.ArtifactRecovery
import Localview.ProviderOverflow
import Localview.AtspiAuthority
import Localview.FixTransaction
import Localview.FixProposals
import Localview.VerifyRuns
import Localview.LabRuns
import Localview.ObserverContinuity
import Localview.ReconciliationReceipts
import Localview.PostconditionEvaluation
import Localview.GovernorSchedule
import Localview.IdentityCapacity
import Localview.StrictCoverage
import Localview.SourceGraph
import Localview.SourceMapRoundTrip
import Localview.SourceMapLookup
import Localview.LiveContracts
import Localview.ContractConflicts
import Localview.RuntimeFactCitations
import Localview.StateKeys
import Localview.PerceptionBudget
import Localview.VisualPacket
import Localview.ContentStore
import Localview.CausalGraph
import Localview.ChangedRegions
import Localview.MaskRedaction
import Localview.BreakpointSearch
import Localview.AdaptiveSweep
import Localview.ResponsiveEvaluation
import Localview.CandidateTournament
import Localview.ReplayReceipt
import Localview.LayoutIssueCap
import Localview.LayoutAncestry
import Localview.PatchPaths
import Localview.ActionCorrelation
import Localview.EventBuffer
import Localview.NetworkFault
import Localview.PerceptualCache
import Localview.SnapshotDiff
import Localview.Attestation
import Localview.RevisionBisect
import Localview.FixDiff
import Localview.ProgressiveTargets
import Localview.PerformancePacket
import Localview.SurfaceRegistry
