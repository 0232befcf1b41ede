import SecureHome.Proofs.Dispossession
import SecureHome.Proofs.RunEnds
import SecureHome.Proofs.Handover
import SecureHome.Proofs.LeaseSafety
import SecureHome.Proofs.JournalDelivery
import SecureHome.Proofs.LaunchPlans
import SecureHome.Proofs.TerminalVocabulary
import SecureHome.Proofs.CallRecords
import SecureHome.Proofs.AfterLoss
import SecureHome.Proofs.Teardown
import SecureHome.Proofs.DurableConclusions
import SecureHome.Proofs.TerminalEvidence
import SecureHome.Proofs.DeclaredGates
import SecureHome.Proofs.RestartedTerminal
import SecureHome.Proofs.PresentationOrder
import SecureHome.Proofs.ManifestIdentity
import SecureHome.Proofs.Verification
import SecureHome.Proofs.ManifestRoundTrip
import SecureHome.Proofs.ReleasedIdentities
import SecureHome.Proofs.GovernanceHistory
import SecureHome.Proofs.Readiness
import SecureHome.Proofs.ReplacementGraph
import SecureHome.Proofs.DeliveryPair
import SecureHome.Proofs.ReplacementStep
import SecureHome.Proofs.StrictJson
import SecureHome.Proofs.NormalForm
import SecureHome.Proofs.NormalPaths
import SecureHome.Proofs.ReconciliationSets
import SecureHome.Proofs.HeldRuns
import SecureHome.Proofs.EventSequence
import SecureHome.Proofs.PackageIdentity
import SecureHome.Proofs.Publication
import SecureHome.Proofs.Projections
import SecureHome.Proofs.ReviewHistory
import SecureHome.Proofs.AffectedTargets
import SecureHome.Proofs.LintPolicy
import SecureHome.Proofs.ObservationBudget
import SecureHome.Proofs.ProjectedTables
import SecureHome.Proofs.ArchivedPackage
import SecureHome.Proofs.PathOrder
import SecureHome.Proofs.BuildPlan
import SecureHome.Proofs.TaskDelta
import SecureHome.Proofs.ReviewSections
import SecureHome.Proofs.WireRoundTrip
import SecureHome.Proofs.LinkGrammar
import SecureHome.Proofs.PolicySchema
