import Parmana.Connectors.Paytm
import Parmana.Crypto.ReloadedRecords
import Parmana.Gateway.NonceStore
import Parmana.Gateway.SingleRelease
import Parmana.Interaction.Concurrent
import Parmana.Interaction.History
import Parmana.Policy.ApprovalGate
import Parmana.Policy.Noninterference
import Parmana.Approval.Backing
import Parmana.Approval.Concurrency
import Parmana.Approval.Composite
import Parmana.Runtime.IntentRows
import Parmana.Runtime.Release
import Parmana.Runtime.Submission
import Parmana.Runtime.InFlight
import Parmana.Sdk.OfflineVerifier
import Parmana.Governance.ExternalConnectors
import Parmana.Governance.OverlappingApprovals
import Parmana.Governance.PolicyFiles
import Parmana.Governance.PolicyInEffect
import Parmana.Crypto.ExecutionChain
import Parmana.ExecutionControl.SingleUse
import Parmana.Gateway.Completeness
import Parmana.Approval.Registry
import Parmana.Gateway.ConnectorEvidence
import Parmana.Sdk.Release
import Parmana.Storage.RateLimit
import Parmana.Runtime.ExecutionComponent
import Parmana.Sdk.Encoding
import Parmana.Connectors.VendorPaths
import Parmana.Js.Comparison
import Parmana.Policy.ConflictsExact
import Parmana.Sdk.Approval
import Parmana.Interaction.Sessions
import Parmana.Runtime.TrustStorage
import Parmana.Connectors.PaytmIdentity
import Parmana.Connectors.ExternalEndpoint
import Parmana.Runtime.Convergence
import Parmana.Governance.DatedAhead
import Parmana.Governance.ApproverTransactions
import Parmana.Audit.TamperEvidence
import Parmana.Governance.StepUpBacking
import Parmana.Governance.SingleEffect
import Parmana.Api.Admission
import Parmana.Api.Isolation
import Parmana.Runtime.Provenance
import Parmana.Runtime.ReleasePath
import Parmana.Challenges.Repositories
