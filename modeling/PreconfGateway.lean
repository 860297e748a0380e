import PreconfGateway.Properties.AddressChecks
import PreconfGateway.Properties.Atomicity
import PreconfGateway.Properties.Authorisation
import PreconfGateway.Properties.BatchSave
import PreconfGateway.Properties.BatchStatus
import PreconfGateway.Properties.BeaconFailover
import PreconfGateway.Properties.CallTimes
import PreconfGateway.Properties.CanonicalPayload
import PreconfGateway.Properties.CommitmentDeadline
import PreconfGateway.Properties.CommitmentGas
import PreconfGateway.Properties.CommitmentGrounds
import PreconfGateway.Properties.CommitmentRegister
import PreconfGateway.Properties.ConstraintRetries
import PreconfGateway.Properties.DeadlineTests
import PreconfGateway.Properties.DelegationBatch
import PreconfGateway.Properties.DelegationCleanup
import PreconfGateway.Properties.DelegationGrounds
import PreconfGateway.Properties.DelegationLookup
import PreconfGateway.Properties.DelegationStore
import PreconfGateway.Properties.Delivery
import PreconfGateway.Properties.Deployed
import PreconfGateway.Properties.Durability
import PreconfGateway.Properties.FeeConsistency
import PreconfGateway.Properties.FeeQuotes
import PreconfGateway.Properties.FirstCome
import PreconfGateway.Properties.GasTally
import PreconfGateway.Properties.LegitimateRequest
import PreconfGateway.Properties.MessageGrounds
import PreconfGateway.Properties.OrphanedCommitment
import PreconfGateway.Properties.PayloadRoundTrip
import PreconfGateway.Properties.PriceCurve
import PreconfGateway.Properties.QuotedPrice
import PreconfGateway.Properties.RelayFormat
import PreconfGateway.Properties.RelayGrounds
import PreconfGateway.Properties.RequestHash
import PreconfGateway.Properties.Restarts
import PreconfGateway.Properties.RethRetries
import PreconfGateway.Properties.RightProposer
import PreconfGateway.Properties.RisingQuotes
import PreconfGateway.Properties.SatisfiablePayload
import PreconfGateway.Properties.SignatureRoundTrip
import PreconfGateway.Properties.SigningPreimages
import PreconfGateway.Properties.SingleDelivery
import PreconfGateway.Properties.SlotColumn
import PreconfGateway.Properties.SlotTimes
import PreconfGateway.Properties.SlotWindows
import PreconfGateway.Properties.StructEncoding
import PreconfGateway.Properties.SubmissionDeadline
import PreconfGateway.Properties.UsableConfig
import PreconfGateway.Properties.VerifiableReplies
