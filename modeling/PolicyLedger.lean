import PolicyLedger.DecisionPoint
import PolicyLedger.Language.Format
import PolicyLedger.Object.Format
import PolicyLedger.Proofs.Authoring.Identity
import PolicyLedger.Proofs.Authoring.OneTree
import PolicyLedger.Proofs.Authoring.SlotWrites
import PolicyLedger.Proofs.Authoring.VisibleParts
import PolicyLedger.Proofs.Decision.LaterWrites
import PolicyLedger.Proofs.Decision.Order
import PolicyLedger.Proofs.Decision.Termination
import PolicyLedger.Proofs.Guard.DescribedOnce
import PolicyLedger.Proofs.Guard.Positions
import PolicyLedger.Proofs.Manifest.Completion
import PolicyLedger.Proofs.Manifest.RoundTrip
import PolicyLedger.Proofs.Name.Spelling
import PolicyLedger.Proofs.Object.BlobCodec
import PolicyLedger.Proofs.Object.CommitReencoding
import PolicyLedger.Proofs.Object.Frame
import PolicyLedger.Proofs.Object.HeaderLimits
import PolicyLedger.Proofs.Object.Lineage
import PolicyLedger.Proofs.Object.TreeOffers
import PolicyLedger.Proofs.Request.Building
