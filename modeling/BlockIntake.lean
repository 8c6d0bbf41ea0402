import BlockIntake.Bytes.Range
import BlockIntake.Main
import BlockIntake.Merkle.Perfect
import BlockIntake.Verification.Interleaving
import BlockIntake.Verification.Preimages
import BlockIntake.Verification.Run
import BlockIntake.Proofs.Stream.Format
import BlockIntake.Proofs.Stream.Canonical
import BlockIntake.Proofs.Merkle.Level
import BlockIntake.Proofs.Merkle.Feed
import BlockIntake.Proofs.Merkle.Raise
import BlockIntake.Proofs.Merkle.Landing
import BlockIntake.Proofs.Merkle.Flush
import BlockIntake.Proofs.Merkle.Growing
import BlockIntake.Proofs.Merkle.Scanning
import BlockIntake.Proofs.Merkle.Mirror
import BlockIntake.Proofs.Merkle.Delivery
import BlockIntake.Proofs.Merkle.Completion
import BlockIntake.Proofs.Merkle.NextRoot
import BlockIntake.Proofs.Verification.Ending
import BlockIntake.Proofs.Verification.Handling
import BlockIntake.Proofs.Merkle.Planned
import BlockIntake.Proofs.Verification.Hashing
import BlockIntake.Proofs.Verification.Account
import BlockIntake.Proofs.Verification.Routing
import BlockIntake.Proofs.Verification.Acknowledged
import BlockIntake.Proofs.Verification.Verdict
import BlockIntake.Proofs.Verification.CatchUp
import BlockIntake.Proofs.Verification.Refinement
import BlockIntake.Proofs.Sha2
import BlockIntake.Proofs.Merkle.Padded
import BlockIntake.Proofs.Verification.Binding
import BlockIntake.Proofs.Verification.Reception
import BlockIntake.Proofs.Verification.Twin
import BlockIntake.Proofs.Verification.Isolation
import BlockIntake.Proofs.Verification.Balance
import BlockIntake.Proofs.Verification.Counters
import BlockIntake.Proofs.Verification.LostBatch
import BlockIntake.Proofs.Merkle.BinaryFrontier
import BlockIntake.Proofs.Verification.Deferred
import BlockIntake.Proofs.Node.Blocks
import BlockIntake.Proofs.Verification.WholeBlock
import BlockIntake.Proofs.Broadcast
import BlockIntake.Proofs.Node.Listening
import BlockIntake.Proofs.Node.Accounts
import BlockIntake.Proofs.Merkle.AnyFrontier
import BlockIntake.Proofs.Verification.Blame
import BlockIntake.Proofs.Verification.Overflow
import BlockIntake.Proofs.Node.Chain
import BlockIntake.Proofs.Merkle.Credit
import BlockIntake.Proofs.Merkle.FullTree
import BlockIntake.Proofs.Notifier.Published
import BlockIntake.Proofs.Node.Acceptance
import BlockIntake.Proofs.Merkle.Aligned
import BlockIntake.Proofs.Merkle.Sequencer
