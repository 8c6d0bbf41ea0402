import BlockIntake.PowerOfTwo

/-!
# Sizes of trees and batches
-/

namespace BlockIntake.Merkle

/-- The number of heights a tree can have. -/
def maxDepth : Nat := 24

/-- The number of leaves a tree can hold: its root stands at the last height. -/
def maxLeaves : Nat := powerOfTwo (maxDepth - 1)

/-- The number of hashes combined at a time when none is configured. -/
def defaultBatchSize : Nat := 8

/-- The number of hashes from which on a batch is combined by a worker. -/
def minToSchedule : Nat := 16

end BlockIntake.Merkle
