import BlockIntake.Merkle.CombiningTree

/-!
# Runs of a combining tree

Between two operations of its owner, and while the owner waits for a frontier, jobs of the pool may
land in any order. A run is a sequence of moves: a call of the owner, the landing of some job, or
another look of a waiting owner at the lane it waits for. A landing plan fixes one such order ahead
of time, so that a tree can be used like a value.
-/

namespace BlockIntake.Merkle

/-- One move in a run of a combining tree. -/
inductive Move where
  /-- The owner performs an operation. -/
  | call (op : TreeOp)
  /-- The job at a position of the pool lands. -/
  | land (position : Nat)
  /-- The waiting owner looks again. -/
  | resume

/-- A combining tree and the frontier its owner waits for, if any. -/
structure TreeRun where
  /-- The tree. -/
  tree : CombiningTree
  /-- The frontier that is being taken. -/
  scan : Option Scan := none

namespace TreeRun

/-- Continue to take a frontier: an answer, or the owner waits on. -/
def look (run : TreeRun) (scan : Scan) : Option TreeAnswer × TreeRun :=
  match run.tree.continueScan scan with
  | .error crash => (some (.fault (.crashed crash)), { run with scan := none })
  | .ok (scan, tree) =>
    if scan.left = 0 then (some (.frontier (tree.frontierOfScan scan)), ⟨tree, none⟩)
    else (none, ⟨tree, some scan⟩)

/-- The answer to a change of the tree. -/
def change (run : TreeRun) : Except TreeFault CombiningTree → Option TreeAnswer × TreeRun
  | .ok tree => (some .accepted, { run with tree })
  | .error fault => (some (.fault fault), run)

/-- Make a move. A call yields an answer at once, unless it is for a frontier that has to wait; an
owner that waits makes no calls. -/
def move (run : TreeRun) : Move → Option TreeAnswer × TreeRun
  | .call op =>
    match run.scan with
    | some _ => (none, run)
    | none =>
      match op with
      | .add leaf => run.change (run.tree.add leaf)
      | .count => (some (.count run.tree.leafCount), run)
      | .root => run.change run.tree.requestRoot
      | .frontier =>
        match run.tree.beginScan with
        | .error fault => (some (.fault fault), run)
        | .ok scan => run.look scan
  | .resume =>
    match run.scan with
    | none => (none, run)
    | some scan => run.look scan
  | .land position =>
    match run.tree.landJob position with
    | .ok tree => (none, { run with tree })
    | .error crash => (some (.fault (.crashed crash)), run)

/-- Make moves in order and collect the answers. -/
def play (run : TreeRun) : List Move → List TreeAnswer × TreeRun
  | [] => ([], run)
  | m :: moves =>
    let (answer, run) := run.move m
    let (answers, run) := run.play moves
    (answer.toList ++ answers, run)

end TreeRun

/-- Which jobs land after each operation, by their positions in the pool at that time. Jobs that no
plan mentions land, oldest first, when the root is awaited. -/
abbrev LandingPlan := List (List Nat)

/-- A combining tree whose jobs land according to a plan. -/
structure PlannedTree where
  /-- The tree. -/
  tree : CombiningTree
  /-- The landings after the operations to come. -/
  plan : LandingPlan := []

namespace PlannedTree

/-- Land the jobs that the plan has next. -/
def proceed (planned : PlannedTree) : Except Crash PlannedTree := do
  let tree ← planned.plan.head?.getD [] |>.foldlM (fun tree position => tree.landJob position)
    planned.tree
  return ⟨tree, planned.plan.tail⟩

/-- Append a leaf and land the jobs that the plan has next. -/
def add (planned : PlannedTree) (leaf : Bytes) : Except TreeFault PlannedTree := do
  let tree ← planned.tree.add leaf
  orCrash (proceed { planned with tree })

/-- Request the root and land the jobs that the plan has next. -/
def requestRoot (planned : PlannedTree) : Except TreeFault PlannedTree := do
  let tree ← planned.tree.requestRoot
  orCrash (proceed { planned with tree })

/-- Wait for a requested root: land the jobs that are left. A root that is not delivered then will
never be. -/
def awaitRoot (planned : PlannedTree) : Except TreeFault Digest := do
  let tree ← orCrash planned.tree.settle
  match tree.roots.head? with
  | some root => return root
  | none => throw (.refused .cancelled)

end PlannedTree

end BlockIntake.Merkle
