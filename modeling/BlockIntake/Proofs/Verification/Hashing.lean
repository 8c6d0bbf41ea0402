import BlockIntake.Proofs.Merkle.Planned
import BlockIntake.Proofs.Verification.Ending

/-!
# What a verification has hashed

As long as a verification runs, its trees are those over the items of all batches processed so far,
in order and none twice. So a hash it ends with is the hash of the block made of these batches, the
last of which ends with a proof signed for that hash.
-/

namespace BlockIntake

open Merkle

/-- The trees of a session, and trees that keep their leaves, after the same items. -/
structure AlikeTrees (trees : BlockTrees StrategyTree) (naive : BlockTrees LeafTree) : Prop where
  /-- The trees of the input side. -/
  inputs : Alike trees.inputs naive.inputs
  /-- The trees of the output side. -/
  outputs : Alike trees.outputs naive.outputs

namespace AlikeTrees

variable {trees : BlockTrees StrategyTree} {naive : BlockTrees LeafTree}

/-- Appending an item has the same outcome. -/
theorem add (alike : AlikeTrees trees naive) (item : Item) :
    SameOutcome AlikeTrees (trees.add item) (naive.add item) := by
  unfold BlockTrees.add
  cases item.kind.side? with
  | none => exact .ok alike
  | some side =>
    cases side with
    | input =>
      refine ((alike.inputs.add item.leafHash.bytes).mapError _).bind fun _ _ hinputs => ?_
      exact .ok ⟨hinputs, alike.outputs⟩
    | output =>
      refine ((alike.outputs.add item.leafHash.bytes).mapError _).bind fun _ _ houtputs => ?_
      exact .ok ⟨alike.inputs, houtputs⟩

/-- Appending the items of a batch has the same outcome. -/
theorem addAll (alike : AlikeTrees trees naive) (items : Batch) :
    SameOutcome AlikeTrees (trees.addAll items) (naive.addAll items) :=
  SameOutcome.foldlM (fun _ _ item h => h.add item) items alike

/-- The roots are the same. -/
theorem roots (alike : AlikeTrees trees naive) : trees.roots = naive.roots := by
  rw [BlockTrees.roots, BlockTrees.roots, alike.inputs.root, alike.outputs.root]

end AlikeTrees

/-- The trees over items, appended in order. -/
def treesOver (items : Batch) : Except VerificationFault (BlockTrees LeafTree) :=
  BlockTrees.addAll ⟨{}, {}⟩ items

/-- Batches are hashed one after the other. -/
theorem treesOver_append (front back : Batch) :
    treesOver (front ++ back) = treesOver front >>= fun trees => trees.addAll back :=
  List.foldlM_append

/-- The hash of a block comes from the roots of the trees over its items. -/
theorem blockHashOf_eq {items : Batch} {trees : BlockTrees LeafTree} {inputRoot outputRoot : Digest}
    (hashed : treesOver items = .ok trees) (roots : trees.roots = .ok (inputRoot, outputRoot))
    (proof : BlockProof) :
    blockHashOf items proof.previousRoot proof.stateRoot =
      .ok (proof.blockHash inputRoot outputRoot) := by
  rw [treesOver] at hashed
  simp only [blockHashOf, hashed, roots, ok_bind, pure_eq_ok]
  rfl

/-- The batches make a block with a hash: the last batch ends with a proof for the block of this
number, the hash is that of all their items, and the signature in the proof is good for it. -/
def SignedBlock (verifier : Verifier) (number : UInt64) (batches : List Batch) (hash : Digest) :
    Prop :=
  ∃ batch last proof, batches.getLast? = some batch ∧ batch.getLast? = some last ∧
    last.kind = .blockProof ∧ last.proof = .ok proof ∧ proof.block = number ∧
    blockHashOf batches.flatten proof.previousRoot proof.stateRoot = .ok hash ∧
    verifier hash proof.signature = .ok true

namespace Verification

variable {v next : Verification StrategyTree} {verifier : Verifier} {batches : List Batch}

/-- A proof that is found good is for the block, and its signature is good for the hash. -/
theorem finalize_ok {proof : BlockProof} {hash : Digest}
    (h : v.finalize verifier proof = .ok hash) :
    proof.block = v.block ∧ verifier hash proof.signature = .ok true ∧
      ∃ inputRoot outputRoot, v.trees.roots = .ok (inputRoot, outputRoot) ∧
        hash = proof.blockHash inputRoot outputRoot := by
  unfold finalize at h
  by_cases hblock : proof.block ≠ v.block
  · simp [hblock] at h
  · rw [if_neg hblock] at h
    cases hroots : v.trees.roots with
    | error fault => simp [hroots] at h
    | ok roots =>
      obtain ⟨inputRoot, outputRoot⟩ := roots
      simp only [hroots, ok_bind, pure_eq_ok] at h
      cases hverdict : verifier (proof.blockHash inputRoot outputRoot) proof.signature with
      | error crash => simp [hverdict] at h
      | ok good =>
        cases good with
        | false => simp [hverdict] at h
        | true =>
          simp only [hverdict, orCrash_ok, ok_bind, if_true, Except.ok.injEq] at h
          refine ⟨not_not.mp hblock, ?_, inputRoot, outputRoot, rfl, h.symm⟩
          rw [← h, hverdict]

/-- A batch that ends with a good proof yields the hash of the block. -/
theorem process_signed {σ : Type} [TreeHasher σ] {v : Verification σ} {trees : BlockTrees σ}
    {items : Batch} {last : Item} {proof : BlockProof} {inputRoot outputRoot : Digest}
    (hashed : v.trees.addAll items = .ok trees) (ends : items.getLast? = some last)
    (kind : last.kind = .blockProof) (reads : last.proof = .ok proof)
    (block : proof.block = v.block) (roots : trees.roots = .ok (inputRoot, outputRoot))
    (good : verifier (proof.blockHash inputRoot outputRoot) proof.signature = .ok true) :
    v.process verifier items =
      .ok (some (proof.blockHash inputRoot outputRoot), { v with trees }) := by
  simp [process, hashed, ends, kind, reads, finalize, block, roots, good, Except.mapError,
    orRefuse]

/-- A verification that runs has hashed the items of these batches. -/
structure OnTrack (v : Verification StrategyTree) (batches : List Batch) : Prop where
  /-- It runs. -/
  running : v.state = .running
  /-- It has no result. -/
  pending : v.result = none
  /-- Its trees are those over the items. -/
  hashed : ∃ naive, treesOver batches.flatten = .ok naive ∧ AlikeTrees v.trees naive

/-- A verification that has ended, with the hash of a signed block that these batches begin with, or
with a failure. -/
inductive Judged (verifier : Verifier) (v : Verification StrategyTree) (batches : List Batch) :
    Prop where
  /-- It has failed. -/
  | failed (error : VerificationError) (state : v.state = .failed)
      (result : v.result = some (.failed v.block error))
  /-- The block was verified. -/
  | verified (hash : Digest) (front : List Batch) (state : v.state = .completed)
      (result : v.result = some (.verified v.block hash)) (begins : front <+: batches)
      (signed : SignedBlock verifier v.block front hash)

/-- Batches that come later change nothing. -/
theorem Judged.append (judged : Judged verifier v batches) (more : List Batch) :
    Judged verifier v (batches ++ more) := by
  cases judged with
  | failed error state result => exact .failed error state result
  | verified hash front state result begins signed =>
    exact .verified hash front state result (begins.trans (List.prefix_append _ _)) signed

/-- A verification fails if it has no result. -/
theorem judged_fail (pending : v.result = none) (error : VerificationError) :
    Judged verifier (v.fail error).1 batches := by
  simp only [fail, pending]
  exact .failed error rfl rfl

/-- A batch that was processed is hashed after the others, and a hash that came back is that of the
block. -/
theorem OnTrack.process (track : v.OnTrack batches) {items : Batch} {answer : Option Digest}
    (h : v.process verifier items = .ok (answer, next)) :
    next.OnTrack (batches ++ [items]) ∧ next.block = v.block ∧
      ∀ hash, answer = some hash → SignedBlock verifier v.block (batches ++ [items]) hash := by
  obtain ⟨naive, hhashed, halike⟩ := track.hashed
  obtain ⟨trees, htrees, rfl, hproof⟩ := process_ok h
  obtain ⟨more, hmore, hnext⟩ := (halike.addAll items).exists_ok htrees
  have hall : treesOver (batches ++ [items]).flatten = .ok more := by
    rw [List.flatten_append, List.flatten_singleton, treesOver_append, hhashed, ok_bind, hmore]
  refine ⟨⟨track.running, track.pending, more, hall, hnext⟩, rfl, ?_⟩
  intro hash hanswer
  obtain ⟨last, proof, hlast, hkind, hread, hfinal⟩ := hproof hash hanswer
  obtain ⟨hblock, hverdict, inputRoot, outputRoot, hroots, rfl⟩ := finalize_ok hfinal
  have hsame : more.roots = .ok (inputRoot, outputRoot) := hnext.roots.symm.trans hroots
  exact ⟨items, last, proof, List.getLast?_concat, hlast, hkind, hread, hblock,
    blockHashOf_eq hall hsame proof, hverdict⟩

/-- Handling a batch keeps a verification on track, or ends it with a justified verdict. -/
theorem OnTrack.handle (track : v.OnTrack batches) (verifier : Verifier) (items : Batch) :
    (v.handle verifier items).1.OnTrack (batches ++ [items]) ∨
      Judged verifier (v.handle verifier items).1 (batches ++ [items]) := by
  rw [Verification.handle, if_neg (not_not.mpr track.running)]
  cases hprocess : v.process verifier items with
  | error fault =>
    cases fault with
    | refused error => exact Or.inr (judged_fail track.pending error)
    | crashed crash => exact Or.inr (judged_fail track.pending (.ofCrash crash))
  | ok answer =>
    obtain ⟨hash, next⟩ := answer
    obtain ⟨hnext, hblock, hsigned⟩ := track.process hprocess
    cases hash with
    | none => exact Or.inl hnext
    | some hash =>
      have hgood := hsigned hash rfl
      rw [← hblock] at hgood
      simp only [complete, hnext.pending]
      exact Or.inr (.verified hash _ rfl rfl List.prefix_rfl hgood)

/-- A verification that was judged runs no more. -/
theorem Judged.state_ne_running (judged : Judged verifier v batches) : v.state ≠ .running := by
  cases judged with
  | failed error state result => rw [state]; decide
  | verified hash front state result begins signed => rw [state]; decide

/-- A verdict stays where nothing is told. -/
theorem Judged.of_keeps {signals : List Signal} (judged : Judged verifier v batches)
    (keeps : Keeps v next signals) : Judged verifier next batches := by
  cases judged with
  | failed error state result =>
    refine .failed error (keeps.state.trans state) ?_
    rw [keeps.result, keeps.block, result]
  | verified hash front state result begins signed =>
    refine .verified hash front (keeps.state.trans state) ?_ begins ?_
    · rw [keeps.result, keeps.block, result]
    · rw [keeps.block]
      exact signed

/-- A verdict is final. -/
theorem Judged.of_advances {signals : List Signal} (judged : Judged verifier v batches)
    (advances : Advances v next signals) : Judged verifier next batches := by
  rcases advances with keeps | ends
  · exact judged.of_keeps keeps
  · exact absurd ends.running judged.state_ne_running

/-- Working off batches in order keeps a verification on track, or ends it with a justified verdict.
The induction runs over the batches. -/
theorem OnTrack.workOff (track : v.OnTrack batches) (verifier : Verifier) (capacity : Nat)
    (waiting : List Batch) :
    ((Session.workOff verifier capacity false waiting v).1 = true ∧
      (Session.workOff verifier capacity false waiting v).2.1.OnTrack (batches ++ waiting)) ∨
    ((Session.workOff verifier capacity false waiting v).1 = false ∧
      Judged verifier (Session.workOff verifier capacity false waiting v).2.1
        (batches ++ waiting)) := by
  induction waiting generalizing v batches with
  | nil =>
    rw [Session.workOff, List.append_nil]
    exact Or.inl ⟨rfl, track⟩
  | cons items waiting ih =>
    have hsplit : batches ++ items :: waiting = (batches ++ [items]) ++ waiting := by simp
    rw [Session.workOff, if_neg Bool.false_ne_true, hsplit]
    dsimp only
    rcases track.handle verifier items with hnext | hjudged
    · rw [if_neg (not_not.mpr hnext.running)]
      exact ih hnext
    · rw [if_pos hjudged.state_ne_running]
      exact Or.inr ⟨rfl, hjudged.append waiting⟩

end Verification

end BlockIntake
