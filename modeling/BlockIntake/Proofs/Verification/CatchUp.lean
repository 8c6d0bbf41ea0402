import BlockIntake.Proofs.Verification.Deferred
import BlockIntake.Proofs.Verification.Hashing

/-!
# Catching up

A session whose task works off a queue lags behind an inline session that is given the same batches,
perhaps over other trees: some batches have been handled by the one and still wait in the other. If
no batch was lost, handling those that wait leads to the same verification, and what is told on the
way is what the other session has told already. Running the task does just that.
-/

namespace BlockIntake

open Merkle

namespace Verification

variable {v w : Verification StrategyTree} {verifier : Verifier}

/-- Two verifications of a block in the same state, with the same result, and, while they run, with
the same leaves. -/
structure Agree (v w : Verification StrategyTree) : Prop where
  /-- The block is the same. -/
  block : w.block = v.block
  /-- The state is the same. -/
  state : w.state = v.state
  /-- The result is the same. -/
  result : w.result = v.result
  /-- The trees are like the same trees that keep their leaves. -/
  trees : v.state = .running → ∃ naive, AlikeTrees v.trees naive ∧ AlikeTrees w.trees naive

namespace Agree

/-- Processing a batch has the same outcome. -/
theorem process (agree : v.Agree w) (running : v.state = .running) (verifier : Verifier)
    (items : Batch) :
    SameOutcome (fun a b => b.1 = a.1 ∧ a.2.Agree b.2) (v.process verifier items)
      (w.process verifier items) := by
  obtain ⟨naive, halike, halike'⟩ := agree.trees running
  have hsame := (halike.addAll items).common (halike'.addAll items)
  unfold Verification.process
  refine hsame.bind fun trees trees' related => ?_
  have hagree : Agree { v with trees } { w with trees := trees' } :=
    ⟨agree.block, agree.state, agree.result, fun _ => related⟩
  obtain ⟨leaves, hleaves, hleaves'⟩ := related
  have hroots : trees'.roots = trees.roots := hleaves'.roots.trans hleaves.roots.symm
  cases items.getLast? with
  | none => exact .ok ⟨rfl, hagree⟩
  | some last =>
    dsimp only
    split
    · exact .ok ⟨rfl, hagree⟩
    · refine (SameOutcome.refl _).bind fun proof proof' hproof => ?_
      subst hproof
      have hfinal :
          ({ w with trees := trees' } : Verification StrategyTree).finalize verifier proof =
            ({ v with trees } : Verification StrategyTree).finalize verifier proof := by
        simp only [finalize, agree.block, hroots]
      rw [hfinal]
      refine (SameOutcome.refl _).bind fun hash hash' hhash => ?_
      subst hhash
      exact .ok ⟨rfl, hagree⟩

/-- A failure is the same. -/
theorem fail (agree : v.Agree w) (error : VerificationError) :
    (v.fail error).1.Agree (w.fail error).1 ∧ (w.fail error).2 = (v.fail error).2 := by
  rw [Verification.fail, Verification.fail, agree.result, agree.block]
  split
  · exact ⟨agree, rfl⟩
  · exact ⟨⟨rfl, rfl, rfl, SessionState.noConfusion⟩, rfl⟩

/-- A verified block is the same. -/
theorem complete (agree : v.Agree w) (hash : Digest) :
    (v.complete hash).1.Agree (w.complete hash).1 ∧ (w.complete hash).2 = (v.complete hash).2 := by
  rw [Verification.complete, Verification.complete, agree.result, agree.block]
  split
  · exact ⟨agree, rfl⟩
  · exact ⟨⟨rfl, rfl, rfl, SessionState.noConfusion⟩, rfl⟩

/-- Handling a batch keeps two verifications in agreement and tells the same. -/
theorem handle (agree : v.Agree w) (verifier : Verifier) (items : Batch) :
    (v.handle verifier items).1.Agree (w.handle verifier items).1 ∧
      (w.handle verifier items).2 = (v.handle verifier items).2 := by
  by_cases hstate : v.state ≠ .running
  · have hstate' : w.state ≠ .running := agree.state ▸ hstate
    rw [handle_of_ended hstate, handle_of_ended hstate', agree.block]
    exact ⟨agree, rfl⟩
  · have hstate' : ¬ w.state ≠ .running := agree.state ▸ hstate
    have hsame := agree.process (not_not.mp hstate) verifier items
    rw [Verification.handle, Verification.handle, if_neg hstate, if_neg hstate']
    generalize v.process verifier items = answer at hsame ⊢
    generalize w.process verifier items = answer' at hsame ⊢
    cases hsame with
    | error fault =>
      cases fault with
      | refused error => exact agree.fail error
      | crashed crash => exact agree.fail (.ofCrash crash)
    | @ok a b related =>
      obtain ⟨hash, next⟩ := a
      obtain ⟨hash', next'⟩ := b
      obtain ⟨rfl, hagree⟩ := related
      cases hash' with
      | none => exact ⟨hagree, rfl⟩
      | some hash => exact hagree.complete hash

end Agree

end Verification

namespace Session

variable {late prompt : Session StrategyTree} {verifier : Verifier}

/-- A batch was lost to a full queue. -/
def Overflowed (s : Session StrategyTree) : Prop :=
  ∃ queue, s.drive = .queued queue ∧ queue.overflowed = true

/-- A session with a task follows an inline session: it agrees with it once what waits has been
handled. -/
structure Follows (verifier : Verifier) (late prompt : Session StrategyTree) : Prop where
  /-- The session has lost no batch. -/
  tended : ∃ queue, late.Tended queue
  /-- The other session is inline. -/
  inline : prompt.drive = .inline
  /-- They agree in the end. -/
  agree : (late.caughtUp verifier).Agree prompt.verification

namespace Follows

/-- A batch that is appended to both sessions is owed by the one if it is told by the other. -/
theorem append (follows : Follows verifier late prompt) (held : late.held = true) (items : Batch)
    (kept : ¬ (late.append verifier items).1.Overflowed) :
    Follows verifier (late.append verifier items).1 (prompt.append verifier items).1 ∧
      (late.append verifier items).1.held = true ∧
      Silent (late.append verifier items).2 ∧
      TellSame (late.owed verifier ++ (prompt.append verifier items).2)
        ((late.append verifier items).1.owed verifier) := by
  obtain ⟨queue, htended⟩ := follows.tended
  have hroom : late.verification.state = .running → late.waiting.length < queue.capacity := by
    intro hrunning
    by_contra hfull
    rw [htended.waiting_eq] at hfull
    rw [htended.append_eq held hrunning, if_pos (not_lt.mp hfull)] at kept
    exact kept ⟨_, rfl, rfl⟩
  obtain ⟨hleads, hheld, hsilent⟩ := htended.append held verifier items hroom
  obtain ⟨next, -, hnext⟩ := hleads.tended
  obtain ⟨hprompt, hsignals⟩ := append_inline follows.inline verifier items
  obtain ⟨hagree, htold⟩ := follows.agree.handle verifier items
  have hcaughtUp := hleads.caughtUp
  have hpaid := hleads.told
  rw [Verification.handleAll_singleton] at hcaughtUp hpaid
  rw [hprompt, hsignals, htold]
  refine ⟨⟨⟨next, hnext⟩, follows.inline, ?_⟩, hheld, hsilent, ?_⟩
  · rw [hcaughtUp]
    exact hagree
  · have hnothing := (TellSame.refl []).append_silent hsilent
    exact hpaid.trans (hnothing.append (.refl _))

/-- Running the task tells what is owed, and then nothing waits. -/
theorem runTask (follows : Follows verifier late prompt) :
    Follows verifier (late.runTask verifier).1 prompt ∧
      (late.runTask verifier).1.held = late.held ∧
      (late.runTask verifier).1.waiting = [] ∧
      TellSame (late.owed verifier) (late.runTask verifier).2 := by
  obtain ⟨queue, htended⟩ := follows.tended
  obtain ⟨hnext, hheld, hnothing, hverification, htold⟩ := htended.runTask verifier
  refine ⟨⟨hnext, follows.inline, ?_⟩, hheld, hnothing, htold⟩
  rw [caughtUp_of_idle hnothing, hverification]
  exact follows.agree

/-- A session that is let go of still follows. -/
theorem release (follows : Follows verifier late prompt) :
    Follows verifier late.release prompt.release := by
  obtain ⟨queue, htended⟩ := follows.tended
  have hreleased : late.release.Tended queue :=
    htended.of_same rfl rfl fun hheld => absurd hheld Bool.false_ne_true
  exact ⟨⟨queue, hreleased⟩, follows.inline, follows.agree⟩

/-- A session that nothing waits for agrees with the one it follows. -/
theorem agree_of_idle (follows : Follows verifier late prompt) (idle : late.waiting = []) :
    late.verification.Agree prompt.verification := by
  have hagree := follows.agree
  rwa [caughtUp_of_idle idle] at hagree

end Follows

/-- New sessions of the same block follow each other, whatever their trees. -/
theorem follows_new {trees trees' : BlockTrees StrategyTree} (alike : AlikeTrees trees ⟨{}, {}⟩)
    (alike' : AlikeTrees trees' ⟨{}, {}⟩) (verifier : Verifier) (header : BlockHeader)
    (capacity : Nat) :
    Follows verifier (queued header trees capacity) (inline header trees') :=
  ⟨⟨_, tended_queued header trees capacity⟩, rfl, rfl, rfl, rfl, fun _ => ⟨_, alike, alike'⟩⟩

end Session

end BlockIntake
