import BlockIntake.Proofs.Verification.Acknowledged
import BlockIntake.Proofs.Verification.Handling
import BlockIntake.Verification.Preimages

/-!
# The verdict over a block

An inline session waits for the first batch that ends with a proof. The items received until then,
joined in order, determine its verdict: whether the proof can be read, whether it is for the block,
and whether its signature is accepted for the hash of these items, computed in one go. How the items
were cut into batches does not matter, nor do batches that come later, nor which tree hashes them,
as long as every tree has room for its items.
-/

namespace BlockIntake

open Merkle

/-- A batch whose last item is a proof. -/
def EndsWithProof (items : Batch) : Prop :=
  ∃ last, items.getLast? = some last ∧ last.kind = .blockProof

/-- Every tree has room for the items of its side. -/
def Fits (items : Batch) : Prop := ∀ side, (itemsOn side items).length ≤ maxLeaves

/-- The check of signatures that finds good what is accepted, and never crashes. -/
def certain (accepts : Digest → Bytes → Bool) : Verifier :=
  fun hash signature => .ok (accepts hash signature)

/-- The result that items ending with a proof deserve, in the session of a block, where `accepts`
tells whether a signature is good for a hash. -/
inductive Verdict (accepts : Digest → Bytes → Bool) (number : UInt64) (items : Batch) :
    VerificationResult → Prop where
  /-- The proof cannot be read. -/
  | unreadable {last : Item} {error : RecordError} (ends : items.getLast? = some last)
      (kind : last.kind = .blockProof) (unread : last.proof = .error error) :
      Verdict accepts number items
        (.failed number (.parseFailure ItemKind.blockProof.name error.message))
  /-- The proof is for another block. -/
  | otherBlock {last : Item} {proof : BlockProof} (ends : items.getLast? = some last)
      (kind : last.kind = .blockProof) (reads : last.proof = .ok proof)
      (other : proof.block ≠ number) :
      Verdict accepts number items (.failed number (.blockMismatch number proof.block))
  /-- The signature is not accepted for the hash of the block. -/
  | badSignature {last : Item} {proof : BlockProof} {hash : Digest}
      (ends : items.getLast? = some last) (kind : last.kind = .blockProof)
      (reads : last.proof = .ok proof) (same : proof.block = number)
      (hashed : blockHashOf items proof.previousRoot proof.stateRoot = .ok hash)
      (bad : accepts hash proof.signature = false) :
      Verdict accepts number items (.failed number (.signatureMismatch number hash.short))
  /-- The signature is accepted for the hash of the block. -/
  | verified {last : Item} {proof : BlockProof} {hash : Digest}
      (ends : items.getLast? = some last) (kind : last.kind = .blockProof)
      (reads : last.proof = .ok proof) (same : proof.block = number)
      (hashed : blockHashOf items proof.previousRoot proof.stateRoot = .ok hash)
      (good : accepts hash proof.signature = true) :
      Verdict accepts number items (.verified number hash)

/-- Items deserve one result only. -/
theorem Verdict.unique {accepts : Digest → Bytes → Bool} {number : UInt64} {items : Batch}
    {result other : VerificationResult} (verdict : Verdict accepts number items result)
    (verdict' : Verdict accepts number items other) : result = other := by
  cases verdict <;> cases verdict' <;> simp_all

section Room

variable {items : Batch}

/-- What fits fits with fewer items. -/
theorem Fits.of_append {more : Batch} (fits : Fits (items ++ more)) : Fits items := by
  intro side
  have hall := fits side
  rw [itemsOn, List.filter_append, List.length_append] at hall
  exact (Nat.le_add_right _ _).trans hall

/-- One more item is one more leaf on its side. -/
theorem leavesOn_concat (side : Side) (items : Batch) (item : Item) :
    leavesOn side (items ++ [item]) =
      leavesOn side items ++ if item.kind.side? = some side then [item.leafHash] else [] := by
  rw [leavesOn, leavesOn, itemsOn, itemsOn, List.filter_append, List.map_append]
  by_cases hside : item.kind.side? = some side <;> simp [hside]

/-- Items that fit are hashed, and the trees keep their leaves. -/
theorem treesOver_eq (fits : Fits items) :
    treesOver items = .ok ⟨{ leaves := (leavesOn .input items).toArray },
      { leaves := (leavesOn .output items).toArray }⟩ := by
  induction items using List.reverseRecOn with
  | nil => rfl
  | append_singleton items item ih =>
    have hroom : ∀ side, item.kind.side? = some side →
        (leavesOn side items).toArray.size < maxLeaves := by
      intro side hside
      have hall := fits side
      rw [itemsOn, List.filter_append] at hall
      simp only [hside, beq_self_eq_true, List.filter_cons_of_pos, List.filter_nil,
        List.length_append, List.length_singleton] at hall
      simpa [leavesOn, itemsOn] using hall
    rw [treesOver_append, ih fits.of_append, ok_bind, leavesOn_concat, leavesOn_concat,
      BlockTrees.addAll, List.foldlM_cons, BlockTrees.add]
    cases hside : item.kind.side? with
    | none => simp
    | some side =>
      have hsize := hroom side hside
      cases side with
      | input =>
        have hadd : LeafTree.add { leaves := (leavesOn .input items).toArray }
            item.leafHash.bytes = .ok _ := add_digest rfl hsize item.leafHash
        simp [TreeHasher.add, hadd, ofTreeFault, Except.mapError, LeafTree.push]
      | output =>
        have hadd : LeafTree.add { leaves := (leavesOn .output items).toArray }
            item.leafHash.bytes = .ok _ := add_digest rfl hsize item.leafHash
        simp [TreeHasher.add, hadd, ofTreeFault, Except.mapError, LeafTree.push]

/-- The roots over items that fit stand at the top of their leaves. -/
theorem roots_over_eq (fits : Fits items) :
    BlockTrees.roots (⟨{ leaves := (leavesOn .input items).toArray },
      { leaves := (leavesOn .output items).toArray }⟩ : BlockTrees LeafTree) =
      .ok (topHash (leavesOn .input items), topHash (leavesOn .output items)) := by
  have hfew : ∀ side, (leavesOn side items).toArray.toList.length ≤ maxLeaves := by
    intro side
    simpa [leavesOn] using fits side
  rw [BlockTrees.roots, root_eq rfl rfl (hfew .input), root_eq rfl rfl (hfew .output)]
  rfl

/-- The trees over items that fit have roots. -/
theorem exists_roots (fits : Fits items) {trees : BlockTrees LeafTree}
    (hashed : treesOver items = .ok trees) :
    ∃ inputRoot outputRoot, trees.roots = .ok (inputRoot, outputRoot) := by
  rw [treesOver_eq fits] at hashed
  obtain rfl := Except.ok.inj hashed
  exact ⟨_, _, roots_over_eq fits⟩

end Room

namespace Verification

variable {v : Verification StrategyTree} {batches : List Batch} {items : Batch}

/-- The trees of a verification take a batch that fits. -/
theorem OnTrack.exists_trees (track : v.OnTrack batches)
    (fits : Fits (batches ++ [items]).flatten) :
    ∃ trees naive, v.trees.addAll items = .ok trees ∧
      treesOver (batches ++ [items]).flatten = .ok naive ∧ AlikeTrees trees naive := by
  obtain ⟨earlier, hearlier, halike⟩ := track.hashed
  have hall := treesOver_eq fits
  have hsame := halike.addAll items
  rw [List.flatten_append, List.flatten_singleton, treesOver_append, hearlier, ok_bind] at hall ⊢
  rw [hall] at hsame ⊢
  generalize v.trees.addAll items = answer at hsame ⊢
  cases hsame with
  | ok related => exact ⟨_, _, rfl, rfl, related⟩

/-- A batch that fits and does not end with a proof is hashed, and nothing is told. -/
theorem OnTrack.handle_open (track : v.OnTrack batches) (fits : Fits (batches ++ [items]).flatten)
    (isOpen : ¬ EndsWithProof items) (verifier : Verifier) :
    (v.handle verifier items).1.OnTrack (batches ++ [items]) ∧
      (v.handle verifier items).2 = [] := by
  obtain ⟨trees, naive, htrees, hnaive, halike⟩ := track.exists_trees fits
  have hprocess : v.process verifier items = .ok (none, { v with trees }) := by
    rw [Verification.process, htrees, ok_bind]
    cases hlast : items.getLast? with
    | none => rfl
    | some last =>
      have hkind : last.kind ≠ .blockProof := fun hkind => isOpen ⟨last, hlast, hkind⟩
      simp only [if_pos hkind, pure_eq_ok]
  rw [Verification.handle, if_neg (not_not.mpr track.running), hprocess]
  exact ⟨⟨track.running, track.pending, naive, hnaive, halike⟩, rfl⟩

/-- A proof is checked for its block first, and then for its signature. -/
theorem finalize_certain {proof : BlockProof} {inputRoot outputRoot : Digest}
    (roots : v.trees.roots = .ok (inputRoot, outputRoot)) (accepts : Digest → Bytes → Bool) :
    v.finalize (certain accepts) proof =
      if proof.block ≠ v.block then .error (.refused (.blockMismatch v.block proof.block))
      else if accepts (proof.blockHash inputRoot outputRoot) proof.signature then
        .ok (proof.blockHash inputRoot outputRoot)
      else
        .error
          (.refused (.signatureMismatch v.block (proof.blockHash inputRoot outputRoot).short)) := by
  rw [finalize]
  split
  · rfl
  · simp only [pure_eq_ok, ok_bind, roots, certain, orCrash_ok, throw_eq_error]

/-- A batch that fits and ends with a proof gets the verdict its block deserves. -/
theorem OnTrack.handle_closing (track : v.OnTrack batches)
    (fits : Fits (batches ++ [items]).flatten) (closing : EndsWithProof items)
    (accepts : Digest → Bytes → Bool) :
    ∃ result, Verdict accepts v.block (batches ++ [items]).flatten result ∧
      (v.handle (certain accepts) items).1.result = some result := by
  obtain ⟨trees, naive, htrees, hnaive, halike⟩ := track.exists_trees fits
  obtain ⟨inputRoot, outputRoot, hnaiveRoots⟩ := exists_roots fits hnaive
  have hroots : trees.roots = .ok (inputRoot, outputRoot) := halike.roots.trans hnaiveRoots
  obtain ⟨last, hlast, hkind⟩ := closing
  have hends : (batches ++ [items]).flatten.getLast? = some last := by
    rw [List.flatten_append, List.flatten_singleton, List.getLast?_append, hlast]
    rfl
  have hkind' : ¬ last.kind ≠ .blockProof := not_not.mpr hkind
  rw [Verification.handle, if_neg (not_not.mpr track.running), Verification.process, htrees,
    ok_bind]
  simp only [hlast, if_neg hkind']
  cases hproof : last.proof with
  | error error =>
    refine ⟨_, .unreadable hends hkind hproof, ?_⟩
    simp [Except.mapError, orRefuse, fail, track.pending]
  | ok proof =>
    have hhash := blockHashOf_eq hnaive hnaiveRoots proof
    have hfinal : ({ v with trees } : Verification StrategyTree).finalize (certain accepts) proof =
        _ := finalize_certain hroots accepts
    simp only [Except.mapError, orRefuse, ok_bind, hfinal]
    by_cases hblock : proof.block ≠ v.block
    · refine ⟨_, .otherBlock hends hkind hproof hblock, ?_⟩
      simp [if_pos hblock, fail, track.pending]
    · have hsame : proof.block = v.block := not_not.mp hblock
      cases hgood : accepts (proof.blockHash inputRoot outputRoot) proof.signature with
      | false =>
        refine ⟨_, .badSignature hends hkind hproof hsame hhash hgood, ?_⟩
        simp [hsame, fail, track.pending]
      | true =>
        refine ⟨_, .verified hends hkind hproof hsame hhash hgood, ?_⟩
        simp [hsame, complete, track.pending]

/-- Batches that fit and do not end with a proof are hashed, and nothing is told. -/
theorem OnTrack.handleAll_open (track : v.OnTrack batches) {more : List Batch}
    (fits : Fits (batches ++ more).flatten) (isOpen : ∀ items ∈ more, ¬ EndsWithProof items)
    (verifier : Verifier) :
    (v.handleAll verifier more).1.OnTrack (batches ++ more) ∧
      (v.handleAll verifier more).2 = [] := by
  induction more generalizing v batches with
  | nil =>
    rw [List.append_nil]
    exact ⟨track, rfl⟩
  | cons items more ih =>
    have hsplit : batches ++ items :: more = (batches ++ [items]) ++ more := by simp
    rw [hsplit] at fits ⊢
    have hfits : Fits (batches ++ [items]).flatten := by
      rw [List.flatten_append] at fits
      exact fits.of_append
    obtain ⟨hnext, hsilent⟩ := track.handle_open hfits (isOpen items List.mem_cons_self) verifier
    obtain ⟨hlast, hmore⟩ := ih hnext fits fun other h => isOpen other (List.mem_cons_of_mem _ h)
    rw [handleAll_cons]
    exact ⟨hlast, by rw [hsilent, hmore, List.append_nil]⟩

/-- The first batch that ends with a proof gets the verdict its block deserves, and later batches
are ignored. -/
theorem OnTrack.handleAll_closing (track : v.OnTrack []) {front : List Batch} {last : Batch}
    (isOpen : ∀ items ∈ front, ¬ EndsWithProof items) (closing : EndsWithProof last)
    (fits : Fits (front ++ [last]).flatten) (accepts : Digest → Bytes → Bool) :
    ∃ result, Verdict accepts v.block (front ++ [last]).flatten result ∧ ∀ after,
      (v.handleAll (certain accepts) (front ++ last :: after)).1 =
        (v.handleAll (certain accepts) (front ++ [last])).1 ∧
      (v.handleAll (certain accepts) (front ++ last :: after)).1.result = some result := by
  let verifier := certain accepts
  have hfits : Fits ([] ++ front).flatten := by
    rw [List.flatten_append] at fits
    exact fits.of_append
  have hsound : v.Sound := iff_of_true track.running track.pending
  have hfront := advances_handleAll verifier hsound front
  obtain ⟨hopen, -⟩ := track.handleAll_open hfits isOpen verifier
  obtain ⟨result, hverdict, hresult⟩ := hopen.handle_closing fits closing accepts
  rw [hfront.block] at hverdict
  -- The batch with the proof ends the verification, so that nothing after it is handled.
  have hended : ((v.handleAll verifier front).1.handle verifier last).1.state ≠ .running := by
    have hadvances := advances_handle verifier (hfront.sound hsound) last
    exact (hadvances.told hopen.pending hresult).state_ne_running
  have hafter : ∀ after, (v.handleAll verifier (front ++ last :: after)).1 =
      ((v.handleAll verifier front).1.handle verifier last).1 := by
    intro after
    rw [handleAll_append, handleAll_cons]
    exact (handleAll_of_ended hended verifier after).1
  refine ⟨result, hverdict, fun after => ⟨?_, ?_⟩⟩
  · exact (hafter after).trans (hafter []).symm
  · exact (congrArg _ (hafter after)).trans hresult

end Verification

/-- A new tree is like an empty one, whichever it is. -/
theorem alike_of_newTree {settings : VerificationSettings} {plan : LandingPlan}
    {tree : StrategyTree} (made : settings.newTree plan = .ok tree) : Alike tree {} := by
  rw [VerificationSettings.newTree] at made
  cases hhasher : settings.hasher with
  | naive =>
    rw [hhasher] at made
    obtain rfl := Except.ok.inj made
    exact .leaves {}
  | concurrent =>
    rw [hhasher] at made
    obtain ⟨start, hstart, hplanned⟩ := exists_of_bind_ok made
    obtain rfl := Except.ok.inj hplanned
    cases hnew : CombiningTree.new settings.batchSize with
    | error cause =>
      rw [hnew] at hstart
      cases hstart
    | ok fresh =>
      rw [hnew] at hstart
      obtain rfl := Except.ok.inj hstart
      obtain ⟨positive, evenSize, rfl⟩ := new_ok hnew
      exact .combining (mirrors_new positive evenSize)

/-- A run in which a session received batches, with what it answered and told. -/
abbrev SessionRun := List SessionAnswer × Session StrategyTree × List Signal

/-- Append batches, in order, to a new inline session that has `accepts` tell which signatures are
good. -/
def appendAll (accepts : Digest → Bytes → Bool) (header : BlockHeader)
    (trees : BlockTrees StrategyTree) (batches : List Batch) : SessionRun :=
  (Session.inline header trees).run (certain accepts) (batches.map .append)

/-- The session still runs, and nothing was told. -/
structure Waits (run : SessionRun) : Prop where
  /-- The session runs. -/
  running : run.2.1.verification.state = .running
  /-- It has no result. -/
  pending : run.2.1.verification.result = none
  /-- Nothing was told. -/
  silent : Silent run.2.2

/-- The session of a block has ended with a result, and has told it once. -/
structure EndsAs (number : UInt64) (result : VerificationResult) (run : SessionRun) : Prop where
  /-- The result was given. -/
  decided : run.2.1.verification.result = some result
  /-- The state, one count and one response agree with it. -/
  told : Told number run.2.1.verification.state (some result) (Signal.tallies run.2.2)
    (Signal.responses run.2.2)

section Sessions

variable {settings : VerificationSettings} {plan plan' : LandingPlan}
  {inputs outputs : StrategyTree}

/-- A session over new trees has hashed nothing. -/
theorem onTrack_inline (newInputs : settings.newTree plan = .ok inputs)
    (newOutputs : settings.newTree plan' = .ok outputs) (header : BlockHeader) :
    (Session.inline header ⟨inputs, outputs⟩).verification.OnTrack [] :=
  ⟨rfl, rfl, ⟨{}, {}⟩, rfl, alike_of_newTree newInputs, alike_of_newTree newOutputs⟩

/-- A session that has received a batch with a proof at its end has ended with the verdict its block
deserves, whatever it receives later. -/
theorem appendAll_closing (newInputs : settings.newTree plan = .ok inputs)
    (newOutputs : settings.newTree plan' = .ok outputs) (accepts : Digest → Bytes → Bool)
    (header : BlockHeader) {front : List Batch} {last : Batch}
    (isOpen : ∀ items ∈ front, ¬ EndsWithProof items) (closing : EndsWithProof last)
    (fits : Fits (front ++ [last]).flatten) :
    ∃ result, Verdict accepts header.number (front ++ [last]).flatten result ∧ ∀ after,
      (appendAll accepts header ⟨inputs, outputs⟩ (front ++ last :: after)).2.1 =
        (appendAll accepts header ⟨inputs, outputs⟩ (front ++ [last])).2.1 ∧
      EndsAs header.number result
        (appendAll accepts header ⟨inputs, outputs⟩ (front ++ last :: after)) := by
  have htrack := onTrack_inline newInputs newOutputs header
  have hrun : ∀ batches, (appendAll accepts header ⟨inputs, outputs⟩ batches).2 = _ :=
    Session.run_inline (s := Session.inline header ⟨inputs, outputs⟩) rfl rfl _
  obtain ⟨result, hverdict, hafter⟩ := htrack.handleAll_closing isOpen closing fits accepts
  refine ⟨result, hverdict, fun after => ?_⟩
  obtain ⟨hsame, hresult⟩ := hafter after
  have hsound := iff_of_true htrack.running htrack.pending
  have hadvances :=
    Verification.advances_handleAll (certain accepts) hsound (front ++ last :: after)
  refine ⟨?_, ?_, ?_⟩
  · rw [hrun, hrun, hsame]
  · rw [hrun]
    exact hresult
  · rw [hrun]
    exact hadvances.told htrack.pending hresult

end Sessions

/-- A session over new trees waits as long as no batch ends with a proof. The first that does
decides: the items received until then get the result they deserve, which is told once, and later
batches change nothing. If the same items are cut into other batches, and perhaps hashed by other
trees, the result is the same, as is everything that is told. -/
theorem session_gives_verdict (accepts : Digest → Bytes → Bool) (header : BlockHeader)
    {settings : VerificationSettings} {plan plan' : LandingPlan} {inputs outputs : StrategyTree}
    (newInputs : settings.newTree plan = .ok inputs)
    (newOutputs : settings.newTree plan' = .ok outputs) :
    (∀ batches : List Batch, (∀ items ∈ batches, ¬ EndsWithProof items) → Fits batches.flatten →
      Waits (appendAll accepts header ⟨inputs, outputs⟩ batches)) ∧
    (∀ (front : List Batch) (last : Batch), (∀ items ∈ front, ¬ EndsWithProof items) →
      EndsWithProof last → Fits (front ++ [last]).flatten →
      ∃ result, Verdict accepts header.number (front ++ [last]).flatten result ∧
        EndsAs header.number result
          (appendAll accepts header ⟨inputs, outputs⟩ (front ++ [last])) ∧
        ∀ after,
          EndsAs header.number result
            (appendAll accepts header ⟨inputs, outputs⟩ (front ++ last :: after)) ∧
          (appendAll accepts header ⟨inputs, outputs⟩ (front ++ last :: after)).2.1 =
            (appendAll accepts header ⟨inputs, outputs⟩ (front ++ [last])).2.1) ∧
    (∀ (settings' : VerificationSettings) (plan₁ plan₂ : LandingPlan)
      (inputs' outputs' : StrategyTree) (front front' : List Batch) (last last' : Batch)
      (after after' : List Batch),
      settings'.newTree plan₁ = .ok inputs' → settings'.newTree plan₂ = .ok outputs' →
      (∀ items ∈ front, ¬ EndsWithProof items) → EndsWithProof last →
      (∀ items ∈ front', ¬ EndsWithProof items) → EndsWithProof last' →
      (front ++ [last]).flatten = (front' ++ [last']).flatten →
      Fits (front ++ [last]).flatten →
      ∃ result,
        EndsAs header.number result
          (appendAll accepts header ⟨inputs, outputs⟩ (front ++ last :: after)) ∧
        EndsAs header.number result
          (appendAll accepts header ⟨inputs', outputs'⟩ (front' ++ last' :: after'))) := by
  refine ⟨?_, ?_, ?_⟩
  · intro batches isOpen fits
    have htrack := onTrack_inline newInputs newOutputs header
    have hfits : Fits ([] ++ batches).flatten := fits
    obtain ⟨hlast, hsilent⟩ := htrack.handleAll_open hfits isOpen (certain accepts)
    have hrun : (appendAll accepts header ⟨inputs, outputs⟩ batches).2 = _ :=
      Session.run_inline (s := Session.inline header ⟨inputs, outputs⟩) rfl rfl _ batches
    refine ⟨?_, ?_, ?_⟩
    · rw [hrun]
      exact hlast.running
    · rw [hrun]
      exact hlast.pending
    · rw [hrun, hsilent]
      exact ⟨rfl, rfl⟩
  · intro front last isOpen closing fits
    obtain ⟨result, hverdict, hafter⟩ :=
      appendAll_closing newInputs newOutputs accepts header isOpen closing fits
    exact ⟨result, hverdict, (hafter []).2, fun after => (hafter after).symm⟩
  · intro settings' plan₁ plan₂ inputs' outputs' front front' last last' after after' newInputs'
      newOutputs' isOpen closing isOpen' closing' hsame fits
    obtain ⟨result, hverdict, hafter⟩ :=
      appendAll_closing newInputs newOutputs accepts header isOpen closing fits
    obtain ⟨other, hverdict', hafter'⟩ :=
      appendAll_closing newInputs' newOutputs' accepts header isOpen' closing' (hsame ▸ fits)
    rw [← hsame] at hverdict'
    obtain rfl := hverdict.unique hverdict'
    exact ⟨result, (hafter after).2, (hafter' after').2⟩

/-- A brief block gets the verdict it deserves from a session with combining trees that is given the
block at once and from one with trees that keep their leaves that is given the header first. -/
theorem session_gives_verdict_brief : ∃ combining keeping : StrategyTree,
    ({} : VerificationSettings).newTree [] = .ok combining ∧
    VerificationSettings.sequential.newTree [] = .ok keeping ∧
    Waits (appendAll (fun _ _ => true) ⟨0, .zero, 0⟩ ⟨keeping, keeping⟩
      [[.ofHeader ⟨0, .zero, 0⟩]]) ∧
    ∃ result, Verdict (fun _ _ => true) 0 briefBlock result ∧
      EndsAs 0 result (appendAll (fun _ _ => true) ⟨0, .zero, 0⟩ ⟨combining, combining⟩
        [briefBlock]) ∧
      EndsAs 0 result (appendAll (fun _ _ => true) ⟨0, .zero, 0⟩ ⟨keeping, keeping⟩
        [[.ofHeader ⟨0, .zero, 0⟩], [.ofProof ⟨0, .zero, .zero, []⟩]]) := by
  obtain ⟨combining, hcombining⟩ : ∃ combining,
      ({} : VerificationSettings).newTree [] = .ok combining := ⟨_, rfl⟩
  obtain ⟨keeping, hkeeping⟩ : ∃ keeping,
      VerificationSettings.sequential.newTree [] = .ok keeping := ⟨_, rfl⟩
  have hfits : Fits briefBlock := fun side =>
    (List.length_filter_le _ briefBlock).trans (by decide)
  have hopen : ∀ items ∈ [[Item.ofHeader ⟨0, .zero, 0⟩]], ¬ EndsWithProof items := by
    rintro items hitems ⟨last, hlast, hkind⟩
    obtain rfl := List.mem_singleton.mp hitems
    obtain rfl := Option.some.inj hlast
    cases hkind
  have hnone : ∀ items ∈ ([] : List Batch), ¬ EndsWithProof items := by simp
  have hclosing : EndsWithProof briefBlock := ⟨_, rfl, rfl⟩
  have hlast : EndsWithProof [Item.ofProof ⟨0, .zero, .zero, []⟩] := ⟨_, rfl, rfl⟩
  obtain ⟨-, hdecides, hcut⟩ :=
    session_gives_verdict (fun _ _ => true) ⟨0, .zero, 0⟩ hcombining hcombining
  obtain ⟨hwaits, -, -⟩ :=
    session_gives_verdict (fun _ _ => true) ⟨0, .zero, 0⟩ hkeeping hkeeping
  obtain ⟨result, hverdict, hends, -⟩ := hdecides [] briefBlock hnone hclosing hfits
  obtain ⟨other, hother, hends'⟩ := hcut _ _ _ _ _ [] [[.ofHeader ⟨0, .zero, 0⟩]] briefBlock
    [.ofProof ⟨0, .zero, .zero, []⟩] [] [] hkeeping hkeeping hnone hclosing hopen hlast rfl hfits
  obtain rfl : result = other := Option.some.inj (hends.decided.symm.trans hother.decided)
  exact ⟨combining, keeping, hcombining, hkeeping, hwaits _ hopen (Fits.of_append hfits), result,
    hverdict, hends, hends'⟩

end BlockIntake
