import BlockIntake.Proofs.Verification.Routing

/-!
# No false acknowledgement

A factory made from valid settings makes sessions with empty trees, or, where no queue can be as
long as the settings ask for, no session at all. Runs of a service over it keep every account. So an
acknowledgement is published only for a session whose batches, up to one that ends with its proof,
make a block with the acknowledged hash and a good signature.
-/

namespace BlockIntake

open Merkle

variable {factory : Factory StrategyTree} {service : Service StrategyTree} {verifier : Verifier}
  {blocks : List BlockInput} {told : List Response}

/-- The factory can make no session. -/
def MakesNone (factory : Factory StrategyTree) : Prop :=
  ∀ earlier header, ∃ fault, factory.create earlier header = .error fault

/-- A new tree has no leaves. -/
theorem newTree_alike {settings : VerificationSettings} (positive : settings.batchSize ≠ 0)
    (evenSize : settings.batchSize % 2 = 0) (plan : LandingPlan) :
    ∃ tree, settings.newTree plan = .ok tree ∧ Alike tree {} := by
  rw [VerificationSettings.newTree]
  cases settings.hasher with
  | naive => exact ⟨_, rfl, .leaves {}⟩
  | concurrent =>
    have hpositive := Nat.pos_of_ne_zero positive
    refine ⟨.combining ⟨{ batchSize := settings.batchSize }, plan⟩, ?_,
      .combining (mirrors_new hpositive evenSize)⟩
    rw [new_eq hpositive evenSize]
    rfl

/-- A new session has an account of no batches. -/
theorem accounts_start (verifier : Verifier) (header : BlockHeader)
    {trees : BlockTrees StrategyTree} (alike : AlikeTrees trees ⟨{}, {}⟩) (capacity : Option Nat) :
    (Session.start header trees capacity).Accounts verifier ⟨header, []⟩ := by
  have hstart := Session.verification_start header trees capacity
  refine ⟨by rw [hstart], .onTrack [] ⟨?_, ?_, ⟨⟨{}, {}⟩, rfl, ?_⟩⟩ ?_ ?_⟩
  · rw [hstart]
  · rw [hstart]
  · rw [hstart]
    exact alike
  · cases capacity with
    | none => trivial
    | some capacity => exact ⟨rfl, rfl⟩
  · cases capacity <;> rfl

/-- A factory is made only from valid settings. It gives every session empty trees, and there is a
runtime if sessions have tasks. -/
theorem factory_new_ok {settings : VerificationSettings} {hasRuntime : Bool}
    {schedule : PoolSchedule}
    (made : Factory.new settings hasRuntime verifier schedule = .ok factory) :
    factory.verifier = verifier ∧ (factory.sessionType = .async → factory.hasRuntime = true) ∧
      ∀ earlier, ∃ trees, factory.trees earlier = .ok trees ∧ AlikeTrees trees ⟨{}, {}⟩ := by
  unfold Factory.new VerificationSettings.validate at made
  by_cases hbatch : settings.batchSize = 0 ∨ settings.batchSize % 2 ≠ 0
  · simp only [if_pos hbatch, throw_eq_error, error_bind, Except.mapError, reduceCtorEq] at made
  · by_cases hqueue : settings.queueCapacity = 0
    · simp only [if_neg hbatch, if_pos hqueue, pure_eq_ok, throw_eq_error, error_bind,
        Except.mapError, reduceCtorEq] at made
    · by_cases hasync : settings.sessionType = .async ∧ hasRuntime = false
      · simp only [if_neg hbatch, if_neg hqueue, if_pos hasync, pure_eq_ok, ok_bind,
          throw_eq_error, error_bind, Except.mapError, reduceCtorEq] at made
      · simp only [if_neg hbatch, if_neg hqueue, if_neg hasync, pure_eq_ok, ok_bind,
          Except.mapError, Except.ok.injEq] at made
        rw [← made]
        refine ⟨rfl, ?_, ?_⟩
        · intro h
          cases hruntime : hasRuntime with
          | true => rfl
          | false => exact absurd ⟨h, hruntime⟩ hasync
        · intro earlier
          have positive : settings.batchSize ≠ 0 := by omega
          have evenSize : settings.batchSize % 2 = 0 := by omega
          obtain ⟨inputs, hinputs, halike⟩ :=
            newTree_alike positive evenSize (schedule earlier .input)
          obtain ⟨outputs, houtputs, halike'⟩ :=
            newTree_alike positive evenSize (schedule earlier .output)
          refine ⟨⟨inputs, outputs⟩, ?_, halike, halike'⟩
          simp only [hinputs, houtputs, ok_bind]

/-- A factory makes sessions as its settings have it. -/
theorem factory_new_settings {settings : VerificationSettings} {hasRuntime : Bool}
    {schedule : PoolSchedule}
    (made : Factory.new settings hasRuntime verifier schedule = .ok factory) :
    factory.sessionType = settings.sessionType ∧
      factory.queueCapacity = settings.queueCapacity := by
  obtain ⟨-, -, hmade⟩ := exists_of_bind_ok made
  split at hmade
  · cases hmade
  · obtain rfl := Except.ok.inj hmade
    exact ⟨rfl, rfl⟩

/-- Settings with which a session can be made: if sessions have tasks, a queue can be as long as
asked for. -/
def VerificationSettings.Roomy (settings : VerificationSettings) : Prop :=
  settings.sessionType = .async → settings.queueCapacity ≤ TaskQueue.mostWaiting

/-- The number of batches that may wait for the task of a session, if sessions have tasks. -/
def VerificationSettings.capacity? (settings : VerificationSettings) : Option Nat :=
  match settings.sessionType with
  | .sync => none
  | .async => some settings.queueCapacity

/-- With valid settings and room for the queues, every session can be made. It is new, and its trees
are empty. -/
theorem create_of_roomy {settings : VerificationSettings} {hasRuntime : Bool}
    {schedule : PoolSchedule}
    (made : Factory.new settings hasRuntime verifier schedule = .ok factory)
    (roomy : settings.Roomy) (earlier : Nat) (header : BlockHeader) :
    ∃ trees, factory.create earlier header =
        .ok (Session.start header trees settings.capacity?) ∧
      AlikeTrees trees ⟨{}, {}⟩ := by
  obtain ⟨-, hasync, htrees⟩ := factory_new_ok made
  obtain ⟨hsettings, hcapacity⟩ := factory_new_settings made
  obtain ⟨trees, heq, halike⟩ := htrees earlier
  refine ⟨trees, ?_, halike⟩
  rw [VerificationSettings.capacity?, ← hsettings, ← hcapacity]
  cases htype : factory.sessionType with
  | sync => simp only [Factory.create, heq, htype, orRefuse, ok_bind, pure_eq_ok, Session.start]
  | async =>
    have hroom : ¬ TaskQueue.mostWaiting < factory.queueCapacity := by
      rw [hcapacity]
      exact Nat.not_lt_of_le (roomy (hsettings ▸ htype))
    simp only [Factory.create, heq, htype, hasync htype, orRefuse, ok_bind, Session.spawn,
      if_neg hroom, orCrash_ok, Session.start]

/-- Without room for the queues every attempt to make a session crashes. -/
theorem create_of_crowded {settings : VerificationSettings} {hasRuntime : Bool}
    {schedule : PoolSchedule}
    (made : Factory.new settings hasRuntime verifier schedule = .ok factory)
    (crowded : ¬ settings.Roomy) (earlier : Nat) (header : BlockHeader) :
    factory.create earlier header = .error (.crashed (.noRoom factory.queueCapacity)) := by
  obtain ⟨-, hasync, htrees⟩ := factory_new_ok made
  obtain ⟨hsettings, hcapacity⟩ := factory_new_settings made
  obtain ⟨htype, hroom⟩ := Classical.not_imp.mp crowded
  rw [← hsettings] at htype
  rw [← hcapacity] at hroom
  obtain ⟨trees, heq, -⟩ := htrees earlier
  simp only [Factory.create, heq, htype, hasync htype, orRefuse, ok_bind, Session.spawn,
    if_pos (Nat.lt_of_not_le hroom), orCrash_error]

/-- With valid settings and room for the queues, every session can be made. -/
theorem makes_of_roomy {settings : VerificationSettings} {hasRuntime : Bool}
    {schedule : PoolSchedule}
    (made : Factory.new settings hasRuntime verifier schedule = .ok factory)
    (roomy : settings.Roomy) : Makes factory := by
  intro earlier header
  obtain ⟨trees, heq, halike⟩ := create_of_roomy made roomy earlier header
  exact ⟨_, heq, accounts_start factory.verifier header halike settings.capacity?⟩

/-- Without room for the queues no session can be made. -/
theorem makesNone_of_crowded {settings : VerificationSettings} {hasRuntime : Bool}
    {schedule : PoolSchedule}
    (made : Factory.new settings hasRuntime verifier schedule = .ok factory)
    (crowded : ¬ settings.Roomy) : MakesNone factory :=
  fun earlier header => ⟨_, create_of_crowded made crowded earlier header⟩

/-- Valid settings make a factory that can make every session or none. -/
theorem makes_of_new {settings : VerificationSettings} {hasRuntime : Bool}
    {schedule : PoolSchedule}
    (made : Factory.new settings hasRuntime verifier schedule = .ok factory) :
    Makes factory ∨ MakesNone factory := by
  by_cases hroomy : settings.Roomy
  · exact Or.inl (makes_of_roomy made hroomy)
  · exact Or.inr (makesNone_of_crowded made hroomy)

/-- A step of a service keeps every account. -/
theorem Attends.step (attends : Attends factory service blocks told) (makes : Makes factory)
    (step : ServiceStep) :
    Attends factory (service.step factory step).2.1
      ((receivedIn [step]).foldl blocksWith blocks)
      (told ++ Signal.responses (service.step factory step).2.2) := by
  cases step with
  | receive items => exact attends.receive makes items
  | work position count => exact attends.work position count
  | drain => exact attends.drain
  | stopRuntime =>
    rw [Service.step]
    simpa [Signal.responses, receivedIn] using attends.stopRuntime

/-- A run of a service keeps every account. -/
theorem Attends.run (attends : Attends factory service blocks told) (makes : Makes factory)
    (steps : List ServiceStep) :
    Attends factory (service.run factory steps).2.1
      ((receivedIn steps).foldl blocksWith blocks)
      (told ++ Signal.responses (service.run factory steps).2.2) := by
  induction steps generalizing service blocks told with
  | nil => simpa [Service.run, Signal.responses, receivedIn] using attends
  | cons step steps ih =>
    have hnext := ih (attends.step makes step)
    rw [receivedIn_cons, List.foldl_append, Service.run]
    rw [List.append_assoc, ← responses_append] at hnext
    exact hnext

/-- A new service has no blocks. -/
theorem attends_new (factory : Factory StrategyTree) : Attends factory {} [] [] :=
  ⟨⟨rfl, fun k session block hsession => absurd hsession.symm (by simp [Service.sessions]),
    fun ack hack => absurd hack List.not_mem_nil⟩, fun _ => rfl⟩

/-- Without a session nothing is told, and if no session can be made it stays so. -/
theorem MakesNone.step (makesNone : MakesNone factory) (idle : service.current = none)
    (empty : service.earlier = []) (step : ServiceStep) :
    (service.step factory step).2.1.current = none ∧
      (service.step factory step).2.1.earlier = [] ∧
      Signal.responses (service.step factory step).2.2 = [] := by
  cases step with
  | receive items =>
    rw [Service.step]
    cases items with
    | nil => exact ⟨idle, empty, rfl⟩
    | cons first rest =>
      simp only [Service.receive]
      split
      · rw [Service.route, idle]
        exact ⟨idle, empty, rfl⟩
      · split
        · exact ⟨idle, empty, rfl⟩
        · next header _ =>
          obtain ⟨fault, hcreate⟩ := makesNone service.sessions.length header
          rw [hcreate]
          exact ⟨idle, empty, responses_replacementWarning service header.number⟩
  | work position count =>
    rw [Service.step, Service.work, empty, List.getElem?_nil, idle]
    exact ⟨idle, empty, rfl⟩
  | drain =>
    rw [Service.step, Service.drain, empty, idle]
    exact ⟨rfl, rfl, rfl⟩
  | stopRuntime =>
    rw [Service.step, Service.stopRuntime, empty, idle]
    exact ⟨rfl, rfl, rfl⟩

/-- A service that can have no session tells nothing. -/
theorem MakesNone.run (makesNone : MakesNone factory) (idle : service.current = none)
    (empty : service.earlier = []) (steps : List ServiceStep) :
    Signal.responses (service.run factory steps).2.2 = [] := by
  induction steps generalizing service with
  | nil => rfl
  | cons step steps ih =>
    obtain ⟨hidle, hempty, hsilent⟩ := makesNone.step idle empty step
    rw [Service.run, responses_append, hsilent, ih hidle hempty]
    rfl

/-- One more batch belongs to no block, or to the last one, or opens a block. -/
theorem blocksWith_cases (blocks : List BlockInput) (items : Batch) :
    blocksWith blocks items = blocks ∨
    (∃ front last, blocks = front ++ [last] ∧ blocksWith blocks items = front ++ [last.add items]) ∨
    ∃ first rest header, items = first :: rest ∧ first.kind = .blockHeader ∧
      first.header = .ok header ∧ blocksWith blocks items = blocks ++ [⟨header, [items]⟩] := by
  cases items with
  | nil => exact Or.inl rfl
  | cons first rest =>
    simp only [blocksWith]
    by_cases hkind : first.kind ≠ .blockHeader
    · rw [if_pos hkind]
      rcases List.eq_nil_or_concat blocks with rfl | ⟨front, last, rfl⟩
      · exact Or.inl rfl
      · rw [List.concat_eq_append, modify_concat]
        exact Or.inr (Or.inl ⟨front, last, rfl, rfl⟩)
    · rw [if_neg hkind]
      cases hheader : first.header with
      | error error => exact Or.inl rfl
      | ok header =>
        exact Or.inr (Or.inr ⟨first, rest, header, rfl, not_not.mp hkind, hheader, rfl⟩)

/-- A block begins with a batch whose first item is the header of the block. -/
def BlockInput.Opened (block : BlockInput) : Prop :=
  ∃ first rest more, block.batches = (first :: rest) :: more ∧ first.kind = .blockHeader ∧
    first.header = .ok block.header

/-- Every block is opened by its header. -/
theorem opened_of_mem_foldl {block : BlockInput} (received : List Batch)
    (opened : ∀ block ∈ blocks, block.Opened)
    (h : block ∈ received.foldl blocksWith blocks) : block.Opened := by
  induction received generalizing blocks with
  | nil => exact opened block h
  | cons items received ih =>
    refine ih ?_ h
    intro other hother
    rcases blocksWith_cases blocks items with heq | ⟨front, last, rfl, heq⟩ |
      ⟨first, rest, header, rfl, hkind, hheader, heq⟩
    · exact opened other (heq ▸ hother)
    · rw [heq] at hother
      rcases List.mem_append.mp hother with hfront | hlast
      · exact opened other (List.mem_append_left _ hfront)
      · obtain rfl := List.mem_singleton.mp hlast
        obtain ⟨first, rest, more, hbatches, hkind, hheader⟩ :=
          opened last (List.mem_append_right _ (List.mem_singleton_self last))
        exact ⟨first, rest, more ++ [items], by simp [BlockInput.add, hbatches], hkind, hheader⟩
    · rw [heq] at hother
      rcases List.mem_append.mp hother with hold | hnew
      · exact opened other hold
      · obtain rfl := List.mem_singleton.mp hnew
        exact ⟨first, rest, [], rfl, hkind, hheader⟩

/-- No batch belongs to two blocks or twice to one, and the batches of the blocks are in the order
in which they were received. -/
theorem sublist_foldl (received earlier : List Batch)
    (sublist : (blocks.flatMap (·.batches)).Sublist earlier) :
    ((received.foldl blocksWith blocks).flatMap (·.batches)).Sublist (earlier ++ received) := by
  induction received generalizing blocks earlier with
  | nil =>
    rw [List.append_nil]
    exact sublist
  | cons items received ih =>
    rw [List.append_cons]
    refine ih (earlier ++ [items]) ?_
    rcases blocksWith_cases blocks items with heq | ⟨front, last, rfl, heq⟩ |
      ⟨first, rest, header, rfl, -, -, heq⟩
    · rw [heq]
      exact sublist.trans (List.sublist_append_left _ _)
    · have hflat : (front ++ [last.add items]).flatMap (·.batches) =
          (front ++ [last]).flatMap (·.batches) ++ [items] := by
        simp [BlockInput.add]
      rw [heq, hflat]
      exact sublist.append_right [items]
    · have hflat : (blocks ++ [(⟨header, [first :: rest]⟩ : BlockInput)]).flatMap (·.batches) =
          blocks.flatMap (·.batches) ++ [first :: rest] := by
        simp
      rw [heq, hflat]
      exact sublist.append_right [first :: rest]

/-- Whatever a service receives and whenever its tasks run, an acknowledgement comes from the
session of a block with that number, opened by the header of the block. The batches received for
that block, from the first up to one that ends with its proof, have the acknowledged hash, and the
signature in the proof is good for it. No batch belongs to two blocks, or twice to one, and none has
changed its place. -/
theorem acknowledged_block_is_signed {settings : VerificationSettings} {hasRuntime : Bool}
    {schedule : PoolSchedule}
    (made : Factory.new settings hasRuntime verifier schedule = .ok factory)
    (steps : List ServiceStep) {ack : Acknowledgement}
    (published : .acknowledged ack ∈ Signal.responses (Service.run factory {} steps).2.2) :
    ((blocksOf (receivedIn steps)).flatMap (·.batches)).Sublist (receivedIn steps) ∧
      ∃ (k : Nat) (session : Session StrategyTree) (block : BlockInput) (front : List Batch),
        (Service.run factory {} steps).2.1.sessions[k]? = some session ∧
        session.verification.result = some (.verified ack.block ack.root) ∧
        (blocksOf (receivedIn steps))[k]? = some block ∧
        block.Opened ∧ block.header.number = ack.block ∧
        front <+: block.batches ∧ SignedBlock verifier ack.block front ack.root := by
  have hverifier := (factory_new_ok made).1
  refine ⟨sublist_foldl (receivedIn steps) [] (List.Sublist.refl _), ?_⟩
  rcases makes_of_new made with makes | makesNone
  · have attends := (attends_new factory).run makes steps
    have serves := attends.serves
    rw [List.nil_append] at serves
    obtain ⟨k, session, hsession, hresult⟩ := serves.told ack published
    have hk : k < (blocksOf (receivedIn steps)).length :=
      serves.length ▸ (List.getElem?_eq_some_iff.mp hsession).1
    have hblock := List.getElem?_eq_getElem hk
    have haccount := serves.accounts k session _ hsession hblock
    have hopened : (blocksOf (receivedIn steps))[k].Opened :=
      opened_of_mem_foldl (receivedIn steps) (fun block h => absurd h List.not_mem_nil)
        (List.getElem_mem hk)
    obtain ⟨hnumber, front, hbegins, hsigned⟩ := haccount.signed hresult
    rw [hverifier] at hsigned
    exact ⟨k, session, _, front, hsession, hresult, hblock, hopened, hnumber, hbegins, hsigned⟩
  · rw [makesNone.run rfl rfl steps] at published
    exact absurd published List.not_mem_nil

/-- A block that is a header and a proof. -/
def briefBlock : Batch := [.ofHeader ⟨0, .zero, 0⟩, .ofProof ⟨0, .zero, .zero, []⟩]

/-- A brief block is processed with a hash. -/
theorem process_briefBlock : ∃ hash trees,
    Verification.process (fun _ _ => .ok true)
      (⟨0, ⟨.leaves {}, .leaves {}⟩, .running, none⟩ : Verification StrategyTree) briefBlock =
        .ok (some hash, ⟨0, trees, .running, none⟩) := by
  let leaf := (Item.ofHeader ⟨0, .zero, 0⟩).leafHash
  have htrees : BlockTrees.addAll (⟨.leaves {}, .leaves {}⟩ : BlockTrees StrategyTree) briefBlock =
      .ok ⟨.leaves {}, .leaves { leaves := #[leaf] }⟩ := by
    have hadd : TreeHasher.add (StrategyTree.leaves {}) leaf.bytes =
        .ok (.leaves { leaves := #[leaf] }) := by
      change (LeafTree.add {} leaf.bytes >>= fun tree => pure (StrategyTree.leaves tree)) = _
      rw [add_digest rfl (by decide)]
      rfl
    have hside : (Item.ofHeader ⟨0, .zero, 0⟩).kind.side? = some .output := rfl
    rw [briefBlock, BlockTrees.addAll, List.foldlM_cons, BlockTrees.add]
    simp only [hside]
    rw [hadd]
    rfl
  have hroots : BlockTrees.roots
      (⟨.leaves {}, .leaves { leaves := #[leaf] }⟩ : BlockTrees StrategyTree) =
        .ok (topHash [], topHash [leaf]) := by
    have halike : AlikeTrees ⟨.leaves {}, .leaves { leaves := #[leaf] }⟩
        ⟨{}, { leaves := #[leaf] }⟩ := ⟨.leaves _, .leaves _⟩
    rw [halike.roots, BlockTrees.roots, root_eq rfl rfl (by decide), root_eq rfl rfl (by decide)]
    rfl
  have hreads : (Item.ofProof ⟨0, .zero, .zero, []⟩).proof = .ok ⟨0, .zero, .zero, []⟩ := by
    decide +kernel
  exact ⟨_, _, Verification.process_signed htrees rfl rfl hreads rfl hroots rfl⟩

/-- A brief block is acknowledged where every signature is good, and it is signed. -/
theorem briefBlock_acknowledged : ∃ factory ack,
    Factory.new .sequential false (fun _ _ => .ok true) = .ok factory ∧
    .acknowledged ack ∈ Signal.responses (Service.run factory {} [.receive briefBlock]).2.2 ∧
    ∃ block front, block ∈ blocksOf [briefBlock] ∧ front <+: block.batches ∧
      SignedBlock (fun _ _ => .ok true) ack.block front ack.root := by
  obtain ⟨hash, trees, hprocess⟩ := process_briefBlock
  obtain ⟨factory, made, hverifier, hcreate⟩ : ∃ factory,
      Factory.new .sequential false (fun _ _ => .ok true) = .ok factory ∧
      factory.verifier = (fun _ _ => .ok true) ∧
      factory.create 0 ⟨0, .zero, 0⟩ =
        .ok (.inline ⟨0, .zero, 0⟩ ⟨.leaves {}, .leaves {}⟩) := ⟨_, rfl, rfl, rfl⟩
  have hheader : (Item.ofHeader ⟨0, .zero, 0⟩).header = .ok ⟨0, .zero, 0⟩ := by decide
  have hkind : (Item.ofHeader ⟨0, .zero, 0⟩).kind = .blockHeader := rfl
  have hsessions : ({} : Service StrategyTree).sessions.length = 0 := rfl
  have happend : ((Session.inline ⟨0, .zero, 0⟩
      ⟨StrategyTree.leaves {}, StrategyTree.leaves {}⟩).append
      (fun _ _ => .ok true) briefBlock).2 = [.tally .verified, .log (.blockVerified 0 hash),
        .respond (.acknowledged ⟨0, hash, false⟩)] := by
    simp [Session.append, Session.inline, Verification.handle, hprocess, Verification.complete]
  have published : .acknowledged ⟨0, hash, false⟩ ∈
      Signal.responses (Service.run factory {} [.receive briefBlock]).2.2 := by
    rw [briefBlock] at happend ⊢
    simp [Service.run, Service.step, Service.receive, hkind, hheader, hsessions, hcreate,
      Service.opened, Service.route, hverifier, happend, Signal.responses]
  obtain ⟨-, k, session, block, front, -, -, hblock, -, -, hbegins, hsigned⟩ :=
    acknowledged_block_is_signed made [.receive briefBlock] published
  exact ⟨factory, _, made, published, block, front, List.mem_of_getElem? hblock, hbegins, hsigned⟩

end BlockIntake
