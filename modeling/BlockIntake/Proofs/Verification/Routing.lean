import BlockIntake.Proofs.Verification.Account

/-!
# The blocks of a service

The batches a service receives fall into blocks: a batch that begins with a readable header opens a
block, and the batches after it, up to the next such batch, belong to it. Each session is given the
batches of one block, and every step of the service keeps the accounts of all sessions, whichever
task runs and whichever session is replaced.
-/

namespace BlockIntake

open Merkle

/-- The blocks received after one more batch. An empty batch and one with an unreadable header
belong to no block. -/
def blocksWith (blocks : List BlockInput) (items : Batch) : List BlockInput :=
  match items with
  | [] => blocks
  | first :: _ =>
    if first.kind ≠ .blockHeader then blocks.modify (blocks.length - 1) (·.add items)
    else
      match first.header with
      | .error _ => blocks
      | .ok header => blocks ++ [⟨header, [items]⟩]

/-- The blocks among received batches. -/
def blocksOf (received : List Batch) : List BlockInput := received.foldl blocksWith []

/-- The batches received in a run. -/
def receivedIn (steps : List ServiceStep) : List Batch :=
  steps.filterMap fun | .receive items => some items | _ => none

/-- What the first step receives comes first. -/
theorem receivedIn_cons (step : ServiceStep) (steps : List ServiceStep) :
    receivedIn (step :: steps) = receivedIn [step] ++ receivedIn steps := by
  rw [receivedIn, receivedIn, receivedIn, ← List.filterMap_append]
  rfl

/-- Every session has been given the batches of its block, and what was acknowledged is the result
of some session. -/
structure Serves (verifier : Verifier) (sessions : List (Session StrategyTree))
    (blocks : List BlockInput) (told : List Response) : Prop where
  /-- There is a session for every block. -/
  length : sessions.length = blocks.length
  /-- The accounts of the sessions. -/
  accounts : ∀ (k : Nat) session block, sessions[k]? = some session → blocks[k]? = some block →
    session.Accounts verifier block
  /-- The acknowledgements. -/
  told : ∀ ack, .acknowledged ack ∈ told → ∃ (k : Nat) (session : Session StrategyTree),
    sessions[k]? = some session ∧
      session.verification.result = some (.verified ack.block ack.root)

variable {verifier : Verifier} {sessions : List (Session StrategyTree)}
  {blocks : List BlockInput} {told : List Response}

namespace Serves

/-- One session goes on, perhaps with another batch of its block. -/
theorem set (serves : Serves verifier sessions blocks told) {k : Nat}
    {session next : Session StrategyTree} {block later : BlockInput} {signals : List Signal}
    (hsession : sessions[k]? = some session) (hblock : blocks[k]? = some block)
    (header : later.header = block.header) (fares : next.Fares verifier later.batches)
    (advances : session.verification.Advances next.verification signals) :
    Serves verifier (sessions.set k next) (blocks.set k later)
      (told ++ Signal.responses signals) := by
  have hk : k < sessions.length := (List.getElem?_eq_some_iff.mp hsession).1
  have hat : (sessions.set k next)[k]? = some next := List.getElem?_set_self hk
  constructor
  · rw [List.length_set, List.length_set]
    exact serves.length
  · intro j other input hother hinput
    by_cases hj : k = j
    · subst hj
      have hinput' : (blocks.set k later)[k]? = some later :=
        List.getElem?_set_self (serves.length ▸ hk)
      obtain rfl := Option.some.inj (hat.symm.trans hother)
      obtain rfl := Option.some.inj (hinput'.symm.trans hinput)
      have haccount := serves.accounts k session block hsession hblock
      exact ⟨by rw [advances.block, haccount.block, header], fares⟩
    · rw [List.getElem?_set_ne hj] at hother hinput
      exact serves.accounts j other input hother hinput
  · intro ack hack
    rcases List.mem_append.mp hack with hold | hnew
    · obtain ⟨j, other, hother, hresult⟩ := serves.told ack hold
      by_cases hj : k = j
      · subst hj
        obtain rfl := Option.some.inj (hsession.symm.trans hother)
        exact ⟨k, next, hat, advances.result hresult⟩
      · exact ⟨j, other, by rw [List.getElem?_set_ne hj, hother], hresult⟩
    · exact ⟨k, next, hat, advances.acknowledged hnew⟩

/-- One session goes on with the batches it has. -/
theorem setSession (serves : Serves verifier sessions blocks told) {k : Nat}
    {session next : Session StrategyTree} {signals : List Signal}
    (hsession : sessions[k]? = some session)
    (step : ∀ batches, session.Fares verifier batches → next.Fares verifier batches ∧
      session.verification.Advances next.verification signals) :
    Serves verifier (sessions.set k next) blocks (told ++ Signal.responses signals) := by
  have hk : k < blocks.length := serves.length ▸ (List.getElem?_eq_some_iff.mp hsession).1
  have hblock : blocks[k]? = some blocks[k] := List.getElem?_eq_getElem hk
  obtain ⟨hfares, hadvances⟩ :=
    step _ (serves.accounts k session _ hsession hblock).fares
  have hnext := serves.set hsession hblock rfl hfares hadvances
  rwa [List.set_getElem_self] at hnext

/-- A session is opened for a new block. -/
theorem push (serves : Serves verifier sessions blocks told) {session : Session StrategyTree}
    {block : BlockInput} (account : session.Accounts verifier block) :
    Serves verifier (sessions ++ [session]) (blocks ++ [block]) told := by
  constructor
  · rw [List.length_append, List.length_append, serves.length]
    rfl
  · intro k other input hother hinput
    by_cases hk : k < sessions.length
    · rw [List.getElem?_append_left hk] at hother
      rw [List.getElem?_append_left (serves.length ▸ hk)] at hinput
      exact serves.accounts k other input hother hinput
    · have hle : sessions.length ≤ k := Nat.le_of_not_lt hk
      rw [List.getElem?_append_right hle, List.getElem?_singleton] at hother
      rw [List.getElem?_append_right (serves.length ▸ hle), List.getElem?_singleton] at hinput
      split at hother
      · split at hinput
        · obtain rfl := Option.some.inj hother
          obtain rfl := Option.some.inj hinput
          exact account
        · exact absurd hinput.symm (Option.some_ne_none _)
      · exact absurd hother.symm (Option.some_ne_none _)
  · intro ack hack
    obtain ⟨k, other, hother, hresult⟩ := serves.told ack hack
    have hk := (List.getElem?_eq_some_iff.mp hother).1
    exact ⟨k, other, by rw [List.getElem?_append_left hk, hother], hresult⟩

/-- The tasks of all sessions are destroyed. -/
theorem stopTasks (serves : Serves verifier sessions blocks told) :
    Serves verifier (sessions.map Session.stopTask) blocks told := by
  refine ⟨by rw [List.length_map, serves.length], ?_, ?_⟩
  · intro k next block hnext hblock
    rw [List.getElem?_map] at hnext
    obtain ⟨session, hsession, rfl⟩ := Option.map_eq_some_iff.mp hnext
    have haccount := serves.accounts k session block hsession hblock
    refine ⟨?_, haccount.fares.stopTask⟩
    rw [Session.verification_stopTask, haccount.block]
  · intro ack hack
    obtain ⟨k, session, hsession, hresult⟩ := serves.told ack hack
    refine ⟨k, session.stopTask, by rw [List.getElem?_map, hsession, Option.map_some], ?_⟩
    rw [Session.verification_stopTask, hresult]

/-- The tasks of sessions run, one after the other. The induction runs over the sessions that are
left. -/
theorem runTasks {factory : Factory StrategyTree} {front rest : List (Session StrategyTree)}
    (serves : Serves factory.verifier (front ++ rest) blocks told) :
    Serves factory.verifier (front ++ (Service.runTasks factory rest).1) blocks
      (told ++ Signal.responses (Service.runTasks factory rest).2) := by
  induction rest generalizing front told with
  | nil =>
    rw [Service.runTasks]
    simpa [Signal.responses] using serves
  | cons session rest ih =>
    have hsession : (front ++ session :: rest)[front.length]? = some session := by simp
    have hnext := serves.setSession hsession fun batches fares =>
      ⟨fares.runTaskFor session.waiting.length,
        Session.advances_runTaskFor factory.verifier fares.sound session.waiting.length⟩
    rw [List.set_append_right _ _ (Nat.le_refl _), Nat.sub_self, List.set_cons_zero,
      List.append_cons] at hnext
    have hall := ih hnext
    rw [List.append_assoc, List.append_assoc, ← responses_append] at hall
    exact hall

end Serves

/-- The tasks of sessions run before that of the last one. -/
theorem runTasks_concat (factory : Factory StrategyTree) (front : List (Session StrategyTree))
    (session : Session StrategyTree) :
    Service.runTasks factory (front ++ [session]) =
      ((Service.runTasks factory front).1 ++ [(session.runTask factory.verifier).1],
        (Service.runTasks factory front).2 ++ (session.runTask factory.verifier).2) := by
  induction front with
  | nil => simp [Service.runTasks]
  | cons first front ih => simp [Service.runTasks, ih]

/-- A warning is no response. -/
theorem responses_replacementWarning (service : Service StrategyTree) (block : UInt64) :
    Signal.responses (service.replacementWarning block ++ [.tally .received]) = [] := by
  rw [Service.replacementWarning]
  cases service.current with
  | none => rfl
  | some previous =>
    dsimp only
    split <;> rfl

/-- A batch for the last block is added to it. -/
theorem modify_concat (blocks : List BlockInput) (block : BlockInput) (items : Batch) :
    (blocks ++ [block]).modify ((blocks ++ [block]).length - 1) (·.add items) =
      blocks ++ [block.add items] := by
  have hk : blocks.length < (blocks ++ [block]).length := by simp
  rw [List.length_append, List.length_singleton, Nat.add_sub_cancel,
    List.modify_eq_take_cons_drop hk]
  simp

/-- The factory can make the session of any block. -/
def Makes (factory : Factory StrategyTree) : Prop :=
  ∀ earlier header, ∃ session, factory.create earlier header = .ok session ∧
    session.Accounts factory.verifier ⟨header, []⟩

/-- A service attends to blocks: each of them has its session, and only a service without sessions
has no current one. -/
structure Attends (factory : Factory StrategyTree) (service : Service StrategyTree)
    (blocks : List BlockInput) (told : List Response) : Prop where
  /-- The accounts of the sessions. -/
  serves : Serves factory.verifier service.sessions blocks told
  /-- Sessions are replaced, not removed. -/
  current : service.current = none → service.earlier = []

namespace Attends

variable {factory : Factory StrategyTree} {service : Service StrategyTree}

/-- One session of a service goes on. -/
theorem work (attends : Attends factory service blocks told) (position count : Nat) :
    Attends factory (service.work factory position count).1 blocks
      (told ++ Signal.responses (service.work factory position count).2) := by
  have step : ∀ (session : Session StrategyTree) batches,
      session.Fares factory.verifier batches →
      (session.runTaskFor factory.verifier count).1.Fares factory.verifier batches ∧
        session.verification.Advances
          (session.runTaskFor factory.verifier count).1.verification
          (session.runTaskFor factory.verifier count).2 :=
    fun session batches fares =>
      ⟨fares.runTaskFor count, Session.advances_runTaskFor factory.verifier fares.sound count⟩
  have serves := attends.serves
  rw [Service.sessions] at serves
  rw [Service.work]
  cases hearlier : service.earlier[position]? with
  | some session =>
    have hposition := (List.getElem?_eq_some_iff.mp hearlier).1
    have hnext := serves.setSession (by rw [List.getElem?_append_left hposition, hearlier])
      (step session)
    rw [List.set_append_left _ _ hposition] at hnext
    refine ⟨hnext, ?_⟩
    intro hnone
    rw [attends.current hnone]
    rfl
  | none =>
    cases hcurrent : service.current with
    | none =>
      refine ⟨?_, attends.current⟩
      simpa [Signal.responses, Service.sessions] using attends.serves
    | some session =>
      dsimp only
      split
      · next hposition =>
        rw [hcurrent] at serves
        have hnext := serves.setSession (k := position) (by simp [hposition]) (step session)
        rw [List.set_append_right _ _ (by omega), hposition, Nat.sub_self] at hnext
        exact ⟨hnext, fun hnone => absurd hnone (Option.some_ne_none _)⟩
      · refine ⟨?_, attends.current⟩
        simpa [Signal.responses, Service.sessions] using attends.serves

/-- Every task runs until it ends or waits. -/
theorem drain (attends : Attends factory service blocks told) :
    Attends factory (service.drain factory).1 blocks
      (told ++ Signal.responses (service.drain factory).2) := by
  have serves := attends.serves
  rw [Service.sessions] at serves
  rw [Service.drain]
  cases hcurrent : service.current with
  | none =>
    rw [attends.current hcurrent, hcurrent] at serves
    have hall : Serves factory.verifier ([] ++ []) blocks told := serves
    rw [attends.current hcurrent]
    exact ⟨hall.runTasks, fun _ => rfl⟩
  | some session =>
    rw [hcurrent, Option.toList_some] at serves
    have hall : Serves factory.verifier ([] ++ (service.earlier ++ [session])) blocks told := serves
    have hnext := hall.runTasks
    rw [List.nil_append, runTasks_concat] at hnext
    exact ⟨hnext, fun hnone => absurd hnone (Option.some_ne_none _)⟩

/-- The runtime is destroyed. -/
theorem stopRuntime (attends : Attends factory service blocks told) :
    Attends factory service.stopRuntime blocks told := by
  have hsessions : service.stopRuntime.sessions = service.sessions.map Session.stopTask := by
    rw [Service.sessions, Service.sessions, List.map_append]
    cases hcurrent : service.current <;> simp [Service.stopRuntime, hcurrent]
  refine ⟨hsessions ▸ attends.serves.stopTasks, ?_⟩
  intro hnone
  have hcurrent : service.current = none := Option.map_eq_none_iff.mp hnone
  rw [Service.stopRuntime, attends.current hcurrent]
  rfl

/-- A batch goes to the session of the last block. -/
theorem route (attends : Attends factory service blocks told) (items : Batch) :
    Attends factory (service.route factory items).1
      (blocks.modify (blocks.length - 1) (·.add items))
      (told ++ Signal.responses (service.route factory items).2) := by
  have serves := attends.serves
  have hlength := serves.length
  rw [Service.sessions] at serves hlength
  rw [Service.route]
  cases hcurrent : service.current with
  | none =>
    rw [attends.current hcurrent, hcurrent] at hlength
    obtain rfl : blocks = [] := List.length_eq_zero_iff.mp hlength.symm
    refine ⟨?_, attends.current⟩
    simpa [Signal.responses] using attends.serves
  | some session =>
    rw [hcurrent, Option.toList_some] at serves hlength
    rw [List.length_append, List.length_singleton] at hlength
    have hlast : blocks.length - 1 = service.earlier.length := by omega
    have hk : service.earlier.length < blocks.length := by omega
    have hblock : blocks[service.earlier.length]? = some blocks[service.earlier.length] :=
      List.getElem?_eq_getElem hk
    have hsession : (service.earlier ++ [session])[service.earlier.length]? = some session := by
      simp
    have haccount := serves.accounts _ session _ hsession hblock
    have hfares : (session.append factory.verifier items).1.Fares factory.verifier
        (blocks[service.earlier.length].add items).batches := haccount.fares.append items
    have hheader : (blocks[service.earlier.length].add items).header =
        blocks[service.earlier.length].header := rfl
    have hnext := serves.set hsession hblock hheader hfares
      (Session.advances_append factory.verifier haccount.fares.sound items)
    rw [List.set_append_right _ _ (Nat.le_refl _), Nat.sub_self] at hnext
    have hmodify : blocks.modify service.earlier.length (·.add items) =
        blocks.set service.earlier.length (blocks[service.earlier.length].add items) := by
      rw [List.modify_eq_take_cons_drop hk, List.set_eq_take_append_cons_drop, if_pos hk]
    rw [hlast, hmodify]
    exact ⟨hnext, fun hnone => absurd hnone (Option.some_ne_none _)⟩

/-- The session of a new block becomes the current one. -/
theorem opened (attends : Attends factory service blocks told) {session : Session StrategyTree}
    {block : BlockInput} (account : session.Accounts factory.verifier block) :
    Attends factory (service.opened session) (blocks ++ [block]) told := by
  have hnew : (if service.runtimeLive then session else session.stopTask).Accounts
      factory.verifier block := by
    split
    · exact account
    · refine ⟨?_, account.fares.stopTask⟩
      rw [Session.verification_stopTask, account.block]
  have serves := attends.serves
  rw [Service.sessions] at serves
  refine ⟨?_, fun hnone => absurd hnone (Option.some_ne_none _)⟩
  rw [Service.sessions, Service.opened]
  cases hcurrent : service.current with
  | none =>
    rw [hcurrent, Option.toList_none, List.append_nil] at serves
    have hnext := serves.push hnew
    simpa using hnext
  | some previous =>
    rw [hcurrent, Option.toList_some] at serves
    have hsession : (service.earlier ++ [previous])[service.earlier.length]? = some previous := by
      simp
    have hreleased := serves.setSession hsession fun batches fares =>
      ⟨fares.release, Verification.Advances.refl previous.verification⟩
    rw [List.set_append_right _ _ (Nat.le_refl _), Nat.sub_self] at hreleased
    have hnext := hreleased.push hnew
    simpa [Signal.responses] using hnext

/-- A batch is received, by a service whose factory can make sessions. -/
theorem receive (attends : Attends factory service blocks told)
    (makes : Makes factory) (items : Batch) :
    Attends factory (service.receive factory items).2.1 (blocksWith blocks items)
      (told ++ Signal.responses (service.receive factory items).2.2) := by
  cases items with
  | nil => simpa [Service.receive, blocksWith, Signal.responses] using attends
  | cons first rest =>
    simp only [Service.receive, blocksWith]
    by_cases hkind : first.kind ≠ .blockHeader
    · rw [if_pos hkind, if_pos hkind]
      exact attends.route (first :: rest)
    · rw [if_neg hkind, if_neg hkind]
      cases hheader : first.header with
      | error error => simpa [Signal.responses] using attends
      | ok header =>
        obtain ⟨session, hcreate, haccount⟩ := makes service.sessions.length header
        have hnext := (attends.opened haccount).route (first :: rest)
        rw [modify_concat] at hnext
        dsimp only
        rw [hcreate]
        dsimp only
        rw [responses_append, responses_replacementWarning, List.nil_append]
        exact hnext

end Attends

end BlockIntake
