import BlockIntake.Proofs.Node.Accounts
import BlockIntake.Proofs.Verification.Isolation

/-!
# Accepted settings never fail later

The size of a batch of hashes is looked at when settings are validated, and again by every tree that
is made; whether there is a runtime is looked at when a factory is made, and again by every session.
The later checks refuse nothing that passed the earlier ones. So once a factory is made every header
opens a session, and the service answers a batch with an error only if the header in it cannot be
read. A node with valid settings is refused only if the threads of its pool cannot be started.
-/

namespace BlockIntake

open Merkle

/-- Settings that are valid. -/
theorem VerificationSettings.validate_ok_iff (settings : VerificationSettings) :
    settings.validate = .ok () ↔
      (0 < settings.batchSize ∧ settings.batchSize % 2 = 0) ∧ 0 < settings.queueCapacity := by
  rw [validate]
  by_cases hbatch : settings.batchSize = 0 ∨ settings.batchSize % 2 ≠ 0
  · rw [if_pos hbatch]
    constructor
    · intro valid
      cases valid
    · intro fits
      omega
  · rw [if_neg hbatch]
    by_cases hqueue : settings.queueCapacity = 0
    · rw [if_pos hqueue]
      constructor
      · intro valid
        cases valid
      · intro fits
        omega
    · rw [if_neg hqueue]
      exact iff_of_true rfl (by omega)

/-- A factory can be made from valid settings, if sessions without a runtime need none. -/
theorem exists_factory_iff (settings : VerificationSettings) (hasRuntime : Bool)
    (verifier : Verifier) (schedule : PoolSchedule) :
    (∃ factory, Factory.new settings hasRuntime verifier schedule = .ok factory) ↔
      settings.validate = .ok () ∧ (settings.sessionType = .sync ∨ hasRuntime = true) := by
  rw [Factory.new]
  cases hvalid : settings.validate with
  | error error =>
    constructor
    · rintro ⟨factory, made⟩
      cases made
    · rintro ⟨valid, -⟩
      cases valid
  | ok =>
    have hruntime : (settings.sessionType = .sync ∨ hasRuntime = true) ↔
        ¬ (settings.sessionType = .async ∧ hasRuntime = false) := by
      cases settings.sessionType <;> cases hasRuntime <;> simp
    rw [hruntime]
    simp only [Except.mapError, ok_bind]
    split
    · next hnone =>
      constructor
      · rintro ⟨factory, made⟩
        cases made
      · rintro ⟨-, hsome⟩
        exact absurd hnone hsome
    · next hsome => exact iff_of_true ⟨_, rfl⟩ ⟨trivial, hsome⟩

/-- The answer of a service to a batch, if every header opens a session. -/
def answerTo : Batch → Except VerificationFault Unit
  | [] => .ok ()
  | first :: _ =>
    match first.kind, first.header with
    | .blockHeader, .error error => .error (parseFailure error)
    | _, _ => .ok ()

/-- The answer to a batch depends on what it begins with. -/
theorem answerTo_eq (items : Batch) : answerTo items =
    match beginning items with
    | .unreadable error => .error (parseFailure error)
    | _ => .ok () := by
  cases items with
  | nil => rfl
  | cons first rest =>
    rw [answerTo, beginning]
    by_cases hkind : first.kind = .blockHeader
    · rw [if_neg (not_not.mpr hkind), hkind]
      cases first.header <;> rfl
    · rw [if_pos hkind]
      split
      · next h _ => exact absurd h hkind
      · rfl

/-- The answer to a batch is an error exactly if its first item is a header that cannot be read. -/
theorem answerTo_eq_error_iff (items : Batch) (fault : VerificationFault) :
    answerTo items = .error fault ↔ ∃ first rest error, items = first :: rest ∧
      first.kind = .blockHeader ∧ first.header = .error error ∧ fault = parseFailure error := by
  constructor
  · intro hanswer
    cases items with
    | nil => cases hanswer
    | cons first rest =>
      rw [answerTo] at hanswer
      split at hanswer
      · next error hkind hheader =>
        exact ⟨first, rest, error, rfl, hkind, hheader, (Except.error.inj hanswer).symm⟩
      · cases hanswer
  · rintro ⟨first, rest, error, rfl, hkind, hheader, rfl⟩
    rw [answerTo, hkind, hheader]

variable {factory : Factory StrategyTree}

/-- A service whose factory can make every session answers a batch by what it begins with. -/
theorem Makes.receive (makes : Makes factory) (service : Service StrategyTree) (items : Batch) :
    (service.receive factory items).1 = answerTo items := by
  rw [receive_eq, answerTo_eq]
  cases beginning items with
  | nothing => rfl
  | inside => rfl
  | unreadable error => rfl
  | opening header =>
    obtain ⟨session, hcreate, -⟩ := makes service.sessions.length header
    dsimp only
    rw [hcreate]

/-- Every batch of a run is answered by what it begins with. The induction runs over the steps. -/
theorem Makes.run (makes : Makes factory) (service : Service StrategyTree)
    (steps : List ServiceStep) :
    (service.run factory steps).1 = (receivedIn steps).map answerTo := by
  induction steps generalizing service with
  | nil => rfl
  | cons step steps ih =>
    have hone : (service.step factory step).1.toList = (receivedIn [step]).map answerTo := by
      cases step with
      | receive items => exact congrArg ([·]) (makes.receive service items)
      | work position count => rfl
      | drain => rfl
      | stopRuntime => rfl
    rw [receivedIn_cons, List.map_append, ← hone, ← ih (service.step factory step).2.1]
    rfl

section Refused

variable {settings : NodeSettings} (valid : settings.validate = .ok ()) (source : ThreadSource)
  (error : NodeError)

include valid

/-- A node with valid settings is refused exactly if it has no pool. -/
theorem Node.new_eq_refused_iff_pool : Node.new settings true source = .error (.refused error) ↔
    ∃ cause, WorkerPool.ofThreads source settings.hashingThreads = .error cause ∧
      error = .pool cause := by
  obtain ⟨factory, made⟩ := NodeSettings.exists_factory valid Verifier.hashEcho fun _ _ => []
  simp only [Node.new, valid, made, Except.mapError, orRefuse_ok, ok_bind]
  cases WorkerPool.ofThreads source settings.hashingThreads with
  | error cause =>
    constructor
    · intro refused
      cases refused
      exact ⟨cause, rfl, rfl⟩
    · rintro ⟨cause', hcause, rfl⟩
      obtain rfl := Except.error.inj hcause
      rfl
  | ok pool =>
    refine iff_of_false (orCrash_bind_ne_refused _ _ _) ?_
    rintro ⟨cause, hcause, -⟩
    cases hcause

/-- A node with valid settings is refused exactly if it is to have a pool of its own whose threads
cannot be started. -/
theorem Node.new_eq_refused_iff : Node.new settings true source = .error (.refused error) ↔
    ∃ threads reason, settings.hashingThreads = some threads ∧
      source.start threads = .error reason ∧ error = .pool (.poolUnavailable reason) := by
  have hpool := WorkerPool.ofThreads_eq_error_iff source settings.hashingThreads
  rw [Node.new_eq_refused_iff_pool valid source error]
  constructor
  · rintro ⟨cause, hcause, rfl⟩
    obtain ⟨threads, reason, hsome, hstart, rfl⟩ := (hpool cause).mp hcause
    exact ⟨threads, reason, hsome, hstart, rfl⟩
  · rintro ⟨threads, reason, hsome, hstart, rfl⟩
    exact ⟨_, (hpool _).mpr ⟨threads, reason, hsome, hstart, rfl⟩, rfl⟩

end Refused

/-- A factory can be made exactly if the number of hashes combined at a time is positive and even, a
batch may wait, and sessions need no runtime or there is one. If a queue can be as long as the
settings ask for, every header then opens a running session of its block. So, whatever state a
service is in and whatever happens to it, the answers to the batches it receives are no errors, but
for those whose first item is a header that cannot be read, which is what they say. And valid
settings of a node make a factory where there is a runtime, so that the node is refused for nothing
but a pool of its own whose threads cannot be started. -/
theorem accepted_settings_never_fail (settings : VerificationSettings) (hasRuntime : Bool)
    (verifier : Verifier) (schedule : PoolSchedule) :
    ((∃ factory, Factory.new settings hasRuntime verifier schedule = .ok factory) ↔
      (0 < settings.batchSize ∧ settings.batchSize % 2 = 0) ∧ 0 < settings.queueCapacity ∧
        (settings.sessionType = .sync ∨ hasRuntime = true)) ∧
    (∀ factory, Factory.new settings hasRuntime verifier schedule = .ok factory →
      settings.Roomy →
      (∀ earlier (header : BlockHeader), ∃ session,
        factory.create earlier header = .ok session ∧
          session.verification.state = .running ∧ session.verification.block = header.number) ∧
      ∀ (service : Service StrategyTree) steps,
        (service.run factory steps).1 = (receivedIn steps).map answerTo) ∧
    (∀ items fault, answerTo items = .error fault ↔ ∃ first rest error, items = first :: rest ∧
      first.kind = .blockHeader ∧ first.header = .error error ∧
        fault = .refused (.parseFailure ItemKind.blockHeader.name error.message)) ∧
    ∀ node : NodeSettings, node.validate = .ok () →
      (∃ factory, Factory.new node.verification true verifier schedule = .ok factory) ∧
        ∀ source error, Node.new node true source = .error (.refused error) ↔
          ∃ threads reason, node.hashingThreads = some threads ∧
            source.start threads = .error reason ∧ error = .pool (.poolUnavailable reason) := by
  refine ⟨?_, fun factory made roomy => ⟨fun earlier header => ?_, ?_⟩, answerTo_eq_error_iff,
    fun node valid =>
      ⟨node.exists_factory valid verifier schedule, Node.new_eq_refused_iff valid⟩⟩
  · rw [exists_factory_iff, VerificationSettings.validate_ok_iff, and_assoc]
  · obtain ⟨trees, hcreate, -⟩ := create_of_roomy made roomy earlier header
    have hstart := Session.verification_start header trees settings.capacity?
    exact ⟨_, hcreate, by rw [hstart], by rw [hstart]⟩
  · exact (makes_of_roomy made roomy).run

/-- With the default settings and a runtime a header opens a session, and of two batches the one is
refused that begins with a header without bytes. A node that is to have a thread of its own is
refused where there is none, and only for that. -/
theorem accepted_settings_never_fail_default : ∃ factory,
    Factory.new {} true (fun _ _ => .ok true) (fun _ _ => []) = .ok factory ∧
    (∃ session, factory.create 0 ⟨7, .zero, 0⟩ = .ok session ∧
      session.verification.state = .running ∧ session.verification.block = 7) ∧
    (Service.run factory {} [.receive [⟨.blockHeader, []⟩], .drain, .receive briefBlock]).1 =
      [.error (.refused (.parseFailure "BlockHeader"
        "Failed to decode BlockHeader: io error: unexpected end of file")), .ok ()] ∧
    NodeSettings.validate { hashingThreads := some 1 } = .ok () ∧
    Node.new { hashingThreads := some 1 } true { start := fun _ => .error "no threads" } =
      .error (.refused (.pool (.poolUnavailable "no threads"))) ∧
    ∀ error, Node.new {} true ≠ .error (.refused error) := by
  obtain ⟨hmakes, hfactory, -, hnode⟩ :=
    accepted_settings_never_fail {} true (fun _ _ => .ok true) fun _ _ => []
  obtain ⟨factory, made⟩ := hmakes.mpr ⟨by decide, by decide, Or.inr rfl⟩
  have roomy : VerificationSettings.Roomy {} := fun _ => by decide
  obtain ⟨hcreate, hrun⟩ := hfactory factory made roomy
  have valid : NodeSettings.validate { hashingThreads := some 1 } = .ok () := rfl
  refine ⟨factory, made, hcreate 0 ⟨7, .zero, 0⟩, ?_, valid,
    ((hnode _ valid).2 _ _).mpr ⟨1, "no threads", rfl, rfl, rfl⟩, fun error refused => ?_⟩
  · rw [hrun]
    rfl
  · obtain ⟨threads, reason, hsome, -⟩ := ((hnode {} rfl).2 _ error).mp refused
    cases hsome

end BlockIntake
