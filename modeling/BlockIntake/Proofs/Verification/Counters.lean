import BlockIntake.Proofs.Broadcast
import BlockIntake.Proofs.Verification.Balance

/-!
# The counters of a service

The counters of a service, those it exports and that of its notifier come from what it has told. As
that balances, they agree with each other, with the batches received and with the sessions.
-/

namespace BlockIntake

open Merkle

/-- Whether a count is that of a failed block. -/
def Tally.isFailure : Tally → Bool
  | .failed _ => true
  | _ => false

/-- Whether a response acknowledges a block. -/
def Response.isAcknowledgement : Response → Bool
  | .acknowledged _ => true
  | .ended _ => false

/-- Whether a response ends a stream. -/
def Response.isEnd : Response → Bool
  | .acknowledged _ => false
  | .ended _ => true

/-- Whether a response ends a stream with a code. -/
def Response.endsWith (code : EndCode) : Response → Bool
  | .acknowledged _ => false
  | .ended eos => eos.code == code

/-- A response acknowledges a block or ends a stream. -/
theorem countP_isAcknowledgement_add (responses : List Response) :
    responses.countP Response.isAcknowledgement + responses.countP Response.isEnd =
      responses.length := by
  induction responses with
  | nil => rfl
  | cons response rest ih =>
    rw [List.countP_cons, List.countP_cons, List.length_cons, ← ih]
    cases response <;> simp only [Response.isAcknowledgement, Response.isEnd] <;> simp <;> omega

/-- The counters are the numbers of the counts of each kind. -/
theorem ofTallies_eq (tallies : List Tally) :
    Metrics.ofTallies tallies =
      ⟨tallies.count .received, tallies.count .verified, tallies.countP Tally.isFailure⟩ := by
  induction tallies using List.reverseRecOn with
  | nil => rfl
  | append_singleton front tally ih =>
    rw [Metrics.ofTallies] at ih ⊢
    rw [List.foldl_append, ih, List.count_append, List.count_append, List.countP_append]
    cases tally <;> rfl

/-- As long as fewer than `2 ^ 64` counts were made, the counters that are kept are exact. -/
theorem toNat_ofTallies {tallies : List Tally} (few : tallies.length < UInt64.size) :
    (MetricsWords.ofTallies tallies).received.toNat = (Metrics.ofTallies tallies).received ∧
    (MetricsWords.ofTallies tallies).verified.toNat = (Metrics.ofTallies tallies).verified ∧
    (MetricsWords.ofTallies tallies).failed.toNat = (Metrics.ofTallies tallies).failed := by
  rw [← Metrics.words_ofTallies, ofTallies_eq]
  exact ⟨UInt64.toNat_ofNat_of_lt' (List.count_le_length.trans_lt few),
    UInt64.toNat_ofNat_of_lt' (List.count_le_length.trans_lt few),
    UInt64.toNat_ofNat_of_lt' (List.countP_le_length.trans_lt few)⟩

/-- Failures with the different codes add up to all failures. -/
theorem sum_failuresWith (tallies : List Tally) :
    (EndCode.all.map fun code => failuresWith code tallies).sum =
      tallies.countP Tally.isFailure := by
  simp only [EndCode.all, failuresWith, List.map_cons, List.map_nil, List.sum_cons, List.sum_nil]
  induction tallies with
  | nil => rfl
  | cons tally rest ih =>
    rw [List.countP_cons, ← ih]
    cases tally with
    | received => simp [Tally.isFailure]
    | verified => simp [Tally.isFailure]
    | failed code => cases code <;> simp [Tally.isFailure] <;> omega

/-- The exported counter of failures with a code. -/
def failedCounter (code : EndCode) : String :=
  let name := code.name
  s!"verification_blocks_failed_total\x7bcode={name}\x7d"

/-- The exported counters, whether or not they rose. -/
def allCounters (tallies : List Tally) : List (String × Nat) :=
  let metrics := Metrics.ofTallies tallies
  ("verification_blocks_received_total", metrics.received) ::
    ("verification_blocks_verified_total", metrics.verified) ::
    EndCode.all.map fun code => (failedCounter code, failuresWith code tallies)

/-- No two counters have the same name. -/
theorem nodup_allCounters (tallies : List Tally) : ((allCounters tallies).map (·.1)).Nodup := by
  have hnames : (allCounters tallies).map (·.1) = "verification_blocks_received_total" ::
      "verification_blocks_verified_total" :: EndCode.all.map failedCounter := rfl
  rw [hnames]
  decide +kernel

/-- By how much an exported counter rose; one that is not among those that rose did not. -/
def exportedRise (tallies : List Tally) (name : String) : Nat :=
  ((exportedCounters tallies).lookup name).getD 0

/-- Among entries with different names, leaving out those that are zero changes no value. -/
theorem getD_lookup_filter {entries : List (String × Nat)} (distinct : (entries.map (·.1)).Nodup)
    {name : String} {rise : Nat} (h : (name, rise) ∈ entries) :
    ((entries.filter (·.2 != 0)).lookup name).getD 0 = rise := by
  induction entries with
  | nil => exact absurd h List.not_mem_nil
  | cons entry rest ih =>
    rw [List.map_cons, List.nodup_cons] at distinct
    rcases List.mem_cons.mp h with rfl | hrest
    · by_cases hzero : rise = 0
      · have hnone : (rest.filter (·.2 != 0)).lookup name = none := by
          rw [List.lookup_eq_none_iff]
          intro other hother
          rw [bne_iff_ne]
          rintro rfl
          exact distinct.1 (List.mem_map.mpr ⟨other, List.mem_of_mem_filter hother, rfl⟩)
        simp [hzero, hnone]
      · simp [hzero]
    · have hname : (name == entry.1) = false := by
        rw [beq_eq_false_iff_ne]
        rintro rfl
        exact distinct.1 (List.mem_map.mpr ⟨_, hrest, rfl⟩)
      rw [List.filter_cons]
      split
      · rw [List.lookup_cons, hname]
        exact ih distinct.2 hrest
      · exact ih distinct.2 hrest

/-- An exported counter rises by its value. -/
theorem exportedRise_eq {tallies : List Tally} {name : String} {rise : Nat}
    (h : (name, rise) ∈ allCounters tallies) : exportedRise tallies name = rise :=
  getD_lookup_filter (nodup_allCounters tallies) h

/-- The exported counter of opened blocks rises by those opened. -/
theorem exportedRise_received (tallies : List Tally) :
    exportedRise tallies "verification_blocks_received_total" =
      (Metrics.ofTallies tallies).received :=
  exportedRise_eq List.mem_cons_self

/-- The exported counter of verified blocks rises by those verified. -/
theorem exportedRise_verified (tallies : List Tally) :
    exportedRise tallies "verification_blocks_verified_total" =
      (Metrics.ofTallies tallies).verified :=
  exportedRise_eq (List.mem_cons_of_mem _ List.mem_cons_self)

/-- The exported counter of failures with a code rises by these. -/
theorem exportedRise_failed (tallies : List Tally) (code : EndCode) :
    exportedRise tallies (failedCounter code) = failuresWith code tallies :=
  exportedRise_eq (List.mem_cons_of_mem _ (List.mem_cons_of_mem _
    (List.mem_map_of_mem code.mem_all)))

namespace Balanced

variable {verifications : List (Verification StrategyTree)} {opened : Nat} {told : List Signal}

/-- A kind of result is counted as often as it is responded. -/
theorem countP_eq (balanced : Balanced verifications opened told) {counts : Tally → Bool}
    {responds : Response → Bool} (unopened : counts .received = false)
    (agree : ∀ result : VerificationResult, responds result.response = counts result.tally) :
    (Signal.tallies told).countP counts = (Signal.responses told).countP responds := by
  rw [balanced.tallies.countP_eq, balanced.responses.countP_eq, List.countP_append,
    List.countP_replicate, unopened, List.countP_map, List.countP_map]
  simp only [Bool.false_eq_true, if_false, Nat.zero_add]
  exact List.countP_congr fun result _ => by simp [agree]

/-- As many blocks were verified as acknowledged. -/
theorem verified_eq (balanced : Balanced verifications opened told) :
    (Metrics.ofTallies (Signal.tallies told)).verified =
      (Signal.responses told).countP Response.isAcknowledgement := by
  rw [ofTallies_eq]
  refine balanced.countP_eq rfl ?_
  rintro ⟨block, outcome⟩
  cases outcome <;> rfl

/-- As many blocks failed as ended a stream. -/
theorem failed_eq (balanced : Balanced verifications opened told) :
    (Metrics.ofTallies (Signal.tallies told)).failed =
      (Signal.responses told).countP Response.isEnd := by
  rw [ofTallies_eq]
  refine balanced.countP_eq rfl ?_
  rintro ⟨block, outcome⟩
  cases outcome <;> rfl

/-- As many blocks failed with a code as ended a stream with it. -/
theorem failuresWith_eq (balanced : Balanced verifications opened told) (code : EndCode) :
    failuresWith code (Signal.tallies told) =
      (Signal.responses told).countP (Response.endsWith code) := by
  refine balanced.countP_eq rfl ?_
  rintro ⟨block, outcome⟩
  cases outcome with
  | verified hash => rfl
  | failed error other => simp [VerificationResult.response, VerificationResult.tally,
      Response.endsWith, Bool.beq_eq_decide_eq]

/-- As many blocks were opened as were counted. -/
theorem received_eq (balanced : Balanced verifications opened told) :
    (Metrics.ofTallies (Signal.tallies told)).received = opened := by
  have hnone : ((resultsOf verifications).map VerificationResult.tally).count .received = 0 := by
    rw [List.count_eq_zero]
    intro h
    obtain ⟨⟨block, outcome⟩, -, hresult⟩ := List.mem_map.mp h
    cases outcome <;> exact absurd hresult Tally.noConfusion
  rw [ofTallies_eq]
  dsimp only
  rw [balanced.tallies.count_eq, List.count_append, List.count_replicate_self, hnone,
    Nat.add_zero]

end Balanced

variable {factory : Factory StrategyTree}

/-- Where no session can be made, there is none. -/
theorem MakesNone.sessions_run (makesNone : MakesNone factory) {service : Service StrategyTree}
    (idle : service.current = none) (empty : service.earlier = []) (steps : List ServiceStep) :
    (service.run factory steps).2.1.sessions = [] := by
  induction steps generalizing service with
  | nil =>
    rw [Service.run, Service.sessions, idle, empty]
    rfl
  | cons step steps ih =>
    obtain ⟨hidle, hempty, -⟩ := makesNone.step idle empty step
    exact ih hidle hempty

/-- After any run of a service over a factory made from valid settings the counters agree with what
has happened. The blocks counted as received are the batches that open one; those counted as
verified have been acknowledged; those counted as failed have ended a stream; and a notifier that
has published the responses, whoever listened, has counted both. The exported counters rose by the
same, failures for each code apart. If sessions can be made, one was made for every block received,
and the blocks that have neither been verified nor failed are those whose session runs. If no queue
can be as long as the settings ask for, there is no session and nothing else is counted. -/
theorem counters_balance {settings : VerificationSettings} {hasRuntime : Bool}
    {verifier : Verifier} {schedule : PoolSchedule}
    (made : Factory.new settings hasRuntime verifier schedule = .ok factory)
    (steps : List ServiceStep) :
    ∃ answers last signals metrics,
      Service.run factory {} steps = (answers, last, signals) ∧
      Metrics.ofTallies (Signal.tallies signals) = metrics ∧
      metrics.received = (receivedIn steps).countP opensBlock ∧
      metrics.verified = (Signal.responses signals).countP Response.isAcknowledgement ∧
      metrics.failed = (Signal.responses signals).countP Response.isEnd ∧
      (∀ capacity publishing, publishedIn publishing = Signal.responses signals →
        ((Notifier.new capacity).run publishing).2.published =
          metrics.verified + metrics.failed) ∧
      exportedRise (Signal.tallies signals) "verification_blocks_received_total" =
        metrics.received ∧
      exportedRise (Signal.tallies signals) "verification_blocks_verified_total" =
        metrics.verified ∧
      (∀ code, exportedRise (Signal.tallies signals) (failedCounter code) =
        (Signal.responses signals).countP (Response.endsWith code)) ∧
      (EndCode.all.map fun code =>
        exportedRise (Signal.tallies signals) (failedCounter code)).sum = metrics.failed ∧
      (settings.Roomy → metrics.received = last.sessions.length ∧
        metrics.received = metrics.verified + metrics.failed +
          last.sessions.countP (·.verification.state.isRunning)) ∧
      (¬ settings.Roomy →
        last.sessions = [] ∧ metrics.verified = 0 ∧ metrics.failed = 0) := by
  have hbalanced : Balanced (Service.run factory {} steps).2.1.verifications
      ((receivedIn steps).countP opensBlock) (Service.run factory {} steps).2.2 := by
    have hstart : Balanced ({} : Service StrategyTree).verifications 0 [] := Balanced.start
    have hall := hstart.run factory steps
    rwa [Nat.zero_add, List.nil_append] at hall
  have hreceived := hbalanced.received_eq
  have hverified := hbalanced.verified_eq
  have hfailed := hbalanced.failed_eq
  have hpublished := countP_isAcknowledgement_add
    (Signal.responses (Service.run factory {} steps).2.2)
  rw [← hverified, ← hfailed] at hpublished
  refine ⟨_, _, _, _, rfl, rfl, hreceived, hverified, hfailed, ?_, exportedRise_received _,
    exportedRise_verified _, ?_, ?_, ?_, ?_⟩
  · intro capacity publishing hpublishing
    rw [published_run, hpublishing, hpublished]
    exact Nat.zero_add _
  · intro code
    rw [exportedRise_failed, hbalanced.failuresWith_eq]
  · simp only [exportedRise_failed]
    rw [sum_failuresWith, ofTallies_eq]
  · intro roomy
    have hlength := (makes_of_roomy made roomy).length_sessions steps
    have hrunning := hbalanced.sessions_eq
    rw [hlength, ← hreceived, ← hpublished] at hrunning
    exact ⟨hreceived.trans hlength.symm, hrunning⟩
  · intro crowded
    have hnone := makesNone_of_crowded made crowded
    have hsilent : Signal.responses (Service.run factory {} steps).2.2 = [] :=
      hnone.run rfl rfl steps
    rw [hverified, hfailed, hsilent]
    exact ⟨hnone.sessions_run rfl rfl steps, rfl, rfl⟩

/-- With a brief block that is verified, one block is received and verified, none has failed, one
response is published and no session runs any more. -/
theorem counters_balance_brief : ∃ factory answers last signals response,
    Factory.new .sequential false (fun _ _ => .ok true) = .ok factory ∧
    Service.run factory {} [.receive briefBlock] = (answers, last, signals) ∧
    Metrics.ofTallies (Signal.tallies signals) = ⟨1, 1, 0⟩ ∧
    ((Notifier.new 4).run [.subscribe, .publish response, .receive 0]).2.published = 1 ∧
    exportedRise (Signal.tallies signals) "verification_blocks_verified_total" = 1 ∧
    last.sessions.length = 1 ∧
    last.sessions.countP (·.verification.state.isRunning) = 0 := by
  obtain ⟨hash, trees, hprocess⟩ := process_briefBlock
  obtain ⟨factory, made, hverifier, hcreate⟩ : ∃ factory,
      Factory.new .sequential false (fun _ _ => .ok true) = .ok factory ∧
      factory.verifier = (fun _ _ => .ok true) ∧
      factory.create 0 ⟨0, .zero, 0⟩ =
        .ok (.inline ⟨0, .zero, 0⟩ ⟨.leaves {}, .leaves {}⟩) := ⟨_, rfl, rfl, rfl⟩
  have hbegins : beginning briefBlock = .opening ⟨0, .zero, 0⟩ := beginning_ofHeader _ _
  have hopens : (receivedIn [.receive briefBlock]).countP opensBlock = 1 := by
    simp [receivedIn, opensBlock, hbegins]
  have hresponses : Signal.responses (Service.run factory {} [.receive briefBlock]).2.2 =
      [.acknowledged ⟨0, hash, false⟩] := by
    have hsessions : ({} : Service StrategyTree).sessions.length = 0 := rfl
    simp [Service.run, Service.step, receive_eq, hbegins, hsessions, hcreate, Service.opened,
      Service.route, Session.append, Session.inline, hverifier, Verification.handle, hprocess,
      Verification.complete, Service.replacementWarning, Signal.responses]
  obtain ⟨answers, last, signals, metrics, hrun, hmetrics, hreceived, hverified, hfailed,
    hpublished, -, hexported, -, -, hroomy, -⟩ := counters_balance made [.receive briefBlock]
  obtain ⟨hlength, hrunning⟩ := hroomy (fun htype => SessionType.noConfusion htype)
  rw [hrun] at hresponses
  dsimp only at hresponses
  rw [hopens] at hreceived
  rw [hresponses] at hverified hfailed hpublished
  have hone : metrics.verified = 1 := hverified
  have hnone : metrics.failed = 0 := hfailed
  have hnotified := hpublished 4 [.subscribe, .publish (.acknowledged ⟨0, hash, false⟩), .receive 0]
    rfl
  rw [hone, hnone] at hnotified
  refine ⟨factory, answers, last, signals, _, made, hrun, ?_, hnotified, hexported.trans hone,
    by omega, by omega⟩
  have hall : metrics = ⟨metrics.received, metrics.verified, metrics.failed⟩ := rfl
  rw [hmetrics, hall, hreceived, hone, hnone]

/-- With a queue that is asked to be longer than any can be, a block is counted as received, but no
session is made for it. -/
theorem received_without_session : ∃ factory,
    Factory.new { sessionType := .async, hasher := .naive, queueCapacity := 18446744073709551615 }
      true (fun _ _ => .ok true) = .ok factory ∧
    (Metrics.ofTallies (Signal.tallies
      (Service.run factory {} [.receive [.ofHeader ⟨0, .zero, 0⟩]]).2.2)).received ≠
      (Service.run factory {} [.receive [.ofHeader ⟨0, .zero, 0⟩]]).2.1.sessions.length := by
  obtain ⟨factory, made, hcreate⟩ : ∃ factory,
      Factory.new { sessionType := .async, hasher := .naive, queueCapacity := 18446744073709551615 }
        true (fun _ _ => .ok true) = .ok factory ∧
        factory.create 0 ⟨0, .zero, 0⟩ =
          .error (.crashed (.noRoom 18446744073709551615)) := by
    refine ⟨_, rfl, ?_⟩
    have hroom : TaskQueue.mostWaiting < 18446744073709551615 := by decide
    simp [Factory.create, VerificationSettings.newTree, orRefuse, Session.spawn, hroom]
  refine ⟨factory, made, ?_⟩
  have hbegins := beginning_ofHeader ⟨0, .zero, 0⟩ []
  simp [Service.run, Service.step, receive_eq, hbegins, hcreate, Service.replacementWarning,
    Signal.tallies, Metrics.ofTallies, Metrics.add, Service.sessions]

end BlockIntake
