import BlockIntake.Proofs.Verification.Reception
import BlockIntake.Proofs.Verification.Refinement

/-!
# What a service tells balances

At any time a service has told one count for every block it opened, and one count and one response
for every result its sessions have, and nothing else. Each step keeps the balance, whichever session
it moves, for any trees and any check of signatures.
-/

namespace BlockIntake

open Merkle

namespace VerificationResult

/-- The count that goes with a result. -/
def tally (result : VerificationResult) : Tally :=
  match result.outcome with
  | .verified _ => .verified
  | .failed _ code => .failed code

/-- The response that goes with a result. -/
def response (result : VerificationResult) : Response :=
  match result.outcome with
  | .verified hash => .acknowledged ⟨result.block, hash, false⟩
  | .failed _ code => .ended ⟨result.block, code⟩

end VerificationResult

/-- What is told while a verification goes on goes with the result it is given. -/
theorem Verification.Advances.news {σ : Type} {before after : Verification σ}
    {signals : List Signal} (h : Advances before after signals) :
    ∃ news, after.result.toList = before.result.toList ++ news ∧
      Signal.tallies signals = news.map VerificationResult.tally ∧
      Signal.responses signals = news.map VerificationResult.response := by
  rcases h with keeps | ends
  · exact ⟨[], by rw [keeps.result, List.append_nil], keeps.silent.1, keeps.silent.2⟩
  · refine ⟨after.result.toList, by rw [ends.pending]; rfl, ?_⟩
    have htold := ends.told
    generalize Signal.tallies signals = tallies at htold ⊢
    generalize Signal.responses signals = responses at htold ⊢
    generalize after.result = result at htold ⊢
    generalize after.state = state at htold
    cases htold with
    | running => exact ⟨rfl, rfl⟩
    | completed hash => exact ⟨rfl, rfl⟩
    | failed error => exact ⟨rfl, rfl⟩

/-- The results that verifications have. -/
def resultsOf (verifications : List (Verification StrategyTree)) : List VerificationResult :=
  verifications.filterMap (·.result)

/-- The results come in the order of the verifications. -/
theorem resultsOf_append (front back : List (Verification StrategyTree)) :
    resultsOf (front ++ back) = resultsOf front ++ resultsOf back :=
  List.filterMap_append

/-- The results of a verification and others. -/
theorem resultsOf_cons (v : Verification StrategyTree) (rest : List (Verification StrategyTree)) :
    resultsOf (v :: rest) = v.result.toList ++ resultsOf rest := by
  rw [resultsOf, List.filterMap_cons]
  cases v.result <;> rfl

/-- If the verifications of a service are sound, as many have a result as run no more. -/
theorem length_eq_results_add_running {verifications : List (Verification StrategyTree)}
    (sound : ∀ v ∈ verifications, v.Sound) :
    verifications.length =
      (resultsOf verifications).length + verifications.countP (·.state.isRunning) := by
  induction verifications with
  | nil => rfl
  | cons v rest ih =>
    have hsound : v.state = .running ↔ v.result = none := sound v List.mem_cons_self
    have hrest := ih fun w h => sound w (List.mem_cons_of_mem _ h)
    rw [resultsOf_cons, List.length_append, List.length_cons, List.countP_cons, hrest]
    cases hresult : v.result with
    | none =>
      have hruns : v.state.isRunning = true := by
        rw [hsound.mpr hresult]
        rfl
      simp only [Option.toList_none, List.length_nil, hruns, if_true]
      omega
    | some result =>
      have hended : v.state.isRunning = false := by
        rw [SessionState.isRunning, beq_eq_false_iff_ne]
        exact fun hstate => absurd ((hsound.mp hstate).symm.trans hresult) (by simp)
      simp only [Option.toList_some, List.length_singleton, hended, Bool.false_eq_true, if_false]
      omega

/-- One count was told for every block opened, and one count and one response for every result. -/
structure Balanced (verifications : List (Verification StrategyTree)) (opened : Nat)
    (told : List Signal) : Prop where
  /-- The verifications are sound. -/
  sound : ∀ v ∈ verifications, v.Sound
  /-- The counts. -/
  tallies : (Signal.tallies told).Perm
    (List.replicate opened .received ++ (resultsOf verifications).map VerificationResult.tally)
  /-- The responses. -/
  responses : (Signal.responses told).Perm
    ((resultsOf verifications).map VerificationResult.response)

namespace Balanced

variable {verifications front back : List (Verification StrategyTree)} {opened : Nat}
  {told signals : List Signal}

/-- Before anything is received the balance is kept. -/
theorem start : Balanced [] 0 [] :=
  ⟨fun _ h => absurd h List.not_mem_nil, .refl _, .refl _⟩

/-- Logging keeps the balance. -/
theorem log (balanced : Balanced verifications opened told) (silent : Silent signals) :
    Balanced verifications opened (told ++ signals) := by
  refine ⟨balanced.sound, ?_, ?_⟩
  · rw [tallies_append, silent.1, List.append_nil]
    exact balanced.tallies
  · rw [responses_append, silent.2, List.append_nil]
    exact balanced.responses

/-- A block is counted when it is opened. -/
theorem count (balanced : Balanced verifications opened told) :
    Balanced verifications (opened + 1) (told ++ [.tally .received]) := by
  refine ⟨balanced.sound, ?_, ?_⟩
  · rw [tallies_append, List.replicate_succ]
    exact (balanced.tallies.append_right _).trans List.perm_append_comm
  · rw [responses_append]
    exact (List.append_nil _).symm ▸ balanced.responses

/-- A verification that goes on tells what goes with its result. -/
theorem advance {v next : Verification StrategyTree}
    (balanced : Balanced (front ++ v :: back) opened told) (advances : v.Advances next signals) :
    Balanced (front ++ next :: back) opened (told ++ signals) := by
  obtain ⟨news, hresult, htallies, hresponses⟩ := advances.news
  have hnews : (resultsOf (front ++ v :: back) ++ news).Perm
      (resultsOf (front ++ next :: back)) := by
    simp only [resultsOf_append, resultsOf_cons, hresult, List.append_assoc]
    exact (List.perm_append_comm.append_left _).append_left _
  refine ⟨?_, ?_, ?_⟩
  · intro w hw
    rcases List.mem_append.mp hw with hfront | hrest
    · exact balanced.sound w (List.mem_append_left _ hfront)
    · rcases List.mem_cons.mp hrest with rfl | hback
      · exact advances.sound
          (balanced.sound v (List.mem_append_right _ List.mem_cons_self))
      · exact balanced.sound w (List.mem_append_right _ (List.mem_cons_of_mem _ hback))
  · have hmore := balanced.tallies.append_right (news.map VerificationResult.tally)
    rw [List.append_assoc, ← List.map_append] at hmore
    rw [tallies_append, htallies]
    exact hmore.trans ((hnews.map _).append_left _)
  · have hmore := balanced.responses.append_right (news.map VerificationResult.response)
    rw [← List.map_append] at hmore
    rw [responses_append, hresponses]
    exact hmore.trans (hnews.map _)

/-- A new verification has told nothing. -/
theorem push (balanced : Balanced verifications opened told) {v : Verification StrategyTree}
    (running : v.state = .running) (pending : v.result = none) :
    Balanced (verifications ++ [v]) opened told := by
  have hresults : resultsOf (verifications ++ [v]) = resultsOf verifications := by
    rw [resultsOf_append, resultsOf_cons, pending]
    exact List.append_nil _
  refine ⟨?_, hresults ▸ balanced.tallies, hresults ▸ balanced.responses⟩
  intro w hw
  rcases List.mem_append.mp hw with hold | hnew
  · exact balanced.sound w hold
  · obtain rfl := List.mem_singleton.mp hnew
    exact iff_of_true running pending

end Balanced

/-- The verifications of the sessions of a service, oldest first. -/
def Service.verifications (service : Service StrategyTree) : List (Verification StrategyTree) :=
  service.sessions.map (·.verification)

/-- Opening a session leaves the verifications before it alone. -/
theorem Service.verifications_opened (service : Service StrategyTree)
    (session : Session StrategyTree) :
    (service.opened session).verifications = service.verifications ++ [session.verification] := by
  have hnew : (if service.runtimeLive then session else session.stopTask).verification =
      session.verification := by
    split
    · rfl
    · exact Session.verification_stopTask session
  rw [Service.verifications, Service.verifications, Service.sessions, Service.sessions,
    Service.opened]
  cases service.current with
  | none => simp [hnew]
  | some previous => simp [hnew, Session.release]

/-- Destroying the runtime leaves the verifications alone. -/
theorem Service.verifications_stopRuntime (service : Service StrategyTree) :
    service.stopRuntime.verifications = service.verifications := by
  rw [Service.verifications, Service.verifications, Service.sessions, Service.sessions,
    Service.stopRuntime]
  cases service.current <;> simp [Function.comp_def, Session.verification_stopTask]

/-- A session that is made is new. -/
theorem Factory.exists_start {factory : Factory StrategyTree} {earlier : Nat}
    {header : BlockHeader} {session : Session StrategyTree}
    (made : factory.create earlier header = .ok session) :
    ∃ trees capacity, session = Session.start header trees capacity := by
  unfold Factory.create at made
  obtain ⟨trees, -, hsession⟩ := exists_of_bind_ok made
  split at hsession
  · rw [Session.spawn] at hsession
    split at hsession
    · cases hsession
    · exact ⟨trees, some factory.queueCapacity, (Except.ok.inj hsession).symm⟩
  · cases hsession
  · exact ⟨trees, none, (Except.ok.inj hsession).symm⟩

namespace Balanced

variable (factory : Factory StrategyTree) {service : Service StrategyTree} {opened : Nat}
  {told : List Signal}

/-- The tasks of sessions run, one after the other. The induction runs over the sessions that are
left. -/
theorem runTasks {front : List (Verification StrategyTree)} {rest : List (Session StrategyTree)}
    (balanced : Balanced (front ++ rest.map (·.verification)) opened told) :
    Balanced (front ++ (Service.runTasks factory rest).1.map (·.verification)) opened
      (told ++ (Service.runTasks factory rest).2) := by
  induction rest generalizing front told with
  | nil => exact balanced.log ⟨rfl, rfl⟩
  | cons session rest ih =>
    rw [List.map_cons] at balanced
    have hsound := balanced.sound session.verification (by simp)
    have hfirst := balanced.advance
      (Session.advances_runTaskFor factory.verifier hsound session.waiting.length)
    rw [List.append_cons] at hfirst
    have hall := ih hfirst
    rw [← List.append_cons, List.append_assoc told] at hall
    exact hall

/-- Every task runs until it ends or waits. -/
theorem drain (balanced : Balanced service.verifications opened told) :
    Balanced (service.drain factory).1.verifications opened
      (told ++ (service.drain factory).2) := by
  obtain ⟨-, hsessions, hsignals⟩ := drain_eq factory service
  rw [Service.verifications, hsessions, hsignals]
  have hall : Balanced ([] ++ service.sessions.map (·.verification)) opened told := balanced
  exact hall.runTasks factory

/-- The task of one session runs for a while. -/
theorem work (balanced : Balanced service.verifications opened told) (position count : Nat) :
    Balanced (service.work factory position count).1.verifications opened
      (told ++ (service.work factory position count).2) := by
  rw [Service.work]
  rw [Service.verifications, Service.sessions] at balanced
  cases hearlier : service.earlier[position]? with
  | some session =>
    obtain ⟨hposition, hat⟩ := List.getElem?_eq_some_iff.mp hearlier
    have hsplit : service.earlier =
        service.earlier.take position ++ session :: service.earlier.drop (position + 1) := by
      rw [← hat, ← List.drop_eq_getElem_cons hposition, List.take_append_drop]
    rw [hsplit, List.append_assoc, List.cons_append, List.map_append, List.map_cons] at balanced
    have hsound := balanced.sound session.verification (by simp)
    have hnext := balanced.advance
      (Session.advances_runTaskFor factory.verifier hsound count)
    dsimp only
    rw [Service.verifications, Service.sessions, List.set_eq_take_append_cons_drop,
      if_pos hposition, List.append_assoc, List.cons_append, List.map_append, List.map_cons]
    exact hnext
  | none =>
    cases hcurrent : service.current with
    | none => exact Balanced.log (by rwa [Service.verifications, Service.sessions]) ⟨rfl, rfl⟩
    | some session =>
      dsimp only
      split
      · rw [hcurrent, Option.toList_some, List.map_append, List.map_singleton] at balanced
        have hsound := balanced.sound session.verification (by simp)
        have hnext := balanced.advance
          (Session.advances_runTaskFor factory.verifier hsound count)
        rw [Service.verifications, Service.sessions, List.map_append]
        exact hnext
      · exact Balanced.log (by rwa [Service.verifications, Service.sessions]) ⟨rfl, rfl⟩

/-- A batch goes to the current session. -/
theorem route (balanced : Balanced service.verifications opened told) (items : Batch) :
    Balanced (service.route factory items).1.verifications opened
      (told ++ (service.route factory items).2) := by
  rw [Service.route]
  cases hcurrent : service.current with
  | none => exact balanced.log ⟨rfl, rfl⟩
  | some session =>
    rw [Service.verifications, Service.sessions, hcurrent, Option.toList_some, List.map_append,
      List.map_singleton] at balanced
    have hsound := balanced.sound session.verification (by simp)
    have hnext := balanced.advance (Session.advances_append factory.verifier hsound items)
    rw [Service.verifications, Service.sessions, List.map_append]
    exact hnext

/-- A batch is received, and the block it opens is counted. -/
theorem receive (balanced : Balanced service.verifications opened told) (items : Batch) :
    Balanced (service.receive factory items).2.1.verifications
      (opened + if opensBlock items then 1 else 0)
      (told ++ (service.receive factory items).2.2) := by
  rw [receive_eq, opensBlock]
  cases beginning items with
  | nothing => exact balanced.log ⟨rfl, rfl⟩
  | inside => exact balanced.route factory items
  | unreadable error => exact balanced.log ⟨rfl, rfl⟩
  | opening header =>
    have hcounted := (balanced.log (silent_replacementWarning service header.number)).count
    rw [List.append_assoc] at hcounted
    dsimp only
    cases hcreate : factory.create service.sessions.length header with
    | error fault => exact hcounted
    | ok session =>
      obtain ⟨trees, capacity, rfl⟩ := Factory.exists_start hcreate
      have hnew := Session.verification_start header trees capacity
      have hpushed := hcounted.push (v := (Session.start header trees capacity).verification)
        (by rw [hnew]) (by rw [hnew])
      rw [← Service.verifications_opened] at hpushed
      have hrouted := hpushed.route factory items
      rw [List.append_assoc told] at hrouted
      exact hrouted

/-- Every step keeps the balance. -/
theorem step (balanced : Balanced service.verifications opened told) (step : ServiceStep) :
    Balanced (service.step factory step).2.1.verifications
      (opened + (receivedIn [step]).countP opensBlock)
      (told ++ (service.step factory step).2.2) := by
  cases step with
  | receive items =>
    have hcount : (receivedIn [.receive items]).countP opensBlock =
        if opensBlock items then 1 else 0 := List.countP_singleton
    rw [hcount]
    exact balanced.receive factory items
  | work position count => exact balanced.work factory position count
  | drain => exact balanced.drain factory
  | stopRuntime =>
    have hsame := service.verifications_stopRuntime
    exact Balanced.log (by rw [Service.step, hsame]; exact balanced) ⟨rfl, rfl⟩

/-- Every run keeps the balance. -/
theorem run (balanced : Balanced service.verifications opened told) (steps : List ServiceStep) :
    Balanced (service.run factory steps).2.1.verifications
      (opened + (receivedIn steps).countP opensBlock)
      (told ++ (service.run factory steps).2.2) := by
  induction steps generalizing service opened told with
  | nil => exact balanced.log ⟨rfl, rfl⟩
  | cons step steps ih =>
    have hall := ih (balanced.step factory step)
    rw [Nat.add_assoc, ← List.countP_append, ← receivedIn_cons, List.append_assoc] at hall
    exact hall

end Balanced

/-- As many sessions of a service run as blocks were opened and had no response. -/
theorem Balanced.sessions_eq {service : Service StrategyTree} {opened : Nat} {told : List Signal}
    (balanced : Balanced service.verifications opened told) :
    service.sessions.length = (Signal.responses told).length +
      service.sessions.countP (·.verification.state.isRunning) := by
  have hcount := length_eq_results_add_running balanced.sound
  have hresponses := balanced.responses.length_eq
  rw [List.length_map] at hresponses
  rw [Service.verifications, List.length_map, ← Service.verifications, ← hresponses] at hcount
  rw [hcount, Service.verifications, List.countP_map]
  rfl

/-- Where every session can be made, there is one for every batch that opens a block. -/
theorem Makes.length_sessions {factory : Factory StrategyTree} (makes : Makes factory)
    (steps : List ServiceStep) :
    (Service.run factory {} steps).2.1.sessions.length =
      (receivedIn steps).countP opensBlock := by
  have attends := (attends_new factory).run makes steps
  rw [attends.serves.length, length_foldl_blocksWith, List.length_nil, Nat.zero_add]

end BlockIntake
