import BlockIntake.Merkle.Lane
import Mathlib

/-!
# Tickets of a lane

The batches taken from a lane are numbered by their tickets. At any time the tickets from
`nextToForward` to `nextTicket` are in flight, and each of them is in exactly one place: with a job,
or among the results that landed early. Landing a result keeps this account and lets the results
leave in the order in which their batches were taken, whatever the order of the landings.
-/

namespace BlockIntake.Merkle.Lane

/-- The account of a lane: `taken` are the batches taken so far, in ticket order, and `out` the
tickets whose results have not landed. -/
structure Tracks (lane : Lane) (out : List Nat) (pad : Digest) (taken : List (List Digest)) :
    Prop where
  /-- Every batch has a ticket. -/
  length_taken : taken.length = lane.nextTicket
  /-- Only results of taken batches leave. -/
  forward_le : lane.nextToForward ≤ lane.nextTicket
  /-- Every ticket in flight is out or has landed early, and only one of the two. -/
  tickets : (out ++ lane.finished.map Prod.fst).Perm
    (List.range' lane.nextToForward (lane.nextTicket - lane.nextToForward))
  /-- An early result is that of the batch with its ticket. -/
  results : ∀ entry ∈ lane.finished, ∃ batch,
    taken[entry.1]? = some batch ∧ entry.2 = pairUp pad batch

/-- No result that has landed could leave. -/
def Settled (lane : Lane) : Prop := ∀ entry ∈ lane.finished, entry.1 ≠ lane.nextToForward

/-- The hashes that have left a lane for the next height. -/
def raised (lane : Lane) (pad : Digest) (taken : List (List Digest)) : List Digest :=
  (taken.take lane.nextToForward).flatMap (pairUp pad)

variable {lane : Lane} {out : List Nat} {pad : Digest} {taken : List (List Digest)}

/-- A lane from which nothing was taken has an empty account. -/
theorem tracks_empty (pad : Digest) : ({} : Lane).Tracks [] pad [] where
  length_taken := rfl
  forward_le := Nat.le_refl _
  tickets := List.Perm.refl _
  results := by simp

/-- A ticket is accounted for exactly if it is in flight. -/
theorem Tracks.mem_iff (h : lane.Tracks out pad taken) (ticket : Nat) :
    ticket ∈ out ∨ ticket ∈ lane.finished.map Prod.fst ↔
      lane.nextToForward ≤ ticket ∧ ticket < lane.nextTicket := by
  have hle := h.forward_le
  rw [← List.mem_append, h.tickets.mem_iff, List.mem_range'_1]
  omega

/-- No ticket is accounted for twice. -/
theorem Tracks.nodup (h : lane.Tracks out pad taken) :
    (out ++ lane.finished.map Prod.fst).Nodup :=
  h.tickets.nodup_iff.mpr List.nodup_range'

/-- The order in which the tickets are listed does not matter. -/
theorem Tracks.perm {out' : List Nat} (h : lane.Tracks out pad taken) (hperm : out'.Perm out) :
    lane.Tracks out' pad taken :=
  { h with tickets := (hperm.append_right _).trans h.tickets }

/-- Where nothing is in flight, every result has left. -/
theorem Tracks.idle (h : lane.Tracks out pad taken) (still : lane.inFlight = false) :
    out = [] ∧ lane.finished = [] ∧ lane.raised pad taken = taken.flatMap (pairUp pad) := by
  have hfwd : lane.nextToForward = lane.nextTicket := by
    have hle := h.forward_le
    simp only [inFlight, decide_eq_false_iff_not] at still
    omega
  have hnone := h.tickets
  rw [hfwd, Nat.sub_self] at hnone
  have hempty := List.append_eq_nil_iff.mp hnone.eq_nil
  refine ⟨hempty.1, List.map_eq_nil_iff.mp hempty.2, ?_⟩
  rw [raised, hfwd, ← h.length_taken, List.take_length]

/-- In a settled lane the result that would leave next is still out. -/
theorem Tracks.forward_mem_out (h : lane.Tracks out pad taken) (settled : lane.Settled)
    (flying : lane.inFlight = true) : lane.nextToForward ∈ out := by
  have hlt : lane.nextToForward < lane.nextTicket := by simpa [inFlight] using flying
  apply ((h.mem_iff _).mpr ⟨Nat.le_refl _, hlt⟩).resolve_right
  intro early
  obtain ⟨entry, hentry, heq⟩ := List.mem_map.mp early
  exact settled entry hentry heq

/-- Taking a batch puts its ticket out. -/
theorem Tracks.takeBatch (h : lane.Tracks out pad taken) :
    lane.takeBatch.2.Tracks (out ++ [lane.nextTicket]) pad (taken ++ [lane.pending.toList]) where
  length_taken := by simp [Lane.takeBatch, h.length_taken]
  forward_le := Nat.le_succ_of_le h.forward_le
  tickets := by
    have hle := h.forward_le
    have hgrow : lane.nextTicket + 1 - lane.nextToForward =
        (lane.nextTicket - lane.nextToForward) + 1 := by omega
    have hlast : lane.nextToForward + 1 * (lane.nextTicket - lane.nextToForward) =
        lane.nextTicket := by omega
    have hmoved : (out ++ [lane.nextTicket] ++ lane.finished.map Prod.fst).Perm
        (out ++ lane.finished.map Prod.fst ++ [lane.nextTicket]) := by
      rw [List.append_assoc, List.append_assoc]
      exact List.perm_append_comm.append_left out
    simp only [Lane.takeBatch]
    rw [hgrow, List.range'_concat, hlast]
    exact hmoved.trans (h.tickets.append_right _)
  results := by
    intro entry hentry
    obtain ⟨batch, hbatch, hresult⟩ := h.results entry hentry
    refine ⟨batch, ?_, hresult⟩
    rw [List.getElem?_append_left (List.getElem?_eq_some_iff.mp hbatch).1, hbatch]

/-- Taking a batch raises nothing. -/
theorem Tracks.raised_takeBatch (h : lane.Tracks out pad taken) :
    lane.takeBatch.2.raised pad (taken ++ [lane.pending.toList]) = lane.raised pad taken := by
  have hle := h.forward_le
  simp only [raised, Lane.takeBatch]
  rw [List.take_append_of_le_length (by rw [h.length_taken]; exact hle)]

/-- A result that lands is out no more. -/
theorem Tracks.file {ticket : Nat} {batch : List Digest}
    (h : lane.Tracks (ticket :: out) pad taken) (hbatch : taken[ticket]? = some batch) :
    (lane.file ticket (pairUp pad batch)).Tracks out pad taken where
  length_taken := h.length_taken
  forward_le := h.forward_le
  tickets := List.perm_middle.trans h.tickets
  results := by
    intro entry hentry
    rcases List.mem_cons.mp hentry with rfl | hold
    · exact ⟨batch, hbatch, rfl⟩
    · exact h.results entry hold

/-- Where each key occurs once, removing the entries of a key removes just that key. -/
theorem perm_cons_filter_ne {β : Type} {entries : List (Nat × β)} {key : Nat}
    (nodup : (entries.map Prod.fst).Nodup) (present : key ∈ entries.map Prod.fst) :
    (entries.map Prod.fst).Perm (key :: (entries.filter (·.1 != key)).map Prod.fst) := by
  have hfilter : (entries.filter (·.1 != key)).map Prod.fst =
      (entries.map Prod.fst).erase key := by
    rw [nodup.erase_eq_filter, List.filter_map]
    rfl
  rw [hfilter]
  exact List.perm_cons_erase present

/-- A result leaves in its turn. -/
theorem Tracks.leave {results : List Digest} (h : lane.Tracks out pad taken)
    (early : lane.finished.lookup lane.nextToForward = some results) :
    let after : Lane :=
      { lane with
        finished := lane.finished.filter (·.1 != lane.nextToForward)
        nextToForward := lane.nextToForward + 1 }
    after.Tracks out pad taken ∧ after.raised pad taken = lane.raised pad taken ++ results := by
  obtain ⟨front, back, hsplit, -⟩ := List.lookup_eq_some_iff.mp early
  have hmem : (lane.nextToForward, results) ∈ lane.finished := by simp [hsplit]
  have hkey : lane.nextToForward ∈ lane.finished.map Prod.fst :=
    List.mem_map.mpr ⟨_, hmem, rfl⟩
  have hlt := ((h.mem_iff _).mp (Or.inr hkey)).2
  obtain ⟨batch, hbatch, rfl⟩ := h.results _ hmem
  have hcount : lane.nextTicket - lane.nextToForward =
      (lane.nextTicket - (lane.nextToForward + 1)) + 1 := by omega
  refine ⟨⟨h.length_taken, hlt, ?_, ?_⟩, ?_⟩
  · have hremoved := perm_cons_filter_ne (List.nodup_append.mp h.nodup).2.1 hkey
    have hmoved := (List.perm_middle.symm.trans (hremoved.symm.append_left out)).trans h.tickets
    rw [hcount, List.range'_succ] at hmoved
    exact hmoved.cons_inv
  · intro entry hentry
    exact h.results entry (List.mem_filter.mp hentry).1
  · simp only [raised]
    rw [List.take_add_one, hbatch, List.flatMap_append]
    simp

/-- Letting results leave changes neither what is pending nor how many batches were taken. -/
theorem keeps_releaseUpTo (count : Nat) (lane : Lane) :
    (lane.releaseUpTo count).2.pending = lane.pending ∧
      (lane.releaseUpTo count).2.nextTicket = lane.nextTicket := by
  induction count generalizing lane with
  | zero => exact ⟨rfl, rfl⟩
  | succ count ih =>
    simp only [Lane.releaseUpTo]
    split
    · exact ⟨rfl, rfl⟩
    · exact ih _

/-- With enough turns no result stays that could leave. -/
theorem settled_releaseUpTo {count : Nat} {lane : Lane} (enough : lane.finished.length ≤ count) :
    (lane.releaseUpTo count).2.Settled := by
  induction count generalizing lane with
  | zero =>
    intro entry hentry
    have hempty : lane.finished = [] := List.length_eq_zero_iff.mp (Nat.le_zero.mp enough)
    simp only [Lane.releaseUpTo, hempty, List.not_mem_nil] at hentry
  | succ count ih =>
    simp only [Lane.releaseUpTo]
    split
    · next hnone =>
      intro entry hentry heq
      have hne := List.lookup_eq_none_iff.mp hnone entry hentry
      simp [heq] at hne
    · next results hsome =>
      obtain ⟨front, back, hsplit, -⟩ := List.lookup_eq_some_iff.mp hsome
      have hdrop : (lane.finished.filter (·.1 != lane.nextToForward)).length <
          lane.finished.length := by
        rw [List.length_filter_lt_length_iff_exists]
        exact ⟨(lane.nextToForward, results), by simp [hsplit], by simp⟩
      apply ih
      simp only
      omega

/-- Landing a result settles the lane. It changes neither what is pending nor how many batches were
taken. -/
theorem settled_land (lane : Lane) (ticket : Nat) (results : List Digest) :
    (lane.land ticket results).2.Settled ∧
      (lane.land ticket results).2.pending = lane.pending ∧
      (lane.land ticket results).2.nextTicket = lane.nextTicket :=
  ⟨settled_releaseUpTo (Nat.le_refl _), keeps_releaseUpTo _ (lane.file ticket results)⟩

/-- Letting results leave keeps the account, and what leaves is what the next height gets. -/
theorem Tracks.releaseUpTo (h : lane.Tracks out pad taken) (count : Nat) :
    (lane.releaseUpTo count).2.Tracks out pad taken ∧
    (lane.releaseUpTo count).2.raised pad taken =
      lane.raised pad taken ++ (lane.releaseUpTo count).1 := by
  induction count generalizing lane with
  | zero => exact ⟨h, (List.append_nil _).symm⟩
  | succ count ih =>
    simp only [Lane.releaseUpTo]
    split
    · exact ⟨h, (List.append_nil _).symm⟩
    · next results hsome =>
      obtain ⟨htracks, hraised⟩ := h.leave hsome
      obtain ⟨htracks', hraised'⟩ := ih htracks
      refine ⟨htracks', ?_⟩
      rw [hraised', hraised, List.append_assoc]

/-- Landing the result of a batch keeps the account and settles the lane, and what leaves is what
the next height gets. -/
theorem Tracks.land {ticket : Nat} {batch : List Digest}
    (h : lane.Tracks (ticket :: out) pad taken) (hbatch : taken[ticket]? = some batch) :
    (lane.land ticket (pairUp pad batch)).2.Tracks out pad taken ∧
    (lane.land ticket (pairUp pad batch)).2.Settled ∧
    (lane.land ticket (pairUp pad batch)).2.pending = lane.pending ∧
    (lane.land ticket (pairUp pad batch)).2.raised pad taken =
      lane.raised pad taken ++ (lane.land ticket (pairUp pad batch)).1 := by
  obtain ⟨htracks, hraised⟩ :=
    (h.file hbatch).releaseUpTo (lane.file ticket (pairUp pad batch)).finished.length
  obtain ⟨hsettled, hpending, -⟩ := lane.settled_land ticket (pairUp pad batch)
  exact ⟨htracks, hsettled, hpending, hraised⟩

/-- The next height has got no more than the pairs of all batches taken. -/
theorem length_raised_le (lane : Lane) (pad : Digest) (taken : List (List Digest)) :
    (lane.raised pad taken).length ≤ (taken.flatMap (pairUp pad)).length := by
  exact ((List.take_sublist _ _).flatMap _).length_le

end BlockIntake.Merkle.Lane
