import BlockIntake.Proofs.Stream.Canonical
import BlockIntake.Proofs.Verification.Acknowledged

/-!
# How a batch is received

Only the first item of a batch decides what a service does with the batch. A batch that opens a
block is counted before its session is made; one with an unreadable header goes back to the caller
and leaves no trace.
-/

namespace BlockIntake

open Merkle

/-- What a batch begins with. -/
inductive Beginning where
  /-- The batch has no items. -/
  | nothing
  /-- An item that is no header. -/
  | inside
  /-- A header that cannot be read. -/
  | unreadable (error : RecordError)
  /-- The header of a block. -/
  | opening (header : BlockHeader)
deriving DecidableEq

/-- What a batch begins with. -/
def beginning : Batch → Beginning
  | [] => .nothing
  | first :: _ =>
    if first.kind ≠ .blockHeader then .inside
    else
      match first.header with
      | .error error => .unreadable error
      | .ok header => .opening header

/-- A batch begins with the header that its first item carries. -/
theorem beginning_ofHeader (header : BlockHeader) (rest : Batch) :
    beginning (.ofHeader header :: rest) = .opening header := by
  have hkind : ¬ (Item.ofHeader header).kind ≠ .blockHeader := fun h => h rfl
  rw [beginning, if_neg hkind, Item.header_ofHeader]

/-- Whether a batch opens a block. -/
def opensBlock (items : Batch) : Bool :=
  match beginning items with
  | .opening _ => true
  | _ => false

/-- A batch opens a block exactly if it begins with a header that can be read. -/
theorem opensBlock_iff (items : Batch) :
    opensBlock items = true ↔ ∃ header, beginning items = .opening header := by
  rw [opensBlock]
  constructor
  · intro hopens
    split at hopens
    · next header hbegins => exact ⟨header, hbegins⟩
    · exact absurd hopens Bool.false_ne_true
  · rintro ⟨header, hbegins⟩
    rw [hbegins]

variable (factory : Factory StrategyTree) (service : Service StrategyTree)

/-- The refusal of a batch whose header cannot be read. -/
def parseFailure (error : RecordError) : VerificationFault :=
  .refused (.parseFailure ItemKind.blockHeader.name error.message)

/-- What happens to a batch depends on what it begins with. -/
theorem receive_eq (items : Batch) : service.receive factory items =
    match beginning items with
    | .nothing => (.ok (), service, [])
    | .inside => (.ok (), service.route factory items)
    | .unreadable error => (.error (parseFailure error), service, [])
    | .opening header =>
      match factory.create service.sessions.length header with
      | .error fault =>
        (.error fault, service, service.replacementWarning header.number ++ [.tally .received])
      | .ok session =>
        (.ok (), ((service.opened session).route factory items).1,
          service.replacementWarning header.number ++ [.tally .received] ++
            ((service.opened session).route factory items).2) := by
  cases items with
  | nil => rfl
  | cons first rest =>
    rw [Service.receive, beginning]
    by_cases hkind : first.kind ≠ .blockHeader
    · rw [if_pos hkind, if_pos hkind]
    · rw [if_neg hkind, if_neg hkind]
      cases first.header with
      | error error => rfl
      | ok header =>
        dsimp only
        cases factory.create service.sessions.length header <;> rfl

/-- What a batch begins with decides which block it belongs to. -/
theorem blocksWith_eq (blocks : List BlockInput) (items : Batch) : blocksWith blocks items =
    match beginning items with
    | .inside => blocks.modify (blocks.length - 1) (·.add items)
    | .opening header => blocks ++ [⟨header, [items]⟩]
    | .nothing | .unreadable _ => blocks := by
  cases items with
  | nil => rfl
  | cons first rest =>
    rw [blocksWith, beginning]
    by_cases hkind : first.kind ≠ .blockHeader
    · rw [if_pos hkind, if_pos hkind]
    · rw [if_neg hkind, if_neg hkind]
      cases first.header <;> rfl

/-- There is one block for every batch that opens one. -/
theorem length_foldl_blocksWith (received : List Batch) (blocks : List BlockInput) :
    (received.foldl blocksWith blocks).length = blocks.length + received.countP opensBlock := by
  induction received generalizing blocks with
  | nil => rfl
  | cons items received ih =>
    have hone : (blocksWith blocks items).length =
        blocks.length + if opensBlock items then 1 else 0 := by
      rw [blocksWith_eq, opensBlock]
      cases beginning items with
      | nothing => rfl
      | inside => exact List.length_modify _ _ _
      | unreadable error => rfl
      | opening header => exact List.length_append
    rw [List.foldl_cons, ih, hone, List.countP_cons]
    omega

end BlockIntake
