import BlockIntake.Proofs.Merkle.Padded
import BlockIntake.Proofs.Sha2
import BlockIntake.Proofs.Stream.Canonical
import BlockIntake.Proofs.Verification.Verdict

/-!
# The block hash binds the block

If no two of the strings hashed for two blocks have the same hash, and the trees of each side are of
the same height, the blocks have the same hash only if they have the same roots in front and the
same items, in order, on each side. The hash gives away the four roots it joins, a root gives away
its leaves, and a leaf gives away its item. An empty leaf is no item, so the trees have as many
leaves.
-/

namespace BlockIntake

open Merkle

/-- Different items have different written forms, however long they are. -/
theorem encode_item_injective {item other : Item} (h : Record.encode item = Record.encode other) :
    item = other := by
  have hkinds := Canonical.of_exact exact_itemKind encode_itemKind
  have hlayout : ∀ kind : ItemKind, kind.layout.length = 4 := fun kind =>
    Bytes.length_littleEndian 4 kind.position
  rw [encode_item, encode_item, Item.layout, Item.layout] at h
  obtain ⟨hkind, hcounted⟩ := List.append_inj h (by rw [hlayout, hlayout])
  rw [Bytes.counted, Bytes.counted] at hcounted
  obtain ⟨-, hpayload⟩ := List.append_inj hcounted (by simp)
  rw [← encode_itemKind, ← encode_itemKind] at hkind
  obtain ⟨kind, payload⟩ := item
  obtain ⟨kind', payload'⟩ := other
  obtain rfl : kind = kind' := hkinds.injective kind kind' trivial trivial hkind
  obtain rfl : payload = payload' := hpayload
  rfl

/-- No written item is empty. -/
theorem encode_item_ne_nil (item : Item) : Record.encode item ≠ [] := by
  intro h
  have hlength := congrArg List.length h
  rw [encode_item, Item.layout, ItemKind.layout] at hlength
  simp at hlength

/-- The same leaves, free positions counted as empty leaves, come from the same items. -/
theorem items_eq_of_leaves_eq {items others : Batch}
    (apart : NoCollision ([] :: (items.map Record.encode ++ others.map Record.encode)))
    (same : ∀ position, (items.map Item.leafHash).getD position (Digest.of []) =
      (others.map Item.leafHash).getD position (Digest.of [])) : items = others := by
  have hmem : ∀ item ∈ items, Record.encode item ∈
      [] :: (items.map Record.encode ++ others.map Record.encode) := fun item h =>
    List.mem_cons_of_mem _ (List.mem_append_left _ (List.mem_map_of_mem h))
  have hmem' : ∀ item ∈ others, Record.encode item ∈
      [] :: (items.map Record.encode ++ others.map Record.encode) := fun item h =>
    List.mem_cons_of_mem _ (List.mem_append_right _ (List.mem_map_of_mem h))
  refine List.ext_getElem? fun position => ?_
  have hhash := same position
  rw [List.getD_eq_getElem?_getD, List.getD_eq_getElem?_getD, List.getElem?_map,
    List.getElem?_map] at hhash
  cases hitem : items[position]? with
  | none =>
    cases hother : others[position]? with
    | none => rfl
    | some other =>
      rw [hitem, hother] at hhash
      have hempty := apart _ List.mem_cons_self _ (hmem' other (List.mem_of_getElem? hother)) hhash
      exact absurd hempty.symm (encode_item_ne_nil other)
  | some item =>
    have hin := hmem item (List.mem_of_getElem? hitem)
    cases hother : others[position]? with
    | none =>
      rw [hitem, hother] at hhash
      exact absurd (apart _ hin _ List.mem_cons_self hhash) (encode_item_ne_nil item)
    | some other =>
      rw [hitem, hother] at hhash
      rw [encode_item_injective (apart _ hin _ (hmem' other (List.mem_of_getElem? hother)) hhash)]

/-- Four joined roots can be taken apart if what is hashed to join them is told apart. -/
theorem composeBlockHash_inj {previousRoot stateRoot inputRoot outputRoot previousRoot' stateRoot'
    inputRoot' outputRoot' : Digest}
    (apart : NoCollision (composePreimages previousRoot stateRoot inputRoot outputRoot ++
      composePreimages previousRoot' stateRoot' inputRoot' outputRoot'))
    (same : composeBlockHash previousRoot stateRoot inputRoot outputRoot =
      composeBlockHash previousRoot' stateRoot' inputRoot' outputRoot') :
    previousRoot = previousRoot' ∧ stateRoot = stateRoot' ∧ inputRoot = inputRoot' ∧
      outputRoot = outputRoot' := by
  have hjoined := joinedBytes_inj (apart
    (joinedBytes (Digest.of (joinedBytes previousRoot inputRoot))
      (Digest.of (joinedBytes outputRoot stateRoot))) (by simp [composePreimages])
    (joinedBytes (Digest.of (joinedBytes previousRoot' inputRoot'))
      (Digest.of (joinedBytes outputRoot' stateRoot'))) (by simp [composePreimages]) same)
  obtain ⟨hprevious, hinput⟩ := joinedBytes_inj (apart (joinedBytes previousRoot inputRoot)
    (by simp [composePreimages]) (joinedBytes previousRoot' inputRoot')
    (by simp [composePreimages]) hjoined.1)
  obtain ⟨houtput, hstate⟩ := joinedBytes_inj (apart (joinedBytes outputRoot stateRoot)
    (by simp [composePreimages]) (joinedBytes outputRoot' stateRoot')
    (by simp [composePreimages]) hjoined.2)
  exact ⟨hprevious, hstate, hinput, houtput⟩

section Room

variable {xs ys : Batch} {side : Side} {previousRoot stateRoot : Digest}

/-- Each side has as many leaves as items. -/
theorem length_leavesOn (side : Side) (items : Batch) :
    (leavesOn side items).length = (itemsOn side items).length :=
  List.length_map _

/-- Items that fit have a hash, which joins the roots of their sides. -/
theorem blockHashOf_ok (fits : Fits xs) (previousRoot stateRoot : Digest) :
    blockHashOf xs previousRoot stateRoot = .ok (composeBlockHash previousRoot stateRoot
      (topHash (leavesOn .input xs)) (topHash (leavesOn .output xs))) :=
  blockHashOf_eq (treesOver_eq fits) (roots_over_eq fits) ⟨0, previousRoot, stateRoot, []⟩

/-- What is hashed for items that fit: the table, both sides, and what joins their roots. -/
theorem blockPreimages_eq (fits : Fits xs) (previousRoot stateRoot : Digest) :
    blockPreimages xs previousRoot stateRoot =
      emptyPreimages ++ sidePreimages .input xs ++ sidePreimages .output xs ++
        composePreimages previousRoot stateRoot (topHash (leavesOn .input xs))
          (topHash (leavesOn .output xs)) := by
  have hfew : ∀ side, (leavesOn side xs).length ≤ maxLeaves := by
    intro side
    rw [length_leavesOn]
    exact fits side
  rw [blockPreimages, rootOf_eq (hfew .input), rootOf_eq (hfew .output)]

/-- The strings that join the four roots are among what is hashed for items that fit. -/
theorem compose_subset_blockPreimages (fits : Fits xs) :
    composePreimages previousRoot stateRoot (topHash (leavesOn .input xs))
      (topHash (leavesOn .output xs)) ⊆ blockPreimages xs previousRoot stateRoot := by
  rw [blockPreimages_eq fits]
  exact List.subset_append_right _ _

/-- The table and the strings of a side are among what is hashed for a block. -/
theorem side_subset_blockPreimages (side : Side) :
    emptyPreimages ++ sidePreimages side xs ⊆ blockPreimages xs previousRoot stateRoot := by
  intro string hstring
  refine List.mem_append_left _ ?_
  rcases List.mem_append.mp hstring with htable | hside
  · exact List.mem_append_left _ (List.mem_append_left _ htable)
  · cases side with
    | input => exact List.mem_append_left _ (List.mem_append_right _ hside)
    | output => exact List.mem_append_right _ hside

/-- The same root over a side of two blocks comes from the same items, if the trees are of the same
height and what is hashed for the blocks is told apart. -/
theorem itemsOn_eq_of_topHash_eq (fits : Fits xs) (fits' : Fits ys)
    (heights : rootHeight (itemsOn side xs).length = rootHeight (itemsOn side ys).length)
    (apart : NoCollision (emptyPreimages ++ sidePreimages side xs ++
      (emptyPreimages ++ sidePreimages side ys)))
    (same : topHash (leavesOn side xs) = topHash (leavesOn side ys)) :
    itemsOn side xs = itemsOn side ys := by
  have hfew : (leavesOn side xs).length ≤ maxLeaves := length_leavesOn side xs ▸ fits side
  have hfew' : (leavesOn side ys).length ≤ maxLeaves := length_leavesOn side ys ▸ fits' side
  have hheights : ceilLog2 (leavesOn side xs).length = ceilLog2 (leavesOn side ys).length := by
    rw [← length_leavesOn, ← length_leavesOn, rootHeight_eq (by omega), rootHeight_eq (by omega)]
      at heights
    exact Except.ok.inj heights
  have htrees : NoCollision (emptyPreimages ++ climbPreimages 0 (leavesOn side xs) ++
      climbPreimages 0 (leavesOn side ys)) := by
    refine apart.mono ?_
    intro string hstring
    simp only [sidePreimages, List.mem_append] at hstring ⊢
    tauto
  have hitems : NoCollision ([] :: ((itemsOn side xs).map Record.encode ++
      (itemsOn side ys).map Record.encode)) := by
    refine apart.mono ?_
    intro string hstring
    simp only [sidePreimages, emptyPreimages, List.mem_append, List.mem_cons] at hstring ⊢
    tauto
  exact items_eq_of_leaves_eq hitems fun position =>
    leaf_eq_of_topHash_eq hfew hfew' hheights htrees same position

end Room

/-- Two blocks that fit have a hash each. If their trees are of the same height on each side, and no
two of the strings that are hashed for them have the same hash, the hashes are the same exactly if
the blocks have the same roots in front and the same items on each side, in the same order. What
stands between the items of a side, and the items that are not hashed, make no difference. -/
theorem block_hash_binds {xs ys : Batch}
    {previousRoot stateRoot previousRoot' stateRoot' : Digest} (fits : Fits xs) (fits' : Fits ys)
    (heights : ∀ side,
      rootHeight (itemsOn side xs).length = rootHeight (itemsOn side ys).length)
    (apart : NoCollision (blockPreimages xs previousRoot stateRoot ++
      blockPreimages ys previousRoot' stateRoot')) :
    ∃ hash hash', blockHashOf xs previousRoot stateRoot = .ok hash ∧
      blockHashOf ys previousRoot' stateRoot' = .ok hash' ∧
      (hash = hash' ↔ previousRoot = previousRoot' ∧ stateRoot = stateRoot' ∧
        ∀ side, itemsOn side xs = itemsOn side ys) := by
  refine ⟨_, _, blockHashOf_ok fits previousRoot stateRoot,
    blockHashOf_ok fits' previousRoot' stateRoot', ?_, ?_⟩
  · intro hsame
    have hcompose := apart.parts (compose_subset_blockPreimages fits)
      (compose_subset_blockPreimages fits')
    obtain ⟨rfl, rfl, hinput, houtput⟩ := composeBlockHash_inj hcompose hsame
    have hsides := fun side =>
      apart.parts (side_subset_blockPreimages side) (side_subset_blockPreimages side)
    refine ⟨rfl, rfl, fun side => ?_⟩
    cases side with
    | input => exact itemsOn_eq_of_topHash_eq fits fits' (heights .input) (hsides .input) hinput
    | output =>
      exact itemsOn_eq_of_topHash_eq fits fits' (heights .output) (hsides .output) houtput
  · rintro ⟨rfl, rfl, hitems⟩
    rw [leavesOn, leavesOn, leavesOn, leavesOn, hitems, hitems]

section Brief

variable {xs : Batch} {side : Side}

/-- The bytes of a hash can be computed over lists. -/
theorem bytes_of (message : Bytes) : (Digest.of message).bytes = Sha2.sha384List message :=
  Sha2.sha384_eq message

/-- Byte strings are told apart if their hashes, computed over lists, are all different. -/
theorem NoCollision.of_nodup {strings : List Bytes}
    (h : (strings.map Sha2.sha384List).Nodup) : NoCollision strings := by
  intro first hfirst second hsecond hsame
  refine List.inj_on_of_nodup_map h hfirst hsecond ?_
  rw [← bytes_of, ← bytes_of, hsame]

/-- The strings made by writing a hash twice and hashing the result, over and over. -/
def doublings : (count : Nat) → Bytes → List Bytes
  | 0, _ => []
  | count + 1, hash => (hash ++ hash) :: doublings count (Sha2.sha384List (hash ++ hash))

/-- The empty roots from a height on are hashed by writing the first of them twice, and so on. -/
theorem map_joined_emptyRoot (count height : Nat) :
    (List.range count).map (fun above =>
      joinedBytes (emptyRoot (height + above)) (emptyRoot (height + above))) =
      doublings count (emptyRoot height).bytes := by
  induction count generalizing height with
  | zero => rfl
  | succ count ih =>
    have hroot : (emptyRoot (height + 1)).bytes =
        Sha2.sha384List ((emptyRoot height).bytes ++ (emptyRoot height).bytes) := bytes_of _
    rw [List.range_succ_eq_map, List.map_cons, List.map_map, doublings, ← hroot, ← ih]
    refine congrArg _ (List.map_congr_left fun above _ => ?_)
    rw [Function.comp_apply, Nat.add_right_comm]
    rfl

/-- What is hashed for the table can be computed over lists. -/
theorem emptyPreimages_eq :
    emptyPreimages = [] :: doublings (maxDepth - 1) (Sha2.sha384List []) := by
  have htable := map_joined_emptyRoot (maxDepth - 1) 0
  simp only [Nat.zero_add] at htable
  rw [emptyPreimages, htable, ← bytes_of]
  rfl

/-- What joins the roots of a block over zero roots in front, where the input side is empty and the
root of the output side is the hash of a string. -/
def joinsOver (output : Bytes) : List Bytes :=
  let front := Digest.zero.bytes ++ Sha2.sha384List []
  let back := Sha2.sha384List output ++ Digest.zero.bytes
  [front, back, Sha2.sha384List front ++ Sha2.sha384List back]

/-- What joins such roots can be computed over lists. -/
theorem composePreimages_eq (output : Bytes) :
    composePreimages .zero .zero (Digest.of []) (Digest.of output) = joinsOver output := by
  simp only [composePreimages, joinedBytes, bytes_of, joinsOver]

/-- The written header of a brief block. -/
def briefHeader : Bytes := Record.encode (Item.ofHeader ⟨0, .zero, 0⟩)

/-- The strings that are hashed for no items and for a brief block. The two blocks share the string
that joins the roots in front. -/
def briefStrings : List Bytes :=
  [] :: doublings (maxDepth - 1) (Sha2.sha384List []) ++ [briefHeader] ++
    (joinsOver [] ++ (joinsOver briefHeader).tail)

set_option maxRecDepth 100000 in
/-- These strings are told apart. -/
theorem noCollision_briefStrings : NoCollision briefStrings :=
  -- All thirty hashes are computed here, which is why they are computed over lists.
  NoCollision.of_nodup (by decide +kernel)

/-- No items fit. -/
theorem fits_nil : Fits [] := fun _ => Nat.zero_le _

/-- A brief block fits. -/
theorem fits_briefBlock : Fits briefBlock := fun side =>
  (List.length_filter_le _ briefBlock).trans (by decide)

/-- An empty side has only the table to hash. -/
theorem sidePreimages_of_none (h : itemsOn side xs = []) : sidePreimages side xs = [] := by
  rw [sidePreimages, leavesOn, h, List.map_nil, List.map_nil, climbPreimages, List.append_nil]

/-- A single item on a side is written, and its leaf is the root. -/
theorem sidePreimages_of_one {item : Item} (h : itemsOn side xs = [item]) :
    sidePreimages side xs = [Record.encode item] := by
  rw [sidePreimages, leavesOn, h, List.map_singleton, List.map_singleton, climbPreimages,
    List.append_nil]

/-- What is hashed for no items is among these strings. -/
theorem nil_subset_briefStrings : blockPreimages [] .zero .zero ⊆ briefStrings := by
  have hroot : ∀ side, topHash (leavesOn side []) = Digest.of [] := fun _ => rfl
  rw [blockPreimages_eq fits_nil, hroot, hroot, composePreimages_eq, emptyPreimages_eq,
    sidePreimages_of_none rfl, sidePreimages_of_none rfl, List.append_nil, List.append_nil]
  exact List.append_subset.mpr
    ⟨List.subset_append_of_subset_left _ (List.subset_append_left _ _),
      List.subset_append_of_subset_right _ (List.subset_append_left _ _)⟩

/-- What is hashed for a brief block is among these strings. -/
theorem brief_subset_briefStrings : blockPreimages briefBlock .zero .zero ⊆ briefStrings := by
  have hinput : itemsOn .input briefBlock = [] := rfl
  have houtput : itemsOn .output briefBlock = [.ofHeader ⟨0, .zero, 0⟩] := rfl
  have hinputRoot : topHash (leavesOn .input briefBlock) = Digest.of [] := rfl
  have houtputRoot : topHash (leavesOn .output briefBlock) = Digest.of briefHeader := rfl
  rw [blockPreimages_eq fits_briefBlock, hinputRoot, houtputRoot, composePreimages_eq,
    emptyPreimages_eq, sidePreimages_of_none hinput, sidePreimages_of_one houtput, List.append_nil]
  refine List.append_subset.mpr ⟨List.subset_append_left _ _,
    List.subset_append_of_subset_right _ ?_⟩
  exact List.cons_subset.mpr
    ⟨List.mem_append_left _ List.mem_cons_self, List.subset_append_right _ _⟩

end Brief

/-- What is hashed for no items and for a brief block is told apart, and so the two have different
hashes over the same roots in front, although the tree over the header and the tree over no leaf are
of the same height. -/
theorem block_hash_binds_brief :
    NoCollision (blockPreimages [] .zero .zero ++ blockPreimages briefBlock .zero .zero) ∧
    (∀ side, rootHeight (itemsOn side []).length = rootHeight (itemsOn side briefBlock).length) ∧
    ∃ hash hash', blockHashOf [] .zero .zero = .ok hash ∧
      blockHashOf briefBlock .zero .zero = .ok hash' ∧ hash ≠ hash' := by
  have hapart := noCollision_briefStrings.mono
    (List.append_subset.mpr ⟨nil_subset_briefStrings, brief_subset_briefStrings⟩)
  have hheights : ∀ side,
      rootHeight (itemsOn side []).length = rootHeight (itemsOn side briefBlock).length := by
    intro side
    cases side with
    | input => rfl
    | output => rfl
  obtain ⟨hash, hash', hempty, hbrief, hbinds⟩ :=
    block_hash_binds fits_nil fits_briefBlock hheights hapart
  refine ⟨hapart, hheights, hash, hash', hempty, hbrief, fun hsame => ?_⟩
  obtain ⟨-, -, hitems⟩ := hbinds.mp hsame
  cases hitems .output

end BlockIntake
