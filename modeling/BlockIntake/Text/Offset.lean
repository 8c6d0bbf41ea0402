import BlockIntake.Fault

/-!
# Byte offsets in a text

Offsets count the bytes of the UTF-8 form of a text. A text can be cut only where a character ends;
a cut inside a character is a crash.
-/

namespace BlockIntake.Text

/-- The characters of a text, each with the offset at which it starts. -/
def withOffsets : (offset : Nat) → List Char → List (Nat × Char)
  | _, [] => []
  | offset, c :: rest => (offset, c) :: withOffsets (offset + c.utf8Size) rest

/-- The offsets number the characters of the text and leave them as they are. -/
theorem map_snd_withOffsets (offset : Nat) (text : List Char) :
    (withOffsets offset text).map Prod.snd = text := by
  induction text generalizing offset with
  | nil => rfl
  | cons c rest ih => simp [withOffsets, ih]

/-- Split a text after `size` bytes. -/
def splitBytes? : (size : Nat) → List Char → Option (List Char × List Char)
  | 0, text => some ([], text)
  | _ + 1, [] => none
  | size + 1, c :: rest =>
    if c.utf8Size ≤ size + 1 then
      (splitBytes? (size + 1 - c.utf8Size) rest).map fun (before, after) => (c :: before, after)
    else none
termination_by _ text => text.length

/-- Nothing is lost or reordered by a split. -/
theorem append_of_splitBytes? {size : Nat} {text before after : List Char}
    (h : splitBytes? size text = some (before, after)) : before ++ after = text := by
  fun_induction splitBytes? size text generalizing before after with
  | case1 => simp_all
  | case2 => simp at h
  | case3 size c rest _ ih =>
    obtain ⟨⟨b, a⟩, hs, he⟩ := Option.map_eq_some_iff.1 h
    obtain ⟨rfl, rfl⟩ := Prod.mk.inj he
    simp [ih hs]
  | case4 => simp at h

/-- The part of a text from an offset on. -/
def cutFrom (start : Nat) (text : List Char) : Except Crash (List Char) :=
  match splitBytes? start text with
  | some (_, after) => .ok after
  | none => .error (.insideCharacter start)

/-- The part of a text between two offsets. -/
def cut (start stop : Nat) (text : List Char) : Except Crash (List Char) := do
  let after ← cutFrom start text
  match splitBytes? (stop - start) after with
  | some (part, _) => .ok part
  | none => .error (.insideCharacter stop)

/-- What is cut out of a text stands in it. -/
theorem isInfix_of_cut {start stop : Nat} {text part : List Char}
    (h : cut start stop text = .ok part) : part <:+: text := by
  unfold cut cutFrom at h
  split at h
  next before after hs =>
    simp only [bind, Except.bind] at h
    split at h
    next inner rest hi =>
      cases h
      refine ⟨before, rest, ?_⟩
      rw [List.append_assoc, append_of_splitBytes? hi, append_of_splitBytes? hs]
    next => contradiction
  next => contradiction

end BlockIntake.Text
