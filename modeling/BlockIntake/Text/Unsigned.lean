/-!
# Unsigned decimal numerals

A numeral is an optional plus sign and one or more ASCII digits. It is read from left to right, and
the first digit with which the value leaves the range ends the reading, so a numeral can be too
large before a later character is found to be no digit.
-/

namespace BlockIntake.Text

/-- Why a text is no unsigned numeral. -/
inductive NumeralError where
  /-- There is no text. -/
  | empty
  /-- A character is no digit. -/
  | notADigit
  /-- The value leaves the range. -/
  | tooLarge
deriving DecidableEq

/-- The wording of an error. -/
def NumeralError.message : NumeralError → String
  | .empty => "cannot parse integer from empty string"
  | .notADigit => "invalid digit found in string"
  | .tooLarge => "number too large to fit in target type"

/-- The value of an ASCII digit. -/
def digitValue? (c : Char) : Option Nat := if c.isDigit then some (c.toNat - 48) else none

/-- Read digits after a value, which has to stay below `limit`. -/
def readDigits (limit : Nat) : (value : Nat) → List Char → Except NumeralError Nat
  | value, [] => .ok value
  | value, c :: rest =>
    match digitValue? c with
    | none => .error .notADigit
    | some digit =>
      if limit ≤ 10 * value + digit then .error .tooLarge
      else readDigits limit (10 * value + digit) rest

/-- Read a numeral whose value has to stay below `limit`. -/
def readUnsignedBelow (limit : Nat) : List Char → Except NumeralError Nat
  | [] => .error .empty
  | ['+'] => .error .notADigit
  | '+' :: digits => readDigits limit 0 digits
  | digits => readDigits limit 0 digits

/-- Read a numeral of 64 bits. -/
def readUnsigned (text : String) : Except NumeralError Nat :=
  readUnsignedBelow UInt64.size text.toList

end BlockIntake.Text
