import BlockIntake.Text.Unsigned

/-!
# Real numerals

A real numeral is an optional sign, digits with at most one point among or beside them, and an
optional exponent, or else the name of infinity or of the value that is no number. Only ASCII digits
count, and letters count in any case.
-/

namespace BlockIntake.Text

/-- A text without the sign it may begin with. -/
def dropSign : List Char → List Char
  | '+' :: rest => rest
  | '-' :: rest => rest
  | text => text

/-- The names of the values that are not finite. -/
def nonFiniteNames : List String := ["inf", "infinity", "nan"]

/-- Whether a text is one or more digits. -/
def isDigits (text : List Char) : Bool := !text.isEmpty && text.all Char.isDigit

/-- Whether a text is an exponent, or nothing. -/
def isExponent : List Char → Bool
  | [] => true
  | mark :: rest => mark.toLower == 'e' && isDigits (dropSign rest)

/-- Whether a text without a sign is digits with at most one point, and an optional exponent. -/
def isUnsignedReal (text : List Char) : Bool :=
  let whole := text.takeWhile Char.isDigit
  let rest := text.dropWhile Char.isDigit
  match rest with
  | '.' :: rest =>
    let places := rest.takeWhile Char.isDigit
    !(whole.isEmpty && places.isEmpty) && isExponent (rest.dropWhile Char.isDigit)
  | rest => !whole.isEmpty && isExponent rest

/-- Whether a text is a real numeral. -/
def isReal (text : List Char) : Bool :=
  let unsigned := dropSign text
  isUnsignedReal unsigned ||
    nonFiniteNames.contains (String.ofList (unsigned.map Char.toLower))

end BlockIntake.Text
