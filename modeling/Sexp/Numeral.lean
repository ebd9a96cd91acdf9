import Sexp.Text.Quoted

/-! # Numerals

A `Numeral` keeps a number as it is written: its sign, its digits with leading and trailing zeros,
and the letter that marks an exponent. No digit is normalised and no value is computed, so
`Numeral.text` gives back the very characters that were read. -/

namespace Sexp

/-- The sign written before a number or an exponent. -/
inductive Sign where
  | plus
  | minus
deriving DecidableEq

namespace Sign

/-- The character of a sign. -/
def char : Sign → Char
  | .plus => '+'
  | .minus => '-'

/-- The sign a character stands for. -/
def ofChar? (c : Char) : Option Sign :=
  if c = '+' then some .plus else if c = '-' then some .minus else none

theorem ofChar?_eq_some_iff {c : Char} {s : Sign} : ofChar? c = some s ↔ c = s.char := by
  cases s <;> grind [ofChar?, char]

/-- The text of a sign. -/
def text (s : Sign) : String :=
  s.char.toString

end Sign

/-- A sign that may be absent is written as nothing when it is. -/
def signText : Option Sign → String
  | none => ""
  | some s => s.text

/-- The letter that introduces an exponent. -/
inductive ExponentMarker where
  | lower
  | upper
deriving DecidableEq

namespace ExponentMarker

/-- The letter of a marker. -/
def char : ExponentMarker → Char
  | .lower => 'e'
  | .upper => 'E'

/-- The marker a letter stands for. -/
def ofChar? (c : Char) : Option ExponentMarker :=
  if c = 'e' then some .lower else if c = 'E' then some .upper else none

theorem ofChar?_eq_some_iff {c : Char} {m : ExponentMarker} :
    ofChar? c = some m ↔ c = m.char := by
  cases m <;> grind [ofChar?, char]

/-- The text of a marker. -/
def text (m : ExponentMarker) : String :=
  m.char.toString

end ExponentMarker

/-- The exponent of a decimal numeral, as written. -/
structure Exponent where
  marker : ExponentMarker
  sign : Option Sign := none
  digits : String
deriving DecidableEq

namespace Exponent

/-- The text of an exponent. -/
def text (e : Exponent) : String :=
  e.marker.text ++ signText e.sign ++ e.digits

/-- The same exponent with the given sign. -/
def withSign (s : Sign) (e : Exponent) : Exponent :=
  { e with sign := some s }

end Exponent

/-- A number as written: digits alone, or digits on both sides of a point. -/
inductive Numeral where
  | integer (sign : Option Sign) (digits : String)
  | decimal (sign : Option Sign) (whole fraction : String) (exponent : Option Exponent)
deriving DecidableEq

namespace Numeral

/-- The text of a numeral. -/
def text : Numeral → String
  | .integer sign digits => signText sign ++ digits
  | .decimal sign whole fraction exponent =>
    signText sign ++ whole ++ "." ++ fraction ++ (exponent.map Exponent.text).getD ""

/-- The same numeral with the given sign. -/
def withSign (s : Sign) : Numeral → Numeral
  | .integer _ digits => .integer (some s) digits
  | .decimal _ whole fraction exponent => .decimal (some s) whole fraction exponent

/-- A decimal numeral with the given exponent in place of its own; an integer takes none. -/
def withExponent? (e : Exponent) : Numeral → Option Numeral
  | .integer _ _ => none
  | .decimal sign whole fraction _ => some (.decimal sign whole fraction (some e))

/-- What can be wrong with a numeral once its first digit has been read. -/
inductive Fault where
  /-- No digit follows the point. -/
  | missingFraction
  /-- No digit follows the exponent's marker and sign. -/
  | missingExponent
  /-- A character that could be part of a symbol touches the number. -/
  | trailing (c : Char)
deriving DecidableEq

/-- A fault in words. -/
def Fault.reason : Fault → String
  | .missingFraction => "expected a digit after the decimal point"
  | .missingExponent => "expected exponent digits"
  | .trailing c => "unexpected " ++ quotedChar c ++ " after number"

end Numeral

end Sexp
