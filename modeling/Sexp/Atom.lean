import Sexp.Numeral

/-! # Atoms

The values without parts. Tokens and forms share them: an atom that was scanned is the atom that
stands in the form. Texts are kept as they were written, a keyword with its colon and a string
with its escapes but without the quotes. -/

namespace Sexp

/-- A value without parts. -/
inductive Atom where
  | numeral (n : Numeral)
  | boolean (value : Bool)
  | keyword (text : String)
  | string (body : String)
  | symbol (name : String)
deriving DecidableEq

namespace Atom

/-- The text of a truth value. -/
def booleanText : Bool → String
  | true => "true"
  | false => "false"

/-- The text of an atom, as it is read and printed. -/
def text : Atom → String
  | .numeral n => n.text
  | .boolean value => booleanText value
  | .keyword text => text
  | .string body => "\"" ++ body ++ "\""
  | .symbol name => name

end Atom

end Sexp
