import Sexp.Atom
import Sexp.Delimiter

/-! # Terminals

The terminals of the language: what a lexeme of a source stands for, and what a form is made of
when it is written out. -/

namespace Sexp

/-- A delimiter or an atom. -/
inductive Terminal where
  | opening (d : Delimiter)
  | closing (d : Delimiter)
  | atom (a : Atom)
deriving DecidableEq

namespace Terminal

/-- The text of a terminal. -/
def text : Terminal → String
  | .opening d => d.opening.toString
  | .closing d => d.closing.toString
  | .atom a => a.text

end Terminal

end Sexp
