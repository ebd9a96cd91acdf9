import Sexp.Form
import Sexp.Text.CharClass

/-! # Well-formed forms

A form may hold any texts at all. It is `WellFormed` if each of its atoms is spelled the way the
language spells such an atom:

* `Numeral.WellFormed` — every part that is made of digits has digits, and nothing else;
* `IsStringBody`, `IsKeyword`, `IsSymbol` — the spelling of the other atoms;
* `Form.WellFormed` — all atoms of a form, however deep.

`Form.Within` says that a form stands somewhere in another one. -/

namespace Sexp

/-- One or more digits. -/
def IsDigits (s : String) : Prop :=
  s ≠ "" ∧ ∀ c ∈ s.toList, c.isDigit

/-- The body of a string: a backslash stands right before every quote in it, and none at its
end. -/
def IsStringBody (s : String) : Prop :=
  (∀ before after, s.toList = before ++ '"' :: after → before.getLast? = some '\\') ∧
    s.toList.getLast? ≠ some '\\'

/-- A colon before one or more symbol characters. -/
def IsKeyword (s : String) : Prop :=
  ∃ name, s = ":" ++ name ∧ name ≠ "" ∧ ∀ c ∈ name.toList, isSymbolPart c

/-- What may begin a symbol: a symbol start, a point, or a sign that no digit follows. -/
def BeginsSymbol (c : Char) (rest : List Char) : Prop :=
  isSymbolStart c ∨ c = '.' ∨ ((c = '+' ∨ c = '-') ∧ ∀ d ∈ rest.head?, ¬ d.isDigit)

/-- A run of symbol characters that is no truth value and cannot begin a number. -/
def IsSymbol (s : String) : Prop :=
  s ≠ "true" ∧ s ≠ "false" ∧
    ∃ c rest, s.toList = c :: rest ∧ BeginsSymbol c rest ∧ ∀ d ∈ rest, isSymbolPart d

/-- All digits of an exponent are there. -/
def Exponent.WellFormed (e : Exponent) : Prop :=
  IsDigits e.digits

/-- All digits of a numeral are there. -/
def Numeral.WellFormed : Numeral → Prop
  | .integer _ digits => IsDigits digits
  | .decimal _ whole fraction exponent =>
    IsDigits whole ∧ IsDigits fraction ∧ ∀ e ∈ exponent, e.WellFormed

/-- An atom spelled the way the language spells it. -/
def Atom.WellFormed : Atom → Prop
  | .numeral n => n.WellFormed
  | .boolean _ => True
  | .keyword text => IsKeyword text
  | .string body => IsStringBody body
  | .symbol name => IsSymbol name

namespace Form

/-- A form all of whose atoms are well-formed. -/
inductive WellFormed : Form → Prop where
  | atom {a : Atom} (h : a.WellFormed) : WellFormed (.atom a)
  | collection {d : Delimiter} {elements : List Form} (h : ∀ e ∈ elements, WellFormed e) :
      WellFormed (.collection d elements)

/-- The form `f` is `g` or stands somewhere in it: `f.Within g`. -/
inductive Within (f : Form) : Form → Prop where
  | self : Within f f
  | element {d : Delimiter} {elements : List Form} {e : Form} (mem : e ∈ elements)
      (h : Within f e) : Within f (.collection d elements)

end Form

end Sexp
