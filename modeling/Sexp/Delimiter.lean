/-! # Delimiters

The two kinds of brackets that enclose a collection. -/

namespace Sexp

/-- Parentheses enclose lists, square brackets enclose vectors. -/
inductive Delimiter where
  | paren
  | bracket
deriving DecidableEq

namespace Delimiter

/-- The character that opens a collection. -/
def opening : Delimiter → Char
  | .paren => '('
  | .bracket => '['

/-- The character that closes a collection. -/
def closing : Delimiter → Char
  | .paren => ')'
  | .bracket => ']'

/-- The delimiter a character opens. -/
def ofOpening? (c : Char) : Option Delimiter :=
  if c = '(' then some .paren else if c = '[' then some .bracket else none

/-- The delimiter a character closes. -/
def ofClosing? (c : Char) : Option Delimiter :=
  if c = ')' then some .paren else if c = ']' then some .bracket else none

theorem ofOpening?_eq_some_iff {c : Char} {d : Delimiter} :
    ofOpening? c = some d ↔ c = d.opening := by
  cases d <;> grind [ofOpening?, opening]

theorem ofClosing?_eq_some_iff {c : Char} {d : Delimiter} :
    ofClosing? c = some d ↔ c = d.closing := by
  cases d <;> grind [ofClosing?, closing]

end Delimiter

end Sexp
