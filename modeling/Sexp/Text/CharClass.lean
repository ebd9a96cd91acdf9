/-! # Character classes

The classes by which a text is cut into lexemes:

* `isSymbolStart` — letters and the marks that may begin a symbol;
* `isSymbolPart` — what may follow in a symbol or keyword, and what must not touch a number;
* `isSeparator` — what stands between lexemes and is dropped.

Letters and digits are those of ASCII; every other character of Unicode belongs to no class. -/

namespace Sexp

/-- Marks that may begin a symbol, beside the letters. -/
def symbolMarks : List Char :=
  ['/', '*', '!', '_', '?', '$', '%', '&', '=', '<', '>']

/-- Letters and marks: the characters that begin a symbol whatever follows them. -/
def isSymbolStart (c : Char) : Bool :=
  c.isAlpha || symbolMarks.contains c

/-- The characters permitted after the first one of a symbol or keyword. -/
def isSymbolPart (c : Char) : Bool :=
  isSymbolStart c || c.isDigit || ['+', '-', '.', ':', '#'].contains c

/-- Blank, tab, newline and comma stand between lexemes. -/
def isSeparator (c : Char) : Bool :=
  [' ', '\t', '\n', ','].contains c

/-- The four classes a character is asked about. -/
inductive CharClass where
  | digit
  | symbolStart
  | symbolPart
  | separator
deriving DecidableEq

namespace CharClass

/-- Whether a character belongs to the class. -/
def holds : CharClass → Char → Bool
  | .digit => Char.isDigit
  | .symbolStart => isSymbolStart
  | .symbolPart => isSymbolPart
  | .separator => isSeparator

/-- The classes of a character, in a fixed order. -/
def ofChar (c : Char) : List CharClass :=
  [.digit, .symbolStart, .symbolPart, .separator].filter (·.holds c)

end CharClass

/-! ## How the classes lie to each other -/

theorem isSymbolPart_of_isDigit {c : Char} (h : c.isDigit) : isSymbolPart c := by
  simp [isSymbolPart, h]

theorem isSymbolPart_of_isSymbolStart {c : Char} (h : isSymbolStart c) : isSymbolPart c := by
  simp [isSymbolPart, h]

end Sexp
