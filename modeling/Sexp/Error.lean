import Sexp.Delimiter
import Sexp.Numeral
import Sexp.Position

/-! # Reading errors

An `Error` is a cause with the position it is reported at, and `Error.message` puts it in words. -/

namespace Sexp

/-- Why a text or a row of tokens cannot be read. -/
inductive Cause where
  | unterminatedString
  | unclosedDelimiter (delimiter : Delimiter)
  | mismatchedDelimiter (expected found : Delimiter)
  | invalidCharacter (c : Char)
  | malformedNumber (reason : String)
  | emptyKeyword
deriving DecidableEq

/-- A cause and where it was found. -/
structure Error where
  cause : Cause
  position : Position
deriving DecidableEq

namespace Error

/-- A character between grave accents, as messages show a delimiter. -/
def ticked (c : Char) : String :=
  "`" ++ c.toString ++ "`"

/-- An error in words. A character is quoted, one that `hidden` tells by its code point. -/
def messageHiding (hidden : Char → Bool) (e : Error) : String :=
  let place := e.position.text
  match e.cause with
  | .unterminatedString => "Unterminated string starting at " ++ place
  | .unclosedDelimiter d => "Unclosed " ++ ticked d.opening ++ " opened at " ++ place
  | .mismatchedDelimiter expected found =>
    "Mismatched delimiter at " ++ place ++ ": expected " ++ ticked expected.closing
      ++ ", found " ++ ticked found.closing
  | .invalidCharacter c => "Invalid character " ++ quotedCharHiding hidden c ++ " at " ++ place
  | .malformedNumber reason => "Malformed number at " ++ place ++ ": " ++ reason
  | .emptyKeyword => "Empty keyword at " ++ place

/-- An error in words. -/
def message (e : Error) : String :=
  e.messageHiding lacksGlyph

end Error

end Sexp
