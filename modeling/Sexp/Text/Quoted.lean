import Sexp.Text.Glyphless

/-! # Quoted characters

How a single character is shown inside a message: between apostrophes, with an escape where it
would be unreadable or would end the quotation. Which characters are unreadable is a parameter of
`quotedCharHiding`, so that what does not hang on the table holds of every such choice. -/

namespace Sexp

/-- The code point of a character in lower-case hexadecimal, unpadded, as a braced escape. -/
def codePointEscape (c : Char) : String :=
  "\\u\x7b" ++ String.ofList (Nat.toDigits 16 c.toNat) ++ "\x7d"

/-- A character as it stands between apostrophes. Those that `hidden` tells are shown by their code
point. -/
def escapedChar (hidden : Char → Bool) (c : Char) : String :=
  if c = '\x00' then "\\0"
  else if c = '\t' then "\\t"
  else if c = '\r' then "\\r"
  else if c = '\n' then "\\n"
  else if c = '\'' then "\\'"
  else if c = '\\' then "\\\\"
  else if hidden c then codePointEscape c
  else c.toString

/-- A character in apostrophes, one that `hidden` tells by its code point. -/
def quotedCharHiding (hidden : Char → Bool) (c : Char) : String :=
  "'" ++ escapedChar hidden c ++ "'"

/-- A character in apostrophes, one without a glyph by its code point. -/
def quotedChar (c : Char) : String :=
  quotedCharHiding lacksGlyph c

end Sexp
