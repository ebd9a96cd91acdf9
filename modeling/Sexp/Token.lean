import Sexp.Position
import Sexp.Terminal

/-! # Tokens

A token is a terminal or the mark of the end of the input, with the text it was cut from and the
position of its first character. -/

namespace Sexp

namespace Token

/-- What a token stands for. -/
inductive Kind where
  | terminal (t : Terminal)
  | eof
deriving DecidableEq

/-- The text of a token's kind; the end of the input, which has none, is put in words. -/
def Kind.text : Kind → String
  | .terminal t => t.text
  | .eof => "end of input"

end Token

/-- A piece of source text with its meaning and its place. -/
structure Token where
  kind : Token.Kind
  lexeme : String
  position : Position
deriving DecidableEq

namespace Token

/-- The mark of the end of the input, which has no characters of its own. -/
def atEnd (p : Position) : Token :=
  ⟨.eof, "", p⟩

end Token

end Sexp
