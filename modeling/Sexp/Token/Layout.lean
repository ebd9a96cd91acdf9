import Sexp.Form.WellFormed
import Sexp.Token

/-! # Layouts of a source

A layout cuts a source into `Piece`s, each a separator or the text of a terminal. `Layout` states
which cuts the language allows, without saying how one is found:

* the pieces make up the source;
* every atom is well-formed;
* no symbol character touches the end of an atom that is not a string.

`Layout.tokens` places the terminals of a layout in the source. -/

namespace Sexp

/-- A piece of a source. -/
inductive Piece where
  | separator (c : Char)
  | terminal (t : Terminal)

namespace Piece

/-- The characters of a piece. -/
def text : Piece → List Char
  | .separator c => [c]
  | .terminal t => t.text.toList

/-- A piece that may stand in a layout. -/
def Valid : Piece → Prop
  | .separator c => isSeparator c
  | .terminal (.atom a) => a.WellFormed
  | .terminal _ => True

/-- Whether a symbol character right behind the piece would belong to it. A string ends with its
quote, whatever follows. -/
def runsOn : Piece → Bool
  | .terminal (.atom (.string _)) => false
  | .terminal (.atom _) => true
  | _ => false

end Piece

/-- The text of a row of pieces. -/
def piecesText (pieces : List Piece) : List Char :=
  pieces.flatMap Piece.text

/-- No piece that runs on is followed by a character it would run on to. -/
def Parted : List Piece → Prop
  | [] => True
  | p :: pieces =>
    (p.runsOn → ∀ c ∈ (piecesText pieces).head?, ¬ isSymbolPart c) ∧ Parted pieces

/-- A way to cut a source into separators and terminals. -/
structure Layout (source : String) where
  pieces : List Piece
  text_eq : piecesText pieces = source.toList
  valid : ∀ p ∈ pieces, p.Valid
  parted : Parted pieces

/-- The tokens of a row of pieces that begins at a position, ended by the end mark. -/
def piecesTokens (p : Position) : List Piece → List Token
  | [] => [Token.atEnd p]
  | .separator c :: pieces => piecesTokens (p.next c) pieces
  | .terminal t :: pieces =>
    ⟨.terminal t, t.text, p⟩ :: piecesTokens (p.after t.text.toList) pieces

/-- The tokens of a layout. -/
def Layout.tokens {source : String} (l : Layout source) : List Token :=
  piecesTokens .start l.pieces

end Sexp
