import Sexp.Error
import Sexp.Form
import Sexp.Token

/-! # Nesting tokens into forms

A `Nest` holds the forms completed so far and the collections still open around the next token.

* `Nest.add`, `Nest.enter`, `Nest.leave` — what an atom, an opening and a closing delimiter do;
* `Nest.finish` — what the end of the input does;
* `Nest.run` — the tokens one after the other, up to the end mark or the first error;
* `Form.parse` — a run that begins with nothing open.

The open collections are a stack in the nest itself, so the depth of a source is not bounded by
the depth of any recursion. -/

namespace Sexp

/-- A collection that waits for its closing delimiter. -/
structure OpenCollection where
  delimiter : Delimiter
  /-- Where it was opened. -/
  position : Position
  /-- Its elements so far, newest first. -/
  elements : List Form := []

/-- Forms in the course of being put together. -/
structure Nest where
  /-- The completed forms outside every collection, newest first. -/
  done : List Form := []
  /-- The open collections, innermost first. -/
  pending : List OpenCollection := []

namespace Nest

/-- Adds a completed form to the innermost open collection, or to the forms outside. -/
def add (f : Form) (n : Nest) : Nest :=
  match n.pending with
  | [] => { n with done := f :: n.done }
  | c :: outer => { n with pending := { c with elements := f :: c.elements } :: outer }

/-- Opens a collection. -/
def enter (d : Delimiter) (p : Position) (n : Nest) : Nest :=
  { n with pending := { delimiter := d, position := p } :: n.pending }

/-- Closes the innermost open collection, which has to be one of the same delimiter. -/
def leave (d : Delimiter) (p : Position) (n : Nest) : Except Error Nest :=
  match n.pending with
  | [] => .error ⟨.invalidCharacter d.closing, p⟩
  | c :: outer =>
    if c.delimiter = d then
      .ok (add (.collection d c.elements.reverse) { n with pending := outer })
    else .error ⟨.mismatchedDelimiter c.delimiter d, p⟩

/-- The forms in order, once nothing is open. -/
def finish (n : Nest) : Except Error (List Form) :=
  match n.pending with
  | [] => .ok n.done.reverse
  | c :: _ => .error ⟨.unclosedDelimiter c.delimiter, c.position⟩

/-- Takes tokens up to the end mark, the end of the row or the first error, and gives the outcome
with the tokens not taken. -/
def run (n : Nest) : List Token → Except Error (List Form) × List Token
  | [] => (n.finish, [])
  | t :: ts =>
    match t.kind with
    | .eof => (n.finish, ts)
    | .terminal (.atom a) => run (n.add (.atom a)) ts
    | .terminal (.opening d) => run (n.enter d t.position) ts
    | .terminal (.closing d) =>
      match n.leave d t.position with
      -- the offending token is taken, so that a further run goes on behind it
      | .error e => (.error e, ts)
      | .ok n => run n ts

end Nest

/-- The forms of the tokens up to the first end mark, with the tokens not taken. -/
def Form.parse (tokens : List Token) : Except Error (List Form) × List Token :=
  Nest.run {} tokens

end Sexp
