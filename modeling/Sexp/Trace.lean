import Sexp.Reader

/-! # The record of a reading

Reading a source leaves a record of `Event`s: one for each token at the moment it is gathered, one
when the scan is complete, and one for the outcome. `Trace.read` reads as `Form.read` does and
keeps that record. -/

namespace Sexp

/-- Something noted while a source is read. -/
inductive Event where
  /-- A token of this kind was gathered that begins at `offset`. -/
  | token (kind : Token.Kind) (offset : Nat)
  /-- The source was scanned to its end into this many tokens, the end mark included. -/
  | scanned (tokens : Nat)
  /-- The source was read into this many forms. -/
  | parsed (forms : Nat)
  /-- The source could not be read; the message of the error is noted. -/
  | failed (message : String)
deriving DecidableEq

namespace Trace

/-- Runs a scan and notes its events behind those of `record`, which is kept newest first. -/
def scan (record : List Event) (s : Scan) : Except Error (List Token) × List Event :=
  match _h : s.step with
  | .finished =>
    let tokens := (Token.atEnd s.position :: s.gathered).reverse
    (.ok tokens, .scanned tokens.length :: record)
  | .moved none next => scan record next
  | .moved (some token) next => scan (.token token.kind token.position.offset :: record) next
  | .failed e _ => (.error e, record)
termination_by s.rest.length
decreasing_by all_goals exact Scan.length_rest_lt_of_step_moved _h

/-- The event that closes a record. -/
def outcome : Except Error (List Form) → Event
  | .ok forms => .parsed forms.length
  | .error e => .failed e.message

/-- Reads a source and gives the events in the order they happened. -/
def read (source : String) : Except Error (List Form) × List Event :=
  let (tokens, record) := scan [] (Scan.ofSource source)
  let forms := tokens.bind fun ts => (Form.parse ts).1
  (forms, (outcome forms :: record).reverse)

end Trace

end Sexp
