import Sexp.Token
import Sexp.Token.Lexeme

/-! # Scanning a source into tokens

A `Scan` is a source in the course of being cut: what is left of it, the position reached and the
tokens gathered so far.

* `Scan.step` — reads one separator or one lexeme;
* `Scan.run` — steps to the end of the source, or to the first lexeme that cannot be read;
* `Token.scan` — a run from the start of a source.

A failed run leaves the scan behind the characters it has read, with its tokens still gathered, so
that a further run goes on from there and hands them out. -/

namespace Sexp

/-- A source in the course of being cut into tokens. -/
structure Scan where
  /-- The characters not yet read. -/
  rest : List Char
  /-- The position of the first of them. -/
  position : Position := .start
  /-- The tokens gathered and not yet handed out, newest first. -/
  gathered : List Token := []

namespace Scan

/-- A scan of a whole source. -/
def ofSource (source : String) : Scan :=
  { rest := source.toList }

/-- What one step of a scan leads to. -/
inductive Step where
  /-- No character is left. -/
  | finished
  /-- A separator was passed over, or a token was gathered. -/
  | moved (token : Option Token) (next : Scan)
  /-- A lexeme could not be read. -/
  | failed (e : Error) (next : Scan)

/-- A malformed number is reported where its reading stopped, any other fault where the lexeme
began. -/
def faultPosition (start stop : Position) : Cause → Position
  | .malformedNumber _ => stop
  | _ => start

/-- Reads one separator or one lexeme. -/
def step (s : Scan) : Step :=
  match s.rest with
  | [] => .finished
  | c :: cs =>
    let r := Lexeme.next c cs
    let stop := s.position.after r.text
    match r.value with
    | .error cause =>
      .failed ⟨cause, faultPosition s.position stop cause⟩ ⟨r.rest, stop, s.gathered⟩
    | .ok none => .moved none ⟨r.rest, stop, s.gathered⟩
    | .ok (some t) =>
      let token := ⟨.terminal t, String.ofList r.text, s.position⟩
      .moved (some token) ⟨r.rest, stop, token :: s.gathered⟩

theorem length_rest_lt_of_step_moved {s next : Scan} {token : Option Token}
    (h : s.step = .moved token next) : next.rest.length < s.rest.length := by
  unfold step at h
  split at h
  · cases h
  · next c cs hs =>
    have hlt := Lexeme.length_rest_next_lt c cs
    dsimp only at h
    split at h <;> cases h <;> rwa [hs]

/-- Gathers tokens to the end of the source and hands them out, the end mark last. -/
def run (s : Scan) : Except Error (List Token) × Scan :=
  match _h : s.step with
  | .finished => (.ok (Token.atEnd s.position :: s.gathered).reverse, { s with gathered := [] })
  | .moved _ next => run next
  | .failed e next => (.error e, next)
termination_by s.rest.length
decreasing_by exact length_rest_lt_of_step_moved _h

end Scan

/-- The tokens of a source, ended by the end mark, or the first lexeme that cannot be read. -/
def Token.scan (source : String) : Except Error (List Token) :=
  (Scan.ofSource source).run.1

end Sexp
