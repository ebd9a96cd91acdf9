import Sexp.Form
import Sexp.Token.Scan

/-! # Reading in one pass

`Form.descend` reads the forms of a source straight from its characters: an opening delimiter is
followed by a reading of its elements, which its closing delimiter ends. It stops at the first
error it meets, whether that is a lexeme or a delimiter. Its recursion is as deep as the source,
so it is the plain account of reading rather than the one to run on deep sources. -/

namespace Sexp

/-- Forms read from the front of a text, and where reading stopped. -/
structure Descent where
  forms : List Form
  position : Position
  rest : List Char

namespace Descent

/-- The same with one more form in front. -/
def cons (f : Form) (d : Descent) : Descent :=
  { d with forms := f :: d.forms }

/-- Reads forms up to the delimiter that closes the collection `within`, given by its delimiter and
the position where it was opened, or up to the end of the text if there is none. -/
def read (within : Option (Delimiter × Position)) (p : Position) (cs : List Char) :
    Except Error { d : Descent // d.rest.length ≤ cs.length } :=
  match cs with
  | [] =>
    match within with
    | none => .ok ⟨⟨[], p, []⟩, Nat.le_refl _⟩
    | some (d, openedAt) => .error ⟨.unclosedDelimiter d, openedAt⟩
  | c :: cs =>
    let r := Lexeme.next c cs
    let stop := p.after r.text
    have hr : r.rest.length < (c :: cs).length := Lexeme.length_rest_next_lt c cs
    match r.value with
    | .error cause => .error ⟨cause, Scan.faultPosition p stop cause⟩
    | .ok none =>
      match read within stop r.rest with
      | .error e => .error e
      | .ok ⟨after, ha⟩ => .ok ⟨after, by omega⟩
    | .ok (some (.atom a)) =>
      match read within stop r.rest with
      | .error e => .error e
      | .ok ⟨after, ha⟩ => .ok ⟨after.cons (.atom a), by simp only [cons]; omega⟩
    | .ok (some (.opening d)) =>
      match read (some (d, p)) stop r.rest with
      | .error e => .error e
      | .ok ⟨inner, hi⟩ =>
        match read within inner.position inner.rest with
        | .error e => .error e
        | .ok ⟨after, ha⟩ =>
          .ok ⟨after.cons (.collection d inner.forms), by simp only [cons]; omega⟩
    | .ok (some (.closing d)) =>
      match within with
      | none => .error ⟨.invalidCharacter d.closing, p⟩
      | some (expected, _) =>
        if expected = d then .ok ⟨⟨[], stop, r.rest⟩, Nat.le_of_lt hr⟩
        else .error ⟨.mismatchedDelimiter expected d, p⟩
termination_by cs.length
decreasing_by all_goals simp only [List.length_cons] at *; omega

end Descent

/-- The forms of a source, read in one pass. -/
def Form.descend (source : String) : Except Error (List Form) :=
  (Descent.read none .start source.toList).map (·.1.forms)

end Sexp
