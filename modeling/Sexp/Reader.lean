import Sexp.Form.Nest
import Sexp.Token.Scan

/-! # Reading sources

`Form.read` takes a source text to its forms: the source is scanned to its end, then the tokens
are nested. A source that fails at both is reported for its lexeme. -/

namespace Sexp

namespace Form

/-- The forms of a source. -/
def read (source : String) : Except Error (List Form) := do
  let tokens ← Token.scan source
  (parse tokens).1

/-- The text of a row of forms on one line. -/
def textAll (forms : List Form) : String :=
  " ".intercalate (forms.map text)

/-- Whether the text of a row of forms reads as the same forms. -/
def readsBack (forms : List Form) : Bool :=
  match read (textAll forms) with
  | .ok forms' => forms' = forms
  | .error _ => false

end Form

end Sexp
