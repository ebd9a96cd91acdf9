import Sexp.Form.Nest
import Sexp.Token.Scan

/-! # A workbench of scan, tokens and parse

A `Workbench` has room for one scan, a row of tokens and one parse, and carries out `Command`s on
them one at a time. Scan and parse keep their place between commands, also after an error, so
that either can be taken up again where it stopped. -/

namespace Sexp

/-- A scan, a row of tokens and a parse in progress. -/
structure Workbench where
  scan : Option Scan := none
  tokens : List Token := []
  /-- The tokens the parse has not taken yet. -/
  parse : Option (List Token) := none

namespace Workbench

/-- What can be done at a workbench. -/
inductive Command where
  /-- Begins a scan of a source. -/
  | beginScan (source : String)
  /-- Runs the scan and appends its tokens to the row. -/
  | runScan
  /-- Appends a token to the row. -/
  | append (token : Token)
  /-- Takes the token at an index out of the row. -/
  | remove (index : Nat)
  /-- Turns the row round. -/
  | reverse
  /-- Empties the row. -/
  | clear
  /-- Begins a parse of the tokens in the row. -/
  | beginParse
  /-- Runs the parse up to the next end mark. -/
  | runParse

/-- What a command answers. -/
inductive Answer where
  | begun
  /-- The number of tokens in the row. -/
  | size (n : Nat)
  | tokens (ts : List Token)
  | removed (t : Token)
  | forms (fs : List Form)
  | failed (e : Error)
  /-- There is nothing the command could act on. -/
  | refused

/-- Carries out a command. -/
def perform (w : Workbench) : Command → Answer × Workbench
  | .beginScan source => (.begun, { w with scan := some (.ofSource source) })
  | .runScan =>
    match w.scan with
    | none => (.refused, w)
    | some scan =>
      match scan.run with
      | (.ok ts, scan) => (.tokens ts, { w with scan := some scan, tokens := w.tokens ++ ts })
      | (.error e, scan) => (.failed e, { w with scan := some scan })
  | .append token =>
    let tokens := w.tokens ++ [token]
    (.size tokens.length, { w with tokens })
  | .remove index =>
    match w.tokens[index]? with
    | none => (.refused, w)
    | some t => (.removed t, { w with tokens := w.tokens.eraseIdx index })
  | .reverse => (.size w.tokens.length, { w with tokens := w.tokens.reverse })
  | .clear => (.size 0, { w with tokens := [] })
  | .beginParse => (.size w.tokens.length, { w with parse := some w.tokens })
  | .runParse =>
    match w.parse with
    | none => (.refused, w)
    | some tokens =>
      match Form.parse tokens with
      | (.ok forms, rest) => (.forms forms, { w with parse := some rest })
      | (.error e, rest) => (.failed e, { w with parse := some rest })

end Workbench

end Sexp
