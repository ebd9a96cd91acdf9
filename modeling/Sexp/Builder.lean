import Sexp.Form

/-! # Building forms on a stack

A `Builder` is a stack of numerals, exponents and forms. Each `Instruction` takes what it needs
from the top and puts its result there; one that does not fit what is on top leaves the stack as
it is. The contents of texts and digits are not checked. -/

namespace Sexp

namespace Builder

/-- Something on the stack. -/
inductive Item where
  | numeral (n : Numeral)
  | exponent (e : Exponent)
  | form (f : Form)

/-- One step of building. -/
inductive Instruction where
  /-- Puts an item on top. -/
  | put (item : Item)
  /-- Puts a second copy of the top on it. -/
  | duplicate
  /-- Gives the numeral or exponent on top a sign. -/
  | sign (s : Sign)
  /-- Attaches the exponent on top to the decimal numeral below it. -/
  | attach
  /-- Turns the numeral on top into a form. -/
  | toForm
  /-- Encloses the topmost forms, the deepest of them first. -/
  | enclose (d : Delimiter) (count : Nat)

/-- The form of an item that is one. -/
def Item.form? : Item → Option Form
  | .form f => some f
  | _ => none

end Builder

/-- A stack of items, the top first. -/
abbrev Builder := List Builder.Item

namespace Builder

/-- Takes a number of forms from the top, the topmost first, and leaves the rest. -/
def takeForms : Nat → Builder → Option (List Form × Builder)
  | 0, stack => some ([], stack)
  | n + 1, item :: stack => do
    let f ← item.form?
    let (fs, rest) ← takeForms n stack
    return (f :: fs, rest)
  | _ + 1, [] => none

/-- Carries out an instruction: its result, which is the new top, and what lies below it. -/
def perform : Instruction → Builder → Option (Item × Builder)
  | .put item, stack => some (item, stack)
  | .duplicate, item :: stack => some (item, item :: stack)
  | .sign s, .numeral n :: stack => some (.numeral (n.withSign s), stack)
  | .sign s, .exponent e :: stack => some (.exponent (e.withSign s), stack)
  | .attach, .exponent e :: .numeral n :: stack =>
    (n.withExponent? e).map fun n => (.numeral n, stack)
  | .toForm, .numeral n :: stack => some (.form (.atom (.numeral n)), stack)
  | .enclose d count, stack =>
    (takeForms count stack).map fun (forms, rest) => (.form (.collection d forms.reverse), rest)
  | _, _ => none

end Builder

end Sexp
