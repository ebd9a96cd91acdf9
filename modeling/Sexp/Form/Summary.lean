import Sexp.Form

/-! # Summaries of forms

`Form.visit` walks through forms of any depth, each form before its elements, and `Summary.ofForms`
counts on such a walk. The rows still to be walked are a list of their own, so the walk does not
recurse into a form. -/

namespace Sexp

namespace Form

/-- Visits the forms of all rows and everything in them, each form before its elements. The first
row stands at `level`, each further row one level further out. -/
def visit {α : Type} (f : α → Nat → Form → α) (acc : α) (level : Nat) : List (List Form) → α
  | [] => acc
  -- a row that is used up leads back to the row around it
  | [] :: rows => visit f acc (level - 1) rows
  | (.atom a :: row) :: rows => visit f (f acc level (.atom a)) level (row :: rows)
  | (.collection d es :: row) :: rows =>
    visit f (f acc level (.collection d es)) (level + 1) (es :: row :: rows)

end Form

/-- Counts over forms and everything in them. -/
structure Summary where
  /-- The forms outside every collection. -/
  top : Nat
  /-- How often each kind occurs; a kind that does not occur has no entry. -/
  counts : List (Form.Kind × Nat) := []
  /-- The deepest level; forms outside every collection stand at level 1. -/
  depth : Nat := 0
  /-- The most elements of one collection. -/
  widest : Nat := 0
  /-- The characters of the texts of all atoms. -/
  leafChars : Nat := 0
  /-- The last atom. -/
  lastLeaf : Option Atom := none

namespace Summary

/-- Counts one more form of a kind. -/
def tally (k : Form.Kind) : List (Form.Kind × Nat) → List (Form.Kind × Nat)
  | [] => [(k, 1)]
  | (k', n) :: counts => if k' = k then (k', n + 1) :: counts else (k', n) :: tally k counts

/-- Counts a form that stands at a level. -/
def count (s : Summary) (level : Nat) (f : Form) : Summary :=
  let s := { s with counts := tally f.kind s.counts, depth := max s.depth level }
  match f with
  | .atom a => { s with leafChars := s.leafChars + a.text.length, lastLeaf := some a }
  | .collection _ elements => { s with widest := max s.widest elements.length }

/-- The summary of a row of forms. -/
def ofForms (forms : List Form) : Summary :=
  Form.visit count { top := forms.length } 1 [forms]

/-- The first characters of the last atom's text, at most forty. -/
def lastLeafText (s : Summary) : Option String :=
  s.lastLeaf.map fun a => String.ofList (a.text.toList.take 40)

end Summary

end Sexp
