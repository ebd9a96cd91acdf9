import Sexp.Token

/-! # Balanced delimiters

`Balanced` holds of a row of brackets in which every opening one is closed by one of the same kind,
properly nested. It is stated on the row alone, without a stack.

Where single tokens matter, `Token.ClosedIn` says that an opening delimiter has its closing one
further on in the row, and `Token.LastUnclosed` finds the last opening delimiter that has none. -/

namespace Sexp

/-- An opening or a closing delimiter. -/
inductive Bracket where
  | opening (d : Delimiter)
  | closing (d : Delimiter)
deriving DecidableEq

/-- A row of brackets that is closed in itself. -/
inductive Balanced : List Bracket → Prop where
  | nil : Balanced []
  | enclose {d : Delimiter} {inner after : List Bracket} (hi : Balanced inner)
      (ha : Balanced after) : Balanced (.opening d :: inner ++ .closing d :: after)

/-- A row of brackets that can be made balanced by adding to its end. -/
def Completable (w : List Bracket) : Prop :=
  ∃ rest, Balanced (w ++ rest)

namespace Token

/-- The bracket a token is, if it is one. -/
def bracket? (t : Token) : Option Bracket :=
  match t.kind with
  | .terminal (.opening d) => some (.opening d)
  | .terminal (.closing d) => some (.closing d)
  | _ => none

/-- The brackets among a row of tokens. -/
def brackets (ts : List Token) : List Bracket :=
  ts.filterMap bracket?

/-- The tokens before the first end mark. -/
def beforeEnd (ts : List Token) : List Token :=
  ts.takeWhile (·.kind ≠ .eof)

/-- The tokens behind the first end mark. -/
def behindEnd (ts : List Token) : List Token :=
  (ts.dropWhile (·.kind ≠ .eof)).drop 1

/-- An opening delimiter `d` before the tokens `after` is closed by one of them. -/
def ClosedIn (d : Delimiter) (after : List Token) : Prop :=
  ∃ inner closer outer, after = inner ++ closer :: outer ∧ Balanced (brackets inner) ∧
    closer.kind = .terminal (.closing d)

/-- Every opening delimiter of a row of tokens is closed in it. -/
def AllClosed (ts : List Token) : Prop :=
  ∀ before opener after d, ts = before ++ opener :: after →
    opener.kind = .terminal (.opening d) → ClosedIn d after

/-- The last opening delimiter of a row of tokens that is not closed in it is `d`, at `p`. -/
def LastUnclosed (ts : List Token) (d : Delimiter) (p : Position) : Prop :=
  ∃ before opener after, ts = before ++ opener :: after ∧
    opener.kind = .terminal (.opening d) ∧ opener.position = p ∧
    ¬ ClosedIn d after ∧ AllClosed after

/-- The shortest beginning of a row of tokens whose brackets cannot be completed any more is
`before` with `closer` behind it. -/
structure FirstFault (ts before : List Token) (closer : Token) : Prop where
  begins : before ++ [closer] <+: ts
  completable : ∀ v, v <+: before → Completable (brackets v)
  not_completable : ¬ Completable (brackets (before ++ [closer]))

end Token

theorem Balanced.append {v w : List Bracket} (hv : Balanced v) (hw : Balanced w) :
    Balanced (v ++ w) := by
  induction hv with
  | nil => exact hw
  | enclose hi _ _ ih => simpa using hi.enclose ih

end Sexp
