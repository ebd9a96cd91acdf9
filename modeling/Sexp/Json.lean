/-! # JSON values

`Json` is a value of the interchange format. An integer is told apart from a number that is written
in any other way, even where both have the same value. -/

namespace Sexp

/-- A value of the interchange format. -/
inductive Json where
  | null
  | bool (b : Bool)
  /-- A number written as digits alone, after a minus if it is negative. -/
  | int (n : Int)
  /-- A number written in any other way: with a point, with an exponent or as minus zero. -/
  | real (written : String)
  | str (s : String)
  | arr (elements : List Json)
  | obj (fields : List (String × Json))

namespace Json

instance : Inhabited Json := ⟨.null⟩

/-- A natural number. -/
def nat (n : Nat) : Json :=
  .int n

/-- The value of a field; a field that is missing counts as null. -/
def field (name : String) (fields : List (String × Json)) : Json :=
  (fields.lookup name).getD .null

/-- A text. -/
def str? : Json → Option String
  | .str s => some s
  | _ => none

/-- A truth value. -/
def bool? : Json → Option Bool
  | .bool b => some b
  | _ => none

/-- A natural number that fits into 64 bits. -/
def word? : Json → Option Nat
  | .int (.ofNat n) => if n < UInt64.size then some n else none
  | _ => none

/-- The fields of an object. -/
def fields? : Json → Option (List (String × Json))
  | .obj fields => some fields
  | _ => none

/-- A value that may be null. -/
def orNull {α : Type} (toJson : α → Json) : Option α → Json
  | none => .null
  | some a => toJson a

/-- Reads a value that may be null. -/
def orNull? {α : Type} (ofJson? : Json → Option α) : Json → Option (Option α)
  | .null => some none
  | j => (ofJson? j).map some

end Json

end Sexp
