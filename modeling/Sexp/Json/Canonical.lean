import Sexp.Json.Codec

/-! # Canonical JSON

Several JSON values may stand for one form or token, because unknown fields are passed over and a
nullable field may be left out. `canonical` takes such a value to the one that `toJson` writes,
without reading it: it drops the fields a structure does not know and adds the nullable ones that
are missing as null. -/

namespace Sexp

/-- A field a structure knows. -/
structure KnownField where
  name : String
  /-- Whether the field is null when it is missing. -/
  nullable : Bool := false
  /-- What becomes of its value. -/
  canonical : Json → Json := id

namespace Json

/-- An object reduced to the fields a structure knows, in the order in which it knows them. -/
def completed (known : List KnownField) : Json → Json
  | .obj fields =>
    .obj <| known.filterMap fun k =>
      match fields.lookup k.name with
      | some j => some (k.name, k.canonical j)
      | none => if k.nullable then some (k.name, .null) else none
  | j => j

end Json

/-- The canonical value for an exponent. -/
def Exponent.canonicalJson : Json → Json :=
  Json.completed [{ name := "label" }, { name := "sign", nullable := true }, { name := "digits" }]

/-- The canonical value for a position. -/
def Position.canonicalJson : Json → Json :=
  Json.completed [{ name := "offset" }, { name := "line" }, { name := "column" }]

/-- The contents of the choice named `tag`; only those of a numeral are a structure. -/
def Atom.canonicalJson (tag : String) (j : Json) : Json :=
  if tag = "Integer" then
    Json.completed [{ name := "sign", nullable := true }, { name := "digits" }] j
  else if tag = "Float" then
    Json.completed [{ name := "sign", nullable := true }, { name := "integer_part" },
      { name := "decimal_part" },
      { name := "exponent", nullable := true, canonical := Exponent.canonicalJson }] j
  else j

/-- The canonical value for a form; only the elements of a collection are forms again. -/
def Form.canonicalJson : Json → Json
  | .obj [(tag, .arr elements)] =>
    if (Delimiter.ofCollectionTag? tag).isSome then .obj [(tag, .arr (elements.map canonicalJson))]
    else .obj [(tag, .arr elements)]
  | .obj [(tag, payload)] => .obj [(tag, Atom.canonicalJson tag payload)]
  | j => j

/-- The canonical value for a kind of token. -/
def Token.Kind.canonicalJson : Json → Json
  | .obj [(tag, payload)] => .obj [(tag, Atom.canonicalJson tag payload)]
  | j => j

/-- The canonical value for a token. -/
def Token.canonicalJson : Json → Json :=
  Json.completed [{ name := "kind", canonical := Kind.canonicalJson }, { name := "lexeme" },
    { name := "position", canonical := Position.canonicalJson }]

end Sexp
