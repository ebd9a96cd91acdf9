import Sexp.Form
import Sexp.Json
import Sexp.Token

/-! # Forms and tokens as JSON

Each type is written by `toJson` and read by `ofJson?`.

* A choice without contents is a string; a choice with contents is an object with one field, named
  for the choice.
* A structure is an object with a field for each part. When it is read, fields of other names are
  passed over, and a sign or exponent that is missing counts as null.
* Contents are not checked: a symbol may hold any text, digits may be absent. -/

namespace Sexp

/-! ## Numerals -/

namespace Sign

/-- A sign by its name. -/
def toJson : Sign → Json
  | .plus => .str "Plus"
  | .minus => .str "Minus"

/-- Reads the name of a sign. -/
def ofJson? : Json → Option Sign
  | .str "Plus" => some .plus
  | .str "Minus" => some .minus
  | _ => none

end Sign

namespace ExponentMarker

/-- A marker by its name. -/
def toJson : ExponentMarker → Json
  | .lower => .str "Lower"
  | .upper => .str "Upper"

/-- Reads the name of a marker. -/
def ofJson? : Json → Option ExponentMarker
  | .str "Lower" => some .lower
  | .str "Upper" => some .upper
  | _ => none

end ExponentMarker

namespace Exponent

/-- The parts of an exponent. -/
def toJson (e : Exponent) : Json :=
  .obj [("label", e.marker.toJson), ("sign", Json.orNull Sign.toJson e.sign),
    ("digits", .str e.digits)]

/-- Reads the parts of an exponent. -/
def ofJson? (j : Json) : Option Exponent := do
  let fields ← j.fields?
  let marker ← ExponentMarker.ofJson? (Json.field "label" fields)
  let sign ← Json.orNull? Sign.ofJson? (Json.field "sign" fields)
  let digits ← (Json.field "digits" fields).str?
  return ⟨marker, sign, digits⟩

end Exponent

namespace Numeral

/-- A numeral as a named choice. -/
def tagged : Numeral → String × Json
  | .integer sign digits =>
    ("Integer", .obj [("sign", Json.orNull Sign.toJson sign), ("digits", .str digits)])
  | .decimal sign whole fraction exponent =>
    ("Float", .obj [("sign", Json.orNull Sign.toJson sign), ("integer_part", .str whole),
      ("decimal_part", .str fraction), ("exponent", Json.orNull Exponent.toJson exponent)])

/-- The parts of a numeral without the name of the choice. -/
def toJson (n : Numeral) : Json :=
  n.tagged.2

/-- Reads the parts of an integer. -/
def integerOfJson? (j : Json) : Option Numeral := do
  let fields ← j.fields?
  let sign ← Json.orNull? Sign.ofJson? (Json.field "sign" fields)
  let digits ← (Json.field "digits" fields).str?
  return .integer sign digits

/-- Reads the parts of a decimal numeral. -/
def decimalOfJson? (j : Json) : Option Numeral := do
  let fields ← j.fields?
  let sign ← Json.orNull? Sign.ofJson? (Json.field "sign" fields)
  let whole ← (Json.field "integer_part" fields).str?
  let fraction ← (Json.field "decimal_part" fields).str?
  let exponent ← Json.orNull? Exponent.ofJson? (Json.field "exponent" fields)
  return .decimal sign whole fraction exponent

end Numeral

/-! ## Atoms -/

namespace Atom

/-- An atom as a named choice. Forms and tokens differ only in the name they give to a string. -/
def tagged (stringTag : String) : Atom → String × Json
  | .numeral n => n.tagged
  | .boolean value => ("Boolean", .bool value)
  | .keyword text => ("Keyword", .str text)
  | .string body => (stringTag, .str body)
  | .symbol name => ("Symbol", .str name)

/-- Reads the choice named `tag`. -/
def ofTagged? (stringTag tag : String) (j : Json) : Option Atom :=
  if tag = "Integer" then (Numeral.integerOfJson? j).map .numeral
  else if tag = "Float" then (Numeral.decimalOfJson? j).map .numeral
  else if tag = "Boolean" then j.bool?.map .boolean
  else if tag = "Keyword" then j.str?.map .keyword
  else if tag = stringTag then j.str?.map .string
  else if tag = "Symbol" then j.str?.map .symbol
  else none

end Atom

/-! ## Forms -/

namespace Delimiter

/-- A delimiter by its name. -/
def toJson : Delimiter → Json
  | .paren => .str "Paren"
  | .bracket => .str "Bracket"

/-- Reads the name of a delimiter. -/
def ofJson? : Json → Option Delimiter
  | .str "Paren" => some .paren
  | .str "Bracket" => some .bracket
  | _ => none

/-- The name of the collections between these delimiters. -/
def collectionTag : Delimiter → String
  | .paren => "List"
  | .bracket => "Vector"

/-- The delimiters of the collections with this name. -/
def ofCollectionTag? (tag : String) : Option Delimiter :=
  if tag = "List" then some .paren else if tag = "Vector" then some .bracket else none

end Delimiter

namespace Form

/-- A form as a named choice. -/
def toJson : Form → Json
  | .atom a => .obj [a.tagged "StringLiteral"]
  | .collection d elements => .obj [(d.collectionTag, .arr (elements.map toJson))]

mutual

/-- Reads a form: an object with exactly one field, which names the choice. -/
def ofJson? : Json → Option Form
  | .obj [(tag, payload)] => ofTagged? tag payload
  | _ => none

/-- Reads the choice named `tag`. Only a collection has an array for its contents. -/
def ofTagged? (tag : String) : Json → Option Form
  | .arr elements =>
    match Delimiter.ofCollectionTag? tag with
    | some d => (listOfJson? elements).map (.collection d)
    | none => none
  | payload => (Atom.ofTagged? "StringLiteral" tag payload).map .atom

/-- Reads a row of forms, all or none. -/
def listOfJson? : List Json → Option (List Form)
  | [] => some []
  | j :: js => do
    let f ← ofJson? j
    let fs ← listOfJson? js
    return f :: fs

end

end Form

/-! ## Tokens -/

namespace Position

/-- The parts of a position. -/
def toJson (p : Position) : Json :=
  .obj [("offset", .nat p.offset), ("line", .nat p.line), ("column", .nat p.column)]

/-- Reads the parts of a position, each of which fits into 64 bits. -/
def ofJson? (j : Json) : Option Position := do
  let fields ← j.fields?
  let offset ← (Json.field "offset" fields).word?
  let line ← (Json.field "line" fields).word?
  let column ← (Json.field "column" fields).word?
  return ⟨offset, line, column⟩

end Position

namespace Token

namespace Kind

/-- A kind of token as a named choice. -/
def toJson : Kind → Json
  | .terminal (.opening .paren) => .str "LeftParen"
  | .terminal (.closing .paren) => .str "RightParen"
  | .terminal (.opening .bracket) => .str "LeftBracket"
  | .terminal (.closing .bracket) => .str "RightBracket"
  | .terminal (.atom a) => .obj [a.tagged "String"]
  | .eof => .str "Eof"

/-- Reads a kind of token. -/
def ofJson? : Json → Option Kind
  | .str "LeftParen" => some (.terminal (.opening .paren))
  | .str "RightParen" => some (.terminal (.closing .paren))
  | .str "LeftBracket" => some (.terminal (.opening .bracket))
  | .str "RightBracket" => some (.terminal (.closing .bracket))
  | .str "Eof" => some .eof
  | .obj [(tag, payload)] =>
    (Atom.ofTagged? "String" tag payload).map fun a => .terminal (.atom a)
  | _ => none

end Kind

/-- The parts of a token. -/
def toJson (t : Token) : Json :=
  .obj [("kind", t.kind.toJson), ("lexeme", .str t.lexeme), ("position", t.position.toJson)]

/-- Reads the parts of a token. -/
def ofJson? (j : Json) : Option Token := do
  let fields ← j.fields?
  let kind ← Kind.ofJson? (Json.field "kind" fields)
  let lexeme ← (Json.field "lexeme" fields).str?
  let position ← Position.ofJson? (Json.field "position" fields)
  return ⟨kind, lexeme, position⟩

end Token

end Sexp
