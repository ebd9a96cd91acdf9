import Sexp.Json

/-! # The text of JSON values

* `Json.text` writes a value on one line;
* `Json.ofText?` reads the value a text consists of, blanks around it and in it aside.

A number keeps the way it is written: `1` is an integer, and `1.0`, `1e2` and `-0` are not. Where an
object has several fields of one name, the last of them counts. -/

namespace Sexp

namespace Json

/-! ## Reading -/

/-- The characters that may stand between the parts of a value. -/
def isBlank (c : Char) : Bool :=
  [' ', '\t', '\n', '\r'].contains c

/-- A text without the blanks at its front. -/
def skipBlanks (cs : List Char) : List Char :=
  cs.dropWhile isBlank

/-- The value of a hexadecimal digit. -/
def hexDigit? (c : Char) : Option Nat :=
  if c.isDigit then some (c.toNat - '0'.toNat)
  else if 'a' ≤ c && c ≤ 'f' then some (c.toNat - 'a'.toNat + 10)
  else if 'A' ≤ c && c ≤ 'F' then some (c.toNat - 'A'.toNat + 10)
  else none

/-- The value of a row of hexadecimal digits. -/
def hexValue? (digits : List Char) : Option Nat :=
  digits.foldlM (fun n c => (hexDigit? c).map (16 * n + ·)) 0

/-- What a backslash before a character stands for. -/
def shortEscape? (c : Char) : Option Char :=
  [('"', '"'), ('\\', '\\'), ('/', '/'), ('b', '\x08'), ('f', '\x0c'), ('n', '\n'), ('r', '\r'),
    ('t', '\t')].lookup c

/-- Adds an escaped 16-bit unit to the characters `seen`, newest first. Two halves of a pair make
one character, so the first of them is held back; a half without the other is refused. -/
def addUnit? (seen : List Char) (half : Option Nat) (unit : Nat) :
    Option (List Char × Option Nat) :=
  let first := 0xd800 ≤ unit && unit < 0xdc00
  let second := 0xdc00 ≤ unit && unit < 0xe000
  match half with
  | none =>
    if first then some (seen, some unit)
    else if second then none
    else some (Char.ofNat unit :: seen, none)
  | some high =>
    if second then
      some (Char.ofNat (0x10000 + 0x400 * (high - 0xd800) + (unit - 0xdc00)) :: seen, none)
    else none

/-- A string whose opening quote has been read; its characters so far are kept newest first. -/
def readString? (seen : List Char) (half : Option Nat) : List Char → Option (String × List Char)
  | [] => none
  | '\\' :: 'u' :: a :: b :: c :: d :: cs =>
    match (hexValue? [a, b, c, d]).bind (addUnit? seen half) with
    | some (seen, half) => readString? seen half cs
    | none => none
  | '\\' :: c :: cs =>
    match half, shortEscape? c with
    | none, some c => readString? (c :: seen) none cs
    | _, _ => none
  | c :: cs =>
    if half.isSome then none
    else if c = '"' then some (String.ofList seen.reverse, cs)
    else if c.toNat < 0x20 then none
    else readString? (c :: seen) none cs

/-- Whether a text is empty or an exponent. -/
def isExponentPart : List Char → Bool
  | [] => true
  | c :: cs =>
    let digits := if ['+', '-'].any (cs.head? = some ·) then cs.tail else cs
    ['e', 'E'].contains c && !digits.isEmpty && digits.all Char.isDigit

/-- Whether a text is what may follow the whole part of a number. -/
def isDecimalPart : List Char → Bool
  | '.' :: cs => cs.head?.any Char.isDigit && isExponentPart (cs.dropWhile Char.isDigit)
  | cs => isExponentPart cs

/-- The value of a row of decimal digits. -/
def digitsValue (digits : List Char) : Nat :=
  digits.foldl (fun n c => 10 * n + (c.toNat - '0'.toNat)) 0

/-- The number that is written so. -/
def numberOf? (written : List Char) : Option Json :=
  let negative := written.head? = some '-'
  let digits := if negative then written.tail else written
  let whole := digits.takeWhile Char.isDigit
  let decimals := digits.dropWhile Char.isDigit
  if whole.isEmpty || (whole.head? = some '0' && 1 < whole.length) then none
  else if !decimals.isEmpty || (negative && digitsValue whole = 0) then
    if isDecimalPart decimals then some (.real (String.ofList written)) else none
  else if negative then some (.int (-(digitsValue whole : Int)))
  else some (.int (digitsValue whole))

/-- Whether a character may occur in a number. -/
def isNumberPart (c : Char) : Bool :=
  c.isDigit || ['+', '-', '.', 'e', 'E'].contains c

/-- A value without parts at the front of a text. -/
def readLeaf? : List Char → Option (Json × List Char)
  | 'n' :: 'u' :: 'l' :: 'l' :: cs => some (.null, cs)
  | 't' :: 'r' :: 'u' :: 'e' :: cs => some (.bool true, cs)
  | 'f' :: 'a' :: 'l' :: 's' :: 'e' :: cs => some (.bool false, cs)
  | '"' :: cs => (readString? [] none cs).map fun (s, cs) => (.str s, cs)
  | cs => (numberOf? (cs.takeWhile isNumberPart)).map (·, cs.dropWhile isNumberPart)

/-- The name of a field and the colon behind it. -/
def readName? (cs : List Char) : Option (String × List Char) :=
  match skipBlanks cs with
  | '"' :: cs =>
    match readString? [] none cs with
    | some (name, cs) =>
      match skipBlanks cs with
      | ':' :: cs => some (name, cs)
      | _ => none
    | none => none
  | _ => none

/-- Adds a field to those already read, newest first, in place of any of the same name. -/
def addField (name : String) (j : Json) (fields : List (String × Json)) : List (String × Json) :=
  (name, j) :: fields.filter (·.1 ≠ name)

mutual

/-- A value at the front of a text. The budget is the number of calls that may be nested. -/
def readValue? : Nat → List Char → Option (Json × List Char)
  | 0, _ => none
  | budget + 1, cs =>
    match skipBlanks cs with
    | '[' :: cs =>
      match skipBlanks cs with
      | ']' :: cs => some (.arr [], cs)
      | cs => readElements? budget [] cs
    | '{' :: cs =>
      match skipBlanks cs with
      | '}' :: cs => some (.obj [], cs)
      | cs => readFields? budget [] cs
    | cs => readLeaf? cs

/-- The rest of an array that has at least one more element; those already read are kept newest
first. -/
def readElements? : Nat → List Json → List Char → Option (Json × List Char)
  | 0, _, _ => none
  | budget + 1, done, cs =>
    match readValue? budget cs with
    | none => none
    | some (j, cs) =>
      match skipBlanks cs with
      | ',' :: cs => readElements? budget (j :: done) cs
      | ']' :: cs => some (.arr (j :: done).reverse, cs)
      | _ => none

/-- The rest of an object that has at least one more field; those already read are kept newest
first. -/
def readFields? : Nat → List (String × Json) → List Char → Option (Json × List Char)
  | 0, _, _ => none
  | budget + 1, done, cs =>
    match readName? cs with
    | none => none
    | some (name, cs) =>
      match readValue? budget cs with
      | none => none
      | some (j, cs) =>
        match skipBlanks cs with
        | ',' :: cs => readFields? budget (addField name j done) cs
        | '}' :: cs => some (.obj (addField name j done).reverse, cs)
        | _ => none

end

/-- The value a text consists of. Of two nested calls at least one takes a character, so the budget
is never used up. -/
def ofText? (text : String) : Option Json :=
  let cs := text.toList
  match readValue? (2 * cs.length + 2) cs with
  | some (j, rest) => if (skipBlanks rest).isEmpty then some j else none
  | none => none

/-! ## Writing -/

/-- A character as it stands in a string. -/
def stringChar (c : Char) : String :=
  if c = '"' then "\\\""
  else if c = '\\' then "\\\\"
  else if c.toNat < 0x20 then
    "\\u" ++ String.ofList ((Nat.toDigits 16 c.toNat).leftpad 4 '0')
  else c.toString

/-- A string in quotes. -/
def stringText (s : String) : String :=
  s.toList.foldl (fun text c => text ++ stringChar c) "\"" ++ "\""

/-- A value on one line. -/
def text : Json → String
  | .null => "null"
  | .bool true => "true"
  | .bool false => "false"
  | .int n => if n < 0 then "-" ++ toString n.natAbs else toString n.natAbs
  | .real written => written
  | .str s => stringText s
  | .arr elements => "[" ++ ",".intercalate (elements.map text) ++ "]"
  | .obj fields =>
    "\x7b" ++ ",".intercalate (fields.map fun f => stringText f.1 ++ ":" ++ text f.2) ++ "\x7d"
decreasing_by
  · decreasing_tactic
  · next h =>
    have := List.sizeOf_lt_of_mem h
    obtain ⟨name, j⟩ := f
    simp at this ⊢
    omega

end Json

end Sexp
