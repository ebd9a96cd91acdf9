import Sexp.Token.Scan

/-! # Scanning by index

A `Cursor` cuts a source into the same tokens as a `Scan`, but leaves the characters where they are
and moves an index over them. It sees one character ahead, and behind the last one it sees a mark,
which a source may hold as a character too.

An `Op` is an operation on a cursor. It ends with a value or an error, and in both cases the cursor
stays as the operation has left it. Some operations are partial:

* `charAt` — there must be a character at the index;
* `slice` — it must end behind its beginning and within the source;
* `difference` — nothing must be taken from a smaller number;
* `become` — the cursor must stay in bounds, which every change of it is put through;
* `loop` — a round that is not the last must take a character.

An operation outside its domain gives no result at all. -/

namespace Sexp

/-- A source in the course of being cut, with the place reached as an index. -/
structure Cursor where
  source : Array Char
  /-- The tokens gathered and not yet handed out, newest first. -/
  tokens : List Token := []
  /-- The index at which the current token begins. -/
  start : Nat := 0
  startPosition : Position := .start
  /-- The index of the next character. -/
  current : Nat := 0
  line : Nat := 1
  column : Nat := 1

namespace Cursor

/-- A cursor at the front of a source. -/
def ofSource (source : String) : Cursor :=
  { source := source.toList.toArray }

/-- The bounds of a cursor. -/
structure InBounds (c : Cursor) : Prop where
  start_le : c.start ≤ c.current
  current_le : c.current ≤ c.source.size
  line_le : c.line ≤ c.source.size + 1
  column_le : c.column ≤ c.source.size + 1

instance (c : Cursor) : Decidable c.InBounds :=
  decidable_of_iff
    (c.start ≤ c.current ∧ c.current ≤ c.source.size ∧ c.line ≤ c.source.size + 1 ∧
      c.column ≤ c.source.size + 1)
    ⟨fun ⟨h₁, h₂, h₃, h₄⟩ => ⟨h₁, h₂, h₃, h₄⟩, fun ⟨h₁, h₂, h₃, h₄⟩ => ⟨h₁, h₂, h₃, h₄⟩⟩

/-- The number of characters left. -/
def left (c : Cursor) : Nat :=
  c.source.size - c.current

/-- The position of the next character. -/
def position (c : Cursor) : Position :=
  ⟨c.current, c.line, c.column⟩

/-- A cursor whose token begins with the next character. -/
def begun (c : Cursor) : Cursor :=
  { c with start := c.current, startPosition := c.position }

/-- A cursor that has handed out its tokens. -/
def emptied (c : Cursor) : Cursor :=
  { c with tokens := [] }

/-- An operation on a cursor. -/
abbrev Op (α : Type) : Type :=
  ExceptT Error (StateT Cursor Option) α

/-- What an operation gives on a cursor: a value or an error with the cursor it leaves, or nothing
outside its domain. -/
def Op.on {α : Type} (x : Op α) (c : Cursor) : Option (Except Error α × Cursor) :=
  x.run.run c

/-! ## Partial operations -/

/-- What an operation gives outside its domain. -/
def undefined {α : Type} : Op α :=
  ExceptT.mk fun _ => none

def become (next : Cursor) : Op Unit :=
  if next.InBounds then set next else undefined

def charAt (i : Nat) : Op Char := do
  match (← get).source[i]? with
  | some c => return c
  | none => undefined

def slice (first last : Nat) : Op String := do
  let c ← get
  if first ≤ last ∧ last ≤ c.source.size then
    return String.ofList (c.source.extract first last).toList
  else
    undefined

def difference (m n : Nat) : Op Nat :=
  if n ≤ m then return m - n else undefined

def loopFrom {σ : Type} (round : σ → Op (ForInStep σ)) (a : σ) (c : Cursor) :
    Option (Except Error σ × Cursor) :=
  match (round a).on c with
  | none => none
  | some (.error e, next) => some (.error e, next)
  | some (.ok (.done b), next) => some (.ok b, next)
  | some (.ok (.yield b), next) => if next.left < c.left then loopFrom round b next else none
termination_by c.left

/-- Goes round until a round is the last one, each round with what the one before it gives. -/
def loop {σ : Type} (round : σ → Op (ForInStep σ)) (a : σ) : Op σ :=
  ExceptT.mk (loopFrom round a)

/-! ## Moving on -/

/-- What is seen behind the last character. -/
def endMark : Char :=
  '\x00'

def isAtEnd : Op Bool := do
  let c ← get
  return c.source.size ≤ c.current

/-- The next character, or the mark behind the last one. -/
def peek : Op Char := do
  if ← isAtEnd then return endMark else charAt (← get).current

/-- The cursor behind the next character, which is `char`. -/
def past (c : Cursor) (char : Char) : Cursor :=
  if char = '\n' then
    { c with current := c.current + 1, line := c.line + 1, column := 1 }
  else
    { c with current := c.current + 1, column := c.column + 1 }

/-- Takes the next character. -/
def advance : Op Char := do
  let c ← get
  let char ← charAt c.current
  become (c.past char)
  return char

def skipRound (p : Char → Bool) (_ : Unit) : Op (ForInStep Unit) := do
  if p (← peek) then
    let _ ← advance
    return .yield ()
  else
    return .done ()

/-- Takes characters as long as they belong to a class. -/
def skipWhile (p : Char → Bool) : Op Unit :=
  loop (skipRound p) ()

/-- The characters of the current token so far. -/
def lexeme : Op String := do
  let c ← get
  slice c.start c.current

/-- Gathers the current token. -/
def addToken (t : Terminal) : Op Unit := do
  let text ← lexeme
  let c ← get
  become { c with tokens := ⟨.terminal t, text, c.startPosition⟩ :: c.tokens }

/-! ## Strings, keywords and symbols -/

/-- Takes one character of a string, or an escaped quote, behind those in `body`. -/
def stringRound (body : String) : Op (ForInStep String) := do
  if ← isAtEnd then
    throw ⟨.unterminatedString, (← get).startPosition⟩
  else
    let c ← advance
    if c = '"' then
      return .done body
    else if c = '\\' then
      if (← peek) = '"' then
        let quote ← advance
        return .yield ((body.push c).push quote)
      else
        return .yield (body.push c)
    else
      return .yield (body.push c)

/-- A string whose opening quote has been taken. -/
def string : Op Atom := do
  return .string (← loop stringRound "")

/-- A keyword whose colon has been taken. -/
def keyword : Op Atom := do
  skipWhile isSymbolPart
  let c ← get
  if (← difference c.current c.start) = 1 then
    throw ⟨.emptyKeyword, c.startPosition⟩
  else
    return .keyword (← lexeme)

/-- A symbol or a truth value whose first character has been taken. -/
def symbol : Op Atom := do
  skipWhile isSymbolPart
  return Lexeme.symbolAtom (← lexeme)

/-! ## Numbers -/

/-- A malformed number is reported at the next character. -/
def malformed {α : Type} (fault : Numeral.Fault) : Op α := do
  throw ⟨.malformedNumber fault.reason, (← get).position⟩

def numeralEnd : Op Unit := do
  let c ← peek
  if !(← isAtEnd) && isSymbolPart c then malformed (.trailing c) else return

/-- The digits from the index `first` on. -/
def digits (first : Nat) : Op String := do
  skipWhile Char.isDigit
  slice first (← get).current

/-- A sign, if one is next. -/
def sign : Op (Option Sign) := do
  match Sign.ofChar? (← peek) with
  | none => return none
  | some s =>
    let _ ← advance
    return some s

/-- An exponent, if its marker is next; then digits must follow. -/
def exponent : Op (Option Exponent) := do
  match ExponentMarker.ofChar? (← peek) with
  | none => return none
  | some marker =>
    let _ ← advance
    let sign ← sign
    if (← peek).isDigit then
      return some ⟨marker, sign, ← digits (← get).current⟩
    else
      malformed .missingExponent

/-- What follows the point of a decimal numeral. -/
def fraction (sign : Option Sign) (whole : String) : Op Numeral := do
  if (← peek).isDigit then
    let part ← digits (← get).current
    let exponent ← exponent
    numeralEnd
    return .decimal sign whole part exponent
  else
    malformed .missingFraction

/-- The index of the first digit of a number whose sign has been taken, or that very digit if it has
no sign. -/
def firstDigit (sign : Option Sign) : Op Nat := do
  let c ← get
  if sign.isSome then return c.current else difference c.current 1

/-- A number of which as much has been taken. -/
def numeral (sign : Option Sign) : Op Numeral := do
  let whole ← digits (← firstDigit sign)
  if (← peek) = '.' then
    let _ ← advance
    fraction sign whole
  else
    numeralEnd
    return .integer sign whole

/-! ## Whole sources -/

/-- Takes one separator or one lexeme. -/
def scanToken : Op Unit := do
  let c ← advance
  if isSeparator c then
    pure ()
  else if let some d := Delimiter.ofOpening? c then
    addToken (.opening d)
  else if let some d := Delimiter.ofClosing? c then
    addToken (.closing d)
  else if c = '"' then
    addToken (.atom (← string))
  else if c = ':' then
    addToken (.atom (← keyword))
  else if let some sign := Sign.ofChar? c then
    if (← peek).isDigit then
      addToken (.atom (.numeral (← numeral (some sign))))
    else
      addToken (.atom (← symbol))
  else if c = '.' then
    addToken (.atom (← symbol))
  else if c.isDigit then
    addToken (.atom (.numeral (← numeral none)))
  else if isSymbolStart c then
    addToken (.atom (← symbol))
  else
    throw ⟨.invalidCharacter c, (← get).startPosition⟩

def tokenRound (_ : Unit) : Op (ForInStep Unit) := do
  if ← isAtEnd then
    return .done ()
  else
    become (← get).begun
    scanToken
    return .yield ()

/-- Hands out the tokens gathered, the end mark last. -/
def handOut : Op (List Token) := do
  let c ← get
  become c.emptied
  return (Token.atEnd c.position :: c.tokens).reverse

/-- Gathers tokens to the end of the source and hands them out. -/
def scanTokens : Op (List Token) := do
  loop tokenRound ()
  handOut

end Cursor

end Sexp
