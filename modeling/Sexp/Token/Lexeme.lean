import Sexp.Error
import Sexp.Terminal
import Sexp.Text.CharClass

/-! # Lexemes

One lexeme is read from the front of a text, with the longest run its kind allows:

* `numeral` — an optional sign, digits, and for a decimal a point, digits and an exponent;
* `string` — up to the first quote that no backslash precedes;
* `keyword`, `symbol` — a run of symbol characters;
* `next` — whichever of these, a delimiter or a separator stands at the front.

Each gives a `Reading`, which also says what was read and what was left, whether or not it
succeeded. Nothing here knows positions, so a lexeme depends only on the text from its first
character on. `text_append_rest_next` says that no character is lost. -/

namespace Sexp

/-- The outcome of reading from the front of a text: a value, the characters read and the
characters left. -/
structure Reading (α : Type) where
  value : α
  text : List Char
  rest : List Char

namespace Reading

/-- The same reading with another value. -/
def map {α β : Type} (f : α → β) (r : Reading α) : Reading β :=
  ⟨f r.value, r.text, r.rest⟩

/-- A reading that continues one of `seen`. -/
def following {α : Type} (seen : List Char) (r : Reading α) : Reading α :=
  ⟨r.value, seen ++ r.text, r.rest⟩

/-- The longest run of a class from the front of a text. -/
def run (p : Char → Bool) (cs : List Char) : Reading String :=
  ⟨String.ofList (cs.takeWhile p), cs.takeWhile p, cs.dropWhile p⟩

variable {α β : Type}

@[simp]
theorem text_append_rest_map (f : α → β) (r : Reading α) :
    (r.map f).text ++ (r.map f).rest = r.text ++ r.rest := rfl

@[simp]
theorem text_append_rest_following (seen : List Char) (r : Reading α) :
    (r.following seen).text ++ (r.following seen).rest = seen ++ (r.text ++ r.rest) :=
  List.append_assoc ..

@[simp]
theorem text_append_rest_run (p : Char → Bool) (cs : List Char) :
    (run p cs).text ++ (run p cs).rest = cs :=
  List.takeWhile_append_dropWhile

end Reading

namespace Lexeme

/-! ## Numerals -/

/-- A sign at the front of a text, if there is one. -/
def sign : List Char → Reading (Option Sign)
  | [] => ⟨none, [], []⟩
  | c :: cs =>
    match Sign.ofChar? c with
    | some s => ⟨some s, [c], cs⟩
    | none => ⟨none, [], c :: cs⟩

/-- An exponent at the front of a text, if there is one. Its marker commits: digits must follow. -/
def exponent : List Char → Reading (Except Numeral.Fault (Option Exponent))
  | [] => ⟨.ok none, [], []⟩
  | c :: cs =>
    match ExponentMarker.ofChar? c with
    | none => ⟨.ok none, [], c :: cs⟩
    | some marker =>
      let s := sign cs
      let digits := Reading.run Char.isDigit s.rest
      if digits.text.isEmpty then ⟨.error .missingExponent, c :: s.text, s.rest⟩
      else (digits.map fun ds => .ok (some ⟨marker, s.value, ds⟩)).following (c :: s.text)

/-- The end of a numeral: nothing that could be part of a symbol may touch it. -/
def numeralEnd (n : Numeral) (rest : List Char) : Reading (Except Numeral.Fault Numeral) :=
  match rest.head?.filter isSymbolPart with
  | some c => ⟨.error (.trailing c), [], rest⟩
  | none => ⟨.ok n, [], rest⟩

/-- What follows the point of a decimal numeral whose sign and whole part have been read. -/
def fraction (sign : Option Sign) (whole : String) (cs : List Char) :
    Reading (Except Numeral.Fault Numeral) :=
  let digits := Reading.run Char.isDigit cs
  if digits.text.isEmpty then ⟨.error .missingFraction, [], cs⟩
  else
    let e := exponent digits.rest
    match e.value with
    | .error fault => ⟨.error fault, digits.text ++ e.text, e.rest⟩
    | .ok exponent =>
      (numeralEnd (.decimal sign whole digits.value exponent) e.rest).following
        (digits.text ++ e.text)

/-- A numeral at the front of a text that begins with a digit or with a sign before a digit. -/
def numeral (cs : List Char) : Reading (Except Numeral.Fault Numeral) :=
  let s := sign cs
  let whole := Reading.run Char.isDigit s.rest
  match whole.rest with
  -- a point commits to a decimal numeral
  | '.' :: rest =>
    (fraction s.value whole.value rest).following (s.text ++ whole.text ++ ['.'])
  | rest => (numeralEnd (.integer s.value whole.value) rest).following (s.text ++ whole.text)

/-- Whether a text begins with a digit, or with a sign before a digit. -/
def beginsNumeral (cs : List Char) : Bool :=
  (sign cs).rest.head?.any Char.isDigit

/-! ## Strings -/

/-- Splits a text at its first quote that no backslash precedes, which belongs to neither part.
The characters already seen are kept newest first. -/
def splitAtQuote (seen : List Char) : List Char → Option (List Char × List Char)
  | [] => none
  | '"' :: cs => some (seen.reverse, cs)
  -- a backslash takes the quote behind it along, however many backslashes stand before it
  | '\\' :: '"' :: cs => splitAtQuote ('"' :: '\\' :: seen) cs
  | c :: cs => splitAtQuote (c :: seen) cs

/-- A string whose opening quote has been read. -/
def string (cs : List Char) : Reading (Except Cause Atom) :=
  match splitAtQuote [] cs with
  | none => ⟨.error .unterminatedString, cs, []⟩
  | some (body, rest) => ⟨.ok (.string (String.ofList body)), body ++ ['"'], rest⟩

/-! ## Keywords and symbols -/

/-- A keyword whose colon has been read. -/
def keyword (cs : List Char) : Reading (Except Cause Atom) :=
  (Reading.run isSymbolPart cs).map fun name =>
    if name.isEmpty then .error .emptyKeyword else .ok (.keyword (":" ++ name))

/-- The atom a whole run of symbol characters stands for. -/
def symbolAtom (name : String) : Atom :=
  if name = "true" then .boolean true
  else if name = "false" then .boolean false
  else .symbol name

/-- Whether a character begins a symbol when no number begins there. -/
def beginsSymbol (c : Char) : Bool :=
  isSymbolStart c || ['+', '-', '.'].contains c

/-! ## Whatever comes next -/

/-- Reads one separator or one lexeme from the front of the text `c :: cs`; a separator stands for
no terminal. -/
def next (c : Char) (cs : List Char) : Reading (Except Cause (Option Terminal)) :=
  if isSeparator c then ⟨.ok none, [c], cs⟩
  else if let some d := Delimiter.ofOpening? c then ⟨.ok (some (.opening d)), [c], cs⟩
  else if let some d := Delimiter.ofClosing? c then ⟨.ok (some (.closing d)), [c], cs⟩
  else if c = '"' then ((string cs).map (·.map fun a => some (.atom a))).following [c]
  else if c = ':' then ((keyword cs).map (·.map fun a => some (.atom a))).following [c]
  -- a sign belongs to a number only right before a digit; elsewhere it begins a symbol
  else if beginsNumeral (c :: cs) then
    (numeral (c :: cs)).map fun
      | .ok n => .ok (some (.atom (.numeral n)))
      | .error fault => .error (.malformedNumber fault.reason)
  else if beginsSymbol c then
    ((Reading.run isSymbolPart cs).map fun name =>
      .ok (some (.atom (symbolAtom (c.toString ++ name))))).following [c]
  else ⟨.error (.invalidCharacter c), [c], cs⟩

/-! ## No character is lost -/

@[simp]
theorem text_append_rest_sign (cs : List Char) : (sign cs).text ++ (sign cs).rest = cs := by
  fun_cases sign cs <;> rfl

@[simp]
theorem text_append_rest_exponent (cs : List Char) :
    (exponent cs).text ++ (exponent cs).rest = cs := by
  fun_cases exponent cs <;> simp +zetaDelta

@[simp]
theorem text_append_rest_numeralEnd (n : Numeral) (rest : List Char) :
    (numeralEnd n rest).text ++ (numeralEnd n rest).rest = rest := by
  fun_cases numeralEnd n rest <;> rfl

@[simp]
theorem text_append_rest_fraction (s : Option Sign) (whole : String) (cs : List Char) :
    (fraction s whole cs).text ++ (fraction s whole cs).rest = cs := by
  fun_cases fraction s whole cs <;> simp +zetaDelta

@[simp]
theorem text_append_rest_numeral (cs : List Char) :
    (numeral cs).text ++ (numeral cs).rest = cs := by
  fun_cases numeral cs with
  | case1 s whole rest h =>
    have hw := Reading.text_append_rest_run Char.isDigit s.rest
    rw [show (Reading.run Char.isDigit s.rest).rest = '.' :: rest from h] at hw
    simp +zetaDelta [hw]
  | case2 s whole => simp +zetaDelta

theorem append_of_splitAtQuote {seen cs body rest : List Char}
    (h : splitAtQuote seen cs = some (body, rest)) :
    body ++ '"' :: rest = seen.reverse ++ cs := by
  fun_induction splitAtQuote seen cs <;> simp_all

@[simp]
theorem text_append_rest_string (cs : List Char) :
    (string cs).text ++ (string cs).rest = cs := by
  fun_cases string cs with
  | case1 => simp
  | case2 body rest h => simpa using append_of_splitAtQuote h

@[simp]
theorem text_append_rest_keyword (cs : List Char) :
    (keyword cs).text ++ (keyword cs).rest = cs := by
  simp [keyword]

@[simp]
theorem text_append_rest_next (c : Char) (cs : List Char) :
    (next c cs).text ++ (next c cs).rest = c :: cs := by
  fun_cases next c cs <;> simp

/-- The characters of a numeral begin with its sign and its whole part. -/
theorem text_numeral_eq_append (cs : List Char) :
    ∃ t, (numeral cs).text = (sign cs).text ++ (sign cs).rest.takeWhile Char.isDigit ++ t := by
  fun_cases numeral cs <;> simp +zetaDelta [Reading.following, Reading.run]

theorem text_numeral_eq_cons {c : Char} {cs : List Char} (h : beginsNumeral (c :: cs)) :
    ∃ t, (numeral (c :: cs)).text = c :: t := by
  obtain ⟨t, ht⟩ := text_numeral_eq_append (c :: cs)
  rw [ht]
  cases hs : Sign.ofChar? c <;> simp_all [beginsNumeral, sign]

/-- Reading always takes the first character. -/
theorem text_next_eq_cons (c : Char) (cs : List Char) : ∃ t, (next c cs).text = c :: t := by
  fun_cases next c cs <;> simp_all [Reading.map, Reading.following, text_numeral_eq_cons]

theorem length_rest_next_lt (c : Char) (cs : List Char) :
    (next c cs).rest.length < (c :: cs).length := by
  obtain ⟨t, ht⟩ := text_next_eq_cons c cs
  have h := congrArg List.length (text_append_rest_next c cs)
  rw [ht] at h
  simp at h ⊢
  omega

end Lexeme

end Sexp
