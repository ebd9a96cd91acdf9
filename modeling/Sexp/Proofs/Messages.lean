import Mathlib.Logic.Function.Basic
import Sexp.Error
import Sexp.Proofs.Numerals

/-! # A message tells its error

No two errors have the same message (`message_injective`), whichever characters are hidden.  A
message is put together from texts of varying length, each of which is told from what stands behind
it:

* `toDigits_append_inj` — a number, from a text that begins with no digit;
* `Position.text_append_inj` — a position, from any text;
* `quotedCharHiding_append_inj` — a quoted character, from any text;
* `Error.ticked_append_inj` — a delimiter, from any text.

The reason of a malformed number may itself be any text, but nothing stands behind it. -/

namespace Sexp

/-! ## Numbers -/

/-- The value of a digit, in every base up to sixteen. -/
def digitValue (c : Char) : Nat :=
  if c.isDigit then c.toNat - '0'.toNat else c.toNat - 'a'.toNat + 10

theorem digitValue_digitChar : ∀ d < 16, digitValue d.digitChar = d := by
  decide

/-- The characters that are digits in some base up to sixteen. -/
def isNumberDigit (c : Char) : Bool :=
  (digitValue c).digitChar == c

/-- The number that is written with the given digits. `Nat.ofDigitChars` reads digits up to nine. -/
def ofNumberDigits (b : Nat) (digits : List Char) : Nat :=
  digits.foldl (fun n c => b * n + digitValue c) 0

section Digits

variable {b : Nat} (hb : 1 < b) (hsmall : b ≤ 16)

include hb hsmall

theorem isNumberDigit_of_mem_toDigits (n : Nat) : ∀ c ∈ Nat.toDigits b n, isNumberDigit c := by
  have hdigit : ∀ d < b, isNumberDigit d.digitChar := by
    intro d hd
    simp [isNumberDigit, digitValue_digitChar d (Nat.lt_of_lt_of_le hd hsmall)]
  induction n using Nat.strongRecOn with
  | ind n ih =>
    intro c hc
    rw [Nat.toDigits_eq_if hb] at hc
    split at hc
    next hlt =>
      obtain rfl := List.mem_singleton.mp hc
      exact hdigit n hlt
    next hge =>
      rcases List.mem_append.mp hc with hfront | hlast
      · exact ih (n / b) (Nat.div_lt_self (by omega) hb) c hfront
      · obtain rfl := List.mem_singleton.mp hlast
        exact hdigit _ (Nat.mod_lt n (by omega))

theorem ofNumberDigits_toDigits (n : Nat) : ofNumberDigits b (Nat.toDigits b n) = n := by
  have hdigit : ∀ d < b, digitValue d.digitChar = d :=
    fun d hd => digitValue_digitChar d (Nat.lt_of_lt_of_le hd hsmall)
  induction n using Nat.strongRecOn with
  | ind n ih =>
    rw [Nat.toDigits_eq_if hb]
    split
    next hlt => simp [ofNumberDigits, hdigit n hlt]
    next hge =>
      have hfront := ih (n / b) (Nat.div_lt_self (by omega) hb)
      have hlast := hdigit (n % b) (Nat.mod_lt n (by omega))
      rw [ofNumberDigits] at hfront ⊢
      rw [List.foldl_append, hfront, List.foldl_cons, List.foldl_nil, hlast]
      exact Nat.div_add_mod n b

/-- A number is told from a text behind it that begins with no digit. -/
theorem toDigits_append_inj {m n : Nat} {stop s t : String}
    (hstop : ∃ c ∈ stop.toList.head?, ¬ isNumberDigit c)
    (h : String.ofList (Nat.toDigits b m) ++ (stop ++ s) =
      String.ofList (Nat.toDigits b n) ++ (stop ++ t)) : m = n ∧ s = t := by
  have hstops : ∀ rest : String, StopsRun isNumberDigit (stop ++ rest).toList := by
    obtain ⟨c, hc, hother⟩ := hstop
    intro rest d hd
    rw [String.toList_append, List.head?_append, hc] at hd
    cases hd
    exact hother
  have hlists := congrArg (fun text => Reading.run isNumberDigit text.toList) h
  simp only [String.toList_append (s := String.ofList _), String.toList_ofList] at hlists
  rw [Reading.run_append (isNumberDigit_of_mem_toDigits hb hsmall m) (hstops s),
    Reading.run_append (isNumberDigit_of_mem_toDigits hb hsmall n) (hstops t)] at hlists
  obtain ⟨-, hdigits, hrest⟩ := Reading.mk.inj hlists
  have hnumbers := congrArg (ofNumberDigits b) hdigits
  rw [ofNumberDigits_toDigits hb hsmall, ofNumberDigits_toDigits hb hsmall] at hnumbers
  exact ⟨hnumbers, (String.append_right_inj stop).mp (String.toList_inj.mp hrest)⟩

end Digits

/-! ## Positions -/

theorem Position.text_append_inj {p q : Position} {s t : String}
    (h : p.text ++ s = q.text ++ t) : p = q ∧ s = t := by
  simp only [text, Nat.toString_eq_ofList_toDigits, String.append_assoc] at h
  rw [String.append_right_inj] at h
  obtain ⟨hline, h⟩ := toDigits_append_inj (by decide) (by decide) ⟨',', rfl, by decide⟩ h
  obtain ⟨hcolumn, h⟩ := toDigits_append_inj (by decide) (by decide) ⟨' ', rfl, by decide⟩ h
  obtain ⟨hoffset, h⟩ := toDigits_append_inj (by decide) (by decide) ⟨')', rfl, by decide⟩ h
  obtain ⟨offset, line, column⟩ := p
  simp_all

theorem Position.text_inj {p q : Position} (h : p.text = q.text) : p = q :=
  (text_append_inj (congrArg (· ++ "") h)).1

/-! ## Quoted characters -/

/-- The character that a letter behind a backslash stands for. -/
def unescaped (letter : Char) : Char :=
  if letter = '0' then '\x00'
  else if letter = 't' then '\t'
  else if letter = 'r' then '\r'
  else if letter = 'n' then '\n'
  else letter

/-- The ways in which a character stands between apostrophes. -/
inductive StandsAs (c : Char) : String → Prop
  | short {letter : Char} (hletter : letter ≠ 'u') (hc : c = unescaped letter) :
      StandsAs c (String.ofList ['\\', letter])
  | long : StandsAs c (codePointEscape c)
  | plain (hc : c ≠ '\\') : StandsAs c c.toString

theorem standsAs_escapedChar (hidden : Char → Bool) (c : Char) :
    StandsAs c (escapedChar hidden c) := by
  unfold escapedChar
  split
  next h => exact .short (by decide) h
  split
  next h => exact .short (by decide) h
  split
  next h => exact .short (by decide) h
  split
  next h => exact .short (by decide) h
  split
  next h => exact .short (by decide) h
  split
  next h => exact .short (by decide) h
  next hbackslash =>
    split
    next => exact .long
    next => exact .plain hbackslash

theorem codePointEscape_append_inj {c d : Char} {s t : String}
    (h : codePointEscape c ++ s = codePointEscape d ++ t) : c = d ∧ s = t := by
  simp only [codePointEscape, String.append_assoc] at h
  rw [String.append_right_inj] at h
  obtain ⟨hpoint, h⟩ := toDigits_append_inj (by decide) (by decide) ⟨'\x7d', rfl, by decide⟩ h
  exact ⟨Char.toNat_inj.mp hpoint, h⟩

theorem StandsAs.append_inj {c d : Char} {u v s t : String} (hu : StandsAs c u)
    (hv : StandsAs d v) (h : u ++ s = v ++ t) : c = d ∧ s = t := by
  have hlists := congrArg String.toList h
  -- the first two characters tell how a character stands
  cases hu with
  | short hletter hc =>
    cases hv with
    | short _ hd =>
      simp only [String.toList_append, String.toList_ofList, List.cons_append, List.nil_append,
        List.cons.injEq, true_and, String.toList_inj] at hlists
      exact ⟨by rw [hc, hd, hlists.1], hlists.2⟩
    | long =>
      simp [codePointEscape] at hlists
      exact absurd hlists.1 hletter
    | plain hd =>
      simp at hlists
      exact absurd hlists.1.symm hd
  | long =>
    cases hv with
    | short hletter =>
      simp [codePointEscape] at hlists
      exact absurd hlists.1.symm hletter
    | long => exact codePointEscape_append_inj h
    | plain hd =>
      simp [codePointEscape] at hlists
      exact absurd hlists.1.symm hd
  | plain hc =>
    cases hv with
    | short =>
      simp at hlists
      exact absurd hlists.1 hc
    | long =>
      simp [codePointEscape] at hlists
      exact absurd hlists.1 hc
    | plain => simpa [String.toList_inj] using hlists

theorem quotedCharHiding_append_inj {hidden : Char → Bool} {c d : Char} {s t : String}
    (h : quotedCharHiding hidden c ++ s = quotedCharHiding hidden d ++ t) : c = d ∧ s = t := by
  simp only [quotedCharHiding, String.append_assoc, String.append_right_inj] at h
  obtain ⟨hchar, hrest⟩ :=
    (standsAs_escapedChar hidden c).append_inj (standsAs_escapedChar hidden d) h
  exact ⟨hchar, (String.append_right_inj _).mp hrest⟩

/-! ## Delimiters -/

theorem Delimiter.opening_inj {d e : Delimiter} (h : d.opening = e.opening) : d = e := by
  cases d <;> cases e <;> simp_all [opening]

theorem Delimiter.closing_inj {d e : Delimiter} (h : d.closing = e.closing) : d = e := by
  cases d <;> cases e <;> simp_all [closing]

namespace Error

theorem ticked_append_inj {c d : Char} {s t : String} (h : ticked c ++ s = ticked d ++ t) :
    c = d ∧ s = t := by
  have hlists := congrArg String.toList h
  simpa [ticked, String.toList_inj] using hlists

theorem ticked_inj {c d : Char} (h : ticked c = ticked d) : c = d :=
  (ticked_append_inj (congrArg (· ++ "") h)).1

/-! ## Messages -/

/-- The third letter of a message, which differs from kind to kind. -/
def kindLetter : Cause → Char
  | .unterminatedString => 't'
  | .unclosedDelimiter _ => 'c'
  | .mismatchedDelimiter _ _ => 's'
  | .invalidCharacter _ => 'v'
  | .malformedNumber _ => 'l'
  | .emptyKeyword => 'p'

theorem messageHiding_third (hidden : Char → Bool) (e : Error) :
    (e.messageHiding hidden).toList[2]? = some (kindLetter e.cause) := by
  obtain ⟨cause, p⟩ := e
  cases cause <;> simp [messageHiding, kindLetter]

theorem messageHiding_inj {hidden : Char → Bool} {e e' : Error}
    (h : e.messageHiding hidden = e'.messageHiding hidden) : e = e' := by
  have hletter : kindLetter e.cause = kindLetter e'.cause := by
    apply Option.some.inj
    rw [← messageHiding_third hidden, ← messageHiding_third hidden, h]
  obtain ⟨cause, p⟩ := e
  obtain ⟨cause', q⟩ := e'
  simp only [messageHiding] at h
  cases cause with
  | unterminatedString =>
    cases cause' with
    | unterminatedString =>
      obtain rfl := Position.text_inj ((String.append_right_inj _).mp h)
      rfl
    | _ => simp [kindLetter] at hletter
  | unclosedDelimiter d =>
    cases cause' with
    | unclosedDelimiter d' =>
      simp only [String.append_assoc, String.append_right_inj] at h
      obtain ⟨hopening, hplace⟩ := ticked_append_inj h
      obtain rfl := Delimiter.opening_inj hopening
      obtain rfl := Position.text_inj ((String.append_right_inj _).mp hplace)
      rfl
    | _ => simp [kindLetter] at hletter
  | mismatchedDelimiter expected found =>
    cases cause' with
    | mismatchedDelimiter expected' found' =>
      simp only [String.append_assoc, String.append_right_inj] at h
      obtain ⟨rfl, hclosers⟩ := Position.text_append_inj h
      obtain ⟨hexpected, hfound⟩ := ticked_append_inj ((String.append_right_inj _).mp hclosers)
      obtain rfl := Delimiter.closing_inj hexpected
      obtain rfl := Delimiter.closing_inj (ticked_inj ((String.append_right_inj _).mp hfound))
      rfl
    | _ => simp [kindLetter] at hletter
  | invalidCharacter c =>
    cases cause' with
    | invalidCharacter c' =>
      simp only [String.append_assoc, String.append_right_inj] at h
      obtain ⟨rfl, hplace⟩ := quotedCharHiding_append_inj h
      obtain rfl := Position.text_inj ((String.append_right_inj _).mp hplace)
      rfl
    | _ => simp [kindLetter] at hletter
  | malformedNumber reason =>
    cases cause' with
    | malformedNumber reason' =>
      simp only [String.append_assoc, String.append_right_inj] at h
      obtain ⟨rfl, hreason⟩ := Position.text_append_inj h
      obtain rfl := (String.append_right_inj _).mp hreason
      rfl
    | _ => simp [kindLetter] at hletter
  | emptyKeyword =>
    cases cause' with
    | emptyKeyword =>
      obtain rfl := Position.text_inj ((String.append_right_inj _).mp h)
      rfl
    | _ => simp [kindLetter] at hletter

/-- Errors with the same message are the same error, and so they are whichever characters are shown
by their code points. -/
theorem message_injective :
    Function.Injective message ∧
      ∀ hidden : Char → Bool, Function.Injective (messageHiding hidden) := by
  constructor
  · intro e e' h
    exact messageHiding_inj h
  · intro hidden e e' h
    exact messageHiding_inj h

end Error

end Sexp
