import Sexp.Proofs.Pieces

/-! # Lexemes that break off

`Lexeme.Broken` says which texts begin a lexeme that cannot be read, what the fault is and what the
characters behind it have to be, so that reading fails exactly on the broken texts
(`next_broken`, `Broken.next_eq`).

At most one character behind a broken text counts.  A fault that such a character decides is
therefore the same whatever follows it (`Broken.append`), and one that only the end of the source
decides can be mended (`Broken.exists_atom`).
-/

namespace Sexp

theorem StopsRun.append {p : Char → Bool} {rest : List Char} (h : StopsRun p rest)
    (hne : rest ≠ []) (t : List Char) : StopsRun p (rest ++ t) := by
  cases rest with
  | nil => exact absurd rfl hne
  | cons c cs => exact stopsRun_cons.mpr (stopsRun_cons.mp h)

theorem stopsRun_of_text_run {p : Char → Bool} {cs : List Char} (h : (Reading.run p cs).text = []) :
    StopsRun p cs := by
  cases cs with
  | nil => exact stopsRun_nil p
  | cons c cs =>
    apply stopsRun_cons.mpr
    intro hc
    simp [Reading.run, hc] at h

theorem run_of_stops {p : Char → Bool} {rest : List Char} (h : StopsRun p rest) :
    Reading.run p rest = ⟨"", [], rest⟩ := by
  have hnone : ∀ c ∈ ([] : List Char), p c := by simp
  exact Reading.run_append hnone h

/-! ## Numerals -/

/-- No sign stands at the front of a text. -/
def Unsigned (rest : List Char) : Prop :=
  ∀ c ∈ rest.head?, ¬ IsSign c

/-- A numeral breaks off behind the first text with the fault: the second text, which follows, does
not give what is missing. -/
inductive Numeral.BreaksOff : List Char → List Char → Numeral.Fault → Prop
  | fraction {s : Option Sign} {whole : String} {rest : List Char} (hw : IsDigits whole)
      (hr : StopsRun Char.isDigit rest) :
      BreaksOff ((signText s).toList ++ (whole.toList ++ ['.'])) rest .missingFraction
  | exponent {s : Option Sign} {whole digits : String} {m : ExponentMarker} {es : Option Sign}
      {rest : List Char} (hw : IsDigits whole) (hd : IsDigits digits)
      (hs : es = none → Unsigned rest) (hr : StopsRun Char.isDigit rest) :
      BreaksOff ((signText s).toList ++ (whole.toList ++
        '.' :: (digits.toList ++ m.char :: (signText es).toList))) rest .missingExponent
  | trailing {n : Numeral} {c : Char} {rest : List Char} (hn : n.WellFormed)
      (hc : isSymbolPart c) (hstop : n.goesOn c = false) :
      BreaksOff n.text.toList (c :: rest) (.trailing c)

/-- Of what follows only the first character counts. -/
theorem Numeral.BreaksOff.of_head? {text rest other : List Char} {fault : Numeral.Fault}
    (h : Numeral.BreaksOff text rest fault) (hhead : rest.head? = other.head?) :
    Numeral.BreaksOff text other fault := by
  have hstop : StopsRun Char.isDigit rest → StopsRun Char.isDigit other := by
    intro hr c hc
    exact hr c (hhead ▸ hc)
  cases h with
  | fraction hw hr => exact .fraction hw (hstop hr)
  | exponent hw hd hs hr =>
    refine .exponent hw hd ?_ (hstop hr)
    intro hnone c hc
    exact hs hnone c (hhead ▸ hc)
  | trailing hn hc hgo =>
    obtain ⟨cs, rfl⟩ := List.head?_eq_some_iff.mp hhead.symm
    exact .trailing hn hc hgo

namespace Lexeme

theorem unsigned_of_sign {cs : List Char} : (sign cs).value = none → Unsigned (sign cs).rest := by
  fun_cases sign cs with
  | case1 => simp [Unsigned]
  | case2 => simp
  | case3 c cs hs =>
    rintro - d hd hsign
    obtain rfl : c = d := by simpa using hd
    rcases hsign with rfl | rfl <;> cases hs

theorem sign_unsigned {cs : List Char} (s : Option Sign) (h : s = none → Unsigned cs) :
    sign ((signText s).toList ++ cs) = ⟨s, (signText s).toList, cs⟩ := by
  cases s with
  | some s => cases s <;> rfl
  | none =>
    cases cs with
    | nil => rfl
    | cons c cs => simp [signText, sign, ofChar?_eq_none (h rfl c (by simp))]

theorem exponent_broken {cs : List Char} {fault : Numeral.Fault} :
    (exponent cs).value = .error fault →
      fault = .missingExponent ∧ ∃ (m : ExponentMarker) (es : Option Sign),
        (exponent cs).text = m.char :: (signText es).toList ∧
        (es = none → Unsigned (exponent cs).rest) ∧
        StopsRun Char.isDigit (exponent cs).rest := by
  fun_cases exponent cs with
  | case1 => simp
  | case2 => simp
  | case3 c cs m hm s digits he =>
    intro h
    cases h
    refine ⟨rfl, m, s.value, ?_, unsigned_of_sign, stopsRun_of_text_run (by simpa using he)⟩
    rw [← text_sign, ExponentMarker.ofChar?_eq_some_iff.mp hm]
  | case4 => simp [Reading.following, Reading.map]

theorem exponent_append_broken {m : ExponentMarker} {es : Option Sign} {rest : List Char}
    (hs : es = none → Unsigned rest) (hr : StopsRun Char.isDigit rest) :
    exponent (m.char :: ((signText es).toList ++ rest)) =
      ⟨.error .missingExponent, m.char :: (signText es).toList, rest⟩ := by
  have hmarker := ExponentMarker.ofChar?_eq_some_iff.mpr (rfl : m.char = m.char)
  simp [exponent, hmarker, sign_unsigned es hs, run_of_stops hr]

/-- What follows an exponent that was read, or that is absent, does not carry it on. -/
theorem goesOn_exponent (s : Option Sign) (whole digits : String) {cs : List Char}
    {e : Option Exponent} (hcs : StopsRun Char.isDigit cs) :
    (exponent cs).value = .ok e →
      ∀ c ∈ (exponent cs).rest.head?, (Numeral.decimal s whole digits e).goesOn c = false := by
  fun_cases exponent cs with
  | case1 => simp
  | case2 c cs hm =>
    rintro h d hd
    cases h
    obtain rfl : c = d := by simpa using hd
    simp [Numeral.goesOn, hm, stopsRun_cons.mp hcs]
  | case3 => simp
  | case4 c cs m hm s digits he =>
    rintro h d hd
    cases h
    have hstop := Reading.stopsRun_rest_run Char.isDigit s.rest d hd
    simpa [Numeral.goesOn] using hstop

theorem numeralEnd_broken {n : Numeral} {rest : List Char} {fault : Numeral.Fault} :
    (numeralEnd n rest).value = .error fault →
      ∃ c cs, rest = c :: cs ∧ fault = .trailing c ∧ isSymbolPart c := by
  fun_cases numeralEnd n rest with
  | case1 c hc =>
    intro h
    cases h
    obtain ⟨hhead, hpart⟩ := Option.filter_eq_some_iff.mp hc
    obtain ⟨cs, rfl⟩ := List.head?_eq_some_iff.mp hhead
    exact ⟨c, cs, rfl, rfl, hpart⟩
  | case2 => simp

theorem numeralEnd_trailing (n : Numeral) {c : Char} (hc : isSymbolPart c) (rest : List Char) :
    numeralEnd n (c :: rest) = ⟨.error (.trailing c), [], c :: rest⟩ := by
  simp [numeralEnd, Option.filter, hc]

theorem fraction_broken {s : Option Sign} {whole : String} {cs : List Char} {fault : Numeral.Fault}
    (hw : IsDigits whole) :
    (fraction s whole cs).value = .error fault →
      Numeral.BreaksOff ((signText s).toList ++ (whole.toList ++ '.' :: (fraction s whole cs).text))
        (fraction s whole cs).rest fault := by
  fun_cases fraction s whole cs with
  | case1 digits hd =>
    intro h
    cases h
    exact .fraction hw (stopsRun_of_text_run (by simpa using hd))
  | case2 digits hd e fault' he =>
    intro h
    cases h
    obtain ⟨rfl, m, es, htext, hs, hr⟩ := exponent_broken he
    rw [htext]
    have hdigits : IsDigits digits.value := isDigits_run (by simpa using hd)
    simpa [digits, Reading.run, e] using Numeral.BreaksOff.exponent (m := m) hw hdigits hs hr
  | case3 digits hd r e he =>
    intro h
    obtain ⟨c, cs', hrest, rfl, hc⟩ := numeralEnd_broken h
    obtain ⟨hwf, htext⟩ := exponent_sound he
    have hdigits : IsDigits digits.value := isDigits_run (by simpa using hd)
    have hn : (Numeral.decimal s whole digits.value e).WellFormed := ⟨hw, hdigits, hwf⟩
    have hhead : r.rest.head? = some c := by rw [hrest, List.head?_cons]
    have hstop := goesOn_exponent s whole digits.value (Reading.stopsRun_rest_run _ _) he c hhead
    have hbroken : Numeral.BreaksOff _ (c :: cs') _ := .trailing hn hc hstop
    rw [toList_text_decimal, ← htext, ← hrest] at hbroken
    simpa [Reading.following, digits, Reading.run, r] using hbroken

theorem numeral_broken {cs : List Char} {fault : Numeral.Fault} (hb : beginsNumeral cs) :
    (numeral cs).value = .error fault →
      Numeral.BreaksOff (numeral cs).text (numeral cs).rest fault := by
  have hw := isDigits_whole hb
  fun_cases numeral cs with
  | case1 s whole rest hrest =>
    intro h
    have hbroken := fraction_broken hw h
    rw [← text_sign] at hbroken
    simpa [Reading.following, Reading.run, s, whole] using hbroken
  | case2 s whole hpoint =>
    intro h
    obtain ⟨c, cs', hrest, rfl, hc⟩ := numeralEnd_broken h
    have hn : (Numeral.integer s.value whole.value).WellFormed := hw
    -- neither a digit nor a point stands behind the whole part
    have hstop : (Numeral.integer s.value whole.value).goesOn c = false := by
      have hhead : whole.rest.head? = some c := by rw [hrest, List.head?_cons]
      have hdigit := Reading.stopsRun_rest_run Char.isDigit s.rest c hhead
      have hne : c ≠ '.' := by
        rintro rfl
        exact hpoint cs' hrest
      simp [Numeral.goesOn, hdigit, hne]
    have hbroken : Numeral.BreaksOff _ (c :: cs') _ := .trailing hn hc hstop
    rw [toList_text_integer, ← text_sign, ← hrest] at hbroken
    simpa [Reading.following, Reading.run, s, whole] using hbroken

theorem numeral_append_broken {text rest : List Char} {fault : Numeral.Fault}
    (h : Numeral.BreaksOff text rest fault) :
    numeral (text ++ rest) = ⟨.error fault, text, rest⟩ := by
  cases h with
  | @fraction s whole rest hw hr =>
    -- the digits of the whole part end at the point, and none stand behind it
    have hpoint : StopsRun Char.isDigit ('.' :: rest) := stopsRun_cons.mpr (by decide)
    simp only [List.append_assoc, List.singleton_append]
    simp only [numeral, sign_append s (hw.head_append _), run_digits hw hpoint, fraction,
      run_of_stops hr]
    simp [Reading.following]
  | @exponent s whole digits m es rest hw hd hs hr =>
    have hpoint : ∀ cs, StopsRun Char.isDigit ('.' :: cs) := fun _ => stopsRun_cons.mpr (by decide)
    have hmarker : ∀ cs, StopsRun Char.isDigit (m.char :: cs) := by
      intro cs
      apply stopsRun_cons.mpr
      cases m <;> decide
    simp only [List.append_assoc, List.cons_append]
    simp only [numeral, sign_append s (hw.head_append _), run_digits hw (hpoint _), fraction,
      run_digits hd (hmarker _), hd.isEmpty_eq_false, exponent_append_broken hs hr]
    simp [Reading.following]
  | @trailing n c rest hn hc hstop =>
    have hgo : ∀ d ∈ (c :: rest).head?, n.goesOn d = false := by simpa using hstop
    rw [numeral_append hn hgo, numeralEnd_trailing n hc]
    simp [Reading.following]

theorem beginsNumeral_of_breaksOff {text rest : List Char} {fault : Numeral.Fault}
    (h : Numeral.BreaksOff text rest fault) : beginsNumeral (text ++ rest) := by
  cases h with
  | fraction hw =>
    rw [List.append_assoc, List.append_assoc]
    exact beginsNumeral_digits _ hw _
  | exponent hw =>
    rw [List.append_assoc, List.append_assoc]
    exact beginsNumeral_digits _ hw _
  | trailing hn => exact beginsNumeral_text hn _

/-- A numeral that breaks off could have been a numeral: at most one digit is missing. -/
theorem exists_numeral_of_breaksOff {text rest : List Char} {fault : Numeral.Fault}
    (h : Numeral.BreaksOff text rest fault) :
    ∃ (n : Numeral) (t : List Char), n.WellFormed ∧ n.text.toList = text ++ t := by
  have hzero : IsDigits "0" := by simp [IsDigits]
  cases h with
  | @fraction s whole _ hw hr =>
    refine ⟨.decimal s whole "0" none, ['0'], ⟨hw, hzero, by simp⟩, ?_⟩
    simp [toList_text_decimal, exponentText]
  | @exponent s whole digits m es _ hw hd hs hr =>
    refine ⟨.decimal s whole digits (some ⟨m, es, "0"⟩), ['0'], ⟨hw, hd, ?_⟩, ?_⟩
    · rintro e ⟨rfl⟩
      exact hzero
    · simp [toList_text_decimal, toList_exponentText]
  | @trailing n c cs hn hc hstop => exact ⟨n, [], hn, (List.append_nil _).symm⟩

/-! ## Lexemes -/

/-- A character that stands for nothing by itself and begins no lexeme. -/
def BeginsNothing (c : Char) : Prop :=
  ¬ isSeparator c ∧ ¬ c.isDigit ∧ ¬ isSymbolStart c ∧
    c ∉ ['(', ')', '[', ']', '"', ':', '+', '-', '.']

/-- The first text begins a lexeme that cannot be read for the cause, given that the second text
follows. -/
inductive Broken : List Char → List Char → Cause → Prop
  | string {body : List Char} (h : Shields none (body ++ [' '])) :
      Broken ('"' :: body) [] .unterminatedString
  | keyword {rest : List Char} (h : StopsRun isSymbolPart rest) : Broken [':'] rest .emptyKeyword
  | numeral {text rest : List Char} {fault : Numeral.Fault}
      (h : Numeral.BreaksOff text rest fault) : Broken text rest (.malformedNumber fault.reason)
  | character {c : Char} {rest : List Char} (h : BeginsNothing c) :
      Broken [c] rest (.invalidCharacter c)

/-- A string without an end would be a body if a blank stood behind it. -/
theorem shields_of_splitAtQuote {seen cs : List Char} (h : splitAtQuote seen cs = none) :
    Shields seen.head? (cs ++ [' ']) := by
  fun_induction splitAtQuote seen cs with
  | case1 => exact ⟨by simp, by simp [Shields]⟩
  | case2 => cases h
  | case3 seen cs ih => exact ⟨by simp, fun _ => rfl, ih h⟩
  | case4 seen c cs hquote hescape ih => exact ⟨fun hc => absurd hc hquote, ih h⟩

theorem splitAtQuote_of_shields {body : List Char} (h : Shields none (body ++ [' '])) :
    splitAtQuote [] body = none := by
  cases hsplit : splitAtQuote [] body with
  | none => rfl
  | some found =>
    obtain ⟨inner, rest⟩ := found
    -- the quote that was found would have to be shielded by what stands before it
    obtain ⟨b, -, hbody, hb⟩ := splitAtQuote_sound (by simp) hsplit
    have hquote := (shields_iff.mp h).1 b (rest ++ [' ']) (by simp [hbody])
    exact absurd hquote (shields_iff.mp hb).2

theorem beginsNothing_of_next {c : Char} {cs : List Char} (hsep : ¬ isSeparator c)
    (hopen : ∀ d, Delimiter.ofOpening? c ≠ some d) (hclose : ∀ d, Delimiter.ofClosing? c ≠ some d)
    (hquote : c ≠ '"') (hcolon : c ≠ ':') (hn : ¬ beginsNumeral (c :: cs))
    (hs : ¬ beginsSymbol c) : BeginsNothing c := by
  rw [beginsSymbol_eq_true_iff] at hs
  simp only [not_or] at hs
  obtain ⟨hstart, hsign, hpoint⟩ := hs
  rw [beginsNumeral_other hsign] at hn
  refine ⟨hsep, hn, hstart, ?_⟩
  simp only [List.mem_cons, List.not_mem_nil, or_false, not_or]
  simp only [IsSign, not_or] at hsign
  refine ⟨?_, ?_, ?_, ?_, hquote, hcolon, hsign.1, hsign.2, hpoint⟩
  · rintro rfl
    exact hopen .paren rfl
  · rintro rfl
    exact hclose .paren rfl
  · rintro rfl
    exact hopen .bracket rfl
  · rintro rfl
    exact hclose .bracket rfl

/-- What cannot be read is broken. -/
theorem next_broken {c : Char} {cs : List Char} {cause : Cause} :
    (next c cs).value = .error cause → Broken (next c cs).text (next c cs).rest cause := by
  fun_cases next c cs with
  | case1 => simp
  | case2 => simp
  | case3 => simp
  | case4 _ hc =>
    rw [hc]
    simp only [Reading.following, Reading.map]
    fun_cases string cs with
    | case1 hsplit =>
      intro h
      cases h
      exact .string (shields_of_splitAtQuote hsplit)
    | case2 => simp [Except.map]
  | case5 _ _ hc =>
    rw [hc]
    simp only [Reading.following, Reading.map, keyword]
    split
    next hname =>
      intro h
      cases h
      have hempty : (Reading.run isSymbolPart cs).text = [] := by
        simpa [Reading.run] using hname
      rw [hempty]
      have hrest : (Reading.run isSymbolPart cs).rest = cs := by
        simpa [hempty] using Reading.text_append_rest_run isSymbolPart cs
      rw [hrest]
      exact .keyword (stopsRun_of_text_run hempty)
    next => simp [Except.map]
  | case6 _ _ _ hb =>
    intro h
    cases hn : (numeral (c :: cs)).value with
    | ok n => simp [Reading.map, hn] at h
    | error fault =>
      simp only [Reading.map, hn, Except.error.injEq] at h
      rw [← h]
      exact .numeral (numeral_broken hb hn)
  | case7 => simp [Reading.following, Reading.map]
  | case8 hsep hquote hcolon hn hs hopen hclose =>
    intro h
    cases h
    exact .character (beginsNothing_of_next hsep hopen hclose hquote hcolon hn hs)

theorem next_nothing {c : Char} (h : BeginsNothing c) (cs : List Char) :
    next c cs = ⟨.error (.invalidCharacter c), [c], cs⟩ := by
  obtain ⟨hsep, hdigit, hstart, hother⟩ := h
  simp only [List.mem_cons, List.not_mem_nil, or_false, not_or] at hother
  obtain ⟨hlp, hrp, hlb, hrb, hquote, hcolon, hplus, hminus, hpoint⟩ := hother
  have hsign : ¬ IsSign c := by simp [IsSign, hplus, hminus]
  have hn : beginsNumeral (c :: cs) = false := by
    rw [beginsNumeral_other hsign]
    simpa using hdigit
  have hs : beginsSymbol c = false := by
    apply Bool.eq_false_iff.mpr
    rw [ne_eq, beginsSymbol_eq_true_iff]
    simp [hstart, hsign, hpoint]
  simp [next, hsep, Delimiter.ofOpening?, Delimiter.ofClosing?, hlp, hrp, hlb, hrb, hquote, hcolon,
    hn, hs]

namespace Broken

/-- What is broken cannot be read. -/
theorem next_eq {text rest : List Char} {cause : Cause} (h : Broken text rest cause) :
    ∃ c cs, text = c :: cs ∧ next c (cs ++ rest) = ⟨.error cause, text, rest⟩ := by
  cases h with
  | @string body h =>
    refine ⟨'"', body, rfl, ?_⟩
    rw [next_quote, List.append_nil]
    simp [Lexeme.string, splitAtQuote_of_shields h, Reading.map, Reading.following, Except.map]
  | keyword h =>
    refine ⟨':', [], rfl, ?_⟩
    rw [List.nil_append, next_colon, Lexeme.keyword, run_of_stops h]
    rfl
  | numeral h =>
    have hread := numeral_append_broken h
    have hb := beginsNumeral_of_breaksOff h
    cases text with
    | nil =>
      -- nothing was taken, but a numeral takes its first character
      cases rest with
      | nil => cases hb
      | cons c cs =>
        obtain ⟨t, ht⟩ := text_numeral_eq_cons hb
        rw [List.nil_append] at hread
        rw [hread] at ht
        cases ht
    | cons c cs =>
      refine ⟨c, cs, rfl, ?_⟩
      rw [List.cons_append] at hb hread
      rw [next_numeral hb, hread]
      rfl
  | @character c _ h => exact ⟨c, [], rfl, next_nothing h rest⟩

/-- A fault that a character has decided stays whatever is added behind it. -/
theorem append {text rest : List Char} {cause : Cause} (h : Broken text rest cause)
    (hdecided : rest ≠ [] ∨ ∃ c, cause = .invalidCharacter c) (t : List Char) :
    Broken text (rest ++ t) cause := by
  cases h with
  | string h => simp at hdecided
  | keyword h =>
    have hne : rest ≠ [] := by simpa using hdecided
    exact .keyword (h.append hne t)
  | numeral h =>
    have hne : rest ≠ [] := by simpa using hdecided
    have hhead : rest.head? = (rest ++ t).head? := by
      cases rest with
      | nil => exact absurd rfl hne
      | cons c cs => rfl
    exact .numeral (h.of_head? hhead)
  | character h => exact .character h

/-- A fault at the end of the source can be mended: the text begins a well-formed atom. -/
theorem exists_atom {text : List Char} {cause : Cause} (h : Broken text [] cause)
    (hc : ∀ c, cause ≠ .invalidCharacter c) :
    ∃ (a : Atom) (t : List Char), a.WellFormed ∧ a.text.toList = text ++ t := by
  cases h with
  | @string body h =>
    refine ⟨.string (String.ofList (body ++ [' '])), [' ', '"'], ?_, by simp [Atom.text]⟩
    exact isStringBody_iff.mpr (by simpa using h)
  | keyword h =>
    refine ⟨.keyword ":a", ['a'], ⟨"a", rfl, by decide, ?_⟩, rfl⟩
    exact List.all_eq_true.mp rfl
  | numeral h =>
    obtain ⟨n, t, hn, htext⟩ := exists_numeral_of_breaksOff h
    exact ⟨.numeral n, t, hn, htext⟩
  | @character c _ h => exact absurd rfl (hc c)

end Broken

end Lexeme

end Sexp
