import Sexp.Form.WellFormed
import Sexp.Proofs.Classes
import Sexp.Token.Lexeme

/-! # Reading numerals

A numeral that is read is well-formed and is spelled by the very characters that were taken
(`numeral_sound`), and a well-formed numeral is read back from its own text wherever no symbol
character touches it (`numeral_complete`).  Both are put together from the same facts of its parts:

* `Reading.run` — the longest run of a class, of which `StopsRun` says where it ends;
* `Lexeme.sign`, `Lexeme.exponent` — the parts that may be absent;
* `Lexeme.numeralEnd`, `Lexeme.fraction` — what stands behind the whole part. -/

namespace Sexp

/-! ## Runs of a class -/

/-- No run of the class goes on into the text: it is empty or begins with another character. -/
def StopsRun (p : Char → Bool) (rest : List Char) : Prop :=
  ∀ c ∈ rest.head?, ¬ p c

theorem stopsRun_nil (p : Char → Bool) : StopsRun p [] := by
  simp [StopsRun]

theorem stopsRun_cons {p : Char → Bool} {c : Char} {cs : List Char} :
    StopsRun p (c :: cs) ↔ ¬ p c := by
  simp [StopsRun]

namespace Reading

theorem mem_text_run {p : Char → Bool} {cs : List Char} {c : Char} (h : c ∈ (run p cs).text) :
    p c :=
  List.all_eq_true.mp List.all_takeWhile c h

theorem stopsRun_rest_run (p : Char → Bool) (cs : List Char) : StopsRun p (run p cs).rest := by
  intro c hc
  have h := List.head?_dropWhile_not p cs
  change (run p cs).rest.head? = some c at hc
  rw [show List.dropWhile p cs = (run p cs).rest from rfl, hc] at h
  simpa using h

/-- A run is read whole, and not further than to where it ends. -/
theorem run_append {p : Char → Bool} {text rest : List Char} (ht : ∀ c ∈ text, p c)
    (hr : StopsRun p rest) : run p (text ++ rest) = ⟨String.ofList text, text, rest⟩ := by
  have hstop : rest.takeWhile p = [] ∧ rest.dropWhile p = rest := by
    cases rest with
    | nil => exact ⟨rfl, rfl⟩
    | cons c cs => simp [stopsRun_cons.mp hr]
  rw [run, List.takeWhile_append_of_pos ht, List.dropWhile_append_of_pos ht, hstop.1, hstop.2,
    List.append_nil]

end Reading

/-! ## Digits -/

theorem isDigits_ofList {ds : List Char} :
    IsDigits (String.ofList ds) ↔ ds ≠ [] ∧ ∀ c ∈ ds, c.isDigit := by
  simp [IsDigits]

theorem IsDigits.cons {s : String} (h : IsDigits s) :
    ∃ d ds, s.toList = d :: ds ∧ d.isDigit := by
  obtain ⟨hne, hall⟩ := h
  cases hs : s.toList with
  | nil => exact absurd (String.toList_eq_nil_iff.mp hs) hne
  | cons d ds => exact ⟨d, ds, rfl, hall d (by simp [hs])⟩

theorem IsDigits.isEmpty_eq_false {s : String} (h : IsDigits s) : s.toList.isEmpty = false := by
  obtain ⟨d, ds, hs, -⟩ := h.cons
  rw [hs, List.isEmpty_cons]

theorem IsDigits.head_append {s : String} (h : IsDigits s) (rest : List Char) :
    ∀ c ∈ (s.toList ++ rest).head?, c.isDigit := by
  obtain ⟨d, ds, hs, hd⟩ := h.cons
  simp [hs, hd]

/-- The digits at the front of a text that begins with one. -/
theorem isDigits_run {cs : List Char} (h : (Reading.run Char.isDigit cs).text ≠ []) :
    IsDigits (Reading.run Char.isDigit cs).value :=
  isDigits_ofList.mpr ⟨h, fun _ => Reading.mem_text_run⟩

theorem run_digits {s : String} (h : IsDigits s) {rest : List Char}
    (hr : StopsRun Char.isDigit rest) :
    Reading.run Char.isDigit (s.toList ++ rest) = ⟨s, s.toList, rest⟩ := by
  rw [Reading.run_append h.2 hr, String.ofList_toList]

namespace Lexeme

/-! ## Signs -/

theorem text_sign (cs : List Char) : (sign cs).text = (signText (sign cs).value).toList := by
  fun_cases sign cs with
  | case1 => rfl
  | case2 c cs s hs =>
    rw [Sign.ofChar?_eq_some_iff.mp hs]
    simp [signText, Sign.text]
  | case3 => rfl

/-- A sign that is or is not there is read as such before a digit. -/
theorem sign_append (s : Option Sign) {rest : List Char} (h : ∀ c ∈ rest.head?, c.isDigit) :
    sign ((signText s).toList ++ rest) = ⟨s, (signText s).toList, rest⟩ := by
  cases s with
  | some s => cases s <;> rfl
  | none =>
    cases rest with
    | nil => rfl
    | cons c cs => simp [signText, sign, ofChar?_eq_none (not_isSign_of_isDigit (h c (by simp)))]

/-! ## Exponents -/

/-- An exponent that may be absent is written as nothing when it is. -/
def exponentText (e : Option Exponent) : String :=
  (e.map Exponent.text).getD ""

theorem toList_exponentText (e : Exponent) :
    (exponentText (some e)).toList =
      e.marker.char :: ((signText e.sign).toList ++ e.digits.toList) := by
  simp [exponentText, Exponent.text, ExponentMarker.text]

theorem exponent_sound {cs : List Char} {e : Option Exponent} :
    (exponent cs).value = .ok e →
      (∀ x ∈ e, x.WellFormed) ∧ (exponent cs).text = (exponentText e).toList := by
  fun_cases exponent cs with
  | case1 =>
    intro h
    cases h
    exact ⟨by simp, rfl⟩
  | case2 =>
    intro h
    cases h
    exact ⟨by simp, rfl⟩
  | case3 =>
    intro h
    cases h
  | case4 c cs m hm s digits he =>
    intro h
    cases h
    refine ⟨?_, ?_⟩
    · intro x hx
      cases hx
      exact isDigits_run (by simpa using he)
    · rw [toList_exponentText, ← ExponentMarker.ofChar?_eq_some_iff.mp hm, ← text_sign]
      simp [Reading.following, Reading.map, Reading.run, s, digits]

theorem stopsRun_exponentText (e : Option Exponent) {rest : List Char}
    (hr : StopsRun Char.isDigit rest) :
    StopsRun Char.isDigit ((exponentText e).toList ++ rest) := by
  cases e with
  | none => simpa [exponentText] using hr
  | some e =>
    rw [toList_exponentText, List.cons_append, stopsRun_cons]
    cases e.marker <;> decide

/-- An exponent is read where no digit carries it on, and where no marker begins one if it is
absent. -/
theorem exponent_append {e : Option Exponent} (he : ∀ x ∈ e, x.WellFormed) {rest : List Char}
    (hd : StopsRun Char.isDigit rest)
    (hm : e = none → ∀ c ∈ rest.head?, ExponentMarker.ofChar? c = none) :
    exponent ((exponentText e).toList ++ rest) = ⟨.ok e, (exponentText e).toList, rest⟩ := by
  cases e with
  | none =>
    cases rest with
    | nil => rfl
    | cons c cs => simp [exponentText, exponent, hm rfl c (by simp)]
  | some e =>
    have hdigits : IsDigits e.digits := he e rfl
    have hmarker := ExponentMarker.ofChar?_eq_some_iff.mpr (rfl : e.marker.char = e.marker.char)
    rw [toList_exponentText, List.cons_append, List.append_assoc]
    simp only [exponent, hmarker, sign_append e.sign (hdigits.head_append rest),
      run_digits hdigits hd, hdigits.isEmpty_eq_false]
    simp [Reading.following, Reading.map]

/-! ## What stands behind the whole part -/

end Lexeme

namespace Numeral

/-- Whether a character right behind a numeral would be read as a further part of it. -/
def goesOn : Numeral → Char → Bool
  | .integer _ _, c => c.isDigit || c = '.'
  | .decimal _ _ _ none, c => c.isDigit || (ExponentMarker.ofChar? c).isSome
  | .decimal _ _ _ (some _), c => c.isDigit

theorem goesOn_of_isDigit (n : Numeral) {c : Char} (h : c.isDigit) : n.goesOn c := by
  cases n with
  | integer s digits => simp [goesOn, h]
  | decimal s whole digits e => cases e <;> simp [goesOn, h]

theorem isSymbolPart_of_goesOn {n : Numeral} {c : Char} (h : n.goesOn c) : isSymbolPart c := by
  by_cases hd : c.isDigit
  · exact isSymbolPart_of_isDigit hd
  · cases n with
    | integer s digits =>
      obtain rfl : c = '.' := by simpa [goesOn, hd] using h
      decide
    | decimal s whole digits e =>
      cases e with
      | some e => simp [goesOn, hd] at h
      | none =>
        obtain ⟨m, hm⟩ : ∃ m, ExponentMarker.ofChar? c = some m := by
          simpa [goesOn, hd, Option.isSome_iff_exists] using h
        rw [ExponentMarker.ofChar?_eq_some_iff.mp hm]
        cases m <;> decide

theorem stopsRun_of_goesOn {n : Numeral} {rest : List Char}
    (h : ∀ c ∈ rest.head?, n.goesOn c = false) : StopsRun Char.isDigit rest := by
  intro c hc hd
  have hgo := n.goesOn_of_isDigit hd
  rw [h c hc] at hgo
  cases hgo

theorem goesOn_eq_false (n : Numeral) {rest : List Char} (hr : StopsRun isSymbolPart rest) :
    ∀ c ∈ rest.head?, n.goesOn c = false := by
  intro c hc
  apply Bool.eq_false_iff.mpr
  intro hgo
  exact hr c hc (isSymbolPart_of_goesOn hgo)

end Numeral

namespace Lexeme

@[simp] theorem text_numeralEnd (n : Numeral) (rest : List Char) :
    (numeralEnd n rest).text = [] := by
  fun_cases numeralEnd n rest <;> rfl

@[simp] theorem rest_numeralEnd (n : Numeral) (rest : List Char) :
    (numeralEnd n rest).rest = rest := by
  fun_cases numeralEnd n rest <;> rfl

theorem numeralEnd_sound {n m : Numeral} {rest : List Char} :
    (numeralEnd n rest).value = .ok m → m = n ∧ StopsRun isSymbolPart rest := by
  fun_cases numeralEnd n rest with
  | case1 =>
    intro h
    cases h
  | case2 hnone =>
    intro h
    cases h
    refine ⟨rfl, ?_⟩
    intro c hc hpart
    have hsome : rest.head?.filter isSymbolPart = some c :=
      Option.filter_eq_some_iff.mpr ⟨hc, hpart⟩
    rw [hnone] at hsome
    cases hsome

theorem numeralEnd_complete (n : Numeral) {rest : List Char} (hr : StopsRun isSymbolPart rest) :
    numeralEnd n rest = ⟨.ok n, [], rest⟩ := by
  cases rest with
  | nil => rfl
  | cons c cs => simp [numeralEnd, Option.filter, stopsRun_cons.mp hr]

theorem fraction_sound {s : Option Sign} {whole : String} {cs : List Char} {n : Numeral} :
    (fraction s whole cs).value = .ok n →
      ∃ digits e, n = .decimal s whole digits e ∧ IsDigits digits ∧ (∀ x ∈ e, x.WellFormed) ∧
        (fraction s whole cs).text = digits.toList ++ (exponentText e).toList ∧
        StopsRun isSymbolPart (fraction s whole cs).rest := by
  fun_cases fraction s whole cs with
  | case1 =>
    intro h
    cases h
  | case2 =>
    intro h
    cases h
  | case3 digits hd r e he =>
    intro h
    obtain ⟨rfl, hstop⟩ := numeralEnd_sound h
    obtain ⟨hwf, htext⟩ := exponent_sound he
    refine ⟨_, _, rfl, isDigits_run (by simpa using hd), hwf, ?_, ?_⟩
    · rw [← htext]
      simp [Reading.following, Reading.run, digits, r]
    · simpa [Reading.following] using hstop

theorem fraction_append {s : Option Sign} {whole digits : String} {e : Option Exponent}
    (hd : IsDigits digits) (he : ∀ x ∈ e, x.WellFormed) {rest : List Char}
    (hr : ∀ c ∈ rest.head?, (Numeral.decimal s whole digits e).goesOn c = false) :
    fraction s whole (digits.toList ++ ((exponentText e).toList ++ rest)) =
      (numeralEnd (.decimal s whole digits e) rest).following
        (digits.toList ++ (exponentText e).toList) := by
  have hstop : StopsRun Char.isDigit rest := Numeral.stopsRun_of_goesOn hr
  have hmarker : e = none → ∀ c ∈ rest.head?, ExponentMarker.ofChar? c = none := by
    rintro rfl c hc
    have hgo := hr c hc
    simp only [Numeral.goesOn, Bool.or_eq_false_iff] at hgo
    simpa using hgo.2
  simp only [fraction, run_digits hd (stopsRun_exponentText e hstop),
    exponent_append he hstop hmarker, hd.isEmpty_eq_false]
  simp

/-! ## Whole numerals -/

theorem toList_text_integer (s : Option Sign) (digits : String) :
    (Numeral.integer s digits).text.toList = (signText s).toList ++ digits.toList := by
  simp [Numeral.text]

theorem toList_text_decimal (s : Option Sign) (whole digits : String) (e : Option Exponent) :
    (Numeral.decimal s whole digits e).text.toList =
      (signText s).toList ++
        (whole.toList ++ '.' :: (digits.toList ++ (exponentText e).toList)) := by
  simp [Numeral.text, exponentText]

theorem isDigits_whole {cs : List Char} (h : beginsNumeral cs) :
    IsDigits (Reading.run Char.isDigit (sign cs).rest).value := by
  apply isDigits_run
  cases hs : (sign cs).rest with
  | nil => simp [beginsNumeral, hs] at h
  | cons d ds =>
    have hd : d.isDigit := by simpa [beginsNumeral, hs] using h
    simp [Reading.run, hd]

/-- A numeral that is read is well-formed, is spelled by what was taken, and ends there. -/
theorem numeral_sound {cs : List Char} {n : Numeral} (hb : beginsNumeral cs) :
    (numeral cs).value = .ok n →
      n.WellFormed ∧ (numeral cs).text = n.text.toList ∧
        StopsRun isSymbolPart (numeral cs).rest := by
  have hw := isDigits_whole hb
  fun_cases numeral cs with
  | case1 s whole rest hrest =>
    intro h
    obtain ⟨digits, e, rfl, hd, he, htext, hstop⟩ := fraction_sound h
    refine ⟨⟨hw, hd, he⟩, ?_, hstop⟩
    rw [toList_text_decimal, ← text_sign, ← htext]
    simp [Reading.following, Reading.run, s, whole]
  | case2 s whole =>
    intro h
    obtain ⟨rfl, hstop⟩ := numeralEnd_sound h
    refine ⟨hw, ?_, ?_⟩
    · rw [toList_text_integer, ← text_sign]
      simp [Reading.following, Reading.run, s, whole]
    · simpa [Reading.following] using hstop

/-- The text of a well-formed numeral is taken whole where nothing carries it on, and then its end
is looked at. -/
theorem numeral_append {n : Numeral} (hn : n.WellFormed) {rest : List Char}
    (hr : ∀ c ∈ rest.head?, n.goesOn c = false) :
    numeral (n.text.toList ++ rest) = (numeralEnd n rest).following n.text.toList := by
  have hstop : StopsRun Char.isDigit rest := Numeral.stopsRun_of_goesOn hr
  cases n with
  | integer s digits =>
    have hd : IsDigits digits := hn
    rw [toList_text_integer, List.append_assoc]
    simp only [numeral, sign_append s (hd.head_append rest), run_digits hd hstop]
    cases rest with
    | nil => rfl
    | cons c cs =>
      -- a point would carry the integer on to a fraction
      have hc : c ≠ '.' := by
        rintro rfl
        simpa [Numeral.goesOn] using hr '.' rfl
      simp [hc]
  | decimal s whole digits e =>
    obtain ⟨hw, hd, he⟩ := hn
    -- the digits of the whole part end at the point
    have hpoint : StopsRun Char.isDigit
        ('.' :: (digits.toList ++ ((exponentText e).toList ++ rest))) :=
      stopsRun_cons.mpr (by decide)
    rw [toList_text_decimal]
    simp only [List.append_assoc, List.cons_append]
    simp only [numeral, sign_append s (hw.head_append _), run_digits hw hpoint,
      fraction_append hd he hr]
    simp [Reading.following]

/-- A well-formed numeral is read from its own text where no symbol character touches it. -/
theorem numeral_complete {n : Numeral} (hn : n.WellFormed) {rest : List Char}
    (hr : StopsRun isSymbolPart rest) :
    numeral (n.text.toList ++ rest) = ⟨.ok n, n.text.toList, rest⟩ := by
  rw [numeral_append hn (n.goesOn_eq_false hr), numeralEnd_complete n hr]
  simp [Reading.following]

theorem beginsNumeral_digits (s : Option Sign) {digits : String} (hd : IsDigits digits)
    (rest : List Char) : beginsNumeral ((signText s).toList ++ (digits.toList ++ rest)) := by
  obtain ⟨d, ds, hds, hdigit⟩ := hd.cons
  rw [beginsNumeral, sign_append s (hd.head_append rest)]
  simp [hds, hdigit]

theorem beginsNumeral_text {n : Numeral} (hn : n.WellFormed) (rest : List Char) :
    beginsNumeral (n.text.toList ++ rest) := by
  cases n with
  | integer s digits =>
    rw [toList_text_integer, List.append_assoc]
    exact beginsNumeral_digits s hn rest
  | decimal s whole digits e =>
    rw [toList_text_decimal, List.append_assoc, List.append_assoc]
    exact beginsNumeral_digits s hn.1 _

end Lexeme

end Sexp
