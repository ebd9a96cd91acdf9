import Sexp.Proofs.Completion

/-! # Where errors point

Every error of a source lies at a place of the source, and the character that is at fault stands
there: `Cause.Shows` says for each cause what has to be seen.

Places come from `Position.after`, which counts the characters passed over.  A token keeps the place
where it was gathered (`Scan.Reaches.exists_place`), so an error about a bracket is settled by the
token it blames; an error of the scan is settled by the text that is broken (`Lexeme.Broken.shows`).
-/

namespace Sexp

/-! ## Places of a text -/

namespace Position

/-- A place of a text: its line and column are what the characters before it make them. -/
structure PointsInto (p : Position) (text : List Char) : Prop where
  offset_le : p.offset ≤ text.length
  line_eq : p.line = 1 + (text.take p.offset).count '\n'
  column_eq : p.column = 1 + ((text.take p.offset).reverse.takeWhile (· ≠ '\n')).length

@[simp]
theorem offset_start : start.offset = 0 := rfl

theorem after_snoc (p : Position) (text : List Char) (c : Char) :
    p.after (text ++ [c]) = (p.after text).next c := by
  rw [after_append]
  rfl

theorem line_after (p : Position) (text : List Char) :
    (p.after text).line = p.line + text.count '\n' := by
  induction text generalizing p with
  | nil => rfl
  | cons c text ih =>
    rw [after_cons, ih]
    by_cases hc : c = '\n'
    · simp [next, hc]
      omega
    · simp [next, hc]

/-- Columns are counted back from the end, up to the newline before it. -/
theorem column_start_after_reverse (text : List Char) :
    (start.after text.reverse).column = 1 + (text.takeWhile (· ≠ '\n')).length := by
  induction text with
  | nil => rfl
  | cons c text ih =>
    rw [List.reverse_cons, after_snoc]
    by_cases hc : c = '\n'
    · simp [next, hc]
    · simp [next, hc, ih]
      omega

theorem pointsInto_after (before rest : List Char) :
    (start.after before).PointsInto (before ++ rest) := by
  have htake : (before ++ rest).take (start.after before).offset = before := by simp
  refine ⟨by simp, ?_, ?_⟩
  · rw [htake, line_after]
    rfl
  · rw [htake, ← column_start_after_reverse, List.reverse_reverse]

/-- A fault is reported where its text begins or where it ends. -/
theorem pointsInto_faultPosition (before text rest : List Char) (cause : Cause) :
    (Scan.faultPosition (start.after before) ((start.after before).after text) cause).PointsInto
      (before ++ (text ++ rest)) := by
  unfold Scan.faultPosition
  split
  next =>
    rw [← after_append, ← List.append_assoc]
    exact pointsInto_after _ _
  next => exact pointsInto_after _ _

end Position

/-! ## What a cause shows -/

/-- How a malformed number shows in the character before its place and in the one at it, which is
absent at the end of the text. -/
def NumberShows (reason : String) (last : Char) (next : Option Char) : Prop :=
  reason = "expected a digit after the decimal point" ∧ last = '.' ∧ (∀ c ∈ next, ¬ c.isDigit) ∨
  reason = "expected exponent digits" ∧ last ∈ ['e', 'E', '+', '-'] ∧ (∀ c ∈ next, ¬ c.isDigit) ∨
  ∃ c, reason = "unexpected " ++ quotedChar c ++ " after number" ∧ last.isDigit ∧
    next = some c ∧ isSymbolPart c

/-- What a cause shows in a text at the offset `o` of its error and next to it. -/
def Cause.Shows (text : List Char) (o : Nat) : Cause → Prop
  | .unterminatedString => text[o]? = some '"' ∧
      ∀ j, o < j → text[j]? = some '"' → text[j - 1]? = some '\\'
  | .emptyKeyword => text[o]? = some ':' ∧ ∀ c ∈ text[o + 1]?, ¬ isSymbolPart c
  | .unclosedDelimiter d => text[o]? = some d.opening
  | .mismatchedDelimiter expected found => text[o]? = some found.closing ∧ expected ≠ found
  | .invalidCharacter c => text[o]? = some c ∧ (c = ')' ∨ c = ']' ∨ Lexeme.BeginsNothing c)
  | .malformedNumber reason =>
      1 ≤ o ∧ ∃ last, text[o - 1]? = some last ∧ NumberShows reason last text[o]?

/-! ## Numbers show their last character -/

theorem IsDigits.exists_getLast {s : String} (h : IsDigits s) :
    ∃ d, s.toList.getLast? = some d ∧ d.isDigit := by
  obtain ⟨d, ds, hs, -⟩ := h.cons
  have hlast := List.getLast?_eq_some_getLast (List.cons_ne_nil d ds)
  rw [hs]
  exact ⟨_, hlast, h.2 _ (by rw [hs]; exact List.mem_of_getLast? hlast)⟩

theorem Numeral.exists_getLast {n : Numeral} (h : n.WellFormed) :
    ∃ d, n.text.toList.getLast? = some d ∧ d.isDigit := by
  cases n with
  | integer s digits =>
    obtain ⟨d, hlast, hdigit⟩ := IsDigits.exists_getLast h
    exact ⟨d, by simp [Lexeme.toList_text_integer, hlast], hdigit⟩
  | decimal s whole digits e =>
    obtain ⟨-, hdigits, he⟩ := h
    cases e with
    | none =>
      obtain ⟨d, hlast, hdigit⟩ := hdigits.exists_getLast
      refine ⟨d, ?_, hdigit⟩
      simp [Lexeme.toList_text_decimal, Lexeme.exponentText, List.getLast?_cons, hlast]
    | some e =>
      obtain ⟨d, hlast, hdigit⟩ := IsDigits.exists_getLast (he e rfl)
      refine ⟨d, ?_, hdigit⟩
      simp [Lexeme.toList_text_decimal, Lexeme.toList_exponentText, List.getLast?_cons, hlast]

theorem Numeral.BreaksOff.exists_getLast {text rest : List Char} {fault : Numeral.Fault}
    (h : Numeral.BreaksOff text rest fault) :
    ∃ last, text.getLast? = some last ∧ NumberShows fault.reason last rest.head? := by
  cases h with
  | fraction hw hr => exact ⟨'.', by simp, .inl ⟨rfl, rfl, hr⟩⟩
  | @exponent s whole digits m es _ hw hd hs hr =>
    cases es with
    | none =>
      refine ⟨m.char, by simp [signText, List.getLast?_cons], .inr (.inl ⟨rfl, ?_, hr⟩)⟩
      cases m <;> decide
    | some es =>
      refine ⟨es.char, by simp [signText, Sign.text, List.getLast?_cons],
        .inr (.inl ⟨rfl, ?_, hr⟩)⟩
      cases es <;> decide
  | @trailing n c rest hn hc hstop =>
    obtain ⟨d, hlast, hdigit⟩ := Numeral.exists_getLast hn
    exact ⟨d, hlast, .inr (.inr ⟨c, rfl, hdigit, rfl, hc⟩)⟩

/-! ## Broken lexemes show their cause -/

/-- A quote in a string without an end stands behind a backslash. -/
theorem Shields.getElem?_before {prev : Char} {cs : List Char} (h : Shields (some prev) cs)
    {k : Nat} (hk : cs[k]? = some '"') : (prev :: cs)[k]? = some '\\' := by
  induction cs generalizing prev k with
  | nil => simp at hk
  | cons c cs ih =>
    obtain ⟨hc, hcs⟩ := h
    cases k with
    | zero => simpa using hc (by simpa using hk)
    | succ k => exact ih hcs (by simpa using hk)

/-- The quote that opens a string shields nothing. -/
theorem Shields.behind_quote {cs : List Char} (h : Shields none cs) : Shields (some '"') cs := by
  cases cs with
  | nil => simp [Shields]
  | cons c cs =>
    obtain ⟨hc, hcs⟩ := h
    exact ⟨fun hquote => absurd (hc hquote) (by simp), hcs⟩

/-- Offsets behind the front of a text are offsets in what follows it. -/
theorem getElem?_behind (before text : List Char) (k : Nat) :
    (before ++ text)[before.length + k]? = text[k]? := by
  rw [List.getElem?_append_right (by omega), Nat.add_sub_cancel_left]

theorem Cause.shows_unterminatedString {body : List Char} (h : Shields none (body ++ [' ']))
    (before : List Char) :
    Cause.Shows (before ++ '"' :: body) before.length .unterminatedString := by
  refine ⟨by simp, ?_⟩
  intro j hj hquote
  obtain ⟨k, rfl⟩ : ∃ k, j = before.length + (k + 1) := ⟨j - before.length - 1, by omega⟩
  rw [getElem?_behind, List.getElem?_cons_succ] at hquote
  have hk : k < body.length := (List.getElem?_eq_some_iff.mp hquote).1
  have hbefore : ('"' :: (body ++ [' ']))[k]? = some '\\' := by
    apply h.behind_quote.getElem?_before
    rwa [List.getElem?_append_left hk]
  -- the blank behind the body is out of reach
  have hk' : k < ('"' :: body).length := by
    rw [List.length_cons]
    omega
  rw [← List.cons_append, List.getElem?_append_left hk'] at hbefore
  rw [← Nat.add_assoc, Nat.add_sub_cancel, getElem?_behind]
  exact hbefore

theorem Cause.shows_malformedNumber {text rest : List Char} {fault : Numeral.Fault}
    (h : Numeral.BreaksOff text rest fault) (before : List Char) :
    Cause.Shows (before ++ (text ++ rest)) (before.length + text.length)
      (.malformedNumber fault.reason) := by
  obtain ⟨last, hlast, hshows⟩ := h.exists_getLast
  rw [List.getLast?_eq_getElem?] at hlast
  have hlen : text.length - 1 < text.length := (List.getElem?_eq_some_iff.mp hlast).1
  refine ⟨by omega, last, ?_, ?_⟩
  · rw [Nat.add_sub_assoc (by omega), getElem?_behind, List.getElem?_append_left hlen, hlast]
  · rw [getElem?_behind, List.getElem?_append_right (Nat.le_refl _), Nat.sub_self,
      ← List.head?_eq_getElem?]
    exact hshows

/-- What is broken shows its cause at the place where it is reported. -/
theorem Lexeme.Broken.shows {text rest : List Char} {cause : Cause}
    (h : Lexeme.Broken text rest cause) (before : List Char) :
    cause.Shows (before ++ (text ++ rest)) (Scan.faultPosition (Position.start.after before)
      ((Position.start.after before).after text) cause).offset := by
  cases h with
  | string h => simpa [Scan.faultPosition] using Cause.shows_unterminatedString h before
  | keyword h =>
    have hnext : ∀ c ∈ (before ++ ([':'] ++ rest))[before.length + 1]?, ¬ isSymbolPart c := by
      rw [getElem?_behind]
      simpa [StopsRun, List.head?_eq_getElem?] using h
    simpa [Scan.faultPosition, Cause.Shows] using hnext
  | numeral h => simpa [Scan.faultPosition] using Cause.shows_malformedNumber h before
  | character h => simp [Scan.faultPosition, Cause.Shows, h]

namespace Form

/-- A token of one character that was gathered shows it at its place. -/
theorem token_shows {source : String} {ts : List Token} {s : Scan} {t : Token} {u : Terminal}
    {c : Char} (hreach : Scan.Reaches (.ofSource source) ts s) (ht : t ∈ ts)
    (hkind : t.kind = .terminal u) (hu : u.text = c.toString) :
    t.position.PointsInto source.toList ∧ source.toList[t.position.offset]? = some c := by
  obtain ⟨before, u', rest, hkind', hsource, hplace⟩ := hreach.exists_place ht
  obtain rfl : u = u' := Token.Kind.terminal.inj (hkind.symm.trans hkind')
  change source.toList = _ at hsource
  change t.position = Position.start.after before at hplace
  rw [hsource, hplace]
  exact ⟨Position.pointsInto_after _ _, by simp [hu]⟩

/-- Every error of a source lies at a place of the source, with the line and column that the
characters before it make, and what its cause names stands at that place. -/
theorem read_error_shows {source : String} {e : Error} (h : read source = .error e) :
    e.position.PointsInto source.toList ∧ e.cause.Shows source.toList e.position.offset := by
  obtain ⟨ts, s, hreach, hend | ⟨e', next, hfail⟩⟩ := (Scan.ofSource source).run_cases
  · have hout := outcome_of_end hreach hend
    rw [h] at hout
    cases hout with
    | @unclosed d p hc hb hl =>
      obtain ⟨before, opener, after, rfl, hkind, rfl, -, -⟩ := hl
      exact token_shows hreach (by simp) hkind rfl
    | @stray before closer d hf hk ha =>
      have hmem : closer ∈ ts := hf.begins.subset (by simp)
      obtain ⟨hpoints, hshows⟩ := token_shows (c := d.closing) hreach hmem hk rfl
      refine ⟨hpoints, hshows, ?_⟩
      cases d with
      | paren => exact .inl rfl
      | bracket => exact .inr (.inl rfl)
    | @mismatched before closer expected found p hf hk hl hne =>
      have hmem : closer ∈ ts := hf.begins.subset (by simp)
      obtain ⟨hpoints, hshows⟩ := token_shows (c := found.closing) hreach hmem hk rfl
      exact ⟨hpoints, hshows, hne⟩
  · have hread := read_of_scan_error (hreach.scan_of_failed hfail)
    obtain rfl : e' = e := Except.error.inj (hread.symm.trans h)
    obtain ⟨before, hbefore, hplace⟩ := hreach.exists_text
    obtain ⟨text, hrest, hbroken, hstop, -, hfault⟩ := Scan.step_failed_sound hfail
    have hsource : source.toList = before ++ (text ++ next.rest) := by
      rw [← hrest, ← hbefore]
      rfl
    rw [hfault, hstop, hplace, hsource]
    exact ⟨Position.pointsInto_faultPosition .., hbroken.shows before⟩

theorem read_error_shows_third_line :
    read "\"a\n\\\"b\"\n ([)" = .error ⟨.mismatchedDelimiter .bracket .paren, ⟨11, 3, 4⟩⟩ ∧
      Position.PointsInto ⟨11, 3, 4⟩ "\"a\n\\\"b\"\n ([)".toList ∧
      "\"a\n\\\"b\"\n ([)".toList[11]? = some ')' := by
  have hread : read "\"a\n\\\"b\"\n ([)" =
      .error ⟨.mismatchedDelimiter .bracket .paren, ⟨11, 3, 4⟩⟩ := by
    cbv
  obtain ⟨hpoints, hshows, -⟩ := read_error_shows hread
  exact ⟨hread, hpoints, hshows⟩

end Form

end Sexp
