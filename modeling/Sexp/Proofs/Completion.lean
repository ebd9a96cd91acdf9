import Sexp.Proofs.Brackets
import Sexp.Proofs.OnePass

/-! # Sources that can be completed

A source that cannot be read may still begin one that can.  What its scan has gathered decides,
together with what the scan stopped at:

* where the brackets gathered are `Completable`, brackets complete the source, behind the rest of
  the lexeme it breaks off in, if it does (`exists_read_of_end`, `exists_read_of_broken`);
* where they are not, every longer source gathers the same closer at fault
  (`completable_of_read_append`);
* a fault of a lexeme that some character has decided stays as it is (`read_append_of_failed`).

No source escapes these cases, so `exists_read_append_iff` needs no more than `Scan.run_cases`.
-/

namespace Sexp

open Token (brackets beforeEnd behindEnd)

/-! ## Brackets as text -/

/-- The terminal a bracket is. -/
def Bracket.terminal : Bracket → Terminal
  | .opening d => .opening d
  | .closing d => .closing d

/-- The pieces of a row of brackets. -/
def bracketPieces (w : List Bracket) : List Piece :=
  w.map fun b => .terminal b.terminal

theorem valid_bracketPieces (w : List Bracket) : ∀ p ∈ bracketPieces w, p.Valid := by
  intro p hp
  obtain ⟨b, -, rfl⟩ := List.mem_map.mp hp
  cases b <;> trivial

theorem parted_bracketPieces (w : List Bracket) : Parted (bracketPieces w) := by
  induction w with
  | nil => trivial
  | cons b w ih =>
    refine ⟨?_, ih⟩
    cases b <;> simp [Bracket.terminal, Piece.runsOn]

theorem stopsRun_bracketPieces (w : List Bracket) :
    StopsRun isSymbolPart (piecesText (bracketPieces w)) := by
  cases w with
  | nil => exact stopsRun_nil _
  | cons b w =>
    rw [bracketPieces, List.map_cons, piecesText_cons]
    rcases b with (_ | _) | (_ | _) <;> exact stopsRun_cons.mpr (by decide)

theorem brackets_bracketPieces (pos : Position) (w : List Bracket) :
    brackets (beforeEnd (piecesTokens pos (bracketPieces w))) = w := by
  induction w generalizing pos with
  | nil => rfl
  | cons b w ih =>
    have hrest := ih (pos.after b.terminal.text.toList)
    rw [bracketPieces, List.map_cons, piecesTokens, Token.beforeEnd_cons rfl]
    cases b with
    | opening d =>
      rw [Token.brackets_cons_opening rfl]
      exact congrArg _ hrest
    | closing d =>
      rw [Token.brackets_cons_closing rfl]
      exact congrArg _ hrest

/-! ## Which tokens can be completed -/

/-- Only terminals are gathered, so the end mark stands in what follows. -/
theorem Scan.Reaches.beforeEnd_append {s s' : Scan} {ts : List Token} (h : Reaches s ts s')
    (us : List Token) : beforeEnd (ts ++ us) = ts ++ beforeEnd us := by
  apply List.takeWhile_append_of_pos
  intro t ht
  obtain ⟨-, u, -, hkind, -, -⟩ := h.exists_place ht
  simp [hkind]

theorem Scan.Reaches.beforeEnd_eq {s s' : Scan} {ts : List Token} (h : Reaches s ts s') :
    beforeEnd ts = ts := by
  simpa [beforeEnd] using h.beforeEnd_append []

theorem Scan.Reaches.beforeEnd_mark {s s' : Scan} {ts : List Token} (h : Reaches s ts s')
    (p : Position) : beforeEnd (ts ++ [Token.atEnd p]) = ts := by
  rw [h.beforeEnd_append]
  exact List.append_nil ts

theorem Scan.Reaches.behindEnd_mark {s s' : Scan} {ts : List Token} (h : Reaches s ts s')
    (p : Position) : behindEnd (ts ++ [Token.atEnd p]) = [] := by
  have hkinds : ∀ t ∈ ts, t.kind ≠ .eof := by
    rw [← h.beforeEnd_eq]
    exact Token.kind_ne_eof_of_mem_beforeEnd ts
  rw [behindEnd, List.dropWhile_append_of_pos (by simpa using hkinds)]
  rfl

namespace Form

theorem exists_parse_iff_balanced (ts : List Token) :
    (∃ fs, (parse ts).1 = .ok fs) ↔ Balanced (brackets (beforeEnd ts)) := by
  have hout := parse_outcome ts
  generalize (parse ts).1 = r at hout ⊢
  cases hout with
  | nested hb => simp [hb]
  | unclosed hc hb hl => simp [hb]
  | stray hf hk ha => simp [hf.not_balanced]
  | mismatched hf hk hl hne => simp [hf.not_balanced]

/-- A parse stops at no closer exactly if its brackets can be completed. -/
theorem parse_iff_completable (ts : List Token) :
    ((∃ fs, (parse ts).1 = .ok fs) ∨ ∃ d p, (parse ts).1 = .error ⟨.unclosedDelimiter d, p⟩) ↔
      Completable (brackets (beforeEnd ts)) := by
  have hout := parse_outcome ts
  generalize (parse ts).1 = r at hout ⊢
  cases hout with
  | nested hb => simp [hb.completable]
  | unclosed hc hb hl => simp [hc]
  | stray hf hk ha => simp [hf.not_completable_row]
  | mismatched hf hk hl hne => simp [hf.not_completable_row]

theorem exists_firstFault {ts : List Token} (h : ¬ Completable (brackets (beforeEnd ts))) :
    ∃ before closer d, Token.FirstFault (beforeEnd ts) before closer ∧
      closer.kind = .terminal (.closing d) := by
  have hout := parse_outcome ts
  generalize (parse ts).1 = r at hout
  cases hout with
  | nested hb => exact absurd hb.completable h
  | unclosed hc hb hl => exact absurd hc h
  | stray hf hk ha => exact ⟨_, _, _, hf, hk⟩
  | mismatched hf hk hl hne => exact ⟨_, _, _, hf, hk⟩

/-- A source that is scanned to its end is read as its tokens are parsed. -/
theorem outcome_of_end {source : String} {ts : List Token} {s : Scan}
    (hreach : Scan.Reaches (.ofSource source) ts s) (hend : s.rest = []) :
    Outcome ts (read source) := by
  have hout := parse_outcome (ts ++ [Token.atEnd s.position])
  rwa [hreach.beforeEnd_mark, ← read_of_scan_ok (hreach.scan_of_end hend)] at hout

/-! ## Sources that lead to forms -/

theorem exists_read_of_pieces {source : String} {ts : List Token} {s : Scan} {ps : List Piece}
    (hreach : Scan.Reaches (.ofSource source) ts s) (hvalid : ∀ p ∈ ps, p.Valid)
    (hparted : Parted ps) (hs : s.rest = piecesText ps)
    (hb : Balanced (brackets ts ++ brackets (beforeEnd (piecesTokens s.position ps)))) :
    ∃ fs, read source = .ok fs := by
  have hscan : Token.scan source = .ok (ts ++ piecesTokens s.position ps) := by
    rw [Token.scan, hreach.run_eq, Scan.run_complete hvalid hparted hs, hreach.gathered_ofSource]
  rw [read_of_scan_ok hscan, exists_parse_iff_balanced, hreach.beforeEnd_append,
    Token.brackets_append]
  exact hb

/-- The tokens gathered on the way through a source that can be read can be completed. -/
theorem completable_of_read {source : String} {ts : List Token} {s : Scan} {fs : List Form}
    (hreach : Scan.Reaches (.ofSource source) ts s) (h : read source = .ok fs) :
    Completable (brackets ts) := by
  cases hscan : Token.scan source with
  | error e =>
    rw [read_of_scan_error hscan] at h
    cases h
  | ok us =>
    have hb := (exists_parse_iff_balanced us).mp ⟨fs, (read_of_scan_ok hscan).symm.trans h⟩
    obtain ⟨more, rfl⟩ := hreach.exists_append_of_scan hscan
    rw [hreach.beforeEnd_append, Token.brackets_append] at hb
    exact hb.completable.of_append

end Form

/-! ## Lexemes that break off -/

/-- A cause that lies with a lexeme that began and did not end. -/
def Cause.BreaksLexeme : Cause → Prop
  | .unterminatedString | .emptyKeyword | .malformedNumber _ => True
  | _ => False

/-- A lexeme is broken off, or else it is a character that begins none. -/
theorem Lexeme.Broken.breaksLexeme_iff {text rest : List Char} {cause : Cause}
    (h : Lexeme.Broken text rest cause) :
    cause.BreaksLexeme ↔ ∀ c, cause ≠ .invalidCharacter c := by
  cases h <;> simp [Cause.BreaksLexeme]

theorem Lexeme.Broken.ne_unclosedDelimiter {text rest : List Char} {cause : Cause}
    (h : Lexeme.Broken text rest cause) (d : Delimiter) : cause ≠ .unclosedDelimiter d := by
  cases h <;> simp

namespace Form

/-! ## Longer sources -/

theorem reaches_append {source : String} {ts : List Token} {s : Scan}
    (hreach : Scan.Reaches (.ofSource source) ts s) (t : String)
    (ht : s.rest = [] → StopsRun isSymbolPart t.toList) :
    Scan.Reaches (.ofSource (source ++ t)) ts (s.extend t.toList) := by
  have hlonger : (Scan.ofSource source).extend t.toList = .ofSource (source ++ t) := by
    simp [Scan.extend, Scan.ofSource]
  rw [← hlonger]
  exact hreach.extend ht

/-- Whatever is added to a source, a closer at fault among the tokens gathered from it is gathered
again, so that the longer source can be read only if there is none. -/
theorem completable_of_read_append {source t : String} {ts : List Token} {s : Scan}
    {fs : List Form} (hreach : Scan.Reaches (.ofSource source) ts s)
    (h : read (source ++ t) = .ok fs) : Completable (brackets ts) := by
  have hrow := hreach.beforeEnd_eq
  by_cases hc : Completable (brackets ts)
  · exact hc
  · rw [← hrow] at hc
    obtain ⟨before, closer, d, hfault, hkind⟩ := exists_firstFault hc
    obtain ⟨after, hafter⟩ := hfault.begins
    rw [hrow, List.append_assoc, List.singleton_append] at hafter
    subst hafter
    obtain ⟨s₁, s₂, hbefore, hmoved, -⟩ := hreach.exists_step
    have hne : s₁.rest ≠ [] := by
      intro hempty
      rw [Scan.step_eq_finished.mpr hempty] at hmoved
      cases hmoved
    have hlonger := (reaches_append hbefore t (absurd · hne)).trans
      (.step (Scan.step_closing_extend hmoved hkind t.toList) (.refl _))
    exact absurd (completable_of_read hlonger h) hfault.not_completable

/-- At the end of a source, the missing closers complete it. -/
theorem exists_read_of_end {source : String} {ts : List Token} {s : Scan}
    (hreach : Scan.Reaches (.ofSource source) ts s) (hend : s.rest = [])
    (hc : Completable (brackets ts)) : ∃ t fs, read (source ++ t) = .ok fs := by
  obtain ⟨w, hb⟩ := hc
  let added := piecesText (bracketPieces w)
  have hlonger := reaches_append hreach (String.ofList added) fun _ => by
    simpa [added] using stopsRun_bracketPieces w
  refine ⟨String.ofList added, exists_read_of_pieces hlonger (valid_bracketPieces w)
    (parted_bracketPieces w) ?_ ?_⟩
  · simp [Scan.extend, hend, added]
  · rwa [brackets_bracketPieces]

/-- In a lexeme that breaks off at the end of a source, what it lacks and the missing closers
complete the source. -/
theorem exists_read_of_broken {source : String} {ts : List Token} {s next : Scan} {e : Error}
    (hreach : Scan.Reaches (.ofSource source) ts s) (hfail : s.step = .failed e next)
    (hend : next.rest = []) (hcause : ∀ c, e.cause ≠ .invalidCharacter c)
    (hc : Completable (brackets ts)) : ∃ t fs, read (source ++ t) = .ok fs := by
  obtain ⟨w, hb⟩ := hc
  obtain ⟨text, hrest, hbroken, -⟩ := Scan.step_failed_sound hfail
  rw [hend] at hrest hbroken
  obtain ⟨a, missing, ha, htext⟩ := hbroken.exists_atom hcause
  let pieces := .terminal (.atom a) :: bracketPieces w
  let added := missing ++ piecesText (bracketPieces w)
  have hne : s.rest ≠ [] := Scan.rest_ne_nil_of_failed hfail
  have hlonger := reaches_append hreach (String.ofList added) (absurd · hne)
  have htext' : (s.extend (String.ofList added).toList).rest = piecesText pieces := by
    simp [Scan.extend, hrest, pieces, added, piecesText_cons, Piece.text, Terminal.text, htext]
  refine ⟨String.ofList added, exists_read_of_pieces hlonger ?_ ?_ htext' ?_⟩
  · simpa [pieces] using ⟨ha, valid_bracketPieces w⟩
  · exact ⟨fun _ => stopsRun_bracketPieces w, parted_bracketPieces w⟩
  · rw [piecesTokens, Token.beforeEnd_cons rfl, Token.brackets_cons_atom rfl,
      brackets_bracketPieces]
    exact hb

theorem exists_read_append_iff_of_end {source : String} {ts : List Token} {s : Scan}
    (hreach : Scan.Reaches (.ofSource source) ts s) (hend : s.rest = []) :
    (∃ t fs, read (source ++ t) = .ok fs) ↔ Completable (brackets ts) := by
  constructor
  · rintro ⟨t, fs, h⟩
    exact completable_of_read_append hreach h
  · exact exists_read_of_end hreach hend

/-- A fault of a lexeme that a character has decided is the fault of every longer source. -/
theorem read_append_of_failed {source : String} {ts : List Token} {s next : Scan} {e : Error}
    (hreach : Scan.Reaches (.ofSource source) ts s) (hfail : s.step = .failed e next)
    (hdecided : next.rest ≠ [] ∨ ∃ c, e.cause = .invalidCharacter c) (t : String) :
    read (source ++ t) = .error e := by
  have hne : s.rest ≠ [] := Scan.rest_ne_nil_of_failed hfail
  have hlonger := reaches_append hreach t (absurd · hne)
  exact read_of_scan_error
    (hlonger.scan_of_failed (Scan.step_failed_extend hfail hdecided t.toList))

theorem exists_read_append_iff_of_failed {source : String} {ts : List Token} {s next : Scan}
    {e : Error} (hreach : Scan.Reaches (.ofSource source) ts s) (hfail : s.step = .failed e next) :
    (∃ t fs, read (source ++ t) = .ok fs) ↔
      e.cause.BreaksLexeme ∧ next.rest = [] ∧ Completable (brackets ts) := by
  obtain ⟨text, -, hbroken, -⟩ := Scan.step_failed_sound hfail
  constructor
  · rintro ⟨t, fs, h⟩
    -- had a character decided the fault, the longer source would have it too
    have hopen : ¬ (next.rest ≠ [] ∨ ∃ c, e.cause = .invalidCharacter c) := by
      intro hdecided
      rw [read_append_of_failed hreach hfail hdecided t] at h
      cases h
    simp only [not_or, not_exists, Decidable.not_not] at hopen
    exact ⟨hbroken.breaksLexeme_iff.mpr hopen.2, hopen.1, completable_of_read_append hreach h⟩
  · rintro ⟨hcause, hend, hc⟩
    exact exists_read_of_broken hreach hfail hend (hbroken.breaksLexeme_iff.mp hcause) hc

/-- A source that cannot be read can be completed exactly if only closers are missing, or if it
breaks off in a string, a keyword or a numeral and the tokens before that hold no closer at fault.
A fault of a lexeme that does not lie at the end of the source, or lies with a single character,
stays the same whatever is added. -/
theorem exists_read_append_iff (source : String) :
    (∀ e, read source = .error e →
      ((∃ t fs, read (source ++ t) = .ok fs) ↔
        (∃ d, e.cause = .unclosedDelimiter d) ∨
          e.cause.BreaksLexeme ∧ (Scan.ofSource source).run.2.rest = [] ∧
            ((∃ fs, (parse (Scan.ofSource source).run.2.gathered.reverse).1 = .ok fs) ∨
              ∃ d p, (parse (Scan.ofSource source).run.2.gathered.reverse).1 =
                .error ⟨.unclosedDelimiter d, p⟩))) ∧
      ∀ e, Token.scan source = .error e →
        ((∃ c, e.cause = .invalidCharacter c) ∨ (Scan.ofSource source).run.2.rest ≠ []) →
          ∀ t, read (source ++ t) = .error e := by
  obtain ⟨ts, s, hreach, hend | ⟨e, next, hfail⟩⟩ := (Scan.ofSource source).run_cases
  · refine ⟨?_, by simp [hreach.scan_of_end hend]⟩
    intro e he
    rw [exists_read_append_iff_of_end hreach hend]
    have hout := outcome_of_end hreach hend
    rw [he] at hout
    cases hout with
    | unclosed hc hb hl => simp [hc]
    | stray hf hk ha => simp [hf.not_completable_row, Cause.BreaksLexeme]
    | mismatched hf hk hl hne => simp [hf.not_completable_row, Cause.BreaksLexeme]
  · have hscan := hreach.scan_of_failed hfail
    obtain ⟨text, -, hbroken, -, hgathered, -⟩ := Scan.step_failed_sound hfail
    rw [hreach.run_of_failed hfail, hgathered, hreach.gathered_ofSource, parse_iff_completable,
      hreach.beforeEnd_eq]
    refine ⟨?_, ?_⟩
    · intro e' he
      obtain rfl : e = e' := Except.error.inj ((read_of_scan_error hscan).symm.trans he)
      rw [exists_read_append_iff_of_failed hreach hfail]
      simp [hbroken.ne_unclosedDelimiter]
    · intro e' he hdecided
      obtain rfl : e = e' := Except.error.inj (hscan.symm.trans he)
      exact read_append_of_failed hreach hfail hdecided.symm

/-- The same fault at the end of two sources: one lacks closers, the other has one at fault. -/
theorem exists_read_append_iff_exponent :
    (read "([1.5e" = .error ⟨.malformedNumber "expected exponent digits", ⟨6, 1, 7⟩⟩ ∧
      ∃ t fs, read ("([1.5e" ++ t) = .ok fs) ∧
    read "(]1.5e" = .error ⟨.malformedNumber "expected exponent digits", ⟨6, 1, 7⟩⟩ ∧
      ¬ ∃ t fs, read ("(]1.5e" ++ t) = .ok fs := by
  have hopen : read "([1.5e" = .error ⟨.malformedNumber "expected exponent digits", ⟨6, 1, 7⟩⟩ := by
    cbv
  have hwaits : (parse (Scan.ofSource "([1.5e").run.2.gathered.reverse).1 =
      .error ⟨.unclosedDelimiter .bracket, ⟨1, 1, 2⟩⟩ := by
    cbv
  have hrest : (Scan.ofSource "([1.5e").run.2.rest = [] := by cbv
  have hcrossed :
      read "(]1.5e" = .error ⟨.malformedNumber "expected exponent digits", ⟨6, 1, 7⟩⟩ := by
    cbv
  have hfault : (parse (Scan.ofSource "(]1.5e").run.2.gathered.reverse).1 =
      .error ⟨.mismatchedDelimiter .paren .bracket, ⟨1, 1, 2⟩⟩ := by
    cbv
  refine ⟨⟨hopen, ?_⟩, hcrossed, ?_⟩
  · exact ((exists_read_append_iff _).1 _ hopen).mpr (.inr ⟨trivial, hrest, .inr ⟨_, _, hwaits⟩⟩)
  · rw [(exists_read_append_iff _).1 _ hcrossed, hfault]
    simp

end Form

end Sexp
