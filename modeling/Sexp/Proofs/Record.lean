import Sexp.Proofs.Extents
import Sexp.Trace

/-! # The record of a reading tells what the reading did

`Trace.scan` goes the way of the scan that it records, so what it notes is read off that way
(`scan_of_reaches`): one event for each token gathered, and how the way ended.

What a scan has gathered before a lexeme breaks off depends on nothing from that lexeme on.
`Reaches.of_extend` takes characters away at the end of a source, against `Reaches.extend`, which
adds them: the last token before the cut ends there too, since no character follows it.
-/

namespace Sexp

namespace Scan

/-! ## Shorter sources -/

theorem eq_of_extend_eq {s s' : Scan} {t : List Char} (h : s.extend t = s'.extend t) :
    s = s' := by
  obtain ⟨rest, place, gathered⟩ := s
  obtain ⟨rest', place', gathered'⟩ := s'
  simpa [extend] using h

theorem step_of_step_extend {s next : Scan} {token : Option Token} {t : List Char}
    (h : (s.extend t).step = .moved token (next.extend t)) : s.step = .moved token next := by
  obtain ⟨p, hp, hrest, hstop, rfl, hnext⟩ := step_sound h
  have hlonger : s.rest ++ t = p.text ++ next.rest ++ t := by
    rw [List.append_assoc]
    exact hrest
  have hshorter : s.rest = p.text ++ next.rest := List.append_cancel_right hlonger
  have hends : p.runsOn → StopsRun isSymbolPart next.rest := by
    intro hruns c hc
    apply hstop hruns
    rw [extend, List.head?_append, hc]
    rfl
  rw [step_complete hp hshorter hends]
  have hpast : s.past p next.rest = next := eq_of_extend_eq hnext.symm
  rw [hpast]
  rfl

/-- What lies behind the place reached has no part in how it was reached. -/
theorem Reaches.of_extend {s s' : Scan} {ts : List Token} {t : List Char}
    (h : Reaches (s.extend t) ts (s'.extend t)) : Reaches s ts s' := by
  generalize hlong : s.extend t = long at h
  generalize hlong' : s'.extend t = long' at h
  induction h generalizing s with
  | refl =>
    rw [eq_of_extend_eq (hlong.trans hlong'.symm)]
    exact .refl s'
  | @step long next long' token ts hstep hreach ih =>
    subst hlong hlong'
    obtain ⟨text, htext, -⟩ := hreach.exists_text
    -- the scan between the two has the added characters at its end as well
    have hnext : Scan.extend ⟨text ++ s'.rest, next.position, next.gathered⟩ t = next := by
      obtain ⟨rest, place, gathered⟩ := next
      subst htext
      simp [Scan.extend]
    rw [← hnext] at hstep
    exact .step (step_of_step_extend hstep) (ih hnext rfl)

/-- A source that is cut off at the place reached is gone through to its end. -/
theorem Reaches.cut {source : String} {s : Scan} {ts : List Token}
    (h : Reaches (ofSource source) ts s) :
    Reaches (ofSource (String.ofList (source.toList.take s.position.offset))) ts
      { s with rest := [] } := by
  obtain ⟨before, htext, hplace⟩ := h.exists_text
  have hsource : source.toList = before ++ s.rest := htext
  have hoffset : s.position.offset = before.length := by
    rw [hplace]
    simp [ofSource]
  have hlong : (ofSource (String.ofList before)).extend s.rest = ofSource source := by
    simp [Scan.extend, ofSource, hsource]
  rw [hoffset, hsource, List.take_left]
  apply Reaches.of_extend (t := s.rest)
  rwa [hlong]

/-! ## The tokens gathered on a way -/

theorem InOrder.reaches {text : List Char} {s s' : Scan} {ts : List Token} (hs : s.InOrder text)
    (h : Reaches s ts s') : s'.InOrder text := by
  induction h with
  | refl => exact hs
  | step hstep _ ih => exact ih (hs.moved hstep)

theorem Reaches.pairwise_offset {source : String} {s : Scan} {ts : List Token}
    (h : Reaches (ofSource source) ts s) :
    (ts.map fun t => t.position.offset).Pairwise (· < ·) := by
  have hprecedes := ((inOrder_ofSource source).reaches h).precedes
  rw [h.gathered_ofSource] at hprecedes
  exact List.pairwise_map.mpr (hprecedes.imp Token.Precedes.offset_lt)

theorem Reaches.filter_kinds {s s' : Scan} {ts : List Token} (h : Reaches s ts s') (p : Position) :
    (ts ++ [Token.atEnd p]).filter (·.kind ≠ .eof) = ts := by
  have hkinds : ∀ t ∈ ts, t.kind ≠ .eof := by
    intro t ht
    obtain ⟨_, u, _, hkind, -⟩ := h.exists_place ht
    simp [hkind]
  simpa [Token.atEnd] using hkinds

/-! ## How far a source is scanned -/

/-- A scan of the source breaks off on the lexeme that begins at the offset `p`. -/
def BreaksOff (source : String) (p : Nat) (e : Error) : Prop :=
  ∃ ts s next, Reaches (ofSource source) ts s ∧ s.step = .failed e next ∧ s.position.offset = p

end Scan

/-- The tokens that a scan of a source gathers to its end, or to where it breaks off, without the
end mark. -/
def Token.gatheredFrom (source : String) : List Token :=
  match (Scan.ofSource source).run with
  | (.ok ts, _) => ts.filter (·.kind ≠ .eof)
  | (.error _, s) => s.gathered.reverse

namespace Scan

theorem Reaches.gatheredFrom_of_end {source : String} {s : Scan} {ts : List Token}
    (h : Reaches (ofSource source) ts s) (hend : s.rest = []) :
    Token.gatheredFrom source = ts := by
  rw [Token.gatheredFrom, h.run_of_end hend]
  exact h.filter_kinds s.position

theorem Reaches.gatheredFrom_of_failed {source : String} {s next : Scan} {ts : List Token}
    {e : Error} (h : Reaches (ofSource source) ts s) (hfail : s.step = .failed e next) :
    Token.gatheredFrom source = ts := by
  obtain ⟨-, -, -, -, hgathered, -⟩ := step_failed_sound hfail
  rw [Token.gatheredFrom, h.run_of_failed hfail]
  simp only [hgathered, h.gathered_ofSource]

theorem exists_reaches_gatheredFrom (source : String) :
    ∃ s, Reaches (ofSource source) (Token.gatheredFrom source) s ∧
      (s.rest = [] ∨ ∃ e next, s.step = .failed e next) := by
  obtain ⟨ts, s, hreach, hend | ⟨e, next, hfail⟩⟩ := (ofSource source).run_cases
  · rw [hreach.gatheredFrom_of_end hend]
    exact ⟨s, hreach, .inl hend⟩
  · rw [hreach.gatheredFrom_of_failed hfail]
    exact ⟨s, hreach, .inr ⟨e, next, hfail⟩⟩

theorem scan_eq_error_iff_breaksOff {source : String} {e : Error} :
    Token.scan source = .error e ↔ ∃ p, BreaksOff source p e := by
  constructor
  · intro h
    obtain ⟨s, hreach, hend | ⟨e', next, hfail⟩⟩ := exists_reaches_gatheredFrom source
    · rw [hreach.scan_of_end hend] at h
      cases h
    · rw [hreach.scan_of_failed hfail] at h
      cases h
      exact ⟨_, _, s, next, hreach, hfail, rfl⟩
  · rintro ⟨p, ts, s, next, hreach, hfail, -⟩
    exact hreach.scan_of_failed hfail

/-- A source cut off at a lexeme that cannot be read is scanned to its end, into the same tokens. -/
theorem BreaksOff.scan_cut {source : String} {p : Nat} {e : Error} (h : BreaksOff source p e) :
    ∃ ts, Token.scan (String.ofList (source.toList.take p)) = .ok ts ∧
      ts.filter (·.kind ≠ .eof) = Token.gatheredFrom source := by
  obtain ⟨ts, s, next, hreach, hfail, rfl⟩ := h
  refine ⟨_, hreach.cut.scan_of_end rfl, ?_⟩
  rw [hreach.gatheredFrom_of_failed hfail, hreach.filter_kinds]

end Scan

namespace Trace

/-! ## What is noted on the way -/

/-- The event of a token that was gathered. -/
def noted (t : Token) : Event :=
  .token t.kind t.position.offset

theorem scan_of_moved {s next : Scan} {token : Option Token} (h : s.step = .moved token next)
    (record : List Event) :
    scan record s = scan ((token.map noted).toList ++ record) next := by
  rw [scan]
  split
  next h' => cases h.symm.trans h'
  next h' =>
    cases h.symm.trans h'
    rfl
  next h' =>
    cases h.symm.trans h'
    rfl
  next h' => cases h.symm.trans h'

theorem scan_of_finished {s : Scan} (h : s.step = .finished) (record : List Event) :
    scan record s = (s.run.1, .scanned (s.gathered.length + 1) :: record) := by
  rw [scan, Scan.run_of_finished h]
  split
  next => simp
  next h' => cases h.symm.trans h'
  next h' => cases h.symm.trans h'
  next h' => cases h.symm.trans h'

theorem scan_of_failed {s next : Scan} {e : Error} (h : s.step = .failed e next)
    (record : List Event) : scan record s = (s.run.1, record) := by
  rw [scan, Scan.run_of_failed h]
  split
  next h' => cases h.symm.trans h'
  next h' => cases h.symm.trans h'
  next h' => cases h.symm.trans h'
  next h' =>
    cases h.symm.trans h'
    rfl

theorem scan_of_reaches {s s' : Scan} {ts : List Token} (h : s.Reaches ts s')
    (record : List Event) : scan record s = scan ((ts.map noted).reverse ++ record) s' := by
  induction h generalizing record with
  | refl => rfl
  | @step s next s' token ts hstep _ ih =>
    rw [scan_of_moved hstep, ih]
    cases token <;> simp

theorem scan_of_end {s s' : Scan} {ts : List Token} (h : s.Reaches ts s') (hend : s'.rest = []) :
    scan [] s =
      (s.run.1, .scanned (s.gathered.length + ts.length + 1) :: (ts.map noted).reverse) := by
  rw [scan_of_reaches h, scan_of_finished (Scan.step_eq_finished.mpr hend), h.run_eq,
    h.gathered_eq]
  simp [Nat.add_comm]

theorem scan_of_break {s s' next : Scan} {ts : List Token} {e : Error} (h : s.Reaches ts s')
    (hfail : s'.step = .failed e next) : scan [] s = (s.run.1, (ts.map noted).reverse) := by
  rw [scan_of_reaches h, scan_of_failed hfail, h.run_eq, List.append_nil]

theorem scan_fst (s : Scan) : (scan [] s).1 = s.run.1 := by
  obtain ⟨ts, s', hreach, hend | ⟨e, next, hfail⟩⟩ := s.run_cases
  · rw [scan_of_end hreach hend]
  · rw [scan_of_break hreach hfail]

/-- Keeping the record changes nothing about the reading. -/
theorem read_eq (source : String) :
    read source = (Form.read source,
      (scan [] (.ofSource source)).2.reverse ++ [outcome (Form.read source)]) := by
  have hforms : ((scan [] (.ofSource source)).1.bind fun ts => (Form.parse ts).1) =
      Form.read source := by
    rw [scan_fst]
    rfl
  simp only [read, hforms, List.reverse_cons]

/-- The record of a reading notes the tokens gathered, in order, with their kinds and their offsets,
which increase; then, if the scan has succeeded, how many tokens it has given; and then what the
reading has given, or the message of its error.  Where the scan breaks off, the source cut off there
has the same tokens. -/
theorem record_faithful (source : String) :
    let tokens := Token.gatheredFrom source
    (read source).1 = Form.read source ∧
      (tokens.map fun t => t.position.offset).Pairwise (· < ·) ∧
      (∃ scanned last,
        (read source).2 =
            tokens.map (fun t => .token t.kind t.position.offset) ++ scanned ++ [last] ∧
          (∀ ts, Token.scan source = .ok ts →
            ts.length = tokens.length + 1 ∧ scanned = [.scanned (tokens.length + 1)]) ∧
          (∀ e, Token.scan source = .error e → scanned = []) ∧
          (∀ forms, Form.read source = .ok forms → last = .parsed forms.length) ∧
          ∀ e, Form.read source = .error e → last = .failed e.message) ∧
      (∀ e, Token.scan source = .error e ↔ ∃ p, Scan.BreaksOff source p e) ∧
      ∀ p e, Scan.BreaksOff source p e →
        ∃ ts, Token.scan (String.ofList (source.toList.take p)) = .ok ts ∧
          ts.filter (·.kind ≠ .eof) = tokens := by
  intro tokens
  have hparsed : ∀ forms, Form.read source = .ok forms →
      outcome (Form.read source) = .parsed forms.length := by
    intro forms h
    rw [h, outcome]
  have hfailed : ∀ e, Form.read source = .error e →
      outcome (Form.read source) = .failed e.message := by
    intro e h
    rw [h, outcome]
  obtain ⟨s, hreach, hend⟩ := Scan.exists_reaches_gatheredFrom source
  refine ⟨by rw [read_eq], hreach.pairwise_offset, ?_, fun e => Scan.scan_eq_error_iff_breaksOff,
    fun p e h => h.scan_cut⟩
  rcases hend with hend | ⟨e, next, hfail⟩
  · have hscan := hreach.scan_of_end hend
    refine ⟨[.scanned (tokens.length + 1)], outcome (Form.read source), ?_, ?_, ?_, hparsed,
      hfailed⟩
    · rw [read_eq, scan_of_end hreach hend]
      simp [noted, tokens, Scan.ofSource]
    · intro ts hts
      rw [hscan] at hts
      cases hts
      simp [tokens]
    · intro e he
      cases hscan.symm.trans he
  · have hscan := hreach.scan_of_failed hfail
    refine ⟨[], outcome (Form.read source), ?_, ?_, fun _ _ => rfl, hparsed, hfailed⟩
    · rw [read_eq, scan_of_break hreach hfail]
      simp [noted, tokens]
    · intro ts hts
      cases hscan.symm.trans hts

theorem record_faithful_broken_string :
    let broken : Error := ⟨.unterminatedString, ⟨3, 1, 4⟩⟩
    Token.scan "(ab\"c" = .error broken ∧ Form.read "(ab\"c" = .error broken ∧
      Scan.BreaksOff "(ab\"c" 3 broken ∧
      (read "(ab\"c").2 = [.token (.terminal (.opening .paren)) 0,
        .token (.terminal (.atom (.symbol "ab"))) 1,
        .failed "Unterminated string starting at line 1, column 4 (offset 3)"] ∧
      (∃ ts, Token.scan (String.ofList ("(ab\"c".toList.take 3)) = .ok ts ∧
        ts.filter (·.kind ≠ .eof) = Token.gatheredFrom "(ab\"c") ∧
      Token.scan "a\n1" = .ok [⟨.terminal (.atom (.symbol "a")), "a", ⟨0, 1, 1⟩⟩,
        ⟨.terminal (.atom (.numeral (.integer none "1"))), "1", ⟨2, 2, 1⟩⟩,
        Token.atEnd ⟨3, 2, 2⟩] ∧
      Form.read "a\n1" = .ok [.atom (.symbol "a"), .atom (.numeral (.integer none "1"))] ∧
      (read "a\n1").2 = [.token (.terminal (.atom (.symbol "a"))) 0,
        .token (.terminal (.atom (.numeral (.integer none "1")))) 2, .scanned 3, .parsed 2] := by
  intro broken
  have hscan : Token.scan "(ab\"c" = .error broken := by cbv
  have hread : Form.read "(ab\"c" = .error broken := by cbv
  have hgathered : Token.gatheredFrom "(ab\"c" =
      [⟨.terminal (.opening .paren), "(", ⟨0, 1, 1⟩⟩,
        ⟨.terminal (.atom (.symbol "ab")), "ab", ⟨1, 1, 2⟩⟩] := by
    cbv
  have hbreak : Scan.BreaksOff "(ab\"c" 3 broken := by
    have hopening : (Scan.ofSource "(ab\"c").step = .moved
        (some ⟨.terminal (.opening .paren), "(", ⟨0, 1, 1⟩⟩)
        ⟨"ab\"c".toList, ⟨1, 1, 2⟩, [⟨.terminal (.opening .paren), "(", ⟨0, 1, 1⟩⟩]⟩ := rfl
    exact ⟨_, _, _, .step hopening (.step rfl (.refl _)), rfl, rfl⟩
  have hscan' : Token.scan "a\n1" = .ok [⟨.terminal (.atom (.symbol "a")), "a", ⟨0, 1, 1⟩⟩,
      ⟨.terminal (.atom (.numeral (.integer none "1"))), "1", ⟨2, 2, 1⟩⟩,
      Token.atEnd ⟨3, 2, 2⟩] := by
    cbv
  have hread' : Form.read "a\n1" =
      .ok [.atom (.symbol "a"), .atom (.numeral (.integer none "1"))] := by
    cbv
  have hgathered' : Token.gatheredFrom "a\n1" =
      [⟨.terminal (.atom (.symbol "a")), "a", ⟨0, 1, 1⟩⟩,
        ⟨.terminal (.atom (.numeral (.integer none "1"))), "1", ⟨2, 2, 1⟩⟩] := by
    cbv
  obtain ⟨-, -, ⟨scanned, last, hrecord, -, hnone, -, hlast⟩, -, hcut⟩ :=
    record_faithful "(ab\"c"
  obtain ⟨-, -, ⟨scanned', last', hrecord', hsome', -, hlast', -⟩, -, -⟩ :=
    record_faithful "a\n1"
  refine ⟨hscan, hread, hbreak, ?_, hcut 3 broken hbreak, hscan', hread', ?_⟩
  · rw [hrecord, hnone _ hscan, hlast _ hread, hgathered]
    cbv
  · rw [hrecord', (hsome' _ hscan').2, hlast' _ hread', hgathered']
    cbv

end Trace

end Sexp
