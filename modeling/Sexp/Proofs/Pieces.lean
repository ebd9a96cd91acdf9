import Sexp.Proofs.Words
import Sexp.Token.Layout

/-! # Reading pieces

`Lexeme.next` decides by the first one or two characters which lexeme it reads.  The equations of
the first section say so for each kind of beginning, and with them a successful reading takes
exactly a valid piece (`next_sound`), and a valid piece is read back from its own text wherever it
does not run on (`next_complete`).  A source therefore has at most one row of pieces
(`pieces_unique`). -/

namespace Sexp

namespace Lexeme

/-! ## Numerals and symbols part on the second character -/

theorem beginsNumeral_sign {c : Char} (h : IsSign c) (cs : List Char) :
    beginsNumeral (c :: cs) = cs.head?.any Char.isDigit := by
  rcases h with rfl | rfl <;> rfl

theorem beginsNumeral_other {c : Char} (h : ¬ IsSign c) (cs : List Char) :
    beginsNumeral (c :: cs) = c.isDigit := by
  simp [beginsNumeral, sign, ofChar?_eq_none h]

theorem beginsNumeral_part {c : Char} {cs : List Char} (h : beginsNumeral (c :: cs)) :
    isSymbolPart c ∧ c ≠ ':' := by
  by_cases hs : IsSign c
  · refine ⟨hs.isSymbolPart, ?_⟩
    rcases hs with rfl | rfl <;> decide
  · rw [beginsNumeral_other hs] at h
    refine ⟨isSymbolPart_of_isDigit h, ?_⟩
    rintro rfl
    exact absurd h (by decide)

theorem beginsSymbol_eq_true_iff {c : Char} :
    beginsSymbol c ↔ isSymbolStart c ∨ IsSign c ∨ c = '.' := by
  simp [beginsSymbol, IsSign, or_assoc]

theorem beginsSymbol_part {c : Char} (h : beginsSymbol c) : isSymbolPart c ∧ c ≠ ':' := by
  rcases beginsSymbol_eq_true_iff.mp h with hstart | hs | rfl
  · refine ⟨isSymbolPart_of_isSymbolStart hstart, ?_⟩
    rintro rfl
    exact absurd hstart (by decide)
  · refine ⟨hs.isSymbolPart, ?_⟩
    rcases hs with rfl | rfl <;> decide
  · exact ⟨by decide, by decide⟩

/-- A symbol begins where a symbol may begin and no numeral does. -/
theorem beginsSymbol_iff {c : Char} {cs : List Char} :
    BeginsSymbol c cs ↔ beginsNumeral (c :: cs) = false ∧ beginsSymbol c := by
  constructor
  · rintro (hstart | rfl | ⟨hs, hdigit⟩)
    · refine ⟨?_, beginsSymbol_eq_true_iff.mpr (.inl hstart)⟩
      rw [beginsNumeral_other (not_isSign_of_isSymbolStart hstart)]
      simpa using not_isDigit_of_isSymbolStart hstart
    · exact ⟨rfl, rfl⟩
    · refine ⟨?_, beginsSymbol_eq_true_iff.mpr (.inr (.inl hs))⟩
      rw [beginsNumeral_sign hs]
      simpa [Option.any_eq_false] using hdigit
  · rintro ⟨hn, hb⟩
    by_cases hs : IsSign c
    · rw [beginsNumeral_sign hs] at hn
      refine .inr (.inr ⟨hs, ?_⟩)
      simpa [Option.any_eq_false] using hn
    · rcases beginsSymbol_eq_true_iff.mp hb with hstart | hsign | hpoint
      · exact .inl hstart
      · exact absurd hsign hs
      · exact .inr (.inl hpoint)

/-- Only the first character of the rest counts, so the run of the symbol itself decides. -/
theorem beginsSymbol_run {c : Char} {cs : List Char} :
    BeginsSymbol c (Reading.run isSymbolPart cs).text ↔ BeginsSymbol c cs := by
  cases cs with
  | nil => rfl
  | cons d cs =>
    by_cases hd : isSymbolPart d
    · simp [BeginsSymbol, Reading.run, hd]
    · have hdigit : ¬ d.isDigit := fun h => hd (isSymbolPart_of_isDigit h)
      simp [BeginsSymbol, Reading.run, hd, hdigit]

/-! ## The lexeme that begins with a character -/

theorem next_separator {c : Char} (h : isSeparator c) (cs : List Char) :
    next c cs = ⟨.ok none, [c], cs⟩ := by
  simp [next, h]

theorem next_opening (d : Delimiter) (cs : List Char) :
    next d.opening cs = ⟨.ok (some (.opening d)), [d.opening], cs⟩ := by
  cases d <;> rfl

theorem next_closing (d : Delimiter) (cs : List Char) :
    next d.closing cs = ⟨.ok (some (.closing d)), [d.closing], cs⟩ := by
  cases d <;> rfl

theorem next_quote (cs : List Char) :
    next '"' cs = ((string cs).map (·.map fun a => some (.atom a))).following ['"'] := rfl

theorem next_colon (cs : List Char) :
    next ':' cs = ((keyword cs).map (·.map fun a => some (.atom a))).following [':'] := rfl

/-- What a numeral that was read, or its fault, stands for among the lexemes. -/
def ofNumeral : Except Numeral.Fault Numeral → Except Cause (Option Terminal)
  | .ok n => .ok (some (.atom (.numeral n)))
  | .error fault => .error (.malformedNumber fault.reason)

theorem next_numeral {c : Char} {cs : List Char} (h : beginsNumeral (c :: cs)) :
    next c cs = (numeral (c :: cs)).map ofNumeral := by
  obtain ⟨hpart, hcolon⟩ := beginsNumeral_part h
  simp only [next, isSeparator_eq_false hpart, ofOpening?_eq_none hpart,
    ofClosing?_eq_none hpart, ne_quote_of_isSymbolPart hpart, hcolon, h, if_true, if_false,
    Bool.false_eq_true]
  rfl

theorem next_symbol {c : Char} {cs : List Char} (h : BeginsSymbol c cs) :
    next c cs = ((Reading.run isSymbolPart cs).map fun name =>
      .ok (some (.atom (symbolAtom (c.toString ++ name))))).following [c] := by
  obtain ⟨hn, hb⟩ := beginsSymbol_iff.mp h
  obtain ⟨hpart, hcolon⟩ := beginsSymbol_part hb
  simp only [next, isSeparator_eq_false hpart, ofOpening?_eq_none hpart,
    ofClosing?_eq_none hpart, ne_quote_of_isSymbolPart hpart, hcolon, hn, hb, if_true, if_false,
    Bool.false_eq_true]

end Lexeme

/-- The terminal of a piece; a separator stands for none. -/
def Piece.terminal? : Piece → Option Terminal
  | .separator _ => none
  | .terminal t => some t

namespace Lexeme

/-! ## Soundness: what is read is a valid piece -/

theorem atom_of_map {r : Except Cause Atom} {v : Option Terminal}
    (h : (r.map fun a => some (Terminal.atom a)) = .ok v) :
    ∃ a, r = .ok a ∧ v = some (.atom a) := by
  cases r with
  | error cause => cases h
  | ok a => exact ⟨a, rfl, (Except.ok.inj h).symm⟩

theorem next_sound {c : Char} {cs : List Char} {v : Option Terminal} :
    (next c cs).value = .ok v →
      ∃ p : Piece, p.Valid ∧ p.terminal? = v ∧ p.text = (next c cs).text ∧
        (p.runsOn → StopsRun isSymbolPart (next c cs).rest) := by
  fun_cases next c cs with
  | case1 hsep =>
    intro h
    cases h
    exact ⟨.separator c, hsep, rfl, rfl, by simp [Piece.runsOn]⟩
  | case2 _ d hd =>
    intro h
    cases h
    refine ⟨.terminal (.opening d), trivial, rfl, ?_, by simp [Piece.runsOn]⟩
    simp [Piece.text, Terminal.text, Delimiter.ofOpening?_eq_some_iff.mp hd]
  | case3 _ d hd =>
    intro h
    cases h
    refine ⟨.terminal (.closing d), trivial, rfl, ?_, by simp [Piece.runsOn]⟩
    simp [Piece.text, Terminal.text, Delimiter.ofClosing?_eq_some_iff.mp hd]
  | case4 _ hc =>
    intro h
    obtain ⟨a, ha, rfl⟩ := atom_of_map h
    obtain ⟨body, rfl, hbody, htext⟩ := string_sound ha
    refine ⟨.terminal (.atom (.string body)), hbody, rfl, ?_, by simp [Piece.runsOn]⟩
    simp [Piece.text, Terminal.text, Atom.text, Reading.following, Reading.map, htext, hc]
  | case5 _ _ hc =>
    intro h
    obtain ⟨a, ha, rfl⟩ := atom_of_map h
    obtain ⟨text, rfl, hkeyword, htext, hstop⟩ := keyword_sound ha
    refine ⟨.terminal (.atom (.keyword text)), hkeyword, rfl, ?_, fun _ => hstop⟩
    simp [Piece.text, Terminal.text, Atom.text, Reading.following, Reading.map, htext, hc]
  | case6 _ _ _ hb =>
    intro h
    cases hn : (numeral (c :: cs)).value with
    | error fault => simp [Reading.map, hn] at h
    | ok n =>
      simp only [Reading.map, hn, Except.ok.injEq] at h
      obtain ⟨hwf, htext, hstop⟩ := numeral_sound hb hn
      exact ⟨.terminal (.atom (.numeral n)), hwf, h, htext.symm, fun _ => hstop⟩
  | case7 _ _ _ hn hb =>
    intro h
    -- well-formedness speaks of the name alone, the reading of the whole rest of the source
    have hbegins : BeginsSymbol c (Reading.run isSymbolPart cs).text :=
      beginsSymbol_run.mpr (beginsSymbol_iff.mpr ⟨by simpa using hn, hb⟩)
    have hname : c.toString ++ (Reading.run isSymbolPart cs).value =
        String.ofList (c :: (Reading.run isSymbolPart cs).text) := by
      simp [Reading.run]
    simp only [Reading.following, Reading.map, Except.ok.injEq] at h
    refine ⟨.terminal (.atom (symbolAtom (c.toString ++ (Reading.run isSymbolPart cs).value))),
      ?_, h, ?_, fun _ => Reading.stopsRun_rest_run _ _⟩
    · rw [hname]
      exact symbolAtom_sound hbegins fun _ => Reading.mem_text_run
    · rw [hname]
      simp [Piece.text, Terminal.text, text_symbolAtom, Reading.following, Reading.map]
  | case8 =>
    intro h
    cases h

/-! ## Completeness: a valid piece is read back -/

theorem next_word {a : Atom} (ha : a.WellFormed) (hword : IsWord a) {c : Char} {t : List Char}
    (ht : a.text.toList = c :: t) {rest : List Char} (hr : StopsRun isSymbolPart rest) :
    next c (t ++ rest) = ⟨.ok (some (.atom a)), c :: t, rest⟩ := by
  obtain ⟨d, name, hname, hbegins, hall⟩ := text_word ha hword
  obtain ⟨rfl, rfl⟩ := List.cons.inj (ht.symm.trans hname)
  have hrun : Reading.run isSymbolPart (t ++ rest) = ⟨String.ofList t, t, rest⟩ :=
    Reading.run_append hall hr
  have hbegins' : BeginsSymbol c (t ++ rest) := by
    rw [← beginsSymbol_run, hrun]
    exact hbegins
  have htext : c.toString ++ String.ofList t = a.text := by
    simp [← String.toList_inj, ht]
  rw [next_symbol hbegins', hrun]
  simp only [Reading.following, Reading.map, htext, symbolAtom_complete ha hword]
  rfl

/-- A valid piece is read from its own text, unless it would run on. -/
theorem next_complete {p : Piece} (hp : p.Valid) {c : Char} {t : List Char}
    (ht : p.text = c :: t) {rest : List Char} (hr : p.runsOn → StopsRun isSymbolPart rest) :
    next c (t ++ rest) = ⟨.ok p.terminal?, c :: t, rest⟩ := by
  match p with
  | .separator d =>
    obtain ⟨rfl, rfl⟩ := List.cons.inj ht
    exact next_separator hp rest
  | .terminal (.opening d) =>
    obtain ⟨rfl, rfl⟩ : d.opening = c ∧ [] = t := by simpa [Piece.text, Terminal.text] using ht
    exact next_opening d rest
  | .terminal (.closing d) =>
    obtain ⟨rfl, rfl⟩ : d.closing = c ∧ [] = t := by simpa [Piece.text, Terminal.text] using ht
    exact next_closing d rest
  | .terminal (.atom (.numeral n)) =>
    have hb := beginsNumeral_text hp rest
    have hread := numeral_complete hp (hr rfl)
    have ht' : n.text.toList = c :: t := ht
    rw [ht', List.cons_append] at hb hread
    rw [next_numeral hb, hread]
    rfl
  | .terminal (.atom (.keyword text)) =>
    obtain ⟨name, rfl, hne, hall⟩ := hp
    obtain ⟨rfl, rfl⟩ : ':' = c ∧ name.toList = t := by
      simpa [Piece.text, Terminal.text, Atom.text] using ht
    rw [next_colon, keyword_complete hne hall (hr rfl)]
    rfl
  | .terminal (.atom (.string body)) =>
    obtain ⟨rfl, rfl⟩ : '"' = c ∧ body.toList ++ ['"'] = t := by
      simpa [Piece.text, Terminal.text, Atom.text] using ht
    rw [next_quote, List.append_assoc, List.singleton_append, string_complete hp]
    rfl
  | .terminal (.atom (.boolean value)) =>
    have ha : (Atom.boolean value).WellFormed := hp
    exact next_word ha trivial ht (hr rfl)
  | .terminal (.atom (.symbol name)) =>
    have ha : (Atom.symbol name).WellFormed := hp
    exact next_word ha trivial ht (hr rfl)

end Lexeme

theorem stopsRun_of_separators {w : List Char} (hne : w ≠ []) (hw : ∀ c ∈ w, isSeparator c)
    (rest : List Char) : StopsRun isSymbolPart (w ++ rest) := by
  cases w with
  | nil => exact absurd rfl hne
  | cons c w =>
    apply stopsRun_cons.mpr
    intro hpart
    have hsep := hw c (by simp)
    rw [isSeparator_eq_false hpart] at hsep
    cases hsep

/-! ## A source has at most one row of pieces -/

namespace Piece

theorem eq_of_terminal?_of_text {p q : Piece} (hterminal : p.terminal? = q.terminal?)
    (htext : p.text = q.text) : p = q := by
  cases p with
  | separator c =>
    cases q with
    | separator d => rw [(List.cons.inj htext).1]
    | terminal t => cases hterminal
  | terminal t =>
    cases q with
    | separator d => cases hterminal
    | terminal u => rw [Option.some.inj hterminal]

theorem exists_text_cons {p : Piece} (hp : p.Valid) : ∃ c t, p.text = c :: t := by
  match p with
  | .separator c => exact ⟨c, [], rfl⟩
  | .terminal (.opening d) => exact ⟨d.opening, [], by simp [text, Terminal.text]⟩
  | .terminal (.closing d) => exact ⟨d.closing, [], by simp [text, Terminal.text]⟩
  | .terminal (.atom (.numeral n)) =>
    have hb := Lexeme.beginsNumeral_text hp []
    cases hn : n.text.toList with
    | nil =>
      rw [hn] at hb
      exact absurd hb (by decide)
    | cons c t => exact ⟨c, t, hn⟩
  | .terminal (.atom (.keyword name)) =>
    obtain ⟨name, rfl, -⟩ := hp
    exact ⟨':', name.toList, by simp [text, Terminal.text, Atom.text]⟩
  | .terminal (.atom (.string body)) =>
    exact ⟨'"', body.toList ++ ['"'], by simp [text, Terminal.text, Atom.text]⟩
  | .terminal (.atom (.boolean value)) =>
    obtain ⟨c, t, ht, -⟩ := Lexeme.text_word (a := .boolean value) hp trivial
    exact ⟨c, t, ht⟩
  | .terminal (.atom (.symbol name)) =>
    obtain ⟨c, t, ht, -⟩ := Lexeme.text_word (a := .symbol name) hp trivial
    exact ⟨c, t, ht⟩

end Piece

theorem piecesText_cons (p : Piece) (ps : List Piece) :
    piecesText (p :: ps) = p.text ++ piecesText ps :=
  List.flatMap_cons

/-- The first piece of a text is what is read there, so two rows of pieces that make up the same
text go on alike. -/
theorem pieces_unique {ps qs : List Piece} (hps : ∀ p ∈ ps, p.Valid) (hqs : ∀ q ∈ qs, q.Valid)
    (hpp : Parted ps) (hpq : Parted qs) (htext : piecesText ps = piecesText qs) : ps = qs := by
  induction ps generalizing qs with
  | nil =>
    cases qs with
    | nil => rfl
    | cons q qs =>
      obtain ⟨c, t, ht⟩ := Piece.exists_text_cons (hqs q (by simp))
      rw [piecesText_cons, ht] at htext
      cases htext
  | cons p ps ih =>
    have hp := hps p (by simp)
    obtain ⟨c, t, ht⟩ := Piece.exists_text_cons hp
    have hread := Lexeme.next_complete hp ht hpp.1
    cases qs with
    | nil =>
      rw [piecesText_cons, ht] at htext
      cases htext
    | cons q qs =>
      have hq := hqs q (by simp)
      obtain ⟨d, u, hu⟩ := Piece.exists_text_cons hq
      have hread' := Lexeme.next_complete hq hu hpq.1
      rw [piecesText_cons, piecesText_cons, ht, hu, List.cons_append, List.cons_append] at htext
      obtain ⟨rfl, hrest⟩ := List.cons.inj htext
      -- both pieces are what `next` reads from the same characters
      rw [hrest, hread', Reading.mk.injEq, Except.ok.injEq] at hread
      obtain ⟨hterminal, hsame, htail⟩ := hread
      have hpq' : p = q := Piece.eq_of_terminal?_of_text hterminal.symm (by rw [ht, hu, hsame])
      rw [hpq', ih (fun r hr => hps r (by simp [hr])) (fun r hr => hqs r (by simp [hr])) hpp.2 hpq.2
        htail.symm]

end Sexp
