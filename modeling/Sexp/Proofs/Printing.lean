import Mathlib
import Sexp.Proofs.Nesting
import Sexp.Proofs.Scanning
import Sexp.Reader

/-! # Printing and reading

A source is read as `fs` exactly if it has a layout whose terminals are `fs` written out
(`exists_layout_of_read`, `read_of_layout`).  The printed text of well-formed forms has such a
layout, `rowPieces`, whatever the forms were read from: between two atoms stands a blank or a
delimiter, so nothing runs on.  This gives both main results:

* `read_textAll` — printing what was read changes nothing but the layout;
* `wellFormed_tfae` — the forms that read back from their own text are the forms that reading
  yields at all, and these are the well-formed ones. -/

namespace Sexp

/-! ## Reading through a layout -/

theorem kinds_beforeEnd {ts : List Token} {us : List Terminal}
    (h : ts.map Token.kind = us.map .terminal ++ [.eof]) :
    (Token.beforeEnd ts).map Token.kind = us.map .terminal := by
  have htake : (Token.beforeEnd ts).map Token.kind = (ts.map Token.kind).takeWhile (· ≠ .eof) := by
    rw [List.takeWhile_map]
    rfl
  rw [htake, h, List.takeWhile_append_of_pos (by simp)]
  simp

theorem map_terminal_inj {us vs : List Terminal}
    (h : us.map Token.Kind.terminal = vs.map .terminal) : us = vs :=
  (List.map_inj_right fun _ _ => Token.Kind.terminal.inj).mp h

namespace Form

theorem exists_layout_of_read {source : String} {fs : List Form} (h : read source = .ok fs) :
    ∃ l : Layout source, piecesTerminals l.pieces = fs.flatMap terminals := by
  unfold read at h
  cases hscan : Token.scan source with
  | error e =>
    rw [hscan] at h
    cases h
  | ok ts =>
    rw [hscan] at h
    obtain ⟨l, rfl⟩ := Layout.exists_of_scan hscan
    have hkinds := kinds_beforeEnd (kinds_piecesTokens .start l.pieces)
    exact ⟨l, map_terminal_inj (hkinds.symm.trans (kinds_of_parse h))⟩

theorem read_of_layout {source : String} (l : Layout source) {fs : List Form}
    (h : piecesTerminals l.pieces = fs.flatMap terminals) : read source = .ok fs := by
  have hkinds := kinds_beforeEnd (kinds_piecesTokens .start l.pieces)
  rw [h] at hkinds
  unfold read
  rw [l.scan_eq]
  exact parse_of_kinds hkinds

/-! ## The layout of a printed form -/

/-- The pieces of the printed text of a form. -/
def pieces : Form → List Piece
  | .atom a => [.terminal (.atom a)]
  | .collection d elements =>
    .terminal (.opening d) :: [Piece.separator ' '].intercalate (elements.map pieces)
      ++ [.terminal (.closing d)]

/-- The pieces of the printed text of a row of forms. -/
def rowPieces (fs : List Form) : List Piece :=
  [Piece.separator ' '].intercalate (fs.map pieces)

theorem rowPieces_cons_cons (f g : Form) (fs : List Form) :
    rowPieces (f :: g :: fs) = f.pieces ++ .separator ' ' :: rowPieces (g :: fs) := by
  simp [rowPieces]

theorem pieces_collection (d : Delimiter) (elements : List Form) :
    pieces (.collection d elements) =
      .terminal (.opening d) :: rowPieces elements ++ [.terminal (.closing d)] := by
  rw [pieces, rowPieces]

theorem piecesText_append (ps qs : List Piece) :
    piecesText (ps ++ qs) = piecesText ps ++ piecesText qs :=
  List.flatMap_append

theorem piecesText_row {fs : List Form} (h : ∀ f ∈ fs, piecesText f.pieces = f.text.toList) :
    piecesText (rowPieces fs) = (textAll fs).toList := by
  induction fs with
  | nil => simp [rowPieces, textAll, piecesText]
  | cons f fs ih =>
    cases fs with
    | nil => simpa [rowPieces, textAll] using h f (by simp)
    | cons g fs =>
      rw [rowPieces_cons_cons, piecesText_append, piecesText_cons, h f (by simp),
        ih fun e he => h e (by simp [he])]
      simp [textAll, Piece.text]

theorem piecesText_pieces (f : Form) : piecesText f.pieces = f.text.toList := by
  induction f with
  | atom a => simp [pieces, piecesText, Piece.text, Terminal.text, text]
  | collection d elements ih =>
    rw [pieces_collection, piecesText_append, piecesText_cons, piecesText_row ih, text]
    simp [piecesText, Piece.text, Terminal.text, textAll]

theorem terminals_row {fs : List Form} (h : ∀ f ∈ fs, piecesTerminals f.pieces = f.terminals) :
    piecesTerminals (rowPieces fs) = fs.flatMap terminals := by
  induction fs with
  | nil => rfl
  | cons f fs ih =>
    cases fs with
    | nil => simpa [rowPieces] using h f (by simp)
    | cons g fs =>
      rw [rowPieces_cons_cons, piecesTerminals_append, piecesTerminals_separator, h f (by simp),
        ih fun e he => h e (by simp [he])]
      rfl

theorem terminals_pieces (f : Form) : piecesTerminals f.pieces = f.terminals := by
  induction f with
  | atom a => simp [pieces, terminals]
  | collection d elements ih =>
    rw [pieces_collection, terminals]
    simp [terminals_row ih]

/-! ## It is a layout if the form is well-formed -/

theorem wellFormed_iff (f : Form) :
    f.WellFormed ↔ ∀ a, Terminal.atom a ∈ f.terminals → a.WellFormed := by
  induction f with
  | atom a =>
    constructor
    · intro h b hb
      cases h with
      | atom ha =>
        obtain rfl : b = a := by simpa [terminals] using hb
        exact ha
    · intro h
      exact .atom (h a (by simp [terminals]))
  | collection d elements ih =>
    constructor
    · intro h a ha
      cases h with
      | collection hall =>
        obtain ⟨e, he, hmem⟩ : ∃ e ∈ elements, Terminal.atom a ∈ e.terminals := by
          simpa [terminals] using ha
        exact (ih e he).mp (hall e he) a hmem
    · intro h
      refine .collection fun e he => (ih e he).mpr fun a ha => h a ?_
      simp only [terminals, List.mem_append, List.mem_cons, List.mem_flatMap]
      exact .inl (.inr ⟨e, he, ha⟩)

theorem wellFormed_of_within {f g : Form} (hg : g.WellFormed) (h : f.Within g) : f.WellFormed := by
  induction h with
  | self => exact hg
  | element mem _ ih =>
    cases hg with
    | collection hall => exact ih (hall _ mem)

/-- Every atom of a layout is well-formed, so every form read from it is. -/
theorem wellFormed_of_read {source : String} {fs : List Form} (h : read source = .ok fs) :
    ∀ f ∈ fs, f.WellFormed := by
  obtain ⟨l, hl⟩ := exists_layout_of_read h
  intro f hf
  refine (wellFormed_iff f).mpr fun a ha => ?_
  have hmem : Terminal.atom a ∈ piecesTerminals l.pieces := by
    rw [hl]
    exact List.mem_flatMap.mpr ⟨f, hf, ha⟩
  obtain ⟨p, hp, hterminal⟩ := List.mem_filterMap.mp hmem
  have hvalid := l.valid p hp
  cases p with
  | separator c => cases hterminal
  | terminal t =>
    cases hterminal
    exact hvalid

theorem mem_rowPieces {p : Piece} {fs : List Form} (h : p ∈ rowPieces fs) :
    p = .separator ' ' ∨ ∃ f ∈ fs, p ∈ f.pieces := by
  induction fs with
  | nil => cases h
  | cons f fs ih =>
    cases fs with
    | nil => exact .inr ⟨f, by simp, by simpa [rowPieces] using h⟩
    | cons g fs =>
      rw [rowPieces_cons_cons, List.mem_append, List.mem_cons] at h
      rcases h with hf | hsep | hrow
      · exact .inr ⟨f, by simp, hf⟩
      · exact .inl hsep
      · rcases ih hrow with hsep | ⟨e, he, hp⟩
        · exact .inl hsep
        · exact .inr ⟨e, by simp [he], hp⟩

theorem valid_row {fs : List Form} (h : ∀ f ∈ fs, ∀ p ∈ f.pieces, p.Valid) :
    ∀ p ∈ rowPieces fs, p.Valid := by
  intro p hp
  rcases mem_rowPieces hp with rfl | ⟨f, hf, hmem⟩
  · exact (by decide : isSeparator ' ')
  · exact h f hf p hmem

theorem valid_pieces {f : Form} (hf : f.WellFormed) : ∀ p ∈ f.pieces, p.Valid := by
  induction hf with
  | atom ha =>
    intro p hp
    rw [pieces] at hp
    obtain rfl := List.mem_singleton.mp hp
    exact ha
  | collection _ ih =>
    rw [pieces_collection]
    intro p hp
    simp only [List.mem_append, List.mem_cons, List.not_mem_nil, or_false] at hp
    rcases hp with (rfl | hrow) | rfl
    · trivial
    · exact valid_row ih p hrow
    · trivial

/-- Whatever stands behind a row of forms may stand behind its last form, and a blank stands behind
every other one. -/
theorem parted_row {fs : List Form}
    (h : ∀ f ∈ fs, ∀ after, Parted after → StopsRun isSymbolPart (piecesText after) →
      Parted (f.pieces ++ after))
    (after : List Piece) (hafter : Parted after)
    (hstop : StopsRun isSymbolPart (piecesText after)) : Parted (rowPieces fs ++ after) := by
  induction fs with
  | nil => exact hafter
  | cons f fs ih =>
    cases fs with
    | nil =>
      rw [show rowPieces [f] = f.pieces by simp [rowPieces]]
      exact h f (by simp) after hafter hstop
    | cons g fs =>
      rw [rowPieces_cons_cons, List.append_assoc, List.cons_append]
      -- behind every form but the last stands a blank, which stops every run
      have hrow := ih fun e he => h e (by simp [he])
      refine h f (by simp) _ ⟨by simp [Piece.runsOn], hrow⟩ ?_
      rw [piecesText_cons]
      exact stopsRun_cons.mpr (by decide)

theorem parted_pieces (f : Form) (after : List Piece) (hafter : Parted after)
    (hstop : StopsRun isSymbolPart (piecesText after)) : Parted (f.pieces ++ after) := by
  induction f generalizing after with
  | atom a =>
    rw [pieces]
    exact ⟨fun _ => hstop, hafter⟩
  | collection d elements ih =>
    rw [pieces_collection, List.append_assoc, List.cons_append]
    refine ⟨by simp [Piece.runsOn], ?_⟩
    -- the last element is followed by the closing delimiter, whatever stands behind the form
    refine parted_row ih _ ⟨by simp [Piece.runsOn], hafter⟩ ?_
    rw [List.singleton_append, piecesText_cons]
    cases d <;> exact stopsRun_cons.mpr (by decide)

/-- The layout of the printed text of well-formed forms. -/
def printed {fs : List Form} (h : ∀ f ∈ fs, f.WellFormed) : Layout (textAll fs) where
  pieces := rowPieces fs
  text_eq := piecesText_row fun f _ => piecesText_pieces f
  valid := valid_row fun f hf => valid_pieces (h f hf)
  parted := by
    have hparted : Parted (rowPieces fs ++ []) :=
      parted_row (fun f _ => parted_pieces f) [] trivial (stopsRun_nil _)
    rwa [List.append_nil] at hparted

theorem terminals_printed {fs : List Form} (h : ∀ f ∈ fs, f.WellFormed) :
    piecesTerminals (printed h).pieces = fs.flatMap terminals :=
  terminals_row fun f _ => terminals_pieces f

theorem read_of_wellFormed {fs : List Form} (h : ∀ f ∈ fs, f.WellFormed) :
    read (textAll fs) = .ok fs :=
  read_of_layout (printed h) (terminals_printed h)

theorem textAll_singleton (f : Form) : textAll [f] = f.text := by
  simp [textAll]

/-! ## Main results -/

/-- Printing what was read and reading it again changes nothing but the layout: every form reads
back from its own text, all of them from their texts on one line, and the tokens of that line are
of the same kinds and made of the same characters as those of the source. -/
theorem read_textAll {source : String} {fs : List Form} (h : read source = .ok fs) :
    (∀ f ∈ fs, read f.text = .ok [f]) ∧ read (textAll fs) = .ok fs ∧
      ∃ ts ts', Token.scan source = .ok ts ∧ Token.scan (textAll fs) = .ok ts' ∧
        ts'.map Token.kind = ts.map Token.kind ∧ ts'.map Token.lexeme = ts.map Token.lexeme := by
  have hwf := wellFormed_of_read h
  refine ⟨?_, read_of_wellFormed hwf, ?_⟩
  · intro f hf
    rw [← textAll_singleton]
    exact read_of_wellFormed (by simpa using hwf f hf)
  · obtain ⟨l, hl⟩ := exists_layout_of_read h
    refine ⟨l.tokens, (printed hwf).tokens, l.scan_eq, (printed hwf).scan_eq, ?_, ?_⟩
    · rw [Layout.tokens, Layout.tokens, kinds_piecesTokens, kinds_piecesTokens,
        terminals_printed, hl]
    · rw [Layout.tokens, Layout.tokens, lexemes_piecesTokens, lexemes_piecesTokens,
        terminals_printed, hl]

theorem read_textAll_two_lines :
    ∃ fs, read "[-007,\t\"a\\\"b\"]\n+1.50E-3" = .ok fs ∧ read (textAll fs) = .ok fs ∧
      textAll fs = "[-007 \"a\\\"b\"] +1.50E-3" := by
  have h : read "[-007,\t\"a\\\"b\"]\n+1.50E-3" =
      .ok [.collection .bracket
          [.atom (.numeral (.integer (some .minus) "007")), .atom (.string "a\\\"b")],
        .atom (.numeral (.decimal (some .plus) "1" "50" (some ⟨.upper, some .minus, "3"⟩)))] := by
    cbv
  exact ⟨_, h, (read_textAll h).2.1, by cbv⟩

/-- A form reads back from its own text exactly if it can be read at all, alone or within another
form, and exactly if it is well-formed. -/
theorem wellFormed_tfae (f : Form) :
    List.TFAE
      [read f.text = .ok [f],
        ∃ source fs g, read source = .ok fs ∧ g ∈ fs ∧ f.Within g,
        f.WellFormed] := by
  tfae_have 1 → 2 := fun h => ⟨f.text, [f], f, h, by simp, .self⟩
  tfae_have 2 → 3 := by
    rintro ⟨source, fs, g, hread, hg, hwithin⟩
    exact wellFormed_of_within (wellFormed_of_read hread g hg) hwithin
  tfae_have 3 → 1 := by
    intro h
    rw [← textAll_singleton]
    exact read_of_wellFormed (by simpa using h)
  tfae_finish

end Form

end Sexp
