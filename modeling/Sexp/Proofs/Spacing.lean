import Sexp.Proofs.Completion
import Sexp.Proofs.Printing
import Sexp.Proofs.Relocation

/-! # Other gaps between the same lexemes

The lexemes of a source can be set anew with other gaps between them (`spaced`).  Its tokens are
scanned again exactly if no two bare atoms come to touch (`Form.scan_spaced_iff`).

A row of pieces is parted exactly if no piece that runs on stands right before another one
(`Piece.stopsRun_iff`), which for the row of lexemes and gaps is a condition on the gaps
(`parted_spacedPieces`).  Conversely the text and the terminals of a row determine it
(`pieces_eq_of_terminals`), so a scan that yields the same tokens has cut the text at the gaps.
-/

namespace Sexp

open Token (beforeEnd)

/-- Lexemes in a row, the gap number `i` before lexeme number `i` and one more behind the last. -/
def spaced (gap : Nat → String) : List String → String
  | [] => gap 0
  | lexeme :: lexemes => gap 0 ++ lexeme ++ spaced (fun i => gap (i + 1)) lexemes

namespace Token

/-- An atom without a mark of its own where it ends: any but a string. -/
def isBare (t : Token) : Bool :=
  match t.kind with
  | .terminal (.atom (.string _)) => false
  | .terminal (.atom _) => true
  | _ => false

/-- Where two neighbours are bare, the gap between them is not empty. -/
def KeptApart (gap : Nat → String) (ts : List Token) : Prop :=
  ∀ (i : Nat) (t u : Token), ts[i]? = some t → ts[i + 1]? = some u → t.isBare → u.isBare →
    gap (i + 1) ≠ ""

end Token

/-! ## What pieces begin with -/

namespace Piece

theorem isSeparator_head {t : Terminal} (ht : (terminal t).Valid) {c : Char} {cs : List Char}
    (htext : (terminal t).text = c :: cs) : isSeparator c = false := by
  cases hc : isSeparator c with
  | false => rfl
  | true =>
    -- what begins with a separator is read as one
    have hstop : (terminal t).runsOn → StopsRun isSymbolPart [] := fun _ => stopsRun_nil _
    have hread := Lexeme.next_complete ht htext hstop
    rw [Lexeme.next_separator hc] at hread
    cases hread

theorem isSymbolPart_head {p : Piece} (hp : p.Valid) (hruns : p.runsOn) {c : Char}
    {cs : List Char} (htext : p.text = c :: cs) : isSymbolPart c := by
  match p with
  | .terminal (.atom (.numeral n)) =>
    have hb := Lexeme.beginsNumeral_text hp []
    have hn : n.text.toList = c :: cs := htext
    rw [hn] at hb
    exact (Lexeme.beginsNumeral_part hb).1
  | .terminal (.atom (.keyword text)) =>
    obtain ⟨name, rfl, -⟩ := hp
    obtain ⟨rfl, -⟩ : ':' = c ∧ name.toList = cs := by
      simpa [text, Terminal.text, Atom.text] using htext
    decide
  | .terminal (.atom (.boolean value)) =>
    obtain ⟨d, name, hname, hbegins, -⟩ := Lexeme.text_word (a := .boolean value) hp trivial
    obtain ⟨rfl, -⟩ := List.cons.inj (htext.symm.trans hname)
    exact (Lexeme.beginsSymbol_part (Lexeme.beginsSymbol_iff.mp hbegins).2).1
  | .terminal (.atom (.symbol name)) =>
    obtain ⟨d, name, hname, hbegins, -⟩ := Lexeme.text_word (a := .symbol name) hp trivial
    obtain ⟨rfl, -⟩ := List.cons.inj (htext.symm.trans hname)
    exact (Lexeme.beginsSymbol_part (Lexeme.beginsSymbol_iff.mp hbegins).2).1
  | .separator _ | .terminal (.opening _) | .terminal (.closing _)
  | .terminal (.atom (.string _)) => cases hruns

theorem not_isSymbolPart_head {p : Piece} (hp : p.Valid) (hruns : p.runsOn = false) {c : Char}
    {cs : List Char} (htext : p.text = c :: cs) : ¬ isSymbolPart c := by
  match p with
  | .separator d =>
    obtain ⟨rfl, -⟩ := List.cons.inj htext
    intro hpart
    rw [Valid, isSeparator_eq_false hpart] at hp
    cases hp
  | .terminal (.opening d) =>
    obtain ⟨rfl, -⟩ : d.opening = c ∧ [] = cs := by simpa [text, Terminal.text] using htext
    cases d <;> decide
  | .terminal (.closing d) =>
    obtain ⟨rfl, -⟩ : d.closing = c ∧ [] = cs := by simpa [text, Terminal.text] using htext
    cases d <;> decide
  | .terminal (.atom (.string body)) =>
    obtain ⟨rfl, -⟩ : '"' = c ∧ body.toList ++ ['"'] = cs := by
      simpa [text, Terminal.text, Atom.text] using htext
    decide
  | .terminal (.atom (.numeral _)) | .terminal (.atom (.boolean _))
  | .terminal (.atom (.keyword _)) | .terminal (.atom (.symbol _)) => cases hruns

/-- A piece may stand right behind one that runs on exactly if it does not run on itself. -/
theorem stopsRun_iff {p : Piece} (hp : p.Valid) (rest : List Char) :
    StopsRun isSymbolPart (p.text ++ rest) ↔ p.runsOn = false := by
  obtain ⟨c, cs, htext⟩ := exists_text_cons hp
  rw [htext, List.cons_append, stopsRun_cons]
  constructor
  · intro hstop
    apply Bool.eq_false_iff.mpr
    intro hruns
    exact hstop (isSymbolPart_head hp hruns htext)
  · intro hruns
    exact not_isSymbolPart_head hp hruns htext

end Piece

/-! ## Text and terminals determine a row of pieces -/

theorem pieces_eq_of_terminals {ps qs : List Piece} (hps : ∀ p ∈ ps, p.Valid)
    (hqs : ∀ q ∈ qs, q.Valid) (hterminals : piecesTerminals ps = piecesTerminals qs)
    (htext : piecesText ps = piecesText qs) : ps = qs := by
  induction ps generalizing qs with
  | nil =>
    cases qs with
    | nil => rfl
    | cons q qs =>
      obtain ⟨c, t, ht⟩ := Piece.exists_text_cons (hqs q (by simp))
      rw [piecesText_cons, ht] at htext
      cases htext
  | cons p ps ih =>
    have hp := hps p (by simp)
    obtain ⟨c, t, ht⟩ := Piece.exists_text_cons hp
    cases qs with
    | nil =>
      rw [piecesText_cons, ht] at htext
      cases htext
    | cons q qs =>
      have hq := hqs q (by simp)
      obtain ⟨d, u, hu⟩ := Piece.exists_text_cons hq
      have hps' := fun r hr => hps r (List.mem_cons_of_mem p hr)
      have hqs' := fun r hr => hqs r (List.mem_cons_of_mem q hr)
      have hhead : c = d := by
        rw [piecesText_cons, piecesText_cons, ht, hu] at htext
        exact (List.cons.inj htext).1
      subst hhead
      rw [piecesText_cons, piecesText_cons] at htext
      cases p with
      | separator a =>
        cases q with
        | separator b =>
          obtain ⟨rfl, hrest⟩ := List.cons.inj htext
          rw [ih hps' hqs' hterminals hrest]
        | terminal v =>
          -- a separator on one side, the beginning of a lexeme on the other
          obtain ⟨rfl, -⟩ := List.cons.inj ht
          have hsep : isSeparator a = true := hp
          rw [Piece.isSeparator_head hq hu] at hsep
          cases hsep
      | terminal v =>
        cases q with
        | separator b =>
          obtain ⟨rfl, -⟩ := List.cons.inj hu
          have hsep : isSeparator b = true := hq
          rw [Piece.isSeparator_head hp ht] at hsep
          cases hsep
        | terminal w =>
          rw [piecesTerminals_terminal, piecesTerminals_terminal] at hterminals
          obtain ⟨rfl, hrest⟩ := List.cons.inj hterminals
          rw [ih hps' hqs' hrest (List.append_cancel_left htext)]

/-! ## The pieces of lexemes and gaps -/

/-- The pieces of a gap. -/
def gapPieces (g : String) : List Piece :=
  g.toList.map .separator

/-- The pieces of terminals in a row with gaps between them. -/
def spacedPieces (gap : Nat → String) : List Terminal → List Piece
  | [] => gapPieces (gap 0)
  | t :: ts => gapPieces (gap 0) ++ .terminal t :: spacedPieces (fun i => gap (i + 1)) ts

theorem piecesText_gap (g : String) : piecesText (gapPieces g) = g.toList := by
  simp [gapPieces, piecesText, List.flatMap_map, Piece.text]

theorem piecesTerminals_gap (g : String) : piecesTerminals (gapPieces g) = [] := by
  simp [gapPieces, piecesTerminals, Piece.terminal?]

theorem piecesText_spaced (gap : Nat → String) (ts : List Terminal) :
    piecesText (spacedPieces gap ts) = (spaced gap (ts.map Terminal.text)).toList := by
  induction ts generalizing gap with
  | nil => exact piecesText_gap (gap 0)
  | cons t ts ih =>
    rw [spacedPieces, Form.piecesText_append, piecesText_gap, piecesText_cons, ih]
    simp [spaced, Piece.text]

theorem piecesTerminals_spaced (gap : Nat → String) (ts : List Terminal) :
    piecesTerminals (spacedPieces gap ts) = ts := by
  induction ts generalizing gap with
  | nil => exact piecesTerminals_gap (gap 0)
  | cons t ts ih =>
    rw [spacedPieces, piecesTerminals_append, piecesTerminals_gap, piecesTerminals_terminal, ih]
    rfl

theorem valid_spacedPieces {gap : Nat → String} {ts : List Terminal}
    (hgap : ∀ i, ∀ c ∈ (gap i).toList, isSeparator c) (hts : ∀ t ∈ ts, (Piece.terminal t).Valid) :
    ∀ p ∈ spacedPieces gap ts, p.Valid := by
  have hgaps : ∀ i, ∀ p ∈ gapPieces (gap i), p.Valid := by
    intro i p hp
    obtain ⟨c, hc, rfl⟩ := List.mem_map.mp hp
    exact hgap i c hc
  induction ts generalizing gap with
  | nil => exact hgaps 0
  | cons t ts ih =>
    intro p hp
    rw [spacedPieces, List.mem_append, List.mem_cons] at hp
    rcases hp with hp | rfl | hp
    · exact hgaps 0 p hp
    · exact hts t (by simp)
    · exact ih (fun i => hgap (i + 1)) (fun u hu => hts u (by simp [hu])) (fun i => hgaps (i + 1))
        p hp

theorem parted_gap_append (g : String) (ps : List Piece) :
    Parted (gapPieces g ++ ps) ↔ Parted ps := by
  rw [gapPieces]
  induction g.toList with
  | nil => rfl
  | cons c cs ih => simpa [Parted, Piece.runsOn] using ih

/-- What stands before a row of terminals and gaps may run on exactly if a gap comes first, or no
terminal that runs on itself. -/
theorem stopsRun_spaced {gap : Nat → String} {ts : List Terminal}
    (hgap : ∀ i, ∀ c ∈ (gap i).toList, isSeparator c) (hts : ∀ t ∈ ts, (Piece.terminal t).Valid) :
    StopsRun isSymbolPart (piecesText (spacedPieces gap ts)) ↔
      ∀ t ∈ ts.head?, (Piece.terminal t).runsOn → gap 0 ≠ "" := by
  by_cases hempty : gap 0 = ""
  · cases ts with
    | nil => simp [spacedPieces, gapPieces, hempty, piecesText, stopsRun_nil]
    | cons t ts =>
      have hnone : gapPieces (gap 0) = [] := by rw [gapPieces, hempty]; rfl
      rw [spacedPieces, hnone, List.nil_append, piecesText_cons,
        Piece.stopsRun_iff (hts t (by simp))]
      simp [hempty]
  · obtain ⟨rest, hrest⟩ : ∃ rest, piecesText (spacedPieces gap ts) = (gap 0).toList ++ rest := by
      cases ts with
      | nil => exact ⟨[], (piecesText_gap (gap 0)).trans (List.append_nil _).symm⟩
      | cons t ts =>
        rw [spacedPieces, Form.piecesText_append, piecesText_gap]
        exact ⟨_, rfl⟩
    have hne : (gap 0).toList ≠ [] := by simpa using hempty
    rw [hrest]
    simp [stopsRun_of_separators hne (hgap 0) rest, hempty]

/-- Lexemes with gaps between them are parted exactly if a gap stands between any two of them that
run on. -/
theorem parted_spacedPieces {gap : Nat → String} {ts : List Terminal}
    (hgap : ∀ i, ∀ c ∈ (gap i).toList, isSeparator c) (hts : ∀ t ∈ ts, (Piece.terminal t).Valid) :
    Parted (spacedPieces gap ts) ↔
      ∀ (i : Nat) (t u : Terminal), ts[i]? = some t → ts[i + 1]? = some u →
        (Piece.terminal t).runsOn → (Piece.terminal u).runsOn → gap (i + 1) ≠ "" := by
  induction ts generalizing gap with
  | nil =>
    have hnone : Parted (gapPieces (gap 0) ++ []) := (parted_gap_append (gap 0) []).mpr trivial
    rw [List.append_nil] at hnone
    simp [spacedPieces, hnone]
  | cons t ts ih =>
    have hgap' : ∀ i, ∀ c ∈ (gap (i + 1)).toList, isSeparator c := fun i => hgap (i + 1)
    have hts' : ∀ u ∈ ts, (Piece.terminal u).Valid := fun u hu => hts u (List.mem_cons_of_mem t hu)
    rw [spacedPieces, parted_gap_append, Parted]
    have hfirst : ((Piece.terminal t).runsOn → ∀ c ∈ (piecesText (spacedPieces
        (fun i => gap (i + 1)) ts)).head?, ¬ isSymbolPart c) ↔
        ((Piece.terminal t).runsOn → ∀ u ∈ ts.head?, (Piece.terminal u).runsOn → gap 1 ≠ "") :=
      imp_congr_right fun _ => stopsRun_spaced hgap' hts'
    rw [hfirst, ih hgap' hts']
    constructor
    · rintro ⟨hhead, htail⟩ i a b ha hb hruns
      cases i with
      | zero =>
        obtain rfl : t = a := by simpa using ha
        rw [List.getElem?_cons_succ, ← List.head?_eq_getElem?] at hb
        exact hhead hruns b hb
      | succ i => exact htail i a b ha hb hruns
    · intro hall
      refine ⟨?_, fun i a b ha hb => hall (i + 1) a b ha hb⟩
      intro hruns b hb
      rw [Option.mem_def, List.head?_eq_getElem?] at hb
      exact hall 0 t b rfl hb hruns

/-! ## Tokens and terminals -/

namespace Token

theorem isBare_eq {t : Token} {u : Terminal} (h : t.kind = .terminal u) :
    t.isBare = (Piece.terminal u).runsOn := by
  rw [isBare, h]
  cases u with
  | opening d => rfl
  | closing d => rfl
  | atom a => cases a <;> rfl

theorem keptApart_iff {gap : Nat → String} {ts : List Token} {us : List Terminal}
    (h : ts.map kind = us.map .terminal) :
    KeptApart gap ts ↔
      ∀ (i : Nat) (t u : Terminal), us[i]? = some t → us[i + 1]? = some u →
        (Piece.terminal t).runsOn → (Piece.terminal u).runsOn → gap (i + 1) ≠ "" := by
  have hat : ∀ i : Nat, ts[i]?.map kind = us[i]?.map .terminal := by
    intro i
    rw [← List.getElem?_map, h, List.getElem?_map]
  constructor
  · intro hapart i t u ht hu htruns huruns
    obtain ⟨t', ht', hkind⟩ := Option.map_eq_some_iff.mp ((hat i).trans (congrArg _ ht))
    obtain ⟨u', hu', hkind'⟩ := Option.map_eq_some_iff.mp ((hat (i + 1)).trans (congrArg _ hu))
    rw [← isBare_eq hkind] at htruns
    rw [← isBare_eq hkind'] at huruns
    exact hapart i t' u' ht' hu' htruns huruns
  · intro hapart i t u ht hu htbare hubare
    obtain ⟨t', ht', hkind⟩ := Option.map_eq_some_iff.mp ((hat i).symm.trans (congrArg _ ht))
    obtain ⟨u', hu', hkind'⟩ := Option.map_eq_some_iff.mp ((hat (i + 1)).symm.trans (congrArg _ hu))
    rw [isBare_eq hkind.symm] at htbare
    rw [isBare_eq hkind'.symm] at hubare
    exact hapart i t' u' ht' hu' htbare hubare

end Token

theorem lexemes_beforeEnd (pos : Position) (ps : List Piece) :
    (beforeEnd (piecesTokens pos ps)).map Token.lexeme = (piecesTerminals ps).map Terminal.text := by
  induction ps generalizing pos with
  | nil => rfl
  | cons p ps ih =>
    cases p with
    | separator c => exact ih (pos.next c)
    | terminal t =>
      rw [piecesTokens, Token.beforeEnd_cons rfl, List.map_cons, ih]
      rfl

theorem lexemes_beforeEnd_tokens {source : String} (l : Layout source) :
    (beforeEnd l.tokens).map Token.lexeme = (piecesTerminals l.pieces).map Terminal.text :=
  lexemes_beforeEnd .start l.pieces

theorem valid_terminals {ps : List Piece} (h : ∀ p ∈ ps, p.Valid) :
    ∀ t ∈ piecesTerminals ps, (Piece.terminal t).Valid := by
  intro t ht
  obtain ⟨p, hp, hterminal⟩ := List.mem_filterMap.mp ht
  cases p with
  | separator c => cases hterminal
  | terminal u =>
    cases hterminal
    exact h _ hp

/-- The layout of lexemes with gaps between them. -/
def spacedLayout {gap : Nat → String} {ts : List Terminal}
    (hgap : ∀ i, ∀ c ∈ (gap i).toList, isSeparator c) (hts : ∀ t ∈ ts, (Piece.terminal t).Valid)
    (hparted : Parted (spacedPieces gap ts)) : Layout (spaced gap (ts.map Terminal.text)) where
  pieces := spacedPieces gap ts
  text_eq := piecesText_spaced gap ts
  valid := valid_spacedPieces hgap hts
  parted := hparted

/-- A scan that finds the terminals again has cut the text at the gaps. -/
theorem parted_of_scan {gap : Nat → String} {ts : List Terminal} {us : List Token}
    (hgap : ∀ i, ∀ c ∈ (gap i).toList, isSeparator c) (hts : ∀ t ∈ ts, (Piece.terminal t).Valid)
    (h : Token.scan (spaced gap (ts.map Terminal.text)) = .ok us)
    (hkinds : us.map Token.kind = ts.map .terminal ++ [.eof]) : Parted (spacedPieces gap ts) := by
  obtain ⟨l, rfl⟩ := Layout.exists_of_scan h
  have hsame := (kinds_piecesTokens .start l.pieces).symm.trans hkinds
  have hterminals : piecesTerminals l.pieces = piecesTerminals (spacedPieces gap ts) := by
    rw [piecesTerminals_spaced]
    exact map_terminal_inj (List.append_cancel_right hsame)
  have htext : piecesText l.pieces = piecesText (spacedPieces gap ts) := by
    rw [l.text_eq, piecesText_spaced]
  rw [← pieces_eq_of_terminals l.valid (valid_spacedPieces hgap hts) hterminals htext]
  exact l.parted

namespace Form

/-- The lexemes of a source with other gaps are scanned into the same kinds and lexemes exactly if
a gap stands between any two neighbours that are bare atoms.  Then the forms are the same, or the
error has the same cause and lies with the same token. -/
theorem scan_spaced_iff {source : String} {us : List Token} (h : Token.scan source = .ok us)
    {gap : Nat → String} (hgap : ∀ i, ∀ c ∈ (gap i).toList, isSeparator c) :
    ((∃ us', Token.scan (spaced gap ((beforeEnd us).map Token.lexeme)) = .ok us' ∧
        us'.map Token.kind = us.map Token.kind ∧
        us'.map Token.lexeme = us.map Token.lexeme) ↔ Token.KeptApart gap (beforeEnd us)) ∧
      (Token.KeptApart gap (beforeEnd us) →
        ∃ us', Token.scan (spaced gap ((beforeEnd us).map Token.lexeme)) = .ok us' ∧
          ((∃ fs, read source = .ok fs ∧
              read (spaced gap ((beforeEnd us).map Token.lexeme)) = .ok fs) ∨
            ∃ (cause : Cause) (i : Nat) (t t' : Token), us[i]? = some t ∧ us'[i]? = some t' ∧
              read source = .error ⟨cause, t.position⟩ ∧
              read (spaced gap ((beforeEnd us).map Token.lexeme)) =
                .error ⟨cause, t'.position⟩)) := by
  obtain ⟨l, rfl⟩ := Layout.exists_of_scan h
  have hts := valid_terminals l.valid
  have hkinds : l.tokens.map Token.kind = _ := kinds_piecesTokens .start l.pieces
  have hlexemes : l.tokens.map Token.lexeme = _ := lexemes_piecesTokens .start l.pieces
  rw [lexemes_beforeEnd_tokens, Token.keptApart_iff (kinds_beforeEnd hkinds),
    ← parted_spacedPieces hgap hts]
  have hagain : ∀ hparted : Parted (spacedPieces gap (piecesTerminals l.pieces)),
      (spacedLayout hgap hts hparted).tokens.map Token.kind = l.tokens.map Token.kind ∧
        (spacedLayout hgap hts hparted).tokens.map Token.lexeme = l.tokens.map Token.lexeme := by
    intro hparted
    rw [hkinds, hlexemes, Layout.tokens, kinds_piecesTokens, lexemes_piecesTokens, spacedLayout,
      piecesTerminals_spaced]
    exact ⟨rfl, rfl⟩
  constructor
  · constructor
    · rintro ⟨us', hscan, hkinds', -⟩
      exact parted_of_scan hgap hts hscan (hkinds'.trans hkinds)
    · intro hparted
      exact ⟨_, (spacedLayout hgap hts hparted).scan_eq, hagain hparted⟩
  · intro hparted
    have hscan := (spacedLayout hgap hts hparted).scan_eq
    refine ⟨_, hscan, ?_⟩
    rw [read_of_scan_ok h, read_of_scan_ok hscan]
    exact parse_same_kinds (hagain hparted).1

theorem scan_spaced_iff_touching :
    ∃ us, Token.scan "\"s\" b 1)" = .ok us ∧
      (∃ us', Token.scan "\"s\"b\n1)" = .ok us' ∧
        ∃ (cause : Cause) (i : Nat) (t t' : Token), us[i]? = some t ∧ us'[i]? = some t' ∧
          read "\"s\" b 1)" = .error ⟨cause, t.position⟩ ∧
          read "\"s\"b\n1)" = .error ⟨cause, t'.position⟩) ∧
      ¬ ∃ us', Token.scan "\"s\"b1)" = .ok us' ∧ us'.map Token.kind = us.map Token.kind ∧
        us'.map Token.lexeme = us.map Token.lexeme := by
  let us : List Token := [⟨.terminal (.atom (.string "s")), "\"s\"", ⟨0, 1, 1⟩⟩,
    ⟨.terminal (.atom (.symbol "b")), "b", ⟨4, 1, 5⟩⟩,
    ⟨.terminal (.atom (.numeral (.integer none "1"))), "1", ⟨6, 1, 7⟩⟩,
    ⟨.terminal (.closing .paren), ")", ⟨7, 1, 8⟩⟩, Token.atEnd ⟨8, 1, 9⟩]
  have hscan : Token.scan "\"s\" b 1)" = .ok us := by cbv
  have hfault : read "\"s\" b 1)" = .error ⟨.invalidCharacter ')', ⟨7, 1, 8⟩⟩ := by cbv
  have hline : ∀ i, ∀ c ∈ (if i = 2 then "\n" else "").toList, isSeparator c := by
    intro i
    by_cases hi : i = 2 <;> simp [hi, isSeparator]
  have hnone : ∀ i : Nat, ∀ c ∈ ((fun _ => "") i : String).toList, isSeparator c := by simp
  -- of the neighbours only the symbol and the number are both bare
  have hapart : Token.KeptApart (fun i => if i = 2 then "\n" else "") (beforeEnd us) := by
    intro i t u ht hu htbare hubare
    rcases i with _ | _ | _ | i
    · cases ht
      cases htbare
    · decide
    · cases hu
      cases hubare
    · cases hu
  have htouch : ¬ Token.KeptApart (fun _ => "") (beforeEnd us) :=
    fun h => h 1 _ _ rfl rfl rfl rfl rfl
  obtain ⟨us', hagain, ⟨fs, hread, -⟩ | hsame⟩ := (scan_spaced_iff hscan hline).2 hapart
  · rw [hfault] at hread
    cases hread
  · exact ⟨us, hscan, ⟨us', hagain, hsame⟩, fun h => htouch ((scan_spaced_iff hscan hnone).1.mp h)⟩

end Form

end Sexp
