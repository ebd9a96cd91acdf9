import Sexp.Proofs.Pieces
import Sexp.Token.Scan

/-! # Scanning accepts exactly the layouts

A step of a scan that moves passes over one valid piece (`step_sound`), and wherever a valid piece
stands, the step passes over it (`step_complete`).  A whole run therefore succeeds exactly on the
texts of rows of pieces, and hands out what it had gathered and the tokens of the row. -/

namespace Sexp

/-- The token of a piece that begins at a position, if it has one. -/
def Piece.token? (p : Position) : Piece → Option Token
  | .separator _ => none
  | .terminal t => some ⟨.terminal t, t.text, p⟩

theorem piecesTokens_cons (pos : Position) (p : Piece) (ps : List Piece) :
    piecesTokens pos (p :: ps) = (p.token? pos).toList ++ piecesTokens (pos.after p.text) ps := by
  cases p <;> rfl

namespace Scan

/-! ## A run is a step and the run that follows it -/

theorem step_eq_finished {s : Scan} : s.step = .finished ↔ s.rest = [] := by
  unfold step
  split
  next h => simp [h]
  next c cs h =>
    simp only [h, reduceCtorEq, iff_false]
    split <;> simp

theorem run_of_finished {s : Scan} (h : s.step = .finished) :
    s.run = (.ok (Token.atEnd s.position :: s.gathered).reverse, { s with gathered := [] }) := by
  rw [run]
  split
  next => rfl
  next h' => cases h.symm.trans h'
  next h' => cases h.symm.trans h'

theorem run_of_moved {s next : Scan} {token : Option Token} (h : s.step = .moved token next) :
    s.run = next.run := by
  rw [run]
  split
  next h' => cases h.symm.trans h'
  next h' =>
    cases h.symm.trans h'
    rfl
  next h' => cases h.symm.trans h'

/-! ## One step passes over one piece -/

/-- The scan behind a piece, of which `rest` is left. -/
def past (s : Scan) (p : Piece) (rest : List Char) : Scan :=
  ⟨rest, s.position.after p.text, (p.token? s.position).toList ++ s.gathered⟩

theorem step_sound {s next : Scan} {token : Option Token} (h : s.step = .moved token next) :
    ∃ p : Piece, p.Valid ∧ s.rest = p.text ++ next.rest ∧
      (p.runsOn → StopsRun isSymbolPart next.rest) ∧
      token = p.token? s.position ∧ next = s.past p next.rest := by
  unfold step at h
  split at h
  next => cases h
  next c cs hs =>
    have hsplit := Lexeme.text_append_rest_next c cs
    dsimp only at h
    split at h
    next => cases h
    next hv =>
      -- nothing is gathered, so the piece is a separator
      cases h
      obtain ⟨p, hp, hterminal, htext, hstop⟩ := Lexeme.next_sound hv
      cases p with
      | terminal t => cases hterminal
      | separator d =>
        refine ⟨.separator d, hp, by rw [hs, htext, hsplit], hstop, rfl, ?_⟩
        rw [past, htext]
        rfl
    next t hv =>
      -- a terminal is gathered, so the piece is its text
      cases h
      obtain ⟨p, hp, hterminal, htext, hstop⟩ := Lexeme.next_sound hv
      cases p with
      | separator d => cases hterminal
      | terminal u =>
        cases hterminal
        refine ⟨.terminal t, hp, by rw [hs, htext, hsplit], hstop, ?_, ?_⟩
        · simp [Piece.token?, ← htext, Piece.text]
        · simp [past, Piece.token?, ← htext, Piece.text]

theorem step_complete {s : Scan} {p : Piece} (hp : p.Valid) {rest : List Char}
    (hs : s.rest = p.text ++ rest) (hr : p.runsOn → StopsRun isSymbolPart rest) :
    s.step = .moved (p.token? s.position) (s.past p rest) := by
  obtain ⟨c, t, ht⟩ := Piece.exists_text_cons hp
  have hread := Lexeme.next_complete hp ht hr
  rw [ht, List.cons_append] at hs
  cases p with
  | separator d => simp [step, hs, hread, Piece.terminal?, past, ht, Piece.token?]
  | terminal u =>
    have hlexeme : String.ofList (c :: t) = u.text := by
      rw [← ht]
      exact String.ofList_toList
    simp [step, hs, hread, Piece.terminal?, past, ht, Piece.token?, hlexeme]

theorem step_of_terminal {s : Scan} {u : Terminal} (hu : (Piece.terminal u).Valid)
    {rest : List Char} (hs : s.rest = u.text.toList ++ rest)
    (hr : (Piece.terminal u).runsOn → StopsRun isSymbolPart rest) :
    let token : Token := ⟨.terminal u, u.text, s.position⟩
    s.step = .moved (some token) ⟨rest, s.position.after u.text.toList, token :: s.gathered⟩ :=
  step_complete hu hs hr

/-! ## Whole runs -/

/-- A run that succeeds has passed over a row of pieces to the end of the source. -/
theorem run_sound {s : Scan} {ts : List Token} (h : s.run.1 = .ok ts) :
    ∃ ps : List Piece, (∀ p ∈ ps, p.Valid) ∧ Parted ps ∧ piecesText ps = s.rest ∧
      ts = s.gathered.reverse ++ piecesTokens s.position ps := by
  fun_induction run s with
  | case1 s hstep =>
    cases h
    refine ⟨[], by simp, trivial, (step_eq_finished.mp hstep).symm, ?_⟩
    simp [piecesTokens]
  | case2 s token next hstep ih =>
    -- the piece that was passed over stands before the pieces of the run that follows
    obtain ⟨ps, hvalid, hparted, htext, rfl⟩ := ih h
    obtain ⟨p, hp, hs, hstop, -, hnext⟩ := step_sound hstep
    refine ⟨p :: ps, ?_, ⟨?_, hparted⟩, ?_, ?_⟩
    · simpa using ⟨hp, hvalid⟩
    · rw [htext]
      exact hstop
    · rw [piecesText_cons, htext, hs]
    · rw [hnext, piecesTokens_cons]
      cases p <;> simp [past, Piece.token?]
  | case3 s e next hstep => cases h

/-- A run over a row of pieces gathers the tokens of the row. -/
theorem run_complete {s : Scan} {ps : List Piece} (hvalid : ∀ p ∈ ps, p.Valid)
    (hparted : Parted ps) (hs : s.rest = piecesText ps) :
    s.run.1 = .ok (s.gathered.reverse ++ piecesTokens s.position ps) := by
  induction ps generalizing s with
  | nil =>
    rw [run_of_finished (step_eq_finished.mpr hs)]
    simp [piecesTokens]
  | cons p ps ih =>
    rw [piecesText_cons] at hs
    rw [run_of_moved (step_complete (hvalid p (by simp)) hs hparted.1),
      ih (fun q hq => hvalid q (by simp [hq])) hparted.2 rfl, piecesTokens_cons]
    cases p <;> simp [past, Piece.token?]

end Scan

/-! ## Layouts of a source -/

namespace Layout

theorem exists_of_scan {source : String} {ts : List Token} (h : Token.scan source = .ok ts) :
    ∃ l : Layout source, l.tokens = ts := by
  obtain ⟨ps, hvalid, hparted, htext, hts⟩ := Scan.run_sound h
  exact ⟨⟨ps, htext, hvalid, hparted⟩, hts.symm⟩

theorem scan_eq {source : String} (l : Layout source) : Token.scan source = .ok l.tokens :=
  Scan.run_complete (s := .ofSource source) l.valid l.parted l.text_eq.symm

theorem unique {source : String} (l l' : Layout source) : l = l' := by
  have h := pieces_unique l.valid l'.valid l.parted l'.parted (l.text_eq.trans l'.text_eq.symm)
  cases l
  cases l'
  cases h
  rfl

end Layout

/-! ## What the tokens of a row of pieces say -/

/-- The terminals of a row of pieces, without what separates them. -/
def piecesTerminals (ps : List Piece) : List Terminal :=
  ps.filterMap Piece.terminal?

@[simp] theorem piecesTerminals_nil : piecesTerminals [] = [] := rfl

@[simp] theorem piecesTerminals_separator (c : Char) (ps : List Piece) :
    piecesTerminals (.separator c :: ps) = piecesTerminals ps := rfl

@[simp] theorem piecesTerminals_terminal (t : Terminal) (ps : List Piece) :
    piecesTerminals (.terminal t :: ps) = t :: piecesTerminals ps := rfl

@[simp] theorem piecesTerminals_append (ps qs : List Piece) :
    piecesTerminals (ps ++ qs) = piecesTerminals ps ++ piecesTerminals qs :=
  List.filterMap_append

/-- Whatever the tokens say beside their places, their terminals say in the same order. -/
theorem map_piecesTokens {α : Type} {g : Token → α} {ofTerminal : Terminal → α} {last : α}
    (hterminal : ∀ t p, g ⟨.terminal t, t.text, p⟩ = ofTerminal t)
    (hend : ∀ p, g (Token.atEnd p) = last) (pos : Position) (ps : List Piece) :
    (piecesTokens pos ps).map g = (piecesTerminals ps).map ofTerminal ++ [last] := by
  induction ps generalizing pos with
  | nil => simp [piecesTokens, hend]
  | cons p ps ih =>
    rw [piecesTokens_cons, List.map_append, ih]
    cases p <;> simp [Piece.token?, hterminal]

theorem kinds_piecesTokens (pos : Position) (ps : List Piece) :
    (piecesTokens pos ps).map Token.kind = (piecesTerminals ps).map .terminal ++ [.eof] :=
  map_piecesTokens (fun _ _ => rfl) (fun _ => rfl) pos ps

theorem lexemes_piecesTokens (pos : Position) (ps : List Piece) :
    (piecesTokens pos ps).map Token.lexeme = (piecesTerminals ps).map Terminal.text ++ [""] :=
  map_piecesTokens (fun _ _ => rfl) (fun _ => rfl) pos ps

/-- A scan succeeds exactly on the sources that have a layout, and hands out its tokens.  A source
has at most one layout.  The kinds and lexemes handed out are its terminals and their texts in
order, and the end mark comes last. -/
theorem scan_eq_ok_iff_layout (source : String) :
    (∀ ts, Token.scan source = .ok ts ↔ ∃ l : Layout source, l.tokens = ts) ∧
      (∀ l l' : Layout source, l = l') ∧
      ∀ l : Layout source,
        l.tokens.map Token.kind = (piecesTerminals l.pieces).map .terminal ++ [.eof] ∧
          l.tokens.map Token.lexeme = (piecesTerminals l.pieces).map Terminal.text ++ [""] := by
  refine ⟨?_, Layout.unique, ?_⟩
  · intro ts
    constructor
    · exact Layout.exists_of_scan
    · rintro ⟨l, rfl⟩
      exact l.scan_eq
  · intro l
    exact ⟨kinds_piecesTokens _ _, lexemes_piecesTokens _ _⟩

end Sexp
