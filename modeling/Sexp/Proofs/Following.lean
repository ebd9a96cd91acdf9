import Sexp.Proofs.Cursors
import Sexp.Proofs.OnePass

/-! # A cursor follows a scan

A token is cut by a cursor as the scan reads the lexeme at that place (`on_scanToken`), and so the
cursor keeps at the place of the scan (`Follows`), from token to token and from run to run.  All of
it is within the domains of the operations, whatever the source and whether or not it can be cut.

Forms may therefore be read from the tokens that a cursor cuts (`Form.readByIndex`).  That reading
shares neither its way over the characters nor its nesting with `Form.descend`, and
`Form.readByIndex_eq_descend_iff` compares the two.
-/

namespace Sexp

namespace Cursor

variable (before seen : List Char) {rest : List Char} (tokens : List Token)

/-! ## One token -/

/-- What an operation gives that gathers the token read by `r`, if it is one. -/
def gathers (before : List Char) (tokens : List Token)
    (r : Reading (Except Cause (Option Terminal))) : Option (Except Error Unit × Cursor) :=
  let next := amid before r.text r.rest
  match r.value with
  | .ok none => some (.ok (), next tokens)
  | .ok (some t) => some (.ok (),
      next (⟨.terminal t, String.ofList r.text, Position.start.after before⟩ :: tokens))
  | .error cause => some (.error ⟨cause, Scan.faultPosition (.after .start before)
      (next tokens).position cause⟩, next tokens)

theorem on_bind_addToken {α : Type} {x : Op α} {c : Cursor} {r : Reading (Except Cause α)}
    (h : x.on c = reads before seen tokens r) (f : α → Terminal) :
    (x >>= fun a => addToken (f a)).on c =
      gathers before tokens ((r.map (·.map fun a => some (f a))).following seen) := by
  cases hr : r.value with
  | error cause =>
    rw [on_bind_cause _ _ _ h hr]
    simp [reads, gathers, Reading.following, Reading.map, hr, Except.map]
  | ok a =>
    rw [on_bind_value _ _ _ h hr, on_addToken]
    simp [gathers, Reading.following, Reading.map, hr, Except.map]

theorem map_blaming (r : Reading (Except Numeral.Fault Numeral)) :
    (blaming r).map (·.map fun n => some (.atom (.numeral n))) = r.map Lexeme.ofNumeral := by
  obtain ⟨value, text, rest⟩ := r
  cases value <;> rfl

theorem on_bind_numeral {x : Op Numeral} {c : Cursor} {text : List Char}
    (h : x.on c = reads before [] tokens (blaming (Lexeme.numeral text))) :
    (x >>= fun n => addToken (.atom (.numeral n))).on c =
      gathers before tokens ((Lexeme.numeral text).map Lexeme.ofNumeral) := by
  rw [on_bind_addToken _ _ _ h fun n => .atom (.numeral n), map_blaming]
  rfl

theorem on_bind_symbol {c : Char} (h : BeginsSymbol c rest) :
    (symbol >>= fun a => addToken (.atom a)).on (amid before [c] rest tokens) =
      gathers before tokens (Lexeme.next c rest) := by
  rw [on_bind_addToken _ _ _ (on_symbol before tokens c) .atom, Lexeme.next_symbol h]
  rfl

theorem isDigit_headD_eq_any (rest : List Char) :
    (rest.headD endMark).isDigit = rest.head?.any Char.isDigit := by
  cases rest <;> rfl

/-- A sign before a digit begins a number, and any other one a symbol. -/
theorem on_peek_bind_signed {c : Char} {s : Sign} (hs : Sign.ofChar? c = some s) :
    (peek >>= fun d =>
        if d.isDigit then numeral (some s) >>= fun n => addToken (.atom (.numeral n))
        else symbol >>= fun a => addToken (.atom a)).on (amid before [c] rest tokens) =
      gathers before tokens (Lexeme.next c rest) := by
  have hsign : IsSign c := by
    rw [Sign.ofChar?_eq_some_iff.mp hs]
    cases s
    · exact .inl rfl
    · exact .inr rfl
  have hbegins := Lexeme.beginsNumeral_sign hsign rest
  rw [Op.on_bind_ok (on_peek _ _ _), isDigit_headD_eq_any, ← hbegins]
  by_cases hnumeral : Lexeme.beginsNumeral (c :: rest)
  · rw [if_pos hnumeral, Lexeme.next_numeral hnumeral]
    exact on_bind_numeral before tokens (on_numeral_signed before tokens hs)
  · rw [if_neg hnumeral]
    apply on_bind_symbol
    apply Lexeme.beginsSymbol_iff.mpr
    exact ⟨by simpa using hnumeral, Lexeme.beginsSymbol_eq_true_iff.mpr (.inr (.inl hsign))⟩

theorem on_scanToken (c : Char) :
    scanToken.on (amid before [] (c :: rest) tokens) =
      gathers before tokens (Lexeme.next c rest) := by
  rw [scanToken, Op.on_bind_ok (on_advance before [] tokens c), List.nil_append]
  by_cases hsep : isSeparator c
  · rw [if_pos hsep, Op.on_pure, Lexeme.next_separator hsep]
    rfl
  rw [if_neg hsep]
  cases hopen : Delimiter.ofOpening? c with
  | some d =>
    obtain rfl := Delimiter.ofOpening?_eq_some_iff.mp hopen
    rw [Lexeme.next_opening]
    exact on_addToken before [d.opening] tokens _
  | none => ?_
  cases hclose : Delimiter.ofClosing? c with
  | some d =>
    obtain rfl := Delimiter.ofClosing?_eq_some_iff.mp hclose
    rw [Lexeme.next_closing]
    exact on_addToken before [d.closing] tokens _
  | none => ?_
  dsimp only
  by_cases hquote : c = '"'
  · rw [if_pos hquote, hquote]
    exact on_bind_addToken _ _ _ (on_string before tokens) .atom
  rw [if_neg hquote]
  by_cases hcolon : c = ':'
  · rw [if_pos hcolon, hcolon]
    exact on_bind_addToken _ _ _ (on_keyword before tokens) .atom
  rw [if_neg hcolon]
  cases hs : Sign.ofChar? c with
  | some s => exact on_peek_bind_signed before tokens hs
  | none => ?_
  have hsign : ¬ IsSign c := by
    rintro (rfl | rfl) <;> cases hs
  have hbegins := Lexeme.beginsNumeral_other hsign rest
  dsimp only
  by_cases hpoint : c = '.'
  · rw [if_pos hpoint]
    exact on_bind_symbol _ _ (.inr (.inl hpoint))
  rw [if_neg hpoint]
  by_cases hdigit : c.isDigit
  · rw [if_pos hdigit, Lexeme.next_numeral (hbegins.trans hdigit)]
    exact on_bind_numeral before tokens (on_numeral_unsigned before tokens hdigit)
  rw [if_neg hdigit]
  by_cases hstart : isSymbolStart c
  · rw [if_pos hstart]
    exact on_bind_symbol _ _ (.inl hstart)
  have hsymbol : ¬ Lexeme.beginsSymbol c := by
    simp [Lexeme.beginsSymbol_eq_true_iff, hstart, hsign, hpoint]
  have hnothing : Lexeme.BeginsNothing c :=
    Lexeme.beginsNothing_of_next hsep (by simp [hopen]) (by simp [hclose]) hquote hcolon
      (by rwa [hbegins]) hsymbol
  rw [if_neg hstart, Lexeme.next_nothing hnothing]
  rfl

/-! ## Whole sources -/

/-- A cursor in the text that has taken and gathered as much as a scan. -/
structure Follows (text : List Char) (s : Scan) (c : Cursor) : Prop where
  standsIn : s.StandsIn text
  source_eq : c.source = text.toArray
  position_eq : c.position = s.position
  tokens_eq : c.tokens = s.gathered
  inBounds : c.InBounds

theorem follows_ofSource (source : String) :
    Follows source.toList (Scan.ofSource source) (ofSource source) where
  standsIn := Scan.standsIn_ofSource source
  source_eq := rfl
  position_eq := rfl
  tokens_eq := rfl
  inBounds := ⟨Nat.le_refl _, Nat.zero_le _, Nat.le_add_left _ _, Nat.le_add_left _ _⟩

theorem follows_amid :
    Follows (before ++ (seen ++ rest)) ⟨rest, Position.start.after (before ++ seen), tokens⟩
      (amid before seen rest tokens) where
  standsIn := ⟨before ++ seen, (List.append_assoc ..).symm, rfl⟩
  source_eq := rfl
  position_eq := position_amid before seen tokens
  tokens_eq := rfl
  inBounds := inBounds_amid before seen tokens

variable {text : List Char} {s : Scan} {c : Cursor}

theorem Follows.exists_begun_eq (h : Follows text s c) :
    ∃ before, text = before ++ s.rest ∧ s.position = Position.start.after before ∧
      c.begun = amid before [] s.rest s.gathered := by
  obtain ⟨before, htext, hplace⟩ := h.standsIn
  have hposition : c.position = Position.start.after before := h.position_eq.trans hplace
  have hcurrent : c.current = before.length := by
    have hoffset : (Position.start.after before).offset = before.length := by simp
    rw [← hoffset, ← hposition, position]
  have hline : c.line = (Position.start.after before).line := congrArg Position.line hposition
  have hcolumn : c.column = (Position.start.after before).column :=
    congrArg Position.column hposition
  refine ⟨before, htext, hplace, ?_⟩
  simp [begun, amid, h.source_eq, h.tokens_eq, htext, hcurrent, hposition, hline, hcolumn]

theorem Follows.on_isAtEnd (h : Follows text s c) :
    isAtEnd.on c = some (.ok s.rest.isEmpty, c) := by
  obtain ⟨before, -, -, hbegun⟩ := h.exists_begun_eq
  have hend : decide (c.begun.source.size ≤ c.begun.current) = s.rest.isEmpty := by
    rw [hbegun, size_amid, current_amid]
    cases s.rest <;> simp
  rw [← hend]
  rfl

/-- A token is cut as the scan takes a step. -/
theorem Follows.on_scanToken (h : Follows text s c) :
    match s.step with
    | .finished => True
    | .moved _ next => ∃ c', scanToken.on c.begun = some (.ok (), c') ∧ Follows text next c'
    | .failed e next =>
      ∃ c', scanToken.on c.begun = some (.error e, c') ∧ Follows text next c' := by
  obtain ⟨before, htext, hplace, hbegun⟩ := h.exists_begun_eq
  unfold Scan.step
  cases hrest : s.rest with
  | nil => trivial
  | cons d rest =>
    have hfollows (tokens : List Token) :
        Follows text ⟨(Lexeme.next d rest).rest, s.position.after (Lexeme.next d rest).text, tokens⟩
          (amid before (Lexeme.next d rest).text (Lexeme.next d rest).rest tokens) := by
      rw [hplace, htext, hrest, ← Lexeme.text_append_rest_next, ← Position.after_append]
      exact follows_amid before _ tokens
    rw [hbegun, hrest, Cursor.on_scanToken, gathers, position_amid, Position.after_append, ← hplace]
    dsimp only
    cases (Lexeme.next d rest).value with
    | error cause => exact ⟨_, rfl, hfollows _⟩
    | ok t =>
      cases t with
      | none => exact ⟨_, rfl, hfollows _⟩
      | some t => exact ⟨_, rfl, hfollows _⟩

theorem Follows.inBounds_begun (h : Follows text s c) : c.begun.InBounds := by
  obtain ⟨before, -, -, hbegun⟩ := h.exists_begun_eq
  rw [hbegun]
  exact inBounds_amid before [] s.gathered

theorem Follows.emptied (h : Follows text s c) :
    Follows text { s with gathered := [] } c.emptied := by
  obtain ⟨hstart, hcurrent, hline, hcolumn⟩ := h.inBounds
  exact ⟨h.standsIn, h.source_eq, h.position_eq, rfl, ⟨hstart, hcurrent, hline, hcolumn⟩⟩

theorem Follows.left_eq (h : Follows text s c) : c.left = s.rest.length := by
  obtain ⟨before, -, -, hbegun⟩ := h.exists_begun_eq
  have hleft : c.begun.left = s.rest.length := by rw [hbegun, left_amid]
  exact hleft

theorem Follows.on_tokenRound_at_end (h : Follows text s c) (hrest : s.rest = []) :
    (tokenRound ()).on c = some (.ok (.done ()), c) := by
  rw [tokenRound, Op.on_bind_ok h.on_isAtEnd, hrest, List.isEmpty_nil, if_pos rfl, Op.on_pure]

theorem Follows.on_tokenRound_before_end (h : Follows text s c) (hrest : s.rest ≠ []) :
    (tokenRound ()).on c = (scanToken >>= fun _ => pure (.yield ())).on c.begun := by
  rw [tokenRound, Op.on_bind_ok h.on_isAtEnd, List.isEmpty_eq_false_iff.mpr hrest,
    if_neg Bool.false_ne_true, Op.on_get_bind, Op.on_bind_ok (on_become h.inBounds_begun c)]

theorem Follows.on_handOut (h : Follows text s c) :
    handOut.on c = some (.ok (Token.atEnd s.position :: s.gathered).reverse, c.emptied) := by
  rw [handOut, Op.on_get_bind, Op.on_bind_ok (on_become h.emptied.inBounds c), Op.on_pure,
    h.position_eq, h.tokens_eq]

/-- Tokens are cut as the scan runs. -/
theorem Follows.on_scanTokens (h : Follows text s c) :
    ∃ next, scanTokens.on c = some (s.run.1, next) ∧ Follows text s.run.2 next := by
  unfold scanTokens
  fun_induction Scan.run s generalizing c with
  | case1 s hstep =>
    have hrest : s.rest = [] := Scan.step_eq_finished.mp hstep
    rw [Op.on_bind_ok (Op.on_loop_done (h.on_tokenRound_at_end hrest)), h.on_handOut]
    exact ⟨c.emptied, rfl, h.emptied⟩
  | case2 s token next hstep ih =>
    have hcut := h.on_scanToken
    rw [hstep] at hcut
    obtain ⟨c', hon, hnext⟩ := hcut
    have hrest : s.rest ≠ [] := Scan.step_eq_finished.not.mp (by simp [hstep])
    have hround := h.on_tokenRound_before_end hrest
    rw [Op.on_bind_ok hon, Op.on_pure] at hround
    have hless : c'.left < c.left := by
      rw [hnext.left_eq, h.left_eq]
      exact Scan.length_rest_lt_of_step_moved hstep
    rw [Op.on_bind_congr (Op.on_loop_yield hround hless)]
    exact ih hnext
  | case3 s e next hstep =>
    have hcut := h.on_scanToken
    rw [hstep] at hcut
    obtain ⟨c', hon, hnext⟩ := hcut
    have hrest : s.rest ≠ [] := Scan.step_eq_finished.not.mp (by simp [hstep])
    have hround := h.on_tokenRound_before_end hrest
    rw [Op.on_bind_error hon] at hround
    rw [Op.on_bind_error (Op.on_loop_error hround)]
    exact ⟨c', rfl, hnext⟩

/-! ## Any number of runs -/

/-- The cursor before the run number `n` on a source, counted from 0, if every run before it stays
within the domains of its operations. -/
def resumed (source : String) : Nat → Option Cursor
  | 0 => some (ofSource source)
  | n + 1 => (resumed source n).bind fun c => (scanTokens.on c).map Prod.snd

theorem exists_resumed_follows (source : String) (n : Nat) :
    ∃ c, resumed source n = some c ∧
      Follows source.toList ((Scan.ofSource source).resumed n) c := by
  induction n with
  | zero => exact ⟨ofSource source, rfl, follows_ofSource source⟩
  | succ n ih =>
    obtain ⟨c, hc, hfollows⟩ := ih
    obtain ⟨next, hon, hnext⟩ := hfollows.on_scanTokens
    refine ⟨next, ?_, hnext⟩
    rw [resumed, hc, Option.bind_some, hon]
    rfl

/-- However often a source is cut by index, whether into tokens or to an error, no character is
taken behind its end, no slice exceeds it, nothing is taken from a smaller number, the cursor stays
in bounds and no loop is endless.  The cursor gives what the scan gives and stands where the scan
stands. -/
theorem resumed_defined (source : String) (n : Nat) :
    ∃ c next, resumed source n = some c ∧
      Follows source.toList ((Scan.ofSource source).resumed n) c ∧
      scanTokens.on c = some (((Scan.ofSource source).resumed n).run.1, next) ∧
      Follows source.toList ((Scan.ofSource source).resumed (n + 1)) next := by
  obtain ⟨c, hc, hfollows⟩ := exists_resumed_follows source n
  obtain ⟨next, hon, hnext⟩ := hfollows.on_scanTokens
  exact ⟨c, next, hc, hfollows, hon, hnext⟩

end Cursor

/-! ## Forms of a source that is cut by index -/

namespace Form

/-- The forms of a source that is cut by index, if that stays within the domains of the operations
on the cursor. -/
def readByIndex (source : String) : Option (Except Error (List Form)) :=
  (Cursor.scanTokens.on (.ofSource source)).map fun r => r.1.bind fun ts => (parse ts).1

theorem exists_on_scanTokens_ofSource (source : String) :
    ∃ next, Cursor.scanTokens.on (.ofSource source) = some (Token.scan source, next) := by
  obtain ⟨next, hon, -⟩ := (Cursor.follows_ofSource source).on_scanTokens
  exact ⟨next, hon⟩

theorem readByIndex_eq (source : String) : readByIndex source = some (read source) := by
  obtain ⟨next, hon⟩ := exists_on_scanTokens_ofSource source
  rw [readByIndex, hon]
  rfl

/-- A source can always be cut by index.  Its tokens are nested into the forms of the one-pass
reading, and fail with its error except where the one-pass reading stops at a stray or mismatched
closer and the cursor, which does not stop there, comes to a lexeme that cannot be cut. -/
theorem readByIndex_eq_descend_iff (source : String) :
    ∃ tokens next, Cursor.scanTokens.on (.ofSource source) = some (tokens, next) ∧
      (∀ fs, readByIndex source = some (.ok fs) ↔ descend source = .ok fs) ∧
      (readByIndex source = some (descend source) ↔
        ¬ ∃ e l, descend source = .error e ∧ e.cause.BlamesCloser ∧ tokens = .error l) ∧
      ∀ e l, descend source = .error e → e.cause.BlamesCloser → tokens = .error l →
        readByIndex source = some (.error l) ∧ e.position.offset < l.position.offset := by
  obtain ⟨next, hon⟩ := exists_on_scanTokens_ofSource source
  refine ⟨Token.scan source, next, hon, ?_, ?_, ?_⟩
  · intro fs
    rw [readByIndex_eq, Option.some.injEq]
    exact read_eq_ok_iff_descend source fs
  · rw [readByIndex_eq, Option.some.injEq]
    exact read_eq_descend_iff_not_parted source
  · intro e l hdescend hblame hscan
    rw [readByIndex_eq, Option.some.injEq]
    exact read_of_parted hdescend hblame hscan

end Form

end Sexp
