import Sexp.Proofs.Extents
import Sexp.Token.Cursor

/-! # What the operations on a cursor give

Every equation of this module speaks of a cursor `amid before seen rest tokens`, which has taken
`seen` since its token began, behind `before`, and has `rest` left.  An equation that gives `some`
says that the operation stays within its domain, and such an equation needs no condition on what is
left: at the end of the source a loop sees the mark, which belongs to no class that would take it.

A lexeme is taken as the reading of the same lexeme says (`reads`), whether or not it can be read.
-/

namespace Sexp

/-- Lines and columns grow by one at most with each character. -/
theorem Position.bounds_after (p : Position) (text : List Char) :
    (p.after text).line ≤ p.line + text.length ∧
      (p.after text).column ≤ p.column + text.length := by
  induction text generalizing p with
  | nil => exact ⟨Nat.le_refl _, Nat.le_refl _⟩
  | cons c text ih =>
    have hnext : (p.next c).line ≤ p.line + 1 ∧ (p.next c).column ≤ p.column + 1 := by
      unfold next
      split <;> simp
    have hlater := ih (p.next c)
    rw [after_cons, List.length_cons]
    omega

namespace Cursor

/-! ## Operations one after the other -/

namespace Op

variable {α β σ : Type}

theorem on_pure (a : α) (c : Cursor) : (pure a : Op α).on c = some (.ok a, c) := rfl

theorem on_throw (e : Error) (c : Cursor) : (throw e : Op α).on c = some (.error e, c) := rfl

theorem on_get (c : Cursor) : (get : Op Cursor).on c = some (.ok c, c) := rfl

theorem on_bind_ok {x : Op α} {c c' : Cursor} {a : α} (h : x.on c = some (.ok a, c'))
    (f : α → Op β) : (x >>= f).on c = (f a).on c' := by
  change ((x.on c).bind fun p => _) = _
  rw [h]
  rfl

theorem on_bind_error {x : Op α} {c c' : Cursor} {e : Error} (h : x.on c = some (.error e, c'))
    (f : α → Op β) : (x >>= f).on c = some (.error e, c') := by
  change ((x.on c).bind fun p => _) = _
  rw [h]
  rfl

theorem on_bind_congr {x y : Op α} {c c' : Cursor} (h : x.on c = y.on c') (f : α → Op β) :
    (x >>= f).on c = (y >>= f).on c' := by
  change ((x.on c).bind fun p => _) = _
  rw [h]
  rfl

theorem on_get_bind (f : Cursor → Op β) (c : Cursor) : (get >>= f).on c = (f c).on c :=
  on_bind_ok (on_get c) f

/-! ## Loops -/

variable {round : σ → Op (ForInStep σ)} {a b : σ} {c next : Cursor}

theorem on_loop_done (h : (round a).on c = some (.ok (.done b), next)) :
    (loop round a).on c = some (.ok b, next) := by
  change loopFrom round a c = _
  rw [loopFrom, h]

theorem on_loop_yield (h : (round a).on c = some (.ok (.yield b), next))
    (hless : next.left < c.left) : (loop round a).on c = (loop round b).on next := by
  change loopFrom round a c = loopFrom round b next
  rw [loopFrom, h]
  exact if_pos hless

theorem on_loop_error {e : Error} (h : (round a).on c = some (.error e, next)) :
    (loop round a).on c = some (.error e, next) := by
  change loopFrom round a c = _
  rw [loopFrom, h]

end Op

/-! ## A cursor amid its source -/

/-- A cursor that has taken `seen` since its token began, behind `before`, and has `rest` left. -/
def amid (before seen rest : List Char) (tokens : List Token) : Cursor where
  source := (before ++ (seen ++ rest)).toArray
  tokens := tokens
  start := before.length
  startPosition := Position.start.after before
  current := before.length + seen.length
  line := (Position.start.after (before ++ seen)).line
  column := (Position.start.after (before ++ seen)).column

variable (before seen : List Char) {rest : List Char} (tokens : List Token)

theorem size_amid :
    (amid before seen rest tokens).source.size = before.length + seen.length + rest.length := by
  simp [amid, Nat.add_assoc]

theorem left_amid : (amid before seen rest tokens).left = rest.length := by
  rw [left, size_amid]
  exact Nat.add_sub_cancel_left _ _

theorem position_amid :
    (amid before seen rest tokens).position = Position.start.after (before ++ seen) := by
  have hoffset : (Position.start.after (before ++ seen)).offset = before.length + seen.length := by
    simp
  rw [position, amid, ← hoffset]

theorem current_amid :
    (amid before seen rest tokens).current = before.length + seen.length := rfl

theorem amid_current_sub_start :
    (amid before seen rest tokens).current - (amid before seen rest tokens).start =
      seen.length := by
  simp [amid]

theorem inBounds_amid : (amid before seen rest tokens).InBounds := by
  have hbounds := Position.start.bounds_after (before ++ seen)
  have hstart : Position.start.line = 1 ∧ Position.start.column = 1 := ⟨rfl, rfl⟩
  rw [List.length_append] at hbounds
  constructor
  · exact Nat.le_add_right _ _
  · rw [size_amid]
    exact Nat.le_add_right _ _
  · rw [size_amid]
    apply Nat.le_trans hbounds.1
    omega
  · rw [size_amid]
    apply Nat.le_trans hbounds.2
    omega

theorem past_amid (c : Char) :
    (amid before seen (c :: rest) tokens).past c = amid before (seen ++ [c]) rest tokens := by
  have hplace : Position.start.after (before ++ (seen ++ [c])) =
      (Position.start.after (before ++ seen)).next c := by
    rw [← List.append_assoc, Position.after_snoc]
  unfold past amid
  rw [hplace, Position.next]
  by_cases hc : c = '\n'
  · simp [hc, Nat.add_assoc]
  · rw [if_neg hc, if_neg hc]
    simp [Nat.add_assoc]

/-! ## Moving on -/

theorem on_become {next : Cursor} (h : next.InBounds) (c : Cursor) :
    (become next).on c = some (.ok (), next) := by
  rw [become, if_pos h]
  rfl

theorem on_isAtEnd :
    isAtEnd.on (amid before seen rest tokens) =
      some (.ok rest.isEmpty, amid before seen rest tokens) := by
  rw [isAtEnd, Op.on_get_bind, Op.on_pure, size_amid]
  cases rest <;> simp [amid]

theorem on_charAt (c : Char) :
    (charAt (before.length + seen.length)).on (amid before seen (c :: rest) tokens) =
      some (.ok c, amid before seen (c :: rest) tokens) := by
  have hchar : (amid before seen (c :: rest) tokens).source[before.length + seen.length]? =
      some c := by
    simp [amid]
  rw [charAt, Op.on_get_bind, hchar]
  rfl

theorem on_peek :
    peek.on (amid before seen rest tokens) =
      some (.ok (rest.headD endMark), amid before seen rest tokens) := by
  rw [peek, Op.on_bind_ok (on_isAtEnd before seen tokens)]
  cases rest with
  | nil => rfl
  | cons c rest =>
    rw [List.isEmpty_cons, if_neg Bool.false_ne_true, Op.on_get_bind, current_amid, on_charAt,
      List.headD_cons]

theorem on_advance (c : Char) :
    advance.on (amid before seen (c :: rest) tokens) =
      some (.ok c, amid before (seen ++ [c]) rest tokens) := by
  rw [advance, Op.on_get_bind, current_amid, Op.on_bind_ok (on_charAt before seen tokens c),
    past_amid, Op.on_bind_ok (on_become (inBounds_amid _ _ _) _), Op.on_pure]

-- the mark is taken where the source holds it, and not at the end
example : advance.on (ofSource "") = none := rfl

example : (advance.on (ofSource "\x00")).isSome := rfl

theorem on_skipRound_of_mem {p : Char → Bool} {c : Char} (hc : p c) :
    (skipRound p ()).on (amid before seen (c :: rest) tokens) =
      some (.ok (.yield ()), amid before (seen ++ [c]) rest tokens) := by
  rw [skipRound, Op.on_bind_ok (on_peek _ _ _), List.headD_cons, if_pos hc,
    Op.on_bind_ok (on_advance _ _ _ _), Op.on_pure]

theorem on_skipRound_of_not_mem {p : Char → Bool} (hstop : ¬ p (rest.headD endMark)) :
    (skipRound p ()).on (amid before seen rest tokens) =
      some (.ok (.done ()), amid before seen rest tokens) := by
  rw [skipRound, Op.on_bind_ok (on_peek _ _ _), if_neg hstop, Op.on_pure]

/-- A class without the mark is skipped to its last character, and never beyond the source. -/
theorem on_skipWhile {p : Char → Bool} (hp : ¬ p endMark) :
    (skipWhile p).on (amid before seen rest tokens) =
      some (.ok (), amid before (seen ++ rest.takeWhile p) (rest.dropWhile p) tokens) := by
  unfold skipWhile
  induction rest generalizing seen with
  | nil =>
    rw [Op.on_loop_done (on_skipRound_of_not_mem _ _ _ hp), List.takeWhile_nil, List.append_nil]
    rfl
  | cons c rest ih =>
    by_cases hc : p c
    · rw [Op.on_loop_yield (on_skipRound_of_mem _ _ _ hc) (by simp [left_amid]), ih,
        List.takeWhile_cons_of_pos hc, List.dropWhile_cons_of_pos hc, List.append_assoc]
      rfl
    · rw [Op.on_loop_done (on_skipRound_of_not_mem _ _ _ hc), List.takeWhile_cons_of_neg hc,
        List.dropWhile_cons_of_neg hc, List.append_nil]

theorem on_slice (text : List Char) :
    (slice (before.length + seen.length) (before.length + (seen ++ text).length)).on
        (amid before (seen ++ text) rest tokens) =
      some (.ok (String.ofList text), amid before (seen ++ text) rest tokens) := by
  have hdomain : before.length + seen.length ≤ before.length + (seen ++ text).length ∧
      before.length + (seen ++ text).length ≤
        (amid before (seen ++ text) rest tokens).source.size := by
    rw [size_amid, List.length_append]
    omega
  have hlength : before.length + (seen.length + text.length) - (before.length + seen.length) =
      text.length := by
    omega
  rw [slice, Op.on_get_bind, if_pos hdomain, Op.on_pure]
  simp [amid, hlength]

theorem on_lexeme :
    lexeme.on (amid before seen rest tokens) =
      some (.ok (String.ofList seen), amid before seen rest tokens) := by
  rw [lexeme, Op.on_get_bind]
  exact on_slice before [] tokens seen

theorem on_addToken (t : Terminal) :
    (addToken t).on (amid before seen rest tokens) =
      some (.ok (), amid before seen rest
        (⟨.terminal t, String.ofList seen, Position.start.after before⟩ :: tokens)) := by
  rw [addToken, Op.on_bind_ok (on_lexeme before seen tokens), Op.on_get_bind]
  exact on_become (inBounds_amid before seen _) _

/-! ## Strings, keywords and symbols -/

/-- What an operation gives that reads on as `r` does, since `seen` has been taken. -/
def reads {α : Type} (before seen : List Char) (tokens : List Token)
    (r : Reading (Except Cause α)) : Option (Except Error α × Cursor) :=
  let next := amid before (seen ++ r.text) r.rest tokens
  match r.value with
  | .ok a => some (.ok a, next)
  | .error cause =>
    some (.error ⟨cause, Scan.faultPosition (.after .start before) next.position cause⟩, next)

theorem reads_following {α : Type} (text : List Char) (r : Reading (Except Cause α)) :
    reads before seen tokens (r.following text) = reads before (seen ++ text) tokens r := by
  simp only [reads, Reading.following, List.append_assoc]

theorem on_bind_value {α β : Type} {x : Op α} {c : Cursor} {r : Reading (Except Cause α)} {a : α}
    (h : x.on c = reads before seen tokens r) (hr : r.value = .ok a) (f : α → Op β) :
    (x >>= f).on c = (f a).on (amid before (seen ++ r.text) r.rest tokens) := by
  simp only [reads, hr] at h
  exact Op.on_bind_ok h f

theorem on_bind_cause {α β : Type} {x : Op α} {c : Cursor} {r : Reading (Except Cause α)}
    {cause : Cause} (h : x.on c = reads before seen tokens r) (hr : r.value = .error cause)
    (f : α → Op β) :
    (x >>= f).on c = reads before seen tokens ⟨.error cause, r.text, r.rest⟩ := by
  simp only [reads, hr] at h
  exact Op.on_bind_error h f

theorem push_ofList_reverse (text : List Char) (c : Char) :
    (String.ofList text.reverse).push c = String.ofList (c :: text).reverse := by
  apply String.toList_inj.mp
  simp

section String

variable (body : String)

theorem on_stringRound_nil :
    (stringRound body).on (amid before seen [] tokens) =
      some (.error ⟨.unterminatedString, .after .start before⟩, amid before seen [] tokens) := by
  rw [stringRound, Op.on_bind_ok (on_isAtEnd _ _ _)]
  rfl

theorem on_stringRound_quote :
    (stringRound body).on (amid before seen ('"' :: rest) tokens) =
      some (.ok (.done body), amid before (seen ++ ['"']) rest tokens) := by
  rw [stringRound, Op.on_bind_ok (on_isAtEnd _ _ _), List.isEmpty_cons, if_neg Bool.false_ne_true,
    Op.on_bind_ok (on_advance _ _ _ _), if_pos rfl, Op.on_pure]

theorem on_stringRound_escape :
    (stringRound body).on (amid before seen ('\\' :: '"' :: rest) tokens) =
      some (.ok (.yield ((body.push '\\').push '"')),
        amid before (seen ++ ['\\'] ++ ['"']) rest tokens) := by
  rw [stringRound, Op.on_bind_ok (on_isAtEnd _ _ _), List.isEmpty_cons, if_neg Bool.false_ne_true,
    Op.on_bind_ok (on_advance _ _ _ _), if_neg (by decide), if_pos rfl,
    Op.on_bind_ok (on_peek _ _ _), List.headD_cons, if_pos rfl,
    Op.on_bind_ok (on_advance _ _ _ _), Op.on_pure]

theorem on_stringRound_other {c : Char} (hquote : c ≠ '"')
    (hescape : c = '\\' → rest.headD endMark ≠ '"') :
    (stringRound body).on (amid before seen (c :: rest) tokens) =
      some (.ok (.yield (body.push c)), amid before (seen ++ [c]) rest tokens) := by
  rw [stringRound, Op.on_bind_ok (on_isAtEnd _ _ _), List.isEmpty_cons, if_neg Bool.false_ne_true,
    Op.on_bind_ok (on_advance _ _ _ _), if_neg hquote]
  by_cases hc : c = '\\'
  · rw [if_pos hc, Op.on_bind_ok (on_peek _ _ _), if_neg (hescape hc), Op.on_pure]
  · rw [if_neg hc, Op.on_pure]

end String

theorem on_loop_stringRound (body rest : List Char) :
    (loop stringRound (String.ofList body.reverse)).on
        (amid before ('"' :: body.reverse) rest tokens) =
      match Lexeme.splitAtQuote body rest with
      | none => some (.error ⟨.unterminatedString, .after .start before⟩,
          amid before ('"' :: (body.reverse ++ rest)) [] tokens)
      | some (text, after) => some (.ok (String.ofList text),
          amid before ('"' :: (text ++ ['"'])) after tokens) := by
  fun_induction Lexeme.splitAtQuote body rest with
  | case1 body => rw [Op.on_loop_error (on_stringRound_nil _ _ _ _), List.append_nil]
  | case2 body cs =>
    rw [Op.on_loop_done (on_stringRound_quote _ _ _ _)]
    rfl
  | case3 body cs ih =>
    rw [Op.on_loop_yield (on_stringRound_escape _ _ _ _) (by simp [left_amid]),
      push_ofList_reverse, push_ofList_reverse]
    simpa using ih
  | case4 body c cs hquote hescape ih =>
    -- a backslash with no quote behind it is a character as any other
    have hnext : c = '\\' → cs.headD endMark ≠ '"' := by
      intro hc
      cases cs with
      | nil => decide
      | cons d cs =>
        rintro rfl
        exact hescape cs hc rfl
    rw [Op.on_loop_yield (on_stringRound_other _ _ _ _ hquote hnext) (by simp [left_amid]),
      push_ofList_reverse]
    simpa using ih

theorem on_string :
    string.on (amid before ['"'] rest tokens) = reads before ['"'] tokens (Lexeme.string rest) := by
  have hbody := on_loop_stringRound before tokens [] rest
  unfold Lexeme.string
  cases hsplit : Lexeme.splitAtQuote [] rest with
  | none =>
    rw [hsplit] at hbody
    exact Op.on_bind_error hbody _
  | some split =>
    obtain ⟨text, after⟩ := split
    rw [hsplit] at hbody
    exact Op.on_bind_ok hbody _

theorem on_difference {m n : Nat} (h : n ≤ m) (c : Cursor) :
    (difference m n).on c = some (.ok (m - n), c) := by
  rw [difference, if_pos h, Op.on_pure]

theorem on_keyword :
    keyword.on (amid before [':'] rest tokens) =
      reads before [':'] tokens (Lexeme.keyword rest) := by
  rw [keyword, Op.on_bind_ok (on_skipWhile before [':'] tokens (by decide)), Op.on_get_bind,
    Op.on_bind_ok (on_difference (by simp [amid]) _)]
  simp only [amid_current_sub_start]
  by_cases hname : rest.takeWhile isSymbolPart = []
  · rw [if_pos (by rw [hname]; rfl), Op.on_throw]
    simp [reads, Lexeme.keyword, Reading.map, Reading.run, hname, Scan.faultPosition, amid]
  · rw [if_neg (by simpa using hname), Op.on_bind_ok (on_lexeme _ _ _), Op.on_pure]
    have htext : String.ofList (':' :: rest.takeWhile isSymbolPart) =
        ":" ++ String.ofList (rest.takeWhile isSymbolPart) := String.ofList_cons
    simp [reads, Lexeme.keyword, Reading.map, Reading.run, hname, htext]

theorem on_symbol (c : Char) :
    symbol.on (amid before [c] rest tokens) =
      reads before [c] tokens ((Reading.run isSymbolPart rest).map fun name =>
        .ok (Lexeme.symbolAtom (c.toString ++ name))) := by
  have htext : String.ofList (c :: rest.takeWhile isSymbolPart) =
      c.toString ++ String.ofList (rest.takeWhile isSymbolPart) := String.ofList_cons
  rw [symbol, Op.on_bind_ok (on_skipWhile before [c] tokens (by decide)),
    Op.on_bind_ok (on_lexeme _ _ _), Op.on_pure]
  simp [reads, Reading.map, Reading.run, htext]

/-! ## Numbers -/

/-- The same reading of a number, with its fault as the cause of an error. -/
def blaming {α : Type} (r : Reading (Except Numeral.Fault α)) : Reading (Except Cause α) :=
  r.map (·.mapError fun fault => .malformedNumber fault.reason)

theorem value_blaming_ok {α : Type} {r : Reading (Except Numeral.Fault α)} {a : α}
    (h : r.value = .ok a) : (blaming r).value = .ok a := by
  rw [blaming, Reading.map, h]
  rfl

theorem value_blaming_error {α : Type} {r : Reading (Except Numeral.Fault α)}
    {fault : Numeral.Fault} (h : r.value = .error fault) :
    (blaming r).value = .error (.malformedNumber fault.reason) := by
  rw [blaming, Reading.map, h]
  rfl

theorem reads_blaming_ok {α : Type} (a : α) (text : List Char) :
    reads before seen tokens (blaming ⟨.ok a, text, rest⟩) =
      some (.ok a, amid before (seen ++ text) rest tokens) := rfl

theorem on_malformed {α : Type} (fault : Numeral.Fault) :
    (malformed fault : Op α).on (amid before seen rest tokens) =
      reads before seen tokens (blaming ⟨.error fault, [], rest⟩) := by
  rw [malformed, Op.on_get_bind, Op.on_throw]
  simp [reads, blaming, Reading.map, Except.mapError, Scan.faultPosition]

theorem on_numeralEnd (n : Numeral) :
    (numeralEnd >>= fun _ => pure n).on (amid before seen rest tokens) =
      reads before seen tokens (blaming (Lexeme.numeralEnd n rest)) := by
  have hend : numeralEnd.on (amid before seen rest tokens) =
      (if !rest.isEmpty && isSymbolPart (rest.headD endMark) then
        malformed (.trailing (rest.headD endMark)) else pure () : Op Unit).on
          (amid before seen rest tokens) := by
    rw [numeralEnd, Op.on_bind_ok (on_peek _ _ _), Op.on_bind_ok (on_isAtEnd _ _ _)]
  by_cases htouched : !rest.isEmpty && isSymbolPart (rest.headD endMark)
  · rw [if_pos htouched, on_malformed] at hend
    rw [on_bind_cause _ _ _ hend (value_blaming_error rfl)]
    cases rest with
    | nil => cases htouched
    | cons c cs =>
      have hc : isSymbolPart c := by simpa using htouched
      rw [Lexeme.numeralEnd_trailing n hc]
      rfl
  · have hstop : StopsRun isSymbolPart rest := by
      cases rest with
      | nil => exact stopsRun_nil _
      | cons c cs =>
        apply stopsRun_cons.mpr
        simpa using htouched
    rw [if_neg htouched, Op.on_pure] at hend
    rw [Op.on_bind_ok hend, Op.on_pure, Lexeme.numeralEnd_complete n hstop, reads_blaming_ok,
      List.append_nil]

theorem on_digits (taken rest : List Char) :
    (digits (before.length + seen.length)).on (amid before (seen ++ taken) rest tokens) =
      some (.ok (String.ofList (taken ++ rest.takeWhile Char.isDigit)),
        amid before (seen ++ (taken ++ rest.takeWhile Char.isDigit))
          (rest.dropWhile Char.isDigit) tokens) := by
  rw [digits, Op.on_bind_ok (on_skipWhile _ _ _ (by decide)), Op.on_get_bind, List.append_assoc]
  exact on_slice before seen tokens _

theorem on_get_bind_digits :
    (get >>= fun c : Cursor => digits c.current).on (amid before seen rest tokens) =
      some (.ok (String.ofList (rest.takeWhile Char.isDigit)),
        amid before (seen ++ rest.takeWhile Char.isDigit) (rest.dropWhile Char.isDigit)
          tokens) := by
  have hdigits := on_digits before seen tokens [] rest
  rw [List.append_nil, List.nil_append] at hdigits
  rw [Op.on_get_bind, current_amid, hdigits]

theorem isDigit_headD (rest : List Char) :
    (rest.headD endMark).isDigit = !(rest.takeWhile Char.isDigit).isEmpty := by
  cases rest with
  | nil => rfl
  | cons c rest => cases hc : c.isDigit <;> simp [hc]

theorem on_sign :
    sign.on (amid before seen rest tokens) =
      some (.ok (Lexeme.sign rest).value,
        amid before (seen ++ (Lexeme.sign rest).text) (Lexeme.sign rest).rest tokens) := by
  rw [sign, Op.on_bind_ok (on_peek _ _ _)]
  cases rest with
  | nil => simp [Lexeme.sign, endMark, Sign.ofChar?, Op.on_pure]
  | cons c rest =>
    rw [List.headD_cons, Lexeme.sign]
    cases Sign.ofChar? c with
    | none => simp [Op.on_pure]
    | some s => exact Op.on_bind_ok (on_advance _ _ _ _) _

theorem on_exponent :
    exponent.on (amid before seen rest tokens) =
      reads before seen tokens (blaming (Lexeme.exponent rest)) := by
  rw [exponent, Op.on_bind_ok (on_peek _ _ _)]
  cases rest with
  | nil =>
    rw [Lexeme.exponent, reads_blaming_ok, List.append_nil]
    rfl
  | cons c rest =>
    rw [List.headD_cons, Lexeme.exponent]
    cases ExponentMarker.ofChar? c with
    | none =>
      dsimp only
      rw [Op.on_pure, reads_blaming_ok, List.append_nil]
    | some marker =>
      dsimp only
      rw [Op.on_bind_ok (on_advance _ _ _ _), Op.on_bind_ok (on_sign _ _ _),
        Op.on_bind_ok (on_peek _ _ _), isDigit_headD, Reading.run]
      by_cases hdigits : (Lexeme.sign rest).rest.takeWhile Char.isDigit = []
      · rw [hdigits, List.isEmpty_nil, Bool.not_true, if_neg Bool.false_ne_true, if_pos rfl,
          on_malformed]
        simp [reads, blaming, Reading.map]
      · rw [List.isEmpty_eq_false_iff.mpr hdigits, Bool.not_false, if_pos rfl,
          if_neg Bool.false_ne_true, ← bind_assoc, Op.on_bind_ok (on_get_bind_digits _ _ _),
          Op.on_pure]
        simp [reads, blaming, Reading.map, Reading.following, Except.mapError]

theorem on_fraction (sign : Option Sign) (whole : String) :
    (fraction sign whole).on (amid before seen rest tokens) =
      reads before seen tokens (blaming (Lexeme.fraction sign whole rest)) := by
  rw [fraction, Op.on_bind_ok (on_peek _ _ _), isDigit_headD, Lexeme.fraction, Reading.run]
  by_cases hdigits : rest.takeWhile Char.isDigit = []
  · rw [hdigits, List.isEmpty_nil, Bool.not_true, if_neg Bool.false_ne_true, if_pos rfl]
    exact on_malformed _ _ _ _
  · rw [List.isEmpty_eq_false_iff.mpr hdigits, Bool.not_false, if_pos rfl,
      if_neg Bool.false_ne_true, ← bind_assoc, Op.on_bind_ok (on_get_bind_digits _ _ _)]
    dsimp only
    cases he : (Lexeme.exponent (rest.dropWhile Char.isDigit)).value with
    | error fault =>
      rw [on_bind_cause _ _ _ (on_exponent _ _ _) (value_blaming_error he), ← reads_following]
      rfl
    | ok e =>
      rw [on_bind_value _ _ _ (on_exponent _ _ _) (value_blaming_ok he), on_numeralEnd,
        List.append_assoc, ← reads_following]
      rfl

theorem on_numeral {sign : Option Sign} {lead taken : List Char}
    (hsign : Lexeme.sign (lead ++ (taken ++ rest)) = ⟨sign, lead, taken ++ rest⟩)
    (hfirst : (firstDigit sign).on (amid before (lead ++ taken) rest tokens) =
      some (.ok (before.length + lead.length), amid before (lead ++ taken) rest tokens))
    (htaken : ∀ c ∈ taken, c.isDigit) :
    (numeral sign).on (amid before (lead ++ taken) rest tokens) =
      reads before [] tokens (blaming (Lexeme.numeral (lead ++ (taken ++ rest)))) := by
  rw [numeral, Op.on_bind_ok hfirst, Op.on_bind_ok (on_digits _ _ _ _ _),
    Op.on_bind_ok (on_peek _ _ _), Lexeme.numeral, hsign, Reading.run,
    List.takeWhile_append_of_pos htaken, List.dropWhile_append_of_pos htaken]
  dsimp only
  generalize rest.dropWhile Char.isDigit = behind
  by_cases hpoint : behind.headD endMark = '.'
  · obtain ⟨cs, rfl⟩ : ∃ cs, behind = '.' :: cs := by
      cases behind with
      | nil => cases hpoint
      | cons c cs => exact ⟨cs, by rw [← hpoint, List.headD_cons]⟩
    rw [if_pos hpoint, Op.on_bind_ok (on_advance _ _ _ _), on_fraction]
    exact (reads_following before [] tokens _ _).symm
  · rw [if_neg hpoint, on_numeralEnd]
    split
    next cs => exact absurd rfl hpoint
    next => exact (reads_following before [] tokens _ _).symm

theorem on_numeral_signed {c : Char} {s : Sign} (hs : Sign.ofChar? c = some s) :
    (numeral (some s)).on (amid before [c] rest tokens) =
      reads before [] tokens (blaming (Lexeme.numeral (c :: rest))) := by
  have hsign : Lexeme.sign ([c] ++ ([] ++ rest)) = ⟨some s, [c], [] ++ rest⟩ := by
    simp [Lexeme.sign, hs]
  have hfirst : (firstDigit (some s)).on (amid before ([c] ++ []) rest tokens) =
      some (.ok (before.length + [c].length), amid before ([c] ++ []) rest tokens) := by
    rw [firstDigit, Op.on_get_bind, List.append_nil, current_amid]
    rfl
  exact on_numeral before tokens hsign hfirst (by simp)

theorem on_numeral_unsigned {d : Char} (hd : d.isDigit) :
    (numeral none).on (amid before [d] rest tokens) =
      reads before [] tokens (blaming (Lexeme.numeral (d :: rest))) := by
  have hsign : Lexeme.sign ([] ++ ([d] ++ rest)) = ⟨none, [], [d] ++ rest⟩ := by
    simp [Lexeme.sign, ofChar?_eq_none (not_isSign_of_isDigit hd)]
  have hfirst : (firstDigit none).on (amid before ([] ++ [d]) rest tokens) =
      some (.ok (before.length + 0), amid before ([] ++ [d]) rest tokens) := by
    -- the digit itself has been taken
    have htaken : 1 ≤ before.length + [d].length := Nat.le_add_left _ _
    rw [firstDigit, Op.on_get_bind, List.nil_append, current_amid]
    exact on_difference htaken _
  exact on_numeral before tokens hsign hfirst (by simpa using hd)

end Cursor

end Sexp
