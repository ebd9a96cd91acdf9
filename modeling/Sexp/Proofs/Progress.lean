import Sexp.Proofs.Broken
import Sexp.Proofs.Scanning

/-! # How far a scan has come

`Scan.Reaches` leads from a scan to the scans behind it, with the tokens gathered on the way.  A run
reaches the end of its source or a lexeme that is broken (`run_cases`), and what it reached before
decides what it has gathered, where it stands and how it goes on.

`Scan.extend` adds characters to the end of the source.  Whatever was reached before the end is
reached in the longer source too (`Reaches.extend`), and so is a fault that some character has
decided (`step_failed_extend`).
-/

namespace Sexp

namespace Scan

/-! ## Steps that fail -/

theorem step_failed_sound {s next : Scan} {e : Error} (h : s.step = .failed e next) :
    ∃ text, s.rest = text ++ next.rest ∧ Lexeme.Broken text next.rest e.cause ∧
      next.position = s.position.after text ∧ next.gathered = s.gathered ∧
      e.position = faultPosition s.position next.position e.cause := by
  unfold step at h
  split at h
  next => cases h
  next c cs hs =>
    dsimp only at h
    split at h
    next cause hv =>
      cases h
      refine ⟨_, ?_, Lexeme.next_broken hv, rfl, rfl, rfl⟩
      rw [hs]
      exact (Lexeme.text_append_rest_next c cs).symm
    next => cases h
    next => cases h

theorem step_failed_complete {s : Scan} {text rest : List Char} {cause : Cause}
    (h : Lexeme.Broken text rest cause) (hs : s.rest = text ++ rest) :
    s.step = .failed ⟨cause, faultPosition s.position (s.position.after text) cause⟩
      ⟨rest, s.position.after text, s.gathered⟩ := by
  obtain ⟨c, cs, rfl, hread⟩ := h.next_eq
  rw [List.cons_append] at hs
  simp [step, hs, hread]

theorem rest_ne_nil_of_failed {s next : Scan} {e : Error} (h : s.step = .failed e next) :
    s.rest ≠ [] := by
  intro hempty
  rw [step_eq_finished.mpr hempty] at h
  cases h

theorem run_of_failed {s next : Scan} {e : Error} (h : s.step = .failed e next) :
    s.run = (.error e, next) := by
  rw [run]
  split
  next h' => cases h.symm.trans h'
  next h' => cases h.symm.trans h'
  next h' =>
    cases h.symm.trans h'
    rfl

/-! ## From scan to scan -/

/-- Steps that gather the tokens `ts` lead from one scan to another. -/
inductive Reaches : Scan → List Token → Scan → Prop
  | refl (s : Scan) : Reaches s [] s
  | step {s next s' : Scan} {token : Option Token} {ts : List Token}
      (hstep : s.step = .moved token next) (h : Reaches next ts s') :
      Reaches s (token.toList ++ ts) s'

namespace Reaches

theorem trans {s s' s'' : Scan} {ts us : List Token} (h : Reaches s ts s')
    (h' : Reaches s' us s'') : Reaches s (ts ++ us) s'' := by
  induction h with
  | refl => exact h'
  | step hstep _ ih =>
    rw [List.append_assoc]
    exact .step hstep (ih h')

theorem run_eq {s s' : Scan} {ts : List Token} (h : Reaches s ts s') : s.run = s'.run := by
  induction h with
  | refl => rfl
  | step hstep _ ih => rw [run_of_moved hstep, ih]

theorem gathered_eq {s s' : Scan} {ts : List Token} (h : Reaches s ts s') :
    s'.gathered = ts.reverse ++ s.gathered := by
  induction h with
  | refl => rfl
  | step hstep _ ih =>
    obtain ⟨p, -, -, -, rfl, hnext⟩ := step_sound hstep
    rw [ih, hnext]
    cases p <;> simp [past, Piece.token?]

/-- The characters between two scans, and the place behind them. -/
theorem exists_text {s s' : Scan} {ts : List Token} (h : Reaches s ts s') :
    ∃ text, s.rest = text ++ s'.rest ∧ s'.position = s.position.after text := by
  induction h with
  | refl => exact ⟨[], rfl, rfl⟩
  | step hstep _ ih =>
    obtain ⟨text, htext, hplace⟩ := ih
    obtain ⟨p, -, hrest, -, -, hnext⟩ := step_sound hstep
    refine ⟨p.text ++ text, ?_, ?_⟩
    · rw [hrest, htext, List.append_assoc]
    · rw [hplace, hnext, Position.after_append, past]

theorem offset_le {s s' : Scan} {ts : List Token} (h : Reaches s ts s') :
    s.position.offset ≤ s'.position.offset := by
  obtain ⟨text, -, hplace⟩ := h.exists_text
  rw [hplace, Position.offset_after]
  omega

/-- A token that was gathered stands in the source where it says. -/
theorem exists_place {s s' : Scan} {ts : List Token} (h : Reaches s ts s') {t : Token}
    (ht : t ∈ ts) : ∃ before u after, t.kind = .terminal u ∧
      s.rest = before ++ (u.text.toList ++ after) ∧ t.position = s.position.after before := by
  induction h with
  | refl => cases ht
  | @step s next s' token ts hstep _ ih =>
    obtain ⟨p, -, hrest, -, rfl, hnext⟩ := step_sound hstep
    rcases List.mem_append.mp ht with hfirst | hlater
    · cases p with
      | separator c => cases hfirst
      | terminal u =>
        obtain rfl : t = ⟨.terminal u, u.text, s.position⟩ := by
          simpa [Piece.token?] using hfirst
        exact ⟨[], u, next.rest, rfl, hrest, rfl⟩
    · obtain ⟨before, u, after, hkind, hnextRest, hplace⟩ := ih hlater
      refine ⟨p.text ++ before, u, after, hkind, ?_, ?_⟩
      · rw [hrest, hnextRest, List.append_assoc]
      · rw [hplace, hnext, Position.after_append, past]

/-- A token that was gathered was gathered in some step on the way. -/
theorem exists_step {s s' : Scan} {before after : List Token} {t : Token}
    (h : Reaches s (before ++ t :: after) s') :
    ∃ s₁ s₂, Reaches s before s₁ ∧ s₁.step = .moved (some t) s₂ ∧ Reaches s₂ after s' := by
  generalize hts : before ++ t :: after = ts at h
  induction h generalizing before with
  | refl => simp at hts
  | @step s next s' token ts hstep hrest ih =>
    cases token with
    | none =>
      obtain ⟨s₁, s₂, hbefore, hmoved, hafter⟩ := ih hts
      exact ⟨s₁, s₂, .step hstep hbefore, hmoved, hafter⟩
    | some u =>
      cases before with
      | nil =>
        obtain ⟨rfl, rfl⟩ := List.cons.inj hts
        exact ⟨s, next, .refl s, hstep, hrest⟩
      | cons v before =>
        obtain ⟨rfl, hmore⟩ := List.cons.inj hts
        obtain ⟨s₁, s₂, hbefore, hmoved, hafter⟩ := ih hmore
        exact ⟨s₁, s₂, .step hstep hbefore, hmoved, hafter⟩

end Reaches

/-- A run reaches the end of the source, or a lexeme that cannot be read. -/
theorem run_cases (s : Scan) :
    ∃ ts s', Reaches s ts s' ∧ (s'.rest = [] ∨ ∃ e next, s'.step = .failed e next) := by
  fun_induction run s with
  | case1 s hstep => exact ⟨[], s, .refl s, .inl (step_eq_finished.mp hstep)⟩
  | case2 s token next hstep ih =>
    obtain ⟨ts, s', hreach, hend⟩ := ih
    exact ⟨token.toList ++ ts, s', .step hstep hreach, hend⟩
  | case3 s e next hstep => exact ⟨[], s, .refl s, .inr ⟨e, next, hstep⟩⟩

theorem Reaches.run_of_end {s s' : Scan} {ts : List Token} (h : Reaches s ts s')
    (hend : s'.rest = []) :
    s.run = (.ok (s.gathered.reverse ++ ts ++ [Token.atEnd s'.position]),
      { s' with gathered := [] }) := by
  rw [h.run_eq, run_of_finished (step_eq_finished.mpr hend), h.gathered_eq]
  simp

theorem Reaches.run_of_failed {s s' next : Scan} {ts : List Token} {e : Error}
    (h : Reaches s ts s') (hfail : s'.step = .failed e next) : s.run = (.error e, next) := by
  rw [h.run_eq]
  exact Scan.run_of_failed hfail

/-- A run that succeeds hands out what was gathered before, and more behind it. -/
theorem exists_append_of_run_ok {s : Scan} {us : List Token} (h : s.run.1 = .ok us) :
    ∃ more, us = s.gathered.reverse ++ more := by
  obtain ⟨ts, s', hreach, hend | ⟨e, next, hfail⟩⟩ := s.run_cases
  · rw [hreach.run_of_end hend] at h
    cases h
    exact ⟨ts ++ [Token.atEnd s'.position], List.append_assoc ..⟩
  · rw [hreach.run_of_failed hfail] at h
    cases h

theorem offset_lt_of_moved {s next : Scan} {token : Option Token}
    (h : s.step = .moved token next) : s.position.offset < next.position.offset := by
  obtain ⟨p, hp, -, -, -, hnext⟩ := step_sound h
  obtain ⟨c, t, htext⟩ := Piece.exists_text_cons hp
  rw [hnext, past, htext, Position.offset_after, List.length_cons]
  omega

/-- A run that fails does so behind the place where it began, or at it. -/
theorem offset_le_of_run_error {s : Scan} {e : Error} (h : s.run.1 = .error e) :
    s.position.offset ≤ e.position.offset := by
  obtain ⟨ts, s', hreach, hend | ⟨e', next, hfail⟩⟩ := s.run_cases
  · rw [hreach.run_of_end hend] at h
    cases h
  · rw [hreach.run_of_failed hfail] at h
    cases h
    have hbefore := hreach.offset_le
    obtain ⟨text, -, -, hstop, -, hplace⟩ := step_failed_sound hfail
    have hafter : s'.position.offset ≤ next.position.offset := by
      rw [hstop, Position.offset_after]
      omega
    rw [hplace]
    unfold faultPosition
    split <;> omega

/-! ## Scans of a whole source -/

section OfSource

variable {source : String} {s : Scan} {ts : List Token}

theorem Reaches.gathered_ofSource (h : Reaches (.ofSource source) ts s) :
    s.gathered.reverse = ts := by
  rw [h.gathered_eq]
  simp [ofSource]

theorem Reaches.scan_of_end (h : Reaches (.ofSource source) ts s) (hend : s.rest = []) :
    Token.scan source = .ok (ts ++ [Token.atEnd s.position]) := by
  rw [Token.scan, h.run_of_end hend]
  rfl

theorem Reaches.scan_of_failed {next : Scan} {e : Error} (h : Reaches (.ofSource source) ts s)
    (hfail : s.step = .failed e next) : Token.scan source = .error e := by
  rw [Token.scan, h.run_of_failed hfail]

/-- The tokens of a source begin with those gathered on the way through it. -/
theorem Reaches.exists_append_of_scan {us : List Token} (h : Reaches (.ofSource source) ts s)
    (hscan : Token.scan source = .ok us) : ∃ more, us = ts ++ more := by
  rw [Token.scan, h.run_eq] at hscan
  rw [← h.gathered_ofSource]
  exact exists_append_of_run_ok hscan

end OfSource

/-! ## Longer sources -/

/-- The same scan of a source with more characters at its end. -/
def extend (s : Scan) (t : List Char) : Scan :=
  { s with rest := s.rest ++ t }

/-- A step is made in the longer source too, unless its piece runs on into what was added. -/
theorem step_extend_of_piece {s next : Scan} {token : Option Token}
    (h : s.step = .moved token next) {t : List Char}
    (ht : ∀ p : Piece, token = p.token? s.position → p.runsOn →
      StopsRun isSymbolPart next.rest → StopsRun isSymbolPart (next.rest ++ t)) :
    (s.extend t).step = .moved token (next.extend t) := by
  obtain ⟨p, hp, hrest, hstop, rfl, hnext⟩ := step_sound h
  have hlonger : (s.extend t).rest = p.text ++ (next.rest ++ t) := by
    rw [extend, hrest, List.append_assoc]
  rw [step_complete hp hlonger fun hruns => ht p rfl hruns (hstop hruns)]
  rw [hnext]
  rfl

theorem step_extend {s next : Scan} {token : Option Token} (h : s.step = .moved token next)
    {t : List Char} (ht : next.rest = [] → StopsRun isSymbolPart t) :
    (s.extend t).step = .moved token (next.extend t) := by
  apply step_extend_of_piece h
  intro p _ _ hstop
  by_cases hempty : next.rest = []
  · rw [hempty, List.nil_append]
    exact ht hempty
  · exact hstop.append hempty t

theorem step_closing_extend {s next : Scan} {token : Token} {d : Delimiter}
    (h : s.step = .moved (some token) next) (hk : token.kind = .terminal (.closing d))
    (t : List Char) : (s.extend t).step = .moved (some token) (next.extend t) := by
  apply step_extend_of_piece h
  intro p hp hruns
  -- a delimiter does not run on
  cases p with
  | separator c => cases hp
  | terminal u =>
    cases hp
    cases hk
    cases hruns

theorem Reaches.extend {s s' : Scan} {ts : List Token} (h : Reaches s ts s') {t : List Char}
    (ht : s'.rest = [] → StopsRun isSymbolPart t) :
    Reaches (s.extend t) ts (s'.extend t) := by
  induction h with
  | refl => exact .refl _
  | step hstep hreach ih =>
    apply Reaches.step (step_extend hstep ?_) (ih ht)
    intro hempty
    obtain ⟨text, htext, -⟩ := hreach.exists_text
    rw [hempty] at htext
    exact ht (List.append_eq_nil_iff.mp htext.symm).2

theorem step_failed_extend {s next : Scan} {e : Error} (h : s.step = .failed e next)
    (hdecided : next.rest ≠ [] ∨ ∃ c, e.cause = .invalidCharacter c) (t : List Char) :
    (s.extend t).step = .failed e (next.extend t) := by
  obtain ⟨text, hrest, hbroken, hplace, hgathered, heplace⟩ := step_failed_sound h
  have hlonger : (s.extend t).rest = text ++ (next.rest ++ t) := by
    rw [Scan.extend, hrest, List.append_assoc]
  rw [step_failed_complete (hbroken.append hdecided t) hlonger]
  obtain ⟨cause, position⟩ := e
  obtain ⟨rest, stop, gathered⟩ := next
  simp only at hplace hgathered heplace
  simp [Scan.extend, hplace, hgathered, heplace]

end Scan

end Sexp
