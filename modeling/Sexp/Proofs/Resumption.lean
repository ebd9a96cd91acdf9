import Mathlib
import Sexp.Proofs.Progress

/-! # Scans that are taken up again

A scan that has failed can be run again, and `Scan.resumed` runs one any number of times.  What a
run does depends on the characters that are left and on nothing else: it is the run of a source made
of them, seen from another place and behind the tokens gathered before (`run_eq_runWithin`).

That rests on `step_within`, which carries a scan and its step to another place, and on
`Reaches.within`, which carries a way there.  The rest is bookkeeping: a run that fails has taken
some character and has added what it gained to what it found, so the first run that succeeds hands
out the gains of all runs.
-/

namespace Sexp

/-! ## Texts that begin at another place -/

/-- The token of a text that itself begins at `origin`. -/
def Token.shift (origin : Position) (t : Token) : Token :=
  { t with position := origin.shift t.position }

/-- The error of a text that itself begins at `origin`. -/
def Error.shift (origin : Position) (e : Error) : Error :=
  { e with position := origin.shift e.position }

/-- Lines and columns count from one, as those of every place of a text do. -/
structure Position.Counted (p : Position) : Prop where
  line_pos : 0 < p.line
  column_pos : 0 < p.column

theorem Position.counted_start : start.Counted :=
  ⟨Nat.one_pos, Nat.one_pos⟩

theorem Position.Counted.after {p : Position} (h : p.Counted) (text : List Char) :
    (p.after text).Counted := by
  induction text generalizing p with
  | nil => exact h
  | cons c text ih => exact ih ⟨line_pos_next h.line_pos c, column_pos_next p c⟩

namespace Scan

theorem shift_faultPosition (origin start stop : Position) (cause : Cause) :
    faultPosition (origin.shift start) (origin.shift stop) cause =
      origin.shift (faultPosition start stop cause) := by
  cases cause <;> rfl

/-- A scan whose source begins at `origin`, behind the tokens `earlier`. -/
def within (origin : Position) (earlier : List Token) (s : Scan) : Scan :=
  ⟨s.rest, origin.shift s.position, s.gathered.map (Token.shift origin) ++ earlier⟩

/-- What one step leads to where the source begins at `origin`, behind the tokens `earlier`. -/
def Step.within (origin : Position) (earlier : List Token) : Step → Step
  | .finished => .finished
  | .moved token next => .moved (token.map (Token.shift origin)) (next.within origin earlier)
  | .failed e next => .failed (e.shift origin) (next.within origin earlier)

variable (origin : Position) (earlier : List Token)

theorem step_within {s : Scan} (hs : s.position.Counted) :
    (s.within origin earlier).step = s.step.within origin earlier := by
  obtain ⟨rest, place, gathered⟩ := s
  cases rest with
  | nil => rfl
  | cons c cs =>
    have hstop : (origin.shift place).after (Lexeme.next c cs).text =
        origin.shift (place.after (Lexeme.next c cs).text) :=
      Position.shift_after origin hs.line_pos hs.column_pos _
    cases hv : (Lexeme.next c cs).value with
    | error cause =>
      simp only [step, within, hv, hstop, Step.within, shift_faultPosition, Error.shift]
    | ok v =>
      cases v with
      | none => simp only [step, within, hv, hstop, Step.within, Option.map_none]
      | some t =>
        simp only [step, within, hv, hstop, Step.within, Option.map_some, Token.shift,
          List.map_cons, List.cons_append]

theorem Reaches.counted {s s' : Scan} {ts : List Token} (h : Reaches s ts s')
    (hs : s.position.Counted) : s'.position.Counted := by
  obtain ⟨text, -, hplace⟩ := h.exists_text
  rw [hplace]
  exact hs.after text

theorem Reaches.within {s s' : Scan} {ts : List Token} (h : Reaches s ts s')
    (hs : s.position.Counted) :
    Reaches (s.within origin earlier) (ts.map (Token.shift origin)) (s'.within origin earlier) := by
  induction h with
  | refl => exact .refl _
  | @step s next s' token ts hstep _ ih =>
    have hone : Reaches s (token.toList ++ []) next := .step hstep (.refl next)
    have hmoved : (s.within origin earlier).step =
        .moved (token.map (Token.shift origin)) (next.within origin earlier) := by
      rw [step_within origin earlier hs, hstep, Step.within]
    have hway := Reaches.step hmoved (ih (hone.counted hs))
    cases token with
    | none => exact hway
    | some t => exact hway

/-! ## Runs that are taken up again -/

/-- The scan of what is left, as a source of its own. -/
def afresh (s : Scan) : Scan :=
  ofSource (String.ofList s.rest)

/-- What a run gives where the source begins at `origin`, behind the tokens `earlier`: they come out
with the tokens of the run, and stay gathered if it fails. -/
def runWithin (origin : Position) (earlier : List Token) :
    Except Error (List Token) × Scan → Except Error (List Token) × Scan
  | (.ok ts, next) =>
    (.ok (earlier.reverse ++ ts.map (Token.shift origin)), next.within origin [])
  | (.error e, next) => (.error (e.shift origin), next.within origin earlier)

/-- The tokens that a run gathers, whether or not it succeeds, without the end mark. -/
def gains (s : Scan) : List Token :=
  match s.afresh.run with
  | (.ok ts, _) => ts.dropLast.map (Token.shift s.position)
  | (.error _, next) => next.gathered.reverse.map (Token.shift s.position)

theorem within_afresh (s : Scan) : s.afresh.within s.position s.gathered = s := by
  simp [within, afresh, ofSource]

/-- Runs of a scan and of a source made of what is left of it end alike. -/
inductive RunsAfresh (s : Scan) : Prop
  | ended {ts : List Token}
      (hfresh : s.afresh.run =
        (.ok (ts ++ [Token.atEnd (Position.start.after s.rest)]),
          ⟨[], Position.start.after s.rest, []⟩))
      (hrun : s.run =
        (.ok (s.gathered.reverse ++ ts.map (Token.shift s.position) ++
            [Token.atEnd (s.position.after s.rest)]),
          ⟨[], s.position.after s.rest, []⟩))
  | failed {e : Error} {next : Scan} {text : List Char} (hne : text ≠ [])
      (hrest : s.rest = text ++ next.rest) (hplace : next.position = Position.start.after text)
      (hfresh : s.afresh.run = (.error e, next))
      (hrun : s.run = (.error (e.shift s.position), next.within s.position s.gathered))

theorem runsAfresh (s : Scan) : s.RunsAfresh := by
  have hcounted : s.afresh.position.Counted := Position.counted_start
  have hsource : s.afresh.rest = s.rest := by simp [afresh, ofSource]
  obtain ⟨ts, s', hreach, hend⟩ := s.afresh.run_cases
  obtain ⟨before, hbefore, hplace⟩ := hreach.exists_text
  rw [hsource] at hbefore
  have hway := hreach.within s.position s.gathered hcounted
  rw [within_afresh] at hway
  rcases hend with hend | ⟨e, next, hfail⟩
  · rw [hend, List.append_nil] at hbefore
    have hstop : s'.position = Position.start.after s.rest := by
      rw [hplace, hbefore]
      rfl
    have hfresh := hreach.run_of_end hend
    have hrun := hway.run_of_end hend
    rw [within, hend, hstop, ← Position.after_eq_shift] at hrun
    rw [hend, hstop] at hfresh
    exact .ended hfresh hrun
  · have hmoved : (s'.within s.position s.gathered).step =
        .failed (e.shift s.position) (next.within s.position s.gathered) := by
      rw [step_within _ _ (hreach.counted hcounted), hfail, Step.within]
    obtain ⟨text, hrest, hbroken, hstop, -⟩ := step_failed_sound hfail
    obtain ⟨c, cs, rfl, -⟩ := hbroken.next_eq
    have hne : before ++ c :: cs ≠ [] := by simp
    rw [hrest, ← List.append_assoc] at hbefore
    rw [hplace, ← Position.after_append] at hstop
    exact .failed hne hbefore hstop (hreach.run_of_failed hfail) (hway.run_of_failed hmoved)

theorem run_eq_runWithin (s : Scan) : s.run = runWithin s.position s.gathered s.afresh.run := by
  cases s.runsAfresh with
  | @ended ts hfresh hrun =>
    rw [hrun, hfresh, runWithin, within, ← Position.after_eq_shift]
    simp [Token.shift, Token.atEnd, ← Position.after_eq_shift]
  | failed _ _ _ hfresh hrun => rw [hrun, hfresh, runWithin]

/-- A run that fails takes some character and adds what it gains to what was gathered. -/
theorem run_of_error {s : Scan} {e : Error} (h : s.run.1 = .error e) :
    s.run.2.rest.length < s.rest.length ∧ s.position.offset < s.run.2.position.offset ∧
      s.run.2.gathered.reverse = s.gathered.reverse ++ s.gains := by
  cases s.runsAfresh with
  | ended _ hrun =>
    rw [hrun] at h
    cases h
  | @failed e next text hne hrest hplace hfresh hrun =>
    have hpos : 0 < text.length := List.length_pos_iff.mpr hne
    rw [hrun]
    refine ⟨?_, ?_, ?_⟩
    · rw [hrest, List.length_append]
      exact Nat.lt_add_of_pos_left hpos
    · simp only [within, hplace, ← Position.after_eq_shift, Position.offset_after]
      omega
    · simp [within, gains, hfresh]

/-- A run that succeeds hands out what was gathered and what it gains, and leaves nothing. -/
theorem run_of_ok {s : Scan} {ts : List Token} (h : s.run.1 = .ok ts) :
    ts = s.gathered.reverse ++ s.gains ++ [Token.atEnd (s.position.after s.rest)] ∧
      s.run.2 = ⟨[], s.position.after s.rest, []⟩ := by
  cases s.runsAfresh with
  | ended hfresh hrun =>
    rw [hrun] at h ⊢
    cases h
    simp [gains, hfresh]
  | failed _ _ _ _ hrun =>
    rw [hrun] at h
    cases h

/-! ## Any number of runs -/

/-- The scan before the run number `n`, counted from 0. -/
def resumed (s : Scan) : Nat → Scan
  | 0 => s
  | n + 1 => (s.resumed n).run.2

theorem resumed_run (s : Scan) (n : Nat) : s.run.2.resumed n = s.resumed (n + 1) := by
  induction n with
  | zero => rfl
  | succ n ih =>
    rw [resumed, ih]
    rfl

/-- A scan has what is left of a source, at the place that the characters before it make. -/
def StandsIn (source : List Char) (s : Scan) : Prop :=
  ∃ before, source = before ++ s.rest ∧ s.position = Position.start.after before

theorem StandsIn.run {source : List Char} {s : Scan} (h : s.StandsIn source) :
    s.run.2.StandsIn source := by
  obtain ⟨before, hsource, hplace⟩ := h
  cases s.runsAfresh with
  | ended _ hrun =>
    rw [hrun]
    refine ⟨source, by simp, ?_⟩
    rw [hsource, Position.after_append, ← hplace]
  | @failed _ next text _ hrest hnext _ hrun =>
    rw [hrun]
    refine ⟨before ++ text, ?_, ?_⟩
    · rw [hsource, hrest, within, List.append_assoc]
    · rw [Position.after_append, ← hplace, within, hnext, ← Position.after_eq_shift]

theorem StandsIn.resumed {source : List Char} {s : Scan} (h : s.StandsIn source) (n : Nat) :
    (s.resumed n).StandsIn source := by
  induction n with
  | zero => exact h
  | succ n ih => exact ih.run

theorem standsIn_ofSource (source : String) : (ofSource source).StandsIn source.toList :=
  ⟨[], rfl, rfl⟩

/-- Every failure takes a character, so that some run succeeds. -/
theorem exists_run_ok (s : Scan) :
    ∃ k ≤ s.rest.length, (∀ n < k, ∃ e, (s.resumed n).run.1 = .error e) ∧
      ∃ ts, (s.resumed k).run.1 = .ok ts := by
  cases hrun : s.run.1 with
  | ok ts => exact ⟨0, Nat.zero_le _, fun n hn => absurd hn (Nat.not_lt_zero n), ts, hrun⟩
  | error e =>
    have hshorter := (run_of_error hrun).1
    obtain ⟨k, hk, hfail, ts, hok⟩ := s.run.2.exists_run_ok
    refine ⟨k + 1, by omega, ?_, ts, ?_⟩
    · intro n hn
      cases n with
      | zero => exact ⟨e, hrun⟩
      | succ n =>
        rw [← resumed_run]
        exact hfail n (Nat.lt_of_succ_lt_succ hn)
    · rw [← resumed_run]
      exact hok
termination_by s.rest.length

/-- As long as runs fail, what they gain stays gathered. -/
theorem gathered_resumed {s : Scan} {k : Nat}
    (h : ∀ n < k, ∃ e, (s.resumed n).run.1 = .error e) :
    (s.resumed k).gathered.reverse =
      s.gathered.reverse ++ (List.range k).flatMap fun n => (s.resumed n).gains := by
  induction k with
  | zero => simp [resumed]
  | succ k ih =>
    obtain ⟨e, he⟩ := h k (Nat.lt_succ_self k)
    rw [resumed, (run_of_error he).2.2, ih fun n hn => h n (Nat.lt_succ_of_lt hn)]
    simp [List.range_succ]

/-- A scan that has handed everything out stays as it is. -/
theorem run_spent (p : Position) : run ⟨[], p, []⟩ = (.ok [Token.atEnd p], ⟨[], p, []⟩) :=
  run_of_finished rfl

theorem resumed_of_ok {s : Scan} {k n : Nat} {ts : List Token}
    (h : (s.resumed k).run.1 = .ok ts) (hn : k < n) :
    s.resumed n = ⟨[], (s.resumed k).position.after (s.resumed k).rest, []⟩ := by
  induction hn with
  | refl => exact (run_of_ok h).2
  | step _ ih => rw [resumed, ih, run_spent]

/-- However often a scan of a source is run, each run is that of a scan of what is left, made to
begin at the place reached and behind the tokens gathered; a run that fails gets on by a character
at least.  So no more runs fail than the source has characters.  The first that succeeds hands out
what all runs up to it have gained, in order, and one end mark at the end of the source, and every
later one hands out that end mark alone. -/
theorem resumed_hands_out_all (source : String) :
    (∀ n, let s := (ofSource source).resumed n
      s.rest = source.toList.drop s.position.offset ∧
        s.position = Position.start.after (source.toList.take s.position.offset) ∧
        s.run = runWithin s.position s.gathered (ofSource (String.ofList s.rest)).run ∧
        ∀ e, s.run.1 = .error e → s.position.offset < s.run.2.position.offset) ∧
      ∃ k ≤ source.length,
        (∀ n < k, ∃ e, ((ofSource source).resumed n).run.1 = .error e) ∧
          ((ofSource source).resumed k).run.1 =
            .ok ((List.range (k + 1)).flatMap (fun n => ((ofSource source).resumed n).gains) ++
              [Token.atEnd (Position.start.after source.toList)]) ∧
          ∀ n, k < n → ((ofSource source).resumed n).run.1 =
            .ok [Token.atEnd (Position.start.after source.toList)] := by
  have hstands := (standsIn_ofSource source).resumed
  constructor
  · intro n s
    obtain ⟨before, hsource, hplace⟩ := hstands n
    have hoffset : s.position.offset = before.length := by
      rw [hplace, Position.offset_after]
      exact Nat.zero_add _
    refine ⟨?_, ?_, s.run_eq_runWithin, fun e he => (run_of_error he).2.1⟩
    · rw [hoffset, hsource, List.drop_left]
    · rw [hoffset, hsource, List.take_left, hplace]
  · obtain ⟨k, hk, hfail, ts, hok⟩ := (ofSource source).exists_run_ok
    obtain ⟨before, hsource, hplace⟩ := hstands k
    have hend : ((ofSource source).resumed k).position.after ((ofSource source).resumed k).rest =
        Position.start.after source.toList := by
      rw [hsource, hplace, Position.after_append]
    refine ⟨k, hk, hfail, ?_, ?_⟩
    · rw [hok, (run_of_ok hok).1, gathered_resumed hfail, hend]
      simp [ofSource, List.range_succ]
    · intro n hn
      rw [resumed_of_ok hok hn, hend, run_spent]

theorem resumed_hands_out_all_two_failures :
    ((ofSource "a @ :(\nb").resumed 1).run.1 = .error ⟨.emptyKeyword, ⟨4, 1, 5⟩⟩ ∧
      ((ofSource "a @ :(\nb").resumed 1).position.offset <
        ((ofSource "a @ :(\nb").resumed 1).run.2.position.offset ∧
      ((ofSource "a @ :(\nb").resumed 2).run.1 =
        .ok [⟨.terminal (.atom (.symbol "a")), "a", ⟨0, 1, 1⟩⟩,
          ⟨.terminal (.opening .paren), "(", ⟨5, 1, 6⟩⟩,
          ⟨.terminal (.atom (.symbol "b")), "b", ⟨7, 2, 1⟩⟩, Token.atEnd ⟨8, 2, 2⟩] ∧
      ((ofSource "a @ :(\nb").resumed 3).run.1 = .ok [Token.atEnd ⟨8, 2, 2⟩] := by
  obtain ⟨hruns, k, -, hfail, -, hlater⟩ := resumed_hands_out_all "a @ :(\nb"
  have hkeyword :
      ((ofSource "a @ :(\nb").resumed 1).run.1 = .error ⟨.emptyKeyword, ⟨4, 1, 5⟩⟩ := by
    cbv
  have hok : ((ofSource "a @ :(\nb").resumed 2).run.1 =
      .ok [⟨.terminal (.atom (.symbol "a")), "a", ⟨0, 1, 1⟩⟩,
        ⟨.terminal (.opening .paren), "(", ⟨5, 1, 6⟩⟩,
        ⟨.terminal (.atom (.symbol "b")), "b", ⟨7, 2, 1⟩⟩, Token.atEnd ⟨8, 2, 2⟩] := by
    cbv
  have hk : k < 3 := by
    apply Nat.lt_of_not_le
    intro hge
    obtain ⟨e, he⟩ := hfail 2 (by omega)
    rw [hok] at he
    cases he
  exact ⟨hkeyword, (hruns 1).2.2.2 _ hkeyword, hok, hlater 3 hk⟩

end Scan

end Sexp
