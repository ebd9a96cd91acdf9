import Mathlib
import Sexp.Form.Descent
import Sexp.Proofs.Nesting
import Sexp.Proofs.Progress
import Sexp.Reader

/-! # Reading in one pass and in two stages

`Form.read` scans the whole source and then nests its tokens with a stack; `Form.descend` recurses
into collections on the characters themselves.  `Agrees` says what a descent from some place of the
source has to do with both stages:

* where it succeeds, the scan gathers its forms written out, which the nest rebuilds;
* where it fails, the scan reaches the same place and the nest takes what was gathered before, and
  one of the two stops there with the same error (`StopsAt`).

Both readings therefore part only where a closer is at fault and the scan, which does not stop
there, fails further on.
-/

namespace Sexp

/-! ## Tokens that are taken -/

namespace Nest

/-- The innermost open collection: what it is and where it was opened. -/
def innermost (n : Nest) : Option (Delimiter × Position) :=
  n.pending.head?.map fun c => (c.delimiter, c.position)

theorem takes_opening (n : Nest) {t : Token} {d : Delimiter}
    (ht : t.kind = .terminal (.opening d)) : n.Takes [t] (n.enter d t.position) :=
  takes_terminal ht rfl

theorem innermost_addAll (n : Nest) (fs : List Form) : (n.addAll fs).innermost = n.innermost := by
  obtain ⟨done, pending⟩ := n
  cases pending with
  | nil => rw [addAll_done]; rfl
  | cons c outer => rw [addAll_pending]; rfl

theorem finish_of_innermost {n : Nest} {d : Delimiter} {p : Position}
    (h : n.innermost = some (d, p)) : n.finish = .error ⟨.unclosedDelimiter d, p⟩ := by
  obtain ⟨done, pending⟩ := n
  cases pending with
  | nil => cases h
  | cons c outer =>
    simp only [innermost, List.head?_cons, Option.map_some, Option.some.injEq,
      Prod.mk.injEq] at h
    simp [finish, h.1, h.2]

theorem leave_of_outside {n : Nest} (h : n.innermost = none) (d : Delimiter) (p : Position) :
    n.leave d p = .error ⟨.invalidCharacter d.closing, p⟩ := by
  obtain ⟨done, pending⟩ := n
  cases pending with
  | nil => rfl
  | cons c outer => cases h

theorem leave_of_mismatch {n : Nest} {expected d : Delimiter} {openedAt : Position}
    (h : n.innermost = some (expected, openedAt)) (hne : expected ≠ d) (p : Position) :
    n.leave d p = .error ⟨.mismatchedDelimiter expected d, p⟩ := by
  obtain ⟨done, pending⟩ := n
  cases pending with
  | nil => cases h
  | cons c outer =>
    simp only [innermost, List.head?_cons, Option.map_some, Option.some.injEq,
      Prod.mk.injEq] at h
    simp [leave, h.1, hne]

end Nest

/-! ## Steps of a scan, by the lexeme that comes next -/

namespace Scan

variable {c : Char} {cs : List Char} (p : Position) (g : List Token)

theorem step_separator (hv : (Lexeme.next c cs).value = .ok none) :
    step ⟨c :: cs, p, g⟩ =
      .moved none ⟨(Lexeme.next c cs).rest, p.after (Lexeme.next c cs).text, g⟩ := by
  simp [step, hv]

theorem step_terminal {u : Terminal} (hv : (Lexeme.next c cs).value = .ok (some u)) :
    ∃ t, t.kind = .terminal u ∧ t.position = p ∧
      step ⟨c :: cs, p, g⟩ = .moved (some t)
        ⟨(Lexeme.next c cs).rest, p.after (Lexeme.next c cs).text, t :: g⟩ :=
  ⟨⟨.terminal u, String.ofList (Lexeme.next c cs).text, p⟩, rfl, rfl, by simp [step, hv]⟩

theorem step_fault {cause : Cause} (hv : (Lexeme.next c cs).value = .error cause) :
    step ⟨c :: cs, p, g⟩ =
      .failed ⟨cause, faultPosition p (p.after (Lexeme.next c cs).text) cause⟩
        ⟨(Lexeme.next c cs).rest, p.after (Lexeme.next c cs).text, g⟩ := by
  simp [step, hv]

end Scan

/-! ## A descent and the two stages -/

namespace Descent

/-- Which stage stops with the error `e`, when the scan has come to `s` and the nest to `n`. -/
inductive StopsAt (s : Scan) (n : Nest) (e : Error) : Prop
  | lexeme {next : Scan} (hs : s.step = .failed e next)
  | closer {t : Token} {d : Delimiter} {next : Scan} (hs : s.step = .moved (some t) next)
      (ht : t.kind = .terminal (.closing d)) (hp : t.position = s.position)
      (he : n.leave d t.position = .error e)
  | unclosed (hs : s.rest = []) (he : n.finish = .error e)

/-- The delimiter that ends the elements of a collection; forms outside have none. -/
def closing : Option (Delimiter × Position) → List Terminal
  | none => []
  | some (d, _) => [.closing d]

/-- The outcome of a descent that began at the scan `s`, told from what both stages do. -/
def Agrees (within : Option (Delimiter × Position)) (s : Scan) : Except Error Descent → Prop
  | .ok d => ∃ ts s', Scan.Reaches s ts s' ∧ s'.rest = d.rest ∧ s'.position = d.position ∧
      ts.map Token.kind = (d.forms.flatMap Form.terminals ++ closing within).map .terminal ∧
      (within = none → d.rest = [])
  | .error e => ∃ ts s', Scan.Reaches s ts s' ∧
      ∀ n : Nest, n.innermost = within → ∃ n', n.Takes ts n' ∧ StopsAt s' n' e

/-- Forms whose tokens were gathered before the descent began stand before those it reads. -/
theorem Agrees.after {within : Option (Delimiter × Position)} {s next : Scan} {us : List Token}
    {fs : List Form} {r : Except Error Descent} (hreach : Scan.Reaches s us next)
    (hus : us.map Token.kind = (fs.flatMap Form.terminals).map .terminal)
    (h : Agrees within next r) :
    Agrees within s (r.map fun d => { d with forms := fs ++ d.forms }) := by
  cases r with
  | ok d =>
    obtain ⟨ts, s', hreach', hrest, hplace, hts, hend⟩ := h
    refine ⟨us ++ ts, s', hreach.trans hreach', hrest, hplace, ?_, hend⟩
    rw [List.map_append, hus, hts]
    simp
  | error e =>
    obtain ⟨ts, s', hreach', hstop⟩ := h
    refine ⟨us ++ ts, s', hreach.trans hreach', ?_⟩
    intro n hn
    have hin : (n.addAll fs).innermost = within := by rw [Nest.innermost_addAll, hn]
    obtain ⟨n', htakes, hstops⟩ := hstop _ hin
    exact ⟨n', (n.takes_forms hus).trans htakes, hstops⟩

theorem Agrees.separator {within : Option (Delimiter × Position)} {s next : Scan}
    {r : Except Error Descent} (hstep : s.step = .moved none next) (h : Agrees within next r) :
    Agrees within s r := by
  have hreach : Scan.Reaches s [] next := .step hstep (.refl next)
  have hnone : ([] : List Form).flatMap Form.terminals = [] := rfl
  have hafter := h.after hreach (congrArg (List.map Token.Kind.terminal) hnone.symm)
  cases r with
  | ok d => exact hafter
  | error e => exact hafter

theorem Agrees.atom {within : Option (Delimiter × Position)} {s next : Scan} {t : Token} {a : Atom}
    {r : Except Error Descent} (hstep : s.step = .moved (some t) next)
    (ht : t.kind = .terminal (.atom a)) (h : Agrees within next r) :
    Agrees within s (r.map (cons (.atom a))) := by
  have hreach : Scan.Reaches s [t] next := .step hstep (.refl next)
  have hkind : [t].map Token.kind = ([Form.atom a].flatMap Form.terminals).map .terminal := by
    simp [ht, Form.terminals]
  exact h.after hreach hkind

/-- An error among the elements of a collection is an error of the descent around it. -/
theorem Agrees.opening {within : Option (Delimiter × Position)} {s next : Scan} {t : Token}
    {d : Delimiter} {e : Error} (hstep : s.step = .moved (some t) next)
    (ht : t.kind = .terminal (.opening d)) (h : Agrees (some (d, t.position)) next (.error e)) :
    Agrees within s (.error e) := by
  obtain ⟨ts, s', hreach, hstop⟩ := h
  refine ⟨t :: ts, s', .step hstep hreach, ?_⟩
  intro n _
  obtain ⟨n', htakes, hstops⟩ := hstop (n.enter d t.position) rfl
  exact ⟨n', (n.takes_opening ht).trans htakes, hstops⟩

theorem Agrees.collection {within : Option (Delimiter × Position)} {s next : Scan} {t : Token}
    {d : Delimiter} {inner : Descent} {r : Except Error Descent}
    (hstep : s.step = .moved (some t) next) (ht : t.kind = .terminal (.opening d))
    (hinner : Agrees (some (d, t.position)) next (.ok inner))
    (h : ∀ g, Agrees within ⟨inner.rest, inner.position, g⟩ r) :
    Agrees within s (r.map (cons (.collection d inner.forms))) := by
  obtain ⟨ts, ⟨rest, place, g⟩, hreach, rfl, rfl, hts, -⟩ := hinner
  have hreach' : Scan.Reaches s (t :: ts) ⟨inner.rest, inner.position, g⟩ := .step hstep hreach
  have hkinds : (t :: ts).map Token.kind =
      ([Form.collection d inner.forms].flatMap Form.terminals).map .terminal := by
    rw [List.map_cons, ht, hts]
    simp [Form.terminals, closing]
  exact (h g).after hreach' hkinds

theorem agrees_read (within : Option (Delimiter × Position)) (p : Position) (cs : List Char) :
    ∀ g, Agrees within ⟨cs, p, g⟩ ((read within p cs).map (·.1)) := by
  fun_induction read within p cs with
  | case1 p =>
    intro g
    exact ⟨[], _, .refl _, rfl, rfl, rfl, fun _ => rfl⟩
  | case2 p d openedAt =>
    intro g
    refine ⟨[], _, .refl _, fun n hn => ⟨n, .refl n, ?_⟩⟩
    exact .unclosed rfl (Nest.finish_of_innermost hn)
  | case3 within p c cs r stop hr cause hv =>
    intro g
    refine ⟨[], _, .refl _, fun n _ => ⟨n, .refl n, ?_⟩⟩
    exact .lexeme (Scan.step_fault p g hv)
  | case4 within p c cs r stop hr hv e hread ih =>
    intro g
    rw [hread] at ih
    exact (ih g).separator (Scan.step_separator p g hv)
  | case5 within p c cs r stop hr hv after ha hread ih =>
    intro g
    rw [hread] at ih
    exact (ih g).separator (Scan.step_separator p g hv)
  | case6 within p c cs r stop hr a hv e hread ih =>
    intro g
    rw [hread] at ih
    obtain ⟨t, ht, -, hstep⟩ := Scan.step_terminal p g hv
    exact (ih _).atom hstep ht
  | case7 within p c cs r stop hr a hv after ha hread ih =>
    intro g
    rw [hread] at ih
    obtain ⟨t, ht, -, hstep⟩ := Scan.step_terminal p g hv
    exact (ih _).atom hstep ht
  | case8 within p c cs r stop hr d hv e hread ih =>
    intro g
    rw [hread] at ih
    obtain ⟨t, ht, rfl, hstep⟩ := Scan.step_terminal p g hv
    exact (ih _).opening hstep ht
  | case9 within p c cs r stop hr d hv inner hi hinner e hread ihi ih =>
    intro g
    rw [hinner] at ihi
    rw [hread] at ih
    obtain ⟨t, ht, rfl, hstep⟩ := Scan.step_terminal p g hv
    exact (ihi _).collection hstep ht ih
  | case10 within p c cs r stop hr d hv inner hi hinner after ha hread ihi ih =>
    intro g
    rw [hinner] at ihi
    rw [hread] at ih
    obtain ⟨t, ht, rfl, hstep⟩ := Scan.step_terminal p g hv
    exact (ihi _).collection hstep ht ih
  | case11 p c cs r hr d hv =>
    intro g
    obtain ⟨t, ht, rfl, hstep⟩ := Scan.step_terminal p g hv
    refine ⟨[], _, .refl _, fun n hn => ⟨n, .refl n, ?_⟩⟩
    exact .closer hstep ht rfl (Nest.leave_of_outside hn d t.position)
  | case12 p c cs r stop hr d openedAt hv =>
    intro g
    obtain ⟨t, ht, -, hstep⟩ := Scan.step_terminal p g hv
    refine ⟨[t], _, .step hstep (.refl _), rfl, rfl, ?_, by simp⟩
    simp [ht, closing]
  | case13 p c cs r hr d hv expected openedAt hne =>
    intro g
    obtain ⟨t, ht, rfl, hstep⟩ := Scan.step_terminal p g hv
    refine ⟨[], _, .refl _, fun n hn => ⟨n, .refl n, ?_⟩⟩
    exact .closer hstep ht rfl (Nest.leave_of_mismatch hn hne t.position)

end Descent

/-! ## Which errors lie with a closer -/

/-- A cause that lies with a closing delimiter: a stray one, or one that does not match. -/
def Cause.BlamesCloser : Cause → Prop
  | .mismatchedDelimiter _ _ => True
  | .invalidCharacter c => ∃ d : Delimiter, c = d.closing
  | _ => False

theorem Nest.blamesCloser_of_leave {n : Nest} {d : Delimiter} {p : Position} {e : Error}
    (h : n.leave d p = .error e) : e.cause.BlamesCloser ∧ e.position = p := by
  rcases leave_eq_error h with ⟨-, rfl⟩ | ⟨c, outer, -, -, rfl⟩
  · exact ⟨⟨d, rfl⟩, rfl⟩
  · exact ⟨trivial, rfl⟩

theorem Nest.not_blamesCloser_of_finish {n : Nest} {e : Error} (h : n.finish = .error e) :
    ¬ e.cause.BlamesCloser := by
  obtain ⟨done, pending⟩ := n
  cases pending with
  | nil => cases h
  | cons c outer =>
    cases h
    exact id

theorem Lexeme.Broken.not_blamesCloser {text rest : List Char} {cause : Cause}
    (h : Lexeme.Broken text rest cause) : ¬ cause.BlamesCloser := by
  cases h with
  | string | keyword | numeral => exact id
  | character h =>
    rintro ⟨d, rfl⟩
    obtain ⟨-, -, -, hother⟩ := h
    cases d <;> exact hother (by decide)

theorem Scan.not_blamesCloser_of_failed {s next : Scan} {e : Error}
    (h : s.step = .failed e next) : ¬ e.cause.BlamesCloser := by
  obtain ⟨text, -, hbroken, -⟩ := step_failed_sound h
  exact hbroken.not_blamesCloser

/-! ## Both readings of a source -/

namespace Form

theorem read_of_scan_ok {source : String} {ts : List Token} (h : Token.scan source = .ok ts) :
    read source = (parse ts).1 := by
  rw [read, h]
  rfl

theorem read_of_scan_error {source : String} {e : Error} (h : Token.scan source = .error e) :
    read source = .error e := by
  rw [read, h]
  rfl

theorem agrees_descend (source : String) :
    ∃ r, Descent.Agrees none (.ofSource source) r ∧ descend source = r.map Descent.forms := by
  refine ⟨_, Descent.agrees_read none .start source.toList [], ?_⟩
  rw [descend]
  cases Descent.read none .start source.toList <;> rfl

/-- What was gathered up to the end of a source is nested up to its end mark. -/
theorem read_of_reaches {source : String} {ts : List Token} {s : Scan} {n : Nest}
    (hreach : Scan.Reaches (.ofSource source) ts s) (hend : s.rest = [])
    (htakes : Nest.Takes {} ts n) : read source = n.finish := by
  rw [read_of_scan_ok (hreach.scan_of_end hend), parse, htakes, Nest.run_eof n rfl]

/-- A closer that the nest refuses is the error of the source, unless the scan fails behind it. -/
theorem read_of_closer {source : String} {ts : List Token} {s next : Scan} {n : Nest} {t : Token}
    {d : Delimiter} {e : Error} (hreach : Scan.Reaches (.ofSource source) ts s)
    (hmoved : s.step = .moved (some t) next) (ht : t.kind = .terminal (.closing d))
    (htakes : Nest.Takes {} ts n) (hleave : n.leave d t.position = .error e) :
    (read source = .error e ∧ ∀ l, Token.scan source ≠ .error l) ∨
      ∃ l, Token.scan source = .error l ∧ s.position.offset < l.position.offset := by
  have hbehind : Scan.Reaches (.ofSource source) (ts ++ [t]) next :=
    hreach.trans (.step hmoved (.refl next))
  cases hlater : next.run.1 with
  | error l =>
    have hscan : Token.scan source = .error l := by rw [Token.scan, hbehind.run_eq, hlater]
    have hlt := Scan.offset_lt_of_moved hmoved
    have hle := Scan.offset_le_of_run_error hlater
    exact .inr ⟨l, hscan, by omega⟩
  | ok us =>
    have hscan : Token.scan source = .ok us := by rw [Token.scan, hbehind.run_eq, hlater]
    -- the tokens handed out are those before the closer, the closer and more
    obtain ⟨more, rfl⟩ := hbehind.exists_append_of_scan hscan
    have hrun : n.run (t :: more) = (.error e, more) := by
      rw [Nest.run_terminal n ht, Nest.take, hleave]
    refine .inl ⟨?_, by simp [hscan]⟩
    rw [read_of_scan_ok hscan, parse, List.append_assoc, List.singleton_append,
      htakes (t :: more), hrun]

theorem read_of_descend_ok {source : String} {fs : List Form} (h : descend source = .ok fs) :
    read source = .ok fs := by
  obtain ⟨r, hagrees, hr⟩ := agrees_descend source
  rw [hr] at h
  cases r with
  | error e => cases h
  | ok d =>
    cases h
    obtain ⟨ts, s, hreach, hrest, -, hts, hend⟩ := hagrees
    rw [Descent.closing, List.append_nil] at hts
    rw [read_of_reaches hreach (hrest.trans (hend rfl)) (Nest.takes_forms {} hts),
      Nest.addAll_done]
    simp [Nest.finish]

/-- A descent that fails does so with the error of the two stages, unless it stops at a closer and
the scan fails further on. -/
theorem read_of_descend_error {source : String} {e : Error} (h : descend source = .error e) :
    (read source = .error e ∧ ∀ l, e.cause.BlamesCloser → Token.scan source ≠ .error l) ∨
      ∃ l, e.cause.BlamesCloser ∧ Token.scan source = .error l ∧
        e.position.offset < l.position.offset := by
  obtain ⟨r, hagrees, hr⟩ := agrees_descend source
  rw [hr] at h
  cases r with
  | ok d => cases h
  | error e' =>
    cases h
    obtain ⟨ts, s, hreach, hstop⟩ := hagrees
    obtain ⟨n, htakes, hstops⟩ := hstop {} rfl
    cases hstops with
    | lexeme hfail =>
      exact .inl ⟨read_of_scan_error (hreach.scan_of_failed hfail),
        fun _ hblame => absurd hblame (Scan.not_blamesCloser_of_failed hfail)⟩
    | unclosed hend hfinish =>
      refine .inl ⟨?_, fun _ hblame => absurd hblame (Nest.not_blamesCloser_of_finish hfinish)⟩
      rw [read_of_reaches hreach hend htakes, hfinish]
    | @closer t d next hmoved ht hplace hleave =>
      obtain ⟨hblame, hposition⟩ := Nest.blamesCloser_of_leave hleave
      rcases read_of_closer hreach hmoved ht htakes hleave with ⟨hread, hscan⟩ | ⟨l, hscan, hlt⟩
      · exact .inl ⟨hread, fun l _ => hscan l⟩
      · rw [← hplace, ← hposition] at hlt
        exact .inr ⟨l, hblame, hscan, hlt⟩

theorem read_eq_ok_iff_descend (source : String) (fs : List Form) :
    read source = .ok fs ↔ descend source = .ok fs := by
  constructor
  · intro hread
    cases hdescend : descend source with
    | ok fs' =>
      rw [read_of_descend_ok hdescend] at hread
      exact hread
    | error e =>
      rcases read_of_descend_error hdescend with ⟨herror, -⟩ | ⟨l, -, hscan, -⟩
      · rw [herror] at hread
        cases hread
      · rw [read_of_scan_error hscan] at hread
        cases hread
  · exact read_of_descend_ok

/-- Where the one-pass reading stops at a closer and the scan fails, the two stages give the error of
the scan, which lies further on. -/
theorem read_of_parted {source : String} {e l : Error} (hdescend : descend source = .error e)
    (hblame : e.cause.BlamesCloser) (hscan : Token.scan source = .error l) :
    read source = .error l ∧ e.position.offset < l.position.offset := by
  rcases read_of_descend_error hdescend with ⟨-, hscanned⟩ | ⟨l', -, hscan', hlt⟩
  · exact absurd hscan (hscanned l hblame)
  · rw [hscan] at hscan'
    cases hscan'
    exact ⟨read_of_scan_error hscan, hlt⟩

theorem read_eq_descend_iff_not_parted (source : String) :
    read source = descend source ↔
      ¬ ∃ e l, descend source = .error e ∧ e.cause.BlamesCloser ∧
        Token.scan source = .error l := by
  constructor
  · rintro heq ⟨e, l, hdescend, hblame, hscan⟩
    obtain ⟨hread, hlt⟩ := read_of_parted hdescend hblame hscan
    rw [heq, hdescend] at hread
    cases hread
    exact Nat.lt_irrefl _ hlt
  · intro hnot
    cases hdescend : descend source with
    | ok fs => exact read_of_descend_ok hdescend
    | error e =>
      rcases read_of_descend_error hdescend with ⟨hread, -⟩ | ⟨l, hblame, hscan, -⟩
      · exact hread
      · exact absurd ⟨e, l, hdescend, hblame, hscan⟩ hnot

/-- Both readings yield the same forms, and the same error except where the one-pass reading stops
at a stray or mismatched closer of a source that cannot be scanned to its end.  There the reading in
two stages gives the error of the scan, which lies further on. -/
theorem read_eq_descend_iff (source : String) :
    (∀ fs, read source = .ok fs ↔ descend source = .ok fs) ∧
      (read source = descend source ↔
        ¬ ∃ e l, descend source = .error e ∧ e.cause.BlamesCloser ∧
          Token.scan source = .error l) ∧
      ∀ e l, descend source = .error e → e.cause.BlamesCloser → Token.scan source = .error l →
        read source = .error l ∧ e.position.offset < l.position.offset := by
  refine ⟨read_eq_ok_iff_descend source, read_eq_descend_iff_not_parted source, ?_⟩
  intro e l hdescend hblame hscan
  exact read_of_parted hdescend hblame hscan

theorem read_eq_descend_iff_parted :
    descend "(] @" = .error ⟨.mismatchedDelimiter .paren .bracket, ⟨1, 1, 2⟩⟩ ∧
      read "(] @" = .error ⟨.invalidCharacter '@', ⟨3, 1, 4⟩⟩ := by
  have hdescend : descend "(] @" = .error ⟨.mismatchedDelimiter .paren .bracket, ⟨1, 1, 2⟩⟩ := by
    cbv
  have hscan : Token.scan "(] @" = .error ⟨.invalidCharacter '@', ⟨3, 1, 4⟩⟩ := by cbv
  exact ⟨hdescend, ((read_eq_descend_iff "(] @").2.2 _ _ hdescend trivial hscan).1⟩

end Form

end Sexp
