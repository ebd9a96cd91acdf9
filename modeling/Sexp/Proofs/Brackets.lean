import Sexp.Proofs.Nesting

/-! # Where nesting fails

`Form.parse` succeeds exactly on the tokens whose delimiters are balanced, and fails at the leftmost
place where they stop being so.  Two accounts of open delimiters meet here:

* `unclosed` — what a row of brackets leaves open, found with a stack;
* `LeftOpen` — where the openers of a stack stand in the tokens that have been taken, each followed
  by balanced tokens up to the next one.

`LeftOpen.take` carries the second through one token, `Nest.meets` through a whole row, and the
first decides which rows can still be completed.
-/

namespace Sexp

/-! ## Brackets on a stack -/

/-- The delimiters open behind a row of brackets, innermost first, if those of a stack are open
before it and none of the row is at fault. -/
def unclosed : List Delimiter → List Bracket → Option (List Delimiter)
  | stack, [] => some stack
  | stack, .opening d :: w => unclosed (d :: stack) w
  | [], .closing _ :: _ => none
  | e :: stack, .closing d :: w => if e = d then unclosed stack w else none

theorem unclosed_append (stack : List Delimiter) (v w : List Bracket) :
    unclosed stack (v ++ w) = (unclosed stack v).bind (unclosed · w) := by
  induction v generalizing stack with
  | nil => rfl
  | cons b v ih =>
    cases b with
    | opening d => exact ih (d :: stack)
    | closing d =>
      cases stack with
      | nil => rfl
      | cons e stack =>
        by_cases same : e = d
        · simpa [unclosed, same] using ih stack
        · simp [unclosed, same]

/-- A balanced row leaves the stack as it was. -/
theorem Balanced.unclosed_eq {w : List Bracket} (h : Balanced w) (stack : List Delimiter) :
    unclosed stack w = some stack := by
  induction h generalizing stack with
  | nil => rfl
  | @enclose d inner after _ _ ihi iha =>
    rw [List.cons_append]
    change unclosed (d :: stack) (inner ++ .closing d :: after) = some stack
    rw [unclosed_append, ihi (d :: stack)]
    simpa [unclosed] using iha stack

theorem Balanced.enclosed {w : List Bracket} (h : Balanced w) (d : Delimiter) :
    Balanced (.opening d :: w ++ [.closing d]) :=
  h.enclose .nil

theorem Completable.of_append {v w : List Bracket} (h : Completable (v ++ w)) : Completable v := by
  obtain ⟨rest, hb⟩ := h
  exact ⟨w ++ rest, by rwa [← List.append_assoc]⟩

theorem Balanced.completable {w : List Bracket} (h : Balanced w) : Completable w :=
  ⟨[], by rwa [List.append_nil]⟩

theorem Completable.unclosed_ne_none {w : List Bracket} (h : Completable w) :
    unclosed [] w ≠ none := by
  obtain ⟨rest, hb⟩ := h
  intro hnone
  have hall := hb.unclosed_eq []
  rw [unclosed_append, hnone] at hall
  cases hall

/-- Behind an opening bracket of a balanced row stands its closing one. -/
theorem Balanced.exists_closing {w : List Bracket} (h : Balanced w) {before after : List Bracket}
    {d : Delimiter} (hw : w = before ++ .opening d :: after) :
    ∃ inner outer, after = inner ++ .closing d :: outer ∧ Balanced inner := by
  induction h generalizing before after with
  | nil => simp at hw
  | @enclose e inner outer hi _ ihi iho =>
    cases before with
    | nil =>
      -- the bracket that opens the whole row
      simp only [List.cons_append, List.nil_append, List.cons.injEq, Bracket.opening.injEq] at hw
      obtain ⟨rfl, rfl⟩ := hw
      exact ⟨inner, outer, rfl, hi⟩
    | cons b before =>
      simp only [List.cons_append, List.cons.injEq] at hw
      rcases List.append_eq_append_iff.mp hw.2 with ⟨mid, -, hmid⟩ | ⟨mid, hinner, hmid⟩
      · -- the bracket stands behind the pair
        cases mid with
        | nil => cases hmid
        | cons c mid => exact iho (List.cons.inj hmid).2
      · -- the bracket stands inside the pair
        cases mid with
        | nil => cases hmid
        | cons c mid =>
          obtain ⟨rfl, rfl⟩ := List.cons.inj hmid
          obtain ⟨i, o, rfl, hbal⟩ := ihi hinner
          exact ⟨i, o ++ .closing e :: outer, by simp, hbal⟩

namespace Token

/-! ## Openers and their closers among tokens -/

@[simp] theorem brackets_append (ts us : List Token) :
    brackets (ts ++ us) = brackets ts ++ brackets us :=
  List.filterMap_append

theorem brackets_cons_opening {t : Token} {d : Delimiter} (ht : t.kind = .terminal (.opening d))
    (ts : List Token) : brackets (t :: ts) = .opening d :: brackets ts := by
  simp [brackets, bracket?, ht]

theorem brackets_cons_closing {t : Token} {d : Delimiter} (ht : t.kind = .terminal (.closing d))
    (ts : List Token) : brackets (t :: ts) = .closing d :: brackets ts := by
  simp [brackets, bracket?, ht]

theorem brackets_cons_atom {t : Token} {a : Atom} (ht : t.kind = .terminal (.atom a))
    (ts : List Token) : brackets (t :: ts) = brackets ts := by
  simp [brackets, bracket?, ht]

theorem beforeEnd_cons {t : Token} {u : Terminal} (ht : t.kind = .terminal u) (ts : List Token) :
    beforeEnd (t :: ts) = t :: beforeEnd ts := by
  simp [beforeEnd, ht]

theorem kind_ne_eof_of_mem_beforeEnd (ts : List Token) : ∀ t ∈ beforeEnd ts, t.kind ≠ .eof :=
  fun t ht => of_decide_eq_true (List.all_eq_true.mp List.all_takeWhile t ht)

theorem kind_of_bracket?_closing {t : Token} {d : Delimiter} (h : t.bracket? = some (.closing d)) :
    t.kind = .terminal (.closing d) := by
  unfold bracket? at h
  split at h
  next => cases h
  next e hkind =>
    cases h
    exact hkind
  next => cases h

theorem allClosed_of_balanced {ts : List Token} (h : Balanced (brackets ts)) : AllClosed ts := by
  rintro before opener after d rfl hopener
  have hrow : brackets (before ++ opener :: after) =
      brackets before ++ .opening d :: brackets after := by
    rw [brackets_append, brackets_cons_opening hopener]
  obtain ⟨inner, outer, hafter, hinner⟩ := h.exists_closing hrow
  obtain ⟨ts₁, ts₂, rfl, rfl, hclosing⟩ := List.filterMap_eq_append_iff.mp hafter
  obtain ⟨atoms, closer, ts₃, rfl, hatoms, hcloser, -⟩ := List.filterMap_eq_cons_iff.mp hclosing
  -- no bracket stands between the balanced part and the closing bracket
  have hempty : brackets atoms = [] := List.filterMap_eq_nil_iff.mpr hatoms
  refine ⟨ts₁ ++ atoms, closer, ts₃, by simp, ?_, kind_of_bracket?_closing hcloser⟩
  rw [brackets_append, hempty, List.append_nil]
  exact hinner

theorem not_closedIn_of_balanced {after : List Token} (h : Balanced (brackets after))
    (d : Delimiter) : ¬ ClosedIn d after := by
  rintro ⟨inner, closer, outer, rfl, hinner, hcloser⟩
  have hall := h.unclosed_eq []
  rw [brackets_append, brackets_cons_closing hcloser, unclosed_append, hinner.unclosed_eq] at hall
  cases hall

theorem LastUnclosed.not_allClosed {ts : List Token} {d : Delimiter} {p : Position}
    (h : LastUnclosed ts d p) : ¬ AllClosed ts := by
  obtain ⟨before, opener, after, rfl, hopener, -, hopen, -⟩ := h
  intro hall
  exact hopen (hall before opener after d rfl hopener)

end Token

/-! ## The open collections of a nest -/

open Token (brackets beforeEnd AllClosed LastUnclosed FirstFault)

/-- The open collections of a stack were opened by those of the tokens that the tokens leave open:
between one such opener and the next, and behind the innermost, the tokens are balanced. -/
inductive LeftOpen : List Token → List OpenCollection → Prop
  | balanced {ts : List Token} (h : Balanced (brackets ts)) : LeftOpen ts []
  | opener {before inner : List Token} {t : Token} {c : OpenCollection}
      {outer : List OpenCollection} (h : LeftOpen before outer)
      (hkind : t.kind = .terminal (.opening c.delimiter)) (hplace : t.position = c.position)
      (hinner : Balanced (brackets inner)) : LeftOpen (before ++ t :: inner) (c :: outer)

namespace LeftOpen

theorem nil : LeftOpen [] [] :=
  .balanced Balanced.nil

/-- Balanced tokens behind the others open and close nothing. -/
theorem append {ts us : List Token} {stack : List OpenCollection} (h : LeftOpen ts stack)
    (hus : Balanced (brackets us)) : LeftOpen (ts ++ us) stack := by
  cases h with
  | balanced hts =>
    apply LeftOpen.balanced
    rw [Token.brackets_append]
    exact hts.append hus
  | opener hbefore hkind hplace hinner =>
    rw [List.append_assoc, List.cons_append]
    apply LeftOpen.opener hbefore hkind hplace
    rw [Token.brackets_append]
    exact hinner.append hus

/-- The elements of an open collection play no part. -/
theorem add {ts : List Token} {n : Nest} (h : LeftOpen ts n.pending) (f : Form) :
    LeftOpen ts (n.add f).pending := by
  obtain ⟨done, pending⟩ := n
  cases h with
  | balanced hts => exact .balanced hts
  | opener hbefore hkind hplace hinner => exact .opener hbefore hkind hplace hinner

theorem take {ts : List Token} {n next : Nest} {t : Token} {u : Terminal}
    (h : LeftOpen ts n.pending) (ht : t.kind = .terminal u) (hn : n.take t.position u = .ok next) :
    LeftOpen (ts ++ [t]) next.pending := by
  cases u with
  | atom a =>
    cases hn
    have hnone : Balanced (brackets [t]) := by
      rw [Token.brackets_cons_atom ht]
      exact .nil
    exact (h.append hnone).add (.atom a)
  | opening d =>
    cases hn
    exact .opener h ht rfl .nil
  | closing d =>
    obtain ⟨done, pending⟩ := n
    cases h with
    | balanced => cases hn
    | @opener before inner o c outer hbefore hkind hplace hinner =>
      simp only [Nest.take, Nest.leave] at hn
      split at hn
      next same =>
        cases hn
        subst same
        -- the opener, what it encloses and its closer are balanced together
        have hpair : Balanced (brackets (o :: (inner ++ [t]))) := by
          rw [Token.brackets_cons_opening hkind, Token.brackets_append,
            Token.brackets_cons_closing ht]
          exact hinner.enclosed c.delimiter
        rw [List.append_assoc, List.cons_append]
        exact add (n := ⟨done, outer⟩) (hbefore.append hpair) _
      next => cases hn

theorem unclosed_eq {ts : List Token} {stack : List OpenCollection} (h : LeftOpen ts stack) :
    unclosed [] (brackets ts) = some (stack.map (·.delimiter)) := by
  induction h with
  | balanced hts => exact hts.unclosed_eq []
  | opener _ hkind _ hinner ih =>
    rw [Token.brackets_append, Token.brackets_cons_opening hkind, unclosed_append, ih]
    exact hinner.unclosed_eq _

/-- What is open can be closed, from the inside out. -/
theorem completable {ts : List Token} {stack : List OpenCollection} (h : LeftOpen ts stack) :
    Completable (brackets ts) := by
  -- what is put in before the closers may be any balanced row
  suffices hall : ∀ w, Balanced w → Completable (brackets ts ++ w) by
    simpa using hall [] .nil
  induction h with
  | balanced hts =>
    intro w hw
    exact (hts.append hw).completable
  | @opener before inner t c outer _ hkind _ hinner ih =>
    intro w hw
    obtain ⟨rest, hrest⟩ := ih _ ((hinner.append hw).enclosed c.delimiter)
    refine ⟨.closing c.delimiter :: rest, ?_⟩
    rw [Token.brackets_append, Token.brackets_cons_opening hkind]
    simpa using hrest

theorem balanced_of_nil {ts : List Token} (h : LeftOpen ts []) : Balanced (brackets ts) := by
  cases h with
  | balanced hts => exact hts

theorem not_balanced {ts : List Token} {c : OpenCollection} {outer : List OpenCollection}
    (h : LeftOpen ts (c :: outer)) : ¬ Balanced (brackets ts) := by
  intro hb
  have hopen := h.unclosed_eq
  rw [hb.unclosed_eq] at hopen
  cases hopen

theorem lastUnclosed {ts : List Token} {c : OpenCollection} {outer : List OpenCollection}
    (h : LeftOpen ts (c :: outer)) : LastUnclosed ts c.delimiter c.position := by
  cases h with
  | @opener before inner t _ _ _ hkind hplace hinner =>
    exact ⟨before, t, inner, rfl, hkind, hplace, Token.not_closedIn_of_balanced hinner _,
      Token.allClosed_of_balanced hinner⟩

/-- A closer that a nest refuses cannot stand where it does, whatever follows. -/
theorem not_completable {ts : List Token} {n : Nest} {t : Token} {d : Delimiter} {e : Error}
    (h : LeftOpen ts n.pending) (ht : t.kind = .terminal (.closing d))
    (he : n.leave d t.position = .error e) : ¬ Completable (brackets (ts ++ [t])) := by
  intro hc
  apply hc.unclosed_ne_none
  rw [Token.brackets_append, Token.brackets_cons_closing ht, unclosed_append, h.unclosed_eq]
  rcases Nest.leave_eq_error he with ⟨hnone, -⟩ | ⟨c, outer, hsome, different, -⟩
  · rw [hnone]
    rfl
  · rw [hsome]
    simp [unclosed, different]

/-- A closer that a nest refuses is the first fault of the tokens it stands among. -/
theorem firstFault {before after : List Token} {n : Nest} {t : Token} {d : Delimiter} {e : Error}
    (h : LeftOpen before n.pending) (ht : t.kind = .terminal (.closing d))
    (he : n.leave d t.position = .error e) : FirstFault (before ++ t :: after) before t where
  begins := ⟨after, by simp⟩
  completable := by
    rintro v ⟨w, rfl⟩
    have hall := h.completable
    rw [Token.brackets_append] at hall
    exact hall.of_append
  not_completable := h.not_completable ht he

end LeftOpen

/-! ## Whole runs -/

/-- How a nest that has taken the tokens `taken` meets the tokens `ts`: all of them are taken, or a
closer is refused. -/
inductive Nest.Meets (n : Nest) (taken ts : List Token) : Prop
  | all {next : Nest} (h : n.Takes ts next) (hopen : LeftOpen (taken ++ ts) next.pending)
  | refused {before after : List Token} {t : Token} {d : Delimiter} {next : Nest} {e : Error}
      (hts : ts = before ++ t :: after) (ht : t.kind = .terminal (.closing d))
      (h : n.Takes before next) (hopen : LeftOpen (taken ++ before) next.pending)
      (he : next.leave d t.position = .error e)

theorem Nest.Meets.cons {n next : Nest} {taken ts : List Token} {t : Token}
    (hfirst : n.Takes [t] next) (h : next.Meets (taken ++ [t]) ts) : n.Meets taken (t :: ts) := by
  cases h with
  | all h hopen =>
    rw [List.append_assoc, List.singleton_append] at hopen
    exact .all (hfirst.trans h) hopen
  | refused hts ht h hopen he =>
    rw [List.append_assoc, List.singleton_append] at hopen
    exact .refused (congrArg _ hts) ht (hfirst.trans h) hopen he

theorem Nest.meets {taken : List Token} {n : Nest} (hopen : LeftOpen taken n.pending)
    {ts : List Token} (hts : ∀ t ∈ ts, t.kind ≠ .eof) : n.Meets taken ts := by
  induction ts generalizing taken n with
  | nil =>
    rw [← List.append_nil taken] at hopen
    exact .all (.refl n) hopen
  | cons t ts ih =>
    have hrest : ∀ u ∈ ts, u.kind ≠ .eof := fun u hu => hts u (List.mem_cons_of_mem t hu)
    cases ht : t.kind with
    | eof => exact absurd ht (hts t List.mem_cons_self)
    | terminal u =>
      cases hn : n.take t.position u with
      | ok next => exact (ih (hopen.take ht hn) hrest).cons (takes_terminal ht hn)
      | error e =>
        cases u with
        | atom a => cases hn
        | opening d => cases hn
        | closing d =>
          rw [← List.append_nil taken] at hopen
          exact .refused rfl ht (.refl n) hopen hn

/-- A closer refused behind tokens that are taken ends the run, and what follows it is left. -/
theorem Nest.Takes.run_refused {n next : Nest} {ts before after : List Token} {t : Token}
    {d : Delimiter} {e : Error} (h : n.Takes before next) (ht : t.kind = .terminal (.closing d))
    (he : next.leave d t.position = .error e) (hts : beforeEnd ts = before ++ t :: after) :
    ∃ rest, ts = before ++ t :: rest ∧ n.run ts = (.error e, rest) := by
  obtain ⟨more, hmore⟩ : beforeEnd ts <+: ts := List.takeWhile_prefix _
  rw [hts, List.append_assoc, List.cons_append] at hmore
  refine ⟨after ++ more, hmore.symm, ?_⟩
  rw [← hmore, h, run_terminal next ht, take, he]

/-- How a run over tokens `ts` ends that go on behind the tokens `taken`: all of them are taken, or
a closer is refused. -/
inductive RunEnds (taken ts : List Token) (r : Except Error (List Form)) : Prop
  | finished {n : Nest} (h : LeftOpen (taken ++ ts) n.pending) (hr : r = n.finish)
  | refused {before after : List Token} {t : Token} {d : Delimiter} {n : Nest} {e : Error}
      (hts : ts = before ++ t :: after) (ht : t.kind = .terminal (.closing d))
      (h : LeftOpen (taken ++ before) n.pending) (he : n.leave d t.position = .error e)
      (hr : r = .error e)

theorem Nest.run_ends {taken : List Token} {n : Nest} (h : LeftOpen taken n.pending)
    (ts : List Token) : RunEnds taken (beforeEnd ts) (n.run ts).1 := by
  cases meets h (Token.kind_ne_eof_of_mem_beforeEnd ts) with
  | all htakes hopen => exact .finished hopen (by rw [htakes.run_eq])
  | refused hts ht htakes hopen he =>
    obtain ⟨rest, -, hrun⟩ := htakes.run_refused ht he hts
    exact .refused hts ht hopen he (by rw [hrun])

/-! ## Outcomes of a parse -/

/-- What a parse of the tokens `ts`, which hold no end mark, has to yield. -/
inductive Outcome (ts : List Token) : Except Error (List Form) → Prop
  | nested {fs : List Form} (h : Balanced (brackets ts)) : Outcome ts (.ok fs)
  | unclosed {d : Delimiter} {p : Position} (hc : Completable (brackets ts))
      (hb : ¬ Balanced (brackets ts)) (hl : LastUnclosed ts d p) :
      Outcome ts (.error ⟨.unclosedDelimiter d, p⟩)
  | stray {before : List Token} {closer : Token} {d : Delimiter}
      (hf : FirstFault ts before closer) (hk : closer.kind = .terminal (.closing d))
      (ha : AllClosed before) : Outcome ts (.error ⟨.invalidCharacter d.closing, closer.position⟩)
  | mismatched {before : List Token} {closer : Token} {expected found : Delimiter} {p : Position}
      (hf : FirstFault ts before closer) (hk : closer.kind = .terminal (.closing found))
      (hl : LastUnclosed before expected p) (hne : expected ≠ found) :
      Outcome ts (.error ⟨.mismatchedDelimiter expected found, closer.position⟩)

namespace Form

theorem parse_outcome (ts : List Token) : Outcome (beforeEnd ts) (parse ts).1 := by
  have hends : RunEnds [] (beforeEnd ts) (parse ts).1 := Nest.run_ends .nil ts
  cases hends with
  | @finished n h hr =>
    obtain ⟨done, pending⟩ := n
    rw [hr]
    cases pending with
    | nil => exact .nested h.balanced_of_nil
    | cons c outer => exact .unclosed h.completable h.not_balanced h.lastUnclosed
  | @refused before after closer d n e hts ht h he hr =>
    have hfault : FirstFault (beforeEnd ts) before closer := by
      rw [hts]
      exact h.firstFault ht he
    rw [hr]
    rcases Nest.leave_eq_error he with ⟨hnone, rfl⟩ | ⟨c, outer, hsome, different, rfl⟩
    · rw [hnone] at h
      exact .stray hfault ht (Token.allClosed_of_balanced h.balanced_of_nil)
    · rw [hsome] at h
      exact .mismatched hfault ht h.lastUnclosed different

end Form

namespace Token.FirstFault

variable {ts before : List Token} {closer : Token}

/-- A fault among tokens is a fault of the whole row. -/
theorem not_completable_row (h : FirstFault ts before closer) : ¬ Completable (brackets ts) := by
  intro hall
  obtain ⟨after, rfl⟩ := h.begins
  rw [brackets_append] at hall
  exact h.not_completable hall.of_append

theorem not_balanced (h : FirstFault ts before closer) : ¬ Balanced (brackets ts) :=
  fun hb => h.not_completable_row hb.completable

end Token.FirstFault

namespace Form

/-- A parse fails exactly if the delimiters before the end mark are not balanced, and then at the
leftmost violation.  If some beginning of the tokens cannot be completed, it is the closer that ends
the shortest such beginning: a stray one if everything before it is closed, else one that does not
match the innermost opener still open.  Otherwise only closers are missing, and the error is about
the last opener that has none. -/
theorem parse_fault_leftmost (ts : List Token) :
    ((∃ e, (parse ts).1 = .error e) ↔ ¬ Balanced (brackets (beforeEnd ts))) ∧
      ((∃ v, v <+: beforeEnd ts ∧ ¬ Completable (brackets v)) →
        ∃ before closer d, FirstFault (beforeEnd ts) before closer ∧
          closer.kind = .terminal (.closing d) ∧
          (AllClosed before →
            (parse ts).1 = .error ⟨.invalidCharacter d.closing, closer.position⟩) ∧
          (¬ AllClosed before → ∃ expected p, LastUnclosed before expected p ∧ expected ≠ d ∧
            (parse ts).1 = .error ⟨.mismatchedDelimiter expected d, closer.position⟩)) ∧
      ((∀ v, v <+: beforeEnd ts → Completable (brackets v)) →
        ¬ Balanced (brackets (beforeEnd ts)) →
          ∃ d p, LastUnclosed (beforeEnd ts) d p ∧
            (parse ts).1 = .error ⟨.unclosedDelimiter d, p⟩) := by
  have hout := parse_outcome ts
  generalize (parse ts).1 = r at hout ⊢
  cases hout with
  | nested hb =>
    refine ⟨?_, ?_, ?_⟩
    · simp [hb]
    · rintro ⟨v, ⟨w, hw⟩, hv⟩
      have hall := hb.completable
      rw [← hw, Token.brackets_append] at hall
      exact absurd hall.of_append hv
    · exact fun _ hnot => absurd hb hnot
  | @unclosed d p hc hb hl =>
    refine ⟨?_, ?_, ?_⟩
    · simp [hb]
    · rintro ⟨v, ⟨w, hw⟩, hv⟩
      rw [← hw, Token.brackets_append] at hc
      exact absurd hc.of_append hv
    · exact fun _ _ => ⟨d, p, hl, rfl⟩
  | @stray before closer d hf hk ha =>
    refine ⟨?_, ?_, ?_⟩
    · simp [hf.not_balanced]
    · intro _
      exact ⟨before, closer, d, hf, hk, fun _ => rfl, fun hnot => absurd ha hnot⟩
    · exact fun hall => absurd (hall _ hf.begins) hf.not_completable
  | @mismatched before closer expected d p hf hk hl hne =>
    refine ⟨?_, ?_, ?_⟩
    · simp [hf.not_balanced]
    · intro _
      refine ⟨before, closer, d, hf, hk, ?_, ?_⟩
      · exact fun ha => absurd ha hl.not_allClosed
      · exact fun _ => ⟨expected, p, hl, hne, rfl⟩
    · exact fun hall => absurd (hall _ hf.begins) hf.not_completable

theorem parse_fault_leftmost_crossed :
    ∃ ts : List Token,
      brackets (beforeEnd ts) = [.opening .paren, .opening .bracket, .closing .paren] ∧
      ¬ Completable (brackets (beforeEnd ts)) ∧
      (parse ts).1 = .error ⟨.mismatchedDelimiter .bracket .paren, ⟨2, 1, 3⟩⟩ ∧
      ∃ before closer d, FirstFault (beforeEnd ts) before closer ∧
        closer.kind = .terminal (.closing d) := by
  let ts : List Token :=
    [⟨.terminal (.opening .paren), "(", ⟨0, 1, 1⟩⟩, ⟨.terminal (.opening .bracket), "[", ⟨1, 1, 2⟩⟩,
      ⟨.terminal (.closing .paren), ")", ⟨2, 1, 3⟩⟩, ⟨.eof, "", ⟨3, 1, 4⟩⟩]
  have hopen : ¬ Completable (brackets (beforeEnd ts)) := fun h => h.unclosed_ne_none rfl
  obtain ⟨before, closer, d, hfault, hkind, -, -⟩ :=
    (parse_fault_leftmost ts).2.1 ⟨beforeEnd ts, List.prefix_refl _, hopen⟩
  exact ⟨ts, rfl, hopen, rfl, before, closer, d, hfault, hkind⟩

end Form

end Sexp
