import Sexp.Form.Balance
import Sexp.Form.Nest

/-! # Nesting undoes writing out

`Form.terminals` writes a form out as a row of terminals; `Form.parse` nests a row of tokens into
forms.  Each undoes the other, whatever the lexemes and positions of the tokens are.

The functions:

* `Nest.take` — what one terminal does to a nest, the step that `Nest.run` repeats;
* `Nest.Takes` — tokens that lead from one nest to another, whatever follows them;
* `Nest.terminals` — everything a nest holds, written out again;
* `Nest.addAll` — a row of completed forms added one after the other.

Soundness rests on `terminals_take`: a nest that has taken a terminal holds what it held before and
that terminal behind it, so nothing is lost or moved.  Completeness rests on `run_form`: from every
nest, the tokens of a form lead to the nest with that form added, however many collections are open
around it. -/

namespace Sexp

/-- The terminals of a collection that is still open. -/
def OpenCollection.terminals (c : OpenCollection) : List Terminal :=
  .opening c.delimiter :: c.elements.reverse.flatMap Form.terminals

namespace Nest

/-! ## One terminal at a time -/

/-- What a terminal at a position does to a nest. -/
def take (n : Nest) (p : Position) : Terminal → Except Error Nest
  | .atom a => .ok (n.add (.atom a))
  | .opening d => .ok (n.enter d p)
  | .closing d => n.leave d p

theorem run_eof (n : Nest) {t : Token} (ht : t.kind = .eof) (ts : List Token) :
    n.run (t :: ts) = (n.finish, ts) := by
  simp only [run, ht]

/-- A terminal is taken, and the run goes on with the tokens behind it unless that fails. -/
theorem run_terminal (n : Nest) {t : Token} {u : Terminal} (ht : t.kind = .terminal u)
    (ts : List Token) :
    n.run (t :: ts) =
      match n.take t.position u with
      | .error e => (.error e, ts)
      | .ok next => next.run ts := by
  cases u with
  | atom a => simp only [run, ht, take]
  | opening d => simp only [run, ht, take]
  | closing d => cases hl : n.leave d t.position <;> simp only [run, ht, take, hl]

/-- Tokens lead from one nest to another, whatever follows them. -/
def Takes (n : Nest) (ts : List Token) (next : Nest) : Prop :=
  ∀ more, n.run (ts ++ more) = next.run more

theorem Takes.refl (n : Nest) : n.Takes [] n :=
  fun _ => rfl

theorem Takes.trans {n next last : Nest} {ts us : List Token} (h : n.Takes ts next)
    (h' : next.Takes us last) : n.Takes (ts ++ us) last := by
  intro more
  rw [List.append_assoc, h, h']

theorem takes_terminal {n next : Nest} {t : Token} {u : Terminal} (ht : t.kind = .terminal u)
    (hn : n.take t.position u = .ok next) : n.Takes [t] next := by
  intro more
  rw [List.singleton_append, run_terminal n ht, hn]

theorem leave_eq_error {n : Nest} {d : Delimiter} {p : Position} {e : Error}
    (h : n.leave d p = .error e) :
    n.pending = [] ∧ e = ⟨.invalidCharacter d.closing, p⟩ ∨
      ∃ c outer, n.pending = c :: outer ∧ c.delimiter ≠ d ∧
        e = ⟨.mismatchedDelimiter c.delimiter d, p⟩ := by
  obtain ⟨done, pending⟩ := n
  cases pending with
  | nil =>
    cases h
    exact .inl ⟨rfl, rfl⟩
  | cons c outer =>
    simp only [leave] at h
    split at h
    next => cases h
    next different =>
      cases h
      exact .inr ⟨c, outer, rfl, different, rfl⟩

/-- The end of the row and an end mark both finish the nest. -/
theorem run_from_eof (n : Nest) (ts : List Token) :
    n.run (ts.dropWhile (·.kind ≠ .eof)) = (n.finish, Token.behindEnd ts) := by
  induction ts with
  | nil => rfl
  | cons t ts ih =>
    by_cases ht : t.kind = .eof
    · simp [Token.behindEnd, ht, run_eof n ht]
    · simpa [Token.behindEnd, ht] using ih

/-- Tokens before the first end mark that are all taken make up the whole outcome. -/
theorem Takes.run_eq {n next : Nest} {ts : List Token} (h : n.Takes (Token.beforeEnd ts) next) :
    n.run ts = (next.finish, Token.behindEnd ts) := by
  have hcut : Token.beforeEnd ts ++ ts.dropWhile (·.kind ≠ .eof) = ts :=
    List.takeWhile_append_dropWhile
  rw [← next.run_from_eof ts, ← h, hcut]

/-! ## Soundness: a nest holds the terminals it has taken -/

/-- The terminals of everything a nest holds, in the order in which they were taken. -/
def terminals (n : Nest) : List Terminal :=
  n.done.reverse.flatMap Form.terminals ++ n.pending.reverse.flatMap OpenCollection.terminals

theorem terminals_add (n : Nest) (f : Form) : (n.add f).terminals = n.terminals ++ f.terminals := by
  obtain ⟨done, pending⟩ := n
  cases pending with
  | nil => simp [add, terminals]
  | cons c outer => simp [add, terminals, OpenCollection.terminals]

theorem terminals_enter (n : Nest) (d : Delimiter) (p : Position) :
    (n.enter d p).terminals = n.terminals ++ [.opening d] := by
  simp [enter, terminals, OpenCollection.terminals]

theorem terminals_leave {n next : Nest} {d : Delimiter} {p : Position}
    (h : n.leave d p = .ok next) : next.terminals = n.terminals ++ [.closing d] := by
  obtain ⟨done, pending⟩ := n
  cases pending with
  | nil => simp [leave] at h
  | cons c outer =>
    simp only [leave] at h
    split at h
    next same =>
      cases h
      subst same
      rw [terminals_add]
      simp [terminals, OpenCollection.terminals, Form.terminals]
    next => cases h

/-- A terminal that was taken stands behind all that was taken before. -/
theorem terminals_take {n next : Nest} {p : Position} {u : Terminal}
    (h : n.take p u = .ok next) : next.terminals = n.terminals ++ [u] := by
  cases u with
  | atom a =>
    cases h
    rw [terminals_add]
    simp [Form.terminals]
  | opening d =>
    cases h
    exact terminals_enter n d p
  | closing d => exact terminals_leave h

theorem terminals_of_finish {n : Nest} {fs : List Form} (h : n.finish = .ok fs) :
    fs.flatMap Form.terminals = n.terminals := by
  obtain ⟨done, pending⟩ := n
  cases pending with
  | nil =>
    cases h
    simp [terminals]
  | cons c outer => cases h

/-- The forms of a run that succeeds are what the nest held and the tokens up to the end mark. -/
theorem kinds_of_run {n : Nest} {ts : List Token} {fs : List Form} (h : (n.run ts).1 = .ok fs) :
    (fs.flatMap Form.terminals).map Token.Kind.terminal =
      n.terminals.map .terminal ++ (Token.beforeEnd ts).map Token.kind := by
  induction ts generalizing n with
  | nil => simp [Token.beforeEnd, terminals_of_finish h]
  | cons t ts ih =>
    cases ht : t.kind with
    | eof =>
      -- the tokens behind the end mark play no part
      rw [run_eof n ht] at h
      simp [Token.beforeEnd, ht, terminals_of_finish h]
    | terminal u =>
      rw [run_terminal n ht] at h
      cases hn : n.take t.position u with
      | error e => simp [hn] at h
      | ok next =>
        simp only [hn] at h
        rw [ih h, terminals_take hn]
        simp [Token.beforeEnd, ht]

/-! ## Completeness: the tokens of a form rebuild it -/

/-- A nest with a row of completed forms added to it. -/
def addAll (n : Nest) (fs : List Form) : Nest :=
  fs.foldl (fun n f => n.add f) n

theorem addAll_pending (done : List Form) (c : OpenCollection) (outer : List OpenCollection)
    (fs : List Form) :
    addAll ⟨done, c :: outer⟩ fs =
      ⟨done, { c with elements := fs.reverse ++ c.elements } :: outer⟩ := by
  induction fs generalizing c with
  | nil => rfl
  | cons f fs ih =>
    change addAll ⟨done, { c with elements := f :: c.elements } :: outer⟩ fs = _
    rw [ih]
    simp

theorem addAll_done (done fs : List Form) : addAll ⟨done, []⟩ fs = ⟨fs.reverse ++ done, []⟩ := by
  induction fs generalizing done with
  | nil => rfl
  | cons f fs ih =>
    change addAll ⟨f :: done, []⟩ fs = _
    rw [ih]
    simp

/-- The elements of a collection, once its opening delimiter has been taken, and its closing
delimiter add up to the collection. -/
theorem leave_addAll_enter (n : Nest) (d : Delimiter) (p q : Position) (fs : List Form) :
    ((n.enter d p).addAll fs).leave d q = .ok (n.add (.collection d fs)) := by
  rw [enter, addAll_pending]
  simp [leave]

/-- The tokens of a form are nested to that form, wherever they stand. -/
def Rebuilds (f : Form) : Prop :=
  ∀ (n : Nest) (ts rest : List Token), ts.map Token.kind = f.terminals.map .terminal →
    n.run (ts ++ rest) = (n.add f).run rest

theorem run_forms {fs : List Form} (h : ∀ f ∈ fs, Rebuilds f) (n : Nest) (ts rest : List Token)
    (hts : ts.map Token.kind = (fs.flatMap Form.terminals).map .terminal) :
    n.run (ts ++ rest) = (n.addAll fs).run rest := by
  induction fs generalizing n ts with
  | nil =>
    have : ts = [] := by simpa using hts
    rw [this]
    rfl
  | cons f fs ih =>
    rw [List.flatMap_cons, List.map_append] at hts
    obtain ⟨first, others, rfl, hf, hfs⟩ := List.map_eq_append_iff.mp hts
    rw [List.append_assoc, h f (by simp) n first _ hf]
    exact ih (fun g hg => h g (by simp [hg])) (n.add f) others hfs

theorem run_form (f : Form) : Rebuilds f := by
  induction f with
  | atom a =>
    intro n ts rest hts
    -- an atom is a single token, and taking it is adding it
    obtain ⟨t, rfl, ht⟩ : ∃ t, ts = [t] ∧ t.kind = .terminal (.atom a) := by
      simpa [Form.terminals, List.map_eq_singleton_iff] using hts
    exact run_terminal n ht rest
  | collection d elements ih =>
    intro n ts rest hts
    -- an opening delimiter, the tokens of the elements, a closing delimiter
    rw [Form.terminals, List.map_append] at hts
    obtain ⟨front, back, rfl, hfront, hback⟩ := List.map_eq_append_iff.mp hts
    rw [List.map_cons, List.map_eq_cons_iff] at hfront
    obtain ⟨opener, inner, rfl, hopener, hinner⟩ := hfront
    obtain ⟨closer, rfl, hcloser⟩ : ∃ t, back = [t] ∧ t.kind = .terminal (.closing d) := by
      simpa [List.map_eq_singleton_iff] using hback
    rw [List.cons_append, List.cons_append, run_terminal n hopener]
    change run (n.enter d opener.position) _ = _
    rw [List.append_assoc, run_forms ih _ inner _ hinner, List.singleton_append,
      run_terminal _ hcloser]
    simp only [take, leave_addAll_enter]

theorem takes_forms (n : Nest) {ts : List Token} {fs : List Form}
    (h : ts.map Token.kind = (fs.flatMap Form.terminals).map .terminal) :
    n.Takes ts (n.addAll fs) :=
  fun more => run_forms (fun f _ => run_form f) n ts more h

end Nest

/-! ## Both directions -/

namespace Form

theorem kinds_of_parse {ts : List Token} {fs : List Form} (h : (parse ts).1 = .ok fs) :
    (Token.beforeEnd ts).map Token.kind = (fs.flatMap terminals).map .terminal := by
  simpa [Nest.terminals] using (Nest.kinds_of_run h).symm

theorem parse_of_kinds {ts : List Token} {fs : List Form}
    (h : (Token.beforeEnd ts).map Token.kind = (fs.flatMap terminals).map .terminal) :
    (parse ts).1 = .ok fs := by
  have htakes : Nest.Takes {} (Token.beforeEnd ts) (Nest.addAll {} fs) := Nest.takes_forms {} h
  rw [parse, htakes.run_eq, Nest.addAll_done]
  simp [Nest.finish]

/-- A row of tokens is nested into `fs` exactly if its tokens before the first end mark are `fs`
written out: no token is lost, doubled or moved, and nesting of any depth is rebuilt. -/
theorem parse_eq_ok_iff (ts : List Token) (fs : List Form) :
    (parse ts).1 = .ok fs ↔
      (Token.beforeEnd ts).map Token.kind = (fs.flatMap terminals).map .terminal :=
  ⟨kinds_of_parse, parse_of_kinds⟩

end Form

end Sexp
