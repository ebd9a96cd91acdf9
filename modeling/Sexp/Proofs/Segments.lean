import Sexp.Proofs.Completion

/-! # One parse after the other

A parse takes tokens up to an end mark or to a closer at fault, and a further parse goes on behind
them.  `ParseLeaves` says for every outcome what is left.

The functions:

* `Form.remaining` — the tokens left behind a number of parses;
* `Form.parsed` — what the parse behind those yields;
* `Form.taken` — the tokens a single parse takes.

Since each parse only takes tokens from the front, a row that ends with an end mark is parsed as if
nothing followed (`parse_segment`), and one more end mark behind all tokens changes no outcome
(`Nest.run_concat_mark`).
-/

namespace Sexp

open Token (beforeEnd behindEnd FirstFault)

namespace Nest

/-- Tokens added behind others are not reached, or the others are all taken. -/
theorem run_append (n : Nest) (ts more : List Token) :
    n.run (ts ++ more) = ((n.run ts).1, (n.run ts).2 ++ more) ∨
      (∀ t ∈ ts, t.kind ≠ .eof) ∧ ∃ next, n.Takes ts next := by
  induction ts generalizing n with
  | nil => exact .inr ⟨by simp, n, .refl n⟩
  | cons t ts ih =>
    cases ht : t.kind with
    | eof =>
      rw [List.cons_append, run_eof n ht, run_eof n ht]
      exact .inl rfl
    | terminal u =>
      cases hn : n.take t.position u with
      | error e =>
        rw [List.cons_append, run_terminal n ht, run_terminal n ht, hn]
        exact .inl rfl
      | ok next =>
        rcases ih next with hstops | ⟨hkinds, last, htakes⟩
        · rw [List.cons_append, run_terminal n ht, run_terminal n ht, hn]
          exact .inl hstops
        · refine .inr ⟨?_, last, (takes_terminal ht hn).trans htakes⟩
          simpa [ht] using hkinds

/-- One more end mark behind all tokens changes no outcome.  It is left with the other tokens, or it
ends the run that all of them are taken by. -/
theorem run_concat_mark (n : Nest) (ts : List Token) {e : Token} (he : e.kind = .eof) :
    n.run (ts ++ [e]) = ((n.run ts).1, (n.run ts).2 ++ [e]) ∨
      n.run (ts ++ [e]) = ((n.run ts).1, []) ∧ (n.run ts).2 = [] := by
  rcases n.run_append ts [e] with hstops | ⟨-, next, htakes⟩
  · exact .inl hstops
  · have hended : n.run ts = (next.finish, []) := by
      rw [← List.append_nil ts, htakes]
      rfl
    rw [htakes, run_eof next he, hended]
    exact .inr ⟨rfl, rfl⟩

end Nest

/-! ## What a parse leaves -/

/-- What a parse of the tokens `ts` leaves, by its outcome: the tokens behind the first end mark, or
those behind the closer it is about. -/
inductive ParseLeaves (ts : List Token) : Except Error (List Form) → List Token → Prop
  | nested (fs : List Form) : ParseLeaves ts (.ok fs) (behindEnd ts)
  | unclosed (d : Delimiter) (p : Position) :
      ParseLeaves ts (.error ⟨.unclosedDelimiter d, p⟩) (behindEnd ts)
  | stray {before after : List Token} {closer : Token} {d : Delimiter}
      (hts : ts = before ++ closer :: after) (hf : FirstFault (beforeEnd ts) before closer)
      (hk : closer.kind = .terminal (.closing d)) :
      ParseLeaves ts (.error ⟨.invalidCharacter d.closing, closer.position⟩) after
  | mismatched {before after : List Token} {closer : Token} {expected found : Delimiter}
      (hts : ts = before ++ closer :: after) (hf : FirstFault (beforeEnd ts) before closer)
      (hk : closer.kind = .terminal (.closing found)) (hne : expected ≠ found) :
      ParseLeaves ts (.error ⟨.mismatchedDelimiter expected found, closer.position⟩) after

namespace ParseLeaves

variable {ts rest : List Token} {r : Except Error (List Form)}

theorem suffix (h : ParseLeaves ts r rest) : rest <:+ ts := by
  have hend : behindEnd ts <:+ ts := (List.drop_suffix 1 _).trans (List.dropWhile_suffix _)
  cases h with
  | nested | unclosed => exact hend
  | @stray before _ closer _ hts | @mismatched before _ closer _ _ hts =>
    exact ⟨before ++ [closer], by simp [hts]⟩

theorem length_lt (h : ParseLeaves ts r rest) (hne : ts ≠ []) : rest.length < ts.length := by
  have hend : (behindEnd ts).length < ts.length := by
    have hpos := List.length_pos_iff.mpr hne
    have hle : (ts.dropWhile (·.kind ≠ .eof)).length ≤ ts.length :=
      (List.dropWhile_suffix _).length_le
    rw [behindEnd, List.length_drop]
    omega
  cases h with
  | nested | unclosed => exact hend
  | stray hts | mismatched hts =>
    rw [hts, List.length_append, List.length_cons]
    omega

theorem eq_behindEnd (h : ParseLeaves ts r rest)
    (hr : (∃ fs, r = .ok fs) ∨ ∃ d p, r = .error ⟨.unclosedDelimiter d, p⟩) :
    rest = behindEnd ts := by
  cases h with
  | nested | unclosed => rfl
  | stray | mismatched => simp at hr

end ParseLeaves

namespace Form

theorem parse_leaves (ts : List Token) : ParseLeaves ts (parse ts).1 (parse ts).2 := by
  have hmeets : Nest.Meets {} [] (beforeEnd ts) :=
    Nest.meets .nil (Token.kind_ne_eof_of_mem_beforeEnd ts)
  cases hmeets with
  | @all next htakes =>
    rw [parse, htakes.run_eq]
    obtain ⟨done, pending⟩ := next
    cases pending with
    | nil => exact .nested done.reverse
    | cons c outer => exact .unclosed c.delimiter c.position
  | @refused before after closer d next e hts hk htakes hopen he =>
    obtain ⟨rest, hall, hrun⟩ := htakes.run_refused hk he hts
    have hfault : FirstFault (beforeEnd ts) before closer := by
      rw [hts]
      exact hopen.firstFault hk he
    rw [parse, hrun]
    rcases Nest.leave_eq_error he with ⟨-, rfl⟩ | ⟨c, outer, -, hne, rfl⟩
    · exact .stray hall hfault hk
    · exact .mismatched hall hfault hk hne

/-! ## Parse behind parse -/

/-- The tokens left behind `n` parses, each of which goes on where the one before it stopped. -/
def remaining (ts : List Token) : Nat → List Token
  | 0 => ts
  | n + 1 => (parse (remaining ts n)).2

/-- What the parse behind `n` others yields. -/
def parsed (ts : List Token) (n : Nat) : Except Error (List Form) :=
  (parse (remaining ts n)).1

/-- The tokens that a parse takes. -/
def taken (ts : List Token) : List Token :=
  ts.take (ts.length - (parse ts).2.length)

theorem taken_append_rest (ts : List Token) : taken ts ++ (parse ts).2 = ts := by
  have hrest : (parse ts).2 = ts.drop (ts.length - (parse ts).2.length) :=
    List.suffix_iff_eq_drop.mp (parse_leaves ts).suffix
  calc taken ts ++ (parse ts).2
      = taken ts ++ ts.drop (ts.length - (parse ts).2.length) := congrArg _ hrest
    _ = ts := List.take_append_drop _ ts

theorem length_rest_lt {ts : List Token} (h : ts ≠ []) : (parse ts).2.length < ts.length :=
  (parse_leaves ts).length_lt h

/-- The first of several parses may be made apart from the others. -/
theorem remaining_succ (ts : List Token) (n : Nat) :
    remaining ts (n + 1) = remaining (parse ts).2 n := by
  induction n with
  | zero => rfl
  | succ n ih => exact congrArg (fun us => (parse us).2) ih

theorem parsed_succ (ts : List Token) (n : Nat) : parsed ts (n + 1) = parsed (parse ts).2 n :=
  congrArg (fun us => (parse us).1) (remaining_succ ts n)

theorem flatMap_taken (ts : List Token) (n : Nat) :
    ((List.range n).flatMap fun i => taken (remaining ts i)) ++ remaining ts n = ts := by
  induction n with
  | zero => rfl
  | succ n ih =>
    rw [List.range_succ, List.flatMap_append, List.flatMap_singleton, List.append_assoc, remaining,
      taken_append_rest, ih]

theorem length_remaining_le (ts : List Token) (n : Nat) :
    (remaining ts n).length ≤ ts.length - n := by
  induction n with
  | zero => exact Nat.le_refl _
  | succ n ih =>
    by_cases hempty : remaining ts n = []
    · rw [remaining, hempty]
      exact Nat.zero_le _
    · have hlt : (remaining ts (n + 1)).length < (remaining ts n).length := length_rest_lt hempty
      omega

theorem remaining_of_exhausted {ts : List Token} {n m : Nat} (h : remaining ts n = [])
    (hle : n ≤ m) : remaining ts m = [] := by
  induction hle with
  | refl => exact h
  | step _ ih =>
    rw [remaining, ih]
    rfl

/-! ## Segments -/

/-- The tokens of a source are parsed as the source is read, whatever follows its end mark. -/
theorem parse_segment {source : String} {us : List Token} (hscan : Token.scan source = .ok us)
    (hread : (∃ fs, read source = .ok fs) ∨
      ∃ d p, read source = .error ⟨.unclosedDelimiter d, p⟩) (more : List Token) :
    parse (us ++ more) = (read source, more) := by
  obtain ⟨ts, s, hreach, hend | ⟨e, next, hfail⟩⟩ := (Scan.ofSource source).run_cases
  · have hus : us = ts ++ [Token.atEnd s.position] :=
      Except.ok.inj (hscan.symm.trans (hreach.scan_of_end hend))
    have hlast : Token.atEnd s.position ∈ us := by simp [hus]
    have hbehind : behindEnd us = [] := by
      rw [hus]
      exact hreach.behindEnd_mark s.position
    have hresult : (parse us).1 = read source := (read_of_scan_ok hscan).symm
    have hrest : (parse us).2 = [] := by
      rw [← hresult] at hread
      exact ((parse_leaves us).eq_behindEnd hread).trans hbehind
    rcases Nest.run_append {} us more with hstops | ⟨hnone, -⟩
    · rw [parse, hstops, ← parse, hresult, hrest, List.nil_append]
    · exact absurd rfl (hnone _ hlast)
  · rw [hreach.scan_of_failed hfail] at hscan
    cases hscan

theorem parsed_segments {sources : List String} {scans : List (List Token)}
    (hscans : sources.map Token.scan = scans.map .ok)
    (hread : ∀ source ∈ sources, (∃ fs, read source = .ok fs) ∨
      ∃ d p, read source = .error ⟨.unclosedDelimiter d, p⟩)
    {i : Nat} {source : String} (hi : sources[i]? = some source) :
    parsed scans.flatten i = read source := by
  induction sources generalizing scans i with
  | nil => cases hi
  | cons first sources ih =>
    cases scans with
    | nil => cases hscans
    | cons us scans =>
      obtain ⟨hfirst, hothers⟩ := List.cons.inj hscans
      have hparse : parse (us ++ scans.flatten) = (read first, scans.flatten) :=
        parse_segment hfirst (hread first List.mem_cons_self) _
      rw [List.flatten_cons]
      cases i with
      | zero =>
        cases hi
        exact congrArg Prod.fst hparse
      | succ i =>
        rw [parsed_succ, hparse]
        exact ih hothers (fun s hs => hread s (List.mem_cons_of_mem first hs)) hi

/-! ## One more end mark -/

theorem remaining_concat_mark (ts : List Token) {e : Token} (he : e.kind = .eof) (n : Nat) :
    remaining (ts ++ [e]) n = remaining ts n ++ [e] ∨
      remaining ts n = [] ∧ remaining (ts ++ [e]) n = [] := by
  induction n with
  | zero => exact .inl rfl
  | succ n ih =>
    rw [remaining, remaining]
    rcases ih with hleft | ⟨hnone, hnone'⟩
    · rw [hleft, parse, parse]
      rcases Nest.run_concat_mark {} (remaining ts n) he with hmore | ⟨hmore, hempty⟩
      · exact .inl (congrArg Prod.snd hmore)
      · exact .inr ⟨hempty, congrArg Prod.snd hmore⟩
    · rw [hnone, hnone']
      exact .inr ⟨rfl, rfl⟩

theorem parsed_concat_mark (ts : List Token) {e : Token} (he : e.kind = .eof) (n : Nat) :
    parsed (ts ++ [e]) n = parsed ts n := by
  rw [parsed, parsed]
  rcases remaining_concat_mark ts he n with hleft | ⟨hnone, hnone'⟩
  · rw [hleft, parse, parse]
    rcases Nest.run_concat_mark {} (remaining ts n) he with hmore | ⟨hmore, -⟩
    · rw [hmore]
    · rw [hmore]
  · rw [hnone, hnone']

/-! ## All parses over a row of tokens -/

/-- Parses that follow each other share out the tokens: each takes some from the front and leaves
what its outcome says, until none are left and every further one yields no forms.  The tokens of
sources that lack nothing but closers are parsed source by source, and one more end mark behind all
tokens changes nothing. -/
theorem parses_keep_apart (ts : List Token) :
    (∀ n, ParseLeaves (remaining ts n) (parsed ts n) (remaining ts (n + 1)) ∧
      (remaining ts n ≠ [] → (remaining ts (n + 1)).length < (remaining ts n).length) ∧
      ((List.range n).flatMap fun i => taken (remaining ts i)) ++ remaining ts n = ts ∧
      (remaining ts n = [] → ∀ m, n ≤ m → parsed ts m = .ok [])) ∧
    remaining ts ts.length = [] ∧
    (∀ (sources : List String) (scans : List (List Token)),
      sources.map Token.scan = scans.map .ok →
      (∀ source ∈ sources, (∃ fs, read source = .ok fs) ∨
        ∃ d p, read source = .error ⟨.unclosedDelimiter d, p⟩) →
      ∀ (i : Nat) (source : String), sources[i]? = some source →
        parsed scans.flatten i = read source) ∧
    ∀ e : Token, e.kind = .eof → ∀ n, parsed (ts ++ [e]) n = parsed ts n := by
  refine ⟨?_, ?_, ?_, ?_⟩
  · intro n
    refine ⟨parse_leaves _, length_rest_lt, flatMap_taken ts n, ?_⟩
    intro hempty m hle
    rw [parsed, remaining_of_exhausted hempty hle]
    rfl
  · have hle := length_remaining_le ts ts.length
    rw [Nat.sub_self] at hle
    exact List.eq_nil_of_length_eq_zero (Nat.le_zero.mp hle)
  · intro sources scans hscans hread i source hi
    exact parsed_segments hscans hread hi
  · intro e he n
    exact parsed_concat_mark ts he n

/-- A source that lacks a closer and one behind it that does not, then a row with a stray closer
between its end marks. -/
theorem parses_keep_apart_unclosed_first :
    (∃ scans : List (List Token), ["[1", "x y"].map Token.scan = scans.map .ok ∧
      parsed scans.flatten 0 = .error ⟨.unclosedDelimiter .bracket, ⟨0, 1, 1⟩⟩ ∧
      parsed scans.flatten 1 = .ok [.atom (.symbol "x"), .atom (.symbol "y")]) ∧
    ∃ ts, ts.length = 3 ∧ (remaining ts 1).length = 2 ∧ (remaining ts 2).length < 2 ∧
      parsed ts 1 = .error ⟨.invalidCharacter ')', ⟨1, 1, 2⟩⟩ ∧
      parsed (ts ++ [Token.atEnd ⟨2, 1, 3⟩]) 1 = parsed ts 1 ∧ parsed ts 5 = .ok [] := by
  let ts : List Token :=
    [Token.atEnd ⟨0, 1, 1⟩, ⟨.terminal (.closing .paren), ")", ⟨1, 1, 2⟩⟩, Token.atEnd ⟨2, 1, 3⟩]
  obtain ⟨hcalls, hend, hsegments, hmark⟩ := parses_keep_apart ts
  refine ⟨?_, ts, rfl, rfl, ?_, rfl, hmark _ rfl 1, ?_⟩
  · have hopen : read "[1" = .error ⟨.unclosedDelimiter .bracket, ⟨0, 1, 1⟩⟩ := by cbv
    have hforms : read "x y" = .ok [.atom (.symbol "x"), .atom (.symbol "y")] := by cbv
    obtain ⟨first, hfirst⟩ : ∃ us, Token.scan "[1" = .ok us := ⟨_, by cbv⟩
    obtain ⟨second, hsecond⟩ : ∃ us, Token.scan "x y" = .ok us := ⟨_, by cbv⟩
    have hscans : ["[1", "x y"].map Token.scan = [first, second].map .ok := by
      simp [hfirst, hsecond]
    have hread : ∀ source ∈ ["[1", "x y"], (∃ fs, read source = .ok fs) ∨
        ∃ d p, read source = .error ⟨.unclosedDelimiter d, p⟩ := by
      intro source hsource
      rcases List.mem_pair.mp hsource with rfl | rfl
      · exact .inr ⟨_, _, hopen⟩
      · exact .inl ⟨_, hforms⟩
    refine ⟨[first, second], hscans, ?_, ?_⟩
    · rw [hsegments _ _ hscans hread 0 "[1" rfl, hopen]
    · rw [hsegments _ _ hscans hread 1 "x y" rfl, hforms]
  · have hleft : remaining ts 1 ≠ [] := List.cons_ne_nil _ _
    exact (hcalls 1).2.1 hleft
  · exact (hcalls 3).2.2.2 hend 5 (by omega)

end Form

end Sexp
