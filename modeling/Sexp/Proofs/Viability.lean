import Mathlib.Order.Bounds.Basic
import Sexp.Proofs.Places

/-! # Where numbers break off

A number is read as long as what has been read can still begin one.  `Numeral.Viable` says so of a
text, and a numeral that breaks off does so behind the longest viable text that stands there
(`isGreatest_viable`), whatever garbage follows it.

`Numeral.BreaksOff` tells part by part what was read.  That this is viable is shown by a numeral
that has it at its front, and that nothing longer is by reading such a numeral: the fault depends on
one character behind what was read, and the numeral would have to have it there too.
-/

namespace Sexp

theorem IsDigits.isSymbolPart {s : String} (h : IsDigits s) : ∀ c ∈ s.toList, isSymbolPart c :=
  fun c hc => isSymbolPart_of_isDigit (h.2 c hc)

theorem isSymbolPart_signText (s : Option Sign) : ∀ c ∈ (signText s).toList, isSymbolPart c := by
  rcases s with _ | _ | _ <;> simp [signText, Sign.text, Sign.char] <;> decide

/-- What follows among the symbol characters is what follows, unless it is none of them. -/
theorem NumberShows.filter {reason : String} {last : Char} {next : Option Char}
    (h : NumberShows reason last next) : NumberShows reason last (next.filter isSymbolPart) := by
  have hnext : ∀ c ∈ next.filter isSymbolPart, c ∈ next :=
    fun c hc => (Option.filter_eq_some_iff.mp hc).1
  rcases h with ⟨hreason, hlast, hstop⟩ | ⟨hreason, hlast, hstop⟩ | ⟨c, hreason, hlast, rfl, hc⟩
  · exact .inl ⟨hreason, hlast, fun c hc => hstop c (hnext c hc)⟩
  · exact .inr (.inl ⟨hreason, hlast, fun c hc => hstop c (hnext c hc)⟩)
  · exact .inr (.inr ⟨c, hreason, hlast, Option.filter_eq_some_iff.mpr ⟨rfl, hc⟩, hc⟩)

namespace Numeral

/-- A digit stands at the front of the text, or a sign right before a digit. -/
def StartsIn (text : List Char) : Prop :=
  ∃ (s : Option Sign) (d : Char) (rest : List Char),
    d.isDigit ∧ text = (signText s).toList ++ d :: rest

/-- What stands at the front of some numeral. -/
def Viable (text : List Char) : Prop :=
  ∃ n : Numeral, n.WellFormed ∧ text <+: n.text.toList

theorem startsIn_iff {text : List Char} : StartsIn text ↔ Lexeme.beginsNumeral text := by
  constructor
  · rintro ⟨s, d, rest, hd, rfl⟩
    have hhead : ∀ c ∈ (d :: rest).head?, c.isDigit := by simpa using hd
    simp [Lexeme.beginsNumeral, Lexeme.sign_append s hhead, hd]
  · intro h
    obtain ⟨d, hhead, hd⟩ := (Option.any_eq_true _ _).mp h
    obtain ⟨rest, hrest⟩ := List.head?_eq_some_iff.mp hhead
    refine ⟨(Lexeme.sign text).value, d, rest, hd, ?_⟩
    rw [← Lexeme.text_sign, ← hrest, Lexeme.text_append_rest_sign]

theorem isSymbolPart_of_mem_text {n : Numeral} (h : n.WellFormed) :
    ∀ c ∈ n.text.toList, isSymbolPart c := by
  cases n with
  | integer s digits =>
    rw [Lexeme.toList_text_integer, List.forall_mem_append]
    exact ⟨isSymbolPart_signText s, IsDigits.isSymbolPart h⟩
  | decimal s whole digits e =>
    obtain ⟨hwhole, hdigits, he⟩ := h
    have hexponent : ∀ c ∈ (Lexeme.exponentText e).toList, isSymbolPart c := by
      cases e with
      | none => simp [Lexeme.exponentText]
      | some e =>
        rw [Lexeme.toList_exponentText, List.forall_mem_cons, List.forall_mem_append]
        refine ⟨?_, isSymbolPart_signText e.sign, IsDigits.isSymbolPart (he e rfl)⟩
        cases e.marker <;> decide
    simp only [Lexeme.toList_text_decimal, List.forall_mem_append, List.forall_mem_cons]
    exact ⟨isSymbolPart_signText s, hwhole.isSymbolPart, by decide, hdigits.isSymbolPart, hexponent⟩

/-! ## What was read is viable, and nothing longer -/

namespace BreaksOff

variable {text rest : List Char} {fault : Fault}

theorem viable (h : BreaksOff text rest fault) : Viable text := by
  obtain ⟨n, t, hn, htext⟩ := Lexeme.exists_numeral_of_breaksOff h
  exact ⟨n, hn, t, htext.symm⟩

theorem isSymbolPart_of_mem (h : BreaksOff text rest fault) : ∀ c ∈ text, isSymbolPart c := by
  obtain ⟨n, hn, hfront⟩ := h.viable
  intro c hc
  exact isSymbolPart_of_mem_text hn c (hfront.subset hc)

/-- No numeral goes on behind what was read with the character that follows there. -/
theorem not_viable {c : Char} {cs : List Char} (h : BreaksOff text (c :: cs) fault)
    (ds : List Char) : ¬ Viable (text ++ c :: ds) := by
  rintro ⟨n, hn, t, htext⟩
  -- the text of the numeral itself would break off there
  have hbroken : BreaksOff text (c :: (ds ++ t)) fault := h.of_head? rfl
  have hfails := Lexeme.numeral_append_broken hbroken
  have hread := Lexeme.numeral_complete hn (stopsRun_nil _)
  rw [List.append_nil, ← htext, List.append_assoc, List.cons_append, hfails] at hread
  cases hread

theorem takeWhile_eq (h : BreaksOff text rest fault) :
    (text ++ rest).takeWhile isSymbolPart = text ++ rest.takeWhile isSymbolPart :=
  List.takeWhile_append_of_pos h.isSymbolPart_of_mem

/-- A numeral breaks off behind the longest viable text of its run of symbol characters. -/
theorem isGreatest_viable (h : BreaksOff text rest fault) :
    let r := (text ++ rest).takeWhile isSymbolPart
    IsGreatest {k | k ≤ r.length ∧ Viable (r.take k)} text.length := by
  intro r
  have hr : r = text ++ rest.takeWhile isSymbolPart := h.takeWhile_eq
  rw [hr]
  constructor
  · refine ⟨by simp, ?_⟩
    rw [List.take_left]
    exact h.viable
  · rintro k ⟨hk, hviable⟩
    -- a longer one would take in the character that follows
    by_contra hlt
    rw [List.length_append] at hk
    obtain ⟨j, rfl⟩ : ∃ j, k = text.length + (j + 1) := ⟨k - text.length - 1, by omega⟩
    rw [List.take_length_add_append] at hviable
    cases rest with
    | nil => simp at hk
    | cons c cs =>
      by_cases hc : isSymbolPart c
      · rw [List.takeWhile_cons_of_pos hc, List.take_succ_cons] at hviable
        exact h.not_viable _ hviable
      · simp [hc] at hk

end BreaksOff

end Numeral

namespace Lexeme

/-- Where a numeral begins, the run of symbol characters is one, or the numeral breaks off. -/
theorem numeral_cases {cs : List Char} (h : beginsNumeral cs) :
    (∃ n : Numeral, n.WellFormed ∧ n.text.toList = cs.takeWhile isSymbolPart) ∨
      ∃ text rest fault, cs = text ++ rest ∧ Numeral.BreaksOff text rest fault := by
  have hsplit := text_append_rest_numeral cs
  cases hv : (numeral cs).value with
  | ok n =>
    obtain ⟨hn, htext, hstop⟩ := numeral_sound h hv
    refine .inl ⟨n, hn, ?_⟩
    have hrun := Reading.run_append (Numeral.isSymbolPart_of_mem_text hn) hstop
    rw [← htext, hsplit] at hrun
    rw [← htext]
    exact (congrArg Reading.text hrun).symm
  | error fault => exact .inr ⟨_, _, fault, hsplit.symm, numeral_broken h hv⟩

end Lexeme

namespace Scan

variable {s : Scan}

theorem step_of_numeral {n : Numeral} (hn : n.WellFormed)
    (hr : n.text.toList = s.rest.takeWhile isSymbolPart) :
    let r := s.rest.takeWhile isSymbolPart
    let token : Token := ⟨.terminal (.atom (.numeral n)), n.text, s.position⟩
    s.step = .moved (some token)
      ⟨s.rest.drop r.length, s.position.after r, token :: s.gathered⟩ := by
  intro r token
  have htext : n.text.toList = r := hr
  have hvalid : (Piece.terminal (.atom (.numeral n))).Valid := hn
  have hsplit : s.rest = n.text.toList ++ s.rest.dropWhile isSymbolPart := by
    rw [htext, List.takeWhile_append_dropWhile]
  have hdrop : s.rest.drop r.length = s.rest.dropWhile isSymbolPart :=
    calc s.rest.drop r.length
        = (n.text.toList ++ s.rest.dropWhile isSymbolPart).drop n.text.toList.length := by
          rw [← hsplit, htext]
      _ = s.rest.dropWhile isSymbolPart := List.drop_left
  have hstep := step_of_terminal hvalid hsplit fun _ => Reading.stopsRun_rest_run _ _
  rw [hdrop, ← htext]
  exact hstep

theorem step_of_breaksOff {text rest : List Char} {fault : Numeral.Fault}
    (h : Numeral.BreaksOff text rest fault) (hs : s.rest = text ++ rest) :
    let r := s.rest.takeWhile isSymbolPart
    ∃ k last reason, IsGreatest {k | k ≤ r.length ∧ Numeral.Viable (r.take k)} k ∧
      (r.take k).getLast? = some last ∧ NumberShows reason last r[k]? ∧
      s.step = .failed ⟨.malformedNumber reason, s.position.after (r.take k)⟩
        ⟨s.rest.drop k, s.position.after (r.take k), s.gathered⟩ := by
  intro r
  have hr : r = text ++ rest.takeWhile isSymbolPart := by
    rw [← h.takeWhile_eq, ← hs]
  have htake : r.take text.length = text := by rw [hr, List.take_left]
  have hnext : r[text.length]? = rest.head?.filter isSymbolPart := by
    rw [hr, ← Nat.add_zero text.length, getElem?_behind, ← List.head?_eq_getElem?,
      List.head?_takeWhile]
  obtain ⟨last, hlast, hshows⟩ := h.exists_getLast
  refine ⟨text.length, last, fault.reason, ?_, ?_, ?_, ?_⟩
  · have hgreatest := h.isGreatest_viable
    rw [← hs] at hgreatest
    exact hgreatest
  · rw [htake, hlast]
  · rw [hnext]
    exact hshows.filter
  · rw [htake, step_failed_complete (.numeral h) hs, hs, List.drop_left]
    rfl

end Scan

end Sexp
