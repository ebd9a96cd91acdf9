import Mathlib.Order.Bounds.Basic
import Sexp.Proofs.Extents

/-! # Where strings end

A string goes on to the first quote behind its opening one that no backslash stands right before,
and its body is what stands between the two, as it is written.  The reading itself never looks back:
it takes a backslash along with a quote behind it.  `Shields` says what both have in common, and
`isLeast_endsString` and `not_endsString` settle the two outcomes of the reading by it.
-/

namespace Sexp

/-- A string whose opening quote stands at `o` may end with the quote at `j`. -/
structure EndsString (text : List Char) (o j : Nat) : Prop where
  lt : o < j
  quote : text[j]? = some '"'
  bare : text[j - 1]? ≠ some '\\'

instance (text : List Char) (o j : Nat) : Decidable (EndsString text o j) :=
  decidable_of_iff (o < j ∧ text[j]? = some '"' ∧ text[j - 1]? ≠ some '\\')
    ⟨fun h => ⟨h.1, h.2.1, h.2.2⟩, fun h => ⟨h.lt, h.quote, h.bare⟩⟩

/-- A quote inside a whole body stands behind a backslash. -/
theorem Shields.getElem?_quote {body : List Char} (h : Shields none body) (rest : List Char)
    {k : Nat} (hk : k < body.length) (hquote : (body ++ rest)[k]? = some '"') :
    ('"' :: (body ++ rest))[k]? = some '\\' := by
  rw [List.getElem?_append_left hk] at hquote
  have hk' : k < ('"' :: body).length := by
    rw [List.length_cons]
    omega
  rw [← List.cons_append, List.getElem?_append_left hk']
  exact h.behind_quote.getElem?_before hquote

/-- No backslash stands right before the quote that ends a whole body. -/
theorem Shields.getElem?_end {body : List Char} (h : Shields none body) (rest : List Char) :
    ('"' :: (body ++ rest))[body.length]? ≠ some '\\' := by
  have hlast := (shields_iff.mp h.behind_quote).2
  have hend : body.getLast?.or (some '"') = ('"' :: body).getLast? := by
    cases hb : body.getLast? <;> simp [List.getLast?_cons, hb]
  rw [hend, List.getLast?_eq_getElem?, List.length_cons, Nat.add_sub_cancel] at hlast
  rwa [← List.cons_append, List.getElem?_append_left (by simp)]

namespace Lexeme

theorem isLeast_endsString {cs body rest : List Char} (h : splitAtQuote [] cs = some (body, rest))
    (before : List Char) :
    IsLeast {j | EndsString (before ++ '"' :: cs) before.length j}
      (before.length + (body.length + 1)) := by
  obtain ⟨b, rfl, rfl, hb⟩ := splitAtQuote_sound (by simp) h
  have hbody : Shields none body := hb
  constructor
  · refine ⟨by omega, ?_, ?_⟩
    · rw [getElem?_behind]
      simp
    · rw [← Nat.add_assoc, Nat.add_sub_cancel, getElem?_behind]
      exact hbody.getElem?_end _
  · rintro j ⟨hlt, hquote, hbare⟩
    obtain ⟨k, rfl⟩ : ∃ k, j = before.length + (k + 1) := ⟨j - before.length - 1, by omega⟩
    rw [getElem?_behind, List.getElem?_cons_succ] at hquote
    rw [← Nat.add_assoc, Nat.add_sub_cancel, getElem?_behind] at hbare
    -- an earlier quote would be shielded
    have hk : ¬ k < body.length := fun hk => hbare (hbody.getElem?_quote _ hk hquote)
    omega

theorem not_endsString {cs : List Char} (h : splitAtQuote [] cs = none) (before : List Char)
    (j : Nat) : ¬ EndsString (before ++ '"' :: cs) before.length j := by
  rintro ⟨hlt, hquote, hbare⟩
  have hshields : Shields none (cs ++ [' ']) := shields_of_splitAtQuote h
  exact hbare ((Cause.shows_unterminatedString hshields before).2 j hlt hquote)

end Lexeme

namespace Scan

/-- The opening quote, the body and the closing quote as slices of the text they stand in. -/
theorem extract_string (before body rest : List Char) :
    let text := before ++ '"' :: (body ++ '"' :: rest)
    let j := before.length + (body.length + 1)
    text.extract (before.length + 1) j = body ∧
      text.extract before.length (j + 1) = '"' :: (body ++ ['"']) ∧
      text.take (j + 1) = before ++ '"' :: (body ++ ['"']) ∧ text.drop (j + 1) = rest := by
  intro text j
  have hopen : text = (before ++ ['"']) ++ (body ++ '"' :: rest) := by simp [text]
  have hclose : text = (before ++ '"' :: (body ++ ['"'])) ++ rest := by simp [text]
  have hj : j + 1 = (before ++ '"' :: (body ++ ['"'])).length := by
    simp only [j, List.length_append, List.length_cons, List.length_nil]
    omega
  refine ⟨?_, ?_, ?_, ?_⟩
  · have hlen : j - (before.length + 1) = body.length := by omega
    rw [List.extract_eq_take_drop, hlen, hopen, List.drop_left' (by simp), List.take_left]
  · have hlen : j + 1 - before.length = ('"' :: (body ++ ['"'])).length := by
      simp only [j, List.length_cons, List.length_append, List.length_nil]
      omega
    rw [List.extract_eq_take_drop, hlen, hclose, List.append_assoc, List.drop_left, List.take_left]
  · rw [hj, hclose, List.take_left]
  · rw [hj, hclose, List.drop_left]

theorem step_of_closed {s : Scan} {cs body rest : List Char} (hs : s.rest = '"' :: cs)
    (h : Lexeme.splitAtQuote [] cs = some (body, rest)) :
    let token : Token := ⟨.terminal (.atom (.string (String.ofList body))),
      String.ofList ('"' :: (body ++ ['"'])), s.position⟩
    s.step = .moved (some token)
      ⟨rest, s.position.after ('"' :: (body ++ ['"'])), token :: s.gathered⟩ := by
  obtain ⟨_, rfl, hcs, hbody⟩ := Lexeme.splitAtQuote_sound (by simp) h
  let u : Terminal := .atom (.string (String.ofList body))
  have hvalid : (Piece.terminal u).Valid := isStringBody_iff.mpr (by simpa using hbody)
  have htext : u.text = String.ofList ('"' :: (body ++ ['"'])) := by
    simp [← String.toList_inj, u, Terminal.text, Atom.text]
  have hsplit : s.rest = u.text.toList ++ rest := by simp [hs, hcs, htext]
  have hstep := step_of_terminal hvalid hsplit (by simp [Piece.runsOn, u])
  rwa [htext, String.toList_ofList] at hstep

theorem step_of_unclosed {s : Scan} {cs : List Char} (hs : s.rest = '"' :: cs)
    (h : Lexeme.splitAtQuote [] cs = none) :
    s.step = .failed ⟨.unterminatedString, s.position⟩
      ⟨[], s.position.after ('"' :: cs), s.gathered⟩ := by
  have hbroken : Lexeme.Broken ('"' :: cs) [] .unterminatedString :=
    .string (Lexeme.shields_of_splitAtQuote h)
  rw [step_failed_complete hbroken (by rw [hs, List.append_nil])]
  rfl

/-- Where a quote begins a lexeme, the first later quote with no backslash right before it ends a
string, which is gathered with what stands between the quotes for its body, and the scan goes on
behind it.  If there is none, the step fails at the opening quote, gathers nothing and leaves the
scan at the end of the text. -/
theorem step_at_quote {text : List Char} {s : Scan} (hs : s.StandsIn text)
    (hquote : text[s.position.offset]? = some '"') :
    let o := s.position.offset
    (∀ j, IsLeast {j | EndsString text o j} j →
      let token : Token :=
        ⟨.terminal (.atom (.string (String.ofList (text.extract (o + 1) j)))),
          String.ofList (text.extract o (j + 1)), s.position⟩
      s.step = .moved (some token)
        ⟨text.drop (j + 1), Position.start.after (text.take (j + 1)), token :: s.gathered⟩) ∧
      ((∀ j, ¬ EndsString text o j) →
        s.step = .failed ⟨.unterminatedString, s.position⟩
          ⟨[], Position.start.after text, s.gathered⟩) := by
  intro o
  obtain ⟨before, rfl, hplace⟩ := hs
  have ho : o = before.length := by simp [o, hplace]
  obtain ⟨cs, hrest⟩ : ∃ cs, s.rest = '"' :: cs := by
    change (before ++ s.rest)[o]? = some '"' at hquote
    rw [ho, ← Nat.add_zero before.length, getElem?_behind, ← List.head?_eq_getElem?] at hquote
    exact List.head?_eq_some_iff.mp hquote
  rw [hrest, ho]
  cases hsplit : Lexeme.splitAtQuote [] cs with
  | none =>
    have hnone := Lexeme.not_endsString hsplit before
    constructor
    · intro j hj
      exact absurd hj.1 (hnone j)
    · intro _
      rw [step_of_unclosed hrest hsplit, Position.after_append, hplace]
  | some found =>
    obtain ⟨body, rest⟩ := found
    have hleast := Lexeme.isLeast_endsString hsplit before
    constructor
    · intro j hj
      obtain rfl := hj.unique hleast
      obtain rfl := Lexeme.append_of_splitAtQuote hsplit
      obtain ⟨hbody, hlexeme, htake, hdrop⟩ := extract_string before body rest
      rw [hbody, hlexeme, htake, hdrop, step_of_closed hrest hsplit, Position.after_append, hplace]
    · intro hnone
      exact absurd hleast.1 (hnone _)

theorem step_at_quote_doubled_backslash :
    IsLeast {j | EndsString "\"a\\\\\"b\" c".toList 0 j} 6 ∧
      (ofSource "\"a\\\\\"b\" c").step =
        .moved (some ⟨.terminal (.atom (.string "a\\\\\"b")), "\"a\\\\\"b\"", ⟨0, 1, 1⟩⟩)
          ⟨[' ', 'c'], ⟨7, 1, 8⟩,
            [⟨.terminal (.atom (.string "a\\\\\"b")), "\"a\\\\\"b\"", ⟨0, 1, 1⟩⟩]⟩ ∧
      (∀ j, ¬ EndsString "\"a\n\\\"".toList 0 j) ∧
      (ofSource "\"a\n\\\"").step =
        .failed ⟨.unterminatedString, ⟨0, 1, 1⟩⟩ ⟨[], ⟨5, 2, 3⟩, []⟩ := by
  have hleast : IsLeast {j | EndsString "\"a\\\\\"b\" c".toList 0 j} 6 := by
    refine ⟨by decide, ?_⟩
    intro j hj
    have hearlier : ∀ j < 6, ¬ EndsString "\"a\\\\\"b\" c".toList 0 j := by decide
    exact Nat.le_of_not_lt fun hlt => hearlier j hlt hj
  have hnone : ∀ j, ¬ EndsString "\"a\n\\\"".toList 0 j := by
    intro j hj
    have hin : ∀ j < 5, ¬ EndsString "\"a\n\\\"".toList 0 j := by decide
    exact hin j (List.getElem?_eq_some_iff.mp hj.quote).1 hj
  exact ⟨hleast, (step_at_quote (standsIn_ofSource _) rfl).1 6 hleast, hnone,
    (step_at_quote (standsIn_ofSource _) rfl).2 hnone⟩

end Scan

end Sexp
