import Sexp.Delimiter
import Sexp.Numeral
import Sexp.Text.CharClass

/-! # How the classes of characters lie to each other

A lexeme is told from its first characters, so the classes they are tested for have to be apart:
a symbol character is no separator, no delimiter and no quote, a digit is no sign and begins no
symbol, and a colon begins neither a number nor a symbol. -/

namespace Sexp

theorem isSeparator_eq_false {c : Char} (h : isSymbolPart c) : isSeparator c = false := by
  cases hsep : isSeparator c with
  | false => rfl
  | true =>
    simp only [isSeparator, List.contains_eq_mem, List.mem_cons, List.not_mem_nil, or_false,
      decide_eq_true_eq] at hsep
    rcases hsep with rfl | rfl | rfl | rfl <;> exact absurd h (by decide)

theorem ofOpening?_eq_none {c : Char} (h : isSymbolPart c) : Delimiter.ofOpening? c = none := by
  cases hd : Delimiter.ofOpening? c with
  | none => rfl
  | some d =>
    rw [Delimiter.ofOpening?_eq_some_iff.mp hd] at h
    cases d <;> exact absurd h (by decide)

theorem ofClosing?_eq_none {c : Char} (h : isSymbolPart c) : Delimiter.ofClosing? c = none := by
  cases hd : Delimiter.ofClosing? c with
  | none => rfl
  | some d =>
    rw [Delimiter.ofClosing?_eq_some_iff.mp hd] at h
    cases d <;> exact absurd h (by decide)

theorem ne_quote_of_isSymbolPart {c : Char} (h : isSymbolPart c) : c ≠ '"' := by
  rintro rfl
  exact absurd h (by decide)

/-! ## Signs -/

/-- The two characters that are signs. -/
def IsSign (c : Char) : Prop :=
  c = '+' ∨ c = '-'

theorem IsSign.isSymbolPart {c : Char} (h : IsSign c) : isSymbolPart c := by
  rcases h with rfl | rfl <;> decide

theorem ofChar?_eq_none {c : Char} (h : ¬ IsSign c) : Sign.ofChar? c = none := by
  simp only [IsSign, not_or] at h
  simp [Sign.ofChar?, h.1, h.2]

theorem not_isSign_of_isDigit {c : Char} (h : c.isDigit) : ¬ IsSign c := by
  rintro (rfl | rfl) <;> exact absurd h (by decide)

/-! ## What begins a symbol -/

theorem toNat_le_of_isAlpha {c : Char} (h : c.isAlpha) : 'A'.toNat ≤ c.toNat := by
  rcases Bool.or_eq_true_iff.mp h with hupper | hlower
  · have hval : 65 ≤ c.val := (of_decide_eq_true hupper).1
    exact UInt32.le_iff_toNat_le.mp hval
  · have hval : 97 ≤ c.val := of_decide_eq_true (Bool.and_eq_true_iff.mp hlower).1
    exact Nat.le_trans (by decide) (UInt32.le_iff_toNat_le.mp hval)

theorem not_isDigit_of_isSymbolStart {c : Char} (h : isSymbolStart c) : ¬ c.isDigit := by
  intro hd
  simp only [isSymbolStart, symbolMarks, Bool.or_eq_true, List.contains_eq_mem, List.mem_cons,
    List.not_mem_nil, or_false, decide_eq_true_eq] at h
  rcases h with halpha | hmark
  · -- every letter lies above every digit
    have habove : 'A'.toNat ≤ '9'.toNat :=
      Nat.le_trans (toNat_le_of_isAlpha halpha) (Char.isDigit_iff_toNat.mp hd).2
    exact absurd habove (by decide)
  · rcases hmark with rfl | rfl | rfl | rfl | rfl | rfl | rfl | rfl | rfl | rfl | rfl <;>
      exact absurd hd (by decide)

theorem not_isSign_of_isSymbolStart {c : Char} (h : isSymbolStart c) : ¬ IsSign c := by
  rintro (rfl | rfl) <;> exact absurd h (by decide)

end Sexp
