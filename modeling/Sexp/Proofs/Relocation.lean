import Mathlib.Data.List.Forall2
import Sexp.Proofs.Nesting

/-! # Tokens at other places

Nesting looks at the kinds of tokens and only hands their places on.  Two rows of tokens of the same
kinds are therefore nested alike: into the same forms, or up to the same error at tokens that
correspond (`Nest.run_alike`).

Which places correspond is left open as a relation `R`.  The second nest may hold the forms `base`
from before; they stay in front of whatever is completed.
-/

namespace Sexp

/-- Tokens of one kind at corresponding places. -/
structure Token.Alike (R : Position → Position → Prop) (t t' : Token) : Prop where
  kind_eq : t'.kind = t.kind
  place : R t.position t'.position

/-- Collections opened by one delimiter at corresponding places, with the same elements. -/
structure OpenCollection.Alike (R : Position → Position → Prop) (c c' : OpenCollection) : Prop where
  delimiter_eq : c'.delimiter = c.delimiter
  elements_eq : c'.elements = c.elements
  place : R c.position c'.position

/-- Outcomes with the same forms, behind those of `base`, or with one cause at corresponding
places. -/
inductive OutcomeAlike (R : Position → Position → Prop) (base : List Form) :
    Except Error (List Form) → Except Error (List Form) → Prop
  | forms (fs : List Form) : OutcomeAlike R base (.ok fs) (.ok (base.reverse ++ fs))
  | error {cause : Cause} {p p' : Position} (h : R p p') :
      OutcomeAlike R base (.error ⟨cause, p⟩) (.error ⟨cause, p'⟩)

namespace Nest

/-- Nests that hold the same at corresponding places, the second behind the forms of `base`. -/
structure Alike (R : Position → Position → Prop) (base : List Form) (n n' : Nest) : Prop where
  done_eq : n'.done = n.done ++ base
  pending : List.Forall₂ (OpenCollection.Alike R) n.pending n'.pending

namespace Alike

variable {R : Position → Position → Prop} {base : List Form} {n n' : Nest}

theorem add (h : Alike R base n n') (f : Form) : Alike R base (n.add f) (n'.add f) := by
  obtain ⟨done, pending⟩ := n
  obtain ⟨done', pending'⟩ := n'
  obtain ⟨hdone, hpending⟩ := h
  cases hpending with
  | nil => exact ⟨congrArg (f :: ·) hdone, .nil⟩
  | cons hc houter =>
    exact ⟨hdone, .cons ⟨hc.delimiter_eq, congrArg (f :: ·) hc.elements_eq, hc.place⟩ houter⟩

theorem enter (h : Alike R base n n') (d : Delimiter) {p p' : Position} (hp : R p p') :
    Alike R base (n.enter d p) (n'.enter d p') :=
  ⟨h.done_eq, .cons ⟨rfl, rfl, hp⟩ h.pending⟩

theorem finish (h : Alike R base n n') : OutcomeAlike R base n.finish n'.finish := by
  obtain ⟨done, pending⟩ := n
  obtain ⟨done', pending'⟩ := n'
  obtain ⟨hdone, hpending⟩ := h
  cases hpending with
  | nil =>
    have hforms : done'.reverse = base.reverse ++ done.reverse := by
      rw [show done' = done ++ base from hdone, List.reverse_append]
    rw [Nest.finish, Nest.finish, hforms]
    exact .forms done.reverse
  | @cons c c' outer outer' hc _ =>
    change OutcomeAlike R base (.error ⟨.unclosedDelimiter c.delimiter, c.position⟩)
      (.error ⟨.unclosedDelimiter c'.delimiter, c'.position⟩)
    rw [hc.delimiter_eq]
    exact .error hc.place

/-- A terminal taken at corresponding places leads to such nests, or is refused by both. -/
theorem take (h : Alike R base n n') {p p' : Position} (hp : R p p') (u : Terminal) :
    (∃ m m', n.take p u = .ok m ∧ n'.take p' u = .ok m' ∧ Alike R base m m') ∨
      ∃ cause, n.take p u = .error ⟨cause, p⟩ ∧ n'.take p' u = .error ⟨cause, p'⟩ := by
  cases u with
  | atom a => exact .inl ⟨_, _, rfl, rfl, h.add (.atom a)⟩
  | opening d => exact .inl ⟨_, _, rfl, rfl, h.enter d hp⟩
  | closing d =>
    obtain ⟨done, pending⟩ := n
    obtain ⟨done', pending'⟩ := n'
    obtain ⟨hdone, hpending⟩ := h
    cases hpending with
    | nil => exact .inr ⟨_, rfl, rfl⟩
    | @cons c c' outer outer' hc houter =>
      by_cases same : c.delimiter = d
      · have hmatch : c'.delimiter = d := hc.delimiter_eq.trans same
        have hrest : Alike R base ⟨done, outer⟩ ⟨done', outer'⟩ := ⟨hdone, houter⟩
        refine .inl ⟨_, _, if_pos same, if_pos hmatch, ?_⟩
        rw [hc.elements_eq]
        exact hrest.add _
      · have hdiffer : c'.delimiter ≠ d := fun hmatch => same (hc.delimiter_eq.symm.trans hmatch)
        refine .inr ⟨.mismatchedDelimiter c.delimiter d, if_neg same, ?_⟩
        rw [← hc.delimiter_eq]
        exact if_neg hdiffer

end Alike

variable {R : Position → Position → Prop} {base : List Form}

theorem run_alike {ts ts' : List Token} (hts : List.Forall₂ (Token.Alike R) ts ts') {n n' : Nest}
    (h : Alike R base n n') : OutcomeAlike R base (n.run ts).1 (n'.run ts').1 := by
  induction hts generalizing n n' with
  | nil => exact h.finish
  | @cons t t' ts ts' ht _ ih =>
    cases hkind : t.kind with
    | eof =>
      rw [run_eof n hkind, run_eof n' (ht.kind_eq.trans hkind)]
      exact h.finish
    | terminal u =>
      rw [run_terminal n hkind, run_terminal n' (ht.kind_eq.trans hkind)]
      rcases h.take ht.place u with ⟨m, m', hm, hm', halike⟩ | ⟨cause, he, he'⟩
      · rw [hm, hm']
        exact ih halike
      · rw [he, he']
        exact .error ht.place

end Nest

/-! ## Tokens of the same kinds -/

namespace Token

/-- Places of the tokens that have the same number in two rows. -/
def SameNumber (ts ts' : List Token) (p p' : Position) : Prop :=
  ∃ (i : Nat) (t t' : Token), ts[i]? = some t ∧ ts'[i]? = some t' ∧ t.position = p ∧
    t'.position = p'

theorem forall₂_sameNumber {ts ts' : List Token} (h : ts'.map kind = ts.map kind) :
    List.Forall₂ (Alike (SameNumber ts ts')) ts ts' := by
  have hlength : ts.length = ts'.length := by simpa using (congrArg List.length h).symm
  apply List.forall₂_iff_get.mpr
  refine ⟨hlength, ?_⟩
  intro i hi hi'
  have hkind := congrArg (fun kinds => kinds[i]?) h
  simp only [List.getElem?_map, List.getElem?_eq_getElem hi, List.getElem?_eq_getElem hi',
    Option.map_some, Option.some.injEq] at hkind
  exact ⟨hkind, i, _, _, List.getElem?_eq_getElem hi, List.getElem?_eq_getElem hi', rfl, rfl⟩

end Token

/-- Rows of tokens of the same kinds are nested into the same forms, or neither is, for one cause at
the same token. -/
theorem Form.parse_same_kinds {ts ts' : List Token} (h : ts'.map Token.kind = ts.map Token.kind) :
    (∃ fs, (parse ts).1 = .ok fs ∧ (parse ts').1 = .ok fs) ∨
      ∃ (cause : Cause) (i : Nat) (t t' : Token), ts[i]? = some t ∧ ts'[i]? = some t' ∧
        (parse ts).1 = .error ⟨cause, t.position⟩ ∧
          (parse ts').1 = .error ⟨cause, t'.position⟩ := by
  have hempty : Nest.Alike (Token.SameNumber ts ts') [] {} {} := ⟨rfl, .nil⟩
  have hout := Nest.run_alike (Token.forall₂_sameNumber h) hempty
  rw [← parse, ← parse] at hout
  generalize (parse ts).1 = r at hout ⊢
  generalize (parse ts').1 = r' at hout ⊢
  cases hout with
  | forms fs => exact .inl ⟨fs, rfl, rfl⟩
  | @error cause _ _ hp =>
    obtain ⟨i, t, t', ht, ht', rfl, rfl⟩ := hp
    exact .inr ⟨cause, i, t, t', ht, ht', rfl, rfl⟩

end Sexp
