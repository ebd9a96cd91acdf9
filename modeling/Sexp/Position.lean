/-! # Positions in a source text

A `Position` counts characters from the start of the text (`offset`, from 0) and within lines
(`line` and `column`, from 1). It is moved one character at a time by `next` and over a whole
text by `after`. A text inside another one has positions of its own; `shift` counts them from
where it begins, and `after_eq_shift` says that both ways of counting agree. -/

namespace Sexp

/-- A place between two characters of a source text. -/
structure Position where
  /-- Characters before this place. -/
  offset : Nat := 0
  /-- One more than the newlines before this place. -/
  line : Nat := 1
  /-- One more than the characters between the last newline and this place. -/
  column : Nat := 1
deriving DecidableEq

namespace Position

/-- The place before the first character. -/
def start : Position := {}

/-- The place one character further: a newline begins the next line. -/
def next (p : Position) (c : Char) : Position :=
  if c = '\n' then ⟨p.offset + 1, p.line + 1, 1⟩ else ⟨p.offset + 1, p.line, p.column + 1⟩

/-- The place behind a text that begins at `p`. -/
def after (p : Position) (text : List Char) : Position :=
  text.foldl next p

/-- The place `p` of a text that itself begins at the place `origin`. Columns count on only in the
first line of the text. -/
def shift (origin p : Position) : Position where
  offset := origin.offset + p.offset
  line := origin.line + p.line - 1
  column := if p.line = 1 then origin.column + p.column - 1 else p.column

/-- A position in words. -/
def text (p : Position) : String :=
  "line " ++ toString p.line ++ ", column " ++ toString p.column
    ++ " (offset " ++ toString p.offset ++ ")"

@[simp]
theorem after_nil (p : Position) : p.after [] = p := rfl

@[simp]
theorem after_cons (p : Position) (c : Char) (text : List Char) :
    p.after (c :: text) = (p.next c).after text := rfl

theorem after_append (p : Position) (s t : List Char) :
    p.after (s ++ t) = (p.after s).after t := by
  simp [after]

@[simp]
theorem offset_next (p : Position) (c : Char) : (p.next c).offset = p.offset + 1 := by
  unfold next
  split <;> rfl

@[simp]
theorem offset_after (p : Position) (text : List Char) :
    (p.after text).offset = p.offset + text.length := by
  induction text generalizing p with
  | nil => rfl
  | cons c text ih => simp [ih]; omega

/-! ## Texts within texts -/

@[simp]
theorem shift_start (origin : Position) : origin.shift .start = origin := by
  simp [shift, start]

theorem line_pos_next {p : Position} (h : 0 < p.line) (c : Char) : 0 < (p.next c).line := by
  unfold next
  split <;> simp [h]

theorem column_pos_next (p : Position) (c : Char) : 0 < (p.next c).column := by
  unfold next
  split <;> simp

/-- Moving on within a text moves on in the text around it. -/
theorem shift_next (origin : Position) {p : Position} (hl : 0 < p.line) (hc : 0 < p.column)
    (c : Char) : (origin.shift p).next c = origin.shift (p.next c) := by
  by_cases hn : c = '\n'
  · simp only [next, hn, shift, if_true, Position.mk.injEq]
    refine ⟨by omega, by omega, ?_⟩
    rw [if_neg (by omega)]
  · simp only [next, hn, shift, if_false, Position.mk.injEq]
    refine ⟨by omega, trivial, ?_⟩
    split <;> omega

theorem shift_after (origin : Position) {p : Position} (hl : 0 < p.line) (hc : 0 < p.column)
    (text : List Char) : (origin.shift p).after text = origin.shift (p.after text) := by
  induction text generalizing p with
  | nil => rfl
  | cons c text ih =>
    rw [after_cons, after_cons, shift_next origin hl hc]
    exact ih (line_pos_next hl c) (column_pos_next p c)

/-- The place behind a text is where the text ends by itself, counted from where it begins. -/
theorem after_eq_shift (origin : Position) (text : List Char) :
    origin.after text = origin.shift (start.after text) := by
  have h := shift_after origin (p := start) (by decide) (by decide) text
  rwa [shift_start] at h

end Position

end Sexp
