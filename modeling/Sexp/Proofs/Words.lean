import Sexp.Proofs.Numerals

/-! # Reading strings, keywords and symbols

The lexemes that are not numerals, each with what a reading of it yields (`_sound`) and what text
it is read back from (`_complete`):

* `Lexeme.string` — up to the first quote that no backslash precedes, which `Shields` follows one
  character at a time;
* `Lexeme.keyword` — a colon and a run of symbol characters;
* `Lexeme.symbolAtom` — a run of symbol characters, a truth value if it spells one. -/

namespace Sexp

/-! ## Bodies of strings -/

/-- A text behind the character `prev` is a whole string body: a backslash stands right before
each of its quotes, and none before the quote that ends it. -/
def Shields (prev : Option Char) : List Char → Prop
  | [] => prev ≠ some '\\'
  | c :: cs => (c = '"' → prev = some '\\') ∧ Shields (some c) cs

theorem shields_iff {prev : Option Char} {cs : List Char} :
    Shields prev cs ↔
      (∀ before after, cs = before ++ '"' :: after → before.getLast?.or prev = some '\\') ∧
        cs.getLast?.or prev ≠ some '\\' := by
  induction cs generalizing prev with
  | nil => simp [Shields]
  | cons c cs ih =>
    have hlast : ∀ l : List Char, (c :: l).getLast?.or prev = l.getLast?.or (some c) := by
      intro l
      cases hl : l.getLast? <;> simp [List.getLast?_cons, hl]
    rw [Shields, ih, hlast]
    constructor
    · rintro ⟨hc, hquotes, hend⟩
      refine ⟨?_, hend⟩
      intro before after h
      cases before with
      | nil =>
        obtain ⟨rfl, -⟩ := List.cons.inj h
        exact hc rfl
      | cons b before =>
        obtain ⟨rfl, htail⟩ := List.cons.inj h
        rw [hlast]
        exact hquotes before after htail
    · rintro ⟨hquotes, hend⟩
      refine ⟨?_, ?_, hend⟩
      · rintro rfl
        simpa using hquotes [] cs rfl
      · intro before after h
        rw [← hlast]
        exact hquotes (c :: before) after (by rw [h, List.cons_append])

theorem isStringBody_iff {s : String} : IsStringBody s ↔ Shields none s.toList := by
  simp [shields_iff, IsStringBody]

namespace Lexeme

/-- What is split off lies behind the characters already seen.  The reading never stands between a
backslash and its quote, which is what `hseen` says. -/
theorem splitAtQuote_sound {seen cs body rest : List Char}
    (hseen : seen.head? = some '\\' → cs.head? ≠ some '"')
    (h : splitAtQuote seen cs = some (body, rest)) :
    ∃ b, body = seen.reverse ++ b ∧ cs = b ++ '"' :: rest ∧ Shields seen.head? b := by
  fun_induction splitAtQuote seen cs with
  | case1 => cases h
  | case2 seen cs =>
    cases h
    refine ⟨[], by simp, rfl, ?_⟩
    intro hback
    exact hseen hback rfl
  | case3 seen cs ih =>
    -- behind an escaped quote the reading goes on with no backslash before it
    obtain ⟨b, rfl, rfl, hb⟩ := ih (by simp) h
    exact ⟨'\\' :: '"' :: b, by simp, rfl, by simp, by simp, hb⟩
  | case4 seen c cs hquote hescape ih =>
    have hnext : (c :: seen).head? = some '\\' → cs.head? ≠ some '"' := by
      intro hc hcs
      obtain ⟨cs', rfl⟩ : ∃ cs', cs = '"' :: cs' := List.head?_eq_some_iff.mp hcs
      exact hescape cs' (by simpa using hc) rfl
    obtain ⟨b, rfl, rfl, hb⟩ := ih hnext h
    exact ⟨c :: b, by simp, rfl, fun hc => absurd hc hquote, hb⟩

theorem splitAtQuote_complete {seen b rest : List Char}
    (hseen : seen.head? = some '\\' → (b ++ '"' :: rest).head? ≠ some '"')
    (hb : Shields seen.head? b) :
    splitAtQuote seen (b ++ '"' :: rest) = some (seen.reverse ++ b, rest) := by
  generalize hcs : b ++ '"' :: rest = cs at hseen ⊢
  fun_induction splitAtQuote seen cs generalizing b with
  | case1 => simp at hcs
  | case2 seen cs =>
    cases b with
    | nil => simpa using hcs.symm
    | cons c b =>
      -- a quote inside the body is shielded, but the reading would have taken it with its backslash
      obtain ⟨rfl, -⟩ := List.cons.inj hcs
      exact absurd rfl (hseen (hb.1 rfl))
  | case3 seen cs ih =>
    cases b with
    | nil => simp at hcs
    | cons c b =>
      cases b with
      | nil =>
        -- the quote that ends the body has no backslash before it
        obtain ⟨rfl, -⟩ := List.cons.inj hcs
        exact absurd rfl hb.2
      | cons d b =>
        simp only [List.cons_append, List.cons.injEq] at hcs
        obtain ⟨rfl, rfl, htail⟩ := hcs
        rw [ih hb.2.2 htail (by simp)]
        simp
  | case4 seen c cs hquote hescape ih =>
    cases b with
    | nil => exact absurd (List.cons.inj hcs).1.symm hquote
    | cons d b =>
      obtain ⟨rfl, htail⟩ := List.cons.inj hcs
      rw [ih hb.2 htail ?_]
      · simp
      · intro hc hhead
        obtain ⟨cs', rfl⟩ : ∃ cs', cs = '"' :: cs' := List.head?_eq_some_iff.mp hhead
        exact hescape cs' (by simpa using hc) rfl

theorem string_sound {cs : List Char} {a : Atom} :
    (string cs).value = .ok a →
      ∃ body, a = .string body ∧ IsStringBody body ∧ (string cs).text = body.toList ++ ['"'] := by
  fun_cases string cs with
  | case1 =>
    intro h
    cases h
  | case2 body rest hsplit =>
    intro h
    cases h
    obtain ⟨b, rfl, -, hb⟩ := splitAtQuote_sound (by simp) hsplit
    refine ⟨_, rfl, isStringBody_iff.mpr ?_, by simp⟩
    simpa using hb

theorem string_complete {body : String} (hb : IsStringBody body) (rest : List Char) :
    string (body.toList ++ '"' :: rest) = ⟨.ok (.string body), body.toList ++ ['"'], rest⟩ := by
  have hsplit : splitAtQuote [] (body.toList ++ '"' :: rest) =
      some ([].reverse ++ body.toList, rest) :=
    splitAtQuote_complete (by simp) (isStringBody_iff.mp hb)
  simp [string, hsplit]

/-! ## Keywords -/

theorem keyword_sound {cs : List Char} {a : Atom} (h : (keyword cs).value = .ok a) :
    ∃ text, a = .keyword text ∧ IsKeyword text ∧ text.toList = ':' :: (keyword cs).text ∧
      StopsRun isSymbolPart (keyword cs).rest := by
  simp only [keyword, Reading.map] at h ⊢
  split at h
  next => cases h
  next hname =>
    cases h
    refine ⟨_, rfl, ⟨_, rfl, by simpa using hname, ?_⟩, ?_, Reading.stopsRun_rest_run _ _⟩
    · intro c hc
      exact Reading.mem_text_run (by simpa [Reading.run] using hc)
    · simp [Reading.run]

theorem keyword_complete {name : String} (hne : name ≠ "")
    (hall : ∀ c ∈ name.toList, isSymbolPart c) {rest : List Char} (hr : StopsRun isSymbolPart rest) :
    keyword (name.toList ++ rest) = ⟨.ok (.keyword (":" ++ name)), name.toList, rest⟩ := by
  simp [keyword, Reading.run_append hall hr, Reading.map, hne]

/-! ## Symbols and truth values -/

/-- An atom that is written as a run of symbol characters and is no numeral. -/
def IsWord : Atom → Prop
  | .boolean _ => True
  | .symbol _ => True
  | _ => False

theorem text_symbolAtom (name : String) : (symbolAtom name).text = name := by
  unfold symbolAtom
  split
  next h => exact h.symm
  next =>
    split
    next h => exact h.symm
    next => rfl

theorem symbolAtom_sound {c : Char} {name : List Char} (hc : BeginsSymbol c name)
    (hname : ∀ d ∈ name, isSymbolPart d) :
    (symbolAtom (String.ofList (c :: name))).WellFormed := by
  unfold symbolAtom
  split
  next => trivial
  next htrue =>
    split
    next => trivial
    next hfalse => exact ⟨htrue, hfalse, c, name, by simp, hc, hname⟩

/-- A truth value or a symbol is the atom its own text stands for. -/
theorem symbolAtom_complete {a : Atom} (ha : a.WellFormed) (hword : IsWord a) :
    symbolAtom a.text = a := by
  cases a with
  | boolean value => cases value <;> rfl
  | symbol name =>
    obtain ⟨htrue, hfalse, -⟩ := ha
    simp [symbolAtom, Atom.text, htrue, hfalse]
  | numeral _ | keyword _ | string _ => cases hword

/-- The text of a truth value or a symbol begins like a symbol and goes on like one. -/
theorem text_word {a : Atom} (ha : a.WellFormed) (hword : IsWord a) :
    ∃ c name, a.text.toList = c :: name ∧ BeginsSymbol c name ∧ ∀ d ∈ name, isSymbolPart d := by
  cases a with
  | boolean value =>
    cases value with
    | true => exact ⟨'t', ['r', 'u', 'e'], rfl, .inl (by decide), List.all_eq_true.mp rfl⟩
    | false => exact ⟨'f', ['a', 'l', 's', 'e'], rfl, .inl (by decide), List.all_eq_true.mp rfl⟩
  | symbol name => exact ha.2.2
  | numeral _ | keyword _ | string _ => cases hword

end Lexeme

end Sexp
