import Sexp.Proofs.Places
import Sexp.Proofs.Resumption

/-! # Where tokens lie

A token that was gathered is a slice of the source, at the offset, line and column it gives, and the
tokens gathered by then lie one behind the other, all before the place reached.

`Scan.InOrder` is that invariant.  A step keeps it whether it moves (`InOrder.moved`) or fails
(`InOrder.failed`), so a run keeps it (`InOrder.run`), and so does any number of runs.  What no
token covers is settled by the row of pieces of the source instead (`isSeparator_of_uncovered`),
since a scan that has failed has passed over characters of no token and of no separator.
-/

namespace Sexp

namespace Token

/-- The offset behind the last character of a token. -/
def stop (t : Token) : Nat :=
  t.position.offset + t.lexeme.length

/-- A token is a slice of a text that spells its kind, at the place the token gives. -/
structure CutFrom (text : List Char) (t : Token) : Prop where
  lexeme_ne_empty : t.lexeme ≠ ""
  lexeme_eq_slice : t.lexeme.toList = (text.drop t.position.offset).take t.lexeme.length
  lexeme_eq_text : t.lexeme = t.kind.text
  pointsInto : t.position.PointsInto text

/-- One token begins and ends before another begins. -/
structure Precedes (t u : Token) : Prop where
  offset_lt : t.position.offset < u.position.offset
  stop_le : t.stop ≤ u.position.offset

theorem CutFrom.offset_lt_stop {text : List Char} {t : Token} (h : t.CutFrom text) :
    t.position.offset < t.stop := by
  have hpos : t.lexeme.length ≠ 0 := by simpa using h.lexeme_ne_empty
  unfold stop
  omega

theorem cutFrom_append {u : Terminal} (hu : u.text ≠ "") (before rest : List Char) :
    CutFrom (before ++ (u.text.toList ++ rest))
      ⟨.terminal u, u.text, Position.start.after before⟩ := by
  refine ⟨hu, ?_, rfl, Position.pointsInto_after _ _⟩
  have hoffset : (Position.start.after before).offset = before.length := by simp
  rw [hoffset, List.drop_left, ← String.length_toList, List.take_left]

end Token

namespace Scan

/-! ## Scans that stand in a text -/

section StandsIn

variable {text : List Char} {s next : Scan}

theorem StandsIn.rest_eq (h : s.StandsIn text) : s.rest = text.drop s.position.offset := by
  obtain ⟨before, rfl, hplace⟩ := h
  simp [hplace]

theorem StandsIn.pointsInto (h : s.StandsIn text) : s.position.PointsInto text := by
  obtain ⟨before, rfl, hplace⟩ := h
  rw [hplace]
  exact Position.pointsInto_after before s.rest

/-- A scan that has read some characters stands in the text still. -/
theorem StandsIn.advance (h : s.StandsIn text) {read : List Char}
    (hrest : s.rest = read ++ next.rest) (hplace : next.position = s.position.after read) :
    next.StandsIn text := by
  obtain ⟨before, rfl, hbefore⟩ := h
  refine ⟨before ++ read, by rw [hrest, List.append_assoc], ?_⟩
  rw [hplace, hbefore, Position.after_append]

end StandsIn

/-! ## Order -/

/-- The tokens gathered are slices of the text, one behind the other, before the place reached. -/
structure InOrder (text : List Char) (s : Scan) : Prop where
  standsIn : s.StandsIn text
  cutFrom : ∀ t ∈ s.gathered, t.CutFrom text
  stop_le : ∀ t ∈ s.gathered, t.stop ≤ s.position.offset
  precedes : s.gathered.reverse.Pairwise Token.Precedes

variable {text : List Char} {s next : Scan}

theorem inOrder_ofSource (source : String) : (ofSource source).InOrder source.toList :=
  ⟨standsIn_ofSource source, by simp [ofSource], by simp [ofSource], by simp [ofSource]⟩

/-- Tokens that lay before a place lie before every later one. -/
theorem InOrder.advance (h : s.InOrder text) {read : List Char}
    (hrest : s.rest = read ++ next.rest) (hplace : next.position = s.position.after read)
    (hgathered : next.gathered = s.gathered) : next.InOrder text := by
  refine ⟨h.standsIn.advance hrest hplace, ?_, ?_, ?_⟩
  · rw [hgathered]
    exact h.cutFrom
  · intro t ht
    rw [hgathered] at ht
    rw [hplace, Position.offset_after]
    exact Nat.le_add_right_of_le (h.stop_le t ht)
  · rw [hgathered]
    exact h.precedes

theorem InOrder.moved (h : s.InOrder text) {token : Option Token}
    (hstep : s.step = .moved token next) : next.InOrder text := by
  obtain ⟨p, hp, hrest, -, -, hnext⟩ := step_sound hstep
  have hplace : next.position = s.position.after p.text := by rw [hnext, past]
  cases p with
  | separator c => exact h.advance hrest hplace (by rw [hnext]; rfl)
  | terminal u =>
    have hgathered : next.gathered = ⟨.terminal u, u.text, s.position⟩ :: s.gathered := by
      rw [hnext]
      rfl
    have hlength : next.position.offset = s.position.offset + u.text.length := by
      rw [hplace, Position.offset_after, Piece.text, String.length_toList]
    have hcut : Token.CutFrom text ⟨.terminal u, u.text, s.position⟩ := by
      obtain ⟨before, hsource, hbefore⟩ := h.standsIn
      obtain ⟨c, cs, hcons⟩ := Piece.exists_text_cons hp
      have hne : u.text ≠ "" := by
        intro hempty
        rw [Piece.text, hempty] at hcons
        cases hcons
      rw [hsource, hrest, hbefore]
      exact Token.cutFrom_append hne before next.rest
    refine ⟨h.standsIn.advance hrest hplace, ?_, ?_, ?_⟩
    · rw [hgathered]
      exact List.forall_mem_cons.mpr ⟨hcut, h.cutFrom⟩
    · rw [hgathered, hlength]
      refine List.forall_mem_cons.mpr ⟨Nat.le_refl _, ?_⟩
      intro t ht
      exact Nat.le_add_right_of_le (h.stop_le t ht)
    · rw [hgathered, List.reverse_cons, List.pairwise_append]
      refine ⟨h.precedes, List.pairwise_singleton _ _, ?_⟩
      -- the new token begins where the scan stood, behind all others
      intro t ht v hv
      obtain rfl := List.mem_singleton.mp hv
      have hmem : t ∈ s.gathered := List.mem_reverse.mp ht
      have hstop := h.stop_le t hmem
      exact ⟨Nat.lt_of_lt_of_le (h.cutFrom t hmem).offset_lt_stop hstop, hstop⟩

theorem InOrder.failed (h : s.InOrder text) {e : Error} (hstep : s.step = .failed e next) :
    next.InOrder text := by
  obtain ⟨read, hrest, -, hplace, hgathered, -⟩ := step_failed_sound hstep
  exact h.advance hrest hplace hgathered

theorem InOrder.run (h : s.InOrder text) : s.run.2.InOrder text := by
  fun_induction Scan.run s with
  | case1 s hstep => exact ⟨h.standsIn, by simp, by simp, by simp⟩
  | case2 s token next hstep ih => exact ih (h.moved hstep)
  | case3 s e next hstep => exact h.failed hstep

theorem InOrder.resumed (h : s.InOrder text) (n : Nat) : (s.resumed n).InOrder text := by
  induction n with
  | zero => exact h
  | succ n ih => exact ih.run

/-- What a run hands out was gathered, the end mark aside. -/
theorem InOrder.cutFrom_of_run (h : s.InOrder text) {ts : List Token} (hrun : s.run.1 = .ok ts) :
    ∀ t ∈ ts, t.kind ≠ .eof → t.CutFrom text := by
  fun_induction Scan.run s with
  | case1 s hstep =>
    cases hrun
    intro t ht hkind
    rw [List.mem_reverse] at ht
    rcases List.mem_cons.mp ht with rfl | hgathered
    · exact absurd rfl hkind
    · exact h.cutFrom t hgathered
  | case2 s token next hstep ih => exact ih (h.moved hstep) hrun
  | case3 s e next hstep => cases hrun

end Scan

/-! ## What no token covers -/

/-- A token covers the characters from where it begins to where it stops. -/
def Token.Covers (t : Token) (i : Nat) : Prop :=
  t.position.offset ≤ i ∧ i < t.stop

theorem isSeparator_of_uncovered {ps : List Piece} (hvalid : ∀ p ∈ ps, p.Valid) (pos : Position)
    {k : Nat} {c : Char} (hk : (piecesText ps)[k]? = some c)
    (hout : ∀ t ∈ piecesTokens pos ps, ¬ t.Covers (pos.offset + k)) : isSeparator c := by
  induction ps generalizing pos k with
  | nil => cases hk
  | cons p ps ih =>
    rw [piecesText_cons] at hk
    rw [piecesTokens_cons, List.forall_mem_append] at hout
    by_cases hin : k < p.text.length
    · rw [List.getElem?_append_left hin] at hk
      cases p with
      | separator d =>
        obtain ⟨-, rfl⟩ : k = 0 ∧ d = c := by
          simpa [Piece.text, List.getElem?_singleton] using hk
        exact hvalid (.separator d) (by simp)
      | terminal u =>
        have hcovers : Token.Covers ⟨.terminal u, u.text, pos⟩ (pos.offset + k) := by
          rw [Piece.text, String.length_toList] at hin
          exact ⟨Nat.le_add_right _ _, Nat.add_lt_add_left hin _⟩
        exact absurd hcovers (hout.1 _ (by simp [Piece.token?]))
    · rw [List.getElem?_append_right (by omega)] at hk
      apply ih (fun q hq => hvalid q (by simp [hq])) (pos.after p.text) hk
      intro t ht
      rw [Position.offset_after]
      have hsum : pos.offset + p.text.length + (k - p.text.length) = pos.offset + k := by omega
      rw [hsum]
      exact hout.2 t ht

namespace Scan

/-- However often a scan of a source is run, it stands at a place of the source, with the line and
column that the characters before it make, and the tokens it has gathered are slices of the source,
one behind the other and all before that place.  What it hands out are such slices too, and the end
mark.  Where a first run succeeds, every character that no token covers is a separator. -/
theorem resumed_tokens_in_order (source : String) :
    (∀ n, let s := (ofSource source).resumed n
      s.rest = source.toList.drop s.position.offset ∧ s.position.PointsInto source.toList ∧
        (∀ t ∈ s.gathered, t.CutFrom source.toList ∧ t.stop ≤ s.position.offset) ∧
        s.gathered.reverse.Pairwise Token.Precedes ∧
        ∀ ts, s.run.1 = .ok ts → ∀ t ∈ ts, t.kind ≠ .eof → t.CutFrom source.toList) ∧
      ∀ ts, Token.scan source = .ok ts → ∀ i c, source.toList[i]? = some c →
        (∀ t ∈ ts, ¬ t.Covers i) → isSeparator c := by
  constructor
  · intro n s
    have h : s.InOrder source.toList := (inOrder_ofSource source).resumed n
    refine ⟨h.standsIn.rest_eq, h.standsIn.pointsInto, ?_, h.precedes, ?_⟩
    · intro t ht
      exact ⟨h.cutFrom t ht, h.stop_le t ht⟩
    · intro ts hrun
      exact h.cutFrom_of_run hrun
  · intro ts hscan i c hc hout
    obtain ⟨l, rfl⟩ := Layout.exists_of_scan hscan
    rw [← l.text_eq] at hc
    apply isSeparator_of_uncovered l.valid .start hc
    rw [Position.offset_start, Nat.zero_add]
    exact hout

theorem resumed_tokens_in_order_after_failure :
    ((ofSource "\"x\ny\" @ :k").resumed 1).run.1 =
        .ok [⟨.terminal (.atom (.string "x\ny")), "\"x\ny\"", ⟨0, 1, 1⟩⟩,
          ⟨.terminal (.atom (.keyword ":k")), ":k", ⟨8, 2, 6⟩⟩, Token.atEnd ⟨10, 2, 8⟩] ∧
      Token.CutFrom "\"x\ny\" @ :k".toList
        ⟨.terminal (.atom (.keyword ":k")), ":k", ⟨8, 2, 6⟩⟩ ∧
      Token.scan "(\na" =
        .ok [⟨.terminal (.opening .paren), "(", ⟨0, 1, 1⟩⟩,
          ⟨.terminal (.atom (.symbol "a")), "a", ⟨2, 2, 1⟩⟩, Token.atEnd ⟨3, 2, 2⟩] ∧
      isSeparator '\n' := by
  have hrun : ((ofSource "\"x\ny\" @ :k").resumed 1).run.1 =
      .ok [⟨.terminal (.atom (.string "x\ny")), "\"x\ny\"", ⟨0, 1, 1⟩⟩,
        ⟨.terminal (.atom (.keyword ":k")), ":k", ⟨8, 2, 6⟩⟩, Token.atEnd ⟨10, 2, 8⟩] := by
    cbv
  have hscan : Token.scan "(\na" =
      .ok [⟨.terminal (.opening .paren), "(", ⟨0, 1, 1⟩⟩,
        ⟨.terminal (.atom (.symbol "a")), "a", ⟨2, 2, 1⟩⟩, Token.atEnd ⟨3, 2, 2⟩] := by
    cbv
  have hcut := ((resumed_tokens_in_order "\"x\ny\" @ :k").1 1).2.2.2.2 _ hrun
  refine ⟨hrun, hcut _ (by simp) (by simp), hscan, ?_⟩
  -- the newline stands between the two tokens
  apply (resumed_tokens_in_order "(\na").2 _ hscan 1 '\n' rfl
  simp [Token.Covers, Token.stop, Token.atEnd, ← String.length_toList]

end Scan

end Sexp
