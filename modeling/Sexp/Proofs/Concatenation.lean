import Sexp.Proofs.Places
import Sexp.Proofs.Relocation
import Sexp.Proofs.Resumption

/-! # Sources one behind the other

A source that can be read and a source parted from it by separators are read one after the other
(`Form.read_append_separated`).  The separators stop whatever lexeme the first source ends with, so
the scan comes to the second source with the tokens of the first gathered (`reaches_append_separated`)
and goes on as a scan of the second source would, at other places.  Nesting then goes on behind the
forms of the first source.
-/

namespace Sexp

/-! ## Places behind a text -/

namespace Position

/-- The place `p` of a text that stands behind the text `q`. -/
def behind (q : List Char) (p : Position) : Position where
  offset := p.offset + q.length
  line := p.line + q.count '\n'
  column := if p.line = 1 then p.column + (q.reverse.takeWhile (· ≠ '\n')).length else p.column

theorem shift_start_after (q : List Char) (p : Position) :
    (start.after q).shift p = p.behind q := by
  have hpoints := pointsInto_after q []
  have hoffset : (start.after q).offset = q.length := by simp
  have hline := hpoints.line_eq
  have hcolumn := hpoints.column_eq
  rw [hoffset, List.append_nil, List.take_length] at hline hcolumn
  simp only [shift, behind, hoffset, hline, hcolumn, mk.injEq]
  refine ⟨Nat.add_comm _ _, by omega, ?_⟩
  by_cases hfirst : p.line = 1
  · rw [if_pos hfirst, if_pos hfirst]
    omega
  · rw [if_neg hfirst, if_neg hfirst]

end Position

/-! ## Scanning on -/

namespace Scan

theorem reaches_separators {w : List Char} (hw : ∀ c ∈ w, isSeparator c) (rest : List Char)
    (p : Position) (gathered : List Token) :
    Reaches ⟨w ++ rest, p, gathered⟩ [] ⟨rest, p.after w, gathered⟩ := by
  induction w generalizing p with
  | nil => exact .refl _
  | cons c w ih =>
    have hc : isSeparator c := hw c (by simp)
    have hvalid : (Piece.separator c).Valid := hc
    have hstep := step_complete (s := ⟨c :: w ++ rest, p, gathered⟩) hvalid rfl (by simp [Piece.runsOn])
    exact .step hstep (ih (fun d hd => hw d (by simp [hd])) _)

end Scan

namespace Form

variable {a w : String}

theorem reaches_append_separated {ts : List Token} {s : Scan}
    (hreach : Scan.Reaches (.ofSource a) ts s) (hend : s.rest = []) (hne : w ≠ "")
    (hw : ∀ c ∈ w.toList, isSeparator c) (b : String) :
    Scan.Reaches (.ofSource (a ++ w ++ b)) ts
      ⟨b.toList, Position.start.after (a ++ w).toList, ts.reverse⟩ := by
  obtain ⟨text, htext, hplace⟩ := hreach.exists_text
  rw [hend, List.append_nil] at htext
  have hgathered : s.gathered = ts.reverse := by
    rw [← hreach.gathered_ofSource, List.reverse_reverse]
  have hstop : StopsRun isSymbolPart (w ++ b).toList := by
    rw [String.toList_append]
    exact stopsRun_of_separators (by simpa using hne) hw b.toList
  have hfirst := reaches_append hreach (w ++ b) fun _ => hstop
  have hthen := Scan.reaches_separators hw b.toList s.position s.gathered
  have hmid : s.extend (w ++ b).toList = ⟨w.toList ++ b.toList, s.position, s.gathered⟩ := by
    rw [Scan.extend, hend, String.toList_append, List.nil_append]
  rw [hmid] at hfirst
  have hboth := hfirst.trans hthen
  have hend' : s.position.after w.toList = Position.start.after (a ++ w).toList := by
    rw [hplace, String.toList_append, Position.after_append, ← htext]
    rfl
  rw [List.append_nil, hend', hgathered, ← String.append_assoc] at hboth
  exact hboth

theorem scan_append_separated {ts : List Token} {s : Scan}
    (hreach : Scan.Reaches (.ofSource a) ts s) (hend : s.rest = []) (hne : w ≠ "")
    (hw : ∀ c ∈ w.toList, isSeparator c) (b : String) :
    (∀ us, Token.scan b = .ok us → Token.scan (a ++ w ++ b) =
        .ok (ts ++ us.map (Token.shift (Position.start.after (a ++ w).toList)))) ∧
      ∀ e, Token.scan b = .error e →
        Token.scan (a ++ w ++ b) = .error (e.shift (Position.start.after (a ++ w).toList)) := by
  have hway := reaches_append_separated hreach hend hne hw b
  have hscan : Token.scan (a ++ w ++ b) =
      (Scan.runWithin (Position.start.after (a ++ w).toList) ts.reverse (Scan.ofSource b).run).1 := by
    rw [Token.scan, hway.run_eq, Scan.run_eq_runWithin, Scan.afresh, String.ofList_toList]
  rw [hscan, Token.scan]
  generalize (Scan.ofSource b).run = r
  obtain ⟨r, next⟩ := r
  cases r with
  | ok us => simp [Scan.runWithin]
  | error e => simp [Scan.runWithin]

/-- The tokens of a source that can be read are nested to its forms, whatever follows them. -/
theorem takes_of_read {ts : List Token} {s : Scan} {fa : List Form}
    (hreach : Scan.Reaches (.ofSource a) ts s) (hend : s.rest = []) (ha : read a = .ok fa) :
    Nest.Takes {} ts ⟨fa.reverse, []⟩ := by
  rw [read_of_scan_ok (hreach.scan_of_end hend)] at ha
  have hkinds := kinds_of_parse ha
  rw [hreach.beforeEnd_mark] at hkinds
  have htakes := Nest.takes_forms {} hkinds
  rw [Nest.addAll_done, List.append_nil] at htakes
  exact htakes

/-- Of two sources parted by separators the first can be read.  Then the whole is read as the forms
of both, or has the error of the second at the place where it stands in the whole. -/
theorem read_append_separated {fa : List Form} (ha : read a = .ok fa) (hne : w ≠ "")
    (hw : ∀ c ∈ w.toList, isSeparator c) (b : String) :
    (∀ fb, read b = .ok fb → read (a ++ w ++ b) = .ok (fa ++ fb)) ∧
      ∀ e, read b = .error e →
        read (a ++ w ++ b) = .error ⟨e.cause, e.position.behind (a ++ w).toList⟩ := by
  obtain ⟨ts, s, hreach, hend | ⟨e, next, hfail⟩⟩ := (Scan.ofSource a).run_cases
  · obtain ⟨hok, herror⟩ := scan_append_separated hreach hend hne hw b
    cases hscan : Token.scan b with
    | error e =>
      rw [read_of_scan_error hscan, read_of_scan_error (herror e hscan)]
      simp [Error.shift, Position.shift_start_after]
    | ok us =>
      have hmoved : List.Forall₂
          (Token.Alike fun p p' => p' = p.behind (a ++ w).toList) us
          (us.map (Token.shift (Position.start.after (a ++ w).toList))) := by
        rw [List.forall₂_map_right_iff, List.forall₂_same]
        intro t _
        exact ⟨rfl, Position.shift_start_after _ _⟩
      have halike : Nest.Alike (fun p p' => p' = p.behind (a ++ w).toList) fa.reverse {}
          ⟨fa.reverse, []⟩ := ⟨rfl, .nil⟩
      have hout := Nest.run_alike hmoved halike
      rw [← takes_of_read hreach hend ha, ← parse, ← parse, ← read_of_scan_ok hscan,
        ← read_of_scan_ok (hok us hscan)] at hout
      generalize read b = r at hout ⊢
      generalize read (a ++ w ++ b) = r' at hout ⊢
      cases hout with
      | forms fs => simp
      | error hp => simp [hp]
  · rw [read_of_scan_error (hreach.scan_of_failed hfail)] at ha
    cases ha

theorem read_append_separated_second_line :
    read "(a)\n, b" = .ok [.collection .paren [.atom (.symbol "a")], .atom (.symbol "b")] ∧
      read "(a)\n, b]" = .error ⟨.invalidCharacter ']', ⟨7, 2, 4⟩⟩ ∧
      read "(a)\n, b\n]" = .error ⟨.invalidCharacter ']', ⟨8, 3, 1⟩⟩ := by
  have hseparators : ∀ c ∈ "\n, ".toList, isSeparator c := List.all_eq_true.mp rfl
  have hfirst : read "(a)" = .ok [.collection .paren [.atom (.symbol "a")]] := by cbv
  have hsecond : read "b" = .ok [.atom (.symbol "b")] := by cbv
  have hsame : read "b]" = .error ⟨.invalidCharacter ']', ⟨1, 1, 2⟩⟩ := by cbv
  have hnext : read "b\n]" = .error ⟨.invalidCharacter ']', ⟨2, 2, 1⟩⟩ := by cbv
  exact ⟨(read_append_separated hfirst (by decide) hseparators "b").1 _ hsecond,
    (read_append_separated hfirst (by decide) hseparators "b]").2 _ hsame,
    (read_append_separated hfirst (by decide) hseparators "b\n]").2 _ hnext⟩

end Form

end Sexp
