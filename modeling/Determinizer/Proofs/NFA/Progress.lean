import Determinizer.Proofs.NFA.Reading

/-! # Reading line by line

Lines are read one after another, so reading can be cut between any two of them. It stops at the
first line that is out of order: the error names this line, the lines before it are read, and the
later ones have no part in how reading ends.
-/

namespace Determinizer

namespace Text

/-- The first three lines of a text with enough lines, and the others. -/
theorem exists_lines {text : String} (enough : 4 ≤ (lines text).length) :
    ∃ first second third rest, lines text = first :: second :: third :: rest ∧ rest ≠ [] := by
  match lines_eq : lines text with
  | [] | [_] | [_, _] | [_, _, _] => simp [lines_eq] at enough
  | first :: second :: third :: fourth :: rest =>
    exact ⟨first, second, third, fourth :: rest, rfl, List.cons_ne_nil _ _⟩

end Text

namespace NFA

variable {strict : Bool} {nfa grown : NFA} {cause : Error} {line first second third : String}
  {text : String} {start : Nat} {lines : List String} {entries : List (String × Nat)}

/-- Reading can be cut between any two lines. -/
theorem readEdges_append (strict : Bool) (nfa : NFA) (earlier later : List (String × Nat)) :
    readEdges strict nfa (earlier ++ later) =
      (readEdges strict nfa earlier >>= fun grown => readEdges strict grown later) := by
  fun_induction readEdges strict nfa earlier with
  | case1 nfa => rfl
  | case2 nfa line number rest blank ih => simp only [List.cons_append, readEdges, blank, ih]
  | case3 nfa line number rest source symbol target more words state failed =>
    simp only [List.cons_append, readEdges, words, failed]
    rfl
  | case4 nfa line number rest source symbol target more words next added declared ih =>
    simp only [List.cons_append, readEdges, words, added, if_pos declared, ih]
  | case5 nfa line number rest source symbol target more words next added undeclared =>
    simp only [List.cons_append, readEdges, words, added, if_neg undeclared]
    rfl
  | case6 nfa line number rest isStrict filled short =>
    simp only [List.cons_append, readEdges, isStrict]
    rfl
  | case7 nfa line number rest lenient filled short ih =>
    obtain rfl : strict = false := Bool.eq_false_iff.mpr lenient
    simp only [List.cons_append, readEdges, Bool.false_eq_true, if_false, ih, Outcome.bind_assoc]

/-- Reading stops at the line that the error names, when the lines before it have been read. -/
theorem exists_faulty_entry (failed : (readEdges strict nfa entries).result = .error cause) :
    ∃ before entry after grown, entries = before ++ entry :: after ∧ cause.line? = some entry.2 ∧
      readEdges strict nfa before = ⟨(readEdges strict nfa entries).events, .ok grown⟩ ∧
      readEdges strict grown [entry] = .fail cause := by
  fun_induction readEdges strict nfa entries with
  | case1 nfa => contradiction
  | case2 nfa line number rest blank ih =>
    obtain ⟨before, entry, after, grown, rfl, named, read, ended⟩ := ih failed
    refine ⟨(line, number) :: before, entry, after, grown, rfl, named, ?_, ended⟩
    simp only [readEdges, blank, read]
  | case3 nfa line number rest source symbol target more words state undeclared =>
    obtain rfl := Except.error.inj failed
    refine ⟨[], (line, number), rest, nfa, rfl, rfl, rfl, ?_⟩
    simp only [readEdges, words, undeclared]
  | case4 nfa line number rest source symbol target more words next added declared ih =>
    obtain ⟨before, entry, after, grown, rfl, named, read, ended⟩ := ih failed
    refine ⟨(line, number) :: before, entry, after, grown, rfl, named, ?_, ended⟩
    simp only [readEdges, words, added, if_pos declared, read]
  | case5 nfa line number rest source symbol target more words next added undeclared =>
    obtain rfl := Except.error.inj failed
    refine ⟨[], (line, number), rest, nfa, rfl, rfl, rfl, ?_⟩
    simp only [readEdges, words, added, if_neg undeclared]
  | case6 nfa line number rest isStrict filled short =>
    obtain rfl := Except.error.inj failed
    refine ⟨[], (line, number), rest, nfa, rfl, rfl, rfl, ?_⟩
    simp only [readEdges, isStrict, if_true]
  | case7 nfa line number rest lenient filled short ih =>
    obtain ⟨before, entry, after, grown, rfl, named, read, ended⟩ :=
      ih ((Outcome.result_report_bind ..).symm.trans failed)
    refine ⟨(line, number) :: before, entry, after, grown, rfl, named, ?_, ended⟩
    obtain rfl : strict = false := Bool.eq_false_iff.mpr lenient
    simp only [readEdges, Bool.false_eq_true, if_false, read]
    rfl

/-- What follows the line at which reading stops has no part in how it ends. -/
theorem readEdges_of_faulty_line {before : List String} {events : List Event}
    (read : readEdges strict nfa (before.zipIdx start) = ⟨events, .ok grown⟩)
    (ended : readEdges strict grown [(line, start + before.length)] = .fail cause)
    (after : List String) :
    readEdges strict nfa ((before ++ line :: after).zipIdx start) = ⟨events, .error cause⟩ := by
  rw [List.zipIdx_append, List.zipIdx_cons, readEdges_append, read, Outcome.bind_of_ok rfl,
    ← List.singleton_append, readEdges_append, ended, Outcome.bind_of_error rfl]
  simp [Outcome.fail]

/-- A blank line at the end adds nothing. -/
theorem readEdges_append_blank {events : List Event} (blank : Text.words line = [])
    (read : readEdges strict nfa (lines.zipIdx start) = ⟨events, .ok grown⟩) :
    readEdges strict nfa ((lines ++ [line]).zipIdx start) = ⟨events, .ok grown⟩ := by
  rw [List.zipIdx_append, List.zipIdx_singleton, readEdges_append, read, Outcome.bind_of_ok rfl]
  simp [readEdges, blank]

/-- An error at the lines after the heading names one of them. The lines before it are read, and all
lists of lines that agree up to it give the same error. -/
theorem readEdges_of_error
    (failed : (readEdges strict nfa (lines.zipIdx start)).result = .error cause) :
    ∃ place grown, cause.line? = some (start + place) ∧
      readEdges strict nfa ((lines.take place).zipIdx start) =
        ⟨(readEdges strict nfa (lines.zipIdx start)).events, .ok grown⟩ ∧
      ∀ {others : List String}, others.take (place + 1) = lines.take (place + 1) →
        readEdges strict nfa (others.zipIdx start) =
          ⟨(readEdges strict nfa (lines.zipIdx start)).events, .error cause⟩ := by
  obtain ⟨_, entry, _, grown, split, named, read, ended⟩ := exists_faulty_entry failed
  obtain ⟨before, _, rfl, rfl, later⟩ := List.zipIdx_eq_append_iff.mp split
  obtain ⟨line, after, rfl, rfl, rfl⟩ := List.zipIdx_eq_cons_iff.mp later.symm
  refine ⟨before.length, grown, named, by rwa [List.take_left], fun {others} same => ?_⟩
  rw [List.take_length_add_append] at same
  rw [← List.take_append_drop (before.length + 1) others, same, List.append_assoc]
  exact readEdges_of_faulty_line read ended _

/-- An error of the heading names one of its lines and does not depend on the lines after that. -/
theorem readHeader_of_error (failed : readHeader first second third = .error cause) :
    ∃ number ≤ 3, cause.line? = some number ∧ ∀ {one two three},
      [one, two, three].take number = [first, second, third].take number →
        readHeader one two three = .error cause := by
  have ended := failed
  simp only [readHeader] at ended
  split at ended
  · rename_i empty
    obtain rfl := Except.error.inj ended
    refine ⟨1, by decide, rfl, fun same => ?_⟩
    obtain ⟨rfl, _⟩ := same
    simp only [readHeader, empty, if_true]
  · rename_i filled
    split at ended
    · rename_i initial words
      split at ended
      · refine ⟨3, le_rfl, ?_, fun same => ?_⟩
        · split at ended
          · obtain rfl := Except.error.inj ended
            rfl
          · contradiction
        · obtain ⟨rfl, rfl, rfl, _⟩ := same
          exact failed
      · rename_i undeclared
        obtain rfl := Except.error.inj ended
        refine ⟨2, by decide, rfl, fun same => ?_⟩
        obtain ⟨rfl, rfl, _⟩ := same
        simp only [readHeader, if_neg filled, words, if_neg undeclared]
    · obtain rfl := Except.error.inj ended
      refine ⟨2, by decide, rfl, fun same => ?_⟩
      obtain ⟨rfl, rfl, _⟩ := same
      simp only [readHeader, if_neg filled]

/-- After a heading that is in order the other lines are read. -/
theorem ofText_eq_readEdges (visible : Text.isBlankText text = false)
    (lines_eq : Text.lines text = first :: second :: third :: lines) (more : lines ≠ [])
    (made : readHeader (Text.trim first) (Text.trim second) (Text.trim third) = .ok nfa) :
    ofText strict text = readEdges strict nfa ((lines.map Text.trim).zipIdx 4) := by
  rw [ofText_eq visible lines_eq more, made, Outcome.ofExcept_ok_bind]

/-- A text that is not blank has to have lines after the heading. -/
theorem ofText_of_few (visible : Text.isBlankText text = false)
    (few : (Text.lines text).length < 4) :
    ofText strict text = .fail (.tooFewLines (Text.lines text).length) := by
  rw [ofText, visible, if_neg Bool.false_ne_true, ← List.length_map (f := Text.trim)]
  split
  · rename_i lines_eq
    rw [← List.length_map (f := Text.trim), lines_eq] at few
    simp only [List.length_cons] at few
    omega
  · rfl

end NFA

end Determinizer
