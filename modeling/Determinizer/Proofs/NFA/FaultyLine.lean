import Determinizer.Proofs.NFA.Progress
import Determinizer.Proofs.Text.Runs

/-! # An error is found at the first line that is out of order

An error that names a line is the same for all texts that begin with the same lines up to it, and
the text that is cut off before this line can be read. So the line is the first that is out of
order, and what follows it has no part in the error.
-/

namespace Determinizer

namespace Text

/-- The lines before the one with a number, counted from one, and an empty line in place of the
rest. -/
def cutBefore (number : Nat) (text : String) : String :=
  "\n".intercalate ((lines text).take (number - 1) ++ [""])

theorem lines_cutBefore (number : Nat) (text : String) :
    lines (cutBefore number text) = (lines text).take (number - 1) ++ [""] := by
  have known : ∀ part ∈ (lines text).take (number - 1) ++ [""], part = "" ∨ part ∈ lines text := by
    intro part member
    rcases List.mem_append.mp member with inside | last
    · exact .inr (List.mem_of_mem_take inside)
    · exact .inl (List.mem_singleton.mp last)
  exact lines_intercalate_of_mem (by simp) known

end Text

namespace NFA

/-- Reading a text ends with an error at the line with a number: it ends so for all texts with the
same lines up to this one, and if the line is after the heading then what is before it is read. -/
structure StopsAt (strict : Bool) (text : String) (number : Nat) (cause : Error) : Prop where
  unaffected : ∀ other, Text.isBlankText other = false → 4 ≤ (Text.lines other).length →
    (Text.lines other).take number = (Text.lines text).take number →
      ofText strict other = ⟨(ofText strict text).events, .error cause⟩
  readBefore : 4 ≤ number → ∃ nfa,
    ofText strict (Text.cutBefore number text) = ⟨(ofText strict text).events, .ok nfa⟩

variable {strict : Bool} {empty : NFA} {cause : Error} {number : Nat}
  {text first second third : String} {lines : List String}

/-- Only a text with enough lines, not all of them blank, has an error at a line. -/
theorem enough_of_line? (failed : (ofText strict text).result = .error cause)
    (named : cause.line? = some number) :
    Text.isBlankText text = false ∧ 4 ≤ (Text.lines text).length := by
  have visible : Text.isBlankText text = false := by
    by_contra blank
    rw [ofText, if_pos (by simpa using blank)] at failed
    obtain rfl := Except.error.inj failed
    contradiction
  refine ⟨visible, ?_⟩
  by_contra few
  rw [ofText_of_few visible (Nat.lt_of_not_le few)] at failed
  obtain rfl := Except.error.inj failed
  contradiction

theorem stopsAt_of_readHeader (visible : Text.isBlankText text = false)
    (lines_eq : Text.lines text = first :: second :: third :: lines) (more : lines ≠ [])
    (failed : readHeader (Text.trim first) (Text.trim second) (Text.trim third) = .error cause)
    (named : cause.line? = some number) : StopsAt strict text number cause := by
  obtain ⟨place, small, at_place, elsewhere⟩ := readHeader_of_error failed
  obtain rfl : place = number := Option.some.inj (at_place.symm.trans named)
  have ended : ofText strict text = .fail cause := by
    rw [ofText_eq visible lines_eq more, failed]
    rfl
  refine ⟨fun other otherVisible enough same => ?_, fun large => by omega⟩
  obtain ⟨one, two, three, others, other_eq, otherMore⟩ := Text.exists_lines enough
  have take_heading : ∀ (a b c : String) (rest : List String),
      (a :: b :: c :: rest).take place = [a, b, c].take place := by
    intro a b c rest
    have inHeading : place ≤ [a, b, c].length := small
    exact List.take_append_of_le_length inHeading
  have sameHeading : [one, two, three].take place = [first, second, third].take place := by
    rw [← take_heading one two three others, ← take_heading first second third lines, ← other_eq,
      ← lines_eq, same]
  have trimmed := congrArg (List.map Text.trim) sameHeading
  rw [List.map_take, List.map_take] at trimmed
  rw [ofText_eq otherVisible other_eq otherMore, elsewhere trimmed, ended]
  rfl

theorem stopsAt_of_readEdges (visible : Text.isBlankText text = false)
    (lines_eq : Text.lines text = first :: second :: third :: lines) (more : lines ≠ [])
    (made : readHeader (Text.trim first) (Text.trim second) (Text.trim third) = .ok empty)
    (failed : (readEdges strict empty ((lines.map Text.trim).zipIdx 4)).result = .error cause)
    (named : cause.line? = some number) : StopsAt strict text number cause := by
  obtain ⟨place, grown, at_place, read, elsewhere⟩ := readEdges_of_error failed
  obtain rfl : 4 + place = number := Option.some.inj (at_place.symm.trans named)
  have whole : ofText strict text = readEdges strict empty ((lines.map Text.trim).zipIdx 4) :=
    ofText_eq_readEdges visible lines_eq more made
  refine ⟨fun other otherVisible enough same => ?_, fun _ => ⟨grown, ?_⟩⟩
  · obtain ⟨one, two, three, others, other_eq, otherMore⟩ := Text.exists_lines enough
    rw [lines_eq, other_eq, Nat.add_comm] at same
    simp only [List.take_succ_cons, List.cons.injEq] at same
    obtain ⟨rfl, rfl, rfl, sameLines⟩ := same
    have sameTrimmed : (others.map Text.trim).take (place + 1) =
        (lines.map Text.trim).take (place + 1) := by
      rw [← List.map_take, sameLines, List.map_take]
    rw [ofText_eq_readEdges otherVisible other_eq otherMore made, whole]
    exact elsewhere sameTrimmed
  · have cut_eq : Text.lines (Text.cutBefore (4 + place) text) =
        first :: second :: third :: (lines.take place ++ [""]) := by
      rw [Text.lines_cutBefore, lines_eq, Nat.add_comm]
      rfl
    -- the heading is left, and it has a state
    obtain ⟨initial, heading, _⟩ := readHeader_eq_ok_iff.mp made
    have cutVisible : Text.isBlankText (Text.cutBefore (4 + place) text) = false :=
      Text.isBlankText_eq_false (cut_eq ▸ List.mem_cons_self)
        (heading_trim_iff.mp heading).initial_declared
    rw [ofText_eq_readEdges cutVisible cut_eq (by simp) made, whole, List.map_append,
      List.map_take]
    exact readEdges_append_blank (Text.words_trim "") read

/-- An error that names a line is found there: later lines have no part in it, and the lines after
the heading and before it are read. -/
theorem ofText_stopsAt (failed : (ofText strict text).result = .error cause)
    (named : cause.line? = some number) : StopsAt strict text number cause := by
  obtain ⟨visible, enough⟩ := enough_of_line? failed named
  obtain ⟨first, second, third, lines, lines_eq, more⟩ := Text.exists_lines enough
  rw [result_ofText visible lines_eq more] at failed
  cases made : readHeader (Text.trim first) (Text.trim second) (Text.trim third) with
  | error headingCause =>
    rw [made] at failed
    obtain rfl := Except.error.inj failed
    exact stopsAt_of_readHeader visible lines_eq more made named
  | ok empty =>
    rw [made] at failed
    exact stopsAt_of_readEdges visible lines_eq more made failed named

/-- A short line, an edge, an edge to a state that is not declared, and a line that is not read. -/
private def foreignTarget : String := "A B\nA\n\nA 0\nA 0 B\nB 1 C\nD\n"

theorem ofText_stopsAt_foreignTarget :
    (ofText false foreignTarget).result = .error (.undeclaredState 6 "C") ∧
      (Error.undeclaredState 6 "C").line? = some 6 ∧
      StopsAt false foreignTarget 6 (.undeclaredState 6 "C") ∧
      ofText false "A B\nA\n\nA 0\nA 0 B\nB 1 C\nA 1 A" =
        ⟨[.lineSkipped 4 "A 0"], .error (.undeclaredState 6 "C")⟩ ∧
      ∃ nfa, ofText false "A B\nA\n\nA 0\nA 0 B\n" = ⟨[.lineSkipped 4 "A 0"], .ok nfa⟩ := by
  have failed : (ofText false foreignTarget).result = .error (.undeclaredState 6 "C") := by
    decide +kernel
  have events_eq : (ofText false foreignTarget).events = [.lineSkipped 4 "A 0"] := by decide +kernel
  have cut_eq : Text.cutBefore 6 foreignTarget = "A B\nA\n\nA 0\nA 0 B\n" := by decide +kernel
  have stops := ofText_stopsAt failed rfl
  refine ⟨failed, rfl, stops, ?_, ?_⟩
  · rw [← events_eq]
    exact stops.unaffected _ (by decide +kernel) (by decide +kernel) (by decide +kernel)
  · rw [← events_eq, ← cut_eq]
    exact stops.readBefore (by decide)

end NFA

end Determinizer
