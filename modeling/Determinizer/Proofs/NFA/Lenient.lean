import Determinizer.Proofs.NFA.Grammar
import Determinizer.Proofs.NFA.Progress

/-! # Lenient reading is strict reading without the short lines

A line with one or two words is too short for an edge. Lenient reading of a text ends as strict
reading of the text in which these lines are empty, also if it ends with an error. It reports each
of them that comes before the line of the error, and strict reading reports nothing.
-/

namespace Determinizer

namespace Text

/-- The line has words, but not enough for an edge. -/
def IsShort (line : String) : Prop := (words line).length = 1 ∨ (words line).length = 2

instance : DecidablePred IsShort := fun line =>
  inferInstanceAs (Decidable ((words line).length = 1 ∨ (words line).length = 2))

/-- An empty line in place of a short one. -/
def blanked (line : String) : String := if IsShort line then "" else line

/-- The text with its short lines made empty, except for the heading. -/
def withoutShortLines (text : String) : String :=
  "\n".intercalate ((lines text).take 3 ++ (edgeLines text).map blanked)

/-- A line that has words, but not three, is short. -/
theorem isShort_of_words {line : String} (filled : words line ≠ [])
    (few : ∀ first second third rest, words line ≠ first :: second :: third :: rest) :
    IsShort line := by
  rw [IsShort]
  match words_eq : words line with
  | [] => contradiction
  | [_] => exact .inl rfl
  | [_, _] => exact .inr rfl
  | first :: second :: third :: rest => exact absurd words_eq (few first second third rest)

theorem not_isShort_of_blank {line : String} (blank : words line = []) : ¬ IsShort line := by
  simp [IsShort, blank]

theorem not_isShort_of_words {line first second third : String} {rest : List String}
    (words_eq : words line = first :: second :: third :: rest) : ¬ IsShort line := by
  simp [IsShort, words_eq]

theorem blanked_of_short {line : String} (short : IsShort line) : blanked line = "" := if_pos short

theorem blanked_of_not_short {line : String} (long : ¬ IsShort line) : blanked line = line :=
  if_neg long

theorem blanked_trim (line : String) : blanked (trim line) = trim (blanked line) := by
  have same : IsShort (trim line) ↔ IsShort line := by rw [IsShort, IsShort, words_trim]
  by_cases short : IsShort line
  · rw [blanked_of_short short, blanked_of_short (same.mpr short)]
    rfl
  · rw [blanked_of_not_short short, blanked_of_not_short (mt same.mp short)]

theorem lines_withoutShortLines (text : String) :
    lines (withoutShortLines text) = (lines text).take 3 ++ (edgeLines text).map blanked := by
  have nonempty : lines text ≠ [] := (lines_eq_iff.mp rfl).1
  have known : ∀ part ∈ (lines text).take 3 ++ (edgeLines text).map blanked,
      part = "" ∨ part ∈ lines text := by
    intro part member
    rcases List.mem_append.mp member with inHeading | later
    · exact .inr (List.mem_of_mem_take inHeading)
    · obtain ⟨line, inside, rfl⟩ := List.mem_map.mp later
      rw [blanked]
      split
      · exact .inl rfl
      · exact .inr (List.mem_of_mem_drop inside)
  exact lines_intercalate_of_mem (by simp [nonempty]) known

end Text

namespace NFA

/-- The short lines after the heading, without blanks at their ends, and their numbers. -/
def shortLines (text : String) : List (String × Nat) :=
  (((Text.edgeLines text).map Text.trim).zipIdx 4).filter fun entry => Text.IsShort entry.1

/-- Whether reading went on after the line with a number. -/
def goesPast (number : Nat) : Except Error NFA → Bool
  | .ok _ => true
  | .error cause => cause.line?.any (number < ·)

variable {nfa grown : NFA} {text : String} {lines : List String} {entries : List (String × Nat)}

/-- Where the short lines are empty, strict reading ends as lenient reading did. -/
theorem readEdges_blanked (nfa : NFA) (entries : List (String × Nat)) :
    readEdges true nfa (entries.map (Prod.map Text.blanked id)) =
      ⟨[], (readEdges false nfa entries).result⟩ := by
  fun_induction readEdges false nfa entries with
  | case1 nfa => rfl
  | case2 nfa line number rest blank ih =>
    have kept := Text.blanked_of_not_short (Text.not_isShort_of_blank blank)
    simp only [List.map_cons, Prod.map_apply, kept, readEdges, blank, ih]
  | case3 nfa line number rest source symbol target more words state failed =>
    have kept := Text.blanked_of_not_short (Text.not_isShort_of_words words)
    simp only [List.map_cons, Prod.map_apply, kept, readEdges, words, failed]
    rfl
  | case4 nfa line number rest source symbol target more words next added declared ih =>
    have kept := Text.blanked_of_not_short (Text.not_isShort_of_words words)
    simp only [List.map_cons, Prod.map_apply, kept, readEdges, words, added, if_pos declared, ih]
  | case5 nfa line number rest source symbol target more words next added undeclared =>
    have kept := Text.blanked_of_not_short (Text.not_isShort_of_words words)
    simp only [List.map_cons, Prod.map_apply, kept, readEdges, words, added, if_neg undeclared]
    rfl
  | case6 nfa line number rest isStrict filled short => contradiction
  | case7 nfa line number rest lenient filled short ih =>
    have blank : Text.words (Text.blanked line) = [] := by
      rw [Text.blanked_of_short (Text.isShort_of_words filled short)]
      exact Text.words_eq_nil_iff.mpr rfl
    simp only [List.map_cons, Prod.map_apply, readEdges, blank, ih, Outcome.result_report_bind]

/-- What is read to the end leniently has all its short lines reported. -/
theorem events_readEdges_of_ok (read : (readEdges false nfa entries).result = .ok grown) :
    (readEdges false nfa entries).events =
      (entries.filter fun entry => Text.IsShort entry.1).map
        fun entry => .lineSkipped entry.2 entry.1 := by
  fun_induction readEdges false nfa entries with
  | case1 nfa => rfl
  | case2 nfa line number rest blank ih =>
    rw [List.filter_cons_of_neg (by simpa using Text.not_isShort_of_blank blank)]
    exact ih read
  | case3 nfa line number rest source symbol target more words state failed => contradiction
  | case4 nfa line number rest source symbol target more words next added declared ih =>
    rw [List.filter_cons_of_neg (by simpa using Text.not_isShort_of_words words)]
    exact ih read
  | case5 nfa line number rest source symbol target more words next added undeclared =>
    contradiction
  | case6 nfa line number rest isStrict filled short => contradiction
  | case7 nfa line number rest lenient filled short ih =>
    rw [List.filter_cons_of_pos (by simpa using Text.isShort_of_words filled short), List.map_cons,
      ← ih ((Outcome.result_report_bind ..).symm.trans read)]
    rfl

/-- The lines with a number below a bound are the first ones. -/
theorem filter_zipIdx_lt (lines : List String) (start place : Nat) :
    (lines.zipIdx start).filter (fun entry => entry.2 < start + place) =
      (lines.take place).zipIdx start := by
  induction lines generalizing start place with
  | nil => simp
  | cons line rest ih =>
    cases place with
    | zero =>
      rw [List.take_zero, List.zipIdx_nil, List.filter_eq_nil_iff]
      intro entry member
      simpa using List.le_snd_of_mem_zipIdx member
    | succ place =>
      rw [List.zipIdx_cons, List.filter_cons_of_pos (by simp), List.take_succ_cons,
        List.zipIdx_cons, ← ih, Nat.add_right_comm, Nat.add_assoc]

/-- The short lines up to where lenient reading ends are reported. -/
theorem events_readEdges_false (nfa : NFA) (lines : List String) (start : Nat) :
    (readEdges false nfa (lines.zipIdx start)).events =
      (((lines.zipIdx start).filter fun entry => Text.IsShort entry.1).filter fun entry =>
        goesPast entry.2 (readEdges false nfa (lines.zipIdx start)).result).map
          fun entry => .lineSkipped entry.2 entry.1 := by
  cases ended : (readEdges false nfa (lines.zipIdx start)).result with
  | ok grown => simpa [goesPast] using events_readEdges_of_ok ended
  | error cause =>
    obtain ⟨place, grown, named, read, _⟩ := readEdges_of_error ended
    have before := events_readEdges_of_ok (congrArg Outcome.result read)
    rw [read] at before
    rw [List.filter_comm]
    simpa only [goesPast, named, Option.any_some, filter_zipIdx_lt] using before

/-- A text with a word on its first line is not blank. -/
theorem visible_of_declares (declares : Text.words (Text.lineAt text 0) ≠ []) :
    Text.isBlankText text = false := by
  obtain ⟨first, rest, lines_eq⟩ :=
    List.exists_cons_of_ne_nil (Text.lines_eq_iff.mp (rfl : Text.lines text = _)).1
  have first_eq : Text.lineAt text 0 = first := by simp [Text.lineAt, lines_eq]
  rw [first_eq] at declares
  obtain ⟨word, member⟩ := List.exists_mem_of_ne_nil _ declares
  exact Text.isBlankText_eq_false (lines_eq ▸ List.mem_cons_self) member

/-- A text with a heading alone is not changed when short lines are made empty. -/
theorem withoutShortLines_of_few (few : (Text.lines text).length < 4) :
    Text.edgeLines text = [] ∧ Text.withoutShortLines text = text := by
  have none : Text.edgeLines text = [] := List.drop_eq_nil_of_le (Nat.le_of_lt_succ few)
  refine ⟨none, ?_⟩
  rw [Text.withoutShortLines, none, List.map_nil, List.append_nil,
    List.take_of_length_le (Nat.le_of_lt_succ few)]
  exact (Text.lines_eq_iff.mp rfl).2.2

/-- Strict reading without the short lines ends as lenient reading does, and reports nothing. -/
theorem ofText_withoutShortLines (declares : Text.words (Text.lineAt text 0) ≠ []) :
    ofText true (Text.withoutShortLines text) = ⟨[], (ofText false text).result⟩ := by
  have visible := visible_of_declares declares
  by_cases enough : 4 ≤ (Text.lines text).length
  · obtain ⟨first, second, third, lines, lines_eq, more⟩ := Text.exists_lines enough
    obtain ⟨first_eq, _, _, edges_eq⟩ := lineAt_of_lines lines_eq
    have blanked_eq : Text.lines (Text.withoutShortLines text) =
        first :: second :: third :: lines.map Text.blanked := by
      rw [Text.lines_withoutShortLines, lines_eq, edges_eq]
      rfl
    have blankedVisible : Text.isBlankText (Text.withoutShortLines text) = false := by
      apply visible_of_declares
      rwa [(lineAt_of_lines blanked_eq).1, ← first_eq]
    have trimmed : ((lines.map Text.blanked).map Text.trim).zipIdx 4 =
        ((lines.map Text.trim).zipIdx 4).map (Prod.map Text.blanked id) := by
      rw [← List.zipIdx_map, List.map_map, List.map_map]
      simp only [Function.comp_def, Text.blanked_trim]
    rw [ofText_eq visible lines_eq more,
      ofText_eq blankedVisible blanked_eq (by simpa using more), trimmed]
    cases readHeader (Text.trim first) (Text.trim second) (Text.trim third) with
    | error cause => rfl
    | ok empty => exact readEdges_blanked empty _
  · have few := Nat.lt_of_not_le enough
    rw [(withoutShortLines_of_few few).2, ofText_of_few visible few, ofText_of_few visible few]
    rfl

/-- Lenient reading reports the short lines up to where it ends. -/
theorem events_ofText_false (declares : Text.words (Text.lineAt text 0) ≠ []) :
    (ofText false text).events =
      ((shortLines text).filter fun entry => goesPast entry.2 (ofText false text).result).map
        fun entry => .lineSkipped entry.2 entry.1 := by
  have visible := visible_of_declares declares
  by_cases enough : 4 ≤ (Text.lines text).length
  · obtain ⟨first, second, third, lines, lines_eq, more⟩ := Text.exists_lines enough
    rw [shortLines, (lineAt_of_lines lines_eq).2.2.2, ofText_eq visible lines_eq more]
    cases made : readHeader (Text.trim first) (Text.trim second) (Text.trim third) with
    | error cause =>
      obtain ⟨number, small, named, _⟩ := readHeader_of_error made
      rw [Outcome.bind_of_error rfl, Outcome.ofExcept, eq_comm, List.map_eq_nil_iff,
        List.filter_eq_nil_iff]
      intro entry member
      have after := List.le_snd_of_mem_zipIdx (List.mem_of_mem_filter member)
      simp only [goesPast, named, Option.any_some, decide_eq_true_eq]
      omega
    | ok empty => exact events_readEdges_false empty _ 4
  · have few := Nat.lt_of_not_le enough
    rw [shortLines, (withoutShortLines_of_few few).1, ofText_of_few visible few]
    rfl

/-- Lenient reading of a text with a state on its first line ends as strict reading does when the
short lines are made empty, and reports the short lines up to where it ends. What is read strictly
is read leniently in the same way, and nothing is reported. -/
theorem ofText_lenient (declares : Text.words (Text.lineAt text 0) ≠ []) :
    ofText true (Text.withoutShortLines text) = ⟨[], (ofText false text).result⟩ ∧
      (ofText false text).events =
        ((shortLines text).filter fun entry => goesPast entry.2 (ofText false text).result).map
          (fun entry => .lineSkipped entry.2 entry.1) ∧
      ∀ nfa, (ofText true text).result = .ok nfa → ofText false text = ⟨[], .ok nfa⟩ :=
  ⟨ofText_withoutShortLines declares, events_ofText_false declares,
    fun _ read => ofText_eq_of_strict read false⟩

/-- Two short lines, an edge to a state that is not declared, and one more short line. -/
private def shortAndForeign : String := "A B\nA\n\n A 0 \n\nB\nA 0 B\nB 1 C\nA 1\n"

theorem ofText_lenient_shortAndForeign :
    Text.words (Text.lineAt shortAndForeign 0) ≠ [] ∧
      ofText true (Text.withoutShortLines shortAndForeign) =
        ⟨[], .error (.undeclaredState 8 "C")⟩ ∧
      (ofText false shortAndForeign).result = .error (.undeclaredState 8 "C") ∧
      (ofText false shortAndForeign).events = [.lineSkipped 4 "A 0", .lineSkipped 6 "B"] := by
  have declares : Text.words (Text.lineAt shortAndForeign 0) ≠ [] := by decide +kernel
  have ended : (ofText false shortAndForeign).result = .error (.undeclaredState 8 "C") := by
    decide +kernel
  have reported : ((shortLines shortAndForeign).filter fun entry =>
      goesPast entry.2 (.error (.undeclaredState 8 "C"))) = [("A 0", 4), ("B", 6)] := by
    decide +kernel
  obtain ⟨strict_eq, events_eq, _⟩ := ofText_lenient declares
  rw [ended] at strict_eq events_eq
  rw [reported] at events_eq
  exact ⟨declares, strict_eq, ended, events_eq⟩

end NFA

end Determinizer
