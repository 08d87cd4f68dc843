import Determinizer.Proofs.NFA.Reading
import Determinizer.Proofs.Text.Runs

/-! # The grammar of descriptions

A text is a description if its lines are in order: the first declares states, the second names one
of them, the third names any of them, and each further line is blank or begins with an edge between
declared states. Strict reading accepts exactly the descriptions. What is read, strictly or
leniently, has the states and the edges that stand on the lines.
-/

namespace Determinizer

namespace Text

/-- The line at a place, counted from zero; it is empty past the end. -/
def lineAt (text : String) (place : Nat) : String := (lines text).getD place ""

/-- The lines after the first three. -/
def edgeLines (text : String) : List String := (lines text).drop 3

end Text

namespace NFA

/-- The line begins with an edge between states. -/
def BeginsWithEdge (states : List Name) (line : String) : Prop :=
  ∃ source symbol target rest, Text.words line = source :: symbol :: target :: rest ∧
    source ∈ states ∧ target ∈ states

/-- The text is in order, line by line. -/
structure IsDescription (text : String) : Prop where
  visible : Text.isBlankText text = false
  enough : 4 ≤ (Text.lines text).length
  declares : Text.words (Text.lineAt text 0) ≠ []
  initial : ∃ name ∈ Text.words (Text.lineAt text 0), Text.words (Text.lineAt text 1) = [name]
  finals : ∀ name ∈ Text.words (Text.lineAt text 2), name ∈ Text.words (Text.lineAt text 0)
  edges : ∀ line ∈ Text.edgeLines text, Text.isBlankText line = true ∨
    BeginsWithEdge (Text.words (Text.lineAt text 0)) line

/-- The automaton is the one that stands on the lines of the text. -/
structure IsGivenBy (nfa : NFA) (text : String) : Prop where
  states_eq : nfa.states = (Text.words (Text.lineAt text 0)).eraseDups
  initial_eq : Text.words (Text.lineAt text 1) = [nfa.initial]
  finals_eq : nfa.finals = (Text.words (Text.lineAt text 2)).eraseDups
  mem_targets_iff : ∀ source symbol target, target ∈ nfa.targets source symbol ↔
    ∃ line ∈ Text.edgeLines text, (Text.words line).take 3 = [source, symbol, target]

variable {strict : Bool} {nfa : NFA} {source target : Name} {symbol : Symbol}
  {line text first second third : String} {lines : List String}

theorem edgeOn?_eq_some_iff : edgeOn? line = some (source, symbol, target) ↔
    (Text.words line).take 3 = [source, symbol, target] := by
  rw [edgeOn?]
  split
  · rename_i words
    simp [words]
  · rename_i short
    refine iff_of_false (by simp) fun taken => ?_
    obtain ⟨rest, words⟩ : ∃ rest, Text.words line = source :: symbol :: target :: rest :=
      ⟨(Text.words line).drop 3, by rw [← List.take_append_drop 3 (Text.words line), taken]; rfl⟩
    exact short _ _ _ _ words

/-- In strict reading a line is blank or begins with an edge. -/
theorem readable_true_iff {states : List Name} : Readable true states line ↔
    Text.isBlankText line = true ∨ BeginsWithEdge states line := by
  rw [← Text.words_eq_nil_iff, Readable, BeginsWithEdge]
  split
  · rename_i words
    simp [words]
  · rename_i words
    simp [words]
  · rename_i filled short
    simp only [Bool.true_eq_false, false_iff, not_or]
    refine ⟨filled, ?_⟩
    rintro ⟨_, _, _, _, words, _⟩
    exact short _ _ _ _ words

/-- The first three lines of a text with its other lines. -/
theorem lineAt_of_lines (lines_eq : Text.lines text = first :: second :: third :: lines) :
    Text.lineAt text 0 = first ∧ Text.lineAt text 1 = second ∧ Text.lineAt text 2 = third ∧
      Text.edgeLines text = lines := by
  simp [Text.lineAt, Text.edgeLines, lines_eq]

/-- What is read is what stands on the lines. -/
theorem isGivenBy_of_ofText (read : (ofText strict text).result = .ok nfa) :
    nfa.IsGivenBy text := by
  obtain ⟨first, second, third, lines, lines_eq, _, described⟩ := describes_of_ofText read
  obtain ⟨rfl, rfl, rfl, rfl⟩ := lineAt_of_lines lines_eq
  refine ⟨described.states_eq, described.heading.initial_eq, described.finals_eq, ?_⟩
  intro source symbol target
  simp only [described.mem_targets_iff, edgeOn?_eq_some_iff]

/-- A text that is read strictly is in order. -/
theorem isDescription_of_ofText (read : (ofText true text).result = .ok nfa) :
    IsDescription text := by
  obtain ⟨first, second, third, lines, lines_eq, more, described⟩ := describes_of_ofText read
  have initial_mem := described.heading.initial_declared
  have visible : Text.isBlankText text = false :=
    Text.isBlankText_eq_false (lines_eq ▸ List.mem_cons_self) initial_mem
  have enough : 4 ≤ (Text.lines text).length := by
    have some := List.length_pos_of_ne_nil more
    rw [lines_eq]
    simp only [List.length_cons]
    omega
  obtain ⟨rfl, rfl, rfl, rfl⟩ := lineAt_of_lines lines_eq
  refine ⟨visible, enough, List.ne_nil_of_mem initial_mem,
    ⟨_, initial_mem, described.heading.initial_eq⟩, described.heading.finals_declared, ?_⟩
  intro line member
  have readable := readable_true_iff.mp (described.readable line member)
  simpa only [BeginsWithEdge, described.states_eq, List.mem_eraseDups] using readable

/-- A text in order is read strictly. -/
theorem exists_ofText_of_isDescription (description : IsDescription text) :
    ∃ nfa, (ofText true text).result = .ok nfa := by
  obtain ⟨first, second, third, fourth, rest, lines_eq⟩ :
      ∃ first second third fourth rest,
        Text.lines text = first :: second :: third :: fourth :: rest := by
    match lines_eq : Text.lines text with
    | [] | [_] | [_, _] | [_, _, _] => simpa [lines_eq] using description.enough
    | first :: second :: third :: fourth :: rest => exact ⟨_, _, _, _, _, rfl⟩
  obtain ⟨_, _, _, ⟨initial, declared, alone⟩, finals, edges⟩ := description
  obtain ⟨first_eq, second_eq, third_eq, edges_eq⟩ := lineAt_of_lines lines_eq
  rw [first_eq] at declared finals edges
  rw [second_eq] at alone
  rw [third_eq] at finals
  rw [edges_eq] at edges
  refine exists_ofText lines_eq (List.cons_ne_nil _ _) ⟨alone, declared, finals⟩ ?_
  intro line member
  rw [readable_true_iff]
  simpa only [BeginsWithEdge, List.mem_eraseDups] using edges line member

/-- Strict reading accepts exactly the descriptions, and reads the automaton that they give. Lines
are what stands between line feeds, and words are maximal runs of characters that are not blank. -/
theorem ofText_strict_accepts_descriptions (text : String) :
    Text.HasLines text (Text.lines text) ∧ (∀ line, Text.HasWords line (Text.words line)) ∧
      ((∃ nfa, (ofText true text).result = .ok nfa) ↔ IsDescription text) ∧
      ∀ nfa, (ofText true text).result = .ok nfa → nfa.IsGivenBy text := by
  refine ⟨Text.lines_eq_iff.mp rfl, fun line => Text.words_eq_iff.mp rfl,
    ⟨?_, exists_ofText_of_isDescription⟩, fun nfa => isGivenBy_of_ofText⟩
  rintro ⟨nfa, read⟩
  exact isDescription_of_ofText read

end NFA

end Determinizer
