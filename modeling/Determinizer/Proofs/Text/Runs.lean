import Determinizer.Proofs.Text.Words

/-! # What lines and words are

The lines of a text are the texts without line feeds that give it back when line feeds join them.
Its words are its maximal runs of characters that are not blank. Both are determined by this.
-/

namespace Determinizer.Text

/-- Cutting a text into its maximal runs of characters that are not blank. -/
inductive Runs : List Char → List (List Char) → Prop
  | nil : Runs [] []
  | blank {c : Char} {rest : List Char} {runs : List (List Char)} (isBlank : isBlank c = true)
      (later : Runs rest runs) : Runs (c :: rest) runs
  | run {run rest : List Char} {runs : List (List Char)} (filled : run ≠ [])
      (visible : ∀ c ∈ run, isBlank c = false) (ends : ∀ c, rest.head? = some c → isBlank c = true)
      (later : Runs rest runs) : Runs (run ++ rest) (run :: runs)

/-- These are the lines of the text: they hold no line feeds, and joined by line feeds they give it
back. -/
def HasLines (text : String) (parts : List String) : Prop :=
  parts ≠ [] ∧ (∀ part ∈ parts, '\n' ∉ part.toList) ∧ "\n".intercalate parts = text

/-- These are the words of the text, its maximal runs of characters that are not blank. -/
def HasWords (text : String) (parts : List String) : Prop :=
  Runs text.toList (parts.map String.toList)

/-- Joining the pieces by the character at which they were cut gives the text back. -/
theorem intercalate_pieces (c : Char) (text : List Char) :
    [c].intercalate (pieces (· == c) text) = text := by
  induction text with
  | nil => rfl
  | cons d rest ih =>
    rw [pieces_cons]
    cases found : pieces (· == c) rest with
    | nil => exact absurd found (pieces_ne_nil _ rest)
    | cons first others =>
      rw [found] at ih
      split
      · rename_i cut
        rw [List.intercalate_cons_cons, ih, beq_iff_eq.mp cut]
        rfl
      · rw [List.modifyHead_cons, ← ih]
        cases others <;> rfl

/-- The lines of a text are what it is joined from by line feeds. -/
theorem lines_eq_iff {text : String} {parts : List String} :
    lines text = parts ↔ HasLines text parts := by
  constructor
  · rintro rfl
    refine ⟨by simp [lines, pieces_ne_nil], ?_, ?_⟩
    · simp only [lines, List.forall_mem_map, String.toList_ofList]
      intro piece member inside
      simpa using not_cut_of_mem_pieces member '\n' inside
    · apply String.toList_injective
      rw [String.toList_intercalate, lines, List.map_map]
      simpa [Function.comp_def] using! intercalate_pieces '\n' text.toList
  · rintro ⟨nonempty, oneLine, rfl⟩
    rw [lines, String.toList_intercalate]
    change List.map String.ofList (pieces _ (['\n'].intercalate _)) = parts
    rw [pieces_intercalate (by decide) (by simpa using nonempty), map_ofList_map_toList]
    intro part member c inside
    obtain ⟨line, present, rfl⟩ := List.mem_map.mp member
    exact beq_eq_false_iff_ne.mpr fun same => oneLine line present (same ▸ inside)

/-- Lines of a text, and empty lines, are joined to a text with just these lines. -/
theorem lines_intercalate_of_mem {text : String} {parts : List String} (nonempty : parts ≠ [])
    (known : ∀ part ∈ parts, part = "" ∨ part ∈ lines text) :
    lines ("\n".intercalate parts) = parts := by
  refine lines_eq_iff.mpr ⟨nonempty, fun part member => ?_, rfl⟩
  rcases known part member with rfl | onText
  · simp
  · exact (lines_eq_iff.mp rfl).2.1 part onText

/-- The pieces between blanks that are not empty are the maximal runs. -/
theorem wordPieces_of_runs {text : List Char} {runs : List (List Char)} (cut : Runs text runs) :
    (pieces isBlank text).filter (!·.isEmpty) = runs := by
  induction cut with
  | nil => rfl
  | blank isBlank _ ih =>
    rw [pieces_cons, if_pos isBlank]
    exact ih
  | @run run rest runs filled visible ends _ ih =>
    have kept : [run].filter (!·.isEmpty) = [run] := by simpa using filled
    cases rest with
    | nil =>
      obtain rfl : [] = runs := ih
      rw [List.append_nil, pieces_eq_singleton visible, kept]
    | cons c rest =>
      have cut : isBlank c = true := ends c rfl
      rw [pieces_cons, if_pos cut] at ih
      rw [pieces_append_cons cut, pieces_eq_singleton visible, List.filter_append, kept, ← ih]
      rfl

/-- Each text can be cut into runs. -/
theorem exists_runs (text : List Char) : ∃ runs, Runs text runs := by
  induction text with
  | nil => exact ⟨[], .nil⟩
  | cons c rest ih =>
    obtain ⟨runs, cut⟩ := ih
    by_cases blank : isBlank c = true
    · exact ⟨runs, .blank blank cut⟩
    have visible : ∀ d ∈ [c], isBlank d = false := by simpa using blank
    -- a run that begins the rest grows, and otherwise the character is a run of its own
    cases cut with
    | nil => exact ⟨[[c]], .run (List.cons_ne_nil c []) visible nofun .nil⟩
    | @blank d rest _ dBlank later =>
      refine ⟨[c] :: runs, .run (List.cons_ne_nil c []) visible ?_ (.blank dBlank later)⟩
      rintro _ ⟨⟩
      exact dBlank
    | @run run rest others filled runVisible ends later =>
      refine ⟨(c :: run) :: others, .run (List.cons_ne_nil c run) ?_ ends later⟩
      exact List.forall_mem_cons.mpr ⟨visible c List.mem_cons_self, runVisible⟩

/-- The words of a text are its maximal runs of characters that are not blank. -/
theorem words_eq_iff {text : String} {parts : List String} :
    words text = parts ↔ HasWords text parts := by
  rw [HasWords]
  obtain ⟨runs, cut⟩ := exists_runs text.toList
  have words_eq : words text = runs.map String.ofList := by
    rw [words, wordPieces_of_runs cut]
  constructor
  · rintro rfl
    rw [words_eq, List.map_map]
    simpa [Function.comp_def] using! cut
  · intro also
    rw [words, wordPieces_of_runs also, map_ofList_map_toList]

/-- A text without words holds nothing but blanks. -/
theorem words_eq_nil_iff {text : String} : words text = [] ↔ isBlankText text = true := by
  rw [words, List.map_eq_nil_iff, isBlankText]
  induction text.toList with
  | nil => simp
  | cons c rest ih =>
    rw [pieces_cons, List.all_cons]
    cases isBlank c with
    | true => simpa using ih
    | false =>
      cases found : pieces isBlank rest with
      | nil => exact absurd found (pieces_ne_nil _ rest)
      | cons first others => simp

end Determinizer.Text
