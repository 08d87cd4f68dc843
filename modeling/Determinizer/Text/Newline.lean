import Determinizer.Text.Blank

/-! # Line ends

A carriage return ends a line, alone or together with the line feed that follows it. Reading a file
turns each line end into one line feed.
-/

namespace Determinizer.Text

/-- What follows a carriage return, without the line feed that belongs to the same line end. -/
def withoutFeed : List Char → List Char
  | '\n' :: rest => rest
  | text => text

/-- The characters with every line end made a line feed. -/
def unifyLineEnds (text : List Char) : List Char :=
  match pieces (· == '\r') text with
  | [] => []
  | first :: others => first ++ others.flatMap fun piece => '\n' :: withoutFeed piece

/-- A text with every line end made a line feed. -/
def withLineFeeds (text : String) : String :=
  String.ofList (unifyLineEnds text.toList)

/-- A text without the line feed at its end. -/
def withoutFinalFeed (text : List Char) : List Char :=
  if text.getLast? == some '\n' then text.dropLast else text

/-- A text without carriage returns stays as it is. -/
theorem unifyLineEnds_eq_self {text : List Char} (noReturn : '\r' ∉ text) :
    unifyLineEnds text = text := by
  have uncut : ∀ c ∈ text, (c == '\r') = false := by
    intro c member
    simp only [beq_eq_false_iff_ne]
    rintro rfl
    exact noReturn member
  rw [unifyLineEnds, pieces_eq_singleton uncut]
  simp

theorem mem_withoutFeed {c : Char} {text : List Char} (member : c ∈ withoutFeed text) : c ∈ text := by
  unfold withoutFeed at member
  split at member
  · exact List.mem_cons_of_mem _ member
  · exact member

theorem return_not_mem_unifyLineEnds (text : List Char) : '\r' ∉ unifyLineEnds text := by
  have clean : ∀ piece ∈ pieces (· == '\r') text, '\r' ∉ piece := fun piece member inside => by
    simpa using not_cut_of_mem_pieces member '\r' inside
  unfold unifyLineEnds
  split
  · simp
  · rename_i first others found
    rw [found] at clean
    simp only [List.mem_append, List.mem_flatMap, List.mem_cons, not_or]
    refine ⟨clean first List.mem_cons_self, ?_⟩
    rintro ⟨piece, member, feed | inside⟩
    · exact absurd feed (by decide)
    · exact clean piece (List.mem_cons_of_mem _ member) (mem_withoutFeed inside)

end Determinizer.Text
