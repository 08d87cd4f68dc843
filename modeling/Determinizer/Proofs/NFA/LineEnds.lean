import Determinizer.NFA.File
import Determinizer.Proofs.Text.Words
import Mathlib.Data.List.Forall2

/-! # Line ends of two characters

A file in which each carriage return stands right before a line feed is read like its text, and like
the text without the carriage returns. In a file such a pair is one line end. In a text it ends a
line with a blank, and blanks at the ends of lines say nothing.
-/

namespace Determinizer

namespace Text

/-- Each carriage return of the text is followed by a line feed. -/
def PairsReturns (text : List Char) : Prop :=
  ∀ place : Nat, text[place]? = some '\r' → text[place + 1]? = some '\n'

instance : DecidablePred PairsReturns := fun text =>
  decidable_of_iff
    (∀ place < text.length, text[place]? = some '\r' → text[place + 1]? = some '\n')
    ⟨fun paired place found => paired place (List.getElem?_eq_some_iff.mp found).1 found,
      fun paired place _ => paired place⟩

/-- The characters with a line feed in place of each pair of a carriage return and a line feed. -/
def dropReturns : List Char → List Char
  | '\r' :: '\n' :: rest => '\n' :: dropReturns rest
  | c :: rest => c :: dropReturns rest
  | [] => []

/-- A text with a line feed in place of each pair of a carriage return and a line feed. -/
def withoutReturns (text : String) : String := String.ofList (dropReturns text.toList)

variable {c : Char} {rest : List Char}

section Files

theorem PairsReturns.tail (paired : PairsReturns (c :: rest)) : PairsReturns rest :=
  fun place found => paired (place + 1) found

theorem unifyLineEnds_cons (other : c ≠ '\r') :
    unifyLineEnds (c :: rest) = c :: unifyLineEnds rest := by
  have uncut : (c == '\r') = false := beq_eq_false_iff_ne.mpr other
  rw [unifyLineEnds, pieces_cons, uncut, if_neg Bool.false_ne_true, unifyLineEnds]
  cases found : pieces (· == '\r') rest with
  | nil => exact absurd found (pieces_ne_nil _ rest)
  | cons first others => rfl

theorem unifyLineEnds_pair (rest : List Char) :
    unifyLineEnds ('\r' :: '\n' :: rest) = '\n' :: unifyLineEnds rest := by
  have cut : ('\r' == '\r') = true := rfl
  have uncut : ('\n' == '\r') = false := rfl
  rw [unifyLineEnds, pieces_cons, cut, if_pos rfl, pieces_cons, uncut, if_neg Bool.false_ne_true,
    unifyLineEnds]
  cases found : pieces (· == '\r') rest with
  | nil => exact absurd found (pieces_ne_nil _ rest)
  | cons first others => rfl

/-- Where all carriage returns are paired, nothing else is a line end but a line feed. -/
theorem unifyLineEnds_eq_dropReturns {text : List Char} (paired : PairsReturns text) :
    unifyLineEnds text = dropReturns text := by
  fun_induction dropReturns text with
  | case1 rest ih => rw [unifyLineEnds_pair, ih paired.tail.tail]
  | case2 c rest alone ih =>
    have other : c ≠ '\r' := by
      rintro rfl
      obtain ⟨later, rest_eq⟩ := List.head?_eq_some_iff.mp
        (List.head?_eq_getElem?.trans (paired 0 rfl))
      exact alone later rfl rest_eq
    rw [unifyLineEnds_cons other, ih paired.tail]
  | case3 => rfl

end Files

section Lines

/-- The lines are the same but for carriage returns at their ends. -/
theorem pieces_dropReturns (text : List Char) :
    List.Forall₂ (fun kept line => line = kept ∨ line = kept ++ ['\r'])
      (pieces (· == '\n') (dropReturns text)) (pieces (· == '\n') text) := by
  fun_induction dropReturns text with
  | case1 rest ih => exact .cons (.inr rfl) ih
  | case2 c rest alone ih =>
    rw [pieces_cons, pieces_cons]
    split
    · exact .cons (.inl rfl) ih
    · -- the character goes to the front of the first line, on both sides
      generalize pieces (· == '\n') (dropReturns rest) = keptLines at ih ⊢
      generalize pieces (· == '\n') rest = lines at ih ⊢
      cases ih with
      | nil => exact .nil
      | cons same later => exact .cons (same.imp (congrArg _) (congrArg _)) later
  | case3 => exact .cons (.inl rfl) .nil

/-- A blank at the end of a line does not stay when the line is trimmed. -/
theorem trim_append_blank (blank : isBlank c = true) (line : List Char) :
    trim (String.ofList (line ++ [c])) = trim (String.ofList line) := by
  rw [trim, trim, String.toList_ofList, String.toList_ofList, List.dropWhile_append]
  split
  · rename_i allBlank
    rw [List.isEmpty_iff.mp allBlank, List.dropWhile_cons_of_pos blank]
    rfl
  · rw [List.reverse_append, List.reverse_singleton, List.singleton_append,
      List.dropWhile_cons_of_pos blank]

theorem map_trim_lines_withoutReturns (text : String) :
    (lines (withoutReturns text)).map trim = (lines text).map trim := by
  rw [lines, lines, withoutReturns, String.toList_ofList, ← List.forall₂_eq_eq_eq]
  simp only [List.forall₂_map_left_iff, List.forall₂_map_right_iff]
  refine (pieces_dropReturns text.toList).imp ?_
  rintro kept line (rfl | rfl)
  · rfl
  · exact (trim_append_blank (by decide) kept).symm

theorem isBlankText_withoutReturns (text : String) :
    isBlankText (withoutReturns text) = isBlankText text := by
  have returnBlank : isBlank '\r' = true := by decide
  rw [isBlankText, isBlankText, withoutReturns, String.toList_ofList]
  fun_induction dropReturns text.toList with
  | case1 rest ih => simp only [List.all_cons, returnBlank, isBlank_lineFeed, Bool.true_and, ih]
  | case2 c rest alone ih => rw [List.all_cons, List.all_cons, ih]
  | case3 => rfl

end Lines

end Text

namespace NFA

variable {files : File.Tree} {path text other : String}

/-- Reading looks at the trimmed lines alone, if the text is not blank. -/
theorem ofText_congr (sameBlank : Text.isBlankText other = Text.isBlankText text)
    (sameLines : (Text.lines other).map Text.trim = (Text.lines text).map Text.trim)
    (strict : Bool) : ofText strict other = ofText strict text := by
  rw [ofText, ofText, sameBlank, sameLines]

theorem ofText_withoutReturns (strict : Bool) (text : String) :
    ofText strict (Text.withoutReturns text) = ofText strict text :=
  ofText_congr (Text.isBlankText_withoutReturns text) (Text.map_trim_lines_withoutReturns text)
    strict

/-- A file in which line ends are line feeds, with or without a carriage return before them, is read
like its text and like the text without the carriage returns, with the same result or error and the
same reports. -/
theorem ofFile_eq_ofText (paired : Text.PairsReturns text.toList)
    (stands : files.read path = .ok text.toUTF8) (strict : Bool) :
    ofFile files strict path = (ofText strict text).mapError .error ∧
      ofFile files strict path =
        (ofText strict (Text.withoutReturns text)).mapError .error := by
  have unified : Text.withLineFeeds text = Text.withoutReturns text :=
    congrArg String.ofList (Text.unifyLineEnds_eq_dropReturns paired)
  have fromFile := ofFile_of_read stands strict
  rw [unified] at fromFile
  exact ⟨by rw [fromFile, ofText_withoutReturns], fromFile⟩

/-- A short line, and an edge to a state that is not declared. -/
private def pairedText : String := "A B\r\nA\r\n\r\nA 0\r\nA 0  C \r\n"

private def pairedFolder : File.Tree :=
  (File.Tree.ofCurrent ["work"]).put ["work", "nfa.txt"] (.file pairedText.toUTF8)

theorem ofFile_eq_ofText_paired :
    ∃ files : File.Tree, Text.PairsReturns pairedText.toList ∧
      files.read "nfa.txt" = .ok pairedText.toUTF8 ∧
      ofFile files true "nfa.txt" = ⟨[], .error (.error (.malformedEdge 4 "A 0"))⟩ ∧
      Text.withoutReturns pairedText = "A B\nA\n\nA 0\nA 0  C \n" ∧
      ofFile files false "nfa.txt" =
        ⟨[.lineSkipped 4 "A 0"], .error (.error (.undeclaredState 5 "C"))⟩ := by
  have paired : Text.PairsReturns pairedText.toList := by decide +kernel
  have stands : pairedFolder.read "nfa.txt" = .ok pairedText.toUTF8 := by decide +kernel
  have kept : Text.withoutReturns pairedText = "A B\nA\n\nA 0\nA 0  C \n" := by decide +kernel
  have strictly : (ofText true pairedText).events = [] ∧
      (ofText true pairedText).result = .error (.malformedEdge 4 "A 0") := by
    decide +kernel
  have leniently : (ofText false (Text.withoutReturns pairedText)).events =
        [.lineSkipped 4 "A 0"] ∧
      (ofText false (Text.withoutReturns pairedText)).result =
        .error (.undeclaredState 5 "C") := by
    decide +kernel
  refine ⟨pairedFolder, paired, stands, ?_, kept, ?_⟩
  · rw [(ofFile_eq_ofText paired stands true).1, Outcome.mapError, strictly.1, strictly.2]
    rfl
  · rw [(ofFile_eq_ofText paired stands false).2, Outcome.mapError, leniently.1, leniently.2]
    rfl

/-- A carriage return within a line is a blank of the text and a line end of the file. -/
example : (ofText true "A B\nA\n\nA 0\rB").result.toBool = true ∧
    (ofText true (Text.withLineFeeds "A B\nA\n\nA 0\rB")).result =
      .error (.malformedEdge 4 "A 0") := by
  decide +kernel

end NFA

end Determinizer
