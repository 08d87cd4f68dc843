import Determinizer.Proofs.Text.Runs

/-! # The words on the lines of a text

A blank between two texts ends the words on its left and begins those on its right, so joined texts
have the words of the texts, one after the other. A line feed does the same for lines. Since it is a
blank itself, no line feed stands in a word: the words on the lines of a text are its words.
-/

namespace Determinizer.Text

variable {c : Char} {text : String} {texts : List String}

/-- What a separator cuts can be joined by it in any number. -/
theorem cut_intercalate {cut : String → List String} {separator : String}
    (cuts : ∀ left right, cut (left ++ separator ++ right) = cut left ++ cut right)
    (nonempty : texts ≠ []) : cut (separator.intercalate texts) = texts.flatMap cut := by
  induction texts with
  | nil => contradiction
  | cons first rest ih =>
    cases rest with
    | nil => rw [String.intercalate_singleton, List.flatMap_singleton]
    | cons next others =>
      rw [String.intercalate_cons_cons, cuts, ih (List.cons_ne_nil _ _)]
      rfl

theorem words_append_blank (blank : isBlank c = true) (left right : String) :
    words (left ++ String.singleton c ++ right) = words left ++ words right := by
  simp only [words, String.toList_append, String.toList_singleton, List.append_assoc,
    List.singleton_append, pieces_append_cons blank, List.filter_append, List.map_append]

/-- Texts joined by blanks have the words of the texts, whatever these are. -/
theorem words_intercalate_blank (blank : isBlank c = true) (texts : List String) :
    words ((String.singleton c).intercalate texts) = texts.flatMap words := by
  cases texts with
  | nil => rfl
  | cons first rest => exact cut_intercalate (words_append_blank blank) (List.cons_ne_nil _ _)

theorem lines_append_feed (left right : String) :
    lines (left ++ "\n" ++ right) = lines left ++ lines right := by
  rw [lines, String.toList_append, String.toList_append, List.append_assoc]
  change List.map String.ofList (pieces _ (left.toList ++ '\n' :: right.toList)) = _
  rw [pieces_append_cons (by decide), List.map_append]
  rfl

/-- Texts joined by line feeds have the lines of the texts, whatever these are. -/
theorem lines_intercalate_feed (nonempty : texts ≠ []) :
    lines ("\n".intercalate texts) = texts.flatMap lines :=
  cut_intercalate lines_append_feed nonempty

/-- A line feed at the end of a text opens one more line, which is empty. -/
theorem lines_append_last_feed (text : String) : lines (text ++ "\n") = lines text ++ [""] := by
  have last : lines "" = [""] := rfl
  rw [← last, ← lines_append_feed, String.append_empty]

/-- A text without line feeds is its own only line. -/
theorem lines_eq_singleton (oneLine : '\n' ∉ text.toList) : lines text = [text] := by
  apply lines_eq_iff.mpr
  exact ⟨List.cons_ne_nil _ _, by simpa using oneLine, String.intercalate_singleton⟩

/-- Cutting a text into lines does not cut its words. -/
theorem flatMap_words_lines (text : String) : (lines text).flatMap words = words text := by
  obtain ⟨_, _, joined⟩ := lines_eq_iff.mp (rfl : lines text = lines text)
  calc (lines text).flatMap words
      = words ("\n".intercalate (lines text)) :=
        (words_intercalate_blank isBlank_lineFeed (lines text)).symm
    _ = words text := by rw [joined]

end Determinizer.Text
