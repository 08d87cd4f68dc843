/-! # Blank characters, lines and words

A text is cut into lines at line feeds only, and a line into words at blanks. The blanks are the
white space, line and paragraph separators of Unicode, together with the four information
separators U+001C to U+001F.
-/

namespace Determinizer.Text

/-- The code points between words. -/
def isBlank (c : Char) : Bool :=
  let code := c.toNat
  (0x09 ≤ code && code ≤ 0x0D) || (0x1C ≤ code && code ≤ 0x20) || code == 0x85 || code == 0xA0 ||
    code == 0x1680 || (0x2000 ≤ code && code ≤ 0x200A) || code == 0x2028 || code == 0x2029 ||
    code == 0x202F || code == 0x205F || code == 0x3000

/-- The pieces between the characters that satisfy `cut`, empty ones included: `n` cuts leave
`n + 1` pieces. -/
def pieces (cut : Char → Bool) (text : List Char) : List (List Char) :=
  text.foldr
    (fun c later => if cut c then [] :: later else later.modifyHead (c :: ·)) [[]]

/-- The lines of a text, without their line feeds. A final line feed opens one more, empty line. -/
def lines (text : String) : List String :=
  (pieces (· == '\n') text.toList).map String.ofList

/-- The maximal runs of characters that are not blank. -/
def words (text : String) : List String :=
  ((pieces isBlank text.toList).filter (!·.isEmpty)).map String.ofList

/-- A text without the blanks at its two ends. -/
def trim (text : String) : String :=
  String.ofList (((text.toList.dropWhile isBlank).reverse.dropWhile isBlank).reverse)

/-- A text that holds nothing but blanks. -/
def isBlankText (text : String) : Bool :=
  text.toList.all isBlank

@[simp] theorem pieces_nil (cut : Char → Bool) : pieces cut [] = [[]] := rfl

theorem pieces_cons (cut : Char → Bool) (c : Char) (rest : List Char) :
    pieces cut (c :: rest) =
      if cut c then [] :: pieces cut rest else (pieces cut rest).modifyHead (c :: ·) := rfl

theorem pieces_ne_nil (cut : Char → Bool) (text : List Char) : pieces cut text ≠ [] := by
  induction text with
  | nil => simp
  | cons c rest ih =>
    rw [pieces_cons]
    split
    · simp
    · cases found : pieces cut rest with
      | nil => exact absurd found ih
      | cons first others => simp

/-- No piece holds a character at which the text is cut. -/
theorem not_cut_of_mem_pieces {cut : Char → Bool} {text piece : List Char}
    (member : piece ∈ pieces cut text) : ∀ c ∈ piece, cut c = false := by
  induction text generalizing piece with
  | nil => simp_all
  | cons c rest ih =>
    rw [pieces_cons] at member
    split at member
    · rcases List.mem_cons.mp member with rfl | later
      · simp
      · exact ih later
    · rename_i kept
      cases found : pieces cut rest with
      | nil => exact absurd found (pieces_ne_nil cut rest)
      | cons first others =>
        rw [found, List.modifyHead_cons, List.mem_cons] at member
        rcases member with rfl | later
        · intro d inside
          rcases List.mem_cons.mp inside with rfl | deeper
          · simpa using kept
          · exact ih (found ▸ List.mem_cons_self) d deeper
        · exact ih (found ▸ List.mem_cons_of_mem _ later)

/-- A cut ends the pieces on its left and begins those on its right. -/
theorem pieces_append_cons {cut : Char → Bool} {c : Char} (isCut : cut c = true)
    (left right : List Char) : pieces cut (left ++ c :: right) = pieces cut left ++ pieces cut right := by
  induction left with
  | nil => simp [pieces_cons, isCut]
  | cons d rest ih =>
    rw [List.cons_append, pieces_cons, pieces_cons, ih]
    split
    · rfl
    · cases found : pieces cut rest with
      | nil => exact absurd found (pieces_ne_nil cut rest)
      | cons first others => rfl

/-- A text without a cut is its own only piece. -/
theorem pieces_eq_singleton {cut : Char → Bool} {text : List Char}
    (uncut : ∀ c ∈ text, cut c = false) : pieces cut text = [text] := by
  induction text with
  | nil => rfl
  | cons c rest ih =>
    rw [pieces_cons, ih fun d inside => uncut d (List.mem_cons_of_mem _ inside)]
    simp [uncut c List.mem_cons_self]

end Determinizer.Text
