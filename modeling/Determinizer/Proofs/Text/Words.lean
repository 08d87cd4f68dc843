import Determinizer.Text.Blank
import Mathlib.Data.List.DropRight

/-! # Joining and cutting texts

Cutting undoes joining. Pieces joined by a character at which a text is cut are had back by cutting,
if none of them holds such a character. Words joined by a space are therefore read back as they
were. Blanks at the ends of a line do not change its words.
-/

namespace Determinizer.Text

/-- A text that is read as a single word: not empty and without blanks. -/
def IsWord (text : String) : Prop := text ≠ "" ∧ ∀ c ∈ text.toList, isBlank c = false

instance (text : String) : Decidable (IsWord text) :=
  @instDecidableAnd _ _ inferInstance (List.decidableBAll _ _)

theorem isBlank_space : isBlank ' ' = true := by decide

theorem isBlank_lineFeed : isBlank '\n' = true := by decide

theorem IsWord.not_mem {text : String} (word : IsWord text) {c : Char} (blank : isBlank c = true) :
    c ∉ text.toList := by
  intro member
  have visible := word.2 c member
  rw [blank] at visible
  contradiction

theorem IsWord.lineFeed_not_mem {text : String} (word : IsWord text) : '\n' ∉ text.toList :=
  word.not_mem isBlank_lineFeed

/-- Cutting at a character undoes joining by it. -/
theorem pieces_intercalate {cut : Char → Bool} {c : Char} (isCut : cut c = true)
    {parts : List (List Char)} (nonempty : parts ≠ [])
    (uncut : ∀ part ∈ parts, ∀ d ∈ part, cut d = false) :
    pieces cut ([c].intercalate parts) = parts := by
  induction parts with
  | nil => contradiction
  | cons part rest ih =>
    have whole := pieces_eq_singleton (uncut part List.mem_cons_self)
    cases rest with
    | nil => rw [List.intercalate_singleton, whole]
    | cons next others =>
      rw [List.intercalate_cons_cons, List.append_assoc, List.singleton_append,
        pieces_append_cons isCut, whole,
        ih (List.cons_ne_nil _ _) fun other member => uncut other (List.mem_cons_of_mem _ member)]
      rfl

theorem map_ofList_map_toList (texts : List String) :
    (texts.map String.toList).map String.ofList = texts := by
  simp [Function.comp_def]

/-- Words joined by spaces are read back. -/
theorem words_intercalate {texts : List String} (areWords : ∀ text ∈ texts, IsWord text) :
    words (" ".intercalate texts) = texts := by
  rw [words, String.toList_intercalate]
  change List.map String.ofList (List.filter _ (pieces isBlank ([' '].intercalate _))) = texts
  cases texts with
  | nil => rfl
  | cons first rest =>
    rw [pieces_intercalate isBlank_space (by simp)]
    · rw [List.filter_eq_self.mpr, map_ofList_map_toList]
      intro part member
      obtain ⟨text, inside, rfl⟩ := List.mem_map.mp member
      simpa using (areWords text inside).1
    · intro part member
      obtain ⟨text, inside, rfl⟩ := List.mem_map.mp member
      exact (areWords text inside).2

theorem IsWord.words_eq {text : String} (word : IsWord text) : words text = [text] := by
  have alone := @words_intercalate [text] (by simpa using word)
  rwa [String.intercalate_singleton] at alone

/-- Joined texts hold the characters of the texts and of the separator and no others. -/
theorem not_mem_intercalate {separator : String} {texts : List String} {c : Char}
    (apart : c ∉ separator.toList) (absent : ∀ text ∈ texts, c ∉ text.toList) :
    c ∉ (separator.intercalate texts).toList := by
  induction texts with
  | nil => simp
  | cons first rest ih =>
    obtain ⟨here, later⟩ := List.forall_mem_cons.mp absent
    cases rest with
    | nil => simpa using here
    | cons next others =>
      rw [String.intercalate_cons_cons]
      simp only [String.toList_append, List.mem_append, not_or]
      exact ⟨⟨here, apart⟩, ih later⟩

/-- Words joined by spaces stand on one line. -/
theorem lineFeed_not_mem_intercalate {texts : List String}
    (areWords : ∀ text ∈ texts, IsWord text) : '\n' ∉ (" ".intercalate texts).toList :=
  not_mem_intercalate (by decide) fun text member => (areWords text member).lineFeed_not_mem

theorem mem_of_mem_pieces {cut : Char → Bool} {text piece : List Char}
    (member : piece ∈ pieces cut text) : ∀ c ∈ piece, c ∈ text := by
  induction text generalizing piece with
  | nil => simp_all
  | cons c rest ih =>
    rw [pieces_cons] at member
    split at member
    · rcases List.mem_cons.mp member with rfl | later
      · simp
      · exact fun d inside => List.mem_cons_of_mem c (ih later d inside)
    · cases found : pieces cut rest with
      | nil => exact absurd found (pieces_ne_nil cut rest)
      | cons first others =>
        rw [found, List.modifyHead_cons, List.mem_cons] at member
        rcases member with rfl | later
        · intro d inside
          rcases List.mem_cons.mp inside with rfl | deeper
          · exact List.mem_cons_self
          · exact List.mem_cons_of_mem c (ih (found ▸ List.mem_cons_self) d deeper)
        · exact fun d inside =>
            List.mem_cons_of_mem c (ih (found ▸ List.mem_cons_of_mem _ later) d inside)

/-- Only a text that is empty or ends with a cut has an empty last piece. -/
theorem getLast?_pieces_ne_nil {cut : Char → Bool} {text : List Char} (filled : text ≠ [])
    (uncut : ∀ c, text.getLast? = some c → cut c = false) :
    (pieces cut text).getLast? ≠ some [] := by
  induction text with
  | nil => contradiction
  | cons c rest ih =>
    cases rest with
    | nil => simp [pieces_cons, uncut c rfl]
    | cons d others =>
      have later := ih (List.cons_ne_nil _ _) fun e last => uncut e (by rwa [List.getLast?_cons_cons])
      rw [pieces_cons]
      cases found : pieces cut (d :: others) with
      | nil => exact absurd found (pieces_ne_nil cut _)
      | cons first more =>
        rw [found] at later
        split
        · rwa [List.getLast?_cons_cons]
        · cases more with
          | nil => simp
          | cons next further => rwa [List.modifyHead_cons, List.getLast?_cons_cons] at *

/-- The words of a text are words, and their characters are characters of the text. -/
theorem isWord_of_mem_words {text word : String} (member : word ∈ words text) :
    IsWord word ∧ ∀ c ∈ word.toList, c ∈ text.toList := by
  obtain ⟨piece, inside, rfl⟩ := List.mem_map.mp member
  obtain ⟨inside, filled⟩ := List.mem_filter.mp inside
  rw [String.toList_ofList]
  refine ⟨⟨?_, ?_⟩, mem_of_mem_pieces inside⟩
  · intro empty
    have none := congrArg String.toList empty
    rw [String.toList_ofList] at none
    simp [none] at filled
  · rw [String.toList_ofList]
    exact not_cut_of_mem_pieces inside

/-- A text with a word on one of its lines is not blank. -/
theorem isBlankText_eq_false {text line word : String} (onLine : line ∈ lines text)
    (member : word ∈ words line) : isBlankText text = false := by
  obtain ⟨⟨filled, visible⟩, inLine⟩ := isWord_of_mem_words member
  obtain ⟨piece, inside, rfl⟩ := List.mem_map.mp onLine
  rw [String.toList_ofList] at inLine
  obtain ⟨c, present⟩ := List.exists_mem_of_ne_nil word.toList
    fun none => filled (String.toList_eq_nil_iff.mp none)
  rw [isBlankText, List.all_eq_false]
  exact ⟨c, mem_of_mem_pieces inside c (inLine c present), by simp [visible c present]⟩

/-- The pieces of a text that are words. -/
private def wordPieces (text : List Char) : List (List Char) :=
  (pieces isBlank text).filter (!·.isEmpty)

private theorem wordPieces_dropWhile (text : List Char) :
    wordPieces (text.dropWhile isBlank) = wordPieces text := by
  induction text with
  | nil => rfl
  | cons c rest ih =>
    rw [List.dropWhile_cons]
    split
    · rename_i blank
      rw [ih, wordPieces, wordPieces, pieces_cons, if_pos blank]
      rfl
    · rfl

private theorem wordPieces_rdropWhile (text : List Char) :
    wordPieces (text.rdropWhile isBlank) = wordPieces text := by
  induction text using List.reverseRecOn with
  | nil => rfl
  | append_singleton rest c ih =>
    rw [List.rdropWhile_concat]
    split
    · rename_i blank
      rw [ih, wordPieces, wordPieces, pieces_append_cons blank]
      simp
    · rfl

/-- Blanks at the ends of a line are not part of any word. -/
theorem words_trim (text : String) : words (trim text) = words text := by
  have same : wordPieces ((text.toList.dropWhile isBlank).rdropWhile isBlank) =
      wordPieces text.toList := by
    rw [wordPieces_rdropWhile, wordPieces_dropWhile]
  rw [words, trim, String.toList_ofList]
  exact congrArg (List.map String.ofList) same

end Determinizer.Text
