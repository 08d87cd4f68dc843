import Determinizer.Label
import Determinizer.Proofs.Text.Words
import Mathlib.Data.List.Nodup

/-! # Labels tell positions apart

Different positions have different labels: the letters differ, the numbers differ as they are
written, and the letter `Q` alone is no number. Each label is a single word of a text.
-/

namespace Determinizer.Label

theorem letters_nodup : letters.Nodup := by decide

theorem ofPosition_of_lt {position : Nat} (bound : position < letters.length) :
    ofPosition position = String.singleton (letters[position]) := by
  simp only [ofPosition, List.getElem?_eq_getElem bound]

theorem ofPosition_of_le {position : Nat} (bound : letters.length ≤ position) :
    ofPosition position = "Q" ++ toString (position - letters.length) := by
  simp only [ofPosition, List.getElem?_eq_none bound]

theorem toList_number (number : Nat) :
    ("Q" ++ toString number).toList = 'Q' :: Nat.toDigits 10 number := by
  simp [String.toList_append]

/-- A letter and a numbered label differ, even if the letter is `Q`. -/
private theorem letter_ne_number (letter : Char) (number : Nat) :
    String.singleton letter ≠ "Q" ++ toString number := by
  intro same
  have chars := congrArg String.toList same
  rw [String.toList_singleton, toList_number, List.cons.injEq] at chars
  exact Nat.toDigits_ne_nil chars.2.symm

theorem eq_of_ofPosition_eq {first second : Nat} (same : ofPosition first = ofPosition second) :
    first = second := by
  rcases Nat.lt_or_ge first letters.length with inFirst | outFirst <;>
    rcases Nat.lt_or_ge second letters.length with inSecond | outSecond
  · rw [ofPosition_of_lt inFirst, ofPosition_of_lt inSecond] at same
    have chars := congrArg String.toList same
    rw [String.toList_singleton, String.toList_singleton, List.cons.injEq] at chars
    exact (List.Nodup.getElem_inj_iff letters_nodup).mp chars.1
  · rw [ofPosition_of_lt inFirst, ofPosition_of_le outSecond] at same
    exact absurd same (letter_ne_number _ _)
  · rw [ofPosition_of_le outFirst, ofPosition_of_lt inSecond] at same
    exact absurd same.symm (letter_ne_number _ _)
  · rw [ofPosition_of_le outFirst, ofPosition_of_le outSecond] at same
    have chars := congrArg String.toList same
    rw [toList_number, toList_number, List.cons.injEq] at chars
    have numbers := congrArg (Nat.ofDigitChars 10 · 0) chars.2
    simp only [Nat.ofDigitChars_ten_toDigits] at numbers
    omega

theorem ofPosition_injective : Function.Injective ofPosition :=
  fun _ _ => eq_of_ofPosition_eq

/-- The labels of the first positions are distinct. -/
theorem nodup_map_ofPosition (count : Nat) : ((List.range count).map ofPosition).Nodup :=
  List.Nodup.map ofPosition_injective List.nodup_range

private theorem isBlank_of_isDigit {c : Char} (digit : c.isDigit = true) :
    Text.isBlank c = false := by
  have bounds : 48 ≤ c.toNat ∧ c.toNat ≤ 57 := Char.isDigit_iff_toNat.mp digit
  simp only [Text.isBlank, Bool.or_eq_false_iff, Bool.and_eq_false_iff, decide_eq_false_iff_not,
    beq_eq_false_iff_ne]
  omega

/-- Every label is read as a single word. -/
theorem isWord_ofPosition (position : Nat) : Text.IsWord (ofPosition position) := by
  rcases Nat.lt_or_ge position letters.length with inside | outside
  · rw [ofPosition_of_lt inside]
    refine ⟨by simp [String.singleton_ne_empty], fun c member => ?_⟩
    rw [String.toList_singleton, List.mem_singleton] at member
    have visible : letters.all (!Text.isBlank ·) = true := by decide
    simpa [member] using List.all_eq_true.mp visible _ (List.getElem_mem inside)
  · rw [ofPosition_of_le outside]
    constructor
    · intro empty
      have chars := congrArg String.toList empty
      rw [toList_number] at chars
      simp at chars
    · intro c member
      rw [toList_number] at member
      rcases List.mem_cons.mp member with rfl | digit
      · decide
      · exact isBlank_of_isDigit (Nat.isDigit_of_mem_toDigits (by decide) (by decide) digit)

theorem ofInt?_natCast (position : Nat) : ofInt? position = some (ofPosition position) := rfl

/-- Labels of integers that are not negative tell these apart. -/
theorem eq_of_ofInt?_eq {first second : Int} (firstNonneg : 0 ≤ first) (secondNonneg : 0 ≤ second)
    (same : ofInt? first = ofInt? second) : first = second := by
  obtain ⟨first, rfl⟩ := Int.eq_ofNat_of_zero_le firstNonneg
  obtain ⟨second, rfl⟩ := Int.eq_ofNat_of_zero_le secondNonneg
  rw [ofInt?_natCast, ofInt?_natCast, Option.some.injEq] at same
  rw [eq_of_ofPosition_eq same]

/-- Every integer that is not negative has a label. -/
theorem exists_ofInt? {position : Int} (nonneg : 0 ≤ position) :
    ∃ label, ofInt? position = some label ∧ Text.IsWord label := by
  obtain ⟨position, rfl⟩ := Int.eq_ofNat_of_zero_le nonneg
  exact ⟨ofPosition position, ofInt?_natCast position, isWord_ofPosition position⟩

end Determinizer.Label
