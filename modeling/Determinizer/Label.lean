/-! # Labels of constructed states

The states of a constructed automaton are named by their position: `A` to `Z`, then `Q0`, `Q1` and
so on.
-/

namespace Determinizer

/-- The name of a state of a deterministic automaton. -/
abbrev Label := String

namespace Label

/-- The labels of the first positions. -/
def letters : List Char := "ABCDEFGHIJKLMNOPQRSTUVWXYZ".toList

/-- The label at a position. The number in it may have any number of digits. -/
def ofPosition (position : Nat) : Label :=
  match letters[position]? with
  | some letter => String.singleton letter
  | none => "Q" ++ toString (position - letters.length)

/-- The label at a position that may be negative. -/
def ofInt? : Int → Option Label
  | .ofNat position => some (ofPosition position)
  | .negSucc _ => none

/-- What is said of a position without a label. -/
def negativeMessage (position : Int) : String :=
  "Номер состояния не может быть отрицательным: " ++ toString position

end Label

end Determinizer
