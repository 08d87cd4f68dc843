import Determinizer.Text.Quoted

/-! # What an automaton does where no transition is defined

A sparse automaton has no transition there; a total one goes to a dead state, the empty subset.
-/

namespace Determinizer

inductive Policy where
  | sparse
  | total
  deriving DecidableEq, Repr, Inhabited

namespace Policy

/-- All policies, in the order in which messages list them. -/
def all : List Policy := [sparse, total]

def toText : Policy → String
  | sparse => "sparse"
  | total => "total"

def ofText? (text : String) : Option Policy := all.find? (·.toText == text)

/-- The policies as a message lists them. -/
def choices : String := Text.quotedTuple (all.map toText)

theorem ofText?_toText (policy : Policy) : ofText? policy.toText = some policy := by
  cases policy <;> decide

theorem ofText?_eq_some_iff {text : String} {policy : Policy} :
    ofText? text = some policy ↔ text = policy.toText := by
  refine ⟨fun found => ?_, fun same => same ▸ ofText?_toText policy⟩
  have same := List.find?_some (p := fun policy : Policy => policy.toText == text) found
  exact (beq_iff_eq.mp same).symm

/-- What is said of a text that names no policy. -/
def unknownMessage (text : String) : String := "Неизвестная политика: " ++ text

end Policy

end Determinizer
