import Determinizer.Error
import Determinizer.NFA.Basic
import Determinizer.Outcome
import Determinizer.Text.Blank

/-! # The text form of a nondeterministic automaton

The first line declares the states, the second names the initial state and the third the final
ones. Each further line gives an edge by its source, its symbol and its target; what follows on the
line is not read, and blank lines are passed over. A line with one or two words is an error in
strict reading and is skipped in lenient reading. Lines count from one.
-/

namespace Determinizer.NFA

/-- Adds the edges of numbered lines. -/
def readEdges (strict : Bool) (nfa : NFA) : List (String × Nat) → Outcome Error NFA
  | [] => pure nfa
  | (line, number) :: rest =>
    match Text.words line with
    | [] => readEdges strict nfa rest
    | source :: symbol :: target :: _ =>
      match nfa.addEdge source symbol target with
      | .error state => .fail (.undeclaredState number state)
      | .ok grown =>
        if target ∈ nfa.states then readEdges strict grown rest
        else .fail (.undeclaredState number target)
    | _ =>
      if strict then .fail (.malformedEdge number line)
      else do
        .report [.lineSkipped number line]
        readEdges strict nfa rest

/-- The automaton without edges that the first three lines declare. -/
def readHeader (first second third : String) : Except Error NFA :=
  let states := (Text.words first).eraseDups
  if states.isEmpty then .error .noStates
  else
    match Text.words second with
    | [initial] =>
      if initial ∈ states then
        let finals := (Text.words third).eraseDups
        match finals.find? fun state => !states.contains state with
        | some state => .error (.undeclaredState 3 state)
        | none => .ok (ofStates states initial finals)
      else .error (.undeclaredState 2 initial)
    | _ => .error .initialNotSingle

/-- Reads an automaton from its text form. -/
def ofText (strict : Bool) (text : String) : Outcome Error NFA :=
  if Text.isBlankText text then .fail .noText
  else
    match (Text.lines text).map Text.trim with
    | first :: second :: third :: fourth :: rest => do
      let nfa ← .ofExcept (readHeader first second third)
      readEdges strict nfa ((fourth :: rest).zipIdx 4)
    | short => .fail (.tooFewLines short.length)

end Determinizer.NFA
