import Determinizer.DFA.Basic
import Determinizer.Log.Record

/-! # What a conversion reports on its way

Each event names what happened. Its level, its logger and its wording follow from that.
-/

namespace Determinizer

inductive Event where
  /-- A line of the description was passed over. -/
  | lineSkipped (line : Nat) (text : String)
  /-- Edges on symbols outside the alphabet have no effect. -/
  | symbolsIgnored (alphabet unknown : List Symbol)
  | subsetsMaterialized (subsets states : Nat)
  | stateMade (state : DFA.State)
  | statesRemoved (labels : List Label)
  | automatonRead (states : Nat) (initial : Name)
  | subsetsListed (subsets : List (List Name))
  | automatonMade (labels : List Label) (initial : Option Label)
  | graphSaved (path : String)
  deriving DecidableEq

namespace Event

def level : Event → Log.Level
  | lineSkipped .. => .warning
  | symbolsIgnored .. => .warning
  | subsetsMaterialized .. => .debug
  | stateMade .. => .debug
  | statesRemoved .. => .debug
  | automatonRead .. => .info
  | subsetsListed .. => .info
  | automatonMade .. => .info
  | graphSaved .. => .info

def logger (event : Event) : String :=
  Log.loggerNamed <|
    match event with
    | lineSkipped .. => "automaton_io"
    | subsetsMaterialized .. => "determinize"
    | stateMade .. => "determinize"
    | statesRemoved .. => "reachability"
    | _ => "nfa2dfa"

/-- The members of a subset in curly brackets. -/
def braced (separator : String) (names : List Name) : String :=
  "\x7b" ++ separator.intercalate names ++ "\x7d"

def message : Event → String
  | lineSkipped line text => "Строка " ++ toString line ++ " пропущена: '" ++ text ++ "'"
  | symbolsIgnored alphabet unknown =>
    "Символы вне алфавита " ++ Text.quotedList alphabet ++ " не учитываются: " ++
      " ".intercalate unknown
  | subsetsMaterialized subsets states =>
    "Подмножеств: " ++ toString subsets ++ ", состояний ДКА: " ++ toString states
  | stateMade state =>
    state.label ++ " = " ++ braced ", " state.subset ++ " -> " ++
      Text.quotedTable state.transitions.entries
  | statesRemoved labels => "Удалены недостижимые состояния: " ++ " ".intercalate labels
  | automatonRead states initial =>
    "НКА: " ++ toString states ++ " состояний, начальное " ++ initial
  | subsetsListed subsets => "Подмножества: " ++ " ".intercalate (subsets.map (braced ","))
  | automatonMade labels initial =>
    "ДКА: " ++ " ".intercalate labels ++ ", начальное " ++ initial.getD ""
  | graphSaved path => "Граф ДКА сохранён в " ++ path

def record (event : Event) (stamp : Log.Stamp) : Log.Record :=
  ⟨event.level, event.logger, event.message, stamp⟩

end Event

end Determinizer
