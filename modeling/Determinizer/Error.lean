import Determinizer.DFA.Basic
import Determinizer.File.Fault
import Determinizer.Text.Utf8

/-! # What can go wrong in a conversion

Each error names its cause and carries what its message shows. The wording is in `Error.message`
alone.
-/

namespace Determinizer

/-- Why the contents of a file cannot be had as text. -/
inductive ReadFault where
  | path (fault : File.Fault)
  | encoding (fault : Text.Utf8.Fault)
  deriving DecidableEq, Repr

def ReadFault.message (path : String) : ReadFault → String
  | .path fault => fault.message path
  | .encoding fault => fault.message

inductive Error where
  /-- The description is blank, or not a text at all. -/
  | noText
  | unreadable (path : String) (fault : ReadFault)
  | tooFewLines (count : Nat)
  | noStates
  | initialNotSingle
  | malformedEdge (line : Nat) (text : String)
  | undeclaredState (line : Nat) (state : Name)
  /-- No listed subset consists of the initial state alone. -/
  | noInitialSubset (initial : Name)
  | tooManyStates (count limit : Nat)
  /-- A total automaton needs the empty subset for its dead state. -/
  | noEmptySubset
  /-- The targets of a subset on some symbol are not listed as a subset. -/
  | unlistedSubset (targets : NameSet)
  | danglingTransitions (transitions : List DFA.Transition)
  deriving DecidableEq

namespace Error

/-- The line of the description at which an error was found. -/
def line? : Error → Option Nat
  | noStates => some 1
  | initialNotSingle => some 2
  | malformedEdge line _ => some line
  | undeclaredState line _ => some line
  | _ => none

/-- The message without the line. -/
def text : Error → String
  | noText => "файл пуст или не является текстом"
  | unreadable path fault => "не удалось прочитать " ++ path ++ ": " ++ fault.message path
  | tooFewLines count => "ожидается не менее 4 строк, получено " ++ toString count
  | noStates => "не заданы состояния"
  | initialNotSingle => "ожидается ровно одно начальное состояние"
  | malformedEdge _ text => "некорректный переход: '" ++ text ++ "'"
  | undeclaredState _ state => "состояние '" ++ state ++ "' не объявлено в первой строке"
  | noInitialSubset initial =>
    "не найдено подмножество \x7b" ++ initial ++ "\x7d для начального состояния"
  | tooManyStates count limit =>
    "слишком много состояний НКА: " ++ toString count ++ " (допустимо не более " ++
      toString limit ++ "), число подмножеств растёт как 2^n"
  | noEmptySubset => "для политики total нужен пустой набор состояний в списке подмножеств"
  | unlistedSubset targets =>
    "подмножество " ++ Text.quotedList targets.toList ++ " отсутствует в списке подмножеств"
  | danglingTransitions transitions =>
    "переходы в несуществующие состояния: [" ++
      Text.commaSeparated (transitions.map (·.text)) ++ "]"

def message (error : Error) : String :=
  match error.line? with
  | some line => "строка " ++ toString line ++ ": " ++ error.text
  | none => error.text

end Error

end Determinizer
