import Determinizer.Text.Integer

/-! # Options of the command line

Each option goes by one or two names and takes no word, one word, or one word and all that follow.
-/

namespace Determinizer.CommandLine

inductive Flag where
  | help
  | alphabet
  | policy
  | lenient
  | maxStates
  | graph
  | showSubsets
  | verbose
  | logFile
  deriving DecidableEq, Repr

/-- How many words belong to an option. -/
inductive Arity where
  | none
  | one
  | many
  deriving DecidableEq, Repr

def Flag.arity : Flag → Arity
  | help => .none
  | alphabet => .many
  | policy => .one
  | lenient => .none
  | maxStates => .one
  | graph => .one
  | showSubsets => .none
  | verbose => .none
  | logFile => .one

/-- All names of options. -/
def flagNames : List (String × Flag) :=
  [("-h", .help), ("--help", .help), ("-a", .alphabet), ("--alphabet", .alphabet),
   ("--policy", .policy), ("--lenient", .lenient), ("--max-states", .maxStates),
   ("--graph", .graph), ("--show-subsets", .showSubsets), ("-v", .verbose),
   ("--verbose", .verbose), ("--log-file", .logFile)]

/-- How the command line is used. -/
def usage : String :=
  "usage: nfa2dfa [options] input_file output_file\noptions: " ++
    ", ".intercalate (flagNames.map Prod.fst) ++ "\n"

def flagNamed? (name : String) : Option Flag := flagNames.lookup name

/-- An option as a word gives it, with the text that is joined to its name, after an equals sign or
directly. `short` tells a name with a single dash. -/
structure Given where
  flag : Flag
  short : Bool
  joined : Option String
  deriving DecidableEq, Repr

/-- What a word before `--` is. -/
inductive WordKind where
  | value
  | option (given : Given)
  | unknownOption
  | ambiguous
  deriving DecidableEq, Repr

/-- A word before and after its first equals sign. -/
def cutAtEquals (word : String) : String × Option String :=
  let chars := word.toList
  match chars.dropWhile (· != '=') with
  | [] => (word, none)
  | _ :: after => (String.ofList (chars.takeWhile (· != '=')), some (String.ofList after))

def isShort (name : String) : Bool := name.toList[1]? != some '-'

/-- The options that a word with two dashes may abbreviate. -/
def longCandidates (word : String) : List Given :=
  let (stem, text) := cutAtEquals word
  flagNames.filterMap fun entry =>
    if stem.toList.isPrefixOf entry.1.toList then
      some ⟨entry.2, isShort entry.1, text⟩
    else none

/-- The one-letter option that a word begins with, the rest of the word joined to it. -/
def shortCandidates (word : String) : List Given :=
  let chars := word.toList
  flagNames.filterMap fun entry =>
    if entry.1.toList = chars.take 2 then
      some ⟨entry.2, true, some (String.ofList (chars.drop 2))⟩
    else none

/-- The kind of a word with a dash that is no option by name or abbreviation. -/
def unnamedKind (word : String) : WordKind :=
  if Text.isNegativeNumber word || word.toList.contains ' ' then .value else .unknownOption

/-- The kind of a word: an exact name, a name before an equals sign, or an abbreviation. -/
def kindOf (word : String) : WordKind :=
  if word.toList.head? != some '-' then .value
  else
    match flagNamed? word with
    | some flag => .option ⟨flag, isShort word, none⟩
    | none =>
      if word.length = 1 then .value
      else
        let (name, text) := cutAtEquals word
        match text, flagNamed? name with
        | some text, some flag => .option ⟨flag, isShort name, some text⟩
        | _, _ =>
          match if isShort word then shortCandidates word else longCandidates word with
          | [given] => .option given
          | [] => unnamedKind word
          | _ => .ambiguous

end Determinizer.CommandLine
