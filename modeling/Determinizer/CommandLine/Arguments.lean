import Determinizer.CommandLine.Option
import Determinizer.Config

/-! # Reading the command line

Options and the two file names may mix. Up to `--` a word is an option or a value by its own form,
after it every word is a value. Words that find no use are reported at the end, so a request for
help that comes first is still answered.
-/

namespace Determinizer.CommandLine

/-- What the command line asks for. A file name may be missing although a word stood for it: a `--`
that is not the first one and comes alone is taken out. An option to which `--` is joined has no
word, which leaves no symbols, no policy, no limit, no graph and no log file. -/
structure Arguments where
  input : Option String
  output : Option String
  alphabet : List Symbol
  policy : Option Policy
  lenient : Bool
  maxStates : Option Int
  graph : Option String
  showSubsets : Bool
  verbose : Bool
  logFile : Option String
  deriving DecidableEq, Repr

/-- How a reading ends that gives no arguments. -/
inductive Stop where
  | help
  | misuse
  deriving DecidableEq, Repr

/-- The state of a reading: the settings so far, the file names found, whether the last word was one
of them and whether a word was left over. -/
structure Progress where
  alphabet : List Symbol := Config.defaultAlphabet
  policy : Option Policy := some .sparse
  lenient : Bool := false
  maxStates : Option Int := some Config.defaultMaxStates
  graph : Option String := none
  showSubsets : Bool := false
  verbose : Bool := false
  logFile : Option String := none
  names : List (Option String) := []
  nameLast : Bool := false
  leftOver : Bool := false
  deriving DecidableEq, Repr

/-- The number of file names. -/
def nameCount : Nat := 2

/-- What the first word says, if there is one. -/
def readFirst {α : Type} (read? : String → Option α) : List String → Except Stop (Option α)
  | [] => .ok none
  | word :: _ =>
    match read? word with
    | some value => .ok (some value)
    | none => .error .misuse

/-- Applies an option to the words that belong to it. -/
def Progress.apply (progress : Progress) (flag : Flag) (words : List String) :
    Except Stop Progress :=
  match flag with
  | .help => .error .help
  | .alphabet => .ok { progress with alphabet := words }
  | .policy => do return { progress with policy := ← readFirst Policy.ofText? words }
  | .lenient => .ok { progress with lenient := true }
  | .maxStates => do return { progress with maxStates := ← readFirst Text.integer? words }
  | .graph => .ok { progress with graph := words.head? }
  | .showSubsets => .ok { progress with showSubsets := true }
  | .verbose => .ok { progress with verbose := true }
  | .logFile => .ok { progress with logFile := words.head? }

/-- Applies options one after the other. -/
def Progress.applyAll (progress : Progress) (found : List (Flag × List String)) :
    Except Stop Progress :=
  found.foldlM (fun progress entry => progress.apply entry.1 entry.2) progress

/-- Takes a value as a file name, or leaves it over. -/
def Progress.place (progress : Progress) (name : Option String) : Progress :=
  if progress.names.length < nameCount then
    { progress with names := progress.names ++ [name], nameLast := true }
  else { progress with leftOver := true, nameLast := false }

/-- One-letter options joined in one word. -/
structure Cluster where
  /-- The options that are complete. -/
  complete : List (Flag × List String)
  /-- The last option, if its words are still to come. -/
  pending : Option Flag

/-- The words of an option to which a text is joined. -/
def joinedWords (text : String) : List String := [text].filter (· != "--")

/-- Reads the letters that follow a one-letter option without words. -/
def readCluster : List Char → Except Stop Cluster
  | [] => .ok ⟨[], none⟩
  | letter :: rest =>
    match flagNamed? (String.ofList ['-', letter]) with
    | none => .error .misuse
    | some flag =>
      match flag.arity, rest with
      | .none, rest => do
        let cluster ← readCluster rest
        .ok { cluster with complete := (flag, []) :: cluster.complete }
      | _, [] => .ok ⟨[], some flag⟩
      | _, text => .ok ⟨[(flag, joinedWords (String.ofList text))], none⟩

/-- Reads what is joined to an option. -/
def Given.read (given : Given) : Except Stop Cluster :=
  match given.joined with
  | none =>
    if given.flag.arity = .none then .ok ⟨[(given.flag, [])], none⟩
    else .ok ⟨[], some given.flag⟩
  | some text =>
    if given.flag.arity ≠ .none then .ok ⟨[(given.flag, joinedWords text)], none⟩
    else if !given.short || text.isEmpty then .error .misuse
    else do
      let cluster ← readCluster text.toList
      .ok { cluster with complete := (given.flag, []) :: cluster.complete }

/-- The words that belong to an option, of the values that follow it. -/
def wordsFor (flag : Flag) (values : List String) : Except Stop (List String) :=
  match flag.arity, values with
  | .none, _ => .ok []
  | _, [] => .error .misuse
  | .one, word :: _ => .ok [word]
  | .many, words => .ok words

/-- Applies an option, followed by some values, and says how many of these belong to it. -/
def Progress.readOption (progress : Progress) (given : Given) (values : List String) :
    Except Stop (Progress × Nat) := do
  let cluster ← given.read
  let words ←
    match cluster.pending with
    | none => .ok []
    | some flag => wordsFor flag values
  let last := cluster.pending.toList.map fun flag => (flag, words)
  let applied ← progress.applyAll (cluster.complete ++ last)
  .ok ({ applied with nameLast := false }, words.length)

/-- Reads the words before `--`. -/
def readWords (progress : Progress) : List String → Except Stop Progress
  | [] => .ok progress
  | word :: rest =>
    match kindOf word with
    | .ambiguous => .error .misuse
    | .unknownOption => readWords { progress with leftOver := true, nameLast := false } rest
    | .value => readWords (progress.place (some word)) rest
    | .option given =>
      match progress.readOption given (rest.takeWhile (kindOf · = .value)) with
      | .error stop => .error stop
      | .ok (next, taken) => readWords next (rest.drop taken)
  termination_by words => words.length
  decreasing_by
    all_goals simp only [List.length_cons, List.length_drop]
    all_goals omega

/-- Reads the words after `--`. The `--` itself goes with a file name before or after it, and is left
over if there is none. -/
def readTail (progress : Progress) : List String → Progress
  | [] => { progress with leftOver := progress.leftOver || !progress.nameLast }
  | words =>
    let names := words.mapIdx fun index word =>
      if word == "--" && (index != 0 || progress.nameLast) then none else some word
    names.foldl Progress.place progress

/-- The arguments, if each file name was found and no word was left over. -/
def Progress.finish (progress : Progress) : Except Stop Arguments :=
  match progress.names, progress.leftOver with
  | [input, output], false =>
    .ok
      { input, output
        alphabet := progress.alphabet
        policy := progress.policy
        lenient := progress.lenient
        maxStates := progress.maxStates
        graph := progress.graph
        showSubsets := progress.showSubsets
        verbose := progress.verbose
        logFile := progress.logFile }
  | _, _ => .error .misuse

/-- Reads a command line. An ambiguous abbreviation is refused before anything else is looked at. -/
def Arguments.read (words : List String) : Except Stop Arguments := do
  let before := words.takeWhile (· != "--")
  if before.any (kindOf · = .ambiguous) then .error .misuse
  else
    let progress ← readWords {} before
    match words.drop before.length with
    | [] => progress.finish
    | _ :: tail => (readTail progress tail).finish

end Determinizer.CommandLine
