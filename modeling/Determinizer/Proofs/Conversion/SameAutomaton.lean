import Determinizer.Proofs.Conversion.Language
import Determinizer.Proofs.NFA.Grammar

/-! # Descriptions of the same automaton

How a text lists an automaton leaves traces in what is read: the order of the final states, the
order in which sources and symbols are first joined, and the edges off the alphabet. A conversion
looks only at the declared states in their order, at the initial state, at which states are final
and at the targets on the symbols of the alphabet. So it gives the same result on texts that agree
in these.
-/

namespace Determinizer

namespace NFA

/-- What a conversion over an alphabet looks at is the same. -/
structure SameOver (alphabet : List Symbol) (nfa other : NFA) : Prop where
  states_eq : nfa.states = other.states
  initial_eq : nfa.initial = other.initial
  mem_finals_iff : ∀ name, name ∈ nfa.finals ↔ name ∈ other.finals
  targets_eq : ∀ source, ∀ symbol ∈ alphabet,
    nfa.targets source symbol = other.targets source symbol

namespace SameOver

open SubsetConstruction

variable {nfa other : NFA} {alphabet symbols : List Symbol} {config : Config} {index : Subset.Index}
  {dead : Option Nat} {policy : Policy}

theorem targetsOf_eq (same : SameOver alphabet nfa other) (subset : Subset) {symbol : Symbol}
    (known : symbol ∈ alphabet) : nfa.targetsOf subset symbol = other.targetsOf subset symbol := by
  refine NameSet.ext fun name => ?_
  simp only [mem_targetsOf, same.targets_eq _ symbol known]

/-- A row is made from the targets on the symbols alone. -/
theorem rowTargets_eq (same : SameOver alphabet nfa other) (subset : Subset)
    (known : ∀ symbol ∈ symbols, symbol ∈ alphabet) :
    rowTargets nfa index dead subset symbols = rowTargets other index dead subset symbols := by
  induction symbols with
  | nil => rfl
  | cons symbol rest ih =>
    obtain ⟨here, later⟩ := List.forall_mem_cons.mp known
    rw [rowTargets, rowTargets, same.targetsOf_eq subset here, ih later]

theorem rows_eq (same : SameOver alphabet nfa other) (subsets : List Subset) :
    rows nfa index dead alphabet.eraseDups subsets =
      rows other index dead alphabet.eraseDups subsets := by
  have row_eq : row? nfa index dead alphabet.eraseDups = row? other index dead alphabet.eraseDups := by
    funext subset place
    rw [row?, row?, same.rowTargets_eq subset fun _ => List.mem_eraseDups.mp]
  rw [rows, rows, row_eq]

theorem makeStates_eq (same : SameOver alphabet nfa other) (initial : Nat) (kept : List Row) :
    makeStates nfa initial kept = makeStates other initial kept := by
  have finals_eq : nfa.finals.contains = other.finals.contains := by
    funext name
    rw [Bool.eq_iff_iff, List.contains_iff_mem, List.contains_iff_mem, same.mem_finals_iff]
  rw [makeStates, makeStates, finals_eq]

theorem overSubsets_eq (same : SameOver alphabet nfa other) (subsets : List Subset)
    (policy : Policy) :
    nfa.overSubsets subsets alphabet policy = other.overSubsets subsets alphabet policy := by
  rw [overSubsets.eq_def, overSubsets.eq_def]
  simp only [same.initial_eq, same.rows_eq, same.makeStates_eq]

/-- Conversions end in the same way if they look at the same. -/
theorem result_convert_eq (same : SameOver config.alphabet nfa other) :
    (nfa.convert config).result = (other.convert config).result := by
  by_cases exceeds : nfa.Exceeds config
  · obtain ⟨limit, limited, more⟩ := exceeds
    rw [result_convert_of_exceeds limited more,
      result_convert_of_exceeds limited (same.states_eq ▸ more), same.states_eq]
  · have within : ¬ other.Exceeds config := by
      rwa [Exceeds, ← same.states_eq]
    rw [result_convert_of_not_exceeds exceeds, result_convert_of_not_exceeds within, subsets,
      same.states_eq, same.overSubsets_eq]
    rfl

end SameOver

end NFA

/-- The edges on the lines of a text, in their order. -/
def Text.edges (text : String) : List (Name × Symbol × Name) :=
  (edgeLines text).filterMap NFA.edgeOn?

/-- Two texts declare the same states in the same order, name the same initial state and have the
same final states and the same edges on the symbols of an alphabet. -/
structure SameAutomaton (alphabet : List Symbol) (text other : String) : Prop where
  states_eq : (Text.words (Text.lineAt text 0)).eraseDups =
    (Text.words (Text.lineAt other 0)).eraseDups
  initial_eq : Text.words (Text.lineAt text 1) = Text.words (Text.lineAt other 1)
  mem_finals_iff : ∀ name,
    name ∈ Text.words (Text.lineAt text 2) ↔ name ∈ Text.words (Text.lineAt other 2)
  mem_edges_iff : ∀ source, ∀ symbol ∈ alphabet, ∀ target,
    (source, symbol, target) ∈ Text.edges text ↔ (source, symbol, target) ∈ Text.edges other

variable {alphabet : List Symbol} {config : Config} {text other : String} {nfa otherNFA : NFA}

theorem NFA.IsGivenBy.mem_targets_iff_mem_edges (given : nfa.IsGivenBy text) (source : Name)
    (symbol : Symbol) (target : Name) :
    target ∈ nfa.targets source symbol ↔ (source, symbol, target) ∈ Text.edges text := by
  simp only [given.mem_targets_iff, Text.edges, List.mem_filterMap, NFA.edgeOn?_eq_some_iff]

/-- What is read from texts with the same automaton is the same for a conversion. -/
theorem SameAutomaton.sameOver (same : SameAutomaton alphabet text other)
    (given : nfa.IsGivenBy text) (otherGiven : otherNFA.IsGivenBy other) :
    nfa.SameOver alphabet otherNFA where
  states_eq := by rw [given.states_eq, same.states_eq, otherGiven.states_eq]
  initial_eq := by
    have alone := given.initial_eq
    rwa [same.initial_eq, otherGiven.initial_eq, List.singleton_inj, eq_comm] at alone
  mem_finals_iff := by
    intro name
    rw [given.finals_eq, otherGiven.finals_eq, List.mem_eraseDups, List.mem_eraseDups,
      same.mem_finals_iff]
  targets_eq := by
    intro source symbol known
    refine NameSet.ext fun target => ?_
    rw [given.mem_targets_iff_mem_edges, otherGiven.mem_targets_iff_mem_edges,
      same.mem_edges_iff source symbol known]

/-- Texts that are read and describe the same automaton are converted to the same text, or the same
error stops both conversions. -/
theorem convertText_eq_of_sameAutomaton (read : (NFA.ofText config.strict text).result = .ok nfa)
    (otherRead : (NFA.ofText config.strict other).result = .ok otherNFA)
    (same : SameAutomaton config.alphabet text other) :
    (convertText config text).result = (convertText config other).result := by
  have converted := (same.sameOver (NFA.isGivenBy_of_ofText read)
    (NFA.isGivenBy_of_ofText otherRead)).result_convert_eq
  rw [convertText, convertText, Outcome.result_bind, Outcome.result_bind, read, otherRead]
  simp only [Except.bind, Outcome.result_bind, converted]

private def listedOnce : String := "A B\nA\nB A\nA 0 B\nA 0 A\nB 1 A"

/-- The same with repeated names, a blank and a short line, a further word and an edge off the
alphabet. -/
private def listedAgain : String :=
  "A B A\n A\nA B A\n\nB 1 A more\nB x B\nA 0  A\nA\nA 0 B\nA 0 A\n"

private def readOnce : NFA where
  states := ["A", "B"]
  initial := "A"
  finals := ["B", "A"]
  edges := Table.ofList [(("A", "0"), NameSet.ofList ["A", "B"]), (("B", "1"), NameSet.ofList ["A"])]
  sources_declared := by decide +kernel

private def readAgain : NFA where
  states := ["A", "B"]
  initial := "A"
  finals := ["A", "B"]
  edges := Table.ofList [(("B", "1"), NameSet.ofList ["A"]), (("B", "x"), NameSet.ofList ["B"]),
    (("A", "0"), NameSet.ofList ["A", "B"])]
  sources_declared := by decide +kernel

private def leniently : Config := { Config.default with strict := false }

theorem convertText_eq_of_sameAutomaton_listedAgain :
    (NFA.ofText leniently.strict listedOnce).result = .ok readOnce ∧
      (NFA.ofText leniently.strict listedAgain).result = .ok readAgain ∧
      SameAutomaton leniently.alphabet listedOnce listedAgain ∧
      (convertText leniently listedOnce).result = (convertText leniently listedAgain).result := by
  have read : (NFA.ofText leniently.strict listedOnce).result = .ok readOnce := by decide +kernel
  have again : (NFA.ofText leniently.strict listedAgain).result = .ok readAgain := by
    decide +kernel
  have finals_eq : Text.words (Text.lineAt listedOnce 2) = ["B", "A"] := by decide +kernel
  have finalsAgain_eq : Text.words (Text.lineAt listedAgain 2) = ["A", "B", "A"] := by
    decide +kernel
  have edges_eq : Text.edges listedOnce = [("A", "0", "B"), ("A", "0", "A"), ("B", "1", "A")] := by
    decide +kernel
  have edgesAgain_eq : Text.edges listedAgain =
      [("B", "1", "A"), ("B", "x", "B"), ("A", "0", "A"), ("A", "0", "B"), ("A", "0", "A")] := by
    decide +kernel
  have same : SameAutomaton leniently.alphabet listedOnce listedAgain := by
    refine ⟨by decide +kernel, by decide +kernel, ?_, ?_⟩
    · intro name
      rw [finals_eq, finalsAgain_eq]
      grind
    · intro source symbol known target
      have letter : symbol = "0" ∨ symbol = "1" := by
        simpa only [List.mem_cons, List.not_mem_nil, or_false] using
          (show symbol ∈ ["0", "1"] from known)
      rw [edges_eq, edgesAgain_eq]
      grind
  exact ⟨read, again, same, convertText_eq_of_sameAutomaton read again same⟩

end Determinizer
