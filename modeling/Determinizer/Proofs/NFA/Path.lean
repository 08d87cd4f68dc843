import Determinizer.NFA.Basic

/-! # Paths of a nondeterministic automaton

A path reads a word from one state to another, one edge for each symbol. A word is accepted if some
path that reads it leads from the initial state to a final one. The run of a word from a set of
states is computed symbol by symbol; its members are exactly the ends of the paths that begin in
the set, so the run decides acceptance.
-/

namespace Determinizer.NFA

/-- A walk along edges that reads a word. -/
inductive Path (nfa : NFA) : Name → List Symbol → Name → Prop
  | nil (state : Name) : Path nfa state [] state
  | cons {source middle target : Name} {symbol : Symbol} {word : List Symbol}
      (edge : middle ∈ nfa.targets source symbol) (rest : Path nfa middle word target) :
      Path nfa source (symbol :: word) target

/-- Some path that reads the word leads from the initial state to a final one. -/
def Accepts (nfa : NFA) (word : List Symbol) : Prop :=
  ∃ final ∈ nfa.finals, nfa.Path nfa.initial word final

/-- The states that a word leads to from the members of a set. -/
def run (nfa : NFA) (names : NameSet) (word : List Symbol) : NameSet :=
  word.foldl (fun found symbol => nfa.targetsOf found.toList symbol) names

variable {nfa : NFA} {source target name : Name} {names : NameSet} {symbol : Symbol}
  {word : List Symbol}

theorem path_nil_iff : nfa.Path source [] target ↔ target = source := by
  constructor
  · intro path
    cases path
    rfl
  · rintro rfl
    exact .nil _

theorem path_cons_iff :
    nfa.Path source (symbol :: word) target ↔
      ∃ middle ∈ nfa.targets source symbol, nfa.Path middle word target := by
  constructor
  · intro path
    cases path with
    | cons edge rest => exact ⟨_, edge, rest⟩
  · rintro ⟨middle, edge, rest⟩
    exact .cons edge rest

@[simp] theorem run_nil : nfa.run names [] = names := rfl

@[simp] theorem run_cons :
    nfa.run names (symbol :: word) = nfa.run (nfa.targetsOf names.toList symbol) word := rfl

/-- A run can be cut after any part of its word. -/
theorem run_append (names : NameSet) (first second : List Symbol) :
    nfa.run names (first ++ second) = nfa.run (nfa.run names first) second :=
  List.foldl_append

/-- The run of a word ends where the paths that read it end. -/
theorem mem_run : name ∈ nfa.run names word ↔ ∃ source ∈ names, nfa.Path source word name := by
  induction word generalizing names with
  | nil => simp [path_nil_iff]
  | cons symbol rest ih =>
    simp only [run_cons, ih, mem_targetsOf, NameSet.mem_toList, path_cons_iff]
    constructor
    · rintro ⟨middle, ⟨source, member, edge⟩, path⟩
      exact ⟨source, member, middle, edge, path⟩
    · rintro ⟨source, member, middle, edge, path⟩
      exact ⟨middle, ⟨source, member, edge⟩, path⟩

/-- Nothing is reached from no states. -/
@[simp] theorem run_empty : nfa.run ∅ word = ∅ := by
  apply NameSet.ext
  intro name
  rw [mem_run]
  simp

theorem accepts_iff_run :
    nfa.Accepts word ↔ ∃ final ∈ nfa.finals, final ∈ nfa.run {nfa.initial} word := by
  simp [Accepts, mem_run]

end Determinizer.NFA
