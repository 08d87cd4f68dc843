import Determinizer.DFA.File
import Determinizer.NFA.File
import Determinizer.Proofs.DFA.ReadBack
import Determinizer.Proofs.File.Replacement

/-! # Written automata are decoded

A written text is decoded into the same automaton by strict and by lenient reading, with nothing to
report. Spaces and line feeds are the only blanks of the text, so the line ends that are unified in
a file are left alone, and a file that was written is decoded like its text.
-/

namespace Determinizer.DFA

/-- The label to which a transition on a symbol of the alphabet leads. -/
def successor? (dfa : DFA) (source : Label) (symbol : Symbol) : Option Label :=
  if symbol ∈ dfa.alphabet then
    (dfa.state? source).bind fun state => state.transitions.get? symbol
  else none

variable {dfa : DFA} {nfa : NFA} {source target : Label} {symbol : Symbol} {text path : String}
  {files after : File.Tree} {refusals : File.Refusals} {c : Char}

theorem successor?_eq_some_iff (distinct : dfa.labels.Nodup) :
    dfa.successor? source symbol = some target ↔ ⟨source, symbol, target⟩ ∈ dfa.transitions := by
  simp only [successor?, Option.ite_none_right_eq_some, Option.bind_eq_some_iff,
    state?_eq_some_iff distinct]
  constructor
  · rintro ⟨known, state, ⟨member, rfl⟩, linked⟩
    exact (mem_transitions_from distinct member).mpr ⟨known, linked⟩
  · intro present
    obtain ⟨state, member, rfl, known, linked⟩ := mem_transitions.mp present
    exact ⟨known, state, ⟨member, rfl⟩, linked⟩

/-- What is read back has one target for a transition and no other targets. -/
theorem ReadsBackAs.targets_eq (same : dfa.ReadsBackAs nfa) (distinct : dfa.labels.Nodup)
    (source : Label) (symbol : Symbol) :
    nfa.targets source symbol = NameSet.ofList (dfa.successor? source symbol).toList := by
  refine NameSet.ext fun target => ?_
  rw [same.mem_targets_iff, ← successor?_eq_some_iff distinct, NameSet.mem_ofList,
    Option.mem_toList]

/-- After writing, the file at the path has the text. -/
theorem read_of_writeFile (written : dfa.toText? = some text)
    (wrote : dfa.writeFile refusals files path = (after, .ok ())) :
    after.read path = .ok text.toUTF8 := by
  cases replaced : files.replaceFile refusals path text.toUTF8 with
  | mk tree result =>
    simp only [writeFile, written, replaced, Prod.mk.injEq] at wrote
    obtain ⟨rfl, ended⟩ := wrote
    cases result with
    | error fault => contradiction
    | ok _ => exact File.Tree.read_replaceFile replaced

namespace Printable

/-- Spaces and line feeds are the only blanks of a written text. -/
theorem not_mem_of_blank (printable : dfa.Printable) (written : dfa.toText? = some text)
    (blank : Text.isBlank c = true) (notSpace : c ≠ ' ') (notFeed : c ≠ '\n') :
    c ∉ text.toList := by
  obtain ⟨initial, declared, initial_eq⟩ := printable.initial
  have joined : ∀ texts : List String, (∀ text ∈ texts, Text.IsWord text) →
      c ∉ (" ".intercalate texts).toList := by
    intro texts areWords
    exact Text.not_mem_intercalate (by simpa using notSpace)
      fun text member => (areWords text member).not_mem blank
  rw [toText?, textLines?, initial_eq] at written
  cases written
  rw [String.toList_append, List.mem_append, not_or]
  refine ⟨Text.not_mem_intercalate (by simpa using notFeed) ?_, by simpa using notFeed⟩
  simp only [List.forall_mem_cons, List.forall_mem_map]
  refine ⟨joined _ printable.labels_words, (printable.labels_words initial declared).not_mem blank,
    joined _ printable.finals_words, fun transition member => ?_⟩
  rw [Transition.line_eq]
  exact joined _ (printable.areWords member)

/-- A file with a written text is decoded like the text. -/
theorem ofFile_eq (printable : dfa.Printable) (written : dfa.toText? = some text)
    (stands : files.read path = .ok text.toUTF8) (strict : Bool) :
    NFA.ofFile files strict path = (NFA.ofText strict text).mapError .error := by
  have noReturn : '\r' ∉ text.toList :=
    printable.not_mem_of_blank written (by decide) (by decide) (by decide)
  rw [NFA.ofFile_of_read stands, Text.withLineFeeds, Text.unifyLineEnds_eq_self noReturn,
    String.ofList_toList]

/-- What is written is decoded, from its text and from a file, strictly and leniently. -/
theorem decode_toText (printable : dfa.Printable) :
    ∃ text nfa, dfa.toText? = some text ∧ dfa.ReadsBackAs nfa ∧
      (∀ source symbol, nfa.targets source symbol =
        match dfa.successor? source symbol with
        | some target => {target}
        | none => ∅) ∧
      (∀ strict, NFA.ofText strict text = ⟨[], .ok nfa⟩) ∧
      ∀ refusals files path after, dfa.writeFile refusals files path = (after, .ok ()) →
        ∀ strict, NFA.ofFile after strict path = ⟨[], .ok nfa⟩ := by
  obtain ⟨text, written⟩ : ∃ text, dfa.toText? = some text := by
    obtain ⟨initial, _, initial_eq⟩ := printable.initial
    rw [← Option.ne_none_iff_exists', Ne, toText?_eq_none_iff, initial_eq]
    exact Option.some_ne_none _
  obtain ⟨nfa, read⟩ := printable.exists_ofText written true
  have decoded := NFA.ofText_eq_of_strict read
  have same := printable.readsBackAs written read
  refine ⟨text, nfa, written, same, fun source symbol => ?_, decoded, ?_⟩
  · rw [same.targets_eq printable.labels_nodup]
    cases dfa.successor? source symbol with
    | none => rfl
    | some target => exact NameSet.ofList_singleton target
  · intro refusals files path after wrote strict
    rw [printable.ofFile_eq written (read_of_writeFile written wrote), decoded]
    rfl

/-- Words that end in `ж`, with symbols of several characters and a state without transitions. -/
private def endsInZhe : DFA where
  alphabet := ["aa", "ж"]
  policy := .sparse
  states := [⟨"B", ["q"], true, false, ∅⟩,
    ⟨"A", ["p"], false, true, Table.ofList [("ж", "B"), ("aa", "A"), ("other", "Z")]⟩]
  initial := some "A"
  finals := ["B"]

private def workFolder : File.Tree := .ofCurrent ["work"]

theorem decode_toText_endsInZhe :
    ∃ text nfa, endsInZhe.toText? = some text ∧ endsInZhe.ReadsBackAs nfa ∧
      (∀ source symbol, nfa.targets source symbol =
        match endsInZhe.successor? source symbol with
        | some target => {target}
        | none => ∅) ∧
      (∀ strict, NFA.ofText strict text = ⟨[], .ok nfa⟩) ∧
      ∃ after, endsInZhe.writeFile File.noRefusals workFolder "out.txt" = (after, .ok ()) ∧
        ∀ strict, NFA.ofFile after strict "out.txt" = ⟨[], .ok nfa⟩ := by
  have closed : ∀ transition ∈ endsInZhe.transitions, transition.target ∈ endsInZhe.labels := by
    decide +kernel
  have printable : endsInZhe.Printable :=
    { labels_nodup := by decide
      labels_words := by decide +kernel
      symbols_words := by decide +kernel
      initial := by decide
      finals_eq := rfl
      dangling_eq_nil := List.filter_eq_nil_iff.mpr (by simpa using closed) }
  have wrote : (endsInZhe.writeFile File.noRefusals workFolder "out.txt").2 = .ok () := by
    decide +kernel
  obtain ⟨text, nfa, written, same, targets_eq, decoded, fromFile⟩ := decode_toText printable
  exact ⟨text, nfa, written, same, targets_eq, decoded, _, Prod.ext rfl wrote,
    fromFile _ _ _ _ (Prod.ext rfl wrote)⟩

end Printable

end Determinizer.DFA
