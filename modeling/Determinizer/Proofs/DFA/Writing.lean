import Determinizer.DFA.File
import Determinizer.Proofs.File.Acceptance

/-! # Automata are written as a whole or not at all

To write an automaton its text form is made, put into a temporary file and moved to the path. If that
succeeds the path has the text and nothing else has changed. If any of it fails, be it that there is
no text form, that the path accepts no file or that a step is refused, the files are as before. In
either case the temporary file is gone.
-/

namespace Determinizer.DFA

open File (Location Refusals Tree)

variable {dfa : DFA} {files after : Tree} {refusals : Refusals} {path text : String}
  {temporary : Location} {fault : WriteFault}

/-- The text of an automaton stands at the path, and no other place in the tree has changed. -/
structure StandsAlone (dfa : DFA) (files after : Tree) (path : String) : Prop where
  text : ∃ text, dfa.toText? = some text ∧ after.read path = .ok text.toUTF8 ∧
    after.node? (File.Path.normalize files.current path) = some (.file text.toUTF8)
  elsewhere : ∀ location, location ≠ File.Path.normalize files.current path →
    after.node? location = files.node? location
  current_eq : after.current = files.current

/-- An automaton is written to a path as a whole or not at all. -/
structure WritesWhole (refusals : Refusals) (dfa : DFA) (files : Tree) (path : String) :
    Prop where
  /-- Writing succeeds where there is an initial state to write, the path accepts a file and no step
  is refused, and only there. -/
  written_iff : (dfa.writeFile refusals files path).2 = .ok () ↔
    dfa.initial ≠ none ∧ files.Accepts path ∧ ∀ step, refusals step = none
  whole : ∀ after, dfa.writeFile refusals files path = (after, .ok ()) →
    dfa.StandsAlone files after path
  notAtAll : ∀ after fault, dfa.writeFile refusals files path = (after, .error fault) → after = files
  noTemporary : ∀ temporary, files.temporaryLocation path = .ok temporary →
    files.node? temporary = none ∧ (dfa.writeFile refusals files path).1.node? temporary = none

theorem writeFile_of_toText? (written : dfa.toText? = some text) :
    dfa.writeFile refusals files path =
      ((files.replaceFile refusals path text.toUTF8).1,
        (files.replaceFile refusals path text.toUTF8).2.mapError .file) := by
  rw [writeFile, written]

theorem mapError_eq_ok_iff {ε φ α : Type} {wrap : ε → φ} {result : Except ε α} {value : α} :
    result.mapError wrap = .ok value ↔ result = .ok value := by
  cases result <;> simp [Except.mapError]

theorem result_writeFile_eq_ok_iff (plain : File.Path.IsPlain files.current) :
    (dfa.writeFile refusals files path).2 = .ok () ↔
      dfa.initial ≠ none ∧ files.Accepts path ∧ ∀ step, refusals step = none := by
  cases written : dfa.toText? with
  | none => simp [writeFile, written, toText?_eq_none_iff.mp written]
  | some text =>
    have isInitial : dfa.initial ≠ none := by
      rw [Ne, ← toText?_eq_none_iff, written]
      exact Option.some_ne_none _
    rw [writeFile_of_toText? written, mapError_eq_ok_iff, File.Tree.replaceFile_eq_ok_iff plain]
    exact (and_iff_right isInitial).symm

theorem standsAlone_of_writeFile (plain : File.Path.IsPlain files.current)
    (wrote : dfa.writeFile refusals files path = (after, .ok ())) :
    dfa.StandsAlone files after path := by
  cases written : dfa.toText? with
  | none => simp [writeFile, written] at wrote
  | some text =>
    rw [writeFile_of_toText? written, Prod.mk.injEq, mapError_eq_ok_iff] at wrote
    have replaced : files.replaceFile refusals path text.toUTF8 = (after, .ok ()) :=
      Prod.ext wrote.1 wrote.2
    have readable := File.Tree.read_replaceFile replaced
    obtain ⟨rfl, below, _⟩ := File.Tree.eq_put_of_replaceFile plain replaced
    refine ⟨⟨text, written, readable, ?_⟩, fun location elsewhere => ?_, rfl⟩
    · rw [File.Tree.node?_put below, if_pos rfl]
    · rw [File.Tree.node?_put below, if_neg elsewhere]

/-- An automaton that is not written leaves the files as they were. -/
theorem eq_of_writeFile_error (plain : File.Path.IsPlain files.current)
    (failed : dfa.writeFile refusals files path = (after, .error fault)) : after = files := by
  cases written : dfa.toText? with
  | none =>
    rw [writeFile, written] at failed
    exact (Prod.mk.inj failed).1.symm
  | some text =>
    rw [writeFile_of_toText? written] at failed
    rcases replaced : files.replaceFile refusals path text.toUTF8 with ⟨left, refused | _⟩
    · rw [replaced] at failed
      obtain rfl := (Prod.mk.inj failed).1
      exact File.Tree.eq_of_replaceFile_error plain replaced
    · rw [replaced] at failed
      obtain ⟨_, impossible⟩ := Prod.mk.inj failed
      cases impossible

theorem node?_temporary_writeFile (plain : File.Path.IsPlain files.current)
    (found : files.temporaryLocation path = .ok temporary) :
    files.node? temporary = none ∧
      (dfa.writeFile refusals files path).1.node? temporary = none := by
  have free := File.Tree.node?_eq_none_of_not_mem_keys
    (File.Tree.ne_nil_of_temporaryLocation found)
    (File.Tree.not_mem_keys_of_temporaryLocation plain found)
  refine ⟨free, ?_⟩
  cases written : dfa.toText? with
  | none =>
    rw [writeFile, written]
    exact free
  | some text =>
    rw [writeFile_of_toText? written]
    exact File.Tree.node?_temporary_replaceFile plain found

/-- Whatever is refused and wherever the path leads, an automaton is written as a whole or the files
are as before. -/
theorem writeFile_writesWhole (plain : File.Path.IsPlain files.current) (refusals : Refusals)
    (dfa : DFA) (path : String) : WritesWhole refusals dfa files path where
  written_iff := result_writeFile_eq_ok_iff plain
  whole := fun _ => standsAlone_of_writeFile plain
  notAtAll := fun _ _ => eq_of_writeFile_error plain
  noTemporary := fun _ => node?_temporary_writeFile plain

/-- A result stands at `dfa`; `gone` is no folder. -/
private def resultFiles : Tree :=
  (Tree.ofCurrent ["work"]).put ["work", "dfa"] (.file "old\n".toUTF8)

private def loneLoop : DFA :=
  ofStates ["0"] .sparse [⟨"A", ["q"], true, true, Table.ofList [("0", "A")]⟩]

/-- The move is refused for want of a folder on the way, although the folder that the path spells
is there; straight to the same place it goes through. Without an initial state nothing is tried. -/
theorem writeFile_writesWhole_detour : File.Path.IsPlain resultFiles.current ∧
    loneLoop.StandsAlone resultFiles
      (loneLoop.writeFile File.noRefusals resultFiles "dfa").1 "dfa" ∧
    loneLoop.writeFile File.noRefusals resultFiles "gone/../dfa" =
      (resultFiles, .error (.file ⟨.move, .missing⟩)) ∧
    (ofAlphabet ["0"] .sparse).writeFile File.noRefusals resultFiles "dfa" =
      (resultFiles, .error .noInitialState) := by
  have plain : File.Path.IsPlain resultFiles.current := by
    rintro name (_ | ⟨_, ⟨⟩⟩)
    exact ⟨by decide, by decide⟩
  have straight := writeFile_writesWhole plain File.noRefusals loneLoop "dfa"
  have wrote : (loneLoop.writeFile File.noRefusals resultFiles "dfa").2 = .ok () := by
    decide +kernel
  have around := writeFile_writesWhole plain File.noRefusals loneLoop "gone/../dfa"
  have failed : (loneLoop.writeFile File.noRefusals resultFiles "gone/../dfa").2 =
      .error (.file ⟨.move, .missing⟩) := by
    decide +kernel
  have unchanged := around.notAtAll _ _ (Prod.ext rfl failed)
  exact ⟨plain, straight.whole _ (Prod.ext rfl wrote), Prod.ext unchanged failed, rfl⟩

end Determinizer.DFA
