import Determinizer.CommandLine.Session
import Determinizer.Proofs.Conversion.Errors
import Determinizer.Proofs.Log.Journal

/-! # What a run warns of

A conversion warns of the lines that its reading passed over and then, once, of the symbols that it
ignores. A log that lets only warnings pass is the same as if nothing else had been reported. So the
files after such a log follow from these warnings alone.
-/

namespace Determinizer

/-- An event that is let pass where nothing more is asked for. -/
def Event.warns (event : Event) : Bool := Log.Level.warning ≤ event.level

namespace Outcome

variable {ε α β : Type}

def warnings (outcome : Outcome ε α) : List Event := outcome.events.filter Event.warns

theorem warnings_bind_of_ok {first : Outcome ε α} {value : α} (ended : first.result = .ok value)
    (next : α → Outcome ε β) :
    (first >>= next).warnings = first.warnings ++ (next value).warnings := by
  rw [bind_of_ok ended, warnings, List.filter_append, warnings, warnings]

/-- What warns of nothing adds nothing, whether it is come to or not. -/
theorem warnings_bind_of_silent (first : Outcome ε α) {next : α → Outcome ε β}
    (silent : ∀ value, (next value).warnings = []) : (first >>= next).warnings = first.warnings := by
  cases ended : first.result with
  | error cause => rw [bind_of_error ended, warnings, warnings]
  | ok value => rw [warnings_bind_of_ok ended, silent, List.append_nil]

theorem warnings_report_bind (events : List Event) (next : Unit → Outcome ε α) :
    (report events >>= next).warnings = events.filter Event.warns ++ (next ()).warnings :=
  warnings_bind_of_ok rfl next

theorem warnings_mapError {φ : Type} (wrap : ε → φ) (outcome : Outcome ε α) :
    (outcome.mapError wrap).warnings = outcome.warnings := by
  rw [warnings, mapError, warnings]

end Outcome

open Outcome

variable {nfa : NFA} {config : Config}

theorem DFA.warnings_prune (dfa : DFA) : dfa.prune.warnings = [] := by
  rw [warnings, events_prune]
  split <;> rfl

/-- The construction tells what it made, and that is no warning. -/
theorem NFA.warnings_determinize (nfa : NFA) (subsets : List Subset) (alphabet : List Symbol)
    (policy : Policy) : (nfa.determinize subsets alphabet policy).warnings = [] := by
  rw [determinize, warnings_bind_of_silent]
  · rfl
  intro dfa
  have told : (dfa.states.map Event.stateMade).filter Event.warns = [] := by
    refine List.filter_eq_nil_iff.mpr fun event member => ?_
    obtain ⟨state, _, rfl⟩ := List.mem_map.mp member
    exact Bool.false_ne_true
  rw [warnings_report_bind, List.filter_cons_of_neg Bool.false_ne_true, told]
  rfl

/-- A conversion within its limit warns only of symbols that it ignores. -/
theorem NFA.warnings_convert (within : ¬ nfa.Exceeds config) : (nfa.convert config).warnings =
    if (nfa.symbolsOutside config.alphabet).isEmpty then []
    else [.symbolsIgnored config.alphabet (nfa.symbolsOutside config.alphabet)] := by
  have unguarded : (nfa.convert config).warnings =
      (report (if (nfa.symbolsOutside config.alphabet).isEmpty then []
          else [.symbolsIgnored config.alphabet (nfa.symbolsOutside config.alphabet)]) >>=
        fun _ => nfa.determinize (nfa.subsets config.policy) config.alphabet config.policy >>=
          fun dfa => dfa.prune).warnings := by
    simp only [convert]
    cases limited : config.maxStates with
    | none => rfl
    | some limit =>
      have small : ¬ limit < nfa.states.length := fun exceeds => within ⟨limit, limited, exceeds⟩
      simp only [if_neg small]
  rw [unguarded, warnings_report_bind, warnings_bind_of_silent _ DFA.warnings_prune,
    warnings_determinize, List.append_nil]
  split <;> rfl

/-- To read a file warns of what reading its text warns of. -/
theorem NFA.warnings_ofFile {files : File.Tree} {path text : String} {strict : Bool}
    (readable : files.read path = .ok text.toUTF8) :
    (ofFile files strict path).warnings = (ofText strict (Text.withLineFeeds text)).warnings := by
  rw [ofFile_of_read readable, warnings_mapError]

namespace CommandLine

open File (Location Tree)

variable {host : Host} {arguments : Arguments} {session : Session} {files moved : Tree}
  {input text : String} {file : Location} {warning : Event}

/-- What a run warns of that converts its input: what the reading warned of, and then what the
conversion warns of. -/
theorem Arguments.warnings_convert (readable : files.read input = .ok text.toUTF8)
    (reads : (NFA.ofText config.strict (Text.withLineFeeds text)).result = .ok nfa) :
    (arguments.convert config files input).warnings =
      (NFA.ofText config.strict (Text.withLineFeeds text)).warnings ++ (nfa.convert config).warnings := by
  have read : (NFA.ofFile files config.strict input).result = .ok nfa := by
    rw [NFA.ofFile_of_read readable, result_mapError_eq_ok_iff, reads]
  rw [convert, warnings_bind_of_ok read, NFA.warnings_ofFile readable, warnings_report_bind,
    List.filter_cons_of_neg Bool.false_ne_true, List.filter_nil, List.nil_append]
  refine (congrArg _ (warnings_bind_of_silent _ fun dfa => ?_)).trans rfl
  have silent : ((if arguments.showSubsets then [Event.subsetsListed (nfa.subsets config.policy)]
      else []) ++ [Event.automatonMade dfa.labels dfa.initial]).filter Event.warns = [] := by
    cases arguments.showSubsets <;> rfl
  rw [warnings_report_bind, silent]
  rfl

/-- What cannot be read is not converted, and all that a run warns of is what the reading warned of. -/
theorem Arguments.convert_of_unread {error : Error} (readable : files.read input = .ok text.toUTF8)
    (unread : (NFA.ofText config.strict (Text.withLineFeeds text)).result = .error error) :
    (arguments.convert config files input).result = .error (.error error) ∧
      (arguments.convert config files input).warnings =
        (NFA.ofText config.strict (Text.withLineFeeds text)).warnings := by
  have failed : (NFA.ofFile files config.strict input).result = .error (.error error) := by
    rw [NFA.ofFile_of_read readable, mapError, unread]
    rfl
  rw [convert, bind_of_error failed]
  exact ⟨rfl, NFA.warnings_ofFile readable⟩

/-- A log that lets warnings pass is as if only the warnings had been reported. -/
theorem Session.logAll_eq_logAll_filter
    (threshold_eq : session.journal.sinks.threshold = .warning) (events : List Event) :
    session.logAll host events = session.logAll host (events.filter Event.warns) := by
  induction events generalizing session with
  | nil => rfl
  | cons event rest ih =>
    have step : ∀ later, session.logAll host (event :: later) =
        (session.logAll host [event]).logAll host later := fun _ => rfl
    have kept : (session.logAll host [event]).journal.sinks.threshold = .warning := by
      rw [← threshold_eq]
      exact congrArg Log.Sinks.threshold (Log.Journal.sinks_log ..)
    cases warns : event.warns with
    | true => rw [List.filter_cons_of_pos warns, step rest, ih kept, ← step]
    | false =>
      have dropped : session.journal.sinks.admits
          (event.record (host.stamp session.journal.records.length event)) = false := by
        rw [Log.Sinks.admits, threshold_eq]
        exact warns
      have same : session.logAll host [event] = session := by
        rw [logAll, List.foldl_cons, Log.Journal.log_of_not_admits dropped, List.foldl_nil]
      rw [List.filter_cons_of_neg (by simp [warns]), step rest, same, ih threshold_eq]

/-- A single warning that is too much for the log file begins a new one. -/
theorem Session.files_logAll_of_backUp {events : List Event}
    (threshold_eq : session.journal.sinks.threshold = .warning)
    (file_eq : session.journal.sinks.file = some file)
    (warned : events.filter Event.warns = [warning])
    (tooMuch : Log.isTooMuch session.files file
      (warning.record (host.stamp session.journal.records.length warning)).fileLine = true)
    (backedUp : session.files.backUp file Log.backupCount = (moved, .ok ())) :
    (session.logAll host events).files = Log.appendText moved file
      (warning.record (host.stamp session.journal.records.length warning)).fileLine := by
  have member : warning ∈ events.filter Event.warns := by
    rw [warned]
    exact List.mem_singleton_self _
  have warns : warning.warns = true := (List.mem_filter.mp member).2
  have admitted : session.journal.sinks.admits
      (warning.record (host.stamp session.journal.records.length warning)) = true := by
    rw [Log.Sinks.admits, threshold_eq]
    exact warns
  rw [logAll_eq_logAll_filter threshold_eq, warned]
  exact Log.Journal.files_log_of_backUp admitted file_eq tooMuch backedUp

end CommandLine

end Determinizer
