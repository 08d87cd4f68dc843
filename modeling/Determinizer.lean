import Determinizer.Main
import Determinizer.Subset.Index
import Determinizer.Proofs.NFA.Path
import Determinizer.Proofs.DFA.Run
import Determinizer.Proofs.Label
import Determinizer.Proofs.Subset.Enumeration
import Determinizer.Proofs.SubsetConstruction.Rows
import Determinizer.Proofs.SubsetConstruction.Automaton
import Determinizer.Proofs.SubsetConstruction.States
import Determinizer.Proofs.SubsetConstruction.Construction
import Determinizer.Proofs.SubsetConstruction.Closure
import Determinizer.Proofs.SubsetConstruction.Simulation
import Determinizer.Proofs.DFA.Reachability
import Determinizer.Proofs.DFA.ReachablePart
import Determinizer.Proofs.DFA.Editing
import Determinizer.Proofs.Conversion.Pruning
import Determinizer.Proofs.Conversion.Result
import Determinizer.Proofs.Conversion.Accessible
import Determinizer.Proofs.NFA.Reading
import Determinizer.Proofs.Conversion.Errors
import Determinizer.Proofs.DFA.ReadBack
import Determinizer.Proofs.Text.Tokens
import Determinizer.Proofs.DFA.Tokens
import Determinizer.Proofs.Conversion.Language
import Determinizer.Proofs.Subset.Canonical
import Determinizer.Proofs.Conversion.Policies
import Determinizer.Proofs.File.Replacement
import Determinizer.Proofs.DFA.WrittenFile
import Determinizer.Proofs.Conversion.Legible
import Determinizer.Proofs.Conversion.NameOrder
import Determinizer.Proofs.Conversion.Repeated
import Determinizer.Proofs.Text.Runs
import Determinizer.Proofs.NFA.Grammar
import Determinizer.Proofs.Conversion.SameAutomaton
import Determinizer.Proofs.DFA.Reordering
import Determinizer.Proofs.Conversion.AlphabetOrder
import Determinizer.Proofs.File.Preservation
import Determinizer.Proofs.File.Saving
import Determinizer.Proofs.File.Backups
import Determinizer.Proofs.Log.Journal
import Determinizer.Proofs.CommandLine.Warnings
import Determinizer.Proofs.CommandLine.Run
import Determinizer.Proofs.CommandLine.FailedRun
import Determinizer.Proofs.CommandLine.MissingTool
import Determinizer.Proofs.Subset.Powerset
import Determinizer.Proofs.DFA.Defects
import Determinizer.Proofs.SubsetConstruction.Failures
import Determinizer.Proofs.Conversion.Labelling
import Determinizer.Proofs.Conversion.Tokens
import Determinizer.Proofs.NFA.Progress
import Determinizer.Proofs.Subset.Sorting
import Determinizer.Proofs.NFA.FaultyLine
import Determinizer.Proofs.NFA.Lenient
import Determinizer.Proofs.NFA.LineEnds
import Determinizer.Proofs.DFA.Writing
import Determinizer.Proofs.DFA.Drawing
import Determinizer.Proofs.DFA.Walk
import Determinizer.Proofs.Log.Routing
