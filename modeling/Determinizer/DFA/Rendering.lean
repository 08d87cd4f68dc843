import Determinizer.DFA.Drawing
import Determinizer.File.Path

/-! # Requests to draw an automaton -/

namespace Determinizer.DFA

/-- What the drawing program is asked for: a picture of a graph in a format, at a path to which the
format is added. -/
structure Rendering where
  path : String
  format : String
  graph : Dot.Graph
  deriving DecidableEq, Repr

/-- The path of the picture. -/
def Rendering.picture (rendering : Rendering) : String :=
  rendering.path ++ "." ++ rendering.format

def defaultFormat : String := "png"

/-- The request for a picture of an automaton; the extension of the path is not used. -/
def rendering? (dfa : DFA) (path format : String) : Option Rendering :=
  dfa.graph?.map fun graph =>
    { path := File.Path.withoutExtension path, format, graph }

end Determinizer.DFA
