/-! # Graphs

A graph is the list of its settings, nodes and edges in the order in which they were added. How it is
written as text is up to the drawing program.
-/

namespace Determinizer.Dot

/-- One entry of a graph. -/
inductive Statement where
  | setting (key value : String)
  | node (name shape : String)
  | edge (tail head : String) (label : Option String)
  deriving DecidableEq, Repr

/-- A directed graph; its statements stay in the order given. -/
structure Graph where
  comment : String
  statements : List Statement
  deriving DecidableEq, Repr

end Determinizer.Dot
