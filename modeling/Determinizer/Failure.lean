import Determinizer.Error

/-! # Failures of work on files -/

namespace Determinizer

/-- An error of the conversion, or a fault of the file system that is not one. -/
inductive Failure where
  | error (error : Error)
  | fault (fault : File.Fault)
  deriving DecidableEq

end Determinizer
