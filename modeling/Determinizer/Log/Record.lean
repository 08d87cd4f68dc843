import Determinizer.Log.Level

/-! # Log records and their written forms -/

namespace Determinizer.Log

/-- The name before the dot of every logger. -/
def rootLogger : String := "nfa2dfa"

def loggerNamed (name : String) : String := rootLogger ++ "." ++ name

/-- When a record was made and at which place of the program, as texts. The clock and the places are
not part of this library, so a record takes both as they are given to it. -/
structure Stamp where
  time : String
  place : String
  deriving DecidableEq, Repr

structure Record where
  level : Level
  logger : String
  message : String
  stamp : Stamp
  deriving DecidableEq, Repr

/-- The line written to the console. -/
def Record.consoleLine (record : Record) : String :=
  record.level.toText ++ " - " ++ record.logger ++ " - " ++ record.message ++ "\n"

/-- The line written to a log file. -/
def Record.fileLine (record : Record) : String :=
  record.stamp.time ++ " - " ++ record.logger ++ " - " ++ record.level.toText ++ " - " ++
    record.stamp.place ++ " - " ++ record.message ++ "\n"

/-- The line written where no output is set up. -/
def Record.bareLine (record : Record) : String := record.message ++ "\n"

end Determinizer.Log
