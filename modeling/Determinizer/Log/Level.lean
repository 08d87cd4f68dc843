/-! # Severity of log records -/

namespace Determinizer.Log

inductive Level where
  | debug
  | info
  | warning
  | error
  | critical
  deriving DecidableEq, Repr, Inhabited

namespace Level

def severity : Level → Nat
  | debug => 10
  | info => 20
  | warning => 30
  | error => 40
  | critical => 50

instance : LE Level := ⟨fun left right => left.severity ≤ right.severity⟩

instance (left right : Level) : Decidable (left ≤ right) :=
  inferInstanceAs (Decidable (left.severity ≤ right.severity))

def toText : Level → String
  | debug => "DEBUG"
  | info => "INFO"
  | warning => "WARNING"
  | error => "ERROR"
  | critical => "CRITICAL"

/-- The names a level goes by: `WARN` and `FATAL` are names of `WARNING` and `CRITICAL`. -/
def ofText? : String → Option Level
  | "DEBUG" => some debug
  | "INFO" => some info
  | "WARNING" => some warning
  | "WARN" => some warning
  | "ERROR" => some error
  | "CRITICAL" => some critical
  | "FATAL" => some critical
  | _ => none

/-- The level named by a threshold: an unset one lets warnings and what is above them pass. -/
def ofThreshold? (text : String) : Option Level :=
  if text = "NOTSET" then some warning else ofText? text

theorem ofText?_toText (level : Level) : ofText? level.toText = some level := by
  cases level <;> rfl

end Level

end Determinizer.Log
