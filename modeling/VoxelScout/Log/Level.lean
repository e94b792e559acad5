import VoxelScout.Text.Case

/-! # Levels of log lines -/

namespace VoxelScout.Log

inductive Level where
  | debug
  | info
  | warn
  | error
  deriving DecidableEq, Repr

namespace Level

/-- The weight of a level: four apart, and zero for `info`. -/
def severity : Level → Int
  | .debug => -4
  | .info => 0
  | .warn => 4
  | .error => 8

/-- The level of a name in any case. A name that is none is taken for `info`. -/
def ofName (name : String) : Level :=
  match Text.lower name with
  | "debug" => .debug
  | "warn" => .warn
  | "warning" => .warn
  | "error" => .error
  | _ => .info

def label : Level → String
  | .debug => "DEBUG"
  | .info => "INFO"
  | .warn => "WARN"
  | .error => "ERROR"

def reaches (level least : Level) : Bool :=
  least.severity ≤ level.severity

end Level

end VoxelScout.Log
