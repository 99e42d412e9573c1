import CallAdvice.Host.Probe
import CallAdvice.Selection.Gate
import CallAdvice.Selection.Text

/-! The log. Every decision worth following is an entry; an entry has a level, a fixed message and
named fields. -/
set_option autoImplicit false

namespace CallAdvice.Log

/-- How much an entry matters. -/
inductive Level where
  /-- Something is wrong, and work goes on. -/
  | warn
  /-- A step worth seeing when looking for a fault. -/
  | debug
  /-- A step of every single call. -/
  | trace
  deriving DecidableEq

/-- The name of a level. -/
def Level.name : Level → String
  | .warn => "WARN"
  | .debug => "DEBUG"
  | .trace => "TRACE"

/-- What is logged. -/
inductive Entry where
  /-- There is no configuration file. -/
  | configDefaulted
  /-- A configuration file was read. -/
  | configLoaded (warnings : Selection) (overrides : Nat)
  /-- The configuration pins a capability that there is not. -/
  | unknownCapability (id : String)
  /-- The gate is closed, since the selection has no known shape. -/
  | selectionUnrecognized
  /-- A probe met an error. -/
  | probeFailed (c : Capability) (e : HostError)
  /-- A probe met a crash. -/
  | probeCrashed (c : Capability)
  | probed (c : Capability) (present : Bool)
  /-- A matcher gave a diagnostic. -/
  | matched (callee rule : String)
  /-- A diagnostic goes to its sink. -/
  | emitting (rule message : String)
  deriving DecidableEq

namespace Entry

/-- The level of an entry. -/
def level : Entry → Level
  | .unknownCapability _ => .warn
  | .configDefaulted | .configLoaded .. => .debug
  | .probeFailed .. | .probeCrashed _ | .probed .. => .debug
  | .selectionUnrecognized | .matched .. | .emitting .. => .trace

/-- The message of an entry. -/
def message : Entry → String
  | .configDefaulted => "no config file, using defaults"
  | .configLoaded .. => "loaded config"
  | .unknownCapability _ => "unknown capability in config, ignoring"
  | .selectionUnrecognized => "unrecognized warning selection, " ++ category ++ " disabled"
  | .probeFailed .. => "probe failed"
  | .probeCrashed _ => "probe panicked"
  | .probed .. => "probed capability"
  | .matched .. => "matched"
  | .emitting .. => "emitting diagnostic"

/-- The fields of an entry, by name. -/
def fields : Entry → List (String × String)
  | .configDefaulted => []
  | .configLoaded warnings overrides =>
    [("warnings", warnings.text), ("overrides", String.ofList (decimal overrides))]
  | .unknownCapability id => [("id", id)]
  | .selectionUnrecognized => []
  | .probeFailed c e => [("capability", c.id), ("error", e.message)]
  | .probeCrashed c => [("capability", c.id)]
  | .probed c present => [("capability", c.id), ("present", if present then "true" else "false")]
  | .matched callee rule => [("callee", callee), ("rule", rule)]
  | .emitting rule message => [("rule", rule), ("message", message)]

end Entry

/-- The entries on a finished probe. -/
def ofVerdict (c : Capability) (v : Verdict) : List Entry :=
  match v with
  | .present => [.probed c true]
  | .failed e => [.probeFailed c e, .probed c false]
  | .crashed => [.probeCrashed c, .probed c false]

/-- The entries on a selection at the gate. -/
def ofSelection (s : Selection) : List Entry :=
  if s.isUnrecognized then [.selectionUnrecognized] else []

end CallAdvice.Log
