import CallAdvice.Diagnostic

/-! Where warnings go: into a collection that can be read later, or onto the console. -/
set_option autoImplicit false

namespace CallAdvice

/-- A receiver of warnings. -/
inductive Sink where
  /-- The collection with a given number. -/
  | collection (index : Nat)
  /-- The console, perhaps with colours. -/
  | console (colours : Bool)
  deriving DecidableEq

/-- Bold yellow text on a terminal. -/
def bold (text : String) : String := "\x1b[1;33m" ++ text ++ "\x1b[0m"

/-- The console line of a warning; with colours, its label is bold yellow. -/
def Warning.line (w : Warning) (colours : Bool) : String :=
  let label := "Warning (" ++ w.category ++ "):"
  (if colours then bold label else label) ++ " " ++ w.message

end CallAdvice
