import CallAdvice.Diagnostic
import CallAdvice.Selection

/-! The gate: whether a selection lets advice through. What is not recognized keeps it closed. -/
set_option autoImplicit false

namespace CallAdvice.Selection

/-- Whether a selection switches the category of all advice on. -/
def allows : Selection → Bool
  | .all => true
  | .except categories => !categories.contains category
  | .only categories => categories.contains category
  | .unrecognized => false

/-- Whether a selection is a configured value of no known shape. -/
def isUnrecognized : Selection → Bool
  | .unrecognized => true
  | _ => false

end CallAdvice.Selection
