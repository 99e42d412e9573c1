import CallAdvice.Selection
import CallAdvice.Text.Literal

/-! How a selection is shown in the log. -/
set_option autoImplicit false

namespace CallAdvice.Selection

/-- A set of categories as a list of string literals in braces. -/
def categoriesText (categories : NameSet) : String :=
  "\x7b" ++ String.intercalate ", " (categories.names.map CallAdvice.Text.literal) ++ "\x7d"

/-- A selection as shown in the log. -/
def text : Selection → String
  | .all => "All"
  | .except categories => "Except(" ++ categoriesText categories ++ ")"
  | .only categories => "Only(" ++ categoriesText categories ++ ")"
  | .unrecognized => "Unrecognized"

end CallAdvice.Selection
