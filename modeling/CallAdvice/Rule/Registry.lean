import CallAdvice.NameSet
import CallAdvice.Rule.Check

/-! Which matchers are tried for which function. Matchers registered for the same name are tried in
the order of their registration. -/
set_option autoImplicit false

namespace CallAdvice

/-- Matchers under the names of functions. -/
structure Registry where
  entries : List (String × Matcher)

namespace Registry

/-- The registry without matchers. -/
def empty : Registry := ⟨[]⟩

/-- Adds a matcher under one name. -/
def register (r : Registry) (callee : String) (m : Matcher) : Registry :=
  ⟨r.entries ++ [(callee, m)]⟩

/-- Adds one matcher under several names. -/
def registerAll (r : Registry) (callees : List String) (m : Matcher) : Registry :=
  callees.foldl (fun r callee => r.register callee m) r

/-- The matchers to try for a function, in order. -/
def lookup (r : Registry) (callee : String) : List Matcher :=
  r.entries.filterMap fun entry => if entry.1 = callee then some entry.2 else none

/-- The names with matchers. -/
def callees (r : Registry) : NameSet := NameSet.ofList (r.entries.map (·.1))

/-- The identifiers of the rules. -/
def ruleIds (r : Registry) : NameSet := NameSet.ofList (r.entries.map (·.2.id))

end Registry

end CallAdvice
