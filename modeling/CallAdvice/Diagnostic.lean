import CallAdvice.Capability

/-! Advice on one call: the category and the rule it belongs to, the call itself, and simpler forms
to write instead. A diagnostic has no place in the source; whoever reports it knows where the
compiler is. -/
set_option autoImplicit false

namespace CallAdvice

/-- The warning category of all advice. -/
def category : String := "simplify"

/-- A simpler form, and the capability that it relies on, if any. -/
structure Suggestion where
  form : Form
  /-- What a host must have for it. -/
  requires : Option Capability
  deriving DecidableEq

/-- Advice on a call that can be written more simply. -/
structure Diagnostic where
  /-- The warning category that it is reported under. -/
  category : String
  /-- The rule that gave it. -/
  rule : String
  /-- The call as it stands. -/
  subject : Form
  /-- What to write instead, in the order of preference. -/
  suggestions : List Suggestion
  deriving DecidableEq

/-- A warning as a sink receives it. -/
structure Warning where
  category : String
  message : String
  deriving DecidableEq

/-- The text of a suggestion, with the hosts that it needs. -/
def Suggestion.text (s : Suggestion) : String :=
  match s.requires with
  | some c => s.form.text ++ " in " ++ c.hosts
  | none => s.form.text

namespace Diagnostic

/-- Advice without suggestions yet, under the category of all advice. -/
def ofCall (rule : String) (subject : Call) : Diagnostic :=
  ⟨CallAdvice.category, rule, subject.toForm, []⟩

/-- Adds a suggestion, perhaps one that relies on a capability. -/
def suggest (d : Diagnostic) (form : Call) (requires : Option Capability) : Diagnostic :=
  { d with suggestions := d.suggestions ++ [⟨form.toForm, requires⟩] }

/-- The message of a diagnostic. -/
def message (d : Diagnostic) : String :=
  d.subject.text ++ " can be simplified to " ++
    String.intercalate ", or " (d.suggestions.map Suggestion.text)

/-- The warning that reports a diagnostic, under its category. -/
def warning (d : Diagnostic) : Warning := ⟨d.category, d.message⟩

end Diagnostic

end CallAdvice
