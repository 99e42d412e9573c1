import CallAdvice.Rule.Registry

/-! Rules of a simple kind that can be described by data: under some names, perhaps only where the
host has a capability, they give the same advice on every call. -/
set_option autoImplicit false

namespace CallAdvice.Rule

/-- What a described rule does with a call. -/
inductive Action where
  | skip
  /-- It gives a diagnostic without suggestions. -/
  | bare
  /-- It suggests the call without its arguments. -/
  | drop
  /-- It suggests the call itself. -/
  | keep
  /-- It suggests another function on the same arguments. -/
  | rename (callee : String)
  deriving DecidableEq

/-- A rule described by data. -/
structure Custom where
  /-- The names it is registered under. -/
  callees : List String
  /-- The identifier of its matcher. -/
  id : String
  action : Action
  /-- The capability without which it passes. -/
  needs : Option Capability
  /-- The name of the rule in its diagnostics. -/
  rule : String

namespace Custom

/-- The advice on a call, capabilities apart. -/
def advice (c : Custom) (call : Call) : Option Diagnostic :=
  let blank := Diagnostic.ofCall c.rule call
  match c.action with
  | .skip => none
  | .bare => some blank
  | .drop => some (blank.suggest (call.withArgs []) c.needs)
  | .keep => some (blank.suggest call c.needs)
  | .rename callee => some (blank.suggest (call.withCallee callee) c.needs)

/-- The matcher of a described rule. It asks for its capability before anything else. -/
def matcher (c : Custom) : Matcher where
  id := c.id
  announced := true
  check _ call :=
    match c.needs with
    | none => .done (c.advice call)
    | some capability => .ask capability fun present =>
        if present then .done (c.advice call) else .pass

end Custom

end CallAdvice.Rule

/-- Adds described rules to a registry, in order. -/
def CallAdvice.Registry.addCustom (r : Registry) (rules : List Rule.Custom) : Registry :=
  rules.foldl (fun r rule => r.registerAll rule.callees rule.matcher) r
