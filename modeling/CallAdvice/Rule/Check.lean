import CallAdvice.Diagnostic

/-! Matchers. A matcher looks at a call and the name under which it was looked up, may ask for
capabilities, and gives a diagnostic or passes. Its decision is a tree of questions, so it can be
run with any way of answering them: by probing a host, from memory, or from a table.

* `Check.run`: follows the tree, answering in some state.
* `Check.decide`: follows the tree with all answers given. -/
set_option autoImplicit false

namespace CallAdvice

/-- A decision that may ask for capabilities. -/
inductive Check where
  | done (result : Option Diagnostic)
  /-- It depends on whether the host has a capability. -/
  | ask (capability : Capability) (next : Bool → Check)

namespace Check

/-- No diagnostic. -/
def pass : Check := .done none

/-- The given diagnostic. -/
def give (d : Diagnostic) : Check := .done (some d)

/-- Follows the questions, answering each one in the state that the answers before it have left. -/
def run {σ : Type} (answer : Capability → σ → Bool × σ) : Check → σ → Option Diagnostic × σ
  | .done result, s => (result, s)
  | .ask c next, s => (next (answer c s).1).run answer (answer c s).2

/-- The decision for given answers. -/
def decide (answers : Capability → Bool) : Check → Option Diagnostic
  | .done result => result
  | .ask c next => (next (answers c)).decide answers

@[simp] theorem decide_pass (answers : Capability → Bool) : pass.decide answers = none := rfl

@[simp] theorem decide_give (answers : Capability → Bool) (d : Diagnostic) :
    (give d).decide answers = some d := rfl

@[simp] theorem decide_ask (answers : Capability → Bool) (c : Capability) (next : Bool → Check) :
    (ask c next).decide answers = (next (answers c)).decide answers := rfl

end Check

/-- A rule's test of calls. -/
structure Matcher where
  id : String
  /-- Whether its runs are announced to whoever follows the engine. -/
  announced : Bool
  /-- The decision on a call that was looked up under the name `callee`. -/
  check : (callee : String) → (call : Call) → Check

end CallAdvice
