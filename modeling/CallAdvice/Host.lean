import CallAdvice.Call

/-! The host as far as probing needs it. It grants scratch contexts, evaluates calls in them and
takes them back; any of these may go well, report an error, or crash.

* `Host.Op`, `Host.Outcome`: what is asked of a host, and how it goes.
* `Host.Behaviour`: how a host reacts, which may depend on all that it was asked before.
* `Host.perform`: one exchange, which the host remembers. -/
set_option autoImplicit false

namespace CallAdvice

/-- An error that a host reports. -/
inductive HostError where
  /-- A signal with its data. -/
  | signal (symbol data : String)
  /-- A function got a number of arguments that it does not take. -/
  | arity (callee : String) (given : Nat)
  /-- There is no scratch context to be had. -/
  | noScratch (reason : String)
  deriving DecidableEq

/-- The text of a host error. -/
def HostError.message : HostError → String
  | .signal symbol data => symbol ++ ": " ++ data
  | .arity callee given =>
    "wrong number of arguments: " ++ callee ++ ", " ++ String.ofList (decimal given)
  | .noScratch reason => "cannot create scratch context: " ++ reason

namespace Host

/-- What can be asked of a host. Scratch contexts are numbered from 0 in the order in which the host
grants them. -/
inductive Op where
  /-- A fresh scratch context, please. -/
  | acquire
  /-- Evaluate a call in a scratch context. -/
  | eval (scratch : Nat) (call : Call)
  /-- Dispose of a scratch context; `unwinding` tells that an evaluation in it has crashed. -/
  | release (scratch : Nat) (unwinding : Bool)
  deriving DecidableEq

/-- How a request goes. -/
inductive Outcome where
  | ok
  /-- The host reports an error. -/
  | error (e : HostError)
  /-- The host breaks off without a report. -/
  | crash
  deriving DecidableEq

/-- A request and how it went. -/
structure Exchange where
  op : Op
  outcome : Outcome
  deriving DecidableEq

/-- How a host reacts to a request after the exchanges so far, oldest first. -/
abbrev Behaviour := List Exchange → Op → Outcome

end Host

/-- A host, with all that it was asked. -/
structure Host where
  behaviour : Host.Behaviour
  /-- The exchanges so far, oldest first. -/
  history : List Host.Exchange

namespace Host

/-- A host that was asked nothing yet. -/
def fresh (behaviour : Behaviour) : Host := ⟨behaviour, []⟩

/-- Adds an exchange to the history. -/
def record (h : Host) (op : Op) (outcome : Outcome) : Host :=
  { h with history := h.history ++ [⟨op, outcome⟩] }

/-- How the host would react to a request now. -/
def react (h : Host) (op : Op) : Outcome := h.behaviour h.history op

/-- Asks for something: how it goes, and the host afterwards. -/
def perform (h : Host) (op : Op) : Outcome × Host := (h.react op, h.record op (h.react op))

/-- The number of scratch contexts granted so far, which is the number of the next one. -/
def granted (h : Host) : Nat := h.history.countP (· == ⟨.acquire, .ok⟩)

end Host

end CallAdvice
