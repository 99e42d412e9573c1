import CallAdvice.Host

/-! Scripted hosts: the outcomes of each kind of request are listed in advance. The last outcome of
a list goes on for ever, and an empty list means that all goes well. -/
set_option autoImplicit false

namespace CallAdvice.Host

/-- Listed outcomes for each kind of request. -/
structure Script where
  /-- The outcomes of the requests for a scratch context. -/
  acquire : List Outcome
  /-- The outcomes of the evaluations, by the function called. -/
  eval : List (String × List Outcome)
  /-- The outcomes of the releases, those while unwinding apart. -/
  release : List Outcome

namespace Script

/-- The outcome of the `n`-th use of a list, from 0. -/
def outcome (listed : List Outcome) (n : Nat) : Outcome :=
  (listed[n]? <|> listed.getLast?).getD .ok

/-- The outcomes listed for a call. -/
def evalOutcomes (s : Script) (call : Call) : List Outcome :=
  (call.callee?.bind fun callee => s.eval.lookup callee).getD []

/-- Whether a past exchange used the same list as a request. -/
def sameList : Op → Exchange → Bool
  | .acquire, ⟨.acquire, _⟩ => true
  | .eval _ call, ⟨.eval _ earlier, _⟩ => call.callee? == earlier.callee?
  | .release _ false, ⟨.release _ false, _⟩ => true
  | _, _ => false

/-- How a host with this script reacts: each list is used up in order. A release while unwinding
takes no outcome. -/
def behaviour (s : Script) : Behaviour := fun history op =>
  let n := history.countP (sameList op)
  match op with
  | .acquire => outcome s.acquire n
  | .eval _ call => outcome (s.evalOutcomes call) n
  | .release _ false => outcome s.release n
  | .release _ true => .ok

end Script

end CallAdvice.Host
