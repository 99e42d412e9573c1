import CallAdvice.Capability
import CallAdvice.Host

/-! Probing a host for a capability: in a scratch context of its own, the capability's forms are
evaluated one after the other, and the context is given back whatever happens. An error or a crash
at any point means that the capability is absent. -/
set_option autoImplicit false

namespace CallAdvice

/-- How a probe ends. -/
inductive Verdict where
  /-- Every form was evaluated: the capability is there. -/
  | present
  /-- The host reported an error. -/
  | failed (e : HostError)
  | crashed
  deriving DecidableEq

namespace Verdict

/-- Whether the capability is there. -/
def isPresent : Verdict → Bool
  | .present => true
  | _ => false

/-- Whether the host crashed. -/
def isCrash : Verdict → Bool
  | .crashed => true
  | _ => false

end Verdict

namespace Host

/-- Evaluates calls in a scratch context up to the first one that does not go well. -/
def evalAll (h : Host) (scratch : Nat) : List Call → Verdict × Host
  | [] => (.present, h)
  | call :: calls =>
    match h.perform (.eval scratch call) with
    | (.ok, h) => evalAll h scratch calls
    | (.error e, h) => (.failed e, h)
    | (.crash, h) => (.crashed, h)

/-- Gives a scratch context back after its evaluations ended in `verdict`. A crash on the way back
is a crash of the probe; while a crash is unwinding already, the release itself goes well. -/
def giveBack (h : Host) (scratch : Nat) (verdict : Verdict) : Verdict × Host :=
  if verdict.isCrash then (.crashed, h.record (.release scratch true) .ok)
  else
    match h.perform (.release scratch false) with
    | (.crash, h) => (.crashed, h)
    | (_, h) => (verdict, h)

/-- Probes for a capability: how it ends, and the host afterwards. -/
def probe (h : Host) (c : Capability) : Verdict × Host :=
  match h.perform .acquire with
  | (.error e, after) => (.failed e, after)
  | (.crash, after) => (.crashed, after)
  | (.ok, after) =>
    let (verdict, after) := after.evalAll h.granted c.forms
    after.giveBack h.granted verdict

end Host

end CallAdvice
