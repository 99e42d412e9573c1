import CallAdvice.Log
import CallAdvice.Rule.Builtin
import CallAdvice.Sink

/-! Engines. An engine holds the rules, what is known about its host's capabilities, where to read
the warning selection, and where warnings go. A capability can be pinned, and is then never probed;
otherwise the first answer is remembered and stays. -/
set_option autoImplicit false

namespace CallAdvice

/-- Where an engine reads the warning selection. -/
inductive Source where
  /-- The same selection at all times. -/
  | fixed (selection : Selection)
  /-- The shared selection with a given number, as it is at the time. -/
  | shared (index : Nat)
  /-- A selection computed anew at each read, from the number of reads before it. -/
  | computed (read : Nat → Selection)

namespace Source

/-- A computed source that goes through a list again and again. -/
def cycling (selections : List Selection) : Source :=
  .computed fun k => selections.getD (k % selections.length) .all

/-- The selection that the `k`-th read gives, from 0, while the shared selections are as given. -/
def read (s : Source) (shared : List Selection) (k : Nat) : Selection :=
  match s with
  | .fixed selection => selection
  | .shared index => shared.getD index .all
  | .computed read => read k

/-- Whether reads of the source are announced: those of a computed one are. -/
def announced : Source → Bool
  | .computed _ => true
  | _ => false

end Source

/-- An engine. -/
structure Engine where
  /-- The number of its host. -/
  host : Nat
  registry : Registry
  pins : Slots (Option Bool)
  /-- The answers of past probes. -/
  memory : Slots (Option Bool)
  /-- Where the warning selection is read. -/
  source : Source
  /-- How often it was read. -/
  reads : Nat
  sink : Sink

namespace Engine

/-- An engine with the builtin rules that has not probed anything yet, and writes to the console. -/
def new (host : Nat) (source : Source) : Engine where
  host := host
  registry := .builtin
  pins := .fill none
  memory := .fill none
  source := source
  reads := 0
  sink := .console false

/-- Pins a capability. -/
def pin (e : Engine) (c : Capability) (value : Bool) : Engine :=
  { e with pins := e.pins.set c (some value) }

/-- Pins capabilities one after the other; of two values for one capability the later one counts. -/
def pinAll (e : Engine) (pins : List (Capability × Bool)) : Engine :=
  pins.foldl (fun e p => e.pin p.1 p.2) e

/-- Pins the capabilities of a configuration, and passes over identifiers that name none. -/
def pinConfigured (e : Engine) (pins : NameMap Bool) : Engine :=
  e.pinAll (pins.entries.filterMap fun p => (Capability.ofId? p.1).map (·, p.2))

/-- The log entries on the identifiers in a configuration that name no capability. -/
def unknownPins (pins : NameMap Bool) : List Log.Entry :=
  pins.entries.filterMap fun p =>
    if (Capability.ofId? p.1).isNone then some (.unknownCapability p.1) else none

/-- What an engine knows about a capability without asking its host. -/
def known? (e : Engine) (c : Capability) : Option Bool := e.pins.get c <|> e.memory.get c

/-- Remembers the answer of a probe. -/
def remember (e : Engine) (c : Capability) (present : Bool) : Engine :=
  { e with memory := e.memory.set c (some present) }

end Engine

end CallAdvice
