import CallAdvice.Engine

/-! An engine at work. A scene is an engine with its host and a record of what has happened, and
every operation of an engine takes a scene to a scene.

* `Scene.probeAfresh`, `Scene.probe`: asking the host, and asking it at most once.
* `Scene.check`: one matcher on one call.
* `Scene.dispatch`: the gate, then the matchers of the callee up to the first that gives advice.
* `Scene.observe`: dispatch, and report the advice.

What a matcher asks can be answered in more than one way; the functions whose names end in `By` take
the way as their first argument. -/
set_option autoImplicit false

namespace CallAdvice

/-- What happens while an engine works. -/
inductive Engine.Event where
  /-- The warning selection was read for the `k`-th time, from 0. -/
  | selectionRead (k : Nat) (announced : Bool)
  /-- The host was asked for something. -/
  | hostAsked (exchange : Host.Exchange)
  /-- The question for a capability was answered. -/
  | answered (capability : Capability) (present : Bool)
  /-- A matcher was run on a call under the name `callee`. -/
  | matcherRun (id callee : String) (call : Call) (announced : Bool)
  | logged (entry : Log.Entry)
  /-- A warning was given to the engine's sink. -/
  | warned (warning : Warning)
  deriving DecidableEq

/-- An engine, its host, and what has happened so far, oldest first. -/
structure Scene where
  engine : Engine
  host : Host
  events : List Engine.Event

namespace Scene

/-- Adds to what has happened. -/
def happen (s : Scene) (events : List Engine.Event) : Scene :=
  { s with events := s.events ++ events }

/-- Adds log entries. -/
def log (s : Scene) (entries : List Log.Entry) : Scene := s.happen (entries.map .logged)

@[simp] theorem happen_engine (s : Scene) (events : List Engine.Event) :
    (s.happen events).engine = s.engine := rfl

@[simp] theorem happen_host (s : Scene) (events : List Engine.Event) :
    (s.happen events).host = s.host := rfl

@[simp] theorem happen_events (s : Scene) (events : List Engine.Event) :
    (s.happen events).events = s.events ++ events := rfl

@[simp] theorem log_engine (s : Scene) (entries : List Log.Entry) :
    (s.log entries).engine = s.engine := rfl

@[simp] theorem log_host (s : Scene) (entries : List Log.Entry) :
    (s.log entries).host = s.host := rfl

/-! ## Capabilities -/

/-- Probes the host for a capability, whatever is known about it, and forgets the answer. -/
def probeAfresh (c : Capability) (s : Scene) : Bool × Scene :=
  let (verdict, host) := s.host.probe c
  let asked := (host.history.drop s.host.history.length).map Engine.Event.hostAsked
  (verdict.isPresent, ({ s with host := host }.happen asked).log (Log.ofVerdict c verdict))

/-- Whether the host has a capability: as pinned, else as remembered, else by a probe whose answer
is remembered. -/
def probe (c : Capability) (s : Scene) : Bool × Scene :=
  match s.engine.known? c with
  | some present => (present, s.happen [.answered c present])
  | none =>
    let (present, s) := s.probeAfresh c
    (present, { s with engine := s.engine.remember c present }.happen [.answered c present])

/-- Whether the host has a capability, without looking at or adding to what is remembered: as
pinned, else by a probe. -/
def probeUnremembered (c : Capability) (s : Scene) : Bool × Scene :=
  match s.engine.pins.get c with
  | some present => (present, s.happen [.answered c present])
  | none =>
    let (present, s) := s.probeAfresh c
    (present, s.happen [.answered c present])

/-- A way to answer the capability questions of matchers. -/
abbrev Answering := Capability → Scene → Bool × Scene

/-! ## Matchers -/

/-- Runs a matcher on a call under the name `callee`. -/
def checkBy (answer : Answering) (m : Matcher) (callee : String) (call : Call) (s : Scene) :
    Option Diagnostic × Scene :=
  (m.check callee call).run answer (s.happen [.matcherRun m.id callee call m.announced])

/-- Runs matchers in order up to the first that gives a diagnostic. -/
def firstMatchBy (answer : Answering) (callee : String) (call : Call) :
    List Matcher → Scene → Option Diagnostic × Scene
  | [], s => (none, s)
  | m :: ms, s =>
    match s.checkBy answer m callee call with
    | (some d, s) => (some d, s)
    | (none, s) => firstMatchBy answer callee call ms s

/-- Runs a matcher that finds out about capabilities by `probe`. -/
def check (m : Matcher) (callee : String) (call : Call) (s : Scene) : Option Diagnostic × Scene :=
  s.checkBy probe m callee call

/-! ## Dispatch -/

/-- Reads the warning selection while the shared selections are as given. -/
def readSelection (shared : List Selection) (s : Scene) : Selection × Scene :=
  let e := s.engine
  (e.source.read shared e.reads,
    { s with engine := { e with reads := e.reads + 1 } }.happen
      [.selectionRead e.reads e.source.announced])

/-- Whether the gate is open. -/
def gate (shared : List Selection) (s : Scene) : Bool × Scene :=
  let (selection, s) := s.readSelection shared
  (selection.allows, s.log (Log.ofSelection selection))

/-- The matchers' decision on a call; only a call of a named function has matchers. -/
def adviseBy (answer : Answering) (call : Call) (s : Scene) : Option Diagnostic × Scene :=
  match call.callee? with
  | none => (none, s)
  | some callee =>
    match s.firstMatchBy answer callee call (s.engine.registry.lookup callee) with
    | (some d, s) => (some d, s.log [.matched callee d.rule])
    | (none, s) => (none, s)

/-- The advice on a call, if the gate is open. -/
def dispatchBy (answer : Answering) (shared : List Selection) (call : Call) (s : Scene) :
    Option Diagnostic × Scene :=
  match s.gate shared with
  | (false, s) => (none, s)
  | (true, s) => s.adviseBy answer call

/-- The advice on a call, finding out about capabilities by `probe`. -/
def dispatch (shared : List Selection) (call : Call) (s : Scene) : Option Diagnostic × Scene :=
  s.dispatchBy probe shared call

/-- Dispatches a call and reports the advice as a warning. -/
def observeBy (answer : Answering) (shared : List Selection) (call : Call) (s : Scene) :
    Option Warning × Scene :=
  match s.dispatchBy answer shared call with
  | (none, s) => (none, s)
  | (some d, s) =>
    (some d.warning, s.happen [.logged (.emitting d.rule d.message), .warned d.warning])

/-- Dispatches a call and reports the advice, finding out about capabilities by `probe`. -/
def observe (shared : List Selection) (call : Call) (s : Scene) : Option Warning × Scene :=
  s.observeBy probe shared call

end Scene

end CallAdvice
