import CallAdvice.Config
import CallAdvice.Session

/-! How a session begins: its engines are described by data, among them engines whose configuration
is loaded for a project. Such an engine reads a shared selection that starts as loaded. -/
set_option autoImplicit false

namespace CallAdvice.Session

/-- Where an engine gets its selection and its pinned capabilities from. -/
inductive Setup where
  /-- From a source, with capabilities pinned one after the other and then by a configuration. -/
  | direct (source : Source) (pins : List (Capability × Bool)) (configured : NameMap Bool)
  /-- From the configuration of the project at `root`. -/
  | project (reader : Config.Reader) (files : Config.Files) (root : String)

/-- An engine to be made. -/
structure Plan where
  /-- The number of its host. -/
  host : Nat
  /-- Its selection and its pinned capabilities. -/
  setup : Setup
  registry : Registry
  sink : Sink

/-- A session without engines: hosts, shared selections, and numbers of sinks and of observer
sets. -/
def start (hosts : List Host) (shared : List Selection) (sinks sets : Nat) : Session where
  hosts := hosts
  shared := shared
  sinks := List.replicate sinks []
  sets := List.replicate sets .empty
  engines := []
  handles := []
  recorders := 0

/-- Adds an engine to a session, and gives the log entries that this makes. -/
def addEngine (s : Session) (p : Plan) : Except Config.LoadError (Session × List Log.Entry) :=
  let finish (e : Engine) : Engine := { e with registry := p.registry, sink := p.sink }
  match p.setup with
  | .direct source pins configured =>
    let e := ((Engine.new p.host source).pinAll pins).pinConfigured configured
    .ok ({ s with engines := s.engines ++ [finish e] }, Engine.unknownPins configured)
  | .project reader files root =>
    match Config.load reader files root with
    | .error e => .error e
    | .ok config =>
      let e := (Engine.new p.host (.shared s.shared.length)).pinConfigured config.pins
      .ok ({ s with engines := s.engines ++ [finish e], shared := s.shared ++ [config.warnings] },
        Config.loadLog reader files root ++ Engine.unknownPins config.pins)

/-- Adds engines one after the other. -/
def addEngines (s : Session) : List Plan → Except Config.LoadError (Session × List Log.Entry)
  | [] => .ok (s, [])
  | p :: ps =>
    match s.addEngine p with
    | .error e => .error e
    | .ok (s, now) =>
      match s.addEngines ps with
      | .error e => .error e
      | .ok (s, later) => .ok (s, now ++ later)

end CallAdvice.Session
