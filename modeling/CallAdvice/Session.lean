import CallAdvice.Call.Entry
import CallAdvice.Engine.Scene
import CallAdvice.Observer

/-! A session: several hosts, shared selections, sinks, observer sets and engines, and the steps
that can be taken with them. A step answers with a reply and with what happened, in order. Parts are
named by their position; a step on a part that is not there changes nothing. -/
set_option autoImplicit false

namespace CallAdvice

/-- Who is told of calls. -/
inductive Observer where
  /-- The engine with a given number. -/
  | engine (index : Nat)
  /-- A recorder with a given number. -/
  | recorder (number : Nat)
  deriving DecidableEq

/-- All that a session holds. -/
structure Session where
  hosts : List Host
  shared : List Selection
  /-- The warnings collected by each sink, oldest first. -/
  sinks : List (List Warning)
  sets : List (ObserverSet Observer)
  engines : List Engine
  /-- The numbers given out by all sets, oldest first. -/
  handles : List ObserverId
  /-- The number of recorders made. -/
  recorders : Nat

namespace Session

/-- What happens in a session. -/
inductive Event where
  /-- Something happened to an engine and its host. -/
  | atEngine (engine host : Nat) (event : Engine.Event)
  /-- A recorder saw a call. -/
  | seen (recorder : Nat) (call : Call)
  deriving DecidableEq

/-! ## Steps and replies -/

/-- What can be done in a session. -/
inductive Step where
  /-- Dispatch a call on an engine. -/
  | dispatch (engine : Nat) (call : Call)
  /-- Let an engine observe a call. -/
  | observe (engine : Nat) (call : Call)
  /-- Ask an engine for a capability. -/
  | probe (engine : Nat) (capability : Capability)
  /-- Let an engine probe its host afresh. -/
  | probeAfresh (engine : Nat) (capability : Capability)
  /-- Run one of the matchers found under a name, past the gate. -/
  | check (engine : Nat) (under : String) (index : Nat) (callee : String) (call : Call)
  /-- List the names with matchers. -/
  | callees (engine : Nat)
  /-- List the identifiers of the rules. -/
  | ruleIds (engine : Nat)
  /-- List the matchers found under a name. -/
  | lookup (engine : Nat) (callee : String)
  | setShared (index : Nat) (selection : Selection)
  /-- Look at a shared selection. -/
  | getShared (index : Nat)
  /-- Look at the warnings of a sink. -/
  | warnings (sink : Nat)
  /-- Take the warnings out of a sink. -/
  | take (sink : Nat)
  /-- Register an engine in a set. -/
  | registerEngine (set engine : Nat)
  /-- Register a new recorder in a set. -/
  | registerRecorder (set : Nat)
  /-- Remove from a set the registration with the number of a handle. -/
  | unregister (set handle : Nat)
  /-- Ask for the size of a set. -/
  | size (set : Nat)
  /-- Compare the numbers of two handles. -/
  | sameId (first second : Nat)
  /-- Tell the observers of a set of a call. -/
  | notify (set : Nat) (entry : EntryCall)

/-- The answer to a step. -/
inductive Reply where
  | done
  /-- There is no such part. -/
  | missing
  | truth (b : Bool)
  | number (n : Nat)
  | names (ns : List String)
  | selection (s : Selection)
  | warnings (ws : List Warning)
  /-- Advice on a call, if any. -/
  | advice (d : Option Diagnostic)
  /-- A matcher's identifier and its advice, if any. -/
  | checked (id : String) (d : Option Diagnostic)
  /-- The size of a set. -/
  | size (n : Nat) (isEmpty : Bool)
  /-- The call that was passed on, if any. -/
  | call (c : Option Call)
  deriving DecidableEq

/-! ## Engines at work -/

/-- The scene of an engine: it, its host, and nothing happened yet. -/
def scene? (s : Session) (engine : Nat) : Option Scene :=
  match s.engines[engine]? with
  | none => none
  | some e => (s.hosts[e.host]?).map fun h => ⟨e, h, []⟩

/-- Puts an engine and its host back after some work. -/
def restore (s : Session) (engine : Nat) (scene : Scene) : Session :=
  { s with
    engines := s.engines.set engine scene.engine
    hosts := s.hosts.set scene.engine.host scene.host }

/-- Lets an engine work: the result, the session afterwards, and what happened. -/
def work {α : Type} (s : Session) (engine : Nat) (f : Scene → α × Scene) :
    Option (α × Session × List Event) :=
  (s.scene? engine).map fun scene =>
    let (a, scene) := f scene
    (a, s.restore engine scene, scene.events.map (.atEngine engine scene.engine.host))

/-- Adds a warning to what a sink has collected; the console keeps nothing. -/
def collect (s : Session) (sink : Sink) (w : Warning) : Session :=
  match sink with
  | .collection index => { s with sinks := s.sinks.modify index (· ++ [w]) }
  | .console _ => s

/-- Lets an engine observe a call, and hands its warning to the engine's sink. -/
def observeBy (answer : Scene.Answering) (s : Session) (engine : Nat) (call : Call) :
    Session × List Event :=
  match s.work engine (fun scene =>
      let (w, scene) := scene.observeBy answer s.shared call
      ((w, scene.engine.sink), scene)) with
  | none => (s, [])
  | some ((none, _), s, events) => (s, events)
  | some ((some w, sink), s, events) => (s.collect sink w, events)

/-- Tells one observer of a call. -/
def deliverBy (answer : Scene.Answering) (s : Session) (call : Call) :
    Observer → Session × List Event
  | .engine index => s.observeBy answer index call
  | .recorder number => (s, [.seen number call])

/-- Tells observers of a call, one after the other. -/
def deliverAllBy (answer : Scene.Answering) (s : Session) (call : Call) :
    List Observer → Session × List Event
  | [] => (s, [])
  | o :: os =>
    let (s, now) := s.deliverBy answer call o
    let (s, later) := s.deliverAllBy answer call os
    (s, now ++ later)

/-- Registers an observer in a set. The reply is the number of registrations before it, in all
sets. -/
def register (s : Session) (set : Nat) (observer : Observer) : Session × List Event × Reply :=
  match s.sets[set]? with
  | none => (s, [], .missing)
  | some group =>
    let (id, group) := group.register observer
    ({ s with sets := s.sets.set set group, handles := s.handles ++ [id] }, [],
      .number s.handles.length)

/-- Lets an engine work and turns the result into a reply. -/
def answer {α : Type} (s : Session) (engine : Nat) (f : Scene → α × Scene) (reply : α → Reply) :
    Session × List Event × Reply :=
  match s.work engine f with
  | none => (s, [], .missing)
  | some (a, s, events) => (s, events, reply a)

/-! ## One step -/

/-- Takes a step, with a way to answer the questions for capabilities: the session afterwards, what
happened, and the reply. -/
def stepBy (answer : Scene.Answering) (s : Session) : Step → Session × List Event × Reply
  | .dispatch engine call => s.answer engine (·.dispatchBy answer s.shared call) .advice
  | .observe engine call =>
    let (s, events) := s.observeBy answer engine call
    (s, events, .done)
  | .probe engine c => s.answer engine (answer c) .truth
  | .probeAfresh engine c => s.answer engine (·.probeAfresh c) .truth
  | .check engine under index callee call =>
    match (s.engines[engine]?).bind fun e => (e.registry.lookup under)[index]? with
    | none => (s, [], .missing)
    | some m => s.answer engine (·.checkBy answer m callee call) (.checked m.id)
  | .callees engine =>
    (s, [], ((s.engines[engine]?).map fun e => .names e.registry.callees.names).getD .missing)
  | .ruleIds engine =>
    (s, [], ((s.engines[engine]?).map fun e => .names e.registry.ruleIds.names).getD .missing)
  | .lookup engine callee =>
    (s, [], ((s.engines[engine]?).map fun e =>
      .names ((e.registry.lookup callee).map (·.id))).getD .missing)
  | .setShared index selection =>
    ({ s with shared := s.shared.set index selection }, [], .done)
  | .getShared index => (s, [], ((s.shared[index]?).map .selection).getD .missing)
  | .warnings sink => (s, [], ((s.sinks[sink]?).map .warnings).getD .missing)
  | .take sink =>
    ({ s with sinks := s.sinks.set sink [] }, [],
      ((s.sinks[sink]?).map .warnings).getD .missing)
  | .registerEngine set engine => s.register set (.engine engine)
  | .registerRecorder set =>
    let (after, events, reply) := s.register set (.recorder s.recorders)
    ({ after with recorders := s.recorders + 1 }, events, reply)
  | .unregister set handle =>
    match s.sets[set]?, s.handles[handle]? with
    | some group, some id =>
      let (found, group) := group.unregister id
      ({ s with sets := s.sets.set set group }, [], .truth found)
    | _, _ => (s, [], .missing)
  | .size set =>
    (s, [], ((s.sets[set]?).map fun group => .size group.size group.isEmpty).getD .missing)
  | .sameId first second =>
    match s.handles[first]?, s.handles[second]? with
    | some a, some b => (s, [], .truth (a == b))
    | _, _ => (s, [], .missing)
  | .notify set entry =>
    match s.sets[set]?, entry.normalize? with
    | none, _ => (s, [], .missing)
    | some _, none => (s, [], .call none)
    | some group, some call =>
      let (s, events) := s.deliverAllBy answer call group.observers
      (s, events, .call (some call))

/-- Takes steps one after the other, with a way to answer the questions for capabilities: what
happened in each, with its reply, and the session at the end. -/
def runBy (answer : Scene.Answering) (s : Session) :
    List Step → Session × List (List Event × Reply)
  | [] => (s, [])
  | step :: steps =>
    let (s, events, reply) := s.stepBy answer step
    let (s, rest) := s.runBy answer steps
    (s, (events, reply) :: rest)

/-- Takes a step; engines find out about capabilities by `Scene.probe`. -/
def step (s : Session) (step : Step) : Session × List Event × Reply := s.stepBy Scene.probe step

/-- Takes steps one after the other; engines find out about capabilities by `Scene.probe`. -/
def run (s : Session) (steps : List Step) : Session × List (List Event × Reply) :=
  s.runBy Scene.probe steps

end Session

end CallAdvice
