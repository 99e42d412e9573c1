import CallAdvice.Proofs.Engine.Work
import CallAdvice.Session.Build

/-! What a step can do to a session. A step lets engines work one after the other on their scenes,
shows calls to recorders and changes parts that are neither engines nor hosts; `Session.Leads` says
so once. The one exception is a probe afresh, which `Session.step_leads_or_probeAfresh` sets apart.
An invariant of a session is then proved by induction on `Session.Leads`, and for whole runs by
`Session.run_induction`. -/
set_option autoImplicit false

namespace CallAdvice.Session

/-! ## The scene of an engine -/

theorem scene?_eq_some {s : Session} {i : Nat} {scene : Scene} :
    s.scene? i = some scene ↔
      s.engines[i]? = some scene.engine ∧ s.hosts[scene.engine.host]? = some scene.host ∧
        scene.events = [] := by
  obtain ⟨e, h, events⟩ := scene
  unfold scene?
  cases he : s.engines[i]? with
  | none => simp
  | some e' =>
    simp only [Option.map_eq_some_iff, Scene.mk.injEq, Option.some.injEq]
    constructor
    · rintro ⟨h', hh, rfl, rfl, rfl⟩
      exact ⟨rfl, hh, rfl⟩
    · rintro ⟨rfl, hh, rfl⟩
      exact ⟨h, hh, rfl, rfl, rfl⟩

theorem engines_restore (s : Session) (i : Nat) (scene : Scene) :
    (s.restore i scene).engines = s.engines.set i scene.engine := rfl

theorem hosts_restore (s : Session) (i : Nat) (scene : Scene) :
    (s.restore i scene).hosts = s.hosts.set scene.engine.host scene.host := rfl

theorem set_eq_self {α : Type} {l : List α} {i : Nat} {a : α} (h : l[i]? = some a) :
    l.set i a = l := by
  obtain ⟨hlt, rfl⟩ := List.getElem?_eq_some_iff.mp h
  exact List.set_getElem_self hlt

theorem restore_self {s : Session} {i : Nat} {scene : Scene} (h : s.scene? i = some scene) :
    s.restore i scene = s := by
  obtain ⟨he, hh, -⟩ := scene?_eq_some.mp h
  unfold restore
  rw [set_eq_self he, set_eq_self hh]

theorem work_of_scene? {α : Type} {s : Session} {i : Nat} {scene : Scene}
    (h : s.scene? i = some scene) (f : Scene → α × Scene) :
    s.work i f = some ((f scene).1, s.restore i (f scene).2,
      (f scene).2.events.map (.atEngine i (f scene).2.engine.host)) := by
  unfold work
  rw [h]
  rfl

theorem work_of_no_scene {α : Type} {s : Session} {i : Nat} (h : s.scene? i = none)
    (f : Scene → α × Scene) : s.work i f = none := by
  unfold work
  rw [h]
  rfl

theorem answer_of_scene? {α : Type} {s : Session} {i : Nat} {scene : Scene}
    (h : s.scene? i = some scene) (f : Scene → α × Scene) (reply : α → Reply) :
    s.answer i f reply = (s.restore i (f scene).2,
      (f scene).2.events.map (.atEngine i (f scene).2.engine.host), reply (f scene).1) := by
  unfold answer
  rw [work_of_scene? h]

theorem answer_of_no_scene {α : Type} {s : Session} {i : Nat} (h : s.scene? i = none)
    (f : Scene → α × Scene) (reply : α → Reply) : s.answer i f reply = (s, [], .missing) := by
  unfold answer
  rw [work_of_no_scene h]

/-! ## Rules of an engine -/

section

variable {s t : Session} {i : Nat}
  (h : (t.engines[i]?).map (·.registry) = (s.engines[i]?).map (·.registry))
include h

theorem matcher_congr (under : String) (index : Nat) :
    ((t.engines[i]?).bind fun e => (e.registry.lookup under)[index]?) =
      (s.engines[i]?).bind fun e => (e.registry.lookup under)[index]? := by
  have hi := congrArg (·.bind fun r => (r.lookup under)[index]?) h
  simpa only [Option.bind_map, Function.comp_def] using hi

theorem names_congr (names : Registry → List String) :
    ((s.engines[i]?).map fun e => Reply.names (names e.registry)).getD .missing =
      ((t.engines[i]?).map fun e => Reply.names (names e.registry)).getD .missing := by
  have hi := congrArg (·.map fun r => Reply.names (names r)) h
  simp only [Option.map_map, Function.comp_def] at hi
  rw [hi]

end

/-! ## Steps -/

/-- `Leads answer s events t`: a session can go from `s` to `t` while `events` happen, its engines
answering by `answer`. -/
inductive Leads (answer : Scene.Answering) : Session → List Event → Session → Prop where
  | refl (s : Session) : Leads answer s [] s
  | work {s t : Session} {events : List Event} (i : Nat) {before after : Scene} :
    Leads answer s events t → t.scene? i = some before → before.Leads answer after →
    Leads answer s (events ++ after.events.map (.atEngine i after.engine.host)) (t.restore i after)
  | seen {s t : Session} {events : List Event} (recorder : Nat) (call : Call) :
    Leads answer s events t → Leads answer s (events ++ [.seen recorder call]) t
  | other {s t u : Session} {events : List Event} :
    Leads answer s events t → u.engines = t.engines → u.hosts = t.hosts → Leads answer s events u

theorem Leads.trans {answer : Scene.Answering} {s t u : Session} {events later : List Event}
    (h : Leads answer s events t) (h' : Leads answer t later u) :
    Leads answer s (events ++ later) u := by
  induction h' with
  | refl =>
    rw [List.append_nil]
    exact h
  | work i _ hscene hleads ih =>
    rw [← List.append_assoc]
    exact .work i ih hscene hleads
  | seen recorder call _ ih =>
    rw [← List.append_assoc]
    exact .seen recorder call ih
  | other _ he hh ih => exact .other ih he hh

variable (answer : Scene.Answering)

theorem leads_answer {α : Type} (s : Session) (i : Nat) (f : Scene → α × Scene)
    (reply : α → Reply) (hf : ∀ scene : Scene, scene.Leads answer (f scene).2) :
    Leads answer s (s.answer i f reply).2.1 (s.answer i f reply).1 := by
  cases h : s.scene? i with
  | none =>
    rw [answer_of_no_scene h]
    exact .refl s
  | some scene =>
    rw [answer_of_scene? h]
    exact .work i (.refl s) h (hf scene)

theorem leads_observe (s : Session) (i : Nat) (call : Call) :
    Leads answer s (s.observeBy answer i call).2 (s.observeBy answer i call).1 := by
  unfold observeBy
  cases h : s.scene? i with
  | none =>
    rw [work_of_no_scene h]
    exact .refl s
  | some scene =>
    rw [work_of_scene? h]
    have hwork := Leads.work i (.refl s) h (Scene.leads_observe answer s.shared call scene)
    rw [List.nil_append] at hwork
    cases hw : (scene.observeBy answer s.shared call).1 with
    | none => simpa only [hw] using hwork
    | some w =>
      simp only [hw]
      refine .other hwork ?_ ?_
      · unfold collect
        split <;> rfl
      · unfold collect
        split <;> rfl

theorem leads_deliver (s : Session) (call : Call) (o : Observer) :
    Leads answer s (s.deliverBy answer call o).2 (s.deliverBy answer call o).1 := by
  cases o with
  | engine index => exact leads_observe answer s index call
  | recorder number => exact .seen number call (.refl s)

theorem leads_deliverAll (s : Session) (call : Call) (os : List Observer) :
    Leads answer s (s.deliverAllBy answer call os).2 (s.deliverAllBy answer call os).1 := by
  induction os generalizing s with
  | nil => exact .refl s
  | cons o os ih => exact (leads_deliver answer s call o).trans (ih _)

theorem leads_register (s : Session) (set : Nat) (o : Observer) :
    Leads answer s (s.register set o).2.1 (s.register set o).1 := by
  unfold register
  split
  · exact .refl s
  · exact .other (.refl s) rfl rfl

/-- A step is a course of the session, unless it probes afresh. -/
theorem step_leads_or_probeAfresh (s : Session) (st : Step) :
    Leads answer s (s.stepBy answer st).2.1 (s.stepBy answer st).1 ∨
      ∃ i c scene, st = .probeAfresh i c ∧ s.scene? i = some scene := by
  cases st with
  | dispatch i call =>
    exact .inl (leads_answer answer s i _ _ (Scene.leads_dispatch answer s.shared call))
  | observe i call => exact .inl (leads_observe answer s i call)
  | probe i c => exact .inl (leads_answer answer s i _ _ fun scene => .ask c (.refl scene))
  | probeAfresh i c =>
    cases h : s.scene? i with
    | none =>
      left
      rw [stepBy, answer_of_no_scene h]
      exact .refl s
    | some scene => exact .inr ⟨i, c, scene, rfl, h⟩
  | check i under index callee call =>
    left
    rw [stepBy]
    split
    · exact .refl s
    · next m _ => exact leads_answer answer s i _ _ (Scene.leads_check answer m callee call)
  | callees | ruleIds | lookup | getShared | warnings | size => exact .inl (.refl s)
  | setShared | take => exact .inl (.other (.refl s) rfl rfl)
  | registerEngine set i => exact .inl (leads_register answer s set _)
  | registerRecorder set =>
    exact .inl (.other (leads_register answer s set (.recorder s.recorders)) rfl rfl)
  | unregister set handle =>
    left
    rw [stepBy]
    split
    · exact .other (.refl s) rfl rfl
    · exact .refl s
  | sameId first second =>
    left
    rw [stepBy]
    split <;> exact .refl s
  | notify set entry =>
    left
    rw [stepBy]
    split
    · exact .refl s
    · exact .refl s
    · next group call _ _ => exact leads_deliverAll answer s call group.observers

theorem step_probeAfresh {s : Session} {i : Nat} {scene : Scene} (h : s.scene? i = some scene)
    (c : Capability) :
    s.stepBy answer (.probeAfresh i c) = (s.restore i (scene.probeAfresh c).2,
      (scene.probeAfresh c).2.events.map (.atEngine i scene.engine.host),
      .truth (scene.probeAfresh c).1) :=
  answer_of_scene? h _ _

/-! ## Runs -/

/-- What happens in a run, in order. -/
def happened (results : List (List Event × Reply)) : List Event := results.flatMap (·.1)

/-- The replies in a run, in order. -/
def replies (results : List (List Event × Reply)) : List Reply := results.map (·.2)

/-- What one step keeps, a run keeps. -/
theorem run_induction {I : List Event → Session → Prop}
    (hstep : ∀ events s st, I events s →
      I (events ++ (s.stepBy answer st).2.1) (s.stepBy answer st).1)
    (events : List Event) {s : Session} (h : I events s) (steps : List Step) :
    I (events ++ happened (s.runBy answer steps).2) (s.runBy answer steps).1 := by
  induction steps generalizing events s with
  | nil =>
    show I (events ++ []) s
    rw [List.append_nil]
    exact h
  | cons st steps ih =>
    have hrest := ih _ (hstep events s st h)
    rw [List.append_assoc] at hrest
    exact hrest

theorem run_append (s : Session) (steps later : List Step) :
    (s.runBy answer (steps ++ later)).1 = ((s.runBy answer steps).1.runBy answer later).1 ∧
      happened (s.runBy answer (steps ++ later)).2 = happened (s.runBy answer steps).2 ++
        happened ((s.runBy answer steps).1.runBy answer later).2 := by
  induction steps generalizing s with
  | nil => exact ⟨rfl, rfl⟩
  | cons st steps ih =>
    obtain ⟨hsession, hevents⟩ := ih (s.stepBy answer st).1
    refine ⟨hsession, ?_⟩
    show (s.stepBy answer st).2.1 ++
      happened ((s.stepBy answer st).1.runBy answer (steps ++ later)).2 = _
    rw [hevents, ← List.append_assoc]
    rfl

/-! ## Beginnings -/

/-- A session as it begins: hosts that were asked nothing, and engines made by plan. -/
def Begins (s : Session) : Prop :=
  ∃ (behaviours : List Host.Behaviour) (shared : List Selection) (sinks sets : Nat)
    (plans : List Plan) (log : List Log.Entry),
    (start (behaviours.map Host.fresh) shared sinks sets).addEngines plans = .ok (s, log)

theorem pinAll_eq (e : Engine) (pins : List (Capability × Bool)) :
    e.pinAll pins = { e with pins := (e.pinAll pins).pins } := by
  induction pins generalizing e with
  | nil => rfl
  | cons p pins ih => exact ih (e.pin p.1 p.2)

theorem memory_pinAll (e : Engine) (pins : List (Capability × Bool)) :
    (e.pinAll pins).memory = e.memory := by
  rw [pinAll_eq]

theorem addEngine_eq_ok {s t : Session} {p : Plan} {log : List Log.Entry}
    (h : s.addEngine p = .ok (t, log)) :
    t.hosts = s.hosts ∧ ∃ e, e.memory = .fill none ∧ t.engines = s.engines ++ [e] := by
  unfold addEngine at h
  split at h
  · next source pins configured _ =>
    obtain ⟨rfl, -⟩ := Prod.mk.inj (Except.ok.inj h)
    refine ⟨rfl, _, ?_, rfl⟩
    exact (memory_pinAll _ _).trans (memory_pinAll _ _)
  · next text _ =>
    dsimp only at h
    split at h
    · cases h
    · obtain ⟨rfl, -⟩ := Prod.mk.inj (Except.ok.inj h)
      exact ⟨rfl, _, memory_pinAll _ _, rfl⟩

theorem addEngines_cons {s t : Session} {p : Plan} {plans : List Plan} {log : List Log.Entry} :
    s.addEngines (p :: plans) = .ok (t, log) ↔ ∃ u now later,
      s.addEngine p = .ok (u, now) ∧ u.addEngines plans = .ok (t, later) ∧ log = now ++ later := by
  rw [addEngines]
  constructor
  · intro h
    split at h
    · cases h
    · next u now hu =>
      split at h
      · cases h
      · next v later hv =>
        obtain ⟨rfl, rfl⟩ := Prod.mk.inj (Except.ok.inj h)
        exact ⟨u, now, later, hu, hv, rfl⟩
  · rintro ⟨u, now, later, hu, hv, rfl⟩
    rw [hu]
    dsimp only
    rw [hv]

theorem addEngines_eq_ok {s t : Session} {plans : List Plan} {log : List Log.Entry}
    (h : s.addEngines plans = .ok (t, log)) :
    t.hosts = s.hosts ∧
      ∃ added : List Engine, (∀ e ∈ added, e.memory = .fill none) ∧
        t.engines = s.engines ++ added := by
  induction plans generalizing s log with
  | nil =>
    obtain ⟨rfl, -⟩ := Prod.mk.inj (Except.ok.inj h)
    exact ⟨rfl, [], by simp, (List.append_nil _).symm⟩
  | cons p plans ih =>
    obtain ⟨u, now, later, hu, hv, -⟩ := addEngines_cons.mp h
    obtain ⟨hhosts, e, hmemory, hengines⟩ := addEngine_eq_ok hu
    obtain ⟨hhosts', added, hadded, hengines'⟩ := ih hv
    refine ⟨hhosts'.trans hhosts, e :: added, ?_, ?_⟩
    · intro e' he'
      rcases List.mem_cons.mp he' with rfl | he'
      · exact hmemory
      · exact hadded e' he'
    · rw [hengines', hengines, List.append_assoc]
      rfl

/-- What adding one engine keeps, adding engines keeps. -/
theorem addEngines_induction {I : Session → Prop}
    (hadd : ∀ s t p log, s.addEngine p = .ok (t, log) → I s → I t)
    {s t : Session} {plans : List Plan} {log : List Log.Entry}
    (h : s.addEngines plans = .ok (t, log)) (hs : I s) : I t := by
  induction plans generalizing s log with
  | nil =>
    obtain ⟨rfl, -⟩ := Prod.mk.inj (Except.ok.inj h)
    exact hs
  | cons p plans ih =>
    obtain ⟨u, now, later, hu, hv, -⟩ := addEngines_cons.mp h
    exact ih hv (hadd s u p now hu hs)

/-- At the beginning no engine remembers anything. -/
theorem Begins.memory {s : Session} (h : s.Begins) {e : Engine} (he : e ∈ s.engines) :
    e.memory = .fill none := by
  obtain ⟨behaviours, shared, sinks, sets, plans, log, h⟩ := h
  obtain ⟨-, added, hadded, hengines⟩ := addEngines_eq_ok h
  rw [hengines] at he
  exact hadded e he

/-- At the beginning no host was asked anything. -/
theorem Begins.history {s : Session} (h : s.Begins) {host : Host} (hh : host ∈ s.hosts) :
    host.history = [] := by
  obtain ⟨behaviours, shared, sinks, sets, plans, log, h⟩ := h
  obtain ⟨hhosts, -⟩ := addEngines_eq_ok h
  rw [hhosts] at hh
  obtain ⟨behaviour, -, rfl⟩ := List.mem_map.mp hh
  rfl

end CallAdvice.Session
