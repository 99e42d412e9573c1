import CallAdvice.Proofs.Engine.Pins
import CallAdvice.Proofs.Engine.Story
import CallAdvice.Proofs.Session.Accounting
import CallAdvice.Proofs.Session.WriteOnce

/-! The log of a session tells the same story as its results. An engine is asked about a call by a
dispatch, or by a delivery that reports the advice; each inquiry that ends in advice leaves its mark
in the log, in order and in one piece, and nothing else does (`Session.Tells`). Along with this, the
log has one entry on a finished probe for each scratch context that a host was asked for. Both are
kept by every piece of work, and so by every step and every run (`Session.recounts_run`). -/
set_option autoImplicit false

namespace CallAdvice.Session

/-! ## Inquiries -/

/-- A call that an engine is asked about, and whether the advice on it is reported. -/
structure Inquiry extends Delivery where
  reported : Bool

/-- The inquiries in a step: the advice of a dispatch is not reported, that of a delivery is. -/
def inquiriesBy (s : Session) : Step → List Inquiry
  | .dispatch i call => [⟨⟨s, i, call⟩, false⟩]
  | st => (s.deliveriesBy st).map (⟨·, true⟩)

def inquiries (s : Session) : List Step → List Inquiry
  | [] => []
  | st :: steps => s.inquiriesBy st ++ (s.step st).1.inquiries steps

/-! ## Events -/

def Event.onAdvice : Event → Bool
  | .atEngine _ _ e => e.onAdvice
  | .seen .. => false

def Event.isProbed : Event → Bool
  | .atEngine _ _ e => e.isProbed
  | .seen .. => false

theorem countP_atEngine (i k : Nat) (events : List Engine.Event) :
    (events.map (.atEngine i k)).countP Event.isProbed =
      events.countP Engine.Event.isProbed := by
  rw [List.countP_map]
  rfl

/-- `Tells events inquiries`: what the events tell of advice is the advice on the inquiries, one
after the other. -/
inductive Tells : List Event → List Inquiry → Prop where
  | nil : Tells [] []
  /-- Other things happen in between. -/
  | other {e : Event} {events : List Event} {qs : List Inquiry} :
    e.onAdvice = false → Tells events qs → Tells (e :: events) qs
  /-- Nothing is told of an inquiry that ends without advice. -/
  | silent {q : Inquiry} {events : List Event} {qs : List Inquiry} :
    q.advice = none → Tells events qs → Tells events (q :: qs)
  /-- All that is told of one inquiry stands together. -/
  | advised {q : Inquiry} {d : Diagnostic} {callee : String} {events : List Event}
    {qs : List Inquiry} (host : Nat) :
    q.advice = some d → q.call.callee? = some callee → Tells events qs →
    Tells ((Engine.adviceEvents callee d q.reported).map (.atEngine q.engine host) ++ events)
      (q :: qs)

theorem Tells.append {events later : List Event} {qs rs : List Inquiry} (h : Tells events qs)
    (h' : Tells later rs) : Tells (events ++ later) (qs ++ rs) := by
  induction h with
  | nil => exact h'
  | other he _ ih => exact .other he ih
  | silent hq _ ih => exact .silent hq ih
  | advised host hq hcallee _ ih =>
    rw [List.append_assoc]
    exact .advised host hq hcallee ih

theorem tells_quiet {events : List Event} (h : ∀ e ∈ events, e.onAdvice = false) :
    Tells events [] := by
  induction events with
  | nil => exact .nil
  | cons e events ih =>
    exact .other (h e (by simp)) (ih fun x hx => h x (List.mem_cons_of_mem e hx))

/-- What is picked from events on advice alone is picked from the inquiries. -/
theorem Tells.filterMap_eq {α : Type} {f : Event → Option α} {g : Inquiry → Option α}
    {events : List Event} {qs : List Inquiry} (h : Tells events qs)
    (hother : ∀ e, e.onAdvice = false → f e = none)
    (hsilent : ∀ q, q.advice = none → g q = none)
    (hadvised : ∀ q ∈ qs, ∀ d callee host, q.advice = some d → q.call.callee? = some callee →
      ((Engine.adviceEvents callee d q.reported).map (.atEngine q.engine host)).filterMap f =
        (g q).toList) : events.filterMap f = qs.filterMap g := by
  induction h with
  | nil => rfl
  | other he _ ih =>
    rw [List.filterMap_cons_none (hother _ he)]
    exact ih hadvised
  | silent hq _ ih =>
    rw [List.filterMap_cons_none (hsilent _ hq)]
    exact ih fun q hmem => hadvised q (List.mem_cons_of_mem _ hmem)
  | @advised q d callee events qs host hq hcallee _ ih =>
    have htold := hadvised q (by simp) d callee host hq hcallee
    have hrest := ih fun q hmem => hadvised q (List.mem_cons_of_mem _ hmem)
    rw [List.filterMap_append, htold, hrest]
    cases hg : g q <;> simp [hg]

/-! ## Requests for scratch contexts -/

/-- The number of requests for a scratch context that all hosts have got. -/
def acquires (s : Session) : Nat := (s.hosts.map Host.acquires).sum

theorem acquires_restore {s : Session} {i n : Nat} {before after : Scene}
    (h : s.scene? i = some before) (hhost : after.engine.host = before.engine.host)
    (hcount : after.host.acquires = before.host.acquires + n) :
    (s.restore i after).acquires = s.acquires + n := by
  obtain ⟨-, hh, -⟩ := scene?_eq_some.mp h
  have hsum := sum_map_set Host.acquires hh after.host
  unfold acquires
  rw [hosts_restore, hhost]
  omega

/-! ## Work -/

/-- `Recounts s events qs t`: on the way from `s` to `t` the events tell of the inquiries, and of
one probe for each request for a scratch context. -/
structure Recounts (s : Session) (events : List Event) (qs : List Inquiry) (t : Session) :
    Prop where
  tells : Tells events qs
  probes : t.acquires = s.acquires + events.countP Event.isProbed

theorem Recounts.trans {s t u : Session} {events later : List Event} {qs rs : List Inquiry}
    (h : Recounts s events qs t) (h' : Recounts t later rs u) :
    Recounts s (events ++ later) (qs ++ rs) u where
  tells := h.tells.append h'.tells
  probes := by
    rw [h'.probes, h.probes, List.countP_append]
    omega

theorem Recounts.other {s t : Session} (hh : t.hosts = s.hosts) : Recounts s [] [] t :=
  ⟨.nil, congrArg (fun hosts => (hosts.map Host.acquires).sum) hh⟩

theorem Recounts.seen (s : Session) (r : Nat) (call : Call) : Recounts s [.seen r call] [] s :=
  ⟨.other rfl .nil, rfl⟩

theorem Recounts.quiet {s : Session} {i : Nat} {before after : Scene}
    (h : s.scene? i = some before) (hhost : after.engine.host = before.engine.host)
    (hquiet : before.Quiet after) :
    Recounts s (after.events.map (.atEngine i after.engine.host)) [] (s.restore i after) := by
  obtain ⟨added, hevents, honAdvice, hcount⟩ := hquiet
  rw [(scene?_eq_some.mp h).2.2, List.nil_append] at hevents
  subst hevents
  refine ⟨tells_quiet ?_, ?_⟩
  · intro e he
    obtain ⟨x, hx, rfl⟩ := List.mem_map.mp he
    exact honAdvice x hx
  · rw [countP_atEngine]
    exact acquires_restore h hhost hcount

theorem Recounts.asked {s : Session} {i : Nat} {before after : Scene} {q : Inquiry}
    (h : s.scene? i = some before) (hhost : after.engine.host = before.engine.host)
    (hi : q.engine = i) (htells : before.Tells q.call q.advice q.reported after) :
    Recounts s (after.events.map (.atEngine i after.engine.host)) [q] (s.restore i after) := by
  obtain ⟨u, hquiet, ⟨hnone, rfl⟩ | ⟨callee, d, hd, hcallee, rfl⟩⟩ := htells
  · obtain ⟨htold, hprobes⟩ := Recounts.quiet h hhost hquiet
    exact ⟨by simpa using htold.append (.silent hnone .nil), hprobes⟩
  · -- What is told of the advice comes behind the quiet work and changes nothing else.
    have hwork : s.restore i (u.happen (Engine.adviceEvents callee d q.reported)) =
        s.restore i u := rfl
    have hhost' : u.engine.host = before.engine.host := hhost
    obtain ⟨htold, hprobes⟩ := Recounts.quiet h hhost' hquiet
    have hlast := Tells.advised u.engine.host hd hcallee .nil
    rw [List.append_nil, hi] at hlast
    rw [hwork, Scene.happen_events, Scene.happen_engine, List.map_append]
    refine ⟨htold.append hlast, ?_⟩
    rw [List.countP_append, countP_atEngine i u.engine.host (Engine.adviceEvents _ _ _),
      Engine.countP_adviceEvents]
    exact hprobes

theorem recounts_answer {α : Type} (s : Session) (i : Nat) {f : Scene → α × Scene}
    (reply : α → Reply) (hhost : ∀ scene, (f scene).2.engine.host = scene.engine.host)
    (hquiet : ∀ scene : Scene, scene.Quiet (f scene).2) :
    Recounts s (s.answer i f reply).2.1 [] (s.answer i f reply).1 := by
  cases hi : s.scene? i with
  | none =>
    rw [answer_of_no_scene hi]
    exact .other rfl
  | some scene =>
    rw [answer_of_scene? hi]
    exact .quiet hi (hhost scene) (hquiet scene)

theorem recounts_dispatch (s : Session) (i : Nat) (call : Call) :
    Recounts s (s.step (.dispatch i call)).2.1 [⟨⟨s, i, call⟩, false⟩]
      (s.step (.dispatch i call)).1 := by
  have hstep : s.step (.dispatch i call) = s.answer i (·.dispatch s.shared call) .advice := rfl
  rw [hstep]
  cases hi : s.scene? i with
  | none =>
    rw [answer_of_no_scene hi]
    exact ⟨.silent (Delivery.advice_of_no_scene hi call) .nil, rfl⟩
  | some scene =>
    have htells := Scene.dispatch_tells s.shared call scene
    rw [← Delivery.advice_of_scene? hi call] at htells
    rw [answer_of_scene? hi]
    exact .asked hi (Scene.leads_dispatch Scene.probe s.shared call scene).later.host rfl htells

theorem recounts_observe (s : Session) (i : Nat) (call : Call) :
    Recounts s (s.observeBy Scene.probe i call).2 [⟨⟨s, i, call⟩, true⟩]
      (s.observeBy Scene.probe i call).1 := by
  cases hi : s.scene? i with
  | none =>
    rw [observe_of_no_scene hi]
    exact ⟨.silent (Delivery.advice_of_no_scene hi call) .nil, rfl⟩
  | some scene =>
    have htells := Scene.observe_tells s.shared call scene
    rw [← Delivery.advice_of_scene? hi call] at htells
    have hwork : Recounts s _ [⟨⟨s, i, call⟩, true⟩] _ :=
      .asked hi (Scene.leads_observe Scene.probe s.shared call scene).later.host rfl htells
    rw [observe_of_scene? hi]
    cases (scene.observe s.shared call).1 with
    | none => exact hwork
    | some w =>
      have hcollect := hwork.trans (Recounts.other
        (hosts_collect _ (scene.observe s.shared call).2.engine.sink w))
      rw [List.append_nil, List.append_nil] at hcollect
      exact hcollect

theorem recounts_deliverAll (s : Session) (call : Call) (os : List Observer) :
    Recounts s (s.deliverAllBy Scene.probe call os).2 ((s.deliveriesTo call os).map (⟨·, true⟩))
      (s.deliverAllBy Scene.probe call os).1 := by
  induction os generalizing s with
  | nil => exact .other rfl
  | cons o os ih =>
    cases o with
    | engine i => exact (recounts_observe s i call).trans (ih _)
    | recorder r => exact (Recounts.seen s r call).trans (ih s)

/-! ## Steps and runs -/

theorem recounts_step (s : Session) (st : Step) :
    Recounts s (s.step st).2.1 (s.inquiriesBy st) (s.step st).1 := by
  have hregister : ∀ set o, Recounts s (s.register set o).2.1 [] (s.register set o).1 := by
    intro set o
    unfold register
    split <;> exact .other rfl
  cases st with
  | dispatch i call => exact recounts_dispatch s i call
  | observe i call => exact recounts_observe s i call
  | probe i c =>
    exact recounts_answer s i _ (fun scene => (Scene.later_probe c scene).host)
      (Scene.quiet_probe c)
  | probeAfresh i c => exact recounts_answer s i _ (fun _ => rfl) (Scene.quiet_probeAfresh c)
  | check i under index callee call =>
    rw [step, stepBy]
    split
    · exact .other rfl
    · next m _ =>
      exact recounts_answer s i _
        (fun scene => (Scene.leads_check Scene.probe m callee call scene).later.host)
        (Scene.along_quiet.check m callee call)
  | registerEngine set i => exact hregister set _
  | registerRecorder set =>
    have h := hregister set (.recorder s.recorders)
    exact ⟨h.tells, h.probes⟩
  | unregister | sameId =>
    rw [step, stepBy]
    split <;> exact .other rfl
  | notify set entry =>
    show Recounts s _ ((s.deliveriesBy (.notify set entry)).map (⟨·, true⟩)) _
    rw [step, stepBy, deliveriesBy]
    cases s.sets[set]? with
    | none => exact .other rfl
    | some group =>
      cases entry.normalize? with
      | none => exact .other rfl
      | some call => exact recounts_deliverAll s call group.observers
  | _ => exact .other rfl

theorem recounts_run (s : Session) (steps : List Step) :
    Recounts s (happened (s.run steps).2) (s.inquiries steps) (s.run steps).1 := by
  induction steps generalizing s with
  | nil => exact .other rfl
  | cons st steps ih => exact (recounts_step s st).trans (ih (s.step st).1)

/-! ## Matches in the log -/

/-- The callee and the rule of each match that the log has of engine `i`, in order. -/
def matchesIn (i : Nat) (events : List Event) : List (String × String) :=
  events.filterMap fun
    | .atEngine j _ (.logged (.matched callee rule)) => if j = i then some (callee, rule) else none
    | _ => none

theorem Tells.matchesIn_eq {events : List Event} {qs : List Inquiry} (h : Tells events qs)
    (i : Nat) :
    (matchesIn i events).map (fun m => (some m.1, m.2)) = qs.filterMap fun q =>
      if q.engine = i then q.advice.map fun d => (q.call.callee?, d.rule) else none := by
  unfold matchesIn
  rw [List.map_filterMap]
  refine h.filterMap_eq ?_ ?_ ?_
  · intro e he
    split
    · cases he
    · rfl
  · intro q hq
    simp [hq]
  · intro q _ d callee host hd hcallee
    by_cases hi : q.engine = i
    · cases q.reported <;> simp [Engine.adviceEvents, hi, hd, hcallee]
    · cases q.reported <;> simp [Engine.adviceEvents, hi]

/-! ## Warnings in the log -/

/-- The messages that, by the log, went to the collection `k`, in order. -/
def emittedTo (s : Session) (k : Nat) (events : List Event) : List String :=
  events.filterMap fun
    | .atEngine i _ (.logged (.emitting _ message)) =>
      if (s.engines[i]?).map (·.sink) = some (.collection k) then some message else none
    | _ => none

theorem Tells.emittedTo_eq {s : Session} {events : List Event} {qs : List Inquiry}
    (h : Tells events qs) (hlater : ∀ q ∈ qs, s.Later q.session) (k : Nat) :
    s.emittedTo k events = qs.filterMap fun q =>
      if q.reported then (q.owed k).map (·.message) else none := by
  refine h.filterMap_eq ?_ ?_ ?_
  · intro e he
    split
    · cases he
    · rfl
  · intro q hq
    simp [Delivery.owed, Delivery.adviceTo, hq]
  · intro q hmem d callee host hd _
    have hsink := (hlater q hmem).sink q.engine
    unfold Delivery.owed Delivery.adviceTo
    rw [hsink, hd]
    cases q.reported with
    | false => rfl
    | true =>
      by_cases hk : (s.engines[q.engine]?).map (·.sink) = some (.collection k)
      · simp [Engine.adviceEvents, Option.map_eq_some_iff.mp hk]
      · simp [Engine.adviceEvents, mt Option.map_eq_some_iff.mpr hk]

theorem later_of_mem_inquiriesBy {s : Session} {st : Step} {q : Inquiry}
    (h : q ∈ s.inquiriesBy st) : s.Later q.session := by
  cases st with
  | dispatch i call =>
    obtain rfl := List.mem_singleton.mp h
    exact .refl s
  | observe i call =>
    obtain rfl := List.mem_singleton.mp h
    exact .refl s
  | notify set entry =>
    obtain ⟨d, hd, rfl⟩ := List.mem_map.mp h
    exact later_of_mem_deliveriesBy hd
  | _ => cases h

theorem later_of_mem_inquiries {s : Session} {steps : List Step} {q : Inquiry}
    (h : q ∈ s.inquiries steps) : s.Later q.session := by
  induction steps generalizing s with
  | nil => cases h
  | cons st steps ih =>
    rcases List.mem_append.mp h with h | h
    · exact later_of_mem_inquiriesBy h
    · exact (later_step s st).trans (ih h)

theorem filterMap_reported {α : Type} (f : Delivery → Option α) (s : Session)
    (steps : List Step) :
    ((s.inquiries steps).filterMap fun q => if q.reported then f q.toDelivery else none) =
      (s.deliveries steps).filterMap f := by
  have hmap : ∀ ds : List Delivery, ((ds.map (Inquiry.mk · true)).filterMap fun q =>
      if q.reported then f q.toDelivery else none) = ds.filterMap f := by
    intro ds
    rw [List.filterMap_map]
    rfl
  induction steps generalizing s with
  | nil => rfl
  | cons st steps ih =>
    rw [inquiries, deliveries, List.filterMap_append, List.filterMap_append, ih]
    congr 1
    cases st with
    | dispatch i call => rfl
    | _ => exact hmap _

/-! ## The log of a beginning -/

theorem addEngine_log {s t : Session} {p : Plan} {log : List Log.Entry}
    (h : s.addEngine p = .ok (t, log)) :
    ∀ entry ∈ log, entry.onAdvice = false ∧ entry.isProbed = false := by
  have hpins : ∀ pins : NameMap Bool, ∀ entry ∈ Engine.unknownPins pins,
      entry.onAdvice = false ∧ entry.isProbed = false := by
    intro pins entry hentry
    rw [Engine.unknownPins_eq] at hentry
    obtain ⟨id, -, rfl⟩ := List.mem_map.mp hentry
    exact ⟨rfl, rfl⟩
  have hload : ∀ reader files root, ∀ entry ∈ Config.loadLog reader files root,
      entry.onAdvice = false ∧ entry.isProbed = false := by
    intro reader files root entry hentry
    unfold Config.loadLog Config.loadFileLog at hentry
    split at hentry
    · split at hentry
      · obtain rfl := List.mem_singleton.mp hentry
        exact ⟨rfl, rfl⟩
      · cases hentry
    · obtain rfl := List.mem_singleton.mp hentry
      exact ⟨rfl, rfl⟩
  unfold addEngine at h
  split at h
  · obtain ⟨-, rfl⟩ := Prod.mk.inj (Except.ok.inj h)
    exact hpins _
  · dsimp only at h
    split at h
    · cases h
    · obtain ⟨-, rfl⟩ := Prod.mk.inj (Except.ok.inj h)
      intro entry hentry
      rcases List.mem_append.mp hentry with hentry | hentry
      · exact hload _ _ _ entry hentry
      · exact hpins _ entry hentry

theorem addEngines_log {s t : Session} {plans : List Plan} {log : List Log.Entry}
    (h : s.addEngines plans = .ok (t, log)) :
    ∀ entry ∈ log, entry.onAdvice = false ∧ entry.isProbed = false := by
  induction plans generalizing s log with
  | nil =>
    obtain ⟨-, rfl⟩ := Prod.mk.inj (Except.ok.inj h)
    simp
  | cons p plans ih =>
    obtain ⟨u, now, later, hu, hv, rfl⟩ := addEngines_cons.mp h
    intro entry hentry
    rcases List.mem_append.mp hentry with hentry | hentry
    · exact addEngine_log hu entry hentry
    · exact ih hv entry hentry

/-- In every session and over every run, the log tells the same story as the results. The matches of
an engine in the log are, one for one and in order, the calls that it was asked about, by a
dispatch, by an observe or by a notification, and gave advice on, with their callee and the rule of
the advice. In every step, what is told of advice is told of the calls asked about in it, each in
one piece: the match and, only where the advice is reported, directly behind it the message, which
the sink is handed at once, whatever kind of sink it is. What was taken out of a collection and what
it holds are the messages that the log has for it. And in every step, the log has as many finished
probes as hosts were asked for scratch contexts. Making the engines logs nothing of the kind. -/
theorem log_tells_results {behaviours : List Host.Behaviour} {shared : List Selection}
    {sinks sets : Nat} {plans : List Plan} {s : Session} {built : List Log.Entry}
    (hs : (start (behaviours.map Host.fresh) shared sinks sets).addEngines plans = .ok (s, built))
    (steps : List Step) :
    (∀ i, (matchesIn i (happened (s.run steps).2)).map (fun m => (some m.1, m.2)) =
      (s.inquiries steps).filterMap fun q =>
        if q.engine = i then q.advice.map fun d => (q.call.callee?, d.rule) else none) ∧
    (∀ st, Tells ((s.run steps).1.step st).2.1 ((s.run steps).1.inquiriesBy st)) ∧
    (∀ k, k < s.sinks.length → ∃ held, (s.run steps).1.sinks[k]? = some held ∧
      (taken k steps (replies (s.run steps).2) ++ held).map (·.message) =
        s.emittedTo k (happened (s.run steps).2)) ∧
    (∀ st, ((s.run steps).1.step st).1.acquires = (s.run steps).1.acquires +
      ((s.run steps).1.step st).2.1.countP Event.isProbed) ∧
    ∀ entry ∈ built, entry.onAdvice = false ∧ entry.isProbed = false := by
  have htells := (recounts_run s steps).tells
  refine ⟨htells.matchesIn_eq, ?_, ?_, ?_, addEngines_log hs⟩
  · intro st
    exact (recounts_step _ st).tells
  · intro k hk
    have hbegins : s.Begins := ⟨behaviours, shared, sinks, sets, plans, built, hs⟩
    obtain ⟨held, hheld, hall⟩ := sinks_run (hbegins.sinks hk) steps
    refine ⟨held, hheld, ?_⟩
    rw [hall, List.nil_append, htells.emittedTo_eq (fun q => later_of_mem_inquiries) k,
      List.map_filterMap]
    exact (filterMap_reported (fun d => (d.owed k).map (·.message)) s steps).symm
  · intro st
    exact (recounts_step _ st).probes

/-- One engine has a collection and one the console. The first gives the same advice on a dispatch
and on a check, and only the dispatch is in the log; the second is told of a call, probes for
itself, and reports to the console. -/
theorem log_tells_results_console :
    let behaviours : List Host.Behaviour := [fun _ _ => .ok]
    let plan (sink : Sink) : Plan := ⟨0, .direct (.fixed .all) [] .empty, .builtin, sink⟩
    let engine (sink : Sink) : Engine := { Engine.new 0 (.fixed .all) with sink := sink }
    let s : Session := ⟨behaviours.map Host.fresh, [], [[]], [.empty],
      [engine (.collection 0), engine (.console true)], [], 0⟩
    let kill : Call := .named "kill-buffer" [.nil]
    let char : Call := .named "char-after" [.nullary "point"]
    let steps : List Step := [.registerEngine 0 1, .registerRecorder 0, .dispatch 0 kill,
      .check 0 "kill-buffer" 1 "kill-buffer" kill, .observe 0 char]
    let told : Step := .notify 0 (.unary (.symbol "kill-buffer") .nil)
    let onChar := "(char-after (point)) can be simplified to (char-after)"
    (start (behaviours.map Host.fresh) [] 1 1).addEngines
      [plan (.collection 0), plan (.console true)] = .ok (s, []) ∧
    (matchesIn 0 (happened (s.run steps).2)).map (fun m => (some m.1, m.2)) =
      [(some "kill-buffer", "kill-buffer-nil"), (some "char-after", "char-at-point")] ∧
    (∃ held, (s.run steps).1.sinks[0]? = some held ∧
      (taken 0 steps (replies (s.run steps).2) ++ held).map (·.message) =
        s.emittedTo 0 (happened (s.run steps).2)) ∧
    s.emittedTo 0 (happened (s.run steps).2) = [onChar] ∧
    Tells ((s.run steps).1.step told).2.1 ((s.run steps).1.inquiriesBy told) ∧
    ((s.run steps).1.inquiriesBy told).map (fun q => (q.engine, q.reported, q.advice.isSome)) =
      [(1, true, true)] ∧
    ((s.run steps).1.step told).1.acquires = (s.run steps).1.acquires + 1 := by
  intro behaviours plan engine s kill char steps told onChar
  have hs : (start (behaviours.map Host.fresh) [] 1 1).addEngines
      [plan (.collection 0), plan (.console true)] = .ok (s, []) := rfl
  obtain ⟨hmatches, htells, hsinks, hprobes, -⟩ := log_tells_results hs steps
  have hone : ((s.run steps).1.step told).2.1.countP Event.isProbed = 1 := by decide
  refine ⟨hs, (hmatches 0).trans (by decide), hsinks 0 (by decide), by decide, htells told,
    by decide, ?_⟩
  exact (hprobes told).trans (congrArg ((s.run steps).1.acquires + ·) hone)

end CallAdvice.Session
