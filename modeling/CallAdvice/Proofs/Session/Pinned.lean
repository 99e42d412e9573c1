import CallAdvice.Proofs.Engine.Pins
import CallAdvice.Proofs.Session.Knowledge
import CallAdvice.Proofs.Session.Refit

/-! Pinned capabilities in a session. A run goes the same way with other pins on an engine, unless
that engine is asked for a capability on which they differ (`Session.run_repin`). No engine ever
remembers anything about a capability that it has pinned (`Session.unfilled_run`). The plan of an
engine decides about its pins and about the log entries on its configuration, and about nothing else
in the session (`Session.addEngines_repin`); together they say what pins do in all runs
(`Session.last_pin_decides`). -/
set_option autoImplicit false

namespace CallAdvice.Session

/-! ## Other pins -/

/-- `s.Spares k pins events`: the answers of engine `k` among the events are on capabilities for
which `pins` says what the engine has pinned. -/
def Spares (s : Session) (k : Nat) (pins : Slots (Option Bool)) (events : List Event) : Prop :=
  ∀ e, s.engines[k]? = some e →
    ∀ h c b, .atEngine k h (.answered c b) ∈ events → pins.get c = e.pins.get c

section

variable {s : Session} {k : Nat} {pins : Slots (Option Bool)}

theorem Spares.left {events later : List Event} (h : s.Spares k pins (events ++ later)) :
    s.Spares k pins events :=
  fun e he host c b hmem => h e he host c b (List.mem_append_left _ hmem)

theorem Spares.right {t : Session} {events later : List Event}
    (h : s.Spares k pins (events ++ later)) (hlater : s.Later t) : t.Spares k pins later := by
  intro f hf host c b hmem
  have hlt : k < s.engines.length := by
    rw [← hlater.size]
    exact (List.getElem?_eq_some_iff.mp hf).1
  obtain ⟨f', hf', hmake⟩ := hlater.engine k _ (List.getElem?_eq_getElem hlt)
  rw [hf] at hf'
  obtain rfl := Option.some.inj hf'
  rw [hmake.pins]
  exact h _ (List.getElem?_eq_getElem hlt) host c b (List.mem_append_right _ hmem)

theorem Spares.scene {host : Nat} {before after : Scene} (hscene : s.scene? k = some before)
    (hleads : before.Leads Scene.probe after)
    (h : s.Spares k pins (after.events.map (.atEngine k host))) : after.Spares pins := by
  intro c b hmem
  rw [hleads.later.pins]
  exact h _ (scene?_eq_some.mp hscene).1 host c b (List.mem_map_of_mem hmem)

theorem answer_repin {α : Type} {i : Nat} {f : Scene → α × Scene} (reply : α → Reply)
    (hleads : ∀ scene : Scene, scene.Leads Scene.probe (f scene).2)
    (hf : ∀ scene : Scene, (f scene).2.Spares pins →
      f (scene.refit (Engine.repin pins)) = (f scene).map id (Scene.refit (Engine.repin pins)))
    (h : s.Spares k pins (s.answer i f reply).2.1) :
    (s.refit k (Engine.repin pins)).answer i f reply =
      ((s.answer i f reply).1.refit k (Engine.repin pins), (s.answer i f reply).2) := by
  refine answer_refit (Engine.host_repin pins) s k i f reply ?_
  rintro scene rfl hscene
  rw [answer_of_scene? hscene] at h
  exact hf scene (h.scene hscene (hleads scene))

theorem observe_repin {i : Nat} {call : Call}
    (h : s.Spares k pins (s.observeBy Scene.probe i call).2) :
    (s.refit k (Engine.repin pins)).observeBy Scene.probe i call =
      ((s.observeBy Scene.probe i call).1.refit k (Engine.repin pins),
        (s.observeBy Scene.probe i call).2) := by
  refine observe_refit (Engine.host_repin pins) (Engine.sink_repin pins) s k i call ?_
  rintro scene rfl hscene
  rw [observe_of_scene? hscene] at h
  exact Scene.observe_repin s.shared call
    (h.scene hscene (Scene.leads_observe Scene.probe s.shared call scene))

end

theorem deliverAll_repin {s : Session} {k : Nat} {pins : Slots (Option Bool)} {call : Call}
    {os : List Observer} (h : s.Spares k pins (s.deliverAllBy Scene.probe call os).2) :
    (s.refit k (Engine.repin pins)).deliverAllBy Scene.probe call os =
      ((s.deliverAllBy Scene.probe call os).1.refit k (Engine.repin pins),
        (s.deliverAllBy Scene.probe call os).2) := by
  induction os generalizing s with
  | nil => rfl
  | cons o os ih =>
    let t := (s.deliverBy Scene.probe call o).1
    have hrest : (t.refit k (Engine.repin pins)).deliverAllBy Scene.probe call os =
        ((t.deliverAllBy Scene.probe call os).1.refit k (Engine.repin pins),
          (t.deliverAllBy Scene.probe call os).2) :=
      ih (h.right (leads_deliver Scene.probe s call o).later)
    have hfirst : (s.refit k (Engine.repin pins)).deliverBy Scene.probe call o =
        ((s.deliverBy Scene.probe call o).1.refit k (Engine.repin pins),
          (s.deliverBy Scene.probe call o).2) := by
      cases o with
      | engine i => exact observe_repin h.left
      | recorder r => rfl
    rw [deliverAllBy, deliverAllBy, hfirst]
    show (((t.refit k (Engine.repin pins)).deliverAllBy Scene.probe call os).1,
      _ ++ ((t.refit k (Engine.repin pins)).deliverAllBy Scene.probe call os).2) = _
    rw [hrest]

/-- A step goes the same way with other pins, unless the engine is asked for a capability on which
they differ. -/
theorem step_repin {s : Session} {k : Nat} {pins : Slots (Option Bool)} {st : Step}
    (h : s.Spares k pins (s.step st).2.1) :
    (s.refit k (Engine.repin pins)).step st =
      ((s.step st).1.refit k (Engine.repin pins), (s.step st).2) := by
  have hregistry := registry_refit (Engine.registry_repin pins) s k
  unfold step at h ⊢
  cases st with
  | dispatch i call =>
    exact answer_repin .advice (Scene.leads_dispatch Scene.probe s.shared call)
      (fun _ => Scene.dispatch_repin s.shared call) h
  | observe i call =>
    have hobserve := observe_repin (show s.Spares k pins (s.observeBy Scene.probe i call).2 from h)
    rw [stepBy, stepBy, hobserve]
  | probe i c =>
    exact answer_repin .truth (fun scene => .ask c (.refl scene)) (fun _ => Scene.probe_repin) h
  | probeAfresh i c =>
    exact answer_refit (Engine.host_repin pins) s k i _ .truth fun _ _ _ => rfl
  | check i under index callee call =>
    rw [stepBy, stepBy, matcher_congr (hregistry i)]
    rw [stepBy] at h
    split
    · rfl
    · next m hm =>
      rw [hm] at h
      exact answer_repin (.checked m.id) (Scene.leads_check Scene.probe m callee call)
        (fun _ => Scene.check_repin m callee call) h
  | callees i =>
    exact congrArg (fun r => (s.refit k _, ([] : List Event), r))
      (names_congr (hregistry i) (·.callees.names)).symm
  | ruleIds i =>
    exact congrArg (fun r => (s.refit k _, ([] : List Event), r))
      (names_congr (hregistry i) (·.ruleIds.names)).symm
  | lookup i callee =>
    exact congrArg (fun r => (s.refit k _, ([] : List Event), r))
      (names_congr (hregistry i) fun r => (r.lookup callee).map Matcher.id).symm
  | notify set entry =>
    have hsets : (s.refit k (Engine.repin pins)).sets = s.sets := rfl
    rw [stepBy] at h
    rw [stepBy, stepBy, hsets]
    split
    · rfl
    · rfl
    · next group call hgroup hcall =>
      rw [hgroup, hcall] at h
      rw [deliverAll_repin h]
  | registerEngine set i =>
    rw [stepBy, stepBy]
    exact register_refit s k _ set _
  | registerRecorder set =>
    rw [stepBy, stepBy, register_refit]
    rfl
  | unregister set handle =>
    have hsets : (s.refit k (Engine.repin pins)).sets = s.sets := rfl
    have hhandles : (s.refit k (Engine.repin pins)).handles = s.handles := rfl
    rw [stepBy, stepBy, hsets, hhandles]
    split <;> rfl
  | sameId first second =>
    have hhandles : (s.refit k (Engine.repin pins)).handles = s.handles := rfl
    rw [stepBy, stepBy, hhandles]
    split <;> rfl
  | setShared | getShared | warnings | take | size => rfl

theorem run_repin {s : Session} {k : Nat} {pins : Slots (Option Bool)} {steps : List Step}
    (h : s.Spares k pins (happened (s.run steps).2)) :
    (s.refit k (Engine.repin pins)).run steps =
      ((s.run steps).1.refit k (Engine.repin pins), (s.run steps).2) := by
  have hcons : ∀ (s : Session) st steps, s.run (st :: steps) =
      (((s.step st).1.run steps).1, (s.step st).2 :: ((s.step st).1.run steps).2) :=
    fun _ _ _ => rfl
  induction steps generalizing s with
  | nil => rfl
  | cons st steps ih =>
    have hevents : happened (s.run (st :: steps)).2 =
        (s.step st).2.1 ++ happened ((s.step st).1.run steps).2 := rfl
    rw [hevents] at h
    rw [hcons, hcons, step_repin h.left]
    dsimp only
    rw [ih (h.right (later_step s st))]

/-! ## Places of pinned capabilities -/

/-- `s.Unfilled`: no engine remembers anything about a capability that it has pinned. -/
def Unfilled (s : Session) : Prop := ∀ e ∈ s.engines, e.Unfilled

theorem Unfilled.scene {s : Session} (h : s.Unfilled) {i : Nat} {scene : Scene}
    (hs : s.scene? i = some scene) : scene.engine.Unfilled :=
  h _ (List.mem_of_getElem? (scene?_eq_some.mp hs).1)

theorem Unfilled.restore {s : Session} (h : s.Unfilled) (i : Nat) {after : Scene}
    (hafter : after.engine.Unfilled) : (s.restore i after).Unfilled := by
  intro e he
  rcases List.mem_or_eq_of_mem_set he with he | rfl
  · exact h e he
  · exact hafter

theorem Leads.unfilled {s t : Session} {events : List Event} (h : Leads Scene.probe s events t)
    (hs : s.Unfilled) : t.Unfilled := by
  induction h with
  | refl => exact hs
  | work i _ hscene hleads ih => exact ih.restore i (hleads.unfilled (ih.scene hscene))
  | seen _ _ _ ih => exact ih
  | other _ he _ ih =>
    intro e hmem
    rw [he] at hmem
    exact ih e hmem

theorem unfilled_step {s : Session} (hs : s.Unfilled) (st : Step) :
    (s.stepBy Scene.probe st).1.Unfilled := by
  rcases step_leads_or_probeAfresh Scene.probe s st with h | ⟨i, c, scene, rfl, hscene⟩
  · exact h.unfilled hs
  · rw [step_probeAfresh Scene.probe hscene]
    have hengine := hs.scene hscene
    exact hs.restore i hengine

theorem unfilled_run {s : Session} (hs : s.Unfilled) (steps : List Step) :
    (s.run steps).1.Unfilled :=
  run_induction Scene.probe (I := fun _ t => t.Unfilled) (fun _ _ st ht => unfilled_step ht st) []
    hs steps

/-! ## Questions for pinned and for free capabilities -/

/-- `s.Pinned k c v`: engine `k` answers the question for `c` by `v`, put by a step or at any point
of its work, and neither asks its host nor remembers anything about `c`. -/
structure Pinned (s : Session) (k : Nat) (c : Capability) (v : Bool) : Prop where
  step : ∃ host, s.step (.probe k c) = (s, [.atEngine k host (.answered c v)], .truth v)
  work : ∀ before after, s.scene? k = some before → before.Leads Scene.probe after →
    after.probe c = (v, after.happen [.answered c v]) ∧ after.engine.memory.get c = none

theorem pinned {s : Session} (hs : s.Unfilled) {k : Nat} {scene : Scene}
    (hscene : s.scene? k = some scene) {c : Capability} {v : Bool}
    (hc : scene.engine.pins.get c = some v) : s.Pinned k c v where
  step := by
    have hprobe := Scene.probe_of_known (Engine.known?_of_pinned hc)
    have hevents := (scene?_eq_some.mp hscene).2.2
    refine ⟨scene.engine.host, ?_⟩
    show s.answer k (Scene.probe c) .truth = _
    have hself := restore_self hscene
    have hrestore : s.restore k (scene.happen [.answered c v]) = s := hself
    rw [answer_of_scene? hscene, hprobe, hrestore, Scene.happen_events, hevents]
    rfl
  work before after hbefore hleads := by
    rw [hscene] at hbefore
    obtain rfl := Option.some.inj hbefore
    have hpin : after.engine.pins.get c = some v := by
      rw [hleads.later.pins]
      exact hc
    exact ⟨Scene.probe_of_known (Engine.known?_of_pinned hpin),
      hleads.unfilled (hs.scene hscene) c v hpin⟩

/-- The session without pins on engine `k`. -/
def unpinned (s : Session) (k : Nat) : Session := s.refit k (Engine.repin (.fill none))

/-- `s.Free k c`: at any point of the work of engine `k`, the question for `c` is answered as if the
engine had no pins. -/
def Free (s : Session) (k : Nat) (c : Capability) : Prop :=
  ∀ before after, s.scene? k = some before → before.Leads Scene.probe after →
    (after.refit (Engine.repin (.fill none))).probe c =
      (after.probe c).map id (Scene.refit (Engine.repin (.fill none)))

theorem free {s : Session} {k : Nat} {e : Engine} (he : s.engines[k]? = some e) {c : Capability}
    (hc : e.pins.get c = none) : s.Free k c := by
  intro before after hbefore hleads
  have hengine := (scene?_eq_some.mp hbefore).1
  rw [he] at hengine
  obtain rfl := Option.some.inj hengine
  have hpins : (Slots.fill none).get c = after.engine.pins.get c := by
    rw [Slots.get_fill, hleads.later.pins, hc]
  exact Scene.probe_refit_of_known (Engine.known?_repin hpins) fun _ => rfl

/-! ## Engines with other overrides -/

/-- The engine that is made from a source, pins and a configuration. -/
def directEngine (host : Nat) (source : Source) (pins : List (Capability × Bool))
    (configured : NameMap Bool) (registry : Registry) (sink : Sink) : Engine :=
  { ((Engine.new host source).pinAll pins).pinConfigured configured with
    registry := registry, sink := sink }

section

variable (host : Nat) (source : Source) (pins : List (Capability × Bool))
  (configured : NameMap Bool) (registry : Registry) (sink : Sink)

theorem pins_directEngine (c : Capability) :
    (directEngine host source pins configured registry sink).pins.get c =
      (configured.get? c.id).or (Engine.lastPin? c pins) := by
  have hpins : (directEngine host source pins configured registry sink).pins =
      (((Engine.new host source).pinAll pins).pinConfigured configured).pins := rfl
  have hnew : (Engine.new host source).pins.get c = none := Slots.get_fill _ _
  rw [hpins, Engine.pins_pinConfigured, Engine.pins_pinAll, hnew, Option.or_none]

theorem directEngine_eq : directEngine host source pins configured registry sink =
    ({ Engine.new host source with registry := registry, sink := sink }).repin
      (directEngine host source pins configured registry sink).pins := by
  let e := Engine.new host source
  let pinned := (e.pinAll pins).pinConfigured configured
  have hpinned : pinned = e.repin pinned.pins := by
    calc pinned = (e.pinAll pins).repin pinned.pins := pinAll_eq _ _
      _ = (e.repin (e.pinAll pins).pins).repin pinned.pins :=
        congrArg (Engine.repin pinned.pins) (pinAll_eq e pins)
      _ = e.repin pinned.pins := rfl
  exact congrArg (fun e : Engine => { e with registry := registry, sink := sink }) hpinned

theorem directEngine_repin (pins' : List (Capability × Bool)) (configured' : NameMap Bool) :
    (directEngine host source pins configured registry sink).repin
        (directEngine host source pins' configured' registry sink).pins =
      directEngine host source pins' configured' registry sink := by
  rw [directEngine_eq host source pins, directEngine_eq host source pins']
  rfl

theorem host_directEngine :
    (directEngine host source pins configured registry sink).host = host :=
  congrArg Engine.host (directEngine_eq host source pins configured registry sink)

theorem directEngine_knownPins :
    directEngine host source pins (Engine.knownPins configured) registry sink =
      directEngine host source pins configured registry sink := by
  unfold directEngine
  rw [Engine.pinConfigured_knownPins]

/-- The session with one engine more. -/
def withEngine (s : Session) (e : Engine) : Session := { s with engines := s.engines ++ [e] }

theorem addEngine_direct (s : Session) :
    s.addEngine ⟨host, .direct source pins configured, registry, sink⟩ =
      .ok (s.withEngine (directEngine host source pins configured registry sink),
        Engine.unknownPins configured) := rfl

end

theorem getElem?_withEngine (s : Session) (e : Engine) :
    (s.withEngine e).engines[s.engines.length]? = some e := List.getElem?_concat_length

theorem withEngine_refit (s : Session) (e : Engine) (g : Engine → Engine) :
    s.withEngine (g e) = (s.withEngine e).refit s.engines.length g := by
  have hlast : (s.engines ++ [e])[s.engines.length]? = some e := List.getElem?_concat_length
  have hengines : s.engines ++ [g e] = (s.engines ++ [e]).modify s.engines.length g := by
    rw [modify_eq_set hlast, List.set_append_right _ _ (Nat.le_refl _), Nat.sub_self]
    rfl
  unfold withEngine refit
  dsimp only
  rw [hengines]

/-- The overrides in one plan decide about the pins of one engine and about one part of the log, and
about nothing else. -/
theorem addEngines_repin {host : Nat} {source : Source} {pins : List (Capability × Bool)}
    {configured : NameMap Bool} {registry : Registry} {sink : Sink} {s t : Session}
    {plans : List Plan} {log : List Log.Entry} (h : s.addEngines plans = .ok (t, log)) {k : Nat}
    (hk : plans[k]? = some ⟨host, .direct source pins configured, registry, sink⟩) :
    t.engines[s.engines.length + k]? =
        some (directEngine host source pins configured registry sink) ∧
      ∃ before after, log = before ++ Engine.unknownPins configured ++ after ∧
        ∀ pins' configured',
          s.addEngines (plans.set k ⟨host, .direct source pins' configured', registry, sink⟩) =
            .ok (t.refit (s.engines.length + k)
              (Engine.repin (directEngine host source pins' configured' registry sink).pins),
              before ++ Engine.unknownPins configured' ++ after) := by
  induction plans generalizing s log k with
  | nil => cases hk
  | cons p plans ih =>
    obtain ⟨u, now, later, hu, hv, rfl⟩ := addEngines_cons.mp h
    cases k with
    | zero =>
      obtain rfl := Option.some.inj hk
      rw [addEngine_direct] at hu
      obtain ⟨rfl, rfl⟩ := Prod.mk.inj (Except.ok.inj hu)
      have hmade := getElem?_withEngine s
        (directEngine host source pins configured registry sink)
      have hlt := (List.getElem?_eq_some_iff.mp hmade).1
      obtain ⟨-, added, -, hengines⟩ := addEngines_eq_ok hv
      refine ⟨?_, [], later, rfl, ?_⟩
      · rw [hengines, Nat.add_zero, List.getElem?_append_left hlt]
        exact hmade
      · intro pins' configured'
        -- The new engine comes from the old one by a change of its pins, which the later ones keep.
        have hadd := addEngine_direct host source pins' configured' registry sink s
        rw [← directEngine_repin host source pins configured, withEngine_refit] at hadd
        exact addEngines_cons.mpr ⟨_, _, later, hadd, addEngines_refit hv hlt _, rfl⟩
    | succ k =>
      obtain ⟨-, e, -, hengines⟩ := addEngine_eq_ok hu
      have hsize : u.engines.length + k = s.engines.length + (k + 1) := by
        rw [hengines, List.length_append, List.length_singleton]
        omega
      obtain ⟨hengine, before, after, hlog, hset⟩ := ih hv hk
      rw [hsize] at hengine hset
      refine ⟨hengine, now ++ before, after, by simp [hlog], ?_⟩
      intro pins' configured'
      exact addEngines_cons.mpr ⟨u, now, _, hu, hset pins' configured', by simp⟩

/-! ## The last pin decides -/

theorem unfilled_of_start {hosts : List Host} {shared : List Selection} {sinks sets : Nat}
    {plans : List Plan} {s : Session} {log : List Log.Entry}
    (h : (start hosts shared sinks sets).addEngines plans = .ok (s, log)) : s.Unfilled := by
  obtain ⟨-, added, hadded, hengines⟩ := addEngines_eq_ok h
  intro e he c v _
  rw [hengines] at he
  rw [hadded e he, Slots.get_fill]

theorem run_unpinned {s : Session} {k : Nat} {steps : List Step}
    (h : ∀ e, s.engines[k]? = some e → ∀ host c b,
      .atEngine k host (.answered c b) ∈ happened (s.run steps).2 → e.pins.get c = none) :
    (s.unpinned k).run steps = ((s.run steps).1.unpinned k, (s.run steps).2) := by
  refine run_repin ?_
  intro e he host c b hmem
  rw [Slots.get_fill, h e he host c b hmem]

/-- A pin counts if no later one is for the same capability, and those of a configuration count
before all others. In every run a pinned capability is answered as it is pinned, without a question
to the host and without an entry in the memory; the questions for the others are answered as if
there were no pins, and a run in which the engine is asked for no pinned capability goes as if it
had been made without any. Keys of the configuration that name no capability are logged, one by one
and in order, while the session is made, which without them is the same. -/
theorem last_pin_decides {hosts : List Host} {shared : List Selection} {sinks sets : Nat}
    {plans : List Plan} {s : Session} {log : List Log.Entry}
    (hs : (start hosts shared sinks sets).addEngines plans = .ok (s, log)) {k host : Nat}
    {source : Source} {pins : List (Capability × Bool)} {configured : NameMap Bool}
    {registry : Registry} {sink : Sink}
    (hk : plans[k]? = some ⟨host, .direct source pins configured, registry, sink⟩)
    (hhost : host < hosts.length) :
    ∃ e, s.engines[k]? = some e ∧
      (∀ c, e.pins.get c = (configured.get? c.id).or (Engine.lastPin? c pins)) ∧
      (∀ steps c v, e.pins.get c = some v → (s.run steps).1.Pinned k c v) ∧
      (∀ steps c, e.pins.get c = none → (s.run steps).1.Free k c) ∧
      (∀ steps later, (∀ h c b, .atEngine k h (.answered c b) ∈
          happened ((s.run steps).1.run later).2 → e.pins.get c = none) →
        ((s.run steps).1.unpinned k).run later =
          (((s.run steps).1.run later).1.unpinned k, ((s.run steps).1.run later).2)) ∧
      ∃ before after,
        log = before ++ (configured.keys.filter fun x => x ∉ Capability.all.map Capability.id).map
          .unknownCapability ++ after ∧
        (start hosts shared sinks sets).addEngines (plans.set k
            ⟨host, .direct source [] .empty, registry, sink⟩) =
          .ok (s.unpinned k, before ++ after) ∧
        (start hosts shared sinks sets).addEngines (plans.set k
            ⟨host, .direct source pins (Engine.knownPins configured), registry, sink⟩) =
          .ok (s, before ++ after) := by
  have hplace : (start hosts shared sinks sets).engines.length + k = k := Nat.zero_add k
  obtain ⟨hengine, before, after, hlog, hset⟩ := addEngines_repin hs hk
  rw [hplace] at hengine hset
  let e := directEngine host source pins configured registry sink
  refine ⟨e, hengine, pins_directEngine host source pins configured registry sink, ?_, ?_, ?_,
    before, after, ?_, ?_, ?_⟩
  · intro steps c v hc
    have hlt : e.host < s.hosts.length := by
      rw [host_directEngine, (addEngines_eq_ok hs).1]
      exact hhost
    have hscene : s.scene? k = some ⟨e, s.hosts[e.host], []⟩ :=
      scene?_eq_some.mpr ⟨hengine, List.getElem?_eq_getElem hlt, rfl⟩
    obtain ⟨scene, hnow, hlater⟩ := (later_run s steps).scene hscene
    have hpin : scene.engine.pins.get c = some v := by
      rw [hlater.pins]
      exact hc
    exact pinned (unfilled_run (unfilled_of_start hs) steps) hnow hpin
  · intro steps c hc
    obtain ⟨f, hf, hlater⟩ := (later_run s steps).engine k e hengine
    exact free hf (by rw [hlater.pins]; exact hc)
  · intro steps later hasked
    obtain ⟨f, hf, hlater⟩ := (later_run s steps).engine k e hengine
    refine run_unpinned ?_
    intro f' hf' h c b hmem
    rw [hf] at hf'
    obtain rfl := Option.some.inj hf'
    rw [hlater.pins]
    exact hasked h c b hmem
  · rw [← Engine.unknownPins_eq]
    exact hlog
  · have hnone : Engine.unknownPins .empty = [] := rfl
    rw [hset, hnone, List.append_nil]
    rfl
  · rw [hset, Engine.unknownPins_knownPins, List.append_nil, directEngine_knownPins,
      refit_of_fixed hengine rfl]

/-- Two engines of a host that cannot be probed. The second one has a capability pinned twice, one
pinned in its configuration also, and two keys in there that name no capability. -/
theorem last_pin_decides_twice_pinned :
    let host := Host.fresh fun _ _ => .error (.noScratch "full")
    let engine (pins : Slots (Option Bool)) : Engine :=
      { Engine.new 0 (.shared 0) with pins := pins, sink := .collection 0 }
    let s : Session := ⟨[host], [.all], [[]], [.empty],
      [engine (.fill none), engine ⟨some false, some true, none⟩], [], 0⟩
    let pins := [(.killBuffer, true), (.deleteWindow, false), (.killBuffer, false)]
    let configured : NameMap Bool :=
      .ofList [("warp", true), ("delete-window-optional-arg", true), ("fly", false)]
    let plan (pins : List (Capability × Bool)) (configured : NameMap Bool) : Plan :=
      ⟨0, .direct (.shared 0) pins configured, .builtin, .collection 0⟩
    let plans := [plan [] .empty, plan pins configured]
    let steps : List Step := [.probe 0 .killBuffer, .probe 1 .killBuffer, .setShared 0 .none]
    let later : List Step := [.probe 1 .listMotion, .warnings 0]
    (start [host] [.all] 1 1).addEngines plans =
        .ok (s, [.unknownCapability "fly", .unknownCapability "warp"]) ∧
      (s.run steps).1.Pinned 1 .killBuffer false ∧ (s.run steps).1.Pinned 1 .deleteWindow true ∧
      (s.run steps).1.Free 1 .listMotion ∧
      (((s.run steps).1.unpinned 1).run later).2 = ((s.run steps).1.run later).2 ∧
      (start [host] [.all] 1 1).addEngines (plans.set 1 (plan [] .empty)) =
        .ok (s.unpinned 1, []) ∧
      (start [host] [.all] 1 1).addEngines (plans.set 1 (plan pins (Engine.knownPins configured))) =
        .ok (s, []) := by
  intro host engine s pins configured plan plans steps later
  have hs : (start [host] [.all] 1 1).addEngines plans =
      .ok (s, [.unknownCapability "fly", .unknownCapability "warp"]) := rfl
  obtain ⟨e, -, hpins, hpinned, hfree, hlater, before, after, hlog, hnone, hknown⟩ :=
    last_pin_decides hs (k := 1) rfl (by decide)
  have hkill : e.pins.get .killBuffer = some false := hpins .killBuffer
  have hdelete : e.pins.get .deleteWindow = some true := hpins .deleteWindow
  have hmotion : e.pins.get .listMotion = none := hpins .listMotion
  have hrest : before ++ after = [] := by
    have hlength := congrArg List.length hlog
    have hunknown : (configured.keys.filter fun x => x ∉ Capability.all.map Capability.id).length =
      2 := rfl
    simp only [List.length_append, List.length_map, hunknown, List.length_cons, List.length_nil]
      at hlength
    exact List.append_eq_nil_iff.mpr ⟨List.eq_nil_of_length_eq_zero (by omega),
      List.eq_nil_of_length_eq_zero (by omega)⟩
  rw [hrest] at hnone hknown
  refine ⟨hs, hpinned steps .killBuffer false hkill, hpinned steps .deleteWindow true hdelete,
    hfree steps .listMotion hmotion, ?_, hnone, hknown⟩
  have hevents : happened ((s.run steps).1.run later).2 =
      [.atEngine 1 0 (.hostAsked ⟨.acquire, .error (.noScratch "full")⟩),
        .atEngine 1 0 (.logged (.probeFailed .listMotion (.noScratch "full"))),
        .atEngine 1 0 (.logged (.probed .listMotion false)),
        .atEngine 1 0 (.answered .listMotion false)] := by
    decide +kernel
  rw [hlater steps later ?_]
  intro h c b hmem
  rw [hevents] at hmem
  simp only [List.mem_cons, Event.atEngine.injEq, Engine.Event.answered.injEq, List.not_mem_nil,
    reduceCtorEq, and_false, or_false, false_or] at hmem
  rw [hmem.2.2.1]
  exact hmotion

end CallAdvice.Session
