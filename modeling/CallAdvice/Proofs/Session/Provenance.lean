import CallAdvice.Proofs.Engine.Probing
import CallAdvice.Proofs.Session.Knowledge

/-! Where the answers of an engine come from. An engine that remembers an answer got it from a probe
of its own: the first question for the capability that it was asked in the run, and no other, made
it probe its host, and the verdict of that probe is what it remembers. `Session.Sourced` says so of
all engines at once; every piece of work keeps it, and so does every run
(`Session.sourced_run`). -/
set_option autoImplicit false

namespace CallAdvice.Session

/-- What happens when engine `i` probes host `k`. -/
def probeAt (i k : Nat) (c : Capability) (done : List Host.Exchange) (v : Verdict) : List Event :=
  (Engine.probeEvents c done v).map (.atEngine i k)

/-- `Unasked i c events`: engine `i` answers no question for the capability. -/
def Unasked (i : Nat) (c : Capability) (events : List Event) : Prop :=
  ∀ k b, .atEngine i k (.answered c b) ∉ events

/-- `FirstAnswer i k c b events`: the first question for the capability that engine `i` answers
makes it probe host `k`, and the answer `b` is the verdict. -/
def FirstAnswer (i k : Nat) (c : Capability) (b : Bool) (events : List Event) : Prop :=
  ∃ before later scratch done v,
    events = before ++ probeAt i k c done v ++ .atEngine i k (.answered c b) :: later ∧
    Unasked i c before ∧ Host.Probed c scratch done v ∧ b = v.isPresent

/-- `Explains i k c m events`: the events explain why engine `i` remembers `m`. -/
def Explains (i k : Nat) (c : Capability) (m : Option Bool) (events : List Event) : Prop :=
  (m = none → Unasked i c events) ∧ ∀ b, m = some b → FirstAnswer i k c b events

/-- `Sourced events s`: what the engines remember of capabilities that are not pinned comes from
their first answers. -/
def Sourced (events : List Event) (s : Session) : Prop :=
  ∀ (i : Nat) (e : Engine) (c : Capability), s.engines[i]? = some e → e.pins.get c = none →
    Explains i e.host c (e.memory.get c) events

/-! ## Answers among events -/

theorem Unasked.append {i : Nat} {c : Capability} {events later : List Event}
    (h : Unasked i c events) (hlater : Unasked i c later) : Unasked i c (events ++ later) := by
  intro k b hmem
  rcases List.mem_append.mp hmem with hmem | hmem
  · exact h k b hmem
  · exact hlater k b hmem

theorem unasked_of_ne {i j k : Nat} (hne : i ≠ j) (c : Capability) (events : List Engine.Event) :
    Unasked i c (events.map (.atEngine j k)) := by
  intro k' b hmem
  obtain ⟨e, -, heq⟩ := List.mem_map.mp hmem
  injection heq with hji
  exact hne hji.symm

theorem unasked_of_not_mem {i k : Nat} {c : Capability} {events : List Engine.Event}
    (h : ∀ b, .answered c b ∉ events) : Unasked i c (events.map (.atEngine i k)) := by
  intro k' b hmem
  obtain ⟨e, he, heq⟩ := List.mem_map.mp hmem
  injection heq with _ _ heq
  subst heq
  exact h b he

theorem answered_not_mem_probeEvents (c d : Capability) (b : Bool) (done : List Host.Exchange)
    (v : Verdict) : .answered c b ∉ Engine.probeEvents d done v := by
  simp [Engine.probeEvents]

theorem FirstAnswer.append {i k : Nat} {c : Capability} {b : Bool} {events : List Event}
    (h : FirstAnswer i k c b events) (more : List Event) :
    FirstAnswer i k c b (events ++ more) := by
  obtain ⟨before, later, scratch, done, v, rfl, hbefore, hcourse, hb⟩ := h
  exact ⟨before, later ++ more, scratch, done, v, by simp, hbefore, hcourse, hb⟩

theorem Explains.append {i k : Nat} {c : Capability} {m : Option Bool} {events more : List Event}
    (h : Explains i k c m events) (hmore : m = none → Unasked i c more) :
    Explains i k c m (events ++ more) :=
  ⟨fun hm => (h.1 hm).append (hmore hm), fun b hm => (h.2 b hm).append more⟩

theorem explains_probe {i k : Nat} {c : Capability} {events : List Event} (h : Unasked i c events)
    {scratch : Nat} {done : List Host.Exchange} {v : Verdict}
    (hcourse : Host.Probed c scratch done v) :
    Explains i k c (some v.isPresent) (events ++
      (Engine.probeEvents c done v ++
        [Engine.Event.answered c v.isPresent]).map (.atEngine i k)) := by
  refine ⟨by simp, ?_⟩
  intro b hb
  obtain rfl := Option.some.inj hb
  exact ⟨events, [], scratch, done, v, by simp [probeAt], h, hcourse, rfl⟩

/-! ## An engine at work -/

/-- What engine `i` remembers is explained by the past and by what happened since. -/
def SceneSourced (past : List Event) (i : Nat) (s : Scene) : Prop :=
  ∀ c, s.engine.pins.get c = none → Explains i s.engine.host c (s.engine.memory.get c)
    (past ++ s.events.map (.atEngine i s.engine.host))

/-- Events without answers on what is neither pinned nor remembered explain nothing away. -/
theorem SceneSourced.more {past : List Event} {i : Nat} {s t : Scene} (h : SceneSourced past i s)
    (hhost : t.engine.host = s.engine.host) (hpins : t.engine.pins = s.engine.pins)
    (hmemory : t.engine.memory = s.engine.memory) {more : List Engine.Event}
    (hevents : t.events = s.events ++ more)
    (hmore : ∀ c b, s.engine.known? c = none → .answered c b ∉ more) : SceneSourced past i t := by
  intro c hc
  rw [hpins] at hc
  rw [hhost, hmemory, hevents, List.map_append, ← List.append_assoc]
  refine (h c hc).append ?_
  intro hm
  have hknown : s.engine.known? c = none := by simp [Engine.known?, hc, hm]
  exact unasked_of_not_mem fun b => hmore c b hknown

theorem SceneSourced.probe {past : List Event} {i : Nat} {s : Scene} (h : SceneSourced past i s)
    (c : Capability) : SceneSourced past i (s.probe c).2 := by
  rcases Scene.probe_cases c s with ⟨b, hknown, hprobe⟩ | ⟨hknown, done, v, hcourse, hprobe⟩
  · rw [hprobe]
    refine h.more rfl rfl rfl (Scene.happen_events s _) ?_
    intro d b' hd hmem
    obtain ⟨rfl, -⟩ : d = c ∧ b' = b := by simpa using hmem
    rw [hknown] at hd
    cases hd
  · rw [hprobe]
    intro d hd
    have hpins : s.engine.pins.get d = none := hd
    have hold := h d hpins
    simp only [List.append_assoc, List.map_append]
    rw [← List.append_assoc, ← List.map_append]
    by_cases hdc : d = c
    · -- Nothing is remembered, so this is the first question for the capability.
      subst hdc
      have hmemory : s.engine.memory.get d = none := by
        simpa [Engine.known?, hpins] using hknown
      have hnew : (s.engine.remember d v.isPresent).memory.get d = some v.isPresent := by
        simp [Engine.remember, Slots.get_set]
      rw [hnew]
      exact explains_probe (hold.1 hmemory) hcourse
    · have hsame : (s.engine.remember c v.isPresent).memory.get d = s.engine.memory.get d := by
        simp [Engine.remember, Slots.get_set, hdc]
      rw [hsame]
      refine hold.append fun _ => unasked_of_not_mem ?_
      intro b hmem
      rcases List.mem_append.mp hmem with hmem | hmem
      · exact answered_not_mem_probeEvents d c b done v hmem
      · simp [hdc] at hmem

theorem SceneSourced.leads {past : List Event} {i : Nat} {s t : Scene}
    (hs : SceneSourced past i s) (h : s.Leads Scene.probe t) : SceneSourced past i t := by
  induction h with
  | refl => exact hs
  | note notes hnotes _ ih =>
    refine ih.more rfl rfl rfl (Scene.happen_events _ notes) ?_
    intro c b _ hmem
    cases hnotes _ hmem
  | read shared _ ih =>
    refine ih.more rfl rfl rfl (Scene.happen_events _ _) ?_
    simp
  | ask c _ ih => exact ih.probe c

theorem Sourced.scene {events : List Event} {s : Session} (h : Sourced events s) {i : Nat}
    {scene : Scene} (hscene : s.scene? i = some scene) : SceneSourced events i scene := by
  obtain ⟨he, -, hempty⟩ := scene?_eq_some.mp hscene
  intro c hc
  rw [hempty, List.map_nil, List.append_nil]
  exact h i scene.engine c he hc

/-! ## Steps and runs -/

theorem sourced_restore {events : List Event} {s : Session} {i : Nat} {before after : Scene}
    (h : Sourced events s) (hscene : s.scene? i = some before)
    (hafter : SceneSourced events i after) :
    Sourced (events ++ after.events.map (.atEngine i after.engine.host)) (s.restore i after) := by
  intro k e c hk hc
  obtain ⟨hi, -, -⟩ := scene?_eq_some.mp hscene
  have hlt := (List.getElem?_eq_some_iff.mp hi).1
  rw [engines_restore] at hk
  by_cases hki : k = i
  · subst hki
    rw [List.getElem?_set_self hlt] at hk
    obtain rfl := Option.some.inj hk
    exact hafter c hc
  · rw [List.getElem?_set_ne (Ne.symm hki)] at hk
    exact (h k e c hk hc).append fun _ => unasked_of_ne hki c _

theorem Leads.sourced {past events : List Event} {s t : Session} (h : Leads Scene.probe s events t)
    (hs : Sourced past s) : Sourced (past ++ events) t := by
  induction h with
  | refl => rwa [List.append_nil]
  | work i _ hscene hleads ih =>
    rw [← List.append_assoc]
    exact sourced_restore ih hscene ((ih.scene hscene).leads hleads)
  | seen recorder call _ ih =>
    intro i e c he hc
    rw [← List.append_assoc]
    exact (ih i e c he hc).append fun _ k b hmem => by simp at hmem
  | other _ he _ ih =>
    intro i e c hi hc
    rw [he] at hi
    exact ih i e c hi hc

theorem sourced_step {past : List Event} {s : Session} (h : Sourced past s) (st : Step) :
    Sourced (past ++ (s.stepBy Scene.probe st).2.1) (s.stepBy Scene.probe st).1 := by
  rcases step_leads_or_probeAfresh Scene.probe s st with hleads | ⟨i, c, scene, rfl, hscene⟩
  · exact hleads.sourced h
  · obtain ⟨done, v, -, hprobe⟩ := Scene.probeAfresh_cases c scene
    rw [step_probeAfresh Scene.probe hscene, hprobe]
    refine sourced_restore h hscene ((h.scene hscene).more rfl rfl rfl rfl ?_)
    intro d b _ hmem
    exact answered_not_mem_probeEvents d c b done v hmem

theorem Begins.sourced {s : Session} (h : s.Begins) : Sourced [] s := by
  intro i e c he _
  have hmemory : e.memory.get c = none := by
    rw [h.memory (List.mem_of_getElem? he), Slots.get_fill]
  rw [hmemory]
  exact ⟨fun _ k b hmem => (by cases hmem), fun b hb => (by cases hb)⟩

theorem sourced_run {s : Session} (h : s.Begins) (steps : List Step) :
    Sourced (happened (s.run steps).2) (s.run steps).1 :=
  run_induction Scene.probe (I := Sourced) (fun _ _ st ht => sourced_step ht st) []
    h.sourced steps

end CallAdvice.Session
