import CallAdvice.Proofs.Engine.Knowledge
import CallAdvice.Proofs.Session.Work

/-! What the engines of a session know over a run. Every step leaves each engine at the same or a
later time of its own (`Session.later_run`), and an answer given in a run is known at its end
(`Session.knows_of_answered`). So the answers of an engine on one capability never differ, and an
engine gives the same advice on a call whenever its gate is open. -/
set_option autoImplicit false

namespace CallAdvice

/-! ## Answers in a scene -/

namespace Scene

/-- Every answer among the events of a scene is known to its engine. -/
def Recalls (s : Scene) : Prop :=
  ∀ c b, .answered c b ∈ s.events → s.engine.known? c = some b

/-- A probe afresh tells of the host only. -/
theorem mem_probeAfresh_events {c : Capability} {s : Scene} {e : Engine.Event}
    (h : e ∈ (s.probeAfresh c).2.events) :
    e ∈ s.events ∨ (∃ x, e = .hostAsked x) ∨ ∃ x, e = .logged x := by
  have hevents : (s.probeAfresh c).2.events = s.events ++
      ((s.host.probe c).2.history.drop s.host.history.length).map .hostAsked ++
      (Log.ofVerdict c (s.host.probe c).1).map .logged := rfl
  rw [hevents, List.mem_append, List.mem_append, List.mem_map, List.mem_map] at h
  rcases h with (h | ⟨x, -, rfl⟩) | ⟨x, -, rfl⟩
  · exact .inl h
  · exact .inr (.inl ⟨x, rfl⟩)
  · exact .inr (.inr ⟨x, rfl⟩)

theorem answered_of_probeAfresh {c d : Capability} {b : Bool} {s : Scene}
    (h : .answered d b ∈ (s.probeAfresh c).2.events) : .answered d b ∈ s.events := by
  rcases mem_probeAfresh_events h with h | ⟨x, hx⟩ | ⟨x, hx⟩
  · exact h
  · cases hx
  · cases hx

/-- A question adds its own answer to the answers so far. -/
theorem answered_of_probe {c d : Capability} {b : Bool} {s : Scene}
    (h : .answered d b ∈ (s.probe c).2.events) :
    .answered d b ∈ s.events ∨ d = c ∧ b = (s.probe c).1 := by
  cases hk : s.engine.known? c with
  | some b' =>
    rw [probe_of_known hk] at h ⊢
    simpa using h
  | none =>
    rw [probe_of_unknown hk] at h ⊢
    rw [happen_events, List.mem_append, List.mem_singleton] at h
    rcases h with h | h
    · exact .inl (answered_of_probeAfresh h)
    · right
      injection h with hd hb
      exact ⟨hd, hb⟩

theorem Recalls.probe {s : Scene} (h : s.Recalls) (c : Capability) : (s.probe c).2.Recalls := by
  intro d b hd
  rcases answered_of_probe hd with hd | ⟨rfl, rfl⟩
  · exact (later_probe c s).known d b (h d b hd)
  · exact known?_probe d s

theorem Leads.recalls {s t : Scene} (h : Leads Scene.probe s t) (hs : s.Recalls) : t.Recalls := by
  induction h with
  | refl => exact hs
  | note events he _ ih =>
    intro c b hc
    rcases List.mem_append.mp hc with hc | hc
    · exact ih c b hc
    · cases he _ hc
  | read shared _ ih =>
    intro c b hc
    rcases List.mem_append.mp hc with hc | hc
    · exact ih c b hc
    · simp at hc
  | ask c _ ih => exact ih.probe c

end Scene

namespace Session

/-! ## Sessions over time -/

/-- `s.Later t`: each engine of `s` is in `t` at the same or a later time, and there are neither
other engines nor other hosts. -/
structure Later (s t : Session) : Prop where
  hosts : t.hosts.length = s.hosts.length
  size : t.engines.length = s.engines.length
  engine : ∀ (i : Nat) (e : Engine), s.engines[i]? = some e →
    ∃ f, t.engines[i]? = some f ∧ e.Later f

theorem Later.of_engines_eq {s t : Session} (he : t.engines = s.engines)
    (hh : t.hosts.length = s.hosts.length) : s.Later t where
  hosts := hh
  size := congrArg List.length he
  engine i e hi := ⟨e, by rw [he, hi], Engine.Later.refl e⟩

theorem Later.refl (s : Session) : s.Later s := .of_engines_eq rfl rfl

theorem Later.trans {s t u : Session} (h : s.Later t) (h' : t.Later u) : s.Later u where
  hosts := h'.hosts.trans h.hosts
  size := h'.size.trans h.size
  engine i e he := by
    obtain ⟨f, hf, hef⟩ := h.engine i e he
    obtain ⟨g, hg, hfg⟩ := h'.engine i f hf
    exact ⟨g, hg, hef.trans hfg⟩

/-- An engine keeps what time does not change. -/
theorem Later.kept {α : Type} {part : Engine → α} {s t : Session} (h : s.Later t)
    (hpart : ∀ e f, e.Later f → part f = part e) (i : Nat) :
    (t.engines[i]?).map part = (s.engines[i]?).map part := by
  cases he : s.engines[i]? with
  | none =>
    have hsize := List.getElem?_eq_none_iff.mp he
    rw [← h.size] at hsize
    rw [List.getElem?_eq_none_iff.mpr hsize]
  | some e =>
    obtain ⟨f, hf, hef⟩ := h.engine i e he
    rw [hf, Option.map_some, Option.map_some, hpart e f hef]

theorem Later.host {s t : Session} (h : s.Later t) (i : Nat) :
    (t.engines[i]?).map (·.host) = (s.engines[i]?).map (·.host) :=
  h.kept (fun _ _ hef => hef.host) i

theorem Later.sink {s t : Session} (h : s.Later t) (i : Nat) :
    (t.engines[i]?).map (·.sink) = (s.engines[i]?).map (·.sink) :=
  h.kept (fun _ _ hef => hef.sink) i

/-- An engine that can work goes on being able to. -/
theorem Later.scene {s t : Session} (h : s.Later t) {i : Nat} {scene : Scene}
    (hs : s.scene? i = some scene) :
    ∃ scene', t.scene? i = some scene' ∧ scene.engine.Later scene'.engine := by
  obtain ⟨he, hh, -⟩ := scene?_eq_some.mp hs
  obtain ⟨f, hf, hlater⟩ := h.engine i _ he
  have hlt : f.host < t.hosts.length := by
    rw [hlater.host, h.hosts]
    exact (List.getElem?_eq_some_iff.mp hh).1
  exact ⟨⟨f, t.hosts[f.host], []⟩,
    scene?_eq_some.mpr ⟨hf, List.getElem?_eq_getElem hlt, rfl⟩, hlater⟩

theorem later_restore {s : Session} {i : Nat} {before after : Scene}
    (h : s.scene? i = some before) (hlater : before.engine.Later after.engine) :
    s.Later (s.restore i after) where
  hosts := by rw [hosts_restore, List.length_set]
  size := by rw [engines_restore, List.length_set]
  engine k e he := by
    obtain ⟨hi, -, -⟩ := scene?_eq_some.mp h
    rw [engines_restore]
    by_cases hk : k = i
    · subst hk
      obtain ⟨hlt, -⟩ := List.getElem?_eq_some_iff.mp he
      rw [he] at hi
      obtain rfl := Option.some.inj hi
      exact ⟨after.engine, List.getElem?_set_self hlt, hlater⟩
    · rw [List.getElem?_set_ne (Ne.symm hk)]
      exact ⟨e, he, Engine.Later.refl e⟩

theorem Leads.later {s t : Session} {events : List Event} (h : Leads Scene.probe s events t) :
    s.Later t := by
  induction h with
  | refl => exact .refl _
  | work i _ hscene hleads ih => exact ih.trans (later_restore hscene hleads.later)
  | seen _ _ _ ih => exact ih
  | other _ he hh ih => exact ih.trans (.of_engines_eq he (congrArg List.length hh))

theorem later_step (s : Session) (st : Step) : s.Later (s.stepBy Scene.probe st).1 := by
  rcases step_leads_or_probeAfresh Scene.probe s st with h | ⟨i, c, scene, rfl, h⟩
  · exact h.later
  · rw [step_probeAfresh Scene.probe h c]
    exact later_restore h (Engine.Later.refl _)

theorem later_run (s : Session) (steps : List Step) : s.Later (s.run steps).1 :=
  run_induction Scene.probe (I := fun _ t => s.Later t)
    (fun _ t st h => h.trans (later_step t st)) [] (.refl s) steps

/-! ## Answers in a run -/

/-- `s.Knows i c b`: engine `i` can work, and knows that its host has the capability or has not. -/
def Knows (s : Session) (i : Nat) (c : Capability) (b : Bool) : Prop :=
  ∃ scene, s.scene? i = some scene ∧ scene.engine.known? c = some b

theorem Knows.later {s t : Session} {i : Nat} {c : Capability} {b : Bool} (h : s.Knows i c b)
    (hlater : s.Later t) : t.Knows i c b := by
  obtain ⟨scene, hs, hk⟩ := h
  obtain ⟨scene', hs', hl⟩ := hlater.scene hs
  exact ⟨scene', hs', hl.known c b hk⟩

theorem Knows.unique {s : Session} {i : Nat} {c : Capability} {b b' : Bool} (h : s.Knows i c b)
    (h' : s.Knows i c b') : b = b' := by
  obtain ⟨scene, hs, hk⟩ := h
  obtain ⟨scene', hs', hk'⟩ := h'
  rw [hs] at hs'
  obtain rfl := Option.some.inj hs'
  rw [hk] at hk'
  exact Option.some.inj hk'

/-- Every answer among `events` is known to its engine. -/
def Recalls (events : List Event) (s : Session) : Prop :=
  ∀ i k c b, .atEngine i k (.answered c b) ∈ events → s.Knows i c b

theorem Recalls.append {events later : List Event} {s t : Session} (h : Recalls events s)
    (hlater : s.Later t) (h' : Recalls later t) : Recalls (events ++ later) t := by
  intro i k c b hmem
  rcases List.mem_append.mp hmem with hmem | hmem
  · exact (h i k c b hmem).later hlater
  · exact h' i k c b hmem

/-- Answers of one engine at work are known once it is put back. -/
theorem recalls_restore {s : Session} {i : Nat} {before after : Scene}
    (h : s.scene? i = some before) (hlater : before.engine.Later after.engine)
    (hafter : after.Recalls) :
    Recalls (after.events.map (.atEngine i after.engine.host)) (s.restore i after) := by
  intro k host c b hmem
  obtain ⟨e, he, heq⟩ := List.mem_map.mp hmem
  injection heq with hi _ hanswer
  subst hi hanswer
  obtain ⟨scene, hs, hl⟩ := (later_restore h hlater).scene h
  have hengine : scene.engine = after.engine := by
    have hi := (scene?_eq_some.mp hs).1
    have hlt := (List.getElem?_eq_some_iff.mp (scene?_eq_some.mp h).1).1
    rw [engines_restore, List.getElem?_set_self hlt] at hi
    exact (Option.some.inj hi).symm
  exact ⟨scene, hs, by rw [hengine]; exact hafter c b he⟩

theorem recalls_of_scene? {s : Session} {i : Nat} {scene : Scene} (h : s.scene? i = some scene) :
    scene.Recalls := by
  intro c b hc
  rw [(scene?_eq_some.mp h).2.2] at hc
  cases hc

theorem Leads.recalls {s t : Session} {events : List Event} (h : Leads Scene.probe s events t) :
    Recalls events t := by
  induction h with
  | refl =>
    intro i k c b hmem
    cases hmem
  | work i _ hscene hleads ih =>
    exact ih.append (later_restore hscene hleads.later)
      (recalls_restore hscene hleads.later (hleads.recalls (recalls_of_scene? hscene)))
  | seen recorder call _ ih =>
    refine ih.append (.refl _) ?_
    intro i k c b hmem
    simp at hmem
  | other _ he hh ih =>
    intro i k c b hmem
    exact (ih i k c b hmem).later (.of_engines_eq he (congrArg List.length hh))

theorem recalls_step (s : Session) (st : Step) :
    Recalls (s.stepBy Scene.probe st).2.1 (s.stepBy Scene.probe st).1 := by
  rcases step_leads_or_probeAfresh Scene.probe s st with h | ⟨i, c, scene, rfl, h⟩
  · exact h.recalls
  · rw [step_probeAfresh Scene.probe h c]
    have hlater : scene.engine.Later (scene.probeAfresh c).2.engine := Engine.Later.refl _
    have hrecalls : (scene.probeAfresh c).2.Recalls := fun d b hd =>
      recalls_of_scene? h d b (Scene.answered_of_probeAfresh hd)
    exact recalls_restore h hlater hrecalls

/-- An answer given in a run is known at its end. -/
theorem knows_of_answered {s : Session} {steps : List Step} {i k : Nat} {c : Capability} {b : Bool}
    (h : .atEngine i k (.answered c b) ∈ happened (s.run steps).2) :
    (s.run steps).1.Knows i c b := by
  have hrun : Recalls ([] ++ happened (s.run steps).2) (s.run steps).1 :=
    run_induction Scene.probe (I := Recalls)
      (fun _ t st ht => ht.append (later_step t st) (recalls_step t st)) []
      (fun _ _ _ _ hmem => by cases hmem) steps
  exact hrun i k c b h

/-- What an engine knows is what it answers. -/
theorem step_probe_of_knows {s : Session} {i : Nat} {c : Capability} {b : Bool}
    (h : s.Knows i c b) : (s.step (.probe i c)).2.2 = .truth b := by
  obtain ⟨scene, hs, hk⟩ := h
  show (s.answer i (Scene.probe c) .truth).2.2 = .truth b
  rw [answer_of_scene? hs, Scene.probe_of_known hk]

/-- A reply to a question for a capability is an answer. -/
theorem answered_of_step_probe {s : Session} {i : Nat} {c : Capability} {b : Bool}
    (h : (s.step (.probe i c)).2.2 = .truth b) :
    ∃ k, .atEngine i k (.answered c b) ∈ (s.step (.probe i c)).2.1 := by
  have hstep : s.step (.probe i c) = s.answer i (Scene.probe c) .truth := rfl
  rw [hstep] at h ⊢
  cases hs : s.scene? i with
  | none =>
    rw [answer_of_no_scene hs] at h
    cases h
  | some scene =>
    rw [answer_of_scene? hs] at h ⊢
    injection h with hb
    rw [← hb]
    exact ⟨_, List.mem_map_of_mem (Scene.answered_mem_probe c scene)⟩

/-! ## Advice over time -/

/-- The gate of an engine is open. -/
def GateOpen (s : Session) (i : Nat) : Prop :=
  ∃ scene, s.scene? i = some scene ∧ (scene.gate s.shared).1 = true

/-- Through an open gate, the reply to a dispatch is the advice for any answers that agree with what
the engine knows at any later time. -/
theorem step_dispatch_eq_advice {s t : Session} {i : Nat} {call : Call} {e f : Engine}
    {has : Capability → Bool} (hopen : s.GateOpen i) (he : s.engines[i]? = some e)
    (hlater : (s.step (.dispatch i call)).1.Later t) (hf : t.engines[i]? = some f)
    (hhas : f.Agrees has) :
    (s.step (.dispatch i call)).2.2 = .advice (e.registry.advice has call) := by
  obtain ⟨scene, hs, hg⟩ := hopen
  obtain ⟨he', -, -⟩ := scene?_eq_some.mp hs
  rw [he] at he'
  obtain rfl := Option.some.inj he'
  have hstep : s.step (.dispatch i call) = s.answer i (·.dispatch s.shared call) .advice := rfl
  rw [hstep, answer_of_scene? hs] at hlater ⊢
  have hlt := (List.getElem?_eq_some_iff.mp he).1
  obtain ⟨g, hg', hlate⟩ := hlater.engine i _
    (by rw [engines_restore]; exact List.getElem?_set_self hlt)
  rw [hf] at hg'
  obtain rfl := Option.some.inj hg'
  exact congrArg Reply.advice (Scene.dispatch_eq_advice hg (hlate.agrees hhas))

/-- An engine gives the same advice on a call at any two times at which its gate is open. -/
theorem step_dispatch_again {s : Session} {i : Nat} {call : Call} (between : List Step)
    (hopen : s.GateOpen i) (hagain : (s.run (.dispatch i call :: between)).1.GateOpen i) :
    ((s.run (.dispatch i call :: between)).1.step (.dispatch i call)).2.2 =
      (s.step (.dispatch i call)).2.2 := by
  let t := (s.run (.dispatch i call :: between)).1
  have hst : (s.step (.dispatch i call)).1.Later t := later_run _ between
  have htu : t.Later (t.step (.dispatch i call)).1 := later_step t _
  obtain ⟨scene, hs, -⟩ := id hopen
  obtain ⟨he, -, -⟩ := scene?_eq_some.mp hs
  obtain ⟨f, hf, hef⟩ := ((later_step s (.dispatch i call)).trans hst).engine i _ he
  obtain ⟨g, hg, -⟩ := htu.engine i f hf
  obtain ⟨has, hhas⟩ := g.exists_agrees
  have hfirst := step_dispatch_eq_advice hopen he (hst.trans htu) hg hhas
  have hsecond := step_dispatch_eq_advice hagain hf (.refl _) hg hhas
  rw [hfirst]
  refine hsecond.trans ?_
  rw [hef.registry]

end Session

end CallAdvice
