import CallAdvice.Host.Script
import CallAdvice.Proofs.Rule.Requirement
import CallAdvice.Proofs.Session.Provenance

/-! Advice that relies on a capability is backed by a probe. When an engine with the builtin rules
suggests a form that relies on a capability, it is certain of the capability once the step is over
(`Session.Advises.relies`). Unless the capability is pinned, that certainty comes from a probe of
its own in which the host did all that was asked (`Session.exists_cleanProbe`). -/
set_option autoImplicit false

namespace CallAdvice

/-! ## What is certain when advice is given -/

/-- Whether an engine knows that its host has a capability. -/
def Engine.certain (e : Engine) (c : Capability) : Bool := e.known? c == some true

theorem Engine.certain_iff {e : Engine} {c : Capability} :
    e.certain c = true ↔ e.known? c = some true := by
  simp [certain]

theorem Engine.agrees_certain (e : Engine) : e.Agrees e.certain := by
  intro c b h
  cases b <;> simp [certain, h]

theorem Engine.Later.certain {e f : Engine} (h : e.Later f) {c : Capability}
    (hc : e.certain c = true) : f.certain c = true :=
  certain_iff.mpr (h.known c true (certain_iff.mp hc))

theorem Rule.Relies.mono {has has' : Capability → Bool} {under : String} {call : Call}
    {s : Suggestion} (h : Relies has under call s) (hmono : ∀ c, has c = true → has' c = true) :
    Relies has' under call s := by
  intro c hc
  obtain ⟨hhas, hrest⟩ := h c hc
  exact ⟨hmono c hhas, hrest⟩

namespace Scene

theorem relies_of_dispatch {s : Scene} {shared : List Selection} {call : Call} {d : Diagnostic}
    (hrules : s.engine.registry = .builtin) (h : (s.dispatch shared call).1 = some d) :
    ∃ f, call.callee? = some f ∧ ∀ sug ∈ d.suggestions,
      Rule.Relies (s.dispatch shared call).2.engine.certain f call sug := by
  have hadvice := dispatch_eq_advice (open_of_dispatch h)
    (s.dispatch shared call).2.engine.agrees_certain
  rw [h, hrules] at hadvice
  exact Rule.relies_of_advice hadvice.symm

theorem relies_of_check {s : Scene} {m : Matcher} {under callee : String} {call : Call}
    {d : Diagnostic} (hm : m ∈ Registry.builtin.lookup under)
    (h : (s.check m callee call).1 = some d) :
    ∀ sug ∈ d.suggestions, Rule.Relies (s.check m callee call).2.engine.certain under call sug := by
  have hdecide := run_eq_decide (m.check callee call) _ _
    (s.check m callee call).2.engine.agrees_certain
  exact Rule.relies_of_mem_builtin hm (hdecide.symm.trans h)

theorem observe_engine (s : Scene) (shared : List Selection) (call : Call) :
    (s.observeBy Scene.probe shared call).2.engine = (s.dispatch shared call).2.engine := by
  unfold observeBy dispatch
  split
  · next t he => rw [he]
  · next d t he => rw [he]; rfl

end Scene

namespace Session

/-! ## Advice in a step -/

/-- `s.Advises st i under call d`: the step `st`, taken in the session `s`, makes engine `i` give
the advice `d` on a call, by a matcher found under the name `under`. Observing a call and being told
of one are dispatches too. -/
inductive Advises (s : Session) : Step → Nat → Option String → Call → Diagnostic → Prop where
  | dispatch {i : Nat} {call : Call} {d : Diagnostic} :
    (s.step (.dispatch i call)).2.2 = .advice (some d) →
    Advises s (.dispatch i call) i call.callee? call d
  | observe {i : Nat} {call : Call} {d : Diagnostic} :
    (s.step (.dispatch i call)).2.2 = .advice (some d) →
    Advises s (.observe i call) i call.callee? call d
  | notify {set i : Nat} {entry : EntryCall} {group : ObserverSet Observer} {call : Call}
    {earlier later : List Observer} {d : Diagnostic} :
    s.sets[set]? = some group → entry.normalize? = some call →
    group.observers = earlier ++ .engine i :: later →
    ((s.deliverAllBy Scene.probe call earlier).1.step (.dispatch i call)).2.2 =
      .advice (some d) →
    Advises s (.notify set entry) i call.callee? call d
  | check {i index : Nat} {under callee id : String} {call : Call} {d : Diagnostic} :
    (s.step (.check i under index callee call)).2.2 = .checked id (some d) →
    Advises s (.check i under index callee call) i (some under) call d

/-- `s.Relies i under call d`: engine `i` is certain of all that the advice relies on. -/
def Relies (s : Session) (i : Nat) (under : Option String) (call : Call) (d : Diagnostic) : Prop :=
  ∃ f e, under = some f ∧ s.engines[i]? = some e ∧
    ∀ sug ∈ d.suggestions, Rule.Relies e.certain f call sug

theorem Relies.later {s t : Session} {i : Nat} {under : Option String} {call : Call}
    {d : Diagnostic} (h : s.Relies i under call d) (hlater : s.Later t) :
    t.Relies i under call d := by
  obtain ⟨f, e, hf, he, hrelies⟩ := h
  obtain ⟨e', he', hee'⟩ := hlater.engine i e he
  exact ⟨f, e', hf, he', fun sug hsug => (hrelies sug hsug).mono fun c hc => hee'.certain hc⟩

theorem exists_of_answer {α : Type} {s : Session} {i : Nat} {f : Scene → α × Scene}
    {reply : α → Reply} {e : Engine} (he : s.engines[i]? = some e)
    (h : (s.answer i f reply).2.2 ≠ .missing) :
    ∃ scene : Scene, scene.engine = e ∧ (s.answer i f reply).2.2 = reply (f scene).1 ∧
      (s.answer i f reply).1.engines[i]? = some (f scene).2.engine := by
  cases hscene : s.scene? i with
  | none =>
    rw [answer_of_no_scene hscene] at h
    exact absurd rfl h
  | some scene =>
    obtain ⟨hi, -, -⟩ := scene?_eq_some.mp hscene
    have hlt := (List.getElem?_eq_some_iff.mp hi).1
    rw [answer_of_scene? hscene]
    exact ⟨scene, Option.some.inj (hi.symm.trans he), rfl, List.getElem?_set_self hlt⟩

theorem relies_of_dispatch {s : Session} {i : Nat} {e : Engine} {call : Call} {d : Diagnostic}
    (he : s.engines[i]? = some e) (hrules : e.registry = .builtin)
    (h : (s.step (.dispatch i call)).2.2 = .advice (some d)) :
    (s.step (.dispatch i call)).1.Relies i call.callee? call d := by
  have hstep : s.step (.dispatch i call) = s.answer i (·.dispatch s.shared call) .advice := rfl
  rw [hstep] at h ⊢
  obtain ⟨scene, rfl, hreply, hafter⟩ := exists_of_answer he (by rw [h]; simp)
  rw [h] at hreply
  have hd : (scene.dispatch s.shared call).1 = some d := by
    injection hreply.symm
  obtain ⟨f, hf, hrelies⟩ := Scene.relies_of_dispatch hrules hd
  exact ⟨f, _, hf, hafter, hrelies⟩

theorem relies_of_check {s : Session} {i index : Nat} {e : Engine} {under callee id : String}
    {call : Call} {d : Diagnostic} (he : s.engines[i]? = some e) (hrules : e.registry = .builtin)
    (h : (s.step (.check i under index callee call)).2.2 = .checked id (some d)) :
    (s.step (.check i under index callee call)).1.Relies i (some under) call d := by
  rw [step, stepBy, he, Option.bind_some] at h ⊢
  cases hm : (e.registry.lookup under)[index]? with
  | none =>
    rw [hm] at h
    cases h
  | some m =>
    rw [hm] at h
    have hreply : (s.answer i (·.check m callee call) (.checked m.id)).2.2 =
        .checked id (some d) := h
    obtain ⟨scene, rfl, hreply', hafter⟩ := exists_of_answer he (by rw [hreply]; simp)
    rw [hreply] at hreply'
    have hd : (scene.check m callee call).1 = some d := by
      injection hreply'.symm
    have hmem : m ∈ Registry.builtin.lookup under := hrules ▸ List.mem_of_getElem? hm
    exact ⟨under, _, rfl, hafter, Scene.relies_of_check hmem hd⟩

theorem engines_observe (s : Session) (i : Nat) (call : Call) :
    (s.observeBy Scene.probe i call).1.engines = (s.step (.dispatch i call)).1.engines := by
  have hstep : s.step (.dispatch i call) = s.answer i (·.dispatch s.shared call) .advice := rfl
  rw [hstep]
  unfold observeBy
  cases hscene : s.scene? i with
  | none => rw [work_of_no_scene hscene, answer_of_no_scene hscene]
  | some scene =>
    rw [work_of_scene? hscene, answer_of_scene? hscene, engines_restore, ← Scene.observe_engine]
    cases hw : (scene.observeBy Scene.probe s.shared call).1 with
    | none => simp only [hw, engines_restore]
    | some w =>
      simp only [hw]
      unfold collect
      split <;> rfl

theorem deliverAll_append (s : Session) (call : Call) (earlier later : List Observer) :
    (s.deliverAllBy Scene.probe call (earlier ++ later)).1 =
      ((s.deliverAllBy Scene.probe call earlier).1.deliverAllBy Scene.probe call later).1 := by
  induction earlier generalizing s with
  | nil => rfl
  | cons o earlier ih => exact ih _

/-- When a step is over, an engine with the builtin rules is certain of all that the advice it gave
relies on. -/
theorem Advises.relies {s : Session} {st : Step} {i : Nat} {under : Option String} {call : Call}
    {d : Diagnostic} (h : s.Advises st i under call d) {e : Engine} (he : s.engines[i]? = some e)
    (hrules : e.registry = .builtin) : (s.step st).1.Relies i under call d := by
  cases h with
  | dispatch hreply => exact relies_of_dispatch he hrules hreply
  | observe hreply =>
    obtain ⟨f, e', hf, he', hrelies⟩ := relies_of_dispatch he hrules hreply
    exact ⟨f, e', hf, (congrArg (·[i]?) (engines_observe s i call)).trans he', hrelies⟩
  | check hreply => exact relies_of_check he hrules hreply
  | @notify set _ entry group _ earlier later _ hset hentry hobservers hreply =>
    -- The other observers of the set may be engines too; what is certain stays so through them.
    let t := (s.deliverAllBy Scene.probe call earlier).1
    obtain ⟨e', he', hlater⟩ := (leads_deliverAll Scene.probe s call earlier).later.engine i e he
    obtain ⟨f, e'', hf, he'', hrelies⟩ :=
      relies_of_dispatch (s := t) he' (hlater.registry.trans hrules) hreply
    have hobserve : (t.observeBy Scene.probe i call).1.Relies i call.callee? call d :=
      ⟨f, e'', hf, (congrArg (·[i]?) (engines_observe t i call)).trans he'', hrelies⟩
    have hstep : (s.step (.notify set entry)).1 =
        ((t.observeBy Scene.probe i call).1.deliverAllBy Scene.probe call later).1 := by
      rw [step, stepBy, hset, hentry]
      show (s.deliverAllBy Scene.probe call group.observers).1 = _
      rw [hobservers, deliverAll_append]
      rfl
    rw [hstep]
    exact hobserve.later (leads_deliverAll Scene.probe _ call later).later

/-! ## Evidence in a run -/

theorem run_concat (s : Session) (steps : List Step) (st : Step) :
    (s.run (steps ++ [st])).1 = ((s.run steps).1.step st).1 ∧
      happened (s.run (steps ++ [st])).2 =
        happened (s.run steps).2 ++ ((s.run steps).1.step st).2.1 := by
  obtain ⟨hsession, hevents⟩ := run_append Scene.probe s steps [st]
  refine ⟨hsession, hevents.trans ?_⟩
  have hone : happened ((s.run steps).1.run [st]).2 = ((s.run steps).1.step st).2.1 :=
    List.append_nil _
  exact congrArg (happened (s.run steps).2 ++ ·) hone

/-- An engine that is certain of a capability that is not pinned has seen its host do all that the
probe asks. -/
theorem exists_cleanProbe {s : Session} (hs : s.Begins) {steps : List Step} {i : Nat} {e : Engine}
    {c : Capability} (he : (s.run steps).1.engines[i]? = some e) (hpin : e.pins.get c = none)
    (hcertain : e.certain c = true) :
    ∃ scratch last, last ≠ .crash ∧
      probeAt i e.host c (Host.cleanProbe c scratch last) .present <:+:
        happened (s.run steps).2 := by
  have hmemory : e.memory.get c = some true := by
    simpa [Engine.certain_iff, Engine.known?, hpin] using hcertain
  obtain ⟨before, later, scratch, done, v, hevents, -, hcourse, hv⟩ :=
    (sourced_run hs steps i e c he hpin).2 true hmemory
  obtain rfl := Verdict.isPresent_iff.mp hv.symm
  obtain ⟨last, hlast, rfl⟩ := hcourse.eq_of_present
  exact ⟨scratch, last, hlast, before, .atEngine i e.host (.answered c true) :: later, hevents.symm⟩

theorem first_answer_unique {i k k' : Nat} {c : Capability} {b b' : Bool}
    {before before' after after' : List Event}
    (h : before ++ .atEngine i k (.answered c b) :: after =
      before' ++ .atEngine i k' (.answered c b') :: after')
    (hbefore : Unasked i c before) (hbefore' : Unasked i c before') :
    before = before' ∧ k = k' ∧ b = b' := by
  -- An answer that comes earlier than the other stands before it, where there is none.
  rcases List.append_eq_append_iff.mp h with ⟨between, rfl, hrest⟩ | ⟨between, rfl, hrest⟩
  · cases between with
    | nil =>
      have hfirst := (List.cons.inj hrest).1
      simp_all
    | cons x between =>
      obtain rfl := (List.cons.inj hrest).1
      exact absurd (by simp) (hbefore' k b)
  · cases between with
    | nil =>
      have hfirst := (List.cons.inj hrest).1
      simp_all
    | cons x between =>
      obtain rfl := (List.cons.inj hrest).1
      exact absurd (by simp) (hbefore k' b')

/-- The first answer on a capability that is not pinned comes right after a probe, and is known from
then on. -/
theorem probe_of_first_answer {s : Session} (hs : s.Begins) {steps : List Step} {i k : Nat}
    {e : Engine} {c : Capability} {b : Bool} {before after : List Event}
    (he : (s.run steps).1.engines[i]? = some e) (hpin : e.pins.get c = none)
    (hevents : happened (s.run steps).2 = before ++ .atEngine i k (.answered c b) :: after)
    (hbefore : Unasked i c before) :
    e.known? c = some b ∧ ∃ rest scratch done v, before = rest ++ probeAt i k c done v ∧
      Host.Probed c scratch done v ∧ b = v.isPresent := by
  have hmem : .atEngine i k (.answered c b) ∈ happened (s.run steps).2 := by
    rw [hevents]
    simp
  obtain ⟨scene, hscene, hknown⟩ := knows_of_answered hmem
  obtain rfl : scene.engine = e := by
    have hi := (scene?_eq_some.mp hscene).1
    exact Option.some.inj (hi.symm.trans he)
  have hmemory : scene.engine.memory.get c = some b := by
    simpa [Engine.known?, hpin] using hknown
  obtain ⟨rest, later, scratch, done, v, hsplit, hrest, hcourse, hv⟩ :=
    (sourced_run hs steps i _ c he hpin).2 b hmemory
  have hprobe : Unasked i c (rest ++ probeAt i scene.engine.host c done v) :=
    hrest.append (unasked_of_not_mem fun b' => answered_not_mem_probeEvents c c b' done v)
  rw [hsplit] at hevents
  obtain ⟨rfl, rfl, -⟩ := first_answer_unique hevents.symm hbefore hprobe
  exact ⟨hknown, rest, scratch, done, v, rfl, hcourse, hv⟩

theorem Advises.certain {s : Session} {steps : List Step} {st : Step} {i : Nat} {e : Engine}
    (he : s.engines[i]? = some e) (hrules : e.registry = .builtin) {under : Option String}
    {call : Call} {d : Diagnostic} (h : (s.run steps).1.Advises st i under call d) :
    ∃ f e', under = some f ∧ (s.run (steps ++ [st])).1.engines[i]? = some e' ∧ e.Later e' ∧
      ∀ sug ∈ d.suggestions, Rule.Relies e'.certain f call sug := by
  obtain ⟨now, hnow, hlater⟩ := (later_run s steps).engine i e he
  obtain ⟨f, e', hf, he', hrelies⟩ := h.relies hnow (hlater.registry.trans hrules)
  rw [← (run_concat s steps st).1] at he'
  obtain ⟨e'', he'', hlater'⟩ := (later_run s (steps ++ [st])).engine i e he
  obtain rfl : e'' = e' := Option.some.inj (he''.symm.trans he')
  exact ⟨f, e'', hf, he', hlater', hrelies⟩

/-- The call of a command without arguments is among the forms of its capability, or stands for
those of `down-list` and `up-list`. -/
theorem form_mem_cleanProbe {c : Capability} {f : String} {call : Call} {sug : Suggestion}
    (hcallee : call.callee? = some f) (hform : sug.form = (call.withArgs []).toForm)
    (hcommand : f ∈ c.commands) (scratch : Nat) (last : Host.Outcome) :
    (f ≠ "backward-up-list" → ∃ form, sug.form = form.toForm ∧
      ⟨.eval scratch form, .ok⟩ ∈ Host.cleanProbe c scratch last) ∧
    (f = "backward-up-list" →
      ⟨.eval scratch (.named "down-list" []), .ok⟩ ∈ Host.cleanProbe c scratch last ∧
      ⟨.eval scratch (.named "up-list" []), .ok⟩ ∈ Host.cleanProbe c scratch last) := by
  refine ⟨?_, ?_⟩
  · intro hne
    have hnamed : call.withArgs [] = .named f [] := by
      rw [Call.callee?_eq_some.mp hcallee]
      rfl
    refine ⟨.named f [], by rw [hform, hnamed], ?_⟩
    exact Host.eval_mem_cleanProbe (Capability.named_mem_forms hcommand hne) scratch last
  · rintro rfl
    obtain rfl := Capability.eq_listMotion hcommand
    exact ⟨Host.eval_mem_cleanProbe (by decide) scratch last,
      Host.eval_mem_cleanProbe (by decide) scratch last⟩

/-- Advice of an engine with the builtin rules, in any run and whatever the hosts do. A suggestion
that relies on a capability is never made where the capability is pinned as absent. Where it is not
pinned, the engine has probed its host for it, by the end of the step, and all went well; the
suggested form was evaluated then, and in place of `(backward-up-list)` both `(down-list)` and
`(up-list)` were. The first question for a capability that is not pinned is answered by a probe, and
if that probe fails, no suggestion relies on the capability in this step or in a later one. -/
theorem requirements_backed {s : Session} (hs : s.Begins) {i : Nat} {e : Engine}
    (he : s.engines[i]? = some e) (hrules : e.registry = .builtin) (steps : List Step)
    (st : Step) :
    (∀ under call d, (s.run steps).1.Advises st i under call d →
      ∀ sug ∈ d.suggestions, ∀ c, sug.requires = some c →
        e.pins.get c ≠ some false ∧
        (e.pins.get c = none → ∃ scratch last, last ≠ .crash ∧
          probeAt i e.host c (Host.cleanProbe c scratch last) .present <:+:
            happened (s.run (steps ++ [st])).2 ∧
          (under = call.callee? → call.callee? ≠ some "backward-up-list" →
            ∃ form, sug.form = form.toForm ∧
              ⟨.eval scratch form, .ok⟩ ∈ Host.cleanProbe c scratch last) ∧
          (under = call.callee? → call.callee? = some "backward-up-list" →
            ⟨.eval scratch (.named "down-list" []), .ok⟩ ∈ Host.cleanProbe c scratch last ∧
            ⟨.eval scratch (.named "up-list" []), .ok⟩ ∈ Host.cleanProbe c scratch last))) ∧
    ∀ c k b before after, e.pins.get c = none →
      happened (s.run (steps ++ [st])).2 =
        before ++ .atEngine i k (.answered c b) :: after → Unasked i c before →
      ∃ rest scratch done v, before = rest ++ probeAt i k c done v ∧
        Host.Probed c scratch done v ∧ b = v.isPresent ∧
        (v ≠ .present → ∀ under call d, (s.run steps).1.Advises st i under call d →
          ∀ sug ∈ d.suggestions, sug.requires ≠ some c) := by
  refine ⟨?_, ?_⟩
  · intro under call d hadvises sug hsug c hc
    obtain ⟨f, e', hf, he', hlater, hrelies⟩ := hadvises.certain he hrules
    obtain ⟨hcertain, hform, hcommand⟩ := hrelies sug hsug c hc
    refine ⟨?_, ?_⟩
    · intro hpin
      rw [← hlater.pins] at hpin
      simp [Engine.certain_iff, Engine.known?, hpin] at hcertain
    · intro hpin
      rw [← hlater.pins] at hpin
      obtain ⟨scratch, last, hlast, hprobe⟩ := exists_cleanProbe hs he' hpin hcertain
      rw [hlater.host] at hprobe
      refine ⟨scratch, last, hlast, hprobe, ?_, ?_⟩
      · intro hunder hne
        have hcallee : call.callee? = some f := hunder.symm.trans hf
        exact (form_mem_cleanProbe hcallee hform hcommand scratch last).1 (by simp_all)
      · intro hunder heq
        have hcallee : call.callee? = some f := hunder.symm.trans hf
        exact (form_mem_cleanProbe hcallee hform hcommand scratch last).2 (by simp_all)
  · intro c k b before after hpin hevents hbefore
    obtain ⟨e', he', hlater⟩ := (later_run s (steps ++ [st])).engine i e he
    rw [← hlater.pins] at hpin
    obtain ⟨hknown, rest, scratch, done, v, hsplit, hcourse, hb⟩ :=
      probe_of_first_answer hs he' hpin hevents hbefore
    refine ⟨rest, scratch, done, v, hsplit, hcourse, hb, ?_⟩
    intro hv under call d hadvises sug hsug hc
    obtain ⟨f, e'', -, he'', -, hrelies⟩ := hadvises.certain he hrules
    obtain rfl : e'' = e' := Option.some.inj (he''.symm.trans he')
    have hcertain := (hrelies sug hsug c hc).1
    rw [Engine.certain_iff, hknown, hb] at hcertain
    exact hv (Verdict.isPresent_iff.mp (Option.some.inj hcertain))

/-- A host whose first evaluation of `(delete-window)` fails while later ones go well: the engine
that asked for it then never suggests `(delete-window)`, and what it suggests for
`(kill-buffer nil)` was evaluated. -/
theorem requirements_backed_flaky :
    let script : Host.Script :=
      ⟨[], [("delete-window", [.error (.arity "delete-window" 0), .ok])], []⟩
    let s : Session := ⟨[Host.fresh script.behaviour], [], [], [],
      [Engine.new 0 (.fixed .all)], [], 0⟩
    let steps : List Step := [.probe 0 .deleteWindow, .probeAfresh 0 .deleteWindow]
    let kill : Call := .named "kill-buffer" [.nil]
    let delete : Call := .named "delete-window" [.nullary "selected-window"]
    s.Begins ∧ replies (s.run steps).2 = [.truth false, .truth true] ∧
      (s.run steps).1.Advises (.dispatch 0 kill) 0 (some "kill-buffer") kill
        ⟨"simplify", "kill-buffer-nil", kill.toForm, [⟨.nullary "kill-buffer", some .killBuffer⟩]⟩ ∧
      (∃ scratch last, last ≠ .crash ∧
        probeAt 0 0 .killBuffer (Host.cleanProbe .killBuffer scratch last) .present <:+:
          happened (s.run (steps ++ [.dispatch 0 kill])).2) ∧
      ∀ under call d, (s.run steps).1.Advises (.dispatch 0 delete) 0 under call d →
        ∀ sug ∈ d.suggestions, sug.requires ≠ some .deleteWindow := by
  intro script s steps kill delete
  have hs : s.Begins := ⟨[script.behaviour], [], 0, 0,
    [⟨0, .direct (.fixed .all) [] .empty, .builtin, .console false⟩], [], rfl⟩
  have he : s.engines[0]? = some (Engine.new 0 (.fixed .all)) := rfl
  have hadvises : (s.run steps).1.Advises (.dispatch 0 kill) 0 (some "kill-buffer") kill
      ⟨"simplify", "kill-buffer-nil", kill.toForm, [⟨.nullary "kill-buffer", some .killBuffer⟩]⟩ :=
    .dispatch (by decide)
  have hbacked := (requirements_backed hs he rfl steps (.dispatch 0 kill)).1 _ _ _ hadvises
    _ (List.mem_singleton_self _) .killBuffer rfl
  obtain ⟨scratch, last, hlast, hprobe, -⟩ := hbacked.2 rfl
  let failed : List Event := probeAt 0 0 .deleteWindow
    [⟨.acquire, .ok⟩,
      ⟨.eval 0 (.named "delete-window" []), .error (.arity "delete-window" 0)⟩,
      ⟨.release 0 false, .ok⟩] (.failed (.arity "delete-window" 0))
  have hevents : happened (s.run (steps ++ [.dispatch 0 delete])).2 =
      failed ++ .atEngine 0 0 (.answered .deleteWindow false) ::
        (happened (s.run (steps ++ [.dispatch 0 delete])).2).drop 6 := by decide
  have hunasked : Unasked 0 .deleteWindow failed :=
    unasked_of_not_mem fun b => answered_not_mem_probeEvents _ _ b _ _
  obtain ⟨rest, scratch', done, v, -, -, hv, hnever⟩ :=
    (requirements_backed hs he rfl steps (.dispatch 0 delete)).2 .deleteWindow 0 false _ _ rfl
      hevents hunasked
  refine ⟨hs, by decide, hadvises, ⟨scratch, last, hlast, hprobe⟩, hnever ?_⟩
  rintro rfl
  cases hv

end Session

end CallAdvice
