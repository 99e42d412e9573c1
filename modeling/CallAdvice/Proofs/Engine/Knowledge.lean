import CallAdvice.Proofs.Engine.Work
import CallAdvice.Proofs.Rule.Table

/-! What an engine knows about its host only grows. `Engine.Later` compares an engine with itself at
a later time; an answer once given stays. The decisions of matchers can therefore be read off what
is known in the end: `Scene.dispatch_eq_advice` says that a dispatch gives the advice for any
answers that agree with the knowledge it leaves behind. -/
set_option autoImplicit false

namespace CallAdvice

/-! ## Engines over time -/

namespace Engine

theorem known?_remember (e : Engine) (c d : Capability) (b : Bool) (h : e.pins.get c = none) :
    (e.remember c b).known? d = if d = c then some b else e.known? d := by
  unfold known? remember
  rw [Slots.get_set]
  by_cases hd : d = c
  · subst hd
    simp [h]
  · simp [hd]

theorem pins_of_known?_eq_none {e : Engine} {c : Capability} (h : e.known? c = none) :
    e.pins.get c = none := by
  unfold known? at h
  cases hp : e.pins.get c with
  | none => rfl
  | some b =>
    rw [hp] at h
    cases h

/-- `e.SameMake f`: the engines are made of the same things. What they know may differ. -/
structure SameMake (e f : Engine) : Prop where
  host : f.host = e.host
  registry : f.registry = e.registry
  pins : f.pins = e.pins
  source : f.source = e.source
  sink : f.sink = e.sink

theorem SameMake.refl (e : Engine) : e.SameMake e := ⟨rfl, rfl, rfl, rfl, rfl⟩

theorem SameMake.trans {e f g : Engine} (h : e.SameMake f) (h' : f.SameMake g) : e.SameMake g :=
  ⟨h'.host.trans h.host, h'.registry.trans h.registry, h'.pins.trans h.pins,
    h'.source.trans h.source, h'.sink.trans h.sink⟩

/-- `e.Later f`: the engine `f` is `e` at the same or a later time. What it is made of stays, and
what it knows stays. -/
structure Later (e f : Engine) : Prop extends e.SameMake f where
  known : ∀ c b, e.known? c = some b → f.known? c = some b

theorem Later.refl (e : Engine) : e.Later e := ⟨.refl e, fun _ _ h => h⟩

theorem Later.trans {e f g : Engine} (h : e.Later f) (h' : f.Later g) : e.Later g :=
  ⟨h.toSameMake.trans h'.toSameMake, fun c b hc => h'.known c b (h.known c b hc)⟩

theorem later_remember {e : Engine} {c : Capability} (b : Bool) (h : e.known? c = none) :
    e.Later (e.remember c b) := by
  refine ⟨⟨rfl, rfl, rfl, rfl, rfl⟩, ?_⟩
  intro d b' hd
  rw [known?_remember e c d b (pins_of_known?_eq_none h)]
  by_cases hdc : d = c
  · rw [hdc, h] at hd
    cases hd
  · rw [if_neg hdc]
    exact hd

/-- `e.Agrees has`: all that the engine knows is as `has` says. -/
def Agrees (e : Engine) (has : Capability → Bool) : Prop :=
  ∀ c b, e.known? c = some b → has c = b

theorem Later.agrees {e f : Engine} {has : Capability → Bool} (h : e.Later f) (hf : f.Agrees has) :
    e.Agrees has := fun c b hc => hf c b (h.known c b hc)

/-- Answers that agree with an engine's knowledge exist. -/
theorem exists_agrees (e : Engine) : ∃ has, e.Agrees has :=
  ⟨fun c => (e.known? c).getD false, fun c b h => by simp [h]⟩

end Engine

namespace Scene

/-! ## One question -/

@[simp] theorem probeAfresh_engine (c : Capability) (s : Scene) :
    (s.probeAfresh c).2.engine = s.engine := rfl

@[simp] theorem probeAfresh_host (c : Capability) (s : Scene) :
    (s.probeAfresh c).2.host = (s.host.probe c).2 := rfl

theorem probeAfresh_answer (c : Capability) (s : Scene) :
    (s.probeAfresh c).1 = (s.host.probe c).1.isPresent := rfl

theorem probe_of_known {c : Capability} {s : Scene} {b : Bool} (h : s.engine.known? c = some b) :
    s.probe c = (b, s.happen [.answered c b]) := by
  unfold probe
  rw [h]

theorem probe_of_unknown {c : Capability} {s : Scene} (h : s.engine.known? c = none) :
    s.probe c = ((s.probeAfresh c).1,
      { (s.probeAfresh c).2 with
        engine := s.engine.remember c (s.probeAfresh c).1 }.happen
          [.answered c (s.probeAfresh c).1]) := by
  unfold probe
  rw [h]
  rfl

/-- An answer is known from then on. -/
theorem known?_probe (c : Capability) (s : Scene) :
    (s.probe c).2.engine.known? c = some (s.probe c).1 := by
  cases h : s.engine.known? c with
  | some b =>
    rw [probe_of_known h]
    exact h
  | none =>
    rw [probe_of_unknown h, happen_engine,
      Engine.known?_remember _ _ _ _ (Engine.pins_of_known?_eq_none h), if_pos rfl]

/-- A question changes what is known about its own capability only. -/
theorem known?_probe_of_ne {c d : Capability} (h : d ≠ c) (s : Scene) :
    (s.probe c).2.engine.known? d = s.engine.known? d := by
  cases hk : s.engine.known? c with
  | some b =>
    rw [probe_of_known hk]
    rfl
  | none =>
    rw [probe_of_unknown hk, happen_engine,
      Engine.known?_remember _ _ _ _ (Engine.pins_of_known?_eq_none hk), if_neg h]

theorem answered_mem_probe (c : Capability) (s : Scene) :
    .answered c (s.probe c).1 ∈ (s.probe c).2.events := by
  cases hk : s.engine.known? c with
  | some b =>
    rw [probe_of_known hk]
    simp
  | none =>
    rw [probe_of_unknown hk]
    simp

theorem later_probe (c : Capability) (s : Scene) : s.engine.Later (s.probe c).2.engine := by
  cases h : s.engine.known? c with
  | some b =>
    rw [probe_of_known h]
    exact Engine.Later.refl _
  | none =>
    rw [probe_of_unknown h]
    exact Engine.later_remember _ h

/-! ## An engine at work -/

theorem Leads.later {s t : Scene} (h : Leads probe s t) : s.engine.Later t.engine := by
  induction h with
  | refl => exact Engine.Later.refl _
  | note events he _ ih => exact ih
  | read shared _ ih => exact ih.trans ⟨⟨rfl, rfl, rfl, rfl, rfl⟩, fun _ _ hk => hk⟩
  | ask c _ ih => exact ih.trans (later_probe c _)

/-- A decision is the one for any answers that agree with what is known in the end. -/
theorem run_eq_decide (check : Check) (s : Scene) (has : Capability → Bool)
    (h : (check.run probe s).2.engine.Agrees has) :
    (check.run probe s).1 = check.decide has := by
  induction check generalizing s with
  | done result => rfl
  | ask c next ih =>
    have hlater := (leads_run probe (next (s.probe c).1) (s.probe c).2).later
    have hc : has c = (s.probe c).1 := h c _ (hlater.known c _ (known?_probe c s))
    rw [Check.decide_ask, hc]
    exact ih (s.probe c).1 (s.probe c).2 h

theorem firstMatch_eq_findSome? (callee : String) (call : Call) (ms : List Matcher) (s : Scene)
    (has : Capability → Bool)
    (h : (s.firstMatchBy probe callee call ms).2.engine.Agrees has) :
    (s.firstMatchBy probe callee call ms).1 =
      ms.findSome? fun m => (m.check callee call).decide has := by
  induction ms generalizing s with
  | nil => rfl
  | cons m ms ih =>
    -- What is known after `m` stays known, so `m` decided as `has` says.
    have hm : (s.checkBy probe m callee call).2.engine.Agrees has →
        (s.checkBy probe m callee call).1 = (m.check callee call).decide has :=
      run_eq_decide _ _ has
    rw [firstMatchBy] at h ⊢
    rw [List.findSome?_cons]
    split at h
    · next d t he =>
      rw [he] at hm
      rw [← hm h]
    · next t he =>
      have hlater := (leads_firstMatch probe callee call ms t).later
      rw [he] at hm
      rw [← hm (hlater.agrees h)]
      exact ih t h

theorem advise_eq_advice (call : Call) (s : Scene) (has : Capability → Bool)
    (h : (s.adviseBy probe call).2.engine.Agrees has) :
    (s.adviseBy probe call).1 = s.engine.registry.advice has call := by
  unfold adviseBy at h ⊢
  unfold Registry.advice
  cases hc : call.callee? with
  | none => rfl
  | some callee =>
    rw [hc] at h
    have hfirst := firstMatch_eq_findSome? callee call (s.engine.registry.lookup callee) s has
    simp only [Option.bind_some] at h ⊢
    split at h
    · next d t he =>
      rw [he] at hfirst
      exact hfirst h
    · next t he =>
      rw [he] at hfirst
      exact hfirst h

theorem dispatchBy_of_closed {answer : Answering} {shared : List Selection} {call : Call}
    {s : Scene} (hg : (s.gate shared).1 = false) :
    s.dispatchBy answer shared call = (none, (s.gate shared).2) := by
  unfold dispatchBy
  split
  · next t he => rw [he]
  · next t he =>
    rw [he] at hg
    cases hg

theorem dispatchBy_of_open {answer : Answering} {shared : List Selection} {call : Call}
    {s : Scene} (hg : (s.gate shared).1 = true) :
    s.dispatchBy answer shared call = (s.gate shared).2.adviseBy answer call := by
  unfold dispatchBy
  split
  · next t he =>
    rw [he] at hg
    cases hg
  · next t he => rw [he]

/-- Advice comes through an open gate only. -/
theorem open_of_dispatch {shared : List Selection} {call : Call} {s : Scene} {d : Diagnostic}
    (h : (s.dispatch shared call).1 = some d) : (s.gate shared).1 = true := by
  cases hopen : (s.gate shared).1 with
  | true => rfl
  | false =>
    rw [dispatch, dispatchBy_of_closed hopen] at h
    cases h

/-- Through an open gate, a dispatch gives the advice for any answers that agree with what is known
in the end. -/
theorem dispatch_eq_advice {shared : List Selection} {call : Call} {s : Scene}
    {has : Capability → Bool} (hg : (s.gate shared).1 = true)
    (h : (s.dispatch shared call).2.engine.Agrees has) :
    (s.dispatch shared call).1 = s.engine.registry.advice has call := by
  unfold dispatch at h ⊢
  rw [dispatchBy_of_open hg] at h ⊢
  exact advise_eq_advice call (s.gate shared).2 has h

end Scene

end CallAdvice
