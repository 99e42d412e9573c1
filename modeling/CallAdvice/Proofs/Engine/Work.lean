import CallAdvice.Engine.Scene

/-! What an engine at work can do to its scene. Whatever operation runs, it only notes things, reads
the warning selection and answers questions for capabilities; `Scene.Leads` says so once, for any
way of answering, and every invariant of an engine at work follows by induction on it. What holds
along questions and starts of matchers holds along their runs (`Scene.Along`). -/
set_option autoImplicit false

namespace CallAdvice

/-- Whether an event tells of neither the host, nor a capability, nor the warning selection. -/
def Engine.Event.isNote : Engine.Event → Bool
  | .matcherRun .. | .logged _ | .warned _ => true
  | _ => false

namespace Scene

/-! ## Running matchers -/

/-- `Along answer R`: the relation holds along questions, answered by `answer`, along starts of
matchers, and along whatever is put together from these. -/
structure Along (answer : Answering) (R : Scene → Scene → Prop) : Prop where
  refl : ∀ s, R s s
  trans : ∀ {s t u}, R s t → R t u → R s u
  ask : ∀ c s, R s (answer c s).2
  start : ∀ (m : Matcher) (callee : String) (call : Call) (s : Scene),
    R s (s.happen [.matcherRun m.id callee call m.announced])

namespace Along

variable {answer : Answering} {R : Scene → Scene → Prop} (h : Along answer R)
include h

theorem run (check : Check) (s : Scene) : R s (check.run answer s).2 := by
  induction check generalizing s with
  | done result => exact h.refl s
  | ask c next ih => exact h.trans (h.ask c s) (ih _ _)

theorem check (m : Matcher) (callee : String) (call : Call) (s : Scene) :
    R s (s.checkBy answer m callee call).2 :=
  h.trans (h.start m callee call s) (h.run _ _)

theorem firstMatch (callee : String) (call : Call) (ms : List Matcher) (s : Scene) :
    R s (s.firstMatchBy answer callee call ms).2 := by
  induction ms generalizing s with
  | nil => exact h.refl s
  | cons m ms ih =>
    have hm := h.check m callee call s
    rw [firstMatchBy]
    split
    · next d t he =>
      rw [he] at hm
      exact hm
    · next t he =>
      rw [he] at hm
      exact h.trans hm (ih t)

end Along

/-! ## Engines at work -/

/-- `Leads answer s t`: an engine at work, answering by `answer`, can take the scene `s` to `t`. -/
inductive Leads (answer : Answering) : Scene → Scene → Prop where
  | refl (s : Scene) : Leads answer s s
  | note {s t : Scene} (events : List Engine.Event) (h : ∀ e ∈ events, e.isNote = true) :
    Leads answer s t → Leads answer s (t.happen events)
  | read {s t : Scene} (shared : List Selection) :
    Leads answer s t → Leads answer s (t.readSelection shared).2
  | ask {s t : Scene} (c : Capability) : Leads answer s t → Leads answer s (answer c t).2

theorem Leads.trans {answer : Answering} {s t u : Scene} (h : Leads answer s t)
    (h' : Leads answer t u) : Leads answer s u := by
  induction h' with
  | refl => exact h
  | note events he _ ih => exact .note events he ih
  | read shared _ ih => exact .read shared ih
  | ask c _ ih => exact .ask c ih

variable (answer : Answering)

theorem leads_log (s : Scene) (entries : List Log.Entry) : Leads answer s (s.log entries) := by
  refine .note _ (fun e he => ?_) (.refl s)
  obtain ⟨entry, -, rfl⟩ := List.mem_map.mp he
  rfl

theorem along_leads : Along answer (Leads answer) where
  refl := .refl
  trans := .trans
  ask c s := .ask c (.refl s)
  start m callee call s := .note _ (by simp [Engine.Event.isNote]) (.refl s)

theorem leads_run (check : Check) (s : Scene) : Leads answer s (check.run answer s).2 :=
  (along_leads answer).run check s

theorem leads_check (m : Matcher) (callee : String) (call : Call) (s : Scene) :
    Leads answer s (s.checkBy answer m callee call).2 :=
  (along_leads answer).check m callee call s

theorem leads_firstMatch (callee : String) (call : Call) (ms : List Matcher) (s : Scene) :
    Leads answer s (s.firstMatchBy answer callee call ms).2 :=
  (along_leads answer).firstMatch callee call ms s

theorem leads_advise (call : Call) (s : Scene) : Leads answer s (s.adviseBy answer call).2 := by
  unfold adviseBy
  split
  · exact .refl s
  · next callee _ =>
    have h := leads_firstMatch answer callee call (s.engine.registry.lookup callee) s
    split
    · next d t he =>
      rw [he] at h
      exact h.trans (leads_log answer t _)
    · next t he =>
      rw [he] at h
      exact h

theorem leads_gate (shared : List Selection) (s : Scene) : Leads answer s (s.gate shared).2 :=
  (Leads.read shared (.refl s)).trans (leads_log answer _ _)

theorem leads_dispatch (shared : List Selection) (call : Call) (s : Scene) :
    Leads answer s (s.dispatchBy answer shared call).2 := by
  have h := leads_gate answer shared s
  unfold dispatchBy
  split
  · next t he =>
    rw [he] at h
    exact h
  · next t he =>
    rw [he] at h
    exact h.trans (leads_advise answer call t)

theorem leads_observe (shared : List Selection) (call : Call) (s : Scene) :
    Leads answer s (s.observeBy answer shared call).2 := by
  have h := leads_dispatch answer shared call s
  unfold observeBy
  split
  · next t he =>
    rw [he] at h
    exact h
  · next d t he =>
    rw [he] at h
    exact .note _ (by simp [Engine.Event.isNote]) h

end Scene

end CallAdvice
