import CallAdvice.Proofs.Engine.Knowledge
import CallAdvice.Proofs.Host.Scratch

/-! How an engine probes its host. A question for a capability is answered from what is known, or by
a probe that takes one of the courses of `Host.Probed` and whose verdict is remembered; the events
tell of every exchange (`Scene.probe_cases`). So the host of an engine at work is asked what the
events tell (`Scene.Leads.exchanges`), one block after the other (`Scene.Leads.blocks`). -/
set_option autoImplicit false

namespace CallAdvice

namespace Engine

/-- What happens in a probe: the exchanges with the host, then the log entries on the verdict. -/
def probeEvents (c : Capability) (done : List Host.Exchange) (v : Verdict) : List Event :=
  done.map .hostAsked ++ (Log.ofVerdict c v).map .logged

/-- The exchanges with the host among events, in order. -/
def exchanges (events : List Event) : List Host.Exchange :=
  events.filterMap fun
    | .hostAsked x => some x
    | _ => none

theorem exchanges_append (events later : List Event) :
    exchanges (events ++ later) = exchanges events ++ exchanges later :=
  List.filterMap_append

theorem exchanges_logged (entries : List Log.Entry) : exchanges (entries.map .logged) = [] := by
  simp [exchanges]

theorem exchanges_probeEvents (c : Capability) (done : List Host.Exchange) (v : Verdict) :
    exchanges (probeEvents c done v) = done := by
  have hasked : exchanges (done.map .hostAsked) = done := by
    rw [exchanges, List.filterMap_map]
    exact List.filterMap_some
  rw [probeEvents, exchanges_append, hasked, exchanges_logged, List.append_nil]

theorem exchanges_notes {events : List Event} (h : ∀ e ∈ events, e.isNote = true) :
    exchanges events = [] := by
  refine List.filterMap_eq_nil_iff.mpr ?_
  intro e he
  have hnote := h e he
  cases e <;> simp_all [Event.isNote]

end Engine

namespace Scene
open Engine

/-! ## One question -/

theorem probeAfresh_cases (c : Capability) (s : Scene) :
    ∃ done v, Host.Probed c s.host.granted done v ∧
      s.probeAfresh c = (v.isPresent, ⟨s.engine, ⟨s.host.behaviour, s.host.history ++ done⟩,
        s.events ++ probeEvents c done v⟩) := by
  obtain ⟨done, hhost, hcourse⟩ := s.host.probe_course c
  refine ⟨done, _, hcourse, ?_⟩
  simp [probeAfresh, hhost, happen, log, probeEvents]

/-- A question is answered from what is known, or by a probe whose verdict is remembered. -/
theorem probe_cases (c : Capability) (s : Scene) :
    (∃ b, s.engine.known? c = some b ∧ s.probe c = (b, s.happen [.answered c b])) ∨
    (s.engine.known? c = none ∧ ∃ done v, Host.Probed c s.host.granted done v ∧
      s.probe c = (v.isPresent, ⟨s.engine.remember c v.isPresent,
        ⟨s.host.behaviour, s.host.history ++ done⟩,
        s.events ++ probeEvents c done v ++ [.answered c v.isPresent]⟩)) := by
  cases hknown : s.engine.known? c with
  | some b => exact .inl ⟨b, rfl, probe_of_known hknown⟩
  | none =>
    obtain ⟨done, v, hcourse, hafresh⟩ := probeAfresh_cases c s
    refine .inr ⟨rfl, done, v, hcourse, ?_⟩
    rw [probe_of_unknown hknown, hafresh]
    rfl

/-! ## An engine at work -/

theorem Leads.exchanges {s t : Scene} (h : Leads Scene.probe s t) :
    ∃ events, t.events = s.events ++ events ∧
      t.host.history = s.host.history ++ Engine.exchanges events := by
  induction h with
  | refl => exact ⟨[], by simp, by simp [Engine.exchanges]⟩
  | note notes hnotes _ ih =>
    obtain ⟨events, hevents, hhistory⟩ := ih
    refine ⟨events ++ notes, ?_, ?_⟩
    · simp [hevents]
    · simp [hhistory, exchanges_append, exchanges_notes hnotes]
  | @read t shared _ ih =>
    obtain ⟨events, hevents, hhistory⟩ := ih
    refine ⟨events ++ [.selectionRead t.engine.reads t.engine.source.announced], ?_, ?_⟩
    · simp [readSelection, hevents]
    · simp [readSelection, hhistory, Engine.exchanges]
  | @ask t c _ ih =>
    obtain ⟨events, hevents, hhistory⟩ := ih
    rcases probe_cases c t with ⟨b, -, hprobe⟩ | ⟨-, done, v, -, hprobe⟩
    · rw [hprobe]
      refine ⟨events ++ [.answered c b], ?_, ?_⟩
      · simp [hevents]
      · simp [hhistory, Engine.exchanges]
    · rw [hprobe]
      refine ⟨events ++ probeEvents c done v ++ [.answered c v.isPresent], ?_, ?_⟩
      · simp [hevents]
      · rw [exchanges_append, exchanges_append, exchanges_probeEvents]
        simp [hhistory, Engine.exchanges]

theorem Leads.blocks {s t : Scene} (h : Leads Scene.probe s t) (hs : Host.Blocks s.host.history) :
    Host.Blocks t.host.history := by
  induction h with
  | refl => exact hs
  | note _ _ _ ih => exact ih
  | read _ _ ih => exact ih
  | @ask t c _ ih =>
    rcases probe_cases c t with ⟨b, -, hprobe⟩ | ⟨-, done, v, hcourse, hprobe⟩
    · rw [hprobe]
      exact ih
    · rw [hprobe]
      exact ih.append hcourse.block

end Scene

end CallAdvice
