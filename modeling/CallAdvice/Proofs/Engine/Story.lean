import CallAdvice.Proofs.Engine.Gate
import CallAdvice.Proofs.Rule.FirstMatch

/-! What the log of an engine at work tells. Up to its result a dispatch is quiet: nothing that
happens tells of advice, and the log has one entry on a finished probe for each scratch context that
the host was asked for (`Scene.Quiet`). Then comes what is told of the advice, all of it in one go
(`Scene.dispatch_tells`, `Scene.observe_tells`). -/
set_option autoImplicit false

namespace CallAdvice

/-! ## Events on advice and on probes -/

def Log.Entry.onAdvice : Log.Entry → Bool
  | .matched .. | .emitting .. => true
  | _ => false

def Log.Entry.isProbed : Log.Entry → Bool
  | .probed .. => true
  | _ => false

namespace Engine

/-- Whether an event tells of advice: it is logged, or a sink gets it. -/
def Event.onAdvice : Event → Bool
  | .logged entry => entry.onAdvice
  | .warned _ => true
  | _ => false

def Event.isProbed : Event → Bool
  | .logged entry => entry.isProbed
  | _ => false

/-- What is told of advice on a call of `callee`; if it is reported, the sink gets it at once. -/
def adviceEvents (callee : String) (d : Diagnostic) (reported : Bool) : List Event :=
  .logged (.matched callee d.rule) ::
    if reported then [.logged (.emitting d.rule d.message), .warned ⟨d.category, d.message⟩]
    else []

theorem countP_adviceEvents (callee : String) (d : Diagnostic) (reported : Bool) :
    (adviceEvents callee d reported).countP Event.isProbed = 0 := by
  cases reported <;> rfl

theorem onAdvice_probeEvents {c : Capability} {done : List Host.Exchange} {v : Verdict} {e : Event}
    (h : e ∈ probeEvents c done v) : e.onAdvice = false := by
  have hverdict : ∀ entry ∈ Log.ofVerdict c v, entry.onAdvice = false := by
    cases v <;> simp [Log.ofVerdict, Log.Entry.onAdvice]
  rcases List.mem_append.mp h with h | h
  · obtain ⟨x, -, rfl⟩ := List.mem_map.mp h
    rfl
  · obtain ⟨entry, hentry, rfl⟩ := List.mem_map.mp h
    exact hverdict entry hentry

theorem countP_probeEvents (c : Capability) (done : List Host.Exchange) (v : Verdict) :
    (probeEvents c done v).countP Event.isProbed = 1 := by
  have hasked : (done.map Event.hostAsked).countP Event.isProbed = 0 := by
    rw [List.countP_map, List.countP_eq_zero]
    simp [Event.isProbed]
  rw [probeEvents, List.countP_append, hasked]
  cases v <;> rfl

end Engine

namespace Scene
open Engine

/-! ## Quiet work -/

/-- `Quiet s t`: on the way from `s` to `t` nothing tells of advice, and the log has one entry on a
finished probe for each scratch context that the host is asked for. -/
def Quiet (s t : Scene) : Prop :=
  ∃ added, t.events = s.events ++ added ∧ (∀ e ∈ added, e.onAdvice = false) ∧
    t.host.acquires = s.host.acquires + added.countP Event.isProbed

theorem Quiet.refl (s : Scene) : Quiet s s := ⟨[], by simp, by simp, by simp⟩

theorem Quiet.trans {s t u : Scene} (h : Quiet s t) (h' : Quiet t u) : Quiet s u := by
  obtain ⟨added, hevents, hquiet, hcount⟩ := h
  obtain ⟨later, hevents', hquiet', hcount'⟩ := h'
  refine ⟨added ++ later, ?_, ?_, ?_⟩
  · rw [hevents', hevents, List.append_assoc]
  · intro e he
    rcases List.mem_append.mp he with he | he
    · exact hquiet e he
    · exact hquiet' e he
  · rw [List.countP_append]
    omega

theorem quiet_happen {events : List Event} (hquiet : ∀ e ∈ events, e.onAdvice = false)
    (hprobed : events.countP Event.isProbed = 0) (s : Scene) : Quiet s (s.happen events) :=
  ⟨events, rfl, hquiet, by rw [hprobed]; rfl⟩

theorem quiet_probeAfresh (c : Capability) (s : Scene) : Quiet s (s.probeAfresh c).2 := by
  obtain ⟨done, v, hcourse, hprobe⟩ := probeAfresh_cases c s
  rw [hprobe]
  refine ⟨probeEvents c done v, rfl, fun _ => onAdvice_probeEvents, ?_⟩
  rw [Host.acquires, List.countP_append, hcourse.acquires, countP_probeEvents]
  rfl

theorem quiet_probe (c : Capability) (s : Scene) : Quiet s (s.probe c).2 := by
  have hanswered : ∀ (b : Bool) (t : Scene), Quiet t (t.happen [.answered c b]) := fun b t =>
    quiet_happen (by simp [Event.onAdvice]) rfl t
  cases hknown : s.engine.known? c with
  | some b =>
    rw [probe_of_known hknown]
    exact hanswered b s
  | none =>
    rw [probe_of_unknown hknown]
    exact (quiet_probeAfresh c s).trans (hanswered _ _)

theorem along_quiet : Along probe Quiet where
  refl := .refl
  trans := .trans
  ask := quiet_probe
  start m callee call s := quiet_happen (by simp [Event.onAdvice]) rfl s

theorem quiet_gate (shared : List Selection) (s : Scene) : Quiet s (s.gate shared).2 := by
  rw [gate_eq]
  refine ⟨s.gateEvents shared, rfl, ?_, ?_⟩
  · unfold gateEvents Log.ofSelection
    split <;> simp [Event.onAdvice, Log.Entry.onAdvice]
  · unfold gateEvents Log.ofSelection
    split <;> rfl

/-! ## Advice -/

/-- `Tells call advice reported s t`: on the way from `s` to `t` the engine is quiet, and then tells
of the advice on the call, if there is any. -/
def Tells (call : Call) (advice : Option Diagnostic) (reported : Bool) (s t : Scene) : Prop :=
  ∃ u, Quiet s u ∧ (advice = none ∧ t = u ∨ ∃ callee d, advice = some d ∧
    call.callee? = some callee ∧ t = u.happen (adviceEvents callee d reported))

theorem advise_tells (call : Call) (s : Scene) :
    Tells call (s.adviseBy probe call).1 false s (s.adviseBy probe call).2 := by
  cases hcallee : call.callee? with
  | none =>
    have hpass : s.adviseBy probe call = (none, s) := by
      unfold adviseBy
      rw [hcallee]
    rw [hpass]
    exact ⟨s, .refl s, .inl ⟨rfl, rfl⟩⟩
  | some callee =>
    have hquiet := along_quiet.firstMatch callee call (s.engine.registry.lookup callee) s
    rw [advise_of_callee hcallee]
    refine ⟨_, hquiet, ?_⟩
    cases hadvice : (s.firstMatchBy probe callee call (s.engine.registry.lookup callee)).1 with
    | none => exact .inl ⟨rfl, by simp [log, happen]⟩
    | some d => exact .inr ⟨callee, d, rfl, hcallee, rfl⟩

theorem dispatch_tells (shared : List Selection) (call : Call) (s : Scene) :
    Tells call (s.dispatch shared call).1 false s (s.dispatch shared call).2 := by
  have hgate := quiet_gate shared s
  cases hopen : (s.gate shared).1 with
  | false =>
    rw [dispatch, dispatchBy_of_closed hopen]
    exact ⟨_, hgate, .inl ⟨rfl, rfl⟩⟩
  | true =>
    obtain ⟨u, hquiet, htold⟩ := advise_tells call (s.gate shared).2
    rw [dispatch, dispatchBy_of_open hopen]
    exact ⟨u, hgate.trans hquiet, htold⟩

theorem observe_tells (shared : List Selection) (call : Call) (s : Scene) :
    Tells call (s.dispatch shared call).1 true s (s.observe shared call).2 := by
  obtain ⟨u, hquiet, ⟨hnone, hu⟩ | ⟨callee, d, hd, hcallee, hu⟩⟩ := dispatch_tells shared call s
  · refine ⟨u, hquiet, .inl ⟨hnone, ?_⟩⟩
    rw [observe_eq, hnone, ← hu]
    simp [report, happen]
  · refine ⟨u, hquiet, .inr ⟨callee, d, hd, hcallee, ?_⟩⟩
    rw [observe_eq, hd, hu]
    simp [report, happen, adviceEvents, Diagnostic.warning]

end Scene

end CallAdvice
