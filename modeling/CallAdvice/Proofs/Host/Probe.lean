import CallAdvice.Host.Probe

/-! What a probe asks of a host. `Host.Probed` lists the courses that a probe can take, with the
verdict of each; every probe takes one of them and leaves the way in which the host reacts alone
(`Host.probe_course`). So a probe asks for exactly one scratch context, however it goes. Of a host
that reacts to a request in the same way at all times, all probes for a capability end alike
(`Host.probe_verdict_congr`). -/
set_option autoImplicit false

namespace CallAdvice

theorem Verdict.isPresent_iff {v : Verdict} : v.isPresent = true ↔ v = .present := by
  cases v <;> simp [isPresent]

namespace Host

/-! ## The exchanges of a probe -/

/-- `Evaluated scratch calls done v`: of the calls, those up to the first that does not go well are
evaluated in a scratch context; `done` tells how they went, and `v` how it ended. -/
inductive Evaluated (scratch : Nat) : List Call → List Exchange → Verdict → Prop where
  | all : Evaluated scratch [] [] .present
  | ok {call : Call} {calls : List Call} {done : List Exchange} {v : Verdict} :
    Evaluated scratch calls done v →
    Evaluated scratch (call :: calls) (⟨.eval scratch call, .ok⟩ :: done) v
  | error {call : Call} {calls : List Call} (e : HostError) :
    Evaluated scratch (call :: calls) [⟨.eval scratch call, .error e⟩] (.failed e)
  | crash {call : Call} {calls : List Call} :
    Evaluated scratch (call :: calls) [⟨.eval scratch call, .crash⟩] .crashed

/-- `Probed c scratch done v`: a probe for a capability, of a host whose next scratch context is
`scratch`, can consist of the exchanges `done` and end in `v`. -/
inductive Probed (c : Capability) (scratch : Nat) : List Exchange → Verdict → Prop where
  /-- There is no scratch context to be had. -/
  | refused (e : HostError) : Probed c scratch [⟨.acquire, .error e⟩] (.failed e)
  /-- The host crashes at the request for a scratch context. -/
  | broken : Probed c scratch [⟨.acquire, .crash⟩] .crashed
  /-- An evaluation crashes, and the scratch context goes back on the way out. -/
  | unwound {done : List Exchange} : Evaluated scratch c.forms done .crashed →
    Probed c scratch (⟨.acquire, .ok⟩ :: (done ++ [⟨.release scratch true, .ok⟩])) .crashed
  /-- The host crashes when it gets the scratch context back. -/
  | stuck {done : List Exchange} {v : Verdict} : Evaluated scratch c.forms done v → v ≠ .crashed →
    Probed c scratch (⟨.acquire, .ok⟩ :: (done ++ [⟨.release scratch false, .crash⟩])) .crashed
  /-- The scratch context goes back, and the evaluations decide. -/
  | settled {done : List Exchange} {v : Verdict} {outcome : Outcome} :
    Evaluated scratch c.forms done v → v ≠ .crashed → outcome ≠ .crash →
    Probed c scratch (⟨.acquire, .ok⟩ :: (done ++ [⟨.release scratch false, outcome⟩])) v

theorem Evaluated.op_eq {scratch : Nat} {calls : List Call} {done : List Exchange} {v : Verdict}
    (h : Evaluated scratch calls done v) : ∀ x ∈ done, ∃ call, x.op = .eval scratch call := by
  induction h with
  | all => simp
  | ok _ ih =>
    intro x hx
    rcases List.mem_cons.mp hx with rfl | hx
    · exact ⟨_, rfl⟩
    · exact ih x hx
  | error => simp
  | crash => simp

theorem evalAll_course (h : Host) (scratch : Nat) (calls : List Call) :
    ∃ done, (h.evalAll scratch calls).2 = ⟨h.behaviour, h.history ++ done⟩ ∧
      Evaluated scratch calls done (h.evalAll scratch calls).1 := by
  induction calls generalizing h with
  | nil => exact ⟨[], by rw [List.append_nil]; rfl, .all⟩
  | cons call calls ih =>
    rw [evalAll, perform]
    cases hreact : h.react (.eval scratch call) with
    | ok =>
      obtain ⟨done, hdone, hcourse⟩ := ih (h.record (.eval scratch call) .ok)
      exact ⟨_, by rw [hdone]; simp [record], .ok hcourse⟩
    | error e => exact ⟨_, rfl, .error e⟩
    | crash => exact ⟨_, rfl, .crash⟩

theorem giveBack_course (h : Host) (scratch : Nat) (v : Verdict) :
    (v = .crashed ∧ h.giveBack scratch v = (.crashed, h.record (.release scratch true) .ok)) ∨
    (v ≠ .crashed ∧ h.giveBack scratch v = (.crashed, h.record (.release scratch false) .crash)) ∨
    (v ≠ .crashed ∧ ∃ outcome, outcome ≠ .crash ∧
      h.giveBack scratch v = (v, h.record (.release scratch false) outcome)) := by
  have hcalm : v ≠ .crashed → v.isCrash = false := by
    cases v <;> simp [Verdict.isCrash]
  rw [giveBack, perform]
  by_cases hv : v = .crashed
  · subst hv
    exact .inl ⟨rfl, rfl⟩
  · rw [hcalm hv]
    cases h.react (.release scratch false) with
    | crash => exact .inr (.inl ⟨hv, rfl⟩)
    | ok => exact .inr (.inr ⟨hv, .ok, by simp, rfl⟩)
    | error e => exact .inr (.inr ⟨hv, .error e, by simp, rfl⟩)

theorem probe_course (h : Host) (c : Capability) :
    ∃ done, (h.probe c).2 = ⟨h.behaviour, h.history ++ done⟩ ∧
      Probed c h.granted done (h.probe c).1 := by
  rw [probe, perform]
  cases hacquire : h.react .acquire with
  | error e => exact ⟨_, rfl, .refused e⟩
  | crash => exact ⟨_, rfl, .broken⟩
  | ok =>
    obtain ⟨done, hdone, hcourse⟩ := evalAll_course (h.record .acquire .ok) h.granted c.forms
    dsimp only
    -- How the evaluations ended decides how the scratch context goes back.
    rcases giveBack_course ((h.record .acquire .ok).evalAll h.granted c.forms).2 h.granted
      ((h.record .acquire .ok).evalAll h.granted c.forms).1 with
      ⟨hv, hback⟩ | ⟨hv, hback⟩ | ⟨hv, outcome, houtcome, hback⟩
    · rw [hv] at hcourse
      rw [hback, hdone]
      exact ⟨_, by simp [record], .unwound hcourse⟩
    · rw [hback, hdone]
      exact ⟨_, by simp [record], .stuck hcourse hv⟩
    · rw [hback, hdone]
      exact ⟨_, by simp [record], .settled hcourse hv houtcome⟩

/-- The exchanges of a probe in which all goes well; `last` is the outcome of the release. -/
def cleanProbe (c : Capability) (scratch : Nat) (last : Outcome) : List Exchange :=
  ⟨.acquire, .ok⟩ ::
    (c.forms.map (fun call => ⟨.eval scratch call, .ok⟩) ++ [⟨.release scratch false, last⟩])

theorem eval_mem_cleanProbe {c : Capability} {call : Call} (h : call ∈ c.forms) (scratch : Nat)
    (last : Outcome) : ⟨.eval scratch call, .ok⟩ ∈ cleanProbe c scratch last := by
  simp [cleanProbe, h]

theorem Evaluated.eq_of_present {scratch : Nat} {calls : List Call} {done : List Exchange}
    (h : Evaluated scratch calls done .present) :
    done = calls.map fun call => ⟨.eval scratch call, .ok⟩ := by
  generalize hv : Verdict.present = v at h
  induction h with
  | all => rfl
  | ok _ ih => rw [ih hv, List.map_cons]
  | error => cases hv
  | crash => cases hv

theorem Probed.eq_of_present {c : Capability} {scratch : Nat} {done : List Exchange}
    (h : Probed c scratch done .present) :
    ∃ last, last ≠ .crash ∧ done = cleanProbe c scratch last := by
  cases h with
  | @settled _ _ last hdone _ hlast => exact ⟨last, hlast, by rw [hdone.eq_of_present]; rfl⟩

/-- The number of requests for a scratch context so far, granted or not. -/
def acquires (h : Host) : Nat := h.history.countP (·.op == .acquire)

theorem Evaluated.acquires {scratch : Nat} {calls : List Call} {done : List Exchange} {v : Verdict}
    (h : Evaluated scratch calls done v) : done.countP (·.op == .acquire) = 0 := by
  rw [List.countP_eq_zero]
  intro x hx
  obtain ⟨call, hop⟩ := h.op_eq x hx
  simp [hop]

theorem Probed.acquires {c : Capability} {scratch : Nat} {done : List Exchange} {v : Verdict}
    (h : Probed c scratch done v) : done.countP (·.op == .acquire) = 1 := by
  cases h with
  | refused e => rfl
  | broken => rfl
  | unwound hdone => simp [hdone.acquires]
  | stuck hdone hv => simp [hdone.acquires]
  | settled hdone hv houtcome => simp [hdone.acquires]

theorem acquires_probe (h : Host) (c : Capability) : (h.probe c).2.acquires = h.acquires + 1 := by
  obtain ⟨done, hhost, hcourse⟩ := probe_course h c
  rw [hhost, acquires, List.countP_append, hcourse.acquires]
  rfl

theorem behaviour_evalAll (h : Host) (scratch : Nat) (calls : List Call) :
    (h.evalAll scratch calls).2.behaviour = h.behaviour := by
  obtain ⟨done, hhost, -⟩ := evalAll_course h scratch calls
  rw [hhost]

theorem behaviour_probe (h : Host) (c : Capability) : (h.probe c).2.behaviour = h.behaviour := by
  obtain ⟨done, hhost, -⟩ := probe_course h c
  rw [hhost]

/-! ## Hosts that stay the same -/

/-- A request without the number of the scratch context it is about. -/
def Op.bare : Op → Op
  | .acquire => .acquire
  | .eval _ call => .eval 0 call
  | .release _ unwinding => .release 0 unwinding

/-- `b.Stable`: how a request goes depends neither on the past nor on the number of a scratch
context. -/
def Behaviour.Stable (b : Behaviour) : Prop := ∀ history op, b history op = b [] op.bare

theorem react_congr {h h' : Host} {op op' : Op} (hb : h'.behaviour = h.behaviour)
    (hs : h.behaviour.Stable) (hop : op'.bare = op.bare) : h'.react op' = h.react op := by
  rw [react, react, hb, hs h'.history op', hs h.history op, hop]

theorem evalAll_verdict_congr {h h' : Host} (hb : h'.behaviour = h.behaviour)
    (hs : h.behaviour.Stable) (scratch scratch' : Nat) (calls : List Call) :
    (h'.evalAll scratch' calls).1 = (h.evalAll scratch calls).1 := by
  induction calls generalizing h h' with
  | nil => rfl
  | cons call calls ih =>
    have hreact : h'.react (.eval scratch' call) = h.react (.eval scratch call) :=
      react_congr hb hs rfl
    rw [evalAll, evalAll, perform, perform, hreact]
    cases h.react (.eval scratch call) with
    | ok => exact ih hb hs
    | error e => rfl
    | crash => rfl

theorem giveBack_verdict_congr {h h' : Host} (hb : h'.behaviour = h.behaviour)
    (hs : h.behaviour.Stable) (scratch scratch' : Nat) (verdict : Verdict) :
    (h'.giveBack scratch' verdict).1 = (h.giveBack scratch verdict).1 := by
  have hreact : h'.react (.release scratch' false) = h.react (.release scratch false) :=
    react_congr hb hs rfl
  rw [giveBack, giveBack, perform, perform, hreact]
  by_cases hcrash : verdict.isCrash = true
  · rw [if_pos hcrash, if_pos hcrash]
  · rw [if_neg hcrash, if_neg hcrash]
    cases h.react (.release scratch false) <;> rfl

/-- The probes of a host that stays the same end alike, at whatever times they are made. -/
theorem probe_verdict_congr {h h' : Host} (hb : h'.behaviour = h.behaviour)
    (hs : h.behaviour.Stable) (c : Capability) : (h'.probe c).1 = (h.probe c).1 := by
  have hreact : h'.react .acquire = h.react .acquire := react_congr hb hs rfl
  rw [probe, probe, perform, perform, hreact]
  cases h.react .acquire with
  | error e => rfl
  | crash => rfl
  | ok =>
    have hb' : (h'.record .acquire .ok).behaviour = (h.record .acquire .ok).behaviour := hb
    have hs' : (h.record .acquire .ok).behaviour.Stable := hs
    have heval := evalAll_verdict_congr hb' hs' h.granted h'.granted c.forms
    have hbehaviour : ((h'.record .acquire .ok).evalAll h'.granted c.forms).2.behaviour =
        ((h.record .acquire .ok).evalAll h.granted c.forms).2.behaviour := by
      rw [behaviour_evalAll, behaviour_evalAll, hb']
    have hstable : ((h.record .acquire .ok).evalAll h.granted c.forms).2.behaviour.Stable := by
      rw [behaviour_evalAll]
      exact hs'
    show (Host.giveBack _ _ _).1 = (Host.giveBack _ _ _).1
    rw [heval]
    exact giveBack_verdict_congr hbehaviour hstable _ _ _

end Host

end CallAdvice
