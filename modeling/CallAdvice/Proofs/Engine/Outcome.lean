import CallAdvice.Host.Script
import CallAdvice.Proofs.Engine.Probing

/-! The outcome of one probe against an arbitrary host. `Host.Probed` lists the courses of a probe;
here each exchange is also what the host has to say at its time (`Host.Gives`), and the answer and
the log are read off the exchanges (`Scene.probeAfresh_outcome`). A crash has the last word: where
an evaluation ends in an error and the release then crashes, nothing is said about the error. -/
set_option autoImplicit false

namespace CallAdvice

namespace Host

/-! ## Exchanges as the host gives them -/

/-- How a request goes now. A release while a crash is unwinding goes well. -/
def reply (h : Host) : Op → Outcome
  | .release _ true => .ok
  | op => h.react op

/-- The host after further exchanges. -/
def after (h : Host) (done : List Exchange) : Host := ⟨h.behaviour, h.history ++ done⟩

/-- `h.Gives done`: made one after the other from now on, the requests in `done` go as it says. -/
def Gives (h : Host) : List Exchange → Prop
  | [] => True
  | x :: later => x.outcome = h.reply x.op ∧ (h.after [x]).Gives later

theorem after_append (h : Host) (done later : List Exchange) :
    h.after (done ++ later) = (h.after done).after later := by
  simp [after]

theorem after_inj {h : Host} {done done' : List Exchange} (heq : h.after done = h.after done') :
    done = done' := by
  simpa [after] using heq

theorem gives_append (h : Host) (done later : List Exchange) :
    h.Gives (done ++ later) ↔ h.Gives done ∧ (h.after done).Gives later := by
  induction done generalizing h with
  | nil => simp [Gives, after]
  | cons x done ih =>
    have hafter : h.after (x :: done) = (h.after [x]).after done := after_append h [x] done
    rw [List.cons_append, Gives, Gives, ih, hafter, and_assoc]

theorem evalAll_gives (h : Host) (scratch : Nat) (calls : List Call) :
    ∃ done, (h.evalAll scratch calls).2 = h.after done ∧ h.Gives done := by
  induction calls generalizing h with
  | nil => exact ⟨[], by simp [evalAll, after], trivial⟩
  | cons call calls ih =>
    rw [evalAll, perform]
    cases hreact : h.react (.eval scratch call) with
    | ok =>
      obtain ⟨done, hdone, hgives⟩ := ih (h.after [⟨.eval scratch call, .ok⟩])
      refine ⟨⟨.eval scratch call, .ok⟩ :: done, ?_, hreact.symm, hgives⟩
      exact hdone.trans (after_append h [_] done).symm
    | error e => exact ⟨[⟨.eval scratch call, .error e⟩], rfl, hreact.symm, trivial⟩
    | crash => exact ⟨[⟨.eval scratch call, .crash⟩], rfl, hreact.symm, trivial⟩

theorem giveBack_gives (h : Host) (scratch : Nat) (v : Verdict) :
    ∃ x, (h.giveBack scratch v).2 = h.after [x] ∧ h.Gives [x] := by
  rw [giveBack, perform]
  split
  · exact ⟨⟨.release scratch true, .ok⟩, rfl, rfl, trivial⟩
  · cases hreact : h.react (.release scratch false) with
    | ok => exact ⟨⟨.release scratch false, .ok⟩, rfl, hreact.symm, trivial⟩
    | error e => exact ⟨⟨.release scratch false, .error e⟩, rfl, hreact.symm, trivial⟩
    | crash => exact ⟨⟨.release scratch false, .crash⟩, rfl, hreact.symm, trivial⟩

theorem probe_gives (h : Host) (c : Capability) :
    ∃ done, (h.probe c).2 = h.after done ∧ h.Gives done := by
  rw [probe, perform]
  cases hreact : h.react .acquire with
  | error e => exact ⟨[⟨.acquire, .error e⟩], rfl, hreact.symm, trivial⟩
  | crash => exact ⟨[⟨.acquire, .crash⟩], rfl, hreact.symm, trivial⟩
  | ok =>
    obtain ⟨done, hdone, hgives⟩ := evalAll_gives (h.after [⟨.acquire, .ok⟩]) h.granted c.forms
    obtain ⟨x, hx, hback⟩ := giveBack_gives ((h.after [⟨.acquire, .ok⟩]).after done) h.granted
      ((h.after [⟨.acquire, .ok⟩]).evalAll h.granted c.forms).1
    refine ⟨⟨.acquire, .ok⟩ :: (done ++ [x]), ?_, hreact.symm, ?_⟩
    · rw [← hdone] at hx
      refine hx.trans ?_
      rw [hdone, ← after_append]
      exact (after_append h [_] _).symm
    · exact (gives_append _ done [x]).mpr ⟨hgives, hback⟩

/-! ## Evaluations up to the first fault -/

/-- `UpToFault scratch calls done`: all the calls are evaluated and go well, or those before some
call do, and that one does not and is the last. -/
def UpToFault (scratch : Nat) (calls : List Call) (done : List Exchange) : Prop :=
  done = calls.map (⟨.eval scratch ·, .ok⟩) ∨
    ∃ before call later outcome, calls = before ++ call :: later ∧ outcome ≠ .ok ∧
      done = before.map (⟨.eval scratch ·, .ok⟩) ++ [⟨.eval scratch call, outcome⟩]

theorem Evaluated.upToFault {scratch : Nat} {calls : List Call} {done : List Exchange} {v : Verdict}
    (h : Evaluated scratch calls done v) : UpToFault scratch calls done := by
  induction h with
  | all => exact .inl rfl
  | @ok call calls done v _ ih =>
    rcases ih with rfl | ⟨before, last, later, outcome, rfl, hne, rfl⟩
    · exact .inl rfl
    · exact .inr ⟨call :: before, last, later, outcome, rfl, hne, rfl⟩
  | @error call calls e => exact .inr ⟨[], call, calls, .error e, rfl, by simp, rfl⟩
  | @crash call calls => exact .inr ⟨[], call, calls, .crash, rfl, by simp, rfl⟩

theorem Evaluated.crash_iff {scratch : Nat} {calls : List Call} {done : List Exchange} {v : Verdict}
    (h : Evaluated scratch calls done v) : (∃ x ∈ done, x.outcome = .crash) ↔ v = .crashed := by
  induction h with
  | all => simp
  | ok _ ih => simpa using ih
  | error e => simp
  | crash => simp

theorem Evaluated.error_iff {scratch : Nat} {calls : List Call} {done : List Exchange} {v : Verdict}
    (h : Evaluated scratch calls done v) (e : HostError) :
    (∃ x ∈ done, x.outcome = .error e) ↔ v = .failed e := by
  induction h with
  | all => simp
  | ok _ ih => simpa using ih
  | error e' => simp [eq_comm]
  | crash => simp

theorem Probed.crash_iff {c : Capability} {scratch : Nat} {done : List Exchange} {v : Verdict}
    (h : Probed c scratch done v) : (∃ x ∈ done, x.outcome = .crash) ↔ v = .crashed := by
  cases h with
  | refused e => simp
  | broken => simp
  | unwound hdone => simpa using hdone.crash_iff
  | stuck hdone hv => simp
  | settled hdone hv hlast => simpa [hlast] using hdone.crash_iff

/-- Where nothing crashes, the error is the one of the first request that did not go well. -/
theorem Probed.error_iff {c : Capability} {scratch : Nat} {done : List Exchange} {v : Verdict}
    (h : Probed c scratch done v) (hcalm : ∀ x ∈ done, x.outcome ≠ .crash) (e : HostError) :
    (∃ x ∈ done, x.outcome = .error e ∧ ∀ n unwinding, x.op ≠ .release n unwinding) ↔
      v = .failed e := by
  cases h with
  | refused e' => simp [eq_comm]
  | broken => simp at hcalm
  | @unwound done hdone =>
    obtain ⟨x, hx, hcrash⟩ := hdone.crash_iff.mpr rfl
    exact absurd hcrash (hcalm x (by simp [hx]))
  | stuck hdone hv =>
    have hlast := hcalm ⟨.release scratch false, .crash⟩ (by simp)
    exact absurd rfl hlast
  | @settled done v last hdone hv hlast =>
    have hop : ∀ x ∈ done, ∀ n unwinding, x.op ≠ .release n unwinding := by
      intro x hx n unwinding
      obtain ⟨call, hop⟩ := hdone.op_eq x hx
      simp [hop]
    rw [← hdone.error_iff e]
    constructor
    · rintro ⟨x, hx, herror, hne⟩
      simp only [List.mem_cons, List.mem_append, List.not_mem_nil, or_false] at hx
      rcases hx with rfl | hx | rfl
      · cases herror
      · exact ⟨x, hx, herror⟩
      · exact absurd rfl (hne scratch false)
    · rintro ⟨x, hx, herror⟩
      exact ⟨x, by simp [hx], herror, hop x hx⟩

theorem Evaluated.present_iff {scratch : Nat} {calls : List Call} {done : List Exchange}
    {v : Verdict} (h : Evaluated scratch calls done v) :
    v = .present ↔ done = calls.map (⟨.eval scratch ·, .ok⟩) := by
  constructor
  · rintro rfl
    exact h.eq_of_present
  · rintro rfl
    cases v with
    | present => rfl
    | failed e =>
      obtain ⟨x, hx, herror⟩ := (h.error_iff e).mpr rfl
      obtain ⟨call, -, rfl⟩ := List.mem_map.mp hx
      cases herror
    | crashed =>
      obtain ⟨x, hx, hcrash⟩ := h.crash_iff.mpr rfl
      obtain ⟨call, -, rfl⟩ := List.mem_map.mp hx
      cases hcrash

/-- `Course c scratch done present`: what a probe asks of a host whose next scratch context is
`scratch`, and whether it finds the capability. -/
inductive Course (c : Capability) (scratch : Nat) : List Exchange → Bool → Prop where
  /-- No scratch context, and so no evaluation and no release. -/
  | denied {outcome : Outcome} : outcome ≠ .ok → Course c scratch [⟨.acquire, outcome⟩] false
  /-- Evaluations in the scratch context up to the first fault, and then its only release. -/
  | tried {evals : List Exchange} {unwinding present : Bool} {last : Outcome} :
    UpToFault scratch c.forms evals →
    (unwinding = true ↔ ∃ x ∈ evals, x.outcome = .crash) →
    (present = true ↔ evals = c.forms.map (⟨.eval scratch ·, .ok⟩) ∧ last ≠ .crash) →
    Course c scratch (⟨.acquire, .ok⟩ :: (evals ++ [⟨.release scratch unwinding, last⟩])) present

theorem Probed.course {c : Capability} {scratch : Nat} {done : List Exchange} {v : Verdict}
    (h : Probed c scratch done v) : Course c scratch done v.isPresent := by
  cases h with
  | refused e => exact .denied (by simp)
  | broken => exact .denied (by simp)
  | unwound hdone =>
    have hpresent := hdone.present_iff
    have hcrash := hdone.crash_iff
    exact .tried hdone.upToFault (by simp [hcrash]) (by simp [← hpresent, Verdict.isPresent])
  | stuck hdone hv =>
    have hcrash := hdone.crash_iff
    exact .tried hdone.upToFault (by simp [hcrash, hv]) (by simp [Verdict.isPresent])
  | @settled done v last hdone hv hlast =>
    have hpresent := hdone.present_iff
    have hcrash := hdone.crash_iff
    refine .tried hdone.upToFault (by simp [hcrash, hv]) ?_
    rw [Verdict.isPresent_iff, hpresent]
    exact (and_iff_left hlast).symm

end Host

/-- What a log entry shows. -/
def Log.Entry.shown (e : Entry) : String × List (String × String) := (e.message, e.fields)

/-! ## The outcome -/

/-- A probe afresh always gives an answer. It leaves the engine alone and asks the host, which
answers as it pleases, for one scratch context. If there is one, it evaluates the capability's forms
in it up to the first that does not go well, and releases it once; the capability is there exactly
if all forms went well and the release did not crash. The last log entry tells the answer, and the
only one before it tells of a crash, or else of the error. -/
theorem Scene.probeAfresh_outcome (c : Capability) (s : Scene) :
    ∃ (present : Bool) (done : List Host.Exchange) (entries : List Log.Entry),
      s.probeAfresh c = (present, ⟨s.engine, s.host.after done,
        s.events ++ (done.map .hostAsked ++ entries.map .logged)⟩) ∧
      s.host.Gives done ∧ Host.Course c s.host.granted done present ∧
      ((∃ x ∈ done, x.outcome = .crash) → entries.map Log.Entry.shown =
        [("probe panicked", [("capability", c.id)]),
          ("probed capability", [("capability", c.id), ("present", "false")])]) ∧
      ((∀ x ∈ done, x.outcome ≠ .crash) → ∀ e,
        (∃ x ∈ done, x.outcome = .error e ∧ ∀ n unwinding, x.op ≠ .release n unwinding) →
        entries.map Log.Entry.shown =
          [("probe failed", [("capability", c.id), ("error", e.message)]),
            ("probed capability", [("capability", c.id), ("present", "false")])]) ∧
      (present = true → entries.map Log.Entry.shown =
        [("probed capability", [("capability", c.id), ("present", "true")])]) := by
  obtain ⟨done, v, hcourse, hprobe⟩ := probeAfresh_cases c s
  obtain ⟨done', hafter, hgives⟩ := s.host.probe_gives c
  have hhost : (s.host.probe c).2 = s.host.after done := by
    rw [← probeAfresh_host, hprobe]
    rfl
  obtain rfl : done = done' := Host.after_inj (hhost.symm.trans hafter)
  refine ⟨v.isPresent, done, Log.ofVerdict c v, hprobe, hgives, hcourse.course, ?_, ?_, ?_⟩
  · intro hcrash
    rw [hcourse.crash_iff.mp hcrash]
    rfl
  · intro hcalm e herror
    rw [(hcourse.error_iff hcalm e).mp herror]
    rfl
  · intro hpresent
    rw [Verdict.isPresent_iff.mp hpresent]
    rfl

/-- The second form ends in an error, and then the release crashes: the error is not told. -/
example :
    let script : Host.Script :=
      ⟨[], [("goto-char", [.error (.arity "goto-char" 1)])], [.crash]⟩
    let s : Scene := ⟨Engine.new 0 (.fixed .all), Host.fresh script.behaviour, []⟩
    (s.probeAfresh .listMotion).1 = false ∧
      (s.probeAfresh .listMotion).2.events =
        [.hostAsked ⟨.acquire, .ok⟩,
          .hostAsked ⟨.eval 0 (.named "insert" [.str "(())"]), .ok⟩,
          .hostAsked ⟨.eval 0 (.named "goto-char" [.nullary "point-min"]),
            .error (.arity "goto-char" 1)⟩,
          .hostAsked ⟨.release 0 false, .crash⟩,
          .logged (.probeCrashed .listMotion), .logged (.probed .listMotion false)] := by
  decide

end CallAdvice
