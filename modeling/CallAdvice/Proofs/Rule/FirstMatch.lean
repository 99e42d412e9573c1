import CallAdvice.Proofs.Engine.Probing
import CallAdvice.Proofs.Engine.Refit
import CallAdvice.Rule.Custom

/-! The first match wins. Running matchers has effects, since they may make the engine probe its
host, so it matters which of them run: `Scene.Tried` says that matchers pass one after the other
until one gives a diagnostic, each of them run in the scene that those before it have left. That is
what a dispatch through an open gate does with the matchers under its callee, which are those
registered for it in the order of their registration. Registrations behind the matcher that gives
the diagnostic therefore make no difference at all. -/
set_option autoImplicit false

namespace CallAdvice

/-! ## Registrations -/

/-- Something that was registered: one matcher under one name, or under several. -/
inductive Registration where
  | one (callee : String) (m : Matcher)
  | several (callees : List String) (m : Matcher)

namespace Registration

/-- The names of a registration. -/
def names : Registration → List String
  | one callee _ => [callee]
  | several callees _ => callees

/-- The matcher of a registration. -/
def matcher : Registration → Matcher
  | one _ m | several _ m => m

/-- What registrations put under a name: the matcher of each, once for each mention of the name. -/
def under (f : String) (history : List Registration) : List Matcher :=
  history.flatMap fun reg => List.replicate (reg.names.count f) reg.matcher

theorem under_append (f : String) (history more : List Registration) :
    under f (history ++ more) = under f history ++ under f more := List.flatMap_append

theorem under_eq_nil {f : String} {history : List Registration}
    (h : ∀ reg ∈ history, f ∉ reg.names) : under f history = [] := by
  refine List.flatMap_eq_nil_iff.mpr ?_
  intro reg hreg
  rw [List.count_eq_zero_of_not_mem (h reg hreg), List.replicate_zero]

end Registration

namespace Registry

/-- The registry after one more registration. -/
def enter (r : Registry) : Registration → Registry
  | .one callee m => r.register callee m
  | .several callees m => r.registerAll callees m

/-- The registry that registrations lead to, one after the other. -/
def ofHistory (history : List Registration) : Registry := history.foldl enter .empty

theorem lookup_enter (r : Registry) (reg : Registration) (f : String) :
    (r.enter reg).lookup f = r.lookup f ++ List.replicate (reg.names.count f) reg.matcher := by
  cases reg with
  | one callee m => exact lookup_registerAll r [callee] m f
  | several callees m => exact lookup_registerAll r callees m f

theorem lookup_foldl_enter (history : List Registration) (r : Registry) (f : String) :
    (history.foldl enter r).lookup f = r.lookup f ++ Registration.under f history := by
  induction history generalizing r with
  | nil => exact (List.append_nil _).symm
  | cons reg history ih =>
    rw [List.foldl_cons, ih, lookup_enter, List.append_assoc]
    rfl

theorem lookup_ofHistory (history : List Registration) (f : String) :
    (ofHistory history).lookup f = Registration.under f history :=
  lookup_foldl_enter history .empty f

example : Registry.builtin = .ofHistory (Rule.builtins.map fun rule => .several rule.1 rule.2) :=
  rfl

end Registry

/-! ## Runs of matchers -/

namespace Engine

/-- The matchers run among events, in order: the identifier of each, the name that it was run under,
and the call that it was given. -/
def runs (events : List Event) : List (String × String × Call) :=
  events.filterMap fun
    | .matcherRun id callee call _ => some (id, callee, call)
    | _ => none

theorem runs_append (events later : List Event) :
    runs (events ++ later) = runs events ++ runs later := List.filterMap_append

theorem runs_logged (entries : List Log.Entry) : runs (entries.map .logged) = [] := by
  simp [runs]

theorem runs_probeEvents (c : Capability) (done : List Host.Exchange) (v : Verdict) :
    runs (probeEvents c done v) = [] := by
  simp [runs, probeEvents]

end Engine

namespace Scene
open Engine

theorem runs_probe (c : Capability) (s : Scene) : runs (s.probe c).2.events = runs s.events := by
  rcases probe_cases c s with ⟨b, -, hprobe⟩ | ⟨-, done, v, -, hprobe⟩
  · rw [hprobe, happen_events, runs_append]
    exact List.append_nil _
  · rw [hprobe, runs_append, runs_append, runs_probeEvents]
    simp [runs]

theorem runs_run (check : Check) (s : Scene) :
    runs (check.run probe s).2.events = runs s.events := by
  induction check generalizing s with
  | done result => rfl
  | ask c next ih => exact (ih _ _).trans (runs_probe c s)

theorem runs_check (m : Matcher) (callee : String) (call : Call) (s : Scene) :
    runs (s.check m callee call).2.events = runs s.events ++ [(m.id, callee, call)] := by
  refine (runs_run _ _).trans ?_
  rw [happen_events, runs_append]
  rfl

/-! ## One matcher after the other -/

/-- `Passed callee call s ms t`: run one after the other from `s` on, the matchers all pass, and
this leads to `t`. -/
inductive Passed (callee : String) (call : Call) : Scene → List Matcher → Scene → Prop where
  | nil (s : Scene) : Passed callee call s [] s
  | cons {s t u : Scene} {m : Matcher} {ms : List Matcher} :
    s.check m callee call = (none, t) → Passed callee call t ms u → Passed callee call s (m :: ms) u

/-- `Tried callee call s ms ran d t`: of the matchers `ms`, those in `ran` are run from `s` on and
no others. Either all but the last of them pass and the last one gives the diagnostic, or all of
`ms` pass and there is none. -/
inductive Tried (callee : String) (call : Call) (s : Scene) :
    (ms ran : List Matcher) → Option Diagnostic → Scene → Prop where
  | gives {passed later : List Matcher} {m : Matcher} {d : Diagnostic} {t u : Scene} :
    Passed callee call s passed t → t.check m callee call = (some d, u) →
    Tried callee call s (passed ++ m :: later) (passed ++ [m]) (some d) u
  | passes {ms : List Matcher} {t : Scene} :
    Passed callee call s ms t → Tried callee call s ms ms none t

theorem Tried.cons {callee : String} {call : Call} {s t u : Scene} {m : Matcher}
    {ms ran : List Matcher} {d : Option Diagnostic} (hm : s.check m callee call = (none, t))
    (h : Tried callee call t ms ran d u) : Tried callee call s (m :: ms) (m :: ran) d u := by
  cases h with
  | gives hpassed hgives => exact .gives (.cons hm hpassed) hgives
  | passes hpassed => exact .passes (.cons hm hpassed)

theorem Tried.initial {callee : String} {call : Call} {s t : Scene} {ms ran : List Matcher}
    {d : Option Diagnostic} (h : Tried callee call s ms ran d t) : ran <+: ms := by
  cases h with
  | gives => exact ⟨_, List.append_cons .. |>.symm⟩
  | passes => exact ⟨[], List.append_nil _⟩

theorem tried_firstMatch (callee : String) (call : Call) (ms : List Matcher) (s : Scene) :
    ∃ ran, Tried callee call s ms ran (s.firstMatchBy probe callee call ms).1
      (s.firstMatchBy probe callee call ms).2 := by
  induction ms generalizing s with
  | nil => exact ⟨[], .passes (.nil s)⟩
  | cons m ms ih =>
    rw [firstMatchBy]
    split
    · next d t hm => exact ⟨[m], .gives (.nil s) hm⟩
    · next t hm =>
      obtain ⟨ran, htried⟩ := ih t
      exact ⟨m :: ran, htried.cons hm⟩

theorem Passed.runs {callee : String} {call : Call} {s t : Scene} {ms : List Matcher}
    (h : Passed callee call s ms t) :
    Engine.runs t.events = Engine.runs s.events ++ ms.map fun m => (m.id, callee, call) := by
  induction h with
  | nil s => exact (List.append_nil _).symm
  | @cons s t u m ms hm _ ih =>
    have hrun := runs_check m callee call s
    rw [hm] at hrun
    rw [ih, hrun, List.append_assoc]
    rfl

theorem Tried.runs {callee : String} {call : Call} {s t : Scene} {ms ran : List Matcher}
    {d : Option Diagnostic} (h : Tried callee call s ms ran d t) :
    Engine.runs t.events = Engine.runs s.events ++ ran.map fun m => (m.id, callee, call) := by
  cases h with
  | passes hpassed => exact hpassed.runs
  | @gives passed later m d t u hpassed hgives =>
    have hrun := runs_check m callee call t
    rw [hgives] at hrun
    rw [hrun, hpassed.runs, List.append_assoc, List.map_append]
    rfl

/-- Matchers behind the one that gives the diagnostic are not looked at. -/
theorem firstMatch_append {callee : String} {call : Call} {ms : List Matcher} {s : Scene}
    {d : Diagnostic} (h : (s.firstMatchBy probe callee call ms).1 = some d) (more : List Matcher) :
    s.firstMatchBy probe callee call (ms ++ more) = s.firstMatchBy probe callee call ms := by
  induction ms generalizing s with
  | nil => cases h
  | cons m ms ih =>
    rw [List.cons_append, firstMatchBy, firstMatchBy]
    rw [firstMatchBy] at h
    split at h
    · next d' t hm => rfl
    · next t hm => exact ih h

/-! ## Dispatch -/

/-- The scene with other rules for its engine. -/
def withRules (r : Registry) (s : Scene) : Scene := s.refit fun e => { e with registry := r }

theorem runs_gate (shared : List Selection) (s : Scene) :
    runs (s.gate shared).2.events = runs s.events := by
  show runs (s.events ++ [.selectionRead s.engine.reads s.engine.source.announced] ++
    (Log.ofSelection (s.engine.source.read shared s.engine.reads)).map .logged) = runs s.events
  rw [runs_append, runs_append, runs_logged, List.append_nil]
  exact List.append_nil _

theorem advise_of_callee {call : Call} {f : String} (hf : call.callee? = some f) (s : Scene) :
    s.adviseBy probe call =
      ((s.firstMatchBy probe f call (s.engine.registry.lookup f)).1,
        (s.firstMatchBy probe f call (s.engine.registry.lookup f)).2.log
          ((s.firstMatchBy probe f call (s.engine.registry.lookup f)).1.toList.map
            fun d => .matched f d.rule)) := by
  unfold adviseBy
  rw [hf]
  dsimp only
  rcases s.firstMatchBy probe f call (s.engine.registry.lookup f) with ⟨_ | d, t⟩
  · simp [log, happen]
  · rfl

theorem advise_of_unregistered {call : Call} {s : Scene}
    (h : ∀ f, call.callee? = some f → s.engine.registry.lookup f = []) :
    s.adviseBy probe call = (none, s) := by
  unfold adviseBy
  cases hf : call.callee? with
  | none => rfl
  | some f =>
    dsimp only
    rw [h f hf]
    rfl

/-- More registrations change nothing for a call that got advice without them. -/
theorem advise_withRules {call : Call} {s : Scene} {d : Diagnostic} {r : Registry}
    (hd : (s.adviseBy probe call).1 = some d)
    (hr : ∀ f, ∃ more, r.lookup f = s.engine.registry.lookup f ++ more) :
    (s.withRules r).adviseBy probe call = (s.adviseBy probe call).map id (withRules r) := by
  cases hf : call.callee? with
  | none =>
    unfold adviseBy at hd
    rw [hf] at hd
    cases hd
  | some f =>
    obtain ⟨more, hmore⟩ := hr f
    have hfirst : (s.firstMatchBy probe f call (s.engine.registry.lookup f)).1 = some d := by
      rwa [advise_of_callee hf] at hd
    have hrun : (s.withRules r).firstMatchBy probe f call (r.lookup f) =
        (s.firstMatchBy probe f call (s.engine.registry.lookup f)).map id (withRules r) := by
      rw [hmore, ← firstMatch_append hfirst more]
      exact firstMatch_refit (Engine.unseen_registry r) f call _ s
    have hrules : (s.withRules r).engine.registry = r := rfl
    rw [advise_of_callee hf, advise_of_callee hf, hrules, hrun]
    rfl

theorem gate_withRules (r : Registry) (shared : List Selection) (s : Scene) :
    (s.withRules r).gate shared = (s.gate shared).map id (withRules r) := rfl

theorem dispatch_of_open {shared : List Selection} {s : Scene} (hopen : (s.gate shared).1 = true)
    (call : Call) : s.dispatch shared call = (s.gate shared).2.adviseBy probe call :=
  dispatchBy_of_open hopen

/-- For an engine whose registry comes from any registrations, and through an open gate: under a
name stand the matchers registered for it, in the order of their registration; a call of a named
function runs the shortest part of these that ends in a matcher which gives a diagnostic, or all of
them, on the call as it is and under the name of the function, and the advice is what the last one
gave; a call of anything else, or of a function without registrations, runs nothing and does not
touch the host; and where there is advice, more registrations change neither it nor anything that
happens. -/
theorem dispatch_first_match {s : Scene} {shared : List Selection} {history : List Registration}
    (hrules : s.engine.registry = .ofHistory history) (hopen : (s.gate shared).1 = true)
    (call : Call) :
    (∀ f, s.engine.registry.lookup f = Registration.under f history) ∧
    (∀ f, call.callee? = some f → ∃ ran t,
      Tried f call (s.gate shared).2 (s.engine.registry.lookup f) ran
        (s.dispatch shared call).1 t ∧
      (s.dispatch shared call).2 =
        t.log ((s.dispatch shared call).1.toList.map fun d => .matched f d.rule) ∧
      runs (s.dispatch shared call).2.events =
        runs s.events ++ ran.map fun m => (m.id, f, call)) ∧
    ((∀ f, call.callee? = some f → ∀ reg ∈ history, f ∉ reg.names) →
      s.dispatch shared call = (none, (s.gate shared).2) ∧
      (s.dispatch shared call).2.host = s.host ∧
      runs (s.dispatch shared call).2.events = runs s.events) ∧
    ∀ d more, (s.dispatch shared call).1 = some d →
      (s.withRules (.ofHistory (history ++ more))).dispatch shared call =
        (s.dispatch shared call).map id (withRules (.ofHistory (history ++ more))) := by
  have hlookup : ∀ f, s.engine.registry.lookup f = Registration.under f history := by
    intro f
    rw [hrules]
    exact Registry.lookup_ofHistory history f
  have hregistry : (s.gate shared).2.engine.registry = s.engine.registry := rfl
  rw [dispatch_of_open hopen]
  refine ⟨hlookup, ?_, ?_, ?_⟩
  · intro f hf
    obtain ⟨ran, htried⟩ := tried_firstMatch f call (s.engine.registry.lookup f) (s.gate shared).2
    have hruns := htried.runs
    rw [runs_gate] at hruns
    rw [advise_of_callee hf, hregistry]
    refine ⟨ran, _, htried, rfl, ?_⟩
    rw [← hruns, log, happen_events, runs_append, runs_logged, List.append_nil]
  · intro hnone
    have hadvise : (s.gate shared).2.adviseBy probe call = (none, (s.gate shared).2) := by
      refine advise_of_unregistered fun f hf => ?_
      rw [hregistry, hlookup]
      exact Registration.under_eq_nil (hnone f hf)
    rw [hadvise]
    exact ⟨rfl, rfl, runs_gate shared s⟩
  · intro d more hd
    have hgate := gate_withRules (.ofHistory (history ++ more)) shared s
    rw [dispatch_of_open (hgate ▸ hopen), hgate]
    refine advise_withRules (s := (s.gate shared).2) hd ?_
    intro f
    rw [hregistry, hlookup, Registry.lookup_ofHistory]
    exact ⟨Registration.under f more, Registration.under_append f history more⟩

/-- Of three matchers under a name, the first one asks for a capability and passes, the second one
gives a diagnostic and the third one is not run; nor is a fourth one. -/
theorem dispatch_first_match_of_three :
    let rule (id : String) (action : Rule.Action) (needs : Option Capability) : Matcher :=
      Rule.Custom.matcher ⟨[], id, action, needs, id⟩
    let history : List Registration := [.one "foo" (rule "skip" .skip (some .killBuffer)),
      .several ["bar", "foo"] (rule "first" .drop none), .one "foo" (rule "second" .drop none)]
    let more : List Registration := [.several ["foo", "foo"] (rule "late" .keep none)]
    let s : Scene := ⟨{ Engine.new 0 (.fixed .all) with registry := .ofHistory history },
      Host.fresh fun _ _ => .ok, []⟩
    let call : Call := .named "foo" [.int 1]
    let advice : Diagnostic := ⟨"simplify", "first", call.toForm, [⟨.nullary "foo", none⟩]⟩
    s.engine.registry = .ofHistory history ∧ (s.gate []).1 = true ∧
      (s.dispatch [] call).1 = some advice ∧
      (∃ ran, ran <+: s.engine.registry.lookup "foo" ∧
        ran.map (fun m => (m.id, "foo", call)) = [("skip", "foo", call), ("first", "foo", call)]) ∧
      ((s.withRules (.ofHistory (history ++ more))).dispatch [] call).1 = some advice ∧
      ((s.withRules (.ofHistory (history ++ more))).dispatch [] call).2.host.history.length =
        3 := by
  intro rule history more s call advice
  have hadvice : (s.dispatch [] call).1 = some advice := by decide
  have hhost : (s.dispatch [] call).2.host.history.length = 3 := by decide
  have hrules : s.engine.registry = .ofHistory history := rfl
  have hopen : (s.gate []).1 = true := rfl
  obtain ⟨-, hruns, -, hmore⟩ := dispatch_first_match hrules hopen call
  obtain ⟨ran, t, htried, -, hran⟩ := hruns "foo" rfl
  have hnames : runs (s.dispatch [] call).2.events =
      [("skip", "foo", call), ("first", "foo", call)] := by decide
  have hdispatch := hmore advice more hadvice
  refine ⟨hrules, hopen, hadvice, ⟨ran, htried.initial, hran.symm.trans hnames⟩, ?_, ?_⟩
  · rw [hdispatch]
    exact hadvice
  · rw [hdispatch]
    exact hhost

end Scene

end CallAdvice
