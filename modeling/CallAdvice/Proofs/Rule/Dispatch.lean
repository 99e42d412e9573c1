import CallAdvice.Proofs.Engine.Knowledge

/-! Dispatch with the builtin rules. The rules registered under one name ask for one capability at
most, so all their questions have the answers that the engine would give before the dispatch. With
these answers a dispatch through an open gate gives exactly the rows of the rule table. -/
set_option autoImplicit false

namespace CallAdvice

/-! ## Questions for one capability -/

/-- All questions of a decision are for the capability `c`. -/
def Check.AsksOnly (c : Capability) : Check → Prop
  | .done _ => True
  | .ask d next => d = c ∧ ∀ b, (next b).AsksOnly c

namespace Scene

theorem probe_answer_congr {c : Capability} {s t : Scene}
    (hk : t.engine.known? c = s.engine.known? c) (hh : t.host = s.host) :
    (t.probe c).1 = (s.probe c).1 := by
  cases h : s.engine.known? c with
  | some b => rw [probe_of_known h, probe_of_known (hk.trans h)]
  | none =>
    rw [probe_of_unknown h, probe_of_unknown (hk.trans h)]
    show (t.probeAfresh c).1 = (s.probeAfresh c).1
    rw [probeAfresh_answer, probeAfresh_answer, hh]

/-- `s.AskedOnly c t`: between `s` and `t` no question but for `c` was asked, as far as answers
show. -/
structure AskedOnly (c : Capability) (s t : Scene) : Prop where
  same : (t.probe c).1 = (s.probe c).1
  others : ∀ d, d ≠ c → t.engine.known? d = s.engine.known? d

theorem AskedOnly.happen {c : Capability} {s t : Scene} (h : AskedOnly c s t)
    (events : List Engine.Event) : AskedOnly c s (t.happen events) where
  same := by
    rw [probe_answer_congr (s := t) (t := t.happen events) rfl rfl]
    exact h.same
  others := h.others

theorem AskedOnly.ask {c : Capability} {s t : Scene} (h : AskedOnly c s t) :
    AskedOnly c s (t.probe c).2 where
  same := by
    rw [probe_of_known (known?_probe c t)]
    exact h.same
  others d hd := (known?_probe_of_ne hd t).trans (h.others d hd)

theorem AskedOnly.run {c : Capability} {check : Check} (hc : check.AsksOnly c) {s t : Scene}
    (h : AskedOnly c s t) : AskedOnly c s (check.run probe t).2 := by
  induction check generalizing t with
  | done result => exact h
  | ask d next ih =>
    obtain ⟨rfl, hnext⟩ := hc
    exact ih (t.probe d).1 (hnext _) h.ask

theorem AskedOnly.firstMatch {c : Capability} {callee : String} {call : Call} {ms : List Matcher}
    (hms : ∀ m ∈ ms, (m.check callee call).AsksOnly c) {s t : Scene} (h : AskedOnly c s t) :
    AskedOnly c s (t.firstMatchBy probe callee call ms).2 := by
  induction ms generalizing t with
  | nil => exact h
  | cons m ms ih =>
    have hm : AskedOnly c s (t.checkBy probe m callee call).2 :=
      (h.happen _).run (hms m List.mem_cons_self)
    rw [firstMatchBy]
    split
    · next d u he =>
      rw [he] at hm
      exact hm
    · next u he =>
      rw [he] at hm
      exact ih (fun m' hm' => hms m' (List.mem_cons_of_mem m hm')) hm

/-- What is known in the end agrees with the answers to be had at the beginning. -/
theorem AskedOnly.agrees {c : Capability} {s t : Scene} (h : AskedOnly c s t) :
    t.engine.Agrees fun d => (s.probe d).1 := by
  intro d b hd
  show (s.probe d).1 = b
  by_cases hdc : d = c
  · subst hdc
    rw [← h.same, probe_of_known hd]
  · rw [h.others d hdc] at hd
    rw [probe_of_known hd]

theorem AskedOnly.gate (c : Capability) (shared : List Selection) (s : Scene) :
    AskedOnly c s (s.gate shared).2 where
  same := probe_answer_congr rfl rfl
  others _ _ := rfl

theorem AskedOnly.advise {c : Capability} {call : Call} {s t : Scene} (h : AskedOnly c s t)
    (hms : ∀ callee, call.callee? = some callee →
      ∀ m ∈ t.engine.registry.lookup callee, (m.check callee call).AsksOnly c) :
    AskedOnly c s (t.adviseBy probe call).2 := by
  unfold adviseBy
  split
  · exact h
  · next callee hcallee =>
    have hfirst := h.firstMatch (hms callee hcallee)
    split
    · next d u he =>
      rw [he] at hfirst
      exact hfirst.happen _
    · next u he =>
      rw [he] at hfirst
      exact hfirst

end Scene

/-! ## The builtin rules -/

namespace Rule

theorem asksOnly_dropSoleArg (rule : String) (isDefault : Form → Bool) (c : Capability)
    (f : String) (call : Call) : (dropSoleArg rule isDefault c f call).AsksOnly c := by
  unfold dropSoleArg
  split
  · split
    · refine ⟨rfl, fun b => ?_⟩
      cases b <;> trivial
    · trivial
  · trivial

theorem asksOnly_killBufferCurrent (f : String) (call : Call) :
    (killBufferCurrent f call).AsksOnly .killBuffer := by
  unfold killBufferCurrent
  split
  · split
    · exact ⟨rfl, fun b => trivial⟩
    · trivial
  · trivial

theorem asksOnly_charAtPoint (c : Capability) (f : String) (call : Call) :
    (charAtPoint f call).AsksOnly c := by
  unfold charAtPoint
  split
  · split <;> trivial
  · trivial

theorem asksOnly_searchLiteral (c : Capability) (f : String) (call : Call) :
    (searchLiteral f call).AsksOnly c := by
  unfold searchLiteral
  split
  · split <;> trivial
  · trivial

theorem asksOnly_searchBound (c : Capability) (f : String) (call : Call) :
    (searchBound f call).AsksOnly c := by
  unfold searchBound
  split
  · split <;> split <;> trivial
  · trivial

/-- The capability that the builtin rules under a name may ask for. -/
def topic (f : String) : Capability :=
  if f = "kill-buffer" then .killBuffer
  else if f = "delete-window" then .deleteWindow
  else .listMotion

theorem asksOnly_of_mem_builtin {f : String} {m : Matcher} (hm : m ∈ Registry.builtin.lookup f)
    (call : Call) : (m.check f call).AsksOnly (topic f) := by
  cases listed_of_mem_lookup hm with
  | charAtPoint => exact asksOnly_charAtPoint _ f call
  | deleteWindow => exact asksOnly_dropSoleArg _ _ _ "delete-window" call
  | killCurrent => exact asksOnly_killBufferCurrent "kill-buffer" call
  | killNil => exact asksOnly_dropSoleArg _ _ _ "kill-buffer" call
  | literal => exact asksOnly_searchLiteral _ _ call
  | bound => exact asksOnly_searchBound _ f call
  | listMotion hf =>
    have htopic : topic f = .listMotion := by
      rcases hf with rfl | rfl | rfl <;> rfl
    rw [htopic]
    exact asksOnly_dropSoleArg _ _ _ f call

end Rule

namespace Scene

/-- With the builtin rules and an open gate, the advice is the one for the answers that the engine
would give before the dispatch. -/
theorem dispatch_builtin {shared : List Selection} {call : Call} {s : Scene}
    (hreg : s.engine.registry = .builtin) (hopen : (s.gate shared).1 = true) :
    (s.dispatch shared call).1 = Registry.builtin.advice (fun c => (s.probe c).1) call := by
  have hasked : AskedOnly (Rule.topic (call.callee?.getD "")) s (s.dispatch shared call).2 := by
    unfold dispatch
    rw [dispatchBy_of_open hopen]
    refine (AskedOnly.gate _ shared s).advise fun callee hcallee m hm => ?_
    rw [hcallee]
    have hm' : m ∈ s.engine.registry.lookup callee := hm
    rw [hreg] at hm'
    exact Rule.asksOnly_of_mem_builtin hm' call
  rw [dispatch_eq_advice hopen hasked.agrees, hreg]

end Scene

/-! ## The rule table in force -/

/-- `Rule.Advised has call d`: where the host has what `has` says, the rule table gives the
diagnostic `d` on the call. The pattern of a search is looked at before its bound. -/
structure Rule.Advised (has : Capability → Bool) (call : Call) (d : Diagnostic) : Prop where
  category : d.category = "simplify"
  subject : d.subject = call.toForm
  row : Rule.Fires has d.rule call d.suggestions
  first : d.rule = "search-default-bound" →
    ∀ suggestions, ¬ Rule.Fires has "search-literal-regexp" call suggestions

/-- An engine with the builtin rules and an open gate gives, on every call, the diagnostic of the
rule table for the capabilities as it would answer for them now, under the category of all advice,
and gives nothing where the table has no row. -/
theorem Scene.dispatch_builtin_iff_advised (s : Scene) (shared : List Selection) (call : Call)
    (hreg : s.engine.registry = .builtin) (hopen : (s.gate shared).1 = true) :
    (∀ d, (s.dispatch shared call).1 = some d ↔
      Rule.Advised (fun c => (s.probe c).1) call d) ∧
    ((s.dispatch shared call).1 = none ↔ ∀ d, ¬ Rule.Advised (fun c => (s.probe c).1) call d) ∧
    ∀ d, (s.dispatch shared call).1 = some d → d.category = "simplify" := by
  have hiff : ∀ d, (s.dispatch shared call).1 = some d ↔
      Rule.Advised (fun c => (s.probe c).1) call d := by
    intro d
    rw [dispatch_builtin hreg hopen, Rule.advice_builtin_iff]
    constructor
    · rintro ⟨hcategory, hsubject, hrow, hfirst⟩
      exact ⟨hcategory, hsubject, hrow, hfirst⟩
    · rintro ⟨hcategory, hsubject, hrow, hfirst⟩
      exact ⟨hcategory, hsubject, hrow, hfirst⟩
  refine ⟨hiff, ?_, fun d hd => ((hiff d).mp hd).category⟩
  rw [Option.eq_none_iff_forall_ne_some]
  exact forall_congr' fun d => not_congr (hiff d)

/-- On a host that can do everything, killing the current buffer has two simpler forms. -/
theorem Scene.dispatch_builtin_kill_current :
    let s : Scene := ⟨Engine.new 0 (.fixed .all), Host.fresh fun _ _ => .ok, []⟩
    s.engine.registry = .builtin ∧ (s.gate []).1 = true ∧
    (s.dispatch [] (.named "kill-buffer" [.nullary "current-buffer"])).1 =
      some ⟨"simplify", "kill-buffer-current",
        .list [.symbol "kill-buffer", .nullary "current-buffer"],
        [⟨.list [.symbol "kill-buffer", .nil], none⟩,
          ⟨.nullary "kill-buffer", some .killBuffer⟩]⟩ :=
  ⟨rfl, rfl, ((dispatch_builtin_iff_advised _ [] _ rfl rfl).1 _).mpr
    ⟨rfl, rfl, Rule.Fires.killCurrent, fun h => by simp at h⟩⟩

end CallAdvice
