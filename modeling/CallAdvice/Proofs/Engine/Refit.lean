import CallAdvice.Proofs.Engine.Knowledge

/-! Parts of an engine that its matchers cannot see. A matcher learns of an engine only what the
engine knows about capabilities, so a change of anything else, such as the rules, the source of the
warning selection or the number of its reads, goes past every matcher: `Scene.firstMatch_refit` says
that the same matchers run in the same way and that the change is still there in the end. -/
set_option autoImplicit false

namespace CallAdvice

/-- `Engine.Unseen g`: the change `g` of engines concerns nothing that they know or come to know. -/
structure Engine.Unseen (g : Engine → Engine) : Prop where
  known : ∀ e c, (g e).known? c = e.known? c
  remember : ∀ e c b, (g e).remember c b = g (e.remember c b)

theorem Engine.unseen_registry (r : Registry) : Unseen fun e => { e with registry := r } :=
  ⟨fun _ _ => rfl, fun _ _ _ => rfl⟩

theorem Engine.unseen_source (source : Source) : Unseen fun e => { e with source := source } :=
  ⟨fun _ _ => rfl, fun _ _ _ => rfl⟩

theorem Engine.unseen_reads (n : Nat) : Unseen fun e => { e with reads := n } :=
  ⟨fun _ _ => rfl, fun _ _ _ => rfl⟩

namespace Scene

/-- The scene with a change of its engine. -/
def refit (g : Engine → Engine) (s : Scene) : Scene := { s with engine := g s.engine }

variable {g : Engine → Engine}

theorem probe_refit_of_known {c : Capability} {s : Scene}
    (hknown : (g s.engine).known? c = s.engine.known? c)
    (hremember : ∀ b, (g s.engine).remember c b = g (s.engine.remember c b)) :
    (s.refit g).probe c = (s.probe c).map id (refit g) := by
  have hrefit : (s.refit g).engine.known? c = s.engine.known? c := hknown
  cases hk : s.engine.known? c with
  | some b =>
    rw [probe_of_known hk, probe_of_known (hrefit.trans hk)]
    rfl
  | none =>
    rw [probe_of_unknown hk, probe_of_unknown (hrefit.trans hk)]
    have hafresh := hremember (s.probeAfresh c).1
    simp only [refit, Prod.map, happen, ← hafresh]
    rfl

theorem probe_refit (hg : Engine.Unseen g) (c : Capability) (s : Scene) :
    (s.refit g).probe c = (s.probe c).map id (refit g) :=
  probe_refit_of_known (hg.known s.engine c) (hg.remember s.engine c)

theorem run_refit (hg : Engine.Unseen g) (check : Check) (s : Scene) :
    check.run probe (s.refit g) = (check.run probe s).map id (refit g) := by
  induction check generalizing s with
  | done result => rfl
  | ask c next ih =>
    rw [Check.run, Check.run, probe_refit hg]
    exact ih _ _

theorem check_refit (hg : Engine.Unseen g) (m : Matcher) (callee : String) (call : Call)
    (s : Scene) : (s.refit g).check m callee call = (s.check m callee call).map id (refit g) :=
  run_refit hg (m.check callee call) (s.happen [.matcherRun m.id callee call m.announced])

theorem firstMatch_refit (hg : Engine.Unseen g) (callee : String) (call : Call)
    (ms : List Matcher) (s : Scene) :
    (s.refit g).firstMatchBy probe callee call ms =
      (s.firstMatchBy probe callee call ms).map id (refit g) := by
  induction ms generalizing s with
  | nil => rfl
  | cons m ms ih =>
    have hm := check_refit hg m callee call s
    unfold check at hm
    rw [firstMatchBy, firstMatchBy, hm]
    rcases s.checkBy probe m callee call with ⟨_ | d, t⟩
    · exact ih t
    · rfl

theorem advise_refit (hg : Engine.Unseen g) (hrules : ∀ e, (g e).registry = e.registry)
    (call : Call) (s : Scene) :
    (s.refit g).adviseBy probe call = (s.adviseBy probe call).map id (refit g) := by
  unfold adviseBy
  cases call.callee? with
  | none => rfl
  | some callee =>
    have hlookup : (s.refit g).engine.registry = s.engine.registry := hrules s.engine
    dsimp only
    rw [hlookup, firstMatch_refit hg]
    rcases s.firstMatchBy probe callee call (s.engine.registry.lookup callee) with ⟨_ | d, t⟩
    · rfl
    · rfl

end Scene

end CallAdvice
