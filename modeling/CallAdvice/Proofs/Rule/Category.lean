import CallAdvice.Proofs.Engine.Knowledge
import CallAdvice.Rule.Custom

/-! The category of advice. A matcher may put its advice under any category, but one that makes it
from a call and adds suggestions (`Diagnostic.Made`) leaves it under the category of all advice. The
builtin and the described rules do no more than that (`Registry.makes_builtin`,
`Registry.Makes.addCustom`), so neither does a dispatch with them (`Scene.made_of_dispatch`). -/
set_option autoImplicit false

namespace CallAdvice

/-- `d.Made`: the diagnostic comes from a call, and no more was done to it than to add
suggestions. -/
inductive Diagnostic.Made : Diagnostic → Prop where
  | ofCall (rule : String) (call : Call) : Made (.ofCall rule call)
  | suggest {d : Diagnostic} (h : Made d) (form : Call) (requires : Option Capability) :
    Made (d.suggest form requires)

theorem Diagnostic.Made.category {d : Diagnostic} (h : d.Made) : d.category = "simplify" := by
  induction h with
  | ofCall rule call => rfl
  | suggest _ form requires ih => exact ih

/-- `m.Makes`: whatever the host has, the matcher gives no diagnostic that was not made. -/
def Matcher.Makes (m : Matcher) : Prop :=
  ∀ has callee call d, (m.check callee call).decide has = some d → d.Made

def Registry.Makes (r : Registry) : Prop := ∀ f, ∀ m ∈ r.lookup f, m.Makes

/-! ## Builtin and described rules -/

namespace Rule
open Diagnostic.Made

variable {has : Capability → Bool}

theorem Custom.made_of_advice {c : Custom} {call : Call} {d : Diagnostic}
    (h : c.advice call = some d) : d.Made := by
  have hblank := ofCall c.rule call
  unfold advice at h
  split at h
  · cases h
  · obtain rfl := Option.some.inj h
    exact hblank
  · obtain rfl := Option.some.inj h
    exact hblank.suggest (call.withArgs []) c.needs
  · obtain rfl := Option.some.inj h
    exact hblank.suggest call c.needs
  · next callee _ =>
    obtain rfl := Option.some.inj h
    exact hblank.suggest (call.withCallee callee) c.needs

theorem Custom.makes_matcher (c : Custom) : c.matcher.Makes := by
  intro has callee call d hd
  unfold matcher at hd
  dsimp only at hd
  split at hd
  · exact made_of_advice hd
  · next capability _ =>
    rw [Check.decide_ask] at hd
    cases hcap : has capability with
    | false => rw [hcap] at hd; cases hd
    | true => rw [hcap] at hd; exact made_of_advice hd

end Rule

/-! ## Registries and dispatch -/

namespace Registry

theorem Makes.registerAll {r : Registry} (h : r.Makes) (names : List String) {m : Matcher}
    (hm : m.Makes) : (r.registerAll names m).Makes := by
  intro f m' hm'
  rw [lookup_registerAll] at hm'
  rcases List.mem_append.mp hm' with hm' | hm'
  · exact h f m' hm'
  · rw [(List.mem_replicate.mp hm').2]
    exact hm

theorem Makes.addCustom {r : Registry} (h : r.Makes) (rules : List Rule.Custom) :
    (r.addCustom rules).Makes := by
  induction rules generalizing r with
  | nil => exact h
  | cons rule rules ih => exact ih (h.registerAll rule.callees rule.makes_matcher)

theorem Makes.advice {r : Registry} (h : r.Makes) {has : Capability → Bool} {call : Call}
    {d : Diagnostic} (hd : r.advice has call = some d) : d.Made := by
  obtain ⟨f, -, hfirst⟩ := Option.bind_eq_some_iff.mp hd
  obtain ⟨m, hm, hdecide⟩ := List.exists_of_findSome?_eq_some hfirst
  exact h f m hm has f call d hdecide

end Registry

end CallAdvice
