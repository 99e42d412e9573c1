import CallAdvice.Proofs.Rule.Table

/-! What the builtin rules require of a host. A suggestion that relies on a capability is the call
without its argument, and is made only where the host has the capability
(`Rule.relies_of_mem_builtin`). The command is one of those that the capability is about, so its
call without arguments is among the forms that a probe evaluates; `backward-up-list` alone is taken
on trust, after `down-list` and `up-list`. -/
set_option autoImplicit false

namespace CallAdvice

/-- The commands that a capability lets go without their argument. -/
def Capability.commands : Capability → List String
  | .killBuffer => ["kill-buffer"]
  | .deleteWindow => ["delete-window"]
  | .listMotion => ["up-list", "down-list", "backward-up-list"]

theorem Capability.named_mem_forms {c : Capability} {f : String} (h : f ∈ c.commands)
    (hne : f ≠ "backward-up-list") : Call.named f [] ∈ c.forms := by
  cases c with
  | killBuffer => simp_all [commands, forms]
  | deleteWindow => simp_all [commands, forms]
  | listMotion =>
    simp only [commands, List.mem_cons, List.not_mem_nil, or_false] at h
    rcases h with rfl | rfl | rfl
    · decide
    · decide
    · exact absurd rfl hne

theorem Capability.eq_listMotion {c : Capability} (h : "backward-up-list" ∈ c.commands) :
    c = .listMotion := by
  cases c <;> simp_all [commands]

namespace Rule

variable {has : Capability → Bool}

/-- `Relies has under call s`: if the suggestion relies on a capability, the host has it, the
suggestion is the call without its arguments, and the rule is registered for a command that the
capability is about. -/
def Relies (has : Capability → Bool) (under : String) (call : Call) (s : Suggestion) : Prop :=
  ∀ c, s.requires = some c →
    has c = true ∧ s.form = (call.withArgs []).toForm ∧ under ∈ c.commands

theorem relies_of_free {under : String} {call : Call} {s : Suggestion} (h : s.requires = none) :
    Relies has under call s := by
  intro c hc
  rw [h] at hc
  cases hc

theorem relies_of_dropped {under : String} {call : Call} {c : Capability} (hhas : has c = true)
    (hunder : under ∈ c.commands) : Relies has under call ⟨(call.withArgs []).toForm, some c⟩ := by
  intro d hd
  obtain rfl := Option.some.inj hd
  exact ⟨hhas, rfl, hunder⟩

theorem relies_of_dropSoleArg {rule : String} {isDefault : Form → Bool} {c : Capability}
    {under callee : String} {call : Call} {d : Diagnostic}
    (hd : (dropSoleArg rule isDefault c callee call).decide has = some d)
    (hunder : under ∈ c.commands) :
    ∀ s ∈ d.suggestions, Relies has under call s := by
  obtain ⟨arg, -, -, hhas, rfl⟩ := dropSoleArg_decide.mp hd
  intro s hs
  obtain rfl := List.mem_singleton.mp hs
  exact relies_of_dropped hhas hunder

/-- What a builtin matcher suggests relies on what the host has, whatever the call and the name that
the matcher is told. -/
theorem relies_of_mem_builtin {under callee : String} {call : Call} {m : Matcher} {d : Diagnostic}
    (hm : m ∈ Registry.builtin.lookup under) (hd : (m.check callee call).decide has = some d) :
    ∀ s ∈ d.suggestions, Relies has under call s := by
  cases listed_of_mem_lookup hm with
  | charAtPoint =>
    rw [check_builtin] at hd
    obtain ⟨-, rfl⟩ := charAtPoint_decide.mp hd
    exact fun s hs => relies_of_free (by simp_all)
  | deleteWindow =>
    rw [check_builtin, deleteWindowSelected] at hd
    exact relies_of_dropSoleArg hd List.mem_cons_self
  | killCurrent =>
    rw [check_builtin] at hd
    obtain ⟨-, rfl⟩ := killBufferCurrent_decide.mp hd
    intro s hs
    rcases List.mem_cons.mp hs with rfl | hs
    · exact relies_of_free rfl
    · by_cases hhas : has .killBuffer = true
      · rw [if_pos hhas] at hs
        obtain rfl := List.mem_singleton.mp hs
        exact relies_of_dropped hhas List.mem_cons_self
      · rw [if_neg hhas] at hs
        cases hs
  | killNil =>
    rw [check_builtin, killBufferNil] at hd
    exact relies_of_dropSoleArg hd List.mem_cons_self
  | literal =>
    rw [check_builtin] at hd
    obtain ⟨pattern, text, rest, -, -, rfl⟩ := searchLiteral_decide.mp hd
    exact fun s hs => relies_of_free (by simp_all)
  | bound =>
    rw [check_builtin] at hd
    obtain ⟨target, rest, -, rfl⟩ := searchBound_decide.mp hd
    exact fun s hs => relies_of_free (by simp_all)
  | listMotion hunder =>
    rw [check_builtin, listMotionOne] at hd
    exact relies_of_dropSoleArg hd (by simpa [Capability.commands] using hunder)

theorem relies_of_advice {call : Call} {d : Diagnostic}
    (h : Registry.builtin.advice has call = some d) :
    ∃ f, call.callee? = some f ∧ ∀ s ∈ d.suggestions, Relies has f call s := by
  obtain ⟨f, hf, hfirst⟩ := Option.bind_eq_some_iff.mp h
  obtain ⟨m, hm, hd⟩ := List.exists_of_findSome?_eq_some hfirst
  exact ⟨f, hf, relies_of_mem_builtin hm hd⟩

end Rule

end CallAdvice
