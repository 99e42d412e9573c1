import CallAdvice.Proofs.Rule.FirstMatch

/-! What a registry holds, told from its registrations. The names with matchers and the identifiers
of the rules can be read off what is found under each name (`Registry.mem_callees`,
`Registry.mem_ruleIds`), so all there is to know about a registry follows from one equation for
`lookup`. Both listings are sets, so the order of the registrations shows only in the order of the
matchers under a name, and there only the registrations with that name count. -/
set_option autoImplicit false

namespace CallAdvice

namespace Registration

/-- The registrations that mention a name. -/
def naming (f : String) (history : List Registration) : List Registration :=
  history.filter fun reg => f ∈ reg.names

theorem mem_under {f : String} {m : Matcher} {history : List Registration} :
    m ∈ under f history ↔ ∃ reg ∈ history, f ∈ reg.names ∧ reg.matcher = m := by
  unfold under
  rw [List.mem_flatMap]
  refine exists_congr fun reg => and_congr_right fun _ => ?_
  rw [List.mem_replicate, ← Nat.pos_iff_ne_zero, List.count_pos_iff, eq_comm]

theorem under_naming (f : String) (history : List Registration) :
    under f (naming f history) = under f history := by
  induction history with
  | nil => rfl
  | cons reg history ih =>
    have hcons : ∀ rest, under f (reg :: rest) =
        List.replicate (reg.names.count f) reg.matcher ++ under f rest :=
      fun rest => List.flatMap_cons
    by_cases h : f ∈ reg.names
    · have hnaming : naming f (reg :: history) = reg :: naming f history := by
        simp [naming, h]
      rw [hnaming, hcons, hcons, ih]
    · have hnaming : naming f (reg :: history) = naming f history := by
        simp [naming, h]
      rw [hnaming, hcons, List.count_eq_zero_of_not_mem h, ih]
      rfl

end Registration

namespace Registry
open Registration

/-! ## Listings by what is found under each name -/

theorem mem_lookup {r : Registry} {f : String} {m : Matcher} :
    m ∈ r.lookup f ↔ (f, m) ∈ r.entries := by
  unfold lookup
  rw [List.mem_filterMap]
  constructor
  · rintro ⟨⟨name, m'⟩, hentry, h⟩
    split at h
    · next hname =>
      obtain rfl := Option.some.inj h
      exact hname ▸ hentry
    · cases h
  · intro hentry
    exact ⟨(f, m), hentry, if_pos rfl⟩

theorem mem_callees {r : Registry} {f : String} : f ∈ r.callees.names ↔ ∃ m, m ∈ r.lookup f := by
  unfold callees
  rw [NameSet.mem_names_ofList, List.mem_map]
  simp [mem_lookup]

theorem mem_ruleIds {r : Registry} {id : String} :
    id ∈ r.ruleIds.names ↔ ∃ f, ∃ m ∈ r.lookup f, m.id = id := by
  unfold ruleIds
  rw [NameSet.mem_names_ofList, List.mem_map]
  simp [mem_lookup]

/-! ## Listings after registrations -/

theorem mem_lookup_foldl_enter {r : Registry} {history : List Registration} {f : String}
    {m : Matcher} :
    m ∈ (history.foldl enter r).lookup f ↔
      m ∈ r.lookup f ∨ ∃ reg ∈ history, f ∈ reg.names ∧ reg.matcher = m := by
  rw [lookup_foldl_enter, List.mem_append, mem_under]

theorem mem_callees_foldl_enter {r : Registry} {history : List Registration} {f : String} :
    f ∈ (history.foldl enter r).callees.names ↔
      f ∈ r.callees.names ∨ ∃ reg ∈ history, f ∈ reg.names := by
  simp only [mem_callees, mem_lookup_foldl_enter]
  constructor
  · rintro ⟨m, hm | ⟨reg, hreg, hf, -⟩⟩
    · exact .inl ⟨m, hm⟩
    · exact .inr ⟨reg, hreg, hf⟩
  · rintro (⟨m, hm⟩ | ⟨reg, hreg, hf⟩)
    · exact ⟨m, .inl hm⟩
    · exact ⟨reg.matcher, .inr ⟨reg, hreg, hf, rfl⟩⟩

theorem mem_ruleIds_foldl_enter {r : Registry} {history : List Registration} {id : String} :
    id ∈ (history.foldl enter r).ruleIds.names ↔
      id ∈ r.ruleIds.names ∨ ∃ reg ∈ history, reg.names ≠ [] ∧ reg.matcher.id = id := by
  simp only [mem_ruleIds, mem_lookup_foldl_enter]
  constructor
  · rintro ⟨f, m, hm | ⟨reg, hreg, hf, rfl⟩, hid⟩
    · exact .inl ⟨f, m, hm, hid⟩
    · exact .inr ⟨reg, hreg, List.ne_nil_of_mem hf, hid⟩
  · rintro (⟨f, m, hm, hid⟩ | ⟨reg, hreg, hne, hid⟩)
    · exact ⟨f, m, .inl hm, hid⟩
    · obtain ⟨f, hf⟩ := List.exists_mem_of_ne_nil _ hne
      exact ⟨f, reg.matcher, .inr ⟨reg, hreg, hf, rfl⟩, hid⟩

/-! ## The registries to begin with -/

theorem lists_callees_builtin :
    builtin.callees.Lists fun f => ∃ rule ∈ Rule.builtins, f ∈ rule.1 := by
  refine NameSet.lists_iff.mpr fun f => ?_
  simp only [mem_callees, mem_lookup_builtin]
  constructor
  · rintro ⟨m, names, hrule, hf⟩
    exact ⟨(names, m), hrule, hf⟩
  · rintro ⟨⟨names, m⟩, hrule, hf⟩
    exact ⟨m, names, hrule, hf⟩

theorem builtins_names_ne_nil {rule : List String × Matcher} (h : rule ∈ Rule.builtins) :
    rule.1 ≠ [] := by
  simp only [Rule.builtins, List.mem_cons, List.not_mem_nil, or_false] at h
  rcases h with rfl | rfl | rfl | rfl | rfl | rfl | rfl | rfl <;> exact List.cons_ne_nil _ _

theorem lists_ruleIds_builtin :
    builtin.ruleIds.Lists fun id => ∃ rule ∈ Rule.builtins, rule.2.id = id := by
  refine NameSet.lists_iff.mpr fun id => ?_
  simp only [mem_ruleIds, mem_lookup_builtin]
  constructor
  · rintro ⟨f, m, ⟨names, hrule, -⟩, hid⟩
    exact ⟨(names, m), hrule, hid⟩
  · rintro ⟨⟨names, m⟩, hrule, hid⟩
    obtain ⟨f, hf⟩ := List.exists_mem_of_ne_nil names (builtins_names_ne_nil hrule)
    exact ⟨f, m, ⟨names, hrule, hf⟩, hid⟩

/-! ## Registrations in another order -/

theorem callees_perm (base : Registry) {history history' : List Registration}
    (h : history'.Perm history) :
    (history'.foldl enter base).callees = (history.foldl enter base).callees := by
  refine NameSet.ext_mem fun f => ?_
  simp only [mem_callees_foldl_enter, h.mem_iff]

theorem ruleIds_perm (base : Registry) {history history' : List Registration}
    (h : history'.Perm history) :
    (history'.foldl enter base).ruleIds = (history.foldl enter base).ruleIds := by
  refine NameSet.ext_mem fun id => ?_
  simp only [mem_ruleIds_foldl_enter, h.mem_iff]

theorem lookup_of_naming_eq (base : Registry) {history history' : List Registration} {f : String}
    (h : naming f history' = naming f history) :
    (history'.foldl enter base).lookup f = (history.foldl enter base).lookup f := by
  rw [lookup_foldl_enter, lookup_foldl_enter, ← under_naming f history', h, under_naming]

/-- After registrations on top of a registry, of which the empty one and the builtin one are cases:
under a name stands what was there before, then the matcher of each registration as often as this
mentions the name, in order, and registrations that do not mention it make no difference. The names
with matchers and the identifiers of the rules are listed in strictly increasing order, once each:
those of before and all that were registered, but for identifiers registered under no name. So the
order of the registrations makes no difference to either listing, and none to what is found under a
name as long as those that mention it keep their order. -/
theorem contents_told_by_history (base : Registry) (history : List Registration) :
    let r := history.foldl enter base
    (∀ f, r.lookup f = base.lookup f ++
      history.flatMap fun reg => List.replicate (reg.names.count f) reg.matcher) ∧
    (∀ f, ((naming f history).foldl enter base).lookup f = r.lookup f) ∧
    r.callees.Lists (fun f => f ∈ base.callees.names ∨ ∃ reg ∈ history, f ∈ reg.names) ∧
    r.ruleIds.Lists (fun id => id ∈ base.ruleIds.names ∨
      ∃ reg ∈ history, reg.names ≠ [] ∧ reg.matcher.id = id) ∧
    (∀ history' : List Registration, history'.Perm history →
      (history'.foldl enter base).callees = r.callees ∧
      (history'.foldl enter base).ruleIds = r.ruleIds ∧
      ∀ f, naming f history' = naming f history →
        (history'.foldl enter base).lookup f = r.lookup f) ∧
    (∀ f, empty.lookup f = []) ∧ empty.callees.names = [] ∧ empty.ruleIds.names = [] ∧
    (∀ f, builtin.lookup f =
      Rule.builtins.flatMap fun rule => List.replicate (rule.1.count f) rule.2) ∧
    builtin.callees.Lists (fun f => ∃ rule ∈ Rule.builtins, f ∈ rule.1) ∧
    builtin.ruleIds.Lists (fun id => ∃ rule ∈ Rule.builtins, rule.2.id = id) := by
  intro r
  refine ⟨lookup_foldl_enter history base, ?_, ?_, ?_, ?_, fun _ => rfl, rfl, rfl,
    lookup_foldl_registerAll Rule.builtins .empty, lists_callees_builtin, lists_ruleIds_builtin⟩
  · intro f
    exact lookup_of_naming_eq base (by simp [naming])
  · exact NameSet.lists_iff.mpr fun f => mem_callees_foldl_enter
  · exact NameSet.lists_iff.mpr fun id => mem_ruleIds_foldl_enter
  · intro history' hperm
    exact ⟨callees_perm base hperm, ruleIds_perm base hperm,
      fun f hf => lookup_of_naming_eq base hf⟩

/-- Three registrations on top of the builtin ones, then the first of them moved to the end. Where
two of them share a name the order shows, and nowhere else. -/
theorem contents_told_by_history_moved :
    let rule (id : String) : Matcher := Rule.Custom.matcher ⟨[], id, .drop, none, id⟩
    let twice : Registration := .several ["foo", "kill-buffer", "foo"] (rule "twice")
    let nowhere : Registration := .several [] (rule "nowhere")
    let once : Registration := .one "kill-buffer" (rule "once")
    let r := [twice, nowhere, once].foldl enter builtin
    let moved := [nowhere, once, twice].foldl enter builtin
    moved.callees = r.callees ∧ moved.ruleIds = r.ruleIds ∧ moved.lookup "foo" = r.lookup "foo" ∧
      (r.lookup "foo").map (·.id) = ["twice", "twice"] ∧
      (r.lookup "kill-buffer").map (·.id) =
        ["kill-buffer-current", "kill-buffer-nil", "twice", "once"] ∧
      (moved.lookup "kill-buffer").map (·.id) =
        ["kill-buffer-current", "kill-buffer-nil", "once", "twice"] ∧
      "once" ∈ r.ruleIds.names ∧ "nowhere" ∉ r.ruleIds.names := by
  intro rule twice nowhere once r moved
  have hperm : ([nowhere, once] ++ [twice]).Perm ([twice] ++ [nowhere, once]) :=
    List.perm_append_comm
  obtain ⟨-, -, -, -, horder, -⟩ := contents_told_by_history builtin [twice, nowhere, once]
  obtain ⟨hcallees, hids, hlookup⟩ := horder [nowhere, once, twice] hperm
  exact ⟨hcallees, hids, hlookup "foo" rfl, by decide, by decide, by decide, by decide, by decide⟩

end Registry

end CallAdvice
