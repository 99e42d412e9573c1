import CallAdvice.Rule.Builtin

/-! The builtin rules as a table. `Rule.Fires` lists what each rule says about a call when it is
tried alone: the shape of the call, the capability it takes, and the suggestions. The registered
matchers, which `Rule.Listed` tells by name, give rows of the table (`Rule.fires_of_mem_builtin`)
and all of them (`Rule.mem_builtin_of_fires`); `Rule.advice_builtin_iff` adds that the first matcher
wins. -/
set_option autoImplicit false

namespace CallAdvice

/-! ## What is found under a name -/

namespace Registry

theorem lookup_register (r : Registry) (callee : String) (m : Matcher) (f : String) :
    (r.register callee m).lookup f = r.lookup f ++ if callee = f then [m] else [] := by
  unfold register lookup
  rw [List.filterMap_append]
  by_cases h : callee = f <;> simp [h]

/-- Each mention of a name adds one copy of the matcher behind what was there. -/
theorem lookup_registerAll (r : Registry) (names : List String) (m : Matcher) (f : String) :
    (r.registerAll names m).lookup f = r.lookup f ++ List.replicate (names.count f) m := by
  unfold registerAll
  induction names generalizing r with
  | nil => simp
  | cons name names ih =>
    rw [List.foldl_cons, ih, lookup_register, List.append_assoc, List.count_cons]
    congr 1
    by_cases h : name = f
    · simp [h, List.replicate_succ]
    · simp [h]

theorem lookup_foldl_registerAll (rules : List (List String × Matcher)) (r : Registry)
    (f : String) :
    (rules.foldl (fun r rule => r.registerAll rule.1 rule.2) r).lookup f =
      r.lookup f ++ rules.flatMap fun rule => List.replicate (rule.1.count f) rule.2 := by
  induction rules generalizing r with
  | nil => simp
  | cons rule rules ih =>
    rw [List.foldl_cons, ih, lookup_registerAll, List.append_assoc, List.flatMap_cons]

theorem mem_lookup_builtin {f : String} {m : Matcher} :
    m ∈ builtin.lookup f ↔ ∃ names, (names, m) ∈ Rule.builtins ∧ f ∈ names := by
  have h : builtin.lookup f =
      Rule.builtins.flatMap fun rule => List.replicate (rule.1.count f) rule.2 :=
    lookup_foldl_registerAll Rule.builtins .empty f
  rw [h, List.mem_flatMap]
  constructor
  · rintro ⟨⟨names, m'⟩, hr, hm⟩
    obtain ⟨hpos, rfl⟩ := List.mem_replicate.mp hm
    exact ⟨names, hr, List.count_pos_iff.mp (Nat.pos_of_ne_zero hpos)⟩
  · rintro ⟨names, hr, hf⟩
    exact ⟨(names, m), hr, List.mem_replicate.mpr ⟨Nat.ne_of_gt (List.count_pos_iff.mpr hf), rfl⟩⟩

/-- The decision of a registry on a call when the capabilities are known: the first matcher under
the callee that gives a diagnostic. -/
def advice (r : Registry) (has : Capability → Bool) (call : Call) : Option Diagnostic :=
  call.callee?.bind fun f => (r.lookup f).findSome? fun m => (m.check f call).decide has

end Registry

namespace Rule

variable {has : Capability → Bool}

/-! ## The table -/

/-- The way a search goes. -/
inductive Direction where
  | forward
  | backward

namespace Direction

/-- The command that searches for a text. -/
def search : Direction → String
  | .forward => "search-forward"
  | .backward => "search-backward"

/-- The command that searches for a pattern. -/
def reSearch : Direction → String
  | .forward => "re-search-forward"
  | .backward => "re-search-backward"

/-- The function that gives the place where a search ends anyway. -/
def limit : Direction → String
  | .forward => "point-max"
  | .backward => "point-min"

end Direction

/-- `Fires has rule call suggestions`: where the host has what `has` says, the rule, tried alone,
gives these suggestions on the call. -/
inductive Fires (has : Capability → Bool) : String → Call → List Suggestion → Prop where
  /-- The position defaults to point. -/
  | charAtPoint {f : String} (hf : f = "char-after" ∨ f = "char-before") :
    Fires has "char-at-point" (.named f [.nullary "point"]) [⟨.nullary f, none⟩]
  /-- The window defaults to the selected one, where it is optional. -/
  | deleteWindow (h : has .deleteWindow = true) :
    Fires has "delete-window-selected" (.named "delete-window" [.nullary "selected-window"])
      [⟨.nullary "delete-window", some .deleteWindow⟩]
  /-- The buffer can be `nil` for the current one, and go where it is optional. -/
  | killCurrent :
    Fires has "kill-buffer-current" (.named "kill-buffer" [.nullary "current-buffer"])
      (⟨.list [.symbol "kill-buffer", .nil], none⟩ ::
        if has .killBuffer then [⟨.nullary "kill-buffer", some .killBuffer⟩] else [])
  /-- The buffer `nil`, in either spelling, can go where it is optional. -/
  | killNil {arg : Form} (harg : arg = .nil ∨ arg = .list []) (h : has .killBuffer = true) :
    Fires has "kill-buffer-nil" (.named "kill-buffer" [arg])
      [⟨.nullary "kill-buffer", some .killBuffer⟩]
  /-- A fixed pattern can be searched for as a text. -/
  | literal (d : Direction) {pattern text : String} {rest : List Form}
      (h : Pattern.literal? pattern = some text) :
    Fires has "search-literal-regexp" (.named d.reSearch (.str pattern :: rest))
      [⟨.list (.symbol d.search :: .str text :: rest), none⟩]
  /-- A bound that is the limit anyway can go if it comes last. -/
  | boundLast (d : Direction) {f : String} (hf : f = d.search ∨ f = d.reSearch) {target : Form} :
    Fires has "search-default-bound" (.named f [target, .nullary d.limit])
      [⟨.list [.symbol f, target], none⟩]
  /-- A bound that is the limit anyway can be `nil` if more follows. -/
  | boundInner (d : Direction) {f : String} (hf : f = d.search ∨ f = d.reSearch)
      {target next : Form} {rest : List Form} :
    Fires has "search-default-bound" (.named f (target :: .nullary d.limit :: next :: rest))
      [⟨.list (.symbol f :: target :: .nil :: next :: rest), none⟩]
  /-- A count of one can go where it is optional. -/
  | listMotion {f : String} (hf : f = "up-list" ∨ f = "down-list" ∨ f = "backward-up-list")
      (h : has .listMotion = true) :
    Fires has "list-motion-one" (.named f [.int 1]) [⟨.nullary f, some .listMotion⟩]

/-! ## What each rule decides -/

theorem charAtPoint_decide {f : String} {c : Call} {d : Diagnostic} :
    (charAtPoint f c).decide has = some d ↔
      c.args = [.nullary "point"] ∧
        d = ⟨"simplify", "char-at-point", c.toForm, [⟨(c.withArgs []).toForm, none⟩]⟩ := by
  unfold charAtPoint
  split
  · next arg harg =>
    rw [Call.soleArg?_eq_some] at harg
    by_cases h : arg.isNullary "point" = true
    · rw [if_pos h, harg, Form.isNullary_iff.mp h]
      simp [Diagnostic.ofCall, Diagnostic.suggest, category, @eq_comm _ d]
    · have hne : arg ≠ .nullary "point" := fun e => h (Form.isNullary_iff.mpr e)
      simp [h, harg, hne]
  · next harg =>
    have hne : c.args ≠ [.nullary "point"] := fun e => by
      rw [Call.soleArg?_eq_some.mpr e] at harg
      cases harg
    simp [hne]

theorem dropSoleArg_decide {rule : String} {isDefault : Form → Bool} {cap : Capability}
    {f : String} {c : Call} {d : Diagnostic} :
    (dropSoleArg rule isDefault cap f c).decide has = some d ↔
      ∃ arg, c.args = [arg] ∧ isDefault arg = true ∧ has cap = true ∧
        d = ⟨"simplify", rule, c.toForm, [⟨(c.withArgs []).toForm, some cap⟩]⟩ := by
  unfold dropSoleArg
  split
  · next arg harg =>
    rw [Call.soleArg?_eq_some] at harg
    by_cases h : isDefault arg = true <;> by_cases hc : has cap = true <;>
      simp [h, hc, harg, Diagnostic.ofCall, Diagnostic.suggest, category, @eq_comm _ d]
  · next harg =>
    have hne : ∀ arg, c.args ≠ [arg] := fun arg e => by
      rw [Call.soleArg?_eq_some.mpr e] at harg
      cases harg
    simp [hne]

theorem killBufferCurrent_decide {f : String} {c : Call} {d : Diagnostic} :
    (killBufferCurrent f c).decide has = some d ↔
      c.args = [.nullary "current-buffer"] ∧
        d = ⟨"simplify", "kill-buffer-current", c.toForm, ⟨(c.withArgs [.nil]).toForm, none⟩ ::
          if has .killBuffer then [⟨(c.withArgs []).toForm, some .killBuffer⟩] else []⟩ := by
  unfold killBufferCurrent
  split
  · next arg harg =>
    rw [Call.soleArg?_eq_some] at harg
    by_cases h : arg.isNullary "current-buffer" = true
    · rw [if_pos h, harg, Form.isNullary_iff.mp h]
      by_cases hc : has .killBuffer = true <;>
        simp [hc, Diagnostic.ofCall, Diagnostic.suggest, category, @eq_comm _ d]
    · have hne : arg ≠ .nullary "current-buffer" := fun e => h (Form.isNullary_iff.mpr e)
      simp [h, harg, hne]
  · next harg =>
    have hne : c.args ≠ [.nullary "current-buffer"] := fun e => by
      rw [Call.soleArg?_eq_some.mpr e] at harg
      cases harg
    simp [hne]

theorem searchLiteral_decide {f : String} {c : Call} {d : Diagnostic} :
    (searchLiteral f c).decide has = some d ↔
      ∃ pattern text rest, c.args = .str pattern :: rest ∧ Pattern.literal? pattern = some text ∧
        d = ⟨"simplify", "search-literal-regexp", c.toForm,
          [⟨.list (.symbol (if isForward f then "search-forward" else "search-backward") ::
            .str text :: rest), none⟩]⟩ := by
  unfold searchLiteral
  split
  · next pattern rest harg =>
    constructor
    · intro hd
      split at hd
      · next text h => exact ⟨pattern, text, rest, harg, h, (Option.some.inj hd).symm⟩
      · cases hd
    · rintro ⟨pattern', text, rest', harg', h, rfl⟩
      cases harg.symm.trans harg'
      rw [h]
      rfl
  · next hne =>
    simp only [Check.decide_pass, reduceCtorEq, false_iff]
    rintro ⟨pattern, text, rest, harg, -⟩
    exact hne pattern rest harg

theorem searchBound_decide {f : String} {c : Call} {d : Diagnostic} :
    (searchBound f c).decide has = some d ↔
      ∃ target rest,
        c.args = target :: .nullary (if isForward f then "point-max" else "point-min") :: rest ∧
        d = ⟨"simplify", "search-default-bound", c.toForm,
          [⟨(c.withArgs (if rest.isEmpty then [target] else target :: .nil :: rest)).toForm,
            none⟩]⟩ := by
  unfold searchBound
  split
  · next target bound rest harg =>
    constructor
    · intro hd
      by_cases h : bound.isNullary (if isForward f then "point-max" else "point-min") = true
      · rw [if_pos h] at hd
        rw [Form.isNullary_iff.mp h] at harg
        exact ⟨target, rest, harg, (Option.some.inj hd).symm⟩
      · rw [if_neg h] at hd
        cases hd
    · rintro ⟨target', rest', harg', rfl⟩
      cases harg.symm.trans harg'
      rw [if_pos (Form.isNullary_iff.mpr rfl)]
      rfl
  · next hne =>
    simp only [Check.decide_pass, reduceCtorEq, false_iff]
    rintro ⟨target, rest, harg, -⟩
    exact hne target _ rest harg

/-! ## The registered matchers give the table -/

namespace Direction

theorem eq_reSearch_iff {f : String} :
    (∃ d : Direction, f = d.reSearch) ↔ f ∈ ["re-search-forward", "re-search-backward"] := by
  constructor
  · rintro ⟨d, rfl⟩
    cases d <;> simp [reSearch]
  · intro h
    simp only [List.mem_cons, List.not_mem_nil, or_false] at h
    rcases h with rfl | rfl
    · exact ⟨.forward, rfl⟩
    · exact ⟨.backward, rfl⟩

theorem eq_search_iff {f : String} :
    (∃ d : Direction, f = d.search) ↔ f ∈ ["search-forward", "search-backward"] := by
  constructor
  · rintro ⟨d, rfl⟩
    cases d <;> simp [search]
  · intro h
    simp only [List.mem_cons, List.not_mem_nil, or_false] at h
    rcases h with rfl | rfl
    · exact ⟨.forward, rfl⟩
    · exact ⟨.backward, rfl⟩

/-- The end of a search command's name tells its direction. -/
theorem isForward_eq {d : Direction} {f : String} (hf : f = d.search ∨ f = d.reSearch) :
    isForward f = (match d with | .forward => true | .backward => false) := by
  rcases hf with rfl | rfl <;> cases d <;> decide

theorem ite_search {d : Direction} {f : String} (hf : f = d.search ∨ f = d.reSearch) :
    (if isForward f then "search-forward" else "search-backward") = d.search := by
  rw [isForward_eq hf]
  cases d <;> rfl

theorem ite_limit {d : Direction} {f : String} (hf : f = d.search ∨ f = d.reSearch) :
    (if isForward f then "point-max" else "point-min") = d.limit := by
  rw [isForward_eq hf]
  cases d <;> rfl

end Direction

/-- `Listed f m`: the builtin matcher `m` stands under the name `f`. -/
inductive Listed : String → Matcher → Prop where
  | charAtPoint {f : String} (hf : f = "char-after" ∨ f = "char-before") :
    Listed f (builtin "char-at-point" charAtPoint)
  | deleteWindow : Listed "delete-window" (builtin "delete-window-selected" deleteWindowSelected)
  | killCurrent : Listed "kill-buffer" (builtin "kill-buffer-current" killBufferCurrent)
  | killNil : Listed "kill-buffer" (builtin "kill-buffer-nil" killBufferNil)
  | literal (d : Direction) : Listed d.reSearch (builtin "search-literal-regexp" searchLiteral)
  | bound (d : Direction) {f : String} (hf : f = d.search ∨ f = d.reSearch) :
    Listed f (builtin "search-default-bound" searchBound)
  | listMotion {f : String} (hf : f = "up-list" ∨ f = "down-list" ∨ f = "backward-up-list") :
    Listed f (builtin "list-motion-one" listMotionOne)

theorem mem_lookup_of_getElem? {f : String} {names : List String} {m : Matcher} (i : Nat)
    (hi : builtins[i]? = some (names, m)) (hf : f ∈ names) : m ∈ Registry.builtin.lookup f :=
  Registry.mem_lookup_builtin.mpr ⟨names, List.mem_of_getElem? hi, hf⟩

theorem Listed.mem_lookup {f : String} {m : Matcher} (h : Listed f m) :
    m ∈ Registry.builtin.lookup f := by
  cases h with
  | charAtPoint hf => exact mem_lookup_of_getElem? 0 rfl (by simpa using hf)
  | deleteWindow => exact mem_lookup_of_getElem? 1 rfl List.mem_cons_self
  | killCurrent => exact mem_lookup_of_getElem? 2 rfl List.mem_cons_self
  | killNil => exact mem_lookup_of_getElem? 3 rfl List.mem_cons_self
  | literal d => exact mem_lookup_of_getElem? 4 rfl (Direction.eq_reSearch_iff.mp ⟨d, rfl⟩)
  | bound d hf =>
    rcases hf with hf | hf
    · exact mem_lookup_of_getElem? 6 rfl (Direction.eq_search_iff.mp ⟨d, hf⟩)
    · exact mem_lookup_of_getElem? 5 rfl (Direction.eq_reSearch_iff.mp ⟨d, hf⟩)
  | listMotion hf => exact mem_lookup_of_getElem? 7 rfl (by simpa using hf)

theorem listed_of_mem_lookup {f : String} {m : Matcher} (hm : m ∈ Registry.builtin.lookup f) :
    Listed f m := by
  obtain ⟨names, hr, hf⟩ := Registry.mem_lookup_builtin.mp hm
  simp only [builtins, List.mem_cons, List.not_mem_nil, or_false, Prod.mk.injEq] at hr
  rcases hr with ⟨rfl, rfl⟩ | ⟨rfl, rfl⟩ | ⟨rfl, rfl⟩ | ⟨rfl, rfl⟩ | ⟨rfl, rfl⟩ | ⟨rfl, rfl⟩ |
    ⟨rfl, rfl⟩ | ⟨rfl, rfl⟩
  · exact .charAtPoint (by simpa using hf)
  · obtain rfl := List.mem_singleton.mp hf
    exact .deleteWindow
  · obtain rfl := List.mem_singleton.mp hf
    exact .killCurrent
  · obtain rfl := List.mem_singleton.mp hf
    exact .killNil
  · obtain ⟨way, rfl⟩ := Direction.eq_reSearch_iff.mpr hf
    exact .literal way
  · obtain ⟨way, rfl⟩ := Direction.eq_reSearch_iff.mpr hf
    exact .bound way (.inr rfl)
  · obtain ⟨way, rfl⟩ := Direction.eq_search_iff.mpr hf
    exact .bound way (.inl rfl)
  · exact .listMotion (by simpa using hf)

theorem fires_of_searchBound {f : String} {args : List Form} {d : Diagnostic} (way : Direction)
    (hf : f = way.search ∨ f = way.reSearch)
    (hd : (searchBound f (.named f args)).decide has = some d) :
    ∃ suggestions,
      d = ⟨"simplify", "search-default-bound", (Call.named f args).toForm, suggestions⟩ ∧
      Fires has "search-default-bound" (.named f args) suggestions := by
  obtain ⟨target, rest, hargs, rfl⟩ := searchBound_decide.mp hd
  rw [Direction.ite_limit hf] at hargs
  obtain rfl : args = target :: .nullary way.limit :: rest := hargs
  cases rest with
  | nil => exact ⟨_, rfl, .boundLast way hf⟩
  | cons next rest => exact ⟨_, rfl, .boundInner way hf⟩

theorem fires_of_mem_builtin {f : String} {args : List Form} {m : Matcher} {d : Diagnostic}
    (hm : m ∈ Registry.builtin.lookup f)
    (hd : (m.check f (.named f args)).decide has = some d) :
    ∃ suggestions, d = ⟨"simplify", m.id, (Call.named f args).toForm, suggestions⟩ ∧
      Fires has m.id (.named f args) suggestions := by
  cases listed_of_mem_lookup hm with
  | charAtPoint hf =>
    rw [check_builtin] at hd
    obtain ⟨hargs, rfl⟩ := charAtPoint_decide.mp hd
    obtain rfl : args = _ := hargs
    exact ⟨_, rfl, .charAtPoint hf⟩
  | deleteWindow =>
    rw [check_builtin, deleteWindowSelected] at hd
    obtain ⟨arg, hargs, harg, hcap, rfl⟩ := dropSoleArg_decide.mp hd
    obtain rfl : args = [arg] := hargs
    rw [Form.isNullary_iff.mp harg]
    exact ⟨_, rfl, .deleteWindow hcap⟩
  | killCurrent =>
    rw [check_builtin] at hd
    obtain ⟨hargs, rfl⟩ := killBufferCurrent_decide.mp hd
    obtain rfl : args = _ := hargs
    exact ⟨_, rfl, .killCurrent⟩
  | killNil =>
    rw [check_builtin, killBufferNil] at hd
    obtain ⟨arg, hargs, harg, hcap, rfl⟩ := dropSoleArg_decide.mp hd
    obtain rfl : args = [arg] := hargs
    exact ⟨_, rfl, .killNil (Form.isNil_iff.mp harg) hcap⟩
  | literal way =>
    rw [check_builtin] at hd
    obtain ⟨pattern, text, rest, hargs, h, rfl⟩ := searchLiteral_decide.mp hd
    obtain rfl : args = .str pattern :: rest := hargs
    rw [Direction.ite_search (.inr rfl)]
    exact ⟨_, rfl, .literal way h⟩
  | bound way hf => exact fires_of_searchBound way hf hd
  | listMotion hf =>
    rw [check_builtin, listMotionOne] at hd
    obtain ⟨arg, hargs, harg, hcap, rfl⟩ := dropSoleArg_decide.mp hd
    obtain rfl : args = [arg] := hargs
    obtain rfl : arg = .int 1 := Form.int?_eq_some.mp (beq_iff_eq.mp harg)
    exact ⟨_, rfl, .listMotion hf hcap⟩

/-- Each row of the table comes from a matcher registered under the callee. -/
theorem mem_builtin_of_fires {id : String} {c : Call} {suggestions : List Suggestion}
    (h : Fires has id c suggestions) :
    ∃ f, c.callee? = some f ∧ ∃ m ∈ Registry.builtin.lookup f, m.id = id ∧
      (m.check f c).decide has = some ⟨"simplify", id, c.toForm, suggestions⟩ := by
  cases h with
  | @charAtPoint f hf =>
    refine ⟨f, rfl, _, (Listed.charAtPoint hf).mem_lookup, rfl, ?_⟩
    rw [check_builtin, charAtPoint_decide]
    exact ⟨rfl, rfl⟩
  | deleteWindow h =>
    refine ⟨_, rfl, _, Listed.deleteWindow.mem_lookup, rfl, ?_⟩
    rw [check_builtin, deleteWindowSelected, dropSoleArg_decide]
    exact ⟨_, rfl, Form.isNullary_iff.mpr rfl, h, rfl⟩
  | killCurrent =>
    refine ⟨_, rfl, _, Listed.killCurrent.mem_lookup, rfl, ?_⟩
    rw [check_builtin, killBufferCurrent_decide]
    exact ⟨rfl, rfl⟩
  | killNil harg h =>
    refine ⟨_, rfl, _, Listed.killNil.mem_lookup, rfl, ?_⟩
    rw [check_builtin, killBufferNil, dropSoleArg_decide]
    exact ⟨_, rfl, Form.isNil_iff.mpr harg, h, rfl⟩
  | @literal way pattern text rest h =>
    refine ⟨way.reSearch, rfl, _, (Listed.literal way).mem_lookup, rfl, ?_⟩
    rw [check_builtin, searchLiteral_decide, Direction.ite_search (.inr rfl)]
    exact ⟨pattern, text, rest, rfl, h, rfl⟩
  | @boundLast way f hf target =>
    refine ⟨f, rfl, _, (Listed.bound way hf).mem_lookup, rfl, ?_⟩
    rw [check_builtin, searchBound_decide, Direction.ite_limit hf]
    exact ⟨target, [], rfl, rfl⟩
  | @boundInner way f hf target next rest =>
    refine ⟨f, rfl, _, (Listed.bound way hf).mem_lookup, rfl, ?_⟩
    rw [check_builtin, searchBound_decide, Direction.ite_limit hf]
    exact ⟨target, next :: rest, rfl, rfl⟩
  | @listMotion f hf h =>
    refine ⟨f, rfl, _, (Listed.listMotion hf).mem_lookup, rfl, ?_⟩
    rw [check_builtin, listMotionOne, dropSoleArg_decide]
    exact ⟨_, rfl, rfl, h, rfl⟩

/-! ## The first matcher wins -/

section FirstMatch

variable {α β : Type} {g : α → Option β} {m m₁ m₂ : α} {b : β}

theorem findSome?_of_singleton (hm : m ∈ [m₁]) (hb : g m = some b) :
    [m₁].findSome? g = some b := by
  obtain rfl := List.mem_singleton.mp hm
  rw [List.findSome?_cons, hb]

theorem findSome?_of_pair (hm : m ∈ [m₁, m₂]) (hb : g m = some b) (h : m ≠ m₁ → g m₁ = none) :
    [m₁, m₂].findSome? g = some b := by
  by_cases hne : m = m₁
  · subst hne
    rw [List.findSome?_cons, hb]
  · have hm₂ : m ∈ [m₂] := (List.mem_cons.mp hm).resolve_left hne
    rw [List.findSome?_cons, h hne]
    exact findSome?_of_singleton hm₂ hb

end FirstMatch

/-- Under a pattern search, the pattern is looked at before the bound. -/
theorem lookup_reSearch (d : Direction) :
    Registry.builtin.lookup d.reSearch =
      [builtin "search-literal-regexp" searchLiteral,
        builtin "search-default-bound" searchBound] := by
  cases d <;> rfl

/-- If the bound of a search has the say, the pattern rule has passed. -/
theorem searchLiteral_passes {f : String} {args : List Form} (d : Direction) (hf : f = d.reSearch)
    (h : ∀ s, ¬ Fires has "search-literal-regexp" (.named f args) s) :
    (searchLiteral f (.named f args)).decide has = none := by
  refine Option.eq_none_iff_forall_ne_some.mpr fun a ha => ?_
  have hm : builtin "search-literal-regexp" searchLiteral ∈ Registry.builtin.lookup f := by
    rw [hf]
    exact (Listed.literal d).mem_lookup
  obtain ⟨suggestions, -, hfires⟩ := fires_of_mem_builtin hm ha
  exact h suggestions hfires

theorem killBufferCurrent_passes {f : String} {arg : Form} (harg : arg = .nil ∨ arg = .list []) :
    (killBufferCurrent f (.named f [arg])).decide has = none := by
  refine Option.eq_none_iff_forall_ne_some.mpr fun a ha => ?_
  obtain ⟨hargs, -⟩ := killBufferCurrent_decide.mp ha
  obtain rfl : arg = .nullary "current-buffer" := List.singleton_inj.mp hargs
  rcases harg with h | h <;> cases h

theorem findSome?_searchBound {f : String} {args : List Form} {m : Matcher} {d : Diagnostic}
    (way : Direction) (hf : f = way.search ∨ f = way.reSearch)
    (hfirst : ∀ s, ¬ Fires has "search-literal-regexp" (.named f args) s)
    (hm : m ∈ Registry.builtin.lookup f) (hd : (m.check f (.named f args)).decide has = some d) :
    (Registry.builtin.lookup f).findSome? (fun m => (m.check f (.named f args)).decide has) =
      some d := by
  rcases hf with hf | hf
  · have hl : Registry.builtin.lookup f = [builtin "search-default-bound" searchBound] := by
      rw [hf]
      cases way <;> rfl
    rw [hl] at hm ⊢
    exact findSome?_of_singleton hm hd
  · have hl := lookup_reSearch way
    rw [← hf] at hl
    rw [hl] at hm ⊢
    exact findSome?_of_pair hm hd fun _ => searchLiteral_passes way hf hfirst

/-- A rule that fires gives the advice, unless it is about the bound of a search whose pattern has
the say. -/
theorem advice_of_fires {id : String} {c : Call} {suggestions : List Suggestion}
    (h : Fires has id c suggestions)
    (hfirst : id = "search-default-bound" → ∀ s, ¬ Fires has "search-literal-regexp" c s) :
    Registry.builtin.advice has c = some ⟨"simplify", id, c.toForm, suggestions⟩ := by
  obtain ⟨f, hf, m, hm, hid, hd⟩ := mem_builtin_of_fires h
  unfold Registry.advice
  rw [hf, Option.bind_some]
  cases h with
  | charAtPoint hname =>
    cases hf
    rcases hname with rfl | rfl <;> exact findSome?_of_singleton hm hd
  | deleteWindow =>
    cases hf
    exact findSome?_of_singleton hm hd
  | killCurrent =>
    cases hf
    refine findSome?_of_pair hm hd fun hne => ?_
    have hnil := List.mem_singleton.mp ((List.mem_cons.mp hm).resolve_left hne)
    rw [hnil] at hid
    exact absurd hid (by decide)
  | killNil harg =>
    cases hf
    exact findSome?_of_pair hm hd fun _ => killBufferCurrent_passes harg
  | literal way =>
    cases hf
    rw [lookup_reSearch] at hm ⊢
    refine findSome?_of_pair hm hd fun hne => ?_
    have hbound := List.mem_singleton.mp ((List.mem_cons.mp hm).resolve_left hne)
    rw [hbound] at hid
    exact absurd hid (by decide)
  | boundLast way hname =>
    cases hf
    exact findSome?_searchBound way hname (hfirst rfl) hm hd
  | boundInner way hname =>
    cases hf
    exact findSome?_searchBound way hname (hfirst rfl) hm hd
  | listMotion hname =>
    cases hf
    rcases hname with rfl | rfl | rfl <;> exact findSome?_of_singleton hm hd

/-- With the capabilities known, the builtin rules advise exactly what the table says, where the
pattern of a search comes before its bound. -/
theorem advice_builtin_iff {c : Call} {d : Diagnostic} :
    Registry.builtin.advice has c = some d ↔
      d.category = "simplify" ∧ d.subject = c.toForm ∧ Fires has d.rule c d.suggestions ∧
        (d.rule = "search-default-bound" → ∀ s, ¬ Fires has "search-literal-regexp" c s) := by
  constructor
  · intro h
    unfold Registry.advice at h
    obtain ⟨f, hf, h'⟩ := Option.bind_eq_some_iff.mp h
    obtain ⟨m, hm, hd⟩ := List.exists_of_findSome?_eq_some h'
    have hc : c = .named f c.args := Call.callee?_eq_some.mp hf
    rw [hc] at hd ⊢
    obtain ⟨suggestions, rfl, hfires⟩ := fires_of_mem_builtin hm hd
    refine ⟨rfl, rfl, hfires, fun hbound s hs => ?_⟩
    -- Had the pattern rule fired, the advice would be its own.
    have hother := advice_of_fires hs (by simp)
    rw [← hc] at hother
    unfold Registry.advice at hother
    rw [h] at hother
    rw [Option.some.inj hother] at hbound
    simp at hbound
  · rintro ⟨hcategory, hsubject, hfires, hfirst⟩
    rw [advice_of_fires hfires hfirst, ← hcategory, ← hsubject]

end Rule

end CallAdvice
