import Mathlib.Data.List.Nodup
import Mathlib.Logic.Relation
import CallAdvice.Proofs.Rule.Dispatch

/-! Following the suggestions of the builtin rules. A call rewrites to each call that some rule
suggests for it, whether or not another rule comes first. Each step makes a call lighter, two
different steps from one call meet again, and so every call has exactly one form that cannot be
rewritten, at most two steps away. -/
set_option autoImplicit false

namespace CallAdvice.Rule

open Relation

/-! ## The rewriting relation -/

/-- `RewritesBy has id c c'`: a builtin matcher registered under the callee of `c`, with the
identifier `id`, gives a diagnostic that suggests `c'`. -/
def RewritesBy (has : Capability → Bool) (id : String) (c c' : Call) : Prop :=
  ∃ f, c.callee? = some f ∧ ∃ m ∈ Registry.builtin.lookup f, m.id = id ∧
    ∃ d, (m.check f c).decide has = some d ∧
      ∃ suggestion ∈ d.suggestions, Call.ofForm? suggestion.form = some c'

/-- `Rewrites has c c'`: some builtin rule suggests `c'` for `c`. -/
def Rewrites (has : Capability → Bool) (c c' : Call) : Prop := ∃ id, RewritesBy has id c c'

/-- No builtin rule suggests anything for the call. -/
def Settled (has : Capability → Bool) (c : Call) : Prop := ∀ c', ¬ Rewrites has c c'

variable {has : Capability → Bool}

theorem rewritesBy_iff {id : String} {c c' : Call} :
    RewritesBy has id c c' ↔
      ∃ suggestions, Fires has id c suggestions ∧
        ∃ suggestion ∈ suggestions, Call.ofForm? suggestion.form = some c' := by
  constructor
  · rintro ⟨f, hf, m, hm, rfl, d, hd, hs⟩
    have hc : c = .named f c.args := Call.callee?_eq_some.mp hf
    rw [hc] at hd ⊢
    obtain ⟨suggestions, rfl, hfires⟩ := fires_of_mem_builtin hm hd
    exact ⟨suggestions, hfires, hs⟩
  · rintro ⟨suggestions, h, hs⟩
    obtain ⟨f, hf, m, hm, hid, hd⟩ := mem_builtin_of_fires h
    exact ⟨f, hf, m, hm, hid, _, hd, hs⟩

/-- A row with one suggestion rewrites to that suggestion only. -/
theorem eq_of_mem_singleton (call : Call) {c' : Call} {requires : Option Capability}
    (h : ∃ suggestion ∈ [(⟨call.toForm, requires⟩ : Suggestion)],
      Call.ofForm? suggestion.form = some c') : c' = call := by
  obtain ⟨s, hs, hc⟩ := h
  rw [List.mem_singleton.mp hs, Call.ofForm?_toForm] at hc
  exact (Option.some.inj hc).symm

theorem of_mem_killCurrent {c' : Call}
    (h : ∃ suggestion ∈ ((⟨.list [.symbol "kill-buffer", .nil], none⟩ : Suggestion) ::
      if has .killBuffer then [⟨.nullary "kill-buffer", some .killBuffer⟩] else []),
      Call.ofForm? suggestion.form = some c') :
    c' = .named "kill-buffer" [.nil] ∨ has .killBuffer = true ∧ c' = .named "kill-buffer" [] := by
  obtain ⟨s, hs, hc⟩ := h
  rcases List.mem_cons.mp hs with rfl | hs
  · exact .inl (Option.some.inj hc).symm
  · by_cases hk : has .killBuffer = true
    · rw [if_pos hk, List.mem_singleton] at hs
      rw [hs] at hc
      exact .inr ⟨hk, (Option.some.inj hc).symm⟩
    · rw [if_neg hk] at hs
      cases hs

/-! ## Two rows for one call -/

/-- Matchers of one identifier are one matcher. -/
theorem eq_of_id_eq {f f' : String} {m m' : Matcher} (hm : m ∈ Registry.builtin.lookup f)
    (hm' : m' ∈ Registry.builtin.lookup f') (hid : m.id = m'.id) : m = m' := by
  have hfind : ∀ {f m}, m ∈ Registry.builtin.lookup f →
      (builtins.find? fun r => r.2.id = m.id).map (·.2) = some m := by
    intro f m hm
    cases listed_of_mem_lookup hm <;> rfl
  have hsame := hfind hm'
  rw [← hid, hfind hm] at hsame
  exact Option.some.inj hsame

theorem Fires.suggestions_eq {id : String} {c : Call} {s s' : List Suggestion}
    (h : Fires has id c s) (h' : Fires has id c s') : s = s' := by
  obtain ⟨f, hf, m, hm, hid, hd⟩ := mem_builtin_of_fires h
  obtain ⟨f', hf', m', hm', hid', hd'⟩ := mem_builtin_of_fires h'
  obtain rfl : f = f' := Option.some.inj (hf.symm.trans hf')
  obtain rfl := eq_of_id_eq hm hm' (hid.trans hid'.symm)
  rw [hd, Option.some.injEq, Diagnostic.mk.injEq] at hd'
  exact hd'.2.2.2

/-- Besides the bound rule, at most one rule fires on a call. -/
theorem Fires.id_eq {id id' : String} {c : Call} {s s' : List Suggestion}
    (h : Fires has id c s) (h' : Fires has id' c s') (hid : id ≠ "search-default-bound")
    (hid' : id' ≠ "search-default-bound") : id = id' := by
  have ha := advice_of_fires h (fun hb => absurd hb hid)
  rw [advice_of_fires h' (fun hb => absurd hb hid'), Option.some.injEq, Diagnostic.mk.injEq] at ha
  exact ha.2.1.symm

/-- Only the pattern rule fires along with the bound rule. -/
theorem Fires.eq_literal {id : String} {c : Call} {s s' : List Suggestion}
    (h : Fires has "search-default-bound" c s) (h' : Fires has id c s')
    (hid : id ≠ "search-default-bound") : id = "search-literal-regexp" := by
  by_cases hlit : ∃ t, Fires has "search-literal-regexp" c t
  · obtain ⟨t, ht⟩ := hlit
    exact h'.id_eq ht hid (by decide)
  · have ha := advice_of_fires h (fun _ t ht => hlit ⟨t, ht⟩)
    rw [advice_of_fires h' (fun hb => absurd hb hid), Option.some.injEq, Diagnostic.mk.injEq] at ha
    exact absurd ha.2.1 hid

theorem fires_killCurrent {c : Call} {s : List Suggestion}
    (h : Fires has "kill-buffer-current" c s) :
    s = ⟨.list [.symbol "kill-buffer", .nil], none⟩ ::
      if has .killBuffer then [⟨.nullary "kill-buffer", some .killBuffer⟩] else [] := by
  generalize hid : "kill-buffer-current" = id at h
  cases h with
  | killCurrent => rfl
  | _ => exact absurd hid (by decide)

theorem fires_literal {c : Call} {s : List Suggestion} (h : Fires has "search-literal-regexp" c s) :
    ∃ (d : Direction) (pattern text : String) (rest : List Form),
      Pattern.literal? pattern = some text ∧ c = .named d.reSearch (.str pattern :: rest) ∧
        s = [⟨(Call.named d.search (.str text :: rest)).toForm, none⟩] := by
  generalize hid : "search-literal-regexp" = id at h
  cases h with
  | literal d h => exact ⟨d, _, _, _, h, rfl, rfl⟩
  | _ => exact absurd hid (by decide)

theorem fires_bound {c : Call} {s : List Suggestion} (h : Fires has "search-default-bound" c s) :
    ∃ (d : Direction) (f : String) (target : Form) (rest : List Form),
      (f = d.search ∨ f = d.reSearch) ∧ c = .named f (target :: .nullary d.limit :: rest) ∧
        s = [⟨(Call.named f
          (if rest.isEmpty then [target] else target :: .nil :: rest)).toForm, none⟩] := by
  generalize hid : "search-default-bound" = id at h
  cases h with
  | boundLast d hf => exact ⟨d, _, _, [], hf, rfl, rfl⟩
  | boundInner d hf => exact ⟨d, _, _, _ :: _, hf, rfl, rfl⟩
  | _ => exact absurd hid (by decide)

theorem fires_of_bound (d : Direction) {f : String} (hf : f = d.search ∨ f = d.reSearch)
    (target : Form) (rest : List Form) :
    Fires has "search-default-bound" (.named f (target :: .nullary d.limit :: rest))
      [⟨(Call.named f (if rest.isEmpty then [target] else target :: .nil :: rest)).toForm,
        none⟩] := by
  cases rest with
  | nil => exact .boundLast d hf
  | cons next rest => exact .boundInner d hf

theorem Direction.reSearch_inj {d d' : Direction} (h : d.reSearch = d'.reSearch) : d = d' := by
  cases d <;> cases d' <;> first | rfl | exact absurd h (by decide)

theorem Direction.reSearch_ne_search (d d' : Direction) : d.reSearch ≠ d'.search := by
  cases d <;> cases d' <;> decide

/-- The two search rules commute: the pattern first and then the bound gives the same call as the
other way round. -/
theorem literal_bound_commute {c a b : Call} (ha : RewritesBy has "search-literal-regexp" c a)
    (hb : RewritesBy has "search-default-bound" c b) :
    ∃ e, RewritesBy has "search-default-bound" a e ∧
      RewritesBy has "search-literal-regexp" b e := by
  obtain ⟨s, hs, ha⟩ := rewritesBy_iff.mp ha
  obtain ⟨s', hs', hb⟩ := rewritesBy_iff.mp hb
  obtain ⟨d, pattern, text, rest, hlit, rfl, rfl⟩ := fires_literal hs
  obtain ⟨d', f, target, rest', hf, hc, rfl⟩ := fires_bound hs'
  obtain rfl := eq_of_mem_singleton _ ha
  obtain rfl := eq_of_mem_singleton _ hb
  simp only [Call.named, Call.mk.injEq, Form.symbol.injEq, List.cons.injEq] at hc
  obtain ⟨rfl, rfl, rfl⟩ := hc
  obtain rfl : d = d' := Direction.reSearch_inj (hf.resolve_left (Direction.reSearch_ne_search _ _))
  refine ⟨.named d.search (if rest'.isEmpty then [.str text] else .str text :: .nil :: rest'),
    ?_, ?_⟩
  · exact rewritesBy_iff.mpr ⟨_, fires_of_bound d (.inl rfl) (.str text) rest', _,
      List.mem_singleton_self _, rfl⟩
  · cases rest' with
    | nil =>
      exact rewritesBy_iff.mpr ⟨_, .literal d hlit, _, List.mem_singleton_self _, rfl⟩
    | cons next rest' =>
      exact rewritesBy_iff.mpr ⟨_, .literal d hlit, _, List.mem_singleton_self _, rfl⟩

/-! ## Termination -/

/-- How heavy the argument of `kill-buffer` is. -/
def killWeight : List Form → Nat
  | [arg] => if arg.isNullary "current-buffer" then 2 else 1
  | _ => 0

/-- How heavy the bound of a search is. -/
def boundWeight : List Form → Nat
  | _ :: bound :: _ => if bound.isNil then 0 else 1
  | _ => 0

/-- How heavy a call is, so that a call can be rewritten at most that often. -/
def weight (c : Call) : Nat :=
  match c.callee? with
  | none => 0
  | some f =>
    if f = "kill-buffer" then killWeight c.args
    else if f ∈ ["re-search-forward", "re-search-backward"] then 1 + boundWeight c.args
    else if f ∈ ["search-forward", "search-backward"] then boundWeight c.args
    else if c.args.isEmpty then 0 else 1

theorem weight_le_two (c : Call) : weight c ≤ 2 := by
  have hkill : killWeight c.args ≤ 2 := by
    unfold killWeight
    split
    · split <;> omega
    · omega
  have hbound : boundWeight c.args ≤ 1 := by
    unfold boundWeight
    split
    · split <;> omega
    · omega
  unfold weight
  split
  · omega
  · split
    · exact hkill
    · split
      · omega
      · split
        · omega
        · split <;> omega

theorem weight_reSearch (d : Direction) (args : List Form) :
    weight (.named d.reSearch args) = 1 + boundWeight args := by
  cases d <;> rfl

theorem weight_search (d : Direction) (args : List Form) :
    weight (.named d.search args) = boundWeight args := by
  cases d <;> rfl

theorem weight_bound_lt (d : Direction) {f : String} (hf : f = d.search ∨ f = d.reSearch)
    (target : Form) (rest : List Form) :
    weight (.named f (if rest.isEmpty then [target] else target :: .nil :: rest)) <
      weight (.named f (target :: .nullary d.limit :: rest)) := by
  have hlt : boundWeight (if rest.isEmpty then [target] else target :: .nil :: rest) <
      boundWeight (target :: .nullary d.limit :: rest) := by
    cases rest <;> exact Nat.zero_lt_one
  rcases hf with rfl | rfl
  · rw [weight_search, weight_search]
    exact hlt
  · rw [weight_reSearch, weight_reSearch]
    exact Nat.add_lt_add_left hlt 1

/-- Each step makes a call lighter. -/
theorem weight_lt_of_rewrites {c c' : Call} (h : Rewrites has c c') : weight c' < weight c := by
  obtain ⟨id, h⟩ := h
  obtain ⟨s, hs, h⟩ := rewritesBy_iff.mp h
  cases hs with
  | @charAtPoint f hf =>
    obtain rfl := eq_of_mem_singleton (.named f []) h
    rcases hf with rfl | rfl <;> exact Nat.zero_lt_one
  | deleteWindow =>
    obtain rfl := eq_of_mem_singleton (.named "delete-window" []) h
    exact Nat.zero_lt_one
  | killCurrent =>
    rcases of_mem_killCurrent h with rfl | ⟨-, rfl⟩
    · exact Nat.one_lt_two
    · exact Nat.zero_lt_two
  | killNil harg =>
    obtain rfl := eq_of_mem_singleton (.named "kill-buffer" []) h
    rcases harg with rfl | rfl <;> exact Nat.zero_lt_one
  | @literal d pattern text rest hlit =>
    obtain rfl := eq_of_mem_singleton (.named d.search (.str text :: rest)) h
    have hrest : boundWeight (.str text :: rest) = boundWeight (.str pattern :: rest) := by
      cases rest <;> rfl
    rw [weight_reSearch, weight_search, hrest]
    omega
  | @boundLast d f hf target =>
    obtain rfl := eq_of_mem_singleton (.named f [target]) h
    exact weight_bound_lt d hf target []
  | @boundInner d f hf target next rest =>
    obtain rfl := eq_of_mem_singleton (.named f (target :: .nil :: next :: rest)) h
    exact weight_bound_lt d hf target (next :: rest)
  | @listMotion f hf =>
    obtain rfl := eq_of_mem_singleton (.named f []) h
    rcases hf with rfl | rfl | rfl <;> exact Nat.zero_lt_one

theorem length_le_weight {c : Call} {l : List Call} (h : (c :: l).IsChain (Rewrites has)) :
    l.length ≤ weight c := by
  induction l generalizing c with
  | nil => exact Nat.zero_le _
  | cons c' l ih =>
    obtain ⟨hstep, hrest⟩ := List.isChain_cons_cons.mp h
    have hlt := weight_lt_of_rewrites hstep
    have hle := ih hrest
    rw [List.length_cons]
    omega

theorem weight_lt_of_transGen {c c' : Call} (h : TransGen (Rewrites has) c c') :
    weight c' < weight c := by
  induction h with
  | single hstep => exact weight_lt_of_rewrites hstep
  | tail _ hstep ih => exact Nat.lt_trans (weight_lt_of_rewrites hstep) ih

theorem exists_settled (has : Capability → Bool) (c : Call) :
    ∃ n, ReflTransGen (Rewrites has) c n ∧ Settled has n := by
  induction hw : weight c using Nat.strongRecOn generalizing c with
  | _ w ih =>
    by_cases hc : Settled has c
    · exact ⟨c, .refl, hc⟩
    · obtain ⟨c', hstep⟩ := not_forall_not.mp hc
      have hlt := weight_lt_of_rewrites hstep
      obtain ⟨n, hn, hsettled⟩ := ih (weight c') (hw ▸ hlt) c' rfl
      exact ⟨n, .head hstep hn, hsettled⟩

/-! ## Confluence -/

/-- Every row but one has a single suggestion. -/
theorem Fires.eq_singleton {id : String} {c : Call} {s : List Suggestion} (h : Fires has id c s)
    (hid : id ≠ "kill-buffer-current") :
    ∃ (call : Call) (requires : Option Capability), s = [⟨call.toForm, requires⟩] := by
  cases h with
  | @charAtPoint f hf => exact ⟨.named f [], none, rfl⟩
  | deleteWindow => exact ⟨.named "delete-window" [], _, rfl⟩
  | killCurrent => exact absurd rfl hid
  | killNil => exact ⟨.named "kill-buffer" [], _, rfl⟩
  | @literal d pattern text rest => exact ⟨.named d.search (.str text :: rest), _, rfl⟩
  | @boundLast d f hf target => exact ⟨.named f [target], _, rfl⟩
  | @boundInner d f hf target next rest =>
    exact ⟨.named f (target :: .nil :: next :: rest), _, rfl⟩
  | @listMotion f => exact ⟨.named f [], _, rfl⟩

theorem rewrites_killNil (h : has .killBuffer = true) :
    Rewrites has (.named "kill-buffer" [.nil]) (.named "kill-buffer" []) :=
  ⟨_, rewritesBy_iff.mpr ⟨_, .killNil (.inl rfl) h, _, List.mem_singleton_self _, rfl⟩⟩

/-- Two steps by the rule on the current buffer meet again: where the argument may go, `nil` may go
as well. -/
theorem join_killCurrent {a b : Call}
    (ha : a = .named "kill-buffer" [.nil] ∨ has .killBuffer = true ∧ a = .named "kill-buffer" [])
    (hb : b = .named "kill-buffer" [.nil] ∨ has .killBuffer = true ∧ b = .named "kill-buffer" []) :
    ∃ e, ReflGen (Rewrites has) a e ∧ ReflTransGen (Rewrites has) b e := by
  rcases ha with rfl | ⟨hk, rfl⟩ <;> rcases hb with rfl | ⟨hk', rfl⟩
  · exact ⟨_, .refl, .refl⟩
  · exact ⟨_, .single (rewrites_killNil hk'), .refl⟩
  · exact ⟨_, .refl, .single (rewrites_killNil hk)⟩
  · exact ⟨_, .refl, .refl⟩

theorem join_of_same_id {id : String} {c a b : Call} (ha : RewritesBy has id c a)
    (hb : RewritesBy has id c b) :
    ∃ e, ReflGen (Rewrites has) a e ∧ ReflTransGen (Rewrites has) b e := by
  obtain ⟨s, hs, ha⟩ := rewritesBy_iff.mp ha
  obtain ⟨s', hs', hb⟩ := rewritesBy_iff.mp hb
  obtain rfl := hs.suggestions_eq hs'
  by_cases hid : id = "kill-buffer-current"
  · subst hid
    obtain rfl := fires_killCurrent hs
    exact join_killCurrent (of_mem_killCurrent ha) (of_mem_killCurrent hb)
  · obtain ⟨call, requires, rfl⟩ := hs.eq_singleton hid
    obtain rfl := eq_of_mem_singleton call ha
    obtain rfl := eq_of_mem_singleton a hb
    exact ⟨_, .refl, .refl⟩

/-- Any two steps from one call meet again after one more step each, at most. -/
theorem rewrites_diamond (c a b : Call) (ha : Rewrites has c a) (hb : Rewrites has c b) :
    ∃ e, ReflGen (Rewrites has) a e ∧ ReflTransGen (Rewrites has) b e := by
  obtain ⟨id, ha⟩ := ha
  obtain ⟨id', hb⟩ := hb
  by_cases hsame : id = id'
  · subst hsame
    exact join_of_same_id ha hb
  · obtain ⟨s, hs, -⟩ := rewritesBy_iff.mp ha
    obtain ⟨s', hs', -⟩ := rewritesBy_iff.mp hb
    -- Different rules on one call are the two search rules, in either order.
    by_cases hbound : id = "search-default-bound"
    · subst hbound
      obtain rfl := hs.eq_literal hs' (Ne.symm hsame)
      obtain ⟨e, hbe, hae⟩ := literal_bound_commute hb ha
      exact ⟨e, .single ⟨_, hae⟩, .single ⟨_, hbe⟩⟩
    · have hbound' : id' = "search-default-bound" := by
        by_contra hne
        exact hsame (hs.id_eq hs' hbound hne)
      subst hbound'
      obtain rfl := hs'.eq_literal hs hbound
      obtain ⟨e, hae, hbe⟩ := literal_bound_commute ha hb
      exact ⟨e, .single ⟨_, hae⟩, .single ⟨_, hbe⟩⟩

theorem Settled.eq_of_reflTransGen {c c' : Call} (hc : Settled has c)
    (h : ReflTransGen (Rewrites has) c c') : c' = c := by
  rcases ReflTransGen.cases_head h with h | ⟨d, hstep, -⟩
  · exact h.symm
  · exact absurd hstep (hc d)

theorem settled_unique {c a b : Call} (ha : ReflTransGen (Rewrites has) c a) (ha' : Settled has a)
    (hb : ReflTransGen (Rewrites has) c b) (hb' : Settled has b) : a = b := by
  obtain ⟨e, hae, hbe⟩ := church_rosser rewrites_diamond ha hb
  exact (ha'.eq_of_reflTransGen hae).symm.trans (hb'.eq_of_reflTransGen hbe)

/-! ## Settled calls and dispatch -/

theorem Fires.exists_rewrites {id : String} {c : Call} {s : List Suggestion}
    (h : Fires has id c s) : ∃ c', Rewrites has c c' := by
  by_cases hid : id = "kill-buffer-current"
  · subst hid
    obtain rfl := fires_killCurrent h
    exact ⟨.named "kill-buffer" [.nil], _,
      rewritesBy_iff.mpr ⟨_, h, _, List.mem_cons_self, rfl⟩⟩
  · obtain ⟨call, requires, rfl⟩ := h.eq_singleton hid
    exact ⟨call, _, rewritesBy_iff.mpr ⟨_, h, _, List.mem_singleton_self _, rfl⟩⟩

theorem settled_iff_advice_eq_none {c : Call} :
    Settled has c ↔ Registry.builtin.advice has c = none := by
  constructor
  · intro hc
    refine Option.eq_none_iff_forall_ne_some.mpr fun d hd => ?_
    obtain ⟨-, -, hfires, -⟩ := advice_builtin_iff.mp hd
    obtain ⟨c', hstep⟩ := hfires.exists_rewrites
    exact hc c' hstep
  · rintro hnone c' ⟨id, f, hf, m, hm, -, d, hd, -⟩
    unfold Registry.advice at hnone
    rw [hf, Option.bind_some, List.findSome?_eq_none_iff] at hnone
    rw [hnone m hm] at hd
    cases hd

/-- The builtin rules are a terminating and confluent rewriting system, whatever the host can do: a
chain of suggestions has at most two steps and never comes back, all chains that cannot go on end in
the same call, a call is settled exactly when dispatch has no advice on it, and the two search rules
can be followed in either order. -/
theorem rewrites_terminating_confluent (has : Capability → Bool) (c : Call) :
    (∀ l : List Call, (c :: l).IsChain (Rewrites has) → l.length ≤ 2) ∧
    ¬ TransGen (Rewrites has) c c ∧
    (∃! n, ReflTransGen (Rewrites has) c n ∧ Settled has n) ∧
    (∀ (s : Scene) (shared : List Selection), s.engine.registry = .builtin →
      (s.gate shared).1 = true → (∀ cap, (s.probe cap).1 = has cap) →
      (Settled has c ↔ (s.dispatch shared c).1 = none)) ∧
    ∀ a b, RewritesBy has "search-literal-regexp" c a → RewritesBy has "search-default-bound" c b →
      ∃ e, RewritesBy has "search-default-bound" a e ∧
        RewritesBy has "search-literal-regexp" b e := by
  refine ⟨fun l hl => Nat.le_trans (length_le_weight hl) (weight_le_two c), fun hcycle => ?_, ?_,
    ?_, fun a b => literal_bound_commute⟩
  · exact Nat.lt_irrefl _ (weight_lt_of_transGen hcycle)
  · obtain ⟨n, hn, hsettled⟩ := exists_settled has c
    exact ⟨n, ⟨hn, hsettled⟩, fun b hb => settled_unique hb.1 hb.2 hn hsettled⟩
  · intro s shared hreg hopen hhas
    obtain rfl : (fun cap => (s.probe cap).1) = has := funext hhas
    rw [Scene.dispatch_builtin hreg hopen]
    exact settled_iff_advice_eq_none

/-- A search for a fixed pattern up to the end of the buffer, on a host that can do everything. -/
theorem rewrites_fixed_pattern_to_point_max :
    let has : Capability → Bool := fun _ => true
    let c : Call := .named "re-search-forward" [.str "a\\.b", .nullary "point-max"]
    let s : Scene := ⟨Engine.new 0 (.fixed .all), Host.fresh fun _ _ => .ok, []⟩
    RewritesBy has "search-literal-regexp" c
      (.named "search-forward" [.str "a.b", .nullary "point-max"]) ∧
    RewritesBy has "search-default-bound" c (.named "re-search-forward" [.str "a\\.b"]) ∧
    (∃ e, RewritesBy has "search-default-bound"
        (.named "search-forward" [.str "a.b", .nullary "point-max"]) e ∧
      RewritesBy has "search-literal-regexp" (.named "re-search-forward" [.str "a\\.b"]) e) ∧
    (s.gate []).1 = true ∧ (∀ cap, (s.probe cap).1 = has cap) ∧
    (Settled has c ↔ (s.dispatch [] c).1 = none) := by
  intro has c s
  have ha : RewritesBy has "search-literal-regexp" c
      (.named "search-forward" [.str "a.b", .nullary "point-max"]) :=
    rewritesBy_iff.mpr ⟨_, .literal .forward (by decide), _, List.mem_singleton_self _, rfl⟩
  have hb : RewritesBy has "search-default-bound" c (.named "re-search-forward" [.str "a\\.b"]) :=
    rewritesBy_iff.mpr ⟨_, .boundLast .forward (.inr rfl), _, List.mem_singleton_self _, rfl⟩
  have hhas : ∀ cap, (s.probe cap).1 = has cap := by
    intro cap
    cases cap <;> rfl
  obtain ⟨-, -, -, hdispatch, hcommute⟩ := rewrites_terminating_confluent has c
  exact ⟨ha, hb, hcommute _ _ ha hb, rfl, hhas, hdispatch s [] rfl rfl hhas⟩

end CallAdvice.Rule
