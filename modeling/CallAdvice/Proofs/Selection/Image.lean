import CallAdvice.Proofs.Selection.Configured

/-! Which selections a configuration can ask for. Arrays of texts stand for the same selection if
they agree on the word `not` in front and have the same names otherwise, in whatever order and
however often (`Selection.ofNames_eq_iff`). A selection can be written down by listing its names
with `not` behind another one, as `Selection.toValue` does; that fails only if there is no other
one, and then every other way fails too (`Selection.exists_ofValue_iff`). -/
set_option autoImplicit false

namespace CallAdvice.Selection

/-! ## Arrays that stand for the same selection -/

theorem ofNames_cases (names : List String) :
    (∃ rest, names = "not" :: rest ∧ ofNames names = exceptList rest) ∨
      names.head? ≠ some "not" ∧ ofNames names = onlyList names := by
  by_cases h : names.head? = some "not"
  · obtain ⟨rest, rfl⟩ := List.head?_eq_some_iff.mp h
    exact .inl ⟨rest, rfl, ofNames_not rest⟩
  · exact .inr ⟨h, ofNames_of_head?_ne h⟩

theorem exceptList_eq_iff {names names' : List String} :
    exceptList names = exceptList names' ↔ ∀ x, x ∈ names ↔ x ∈ names' := by
  rw [← NameSet.ofList_eq_ofList_iff]
  exact ⟨Selection.except.inj, congrArg Selection.except⟩

theorem onlyList_eq_iff {names names' : List String} :
    onlyList names = onlyList names' ↔ ∀ x, x ∈ names ↔ x ∈ names' := by
  rw [← NameSet.ofList_eq_ofList_iff]
  exact ⟨Selection.only.inj, congrArg Selection.only⟩

theorem exceptList_ne_onlyList (names names' : List String) :
    exceptList names ≠ onlyList names' := by
  intro h
  cases h

theorem ofNames_eq_iff {names names' : List String} :
    ofNames names = ofNames names' ↔
      names.head? = some "not" ∧ names'.head? = some "not" ∧
        (∀ x, x ∈ names.tail ↔ x ∈ names'.tail) ∨
      names.head? ≠ some "not" ∧ names'.head? ≠ some "not" ∧ ∀ x, x ∈ names ↔ x ∈ names' := by
  obtain ⟨rest, rfl, h⟩ | ⟨hne, h⟩ := ofNames_cases names <;>
    obtain ⟨rest', rfl, h'⟩ | ⟨hne', h'⟩ := ofNames_cases names' <;> rw [h, h']
  · simp [exceptList_eq_iff]
  · simp [exceptList_ne_onlyList, hne']
  · simp [(exceptList_ne_onlyList _ _).symm, hne]
  · simp [onlyList_eq_iff, hne, hne']

/-! ## Values that stand for a selection -/

theorem exceptList_eq_except_iff {names : List String} {s : NameSet} :
    exceptList names = .except s ↔ s.Lists (· ∈ names) := by
  rw [← NameSet.eq_ofList_iff, eq_comm]
  exact ⟨Selection.except.inj, congrArg Selection.except⟩

theorem onlyList_eq_only_iff {names : List String} {s : NameSet} :
    onlyList names = .only s ↔ s.Lists (· ∈ names) := by
  rw [← NameSet.eq_ofList_iff, eq_comm]
  exact ⟨Selection.only.inj, congrArg Selection.only⟩

theorem ofValue_cases (v : Toml.Value) :
    ofValue v = .all ∨ ofValue v = .unrecognized ∨
      (v = .boolean false ∧ ofValue v = onlyList []) ∨
      (∃ names : List String, v = .array (("not" :: names).map .text) ∧
        ofValue v = exceptList names) ∨
      ∃ names : List String, names.head? ≠ some "not" ∧ v = .array (names.map .text) ∧
        ofValue v = onlyList names := by
  cases v with
  | boolean b =>
    cases b with
    | true => exact .inl rfl
    | false => exact .inr (.inr (.inl ⟨rfl, rfl⟩))
  | array items =>
    by_cases htexts : ∃ names : List String, items = names.map .text
    · obtain ⟨names, rfl⟩ := htexts
      rw [ofValue_texts]
      obtain ⟨rest, rfl, h⟩ | ⟨hne, h⟩ := ofNames_cases names
      · exact .inr (.inr (.inr (.inl ⟨rest, rfl, h⟩)))
      · exact .inr (.inr (.inr (.inr ⟨names, hne, rfl, h⟩)))
    · exact .inr (.inl (ofValue_array_of_ne (not_exists.mp htexts)))
  | _ => exact .inr (.inl rfl)

theorem ofValue_eq_except_iff {v : Toml.Value} {s : NameSet} :
    ofValue v = .except s ↔
      ∃ names : List String, v = .array (("not" :: names).map .text) ∧ s.Lists (· ∈ names) := by
  constructor
  · intro hv
    obtain h | h | ⟨-, h⟩ | ⟨names, rfl, h⟩ | ⟨names, -, -, h⟩ := ofValue_cases v <;> rw [h] at hv
    · cases hv
    · cases hv
    · cases hv
    · exact ⟨names, rfl, exceptList_eq_except_iff.mp hv⟩
    · cases hv
  · rintro ⟨names, rfl, hs⟩
    rw [ofValue_texts, ofNames_not]
    exact exceptList_eq_except_iff.mpr hs

theorem ofValue_eq_only_iff {v : Toml.Value} {s : NameSet} :
    ofValue v = .only s ↔
      v = .boolean false ∧ s.Lists (· ∈ []) ∨
      ∃ names : List String, names.head? ≠ some "not" ∧ v = .array (names.map .text) ∧
        s.Lists (· ∈ names) := by
  constructor
  · intro hv
    obtain h | h | ⟨rfl, h⟩ | ⟨names, -, h⟩ | ⟨names, hne, rfl, h⟩ := ofValue_cases v <;>
      rw [h] at hv
    · cases hv
    · cases hv
    · exact .inl ⟨rfl, onlyList_eq_only_iff.mp hv⟩
    · cases hv
    · exact .inr ⟨names, hne, rfl, onlyList_eq_only_iff.mp hv⟩
  · rintro (⟨rfl, hs⟩ | ⟨names, hne, rfl, hs⟩)
    · exact onlyList_eq_only_iff.mpr hs
    · rw [ofValue_texts, ofNames_of_head?_ne hne]
      exact onlyList_eq_only_iff.mpr hs

/-! ## Writing a selection down -/

/-- The same names with `not` moved from the front to the end. -/
def notLast : List String → List String
  | "not" :: names => names ++ ["not"]
  | names => names

/-- A value for a selection. The one for the selection of `not` alone stands for another one. -/
def toValue : Selection → Toml.Value
  | .all => .boolean true
  | .except categories => .array (("not" :: categories.names).map .text)
  | .only categories => .array ((notLast categories.names).map .text)
  | .unrecognized => .integer 0

theorem mem_notLast {names : List String} {x : String} : x ∈ notLast names ↔ x ∈ names := by
  unfold notLast
  split
  · simp [or_comm]
  · rfl

theorem head?_notLast {names : List String} (hnodup : names.Nodup) (hne : names ≠ ["not"]) :
    (notLast names).head? ≠ some "not" := by
  unfold notLast
  split
  · next rest =>
    cases rest with
    | nil => exact absurd rfl hne
    | cons x rest =>
      -- A second `not` is not to be had from a set.
      rintro h
      obtain rfl : x = "not" := Option.some.inj h
      exact absurd hnodup (by simp)
  · next h =>
    intro hhead
    obtain ⟨rest, rfl⟩ := List.head?_eq_some_iff.mp hhead
    exact h rest rfl

theorem ofValue_toValue {c : Selection} (hc : c ≠ onlyList ["not"]) : ofValue c.toValue = c := by
  cases c with
  | all => rfl
  | unrecognized => rfl
  | «except» s =>
    have hs : s.Lists (· ∈ s.names) := NameSet.lists_iff.mpr fun _ => .rfl
    exact ofValue_eq_except_iff.mpr ⟨s.names, rfl, hs⟩
  | only s =>
    have hnames : s.names ≠ ["not"] := by
      intro h
      have hs := NameSet.ofList_names s
      rw [h] at hs
      exact hc (congrArg Selection.only hs.symm)
    have hhead := head?_notLast (NameSet.nodup_of_increasing s.increasing) hnames
    exact ofValue_eq_only_iff.mpr
      (.inr ⟨notLast s.names, hhead, rfl, NameSet.lists_iff.mpr fun _ => mem_notLast.symm⟩)

theorem ofValue_ne_only_not (v : Toml.Value) : ofValue v ≠ onlyList ["not"] := by
  intro hv
  obtain ⟨-, hs⟩ | ⟨names, hhead, -, hs⟩ := ofValue_eq_only_iff.mp hv
  · have hnot := (hs.mem_iff "not").mp ((NameSet.mem_names_ofList _ _).mpr List.mem_cons_self)
    cases hnot
  · -- All names of the array are `not`, so there is no other one to come first.
    have hmem : ∀ x, x ∈ names ↔ x = "not" := by
      intro x
      rw [← hs.mem_iff x, NameSet.mem_names_ofList, List.mem_singleton]
    cases names with
    | nil => exact absurd ((hmem "not").mpr rfl) List.not_mem_nil
    | cons x names =>
      obtain rfl := (hmem x).mp List.mem_cons_self
      exact hhead rfl

theorem exists_ofValue_iff (c : Selection) : (∃ v, ofValue v = c) ↔ c ≠ onlyList ["not"] := by
  constructor
  · rintro ⟨v, rfl⟩
    exact ofValue_ne_only_not v
  · intro hc
    exact ⟨c.toValue, ofValue_toValue hc⟩

/-- A selection lists its categories as a set: in strictly increasing code point order, once each,
and just those that it was made from, whether by name or from a configured value. Two arrays of
texts stand for the same selection just if both begin with `not` and have the same names behind it,
or neither does and they have the same names. And some value stands for a selection just if that is
not the selection of the one category `not`; so one of `not` among others can be configured, and so
can the selection of all but any set. -/
theorem configured_fibres_and_image :
    (∀ names, ∃ s, exceptList names = .except s ∧ s.Lists (· ∈ names)) ∧
    (∀ names, ∃ s, onlyList names = .only s ∧ s.Lists (· ∈ names)) ∧
    (∃ s, none = .only s ∧ s.Lists (· ∈ [])) ∧
    (∀ v s, ofValue v = .except s ↔
      ∃ names : List String, v = .array (("not" :: names).map .text) ∧ s.Lists (· ∈ names)) ∧
    (∀ v s, ofValue v = .only s ↔
      v = .boolean false ∧ s.Lists (· ∈ []) ∨
      ∃ names : List String, names.head? ≠ some "not" ∧ v = .array (names.map .text) ∧
        s.Lists (· ∈ names)) ∧
    (∀ names names' : List String,
      ofValue (.array (names.map .text)) = ofValue (.array (names'.map .text)) ↔
        names.head? = some "not" ∧ names'.head? = some "not" ∧
          (∀ x, x ∈ names.tail ↔ x ∈ names'.tail) ∨
        names.head? ≠ some "not" ∧ names'.head? ≠ some "not" ∧ ∀ x, x ∈ names ↔ x ∈ names') ∧
    (∀ c, (∃ v, ofValue v = c) ↔ c ≠ onlyList ["not"]) ∧
    (∀ s x, "not" ∈ s.names → x ∈ s.names → x ≠ "not" → ∃ v, ofValue v = .only s) ∧
    ∀ s, ∃ v, ofValue v = .except s := by
  refine ⟨?_, ?_, ?_, fun _ _ => ofValue_eq_except_iff, fun _ _ => ofValue_eq_only_iff, ?_,
    exists_ofValue_iff, ?_, ?_⟩
  · intro names
    exact ⟨NameSet.ofList names, rfl, NameSet.lists_ofList names⟩
  · intro names
    exact ⟨NameSet.ofList names, rfl, NameSet.lists_ofList names⟩
  · exact ⟨NameSet.empty, rfl, NameSet.lists_ofList []⟩
  · intro names names'
    rw [ofValue_texts, ofValue_texts]
    exact ofNames_eq_iff
  · intro s x _ hx hne
    refine (exists_ofValue_iff _).mpr ?_
    intro hs
    rw [Selection.only.inj hs, NameSet.mem_names_ofList, List.mem_singleton] at hx
    exact hne hx
  · intro s
    refine (exists_ofValue_iff _).mpr ?_
    intro hs
    cases hs

/-- In order, `not` comes before `simplify`. Listed so, the two stand for something else, and in
reverse for themselves. -/
theorem configured_fibres_and_image_reversed :
    let s := NameSet.ofList ["simplify", "not", "simplify"]
    s.names = ["not", "simplify"] ∧ (∃ v, ofValue v = .only s) ∧
      ofValue (.array (s.names.map .text)) = exceptList ["simplify"] ∧
      ofValue (.array (s.names.reverse.map .text)) = .only s := by
  intro s
  have hnames : s.names = ["not", "simplify"] := by decide
  obtain ⟨-, -, -, -, honly, -, -, hboth, -⟩ := configured_fibres_and_image
  refine ⟨hnames, hboth s "simplify" (by decide) (by decide) (by decide), ?_, ?_⟩
  · rw [hnames]
    rfl
  · refine (honly _ s).mpr (.inr ⟨s.names.reverse, by decide, rfl, NameSet.lists_iff.mpr ?_⟩)
    intro x
    rw [List.mem_reverse]

end CallAdvice.Selection
