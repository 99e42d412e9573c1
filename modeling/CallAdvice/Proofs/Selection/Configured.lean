import CallAdvice.Selection.Gate

/-! What a configured value does at the gate. Only the value `true` and arrays of texts can open it;
an array that begins with `not` opens it unless advice is among the rest, any other array only if
advice is in it (`Selection.allows_ofValue_iff`). -/
set_option autoImplicit false

namespace CallAdvice

/-! ## Arrays of texts -/

theorem Toml.Value.text?_eq_some_iff {v : Toml.Value} {s : String} :
    v.text? = some s ↔ v = .text s := by
  cases v <;> simp [Toml.Value.text?]

/-- Collecting by a partial inverse of `g` succeeds just on what `g` gives. -/
theorem mapM_eq_some_iff {α β : Type} {f : β → Option α} {g : α → β}
    (hfg : ∀ {x y}, f x = some y ↔ x = g y) {xs : List β} {ys : List α} :
    xs.mapM f = some ys ↔ xs = ys.map g := by
  induction xs generalizing ys with
  | nil => cases ys <;> simp
  | cons x xs ih =>
    rw [List.mapM_cons]
    constructor
    · intro h
      obtain ⟨y, hy, h⟩ := Option.bind_eq_some_iff.mp h
      obtain ⟨rest, hrest, h⟩ := Option.bind_eq_some_iff.mp h
      obtain rfl := Option.some.inj h
      rw [hfg.mp hy, ih.mp hrest, List.map_cons]
    · intro h
      cases ys with
      | nil => cases h
      | cons y ys =>
        obtain ⟨hx, hrest⟩ := List.cons.inj h
        rw [hfg.mpr hx, ih.mpr hrest]
        rfl

theorem Toml.mapM_text?_eq_some_iff {items : List Toml.Value} {names : List String} :
    items.mapM Toml.Value.text? = some names ↔ items = names.map .text :=
  mapM_eq_some_iff Toml.Value.text?_eq_some_iff

namespace NameSet

theorem contains_ofList (xs : List String) (x : String) :
    (ofList xs).contains x = true ↔ x ∈ xs := by
  rw [contains, List.contains_iff_mem, mem_names_ofList]

end NameSet

namespace Selection

/-! ## Selections written as names -/

theorem ofNames_not (names : List String) : ofNames ("not" :: names) = exceptList names := rfl

theorem ofNames_of_head?_ne {names : List String} (h : names.head? ≠ some "not") :
    ofNames names = onlyList names := by
  unfold ofNames
  split
  · exact absurd rfl h
  · rfl

theorem allows_exceptList (names : List String) :
    (exceptList names).allows = true ↔ "simplify" ∉ names := by
  rw [exceptList, allows, Bool.not_eq_true', ← Bool.not_eq_true, NameSet.contains_ofList]
  rfl

theorem allows_onlyList (names : List String) :
    (onlyList names).allows = true ↔ "simplify" ∈ names := by
  rw [onlyList, allows, NameSet.contains_ofList]
  rfl

theorem allows_ofNames (names : List String) :
    (ofNames names).allows = true ↔
      names.head? = some "not" ∧ "simplify" ∉ names.tail ∨
      names.head? ≠ some "not" ∧ "simplify" ∈ names := by
  by_cases h : names.head? = some "not"
  · obtain ⟨rest, rfl⟩ : ∃ rest, names = "not" :: rest := List.head?_eq_some_iff.mp h
    rw [ofNames_not, allows_exceptList]
    simp
  · rw [ofNames_of_head?_ne h, allows_onlyList]
    simp [h]

/-! ## Configured values -/

theorem ofValue_texts (names : List String) :
    ofValue (.array (names.map .text)) = ofNames names := by
  rw [ofValue, Toml.mapM_text?_eq_some_iff.mpr rfl]

theorem ofValue_array_of_ne {items : List Toml.Value}
    (h : ∀ names : List String, items ≠ names.map .text) :
    ofValue (.array items) = .unrecognized := by
  have hnone : items.mapM Toml.Value.text? = Option.none := by
    refine Option.eq_none_iff_forall_ne_some.mpr ?_
    intro names hnames
    exact h names (Toml.mapM_text?_eq_some_iff.mp hnames)
  rw [ofValue, hnone]

theorem allows_array_iff (items : List Toml.Value) :
    (ofValue (.array items)).allows = true ↔
      ∃ names : List String, items = names.map .text ∧
        (names.head? = some "not" ∧ "simplify" ∉ names.tail ∨
          names.head? ≠ some "not" ∧ "simplify" ∈ names) := by
  by_cases h : ∃ names : List String, items = names.map .text
  · obtain ⟨names, rfl⟩ := h
    rw [ofValue_texts, allows_ofNames]
    constructor
    · intro hnames
      exact ⟨names, rfl, hnames⟩
    · rintro ⟨names', heq, hnames'⟩
      have hinj : names = names' :=
        List.map_inj_right (fun _ _ hst => Toml.Value.text.inj hst) |>.mp heq
      rw [hinj]
      exact hnames'
  · have hne := not_exists.mp h
    rw [ofValue_array_of_ne hne]
    constructor
    · intro hopen
      cases hopen
    · rintro ⟨names, heq, -⟩
      exact absurd heq (hne names)

/-- The gate is open for a configured value just if it is `true`, or an array of texts that begins
with `not` and does not have advice in its rest, or one that begins otherwise and has advice in it.
So an empty array, an array with anything else than texts in it, and every value that is neither
`true` nor an array keep the gate closed. -/
theorem allows_ofValue_iff (v : Toml.Value) :
    ((ofValue v).allows = true ↔ v = .boolean true ∨
      ∃ names : List String, v = .array (names.map .text) ∧
        (names.head? = some "not" ∧ "simplify" ∉ names.tail ∨
          names.head? ≠ some "not" ∧ "simplify" ∈ names)) ∧
    (ofValue (.array [])).allows = false ∧
    (∀ items item, item ∈ items → (∀ s, item ≠ .text s) →
      (ofValue (.array items)).allows = false) ∧
    (v ≠ .boolean true → (∀ items, v ≠ .array items) → (ofValue v).allows = false) := by
  refine ⟨?_, rfl, ?_, ?_⟩
  · cases v with
    | boolean b => cases b <;> simp [ofValue, allows, none, NameSet.contains, NameSet.empty]
    | array items => simp [allows_array_iff]
    | _ => simp [ofValue, allows]
  · intro items item hmem hitem
    have hne : ∀ names : List String, items ≠ names.map .text := by
      rintro names rfl
      obtain ⟨s, -, hs⟩ := List.mem_map.mp hmem
      exact hitem s hs.symm
    rw [ofValue_array_of_ne hne]
    rfl
  · intro htrue harray
    cases v with
    | boolean b =>
      cases b with
      | true => exact absurd rfl htrue
      | false => rfl
    | array items => exact absurd rfl (harray items)
    | _ => rfl

/-- The word `not` is a name like any other behind the first place; a number closes the gate
wherever it stands, and so does a text on its own. -/
theorem allows_ofValue_not_later :
    (ofValue (.array [.text "obsolete", .text "not", .text "simplify"])).allows = true ∧
      (ofValue (.array [.text "not", .text "obsolete", .integer 1])).allows = false ∧
      (ofValue (.text "simplify")).allows = false := by
  have hlater := (allows_ofValue_iff (.array [.text "obsolete", .text "not", .text "simplify"])).1
  have hnumber := (allows_ofValue_iff (.text "simplify")).2.2.1
    [.text "not", .text "obsolete", .integer 1] (.integer 1) (by simp)
  have htext := (allows_ofValue_iff (.text "simplify")).2.2.2
  refine ⟨?_, ?_, ?_⟩
  · exact hlater.mpr (.inr ⟨["obsolete", "not", "simplify"], rfl, .inr ⟨by decide, by decide⟩⟩)
  · exact hnumber (by simp)
  · exact htext (by simp) (by simp)

end Selection

end CallAdvice
