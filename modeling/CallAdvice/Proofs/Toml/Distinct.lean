import CallAdvice.Toml.Document

/-! Every table that the reader makes has distinct keys, at every depth: in inline tables, under
headers and dotted keys, and in arrays of tables. Each way to change the tables of a document keeps
this (`Entries.Distinct`), values are read with it (`value_distinct`), and so it holds of the whole
document (`parse?_distinct`). -/
set_option autoImplicit false

namespace CallAdvice.Toml

/-- `v.Distinct`: the tables in a value have distinct keys. -/
inductive Value.Distinct : Value → Prop where
  | text (s : String) : Distinct (.text s)
  | integer (n : Int) : Distinct (.integer n)
  | real (r : Real) : Distinct (.real r)
  | boolean (b : Bool) : Distinct (.boolean b)
  | moment (m : Moment) : Distinct (.moment m)
  | array {items : List Value} (h : ∀ v ∈ items, v.Distinct) : Distinct (.array items)
  | table {entries : Table} (hkeys : (entries.map (·.1)).Nodup)
      (h : ∀ e ∈ entries, e.2.Distinct) : Distinct (.table entries)

/-- `n.Distinct`: the tables in a node have distinct keys. -/
inductive Node.Distinct : Node → Prop where
  | value {v : Value} (h : v.Distinct) : Distinct (.value v)
  | table {origin : Origin} {entries : Entries} (hkeys : (entries.map (·.1)).Nodup)
      (h : ∀ e ∈ entries, e.2.Distinct) : Distinct (.table origin entries)
  | tables {items : List Entries} (hkeys : ∀ es ∈ items, (es.map (·.1)).Nodup)
      (h : ∀ es ∈ items, ∀ e ∈ es, e.2.Distinct) : Distinct (.tables items)

/-! ## Changes to tables -/

namespace Entries

/-- `es.Distinct`: the keys are distinct, also those in the tables below. -/
structure Distinct (es : Entries) : Prop where
  keys : (es.map (·.1)).Nodup
  nodes : ∀ e ∈ es, e.2.Distinct

theorem distinct_nil : Distinct [] := ⟨List.nodup_nil, by simp⟩

theorem Distinct.table {es : Entries} (h : es.Distinct) (origin : Origin) :
    (Node.table origin es).Distinct := .table h.keys h.nodes

theorem distinct_of_table {origin : Origin} {es : Entries} (h : (Node.table origin es).Distinct) :
    es.Distinct := by
  cases h with
  | table hkeys hnodes => exact ⟨hkeys, hnodes⟩

theorem distinct_tables {items : List Entries} (h : ∀ es ∈ items, es.Distinct) :
    (Node.tables items).Distinct :=
  .tables (fun es hes => (h es hes).keys) fun es hes => (h es hes).nodes

theorem distinct_of_tables {items : List Entries} (h : (Node.tables items).Distinct) :
    ∀ es ∈ items, es.Distinct := by
  cases h with
  | tables hkeys hnodes => exact fun es hes => ⟨hkeys es hes, hnodes es hes⟩

theorem mem_put {es : Entries} {key : String} {n : Node} {e : String × Node}
    (h : e ∈ es.put key n) : e = (key, n) ∨ e ∈ es := by
  induction es with
  | nil => simpa [put] using h
  | cons e' es ih =>
    rw [put] at h
    split at h
    · rcases List.mem_cons.mp h with h | h
      · exact .inl h
      · exact .inr (List.mem_cons_of_mem _ h)
    · rcases List.mem_cons.mp h with h | h
      · exact .inr (h ▸ List.mem_cons_self)
      · exact (ih h).imp id (List.mem_cons_of_mem _)

theorem Distinct.put {es : Entries} (h : es.Distinct) (key : String) {n : Node} (hn : n.Distinct) :
    (es.put key n).Distinct := by
  refine ⟨?_, ?_⟩
  · obtain ⟨hkeys, -⟩ := h
    induction es with
    | nil => simp [Entries.put]
    | cons e es ih =>
      obtain ⟨hnew, hrest⟩ := List.nodup_cons.mp hkeys
      rw [Entries.put]
      split
      · next heq => exact List.nodup_cons.mpr ⟨heq ▸ hnew, hrest⟩
      · next hne =>
        refine List.nodup_cons.mpr ⟨?_, ih hrest⟩
        intro hmem
        obtain ⟨e', he', hkey⟩ := List.mem_map.mp hmem
        rcases mem_put he' with rfl | he'
        · exact hne hkey.symm
        · exact hnew (List.mem_map.mpr ⟨e', he', hkey⟩)
  · intro e he
    rcases mem_put he with rfl | he
    · exact hn
    · exact h.nodes e he

theorem Distinct.erase {es : Entries} (h : es.Distinct) (key : String) :
    (es.erase key).Distinct := by
  have hsublist : (es.erase key).Sublist es := List.filter_sublist
  exact ⟨h.keys.sublist (hsublist.map _), fun e he => h.nodes e (hsublist.subset he)⟩

theorem Distinct.lookup {es : Entries} (h : es.Distinct) {key : String} {n : Node}
    (hn : es.lookup key = some n) : n.Distinct := by
  obtain ⟨before, after, rfl, -⟩ := List.lookup_eq_some_iff.mp hn
  exact h.nodes (key, n) (by simp)

/-- `Keeps f`: where the change `f` goes through, it keeps keys distinct. -/
def Keeps (f : Entries → Option Entries) : Prop :=
  ∀ ⦃es es'⦄, es.Distinct → f es = some es' → es'.Distinct

theorem keeps_addValue (key : String) {v : Value} (hv : v.Distinct) :
    Keeps fun es => es.addValue key v := by
  intro es es' hes h
  dsimp only [addValue] at h
  split at h
  · cases h
  · obtain rfl := Option.some.inj h
    exact hes.put key (.value hv)

theorem changeLast_distinct {f : Entries → Option Entries} (hf : Keeps f)
    {items items' : List Entries} (hitems : ∀ es ∈ items, es.Distinct)
    (h : changeLast f items = some items') : ∀ es ∈ items', es.Distinct := by
  unfold changeLast at h
  split at h
  · next last hlast =>
    obtain ⟨last', hlast', rfl⟩ := Option.map_eq_some_iff.mp h
    intro es hes
    rcases List.mem_append.mp hes with hes | hes
    · exact hitems es (List.dropLast_subset items hes)
    · obtain rfl := List.mem_singleton.mp hes
      exact hf (hitems last (List.mem_of_getLast? hlast)) hlast'
  · cases h

theorem keeps_changeAt {f : Entries → Option Entries} (hf : Keeps f) (path : List String) :
    Keeps (changeAt f path) := by
  induction path with
  | nil => exact hf
  | cons key path ih =>
    intro es es' hes h
    rw [changeAt] at h
    split at h
    · obtain ⟨sub, hsub, rfl⟩ := Option.map_eq_some_iff.mp h
      exact hes.put key ((ih distinct_nil hsub).table _)
    · cases h
    · next origin sub hlookup =>
      obtain ⟨sub', hsub, rfl⟩ := Option.map_eq_some_iff.mp h
      exact hes.put key ((ih (distinct_of_table (hes.lookup hlookup)) hsub).table _)
    · next items hlookup =>
      obtain ⟨items', hitems, rfl⟩ := Option.map_eq_some_iff.mp h
      have hbefore := distinct_of_tables (hes.lookup hlookup)
      exact hes.put key (distinct_tables (changeLast_distinct ih hbefore hitems))

theorem keeps_openTable (key : String) : Keeps (openTable key) := by
  intro es es' hes h
  unfold openTable at h
  split at h
  · obtain rfl := Option.some.inj h
    exact hes.put key (distinct_nil.table _)
  · next sub hlookup =>
    obtain rfl := Option.some.inj h
    exact (hes.erase key).put key ((distinct_of_table (hes.lookup hlookup)).table _)
  · cases h

theorem keeps_openItem (key : String) : Keeps (openItem key) := by
  intro es es' hes h
  unfold openItem at h
  split at h
  · obtain rfl := Option.some.inj h
    exact hes.put key (distinct_tables (by simp [distinct_nil]))
  · next items hlookup =>
    obtain rfl := Option.some.inj h
    refine hes.put key (distinct_tables ?_)
    intro es hes'
    rcases List.mem_append.mp hes' with hes' | hes'
    · exact distinct_of_tables (hes.lookup hlookup) es hes'
    · rw [List.mem_singleton.mp hes']
      exact distinct_nil
  · cases h

theorem keeps_setDotted {v : Value} (hv : v.Distinct) (last : String) (path : List String)
    (origin : Origin) : Keeps (setDotted v last path origin) := by
  induction path generalizing origin with
  | nil =>
    intro es es' hes h
    cases origin with
    | dotted => exact keeps_addValue last hv hes h
    | header => cases h
    | parent => cases h
  | cons key path ih =>
    intro es es' hes h
    rw [setDotted] at h
    split at h
    · obtain ⟨sub, hsub, rfl⟩ := Option.map_eq_some_iff.mp h
      exact hes.put key ((ih .dotted distinct_nil hsub).table _)
    · cases h
    · cases h
    · next origin' sub _ hlookup =>
      obtain ⟨sub', hsub, rfl⟩ := Option.map_eq_some_iff.mp h
      exact hes.put key ((ih origin' (distinct_of_table (hes.lookup hlookup)) hsub).table _)
    · next items hlookup =>
      obtain ⟨items', hitems, rfl⟩ := Option.map_eq_some_iff.mp h
      have hbefore := distinct_of_tables (hes.lookup hlookup)
      exact hes.put key (distinct_tables (changeLast_distinct (ih .header) hbefore hitems))

theorem keeps_setValue (path : List String) (last : String) {v : Value} (hv : v.Distinct) :
    Keeps (setValue path last v) := by
  intro es es' hes h
  unfold setValue at h
  split at h
  · exact keeps_addValue last hv hes h
  · exact keeps_setDotted hv last _ .header hes h

end Entries

/-! ## Finished tables -/

theorem finishEntries_eq (es : Entries) :
    finishEntries es = es.map fun e => (e.1, e.2.finish) := by
  induction es with
  | nil => rfl
  | cons e es ih => rw [finishEntries, ih, List.map_cons]

theorem finishItems_eq (items : List Entries) :
    finishItems items = items.map fun es => .table (finishEntries es) := by
  induction items with
  | nil => rfl
  | cons es items ih => rw [finishItems, ih, List.map_cons]

theorem finishEntries_keys (es : Entries) : (finishEntries es).map (·.1) = es.map (·.1) := by
  rw [finishEntries_eq, List.map_map]
  rfl

theorem mem_finishEntries {es : Entries} {e : String × Value} (h : e ∈ finishEntries es) :
    ∃ n, (e.1, n) ∈ es ∧ e.2 = n.finish := by
  rw [finishEntries_eq] at h
  obtain ⟨e', he', rfl⟩ := List.mem_map.mp h
  exact ⟨e'.2, he', rfl⟩

theorem Node.Distinct.finish {n : Node} (h : n.Distinct) : n.finish.Distinct := by
  induction h with
  | value hv => exact hv
  | @table origin entries hkeys _ ih =>
    refine .table (by rwa [finishEntries_keys]) ?_
    intro e he
    obtain ⟨n, hn, hfinish⟩ := mem_finishEntries he
    rw [hfinish]
    exact ih _ hn
  | @tables items hkeys _ ih =>
    refine .array ?_
    intro v hv
    rw [finishItems_eq] at hv
    obtain ⟨es, hes, rfl⟩ := List.mem_map.mp hv
    refine .table (by rw [finishEntries_keys]; exact hkeys es hes) ?_
    intro e he
    obtain ⟨n, hn, hfinish⟩ := mem_finishEntries he
    rw [hfinish]
    exact ih es hes _ hn

theorem Entries.Distinct.finish {es : Entries} (h : es.Distinct) :
    (Value.table (finishEntries es)).Distinct := (h.table .header).finish

/-! ## Values as they are read -/

/-- `Yields P r`: all that the reader `r` reads has the property `P`. -/
def Yields {α : Type} (P : α → Prop) (r : Reader α) : Prop :=
  ∀ ⦃cs a rest⦄, r cs = some (a, rest) → P a

theorem exists_of_map_read {α β : Type} {f : α → β} {read : Option (α × List Char)} {b : β}
    {rest : List Char} (h : (read.map fun (a, rest) => (f a, rest)) = some (b, rest)) :
    ∃ a, read = some (a, rest) ∧ b = f a := by
  obtain ⟨⟨a, rest'⟩, hread, heq⟩ := Option.map_eq_some_iff.mp h
  obtain ⟨rfl, rfl⟩ := Prod.mk.inj heq
  exact ⟨a, hread, rfl⟩

theorem yields_arrayItems {item : Reader Value} (hitem : Yields Value.Distinct item) (fuel : Nat)
    (more : Bool) : Yields (fun vs => ∀ v ∈ vs, v.Distinct) (arrayItems item fuel more) := by
  induction fuel generalizing more with
  | zero => intro cs vs rest h; cases h
  | succ fuel ih =>
    intro cs vs rest h
    rw [arrayItems] at h
    obtain ⟨cs, -, h⟩ := Option.bind_eq_some_iff.mp h
    split at h
    · obtain ⟨rfl, -⟩ := Prod.mk.inj (Option.some.inj h)
      simp
    · split at h
      · obtain ⟨⟨v, cs⟩, hv, h⟩ := Option.bind_eq_some_iff.mp h
        obtain ⟨cs, -, h⟩ := Option.bind_eq_some_iff.mp h
        -- A comma or not, the items after this one are read in the same way.
        have hrest : ∃ more cs' vs', arrayItems item fuel more cs' = some (vs', rest) ∧
            vs = v :: vs' := by
          split at h
          · exact ⟨_, _, exists_of_map_read h⟩
          · exact ⟨_, _, exists_of_map_read h⟩
        obtain ⟨more', cs', vs', hrest, rfl⟩ := hrest
        exact List.forall_mem_cons.mpr ⟨hitem hv, ih more' hrest⟩
      · cases h

theorem yields_inlinePair {item : Reader Value} (hitem : Yields Value.Distinct item) :
    Yields (fun pair => pair.2.Distinct) (inlinePair item) := by
  intro cs pair rest h
  unfold inlinePair at h
  obtain ⟨⟨k, cs⟩, -, h⟩ := Option.bind_eq_some_iff.mp h
  obtain ⟨cs, -, h⟩ := Option.bind_eq_some_iff.mp h
  obtain ⟨⟨v, cs⟩, hv, heq⟩ := Option.map_eq_some_iff.mp h
  obtain ⟨rfl, -⟩ := Prod.mk.inj heq
  exact hitem hv

theorem yields_inlinePairs {item : Reader Value} (hitem : Yields Value.Distinct item) (fuel : Nat)
    {es : Entries} (hes : es.Distinct) : Yields Entries.Distinct (inlinePairs item fuel es) := by
  induction fuel generalizing es with
  | zero => intro cs es' rest h; cases h
  | succ fuel ih =>
    intro cs es' rest h
    rw [inlinePairs] at h
    obtain ⟨⟨⟨k, v⟩, cs⟩, hpair, h⟩ := Option.bind_eq_some_iff.mp h
    obtain ⟨now, hnow, h⟩ := Option.bind_eq_some_iff.mp h
    have hv : v.Distinct := yields_inlinePair hitem hpair
    have hdistinct := Entries.keeps_setValue k.path k.last hv hes hnow
    split at h
    · exact ih hdistinct h
    · obtain ⟨rfl, -⟩ := Prod.mk.inj (Option.some.inj h)
      exact hdistinct
    · cases h

theorem yields_inlineTable {item : Reader Value} (hitem : Yields Value.Distinct item) :
    Yields Value.Distinct (inlineTable item) := by
  intro cs v rest h
  unfold inlineTable at h
  split at h
  · obtain ⟨rfl, -⟩ := Prod.mk.inj (Option.some.inj h)
    exact .table (by simp) (by simp)
  · obtain ⟨es, hes, rfl⟩ := exists_of_map_read (f := fun es => Value.table (finishEntries es)) h
    exact (yields_inlinePairs hitem _ Entries.distinct_nil hes).finish

theorem yields_numeral : Yields Value.Distinct numeral := by
  intro cs v rest h
  unfold numeral at h
  cases hm : moment cs with
  | some x =>
    rw [hm] at h
    obtain ⟨rfl, -⟩ := Prod.mk.inj (Option.some.inj h)
    exact .moment _
  | none =>
    rw [hm] at h
    cases hr : real cs with
    | some x =>
      rw [hr] at h
      obtain ⟨rfl, -⟩ := Prod.mk.inj (Option.some.inj h)
      exact .real _
    | none =>
      rw [hr] at h
      obtain ⟨n, -, rfl⟩ := exists_of_map_read (f := Value.integer) h
      exact .integer n

theorem yields_value (depth : Nat) : Yields Value.Distinct (value depth) := by
  induction depth using Nat.strongRecOn with
  | _ depth ih =>
    intro cs v rest h
    fun_cases value depth cs
    case case1 | case2 =>
      rw [value] at h
      obtain ⟨s, -, rfl⟩ := exists_of_map_read (f := Value.text) h
      exact .text s
    case case3 | case5 => cases h
    case case4 depth rest' =>
      rw [value] at h
      obtain ⟨vs, hvs, rfl⟩ := exists_of_map_read (f := Value.array) h
      exact .array (yields_arrayItems (ih depth (Nat.lt_succ_self depth)) _ _ hvs)
    case case6 depth rest' =>
      rw [value] at h
      exact yields_inlineTable (ih depth (Nat.lt_succ_self depth)) h
    case case7 | case8 =>
      rw [value] at h
      obtain ⟨rfl, -⟩ := Prod.mk.inj (Option.some.inj h)
      exact .boolean _
    case case9 =>
      rw [value] at h
      · exact yields_numeral h
      all_goals assumption

/-! ## Documents -/

/-- `s.Distinct`: the tables in the value of an assignment have distinct keys. -/
def Statement.Distinct : Statement → Prop
  | .assign _ v => v.Distinct
  | _ => True

theorem yields_statement : Yields Statement.Distinct statement := by
  intro cs s rest h
  unfold statement at h
  split at h
  · obtain ⟨⟨k, cs⟩, -, h⟩ := Option.bind_eq_some_iff.mp h
    obtain ⟨cs, -, h⟩ := Option.bind_eq_some_iff.mp h
    obtain ⟨cs, -, h⟩ := Option.bind_eq_some_iff.mp h
    obtain ⟨rfl, -⟩ := Prod.mk.inj (Option.some.inj h)
    trivial
  · obtain ⟨⟨k, cs⟩, -, h⟩ := Option.bind_eq_some_iff.mp h
    obtain ⟨cs, -, h⟩ := Option.bind_eq_some_iff.mp h
    obtain ⟨cs, -, h⟩ := Option.bind_eq_some_iff.mp h
    obtain ⟨rfl, -⟩ := Prod.mk.inj (Option.some.inj h)
    trivial
  · obtain ⟨⟨k, cs⟩, -, h⟩ := Option.bind_eq_some_iff.mp h
    obtain ⟨cs, -, h⟩ := Option.bind_eq_some_iff.mp h
    obtain ⟨⟨v, cs⟩, hv, h⟩ := Option.bind_eq_some_iff.mp h
    obtain ⟨cs, -, h⟩ := Option.bind_eq_some_iff.mp h
    obtain ⟨rfl, -⟩ := Prod.mk.inj (Option.some.inj h)
    exact yields_value maxDepth hv

theorem statements_distinct {fuel : Nat} {cs : List Char} {lines : List Statement}
    (h : statements fuel cs = some lines) : ∀ s ∈ lines, s.Distinct := by
  induction fuel generalizing cs lines with
  | zero => cases h
  | succ fuel ih =>
    rw [statements] at h
    split at h
    · obtain rfl := Option.some.inj h
      simp
    · split at h
      · obtain ⟨cs, -, h⟩ := Option.bind_eq_some_iff.mp h
        exact ih h
      · obtain ⟨⟨s, rest⟩, hs, h⟩ := Option.bind_eq_some_iff.mp h
        obtain ⟨lines, hlines, rfl⟩ := Option.map_eq_some_iff.mp h
        exact List.forall_mem_cons.mpr ⟨yields_statement hs, ih hlines⟩

/-- Carrying a statement out keeps the keys of all tables distinct. -/
theorem Draft.apply_distinct {d d' : Draft} {s : Statement} (hd : d.root.Distinct)
    (hs : s.Distinct) (h : d.apply s = some d') : d'.root.Distinct := by
  cases s with
  | header k =>
    obtain ⟨root, hroot, rfl⟩ := Option.map_eq_some_iff.mp h
    exact Entries.keeps_changeAt (Entries.keeps_openTable k.last) k.path hd hroot
  | item k =>
    obtain ⟨root, hroot, rfl⟩ := Option.map_eq_some_iff.mp h
    exact Entries.keeps_changeAt (Entries.keeps_openItem k.last) k.path hd hroot
  | assign k v =>
    obtain ⟨root, hroot, rfl⟩ := Option.map_eq_some_iff.mp h
    exact Entries.keeps_changeAt (Entries.keeps_setValue k.path k.last hs) d.current hd hroot

theorem Draft.foldlM_distinct {lines : List Statement} {d d' : Draft} (hd : d.root.Distinct)
    (hlines : ∀ s ∈ lines, s.Distinct) (h : lines.foldlM Draft.apply d = some d') :
    d'.root.Distinct := by
  induction lines generalizing d with
  | nil =>
    obtain rfl := Option.some.inj h
    exact hd
  | cons s lines ih =>
    obtain ⟨hs, hlines⟩ := List.forall_mem_cons.mp hlines
    rw [List.foldlM_cons] at h
    obtain ⟨next, hnext, h⟩ := Option.bind_eq_some_iff.mp h
    exact ih (apply_distinct hd hs hnext) hlines h

theorem parse?_eq_some {text : String} {lines : List Statement} {draft : Draft}
    (hlines : statements ((dropMark text.toList).length + 1) (dropMark text.toList) = some lines)
    (hdraft : lines.foldlM Draft.apply ⟨[], []⟩ = some draft) :
    parse? text = some (finishEntries draft.root) := by
  rw [parse?, hlines, Option.bind_eq_bind, Option.bind_some, hdraft]
  rfl

/-- The table of a document has distinct keys, and so have all tables in it. -/
theorem parse?_distinct {text : String} {t : Table} (h : parse? text = some t) :
    (Value.table t).Distinct := by
  unfold parse? at h
  obtain ⟨lines, hlines, h⟩ := Option.bind_eq_some_iff.mp h
  obtain ⟨draft, hdraft, h⟩ := Option.bind_eq_some_iff.mp h
  obtain rfl := Option.some.inj h
  have hroot : draft.root.Distinct :=
    Draft.foldlM_distinct Entries.distinct_nil (statements_distinct hlines) hdraft
  exact hroot.finish

end CallAdvice.Toml
