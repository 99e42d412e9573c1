import CallAdvice.Config
import CallAdvice.Proofs.Selection.Configured
import CallAdvice.Proofs.Toml.Distinct

/-! What a configuration file loads as, for every content: the bytes are no text, or the text is no
document of the right shape, or there is a configuration (`load_classified`). Only the entry
`capabilities` of a document decides whether it has the right shape: nothing that stands under
`warnings` is refused. Of the reader of documents no more is known than that tables have distinct
keys (`Reader.Lawful`) and that it hands over a value as it is (`Reader.HandsOver`). -/
set_option autoImplicit false

namespace CallAdvice

/-! ## Entries with distinct keys -/

namespace NameMap

variable {α : Type}

theorem place_perm (x : String) (a : α) {ys : List (String × α)} (h : x ∉ ys.map (·.1)) :
    (place x a ys).Perm ((x, a) :: ys) := by
  induction ys with
  | nil => exact .refl _
  | cons y ys ih =>
    rw [List.map_cons, List.mem_cons, not_or] at h
    rw [place, if_neg h.1]
    split
    · exact .refl _
    · exact ((ih h.2).cons y).trans (.swap ..)

theorem foldl_insert_perm (xs : List (String × α)) (m : NameMap α)
    (h : ((m.entries ++ xs).map (·.1)).Nodup) :
    (xs.foldl (fun m x => m.insert x.1 x.2) m).entries.Perm (m.entries ++ xs) := by
  induction xs generalizing m with
  | nil => simp
  | cons x xs ih =>
    have hmiddle : (m.entries ++ x :: xs).Perm (x :: (m.entries ++ xs)) := List.perm_middle
    have hnew : x.1 ∉ m.entries.map (·.1) := by
      intro hmem
      refine (List.nodup_cons.mp ((hmiddle.map (·.1)).nodup_iff.mp h)).1 ?_
      rw [List.map_append]
      exact List.mem_append_left _ hmem
    have hinsert : ((m.insert x.1 x.2).entries ++ xs).Perm (m.entries ++ x :: xs) :=
      ((place_perm x.1 x.2 hnew).append_right xs).trans hmiddle.symm
    exact (ih _ ((hinsert.map (·.1)).nodup_iff.mpr h)).trans hinsert

/-- The map of entries with distinct keys has just these entries. -/
theorem ofList_perm {xs : List (String × α)} (h : (xs.map (·.1)).Nodup) :
    (ofList xs).entries.Perm xs := foldl_insert_perm xs .empty h

end NameMap

namespace Toml

theorem Value.Distinct.keys {t : Table} (h : (Value.table t).Distinct) : (t.map (·.1)).Nodup := by
  cases h with
  | table hkeys _ => exact hkeys

theorem Value.Distinct.mem {t : Table} (h : (Value.table t).Distinct) {e : String × Value}
    (he : e ∈ t) : e.2.Distinct := by
  cases h with
  | table _ hvalues => exact hvalues e he

theorem lookup_eq_some_iff_mem {t : Table} (h : (Value.table t).Distinct) {key : String}
    {v : Value} : t.lookup key = some v ↔ (key, v) ∈ t := by
  have hkeys := h.keys
  clear h
  induction t with
  | nil => simp
  | cons e t ih =>
    obtain ⟨hnew, hrest⟩ := List.nodup_cons.mp hkeys
    rw [List.lookup_cons, List.mem_cons]
    by_cases hkey : key = e.1
    · subst hkey
      have hnot : (e.1, v) ∉ t := fun hmem => hnew (List.mem_map.mpr ⟨_, hmem, rfl⟩)
      simp [hnot, Prod.ext_iff, eq_comm]
    · have hne : (key, v) ≠ e := fun heq => hkey (congrArg Prod.fst heq)
      simp [beq_false_of_ne hkey, ih hrest, hne]

theorem lookup_eq_none_iff {t : Table} (h : (Value.table t).Distinct) {key : String} :
    t.lookup key = none ↔ ∀ v, (key, v) ∉ t := by
  rw [Option.eq_none_iff_forall_ne_some]
  exact forall_congr' fun v => not_congr (lookup_eq_some_iff_mem h)

/-! ## Values without marked tables -/

/-- `v.Unmarked`: no table in the value begins with the marker of dates and times. -/
inductive Value.Unmarked : Value → Prop where
  | text (s : String) : Unmarked (.text s)
  | integer (n : Int) : Unmarked (.integer n)
  | real (r : Real) : Unmarked (.real r)
  | boolean (b : Bool) : Unmarked (.boolean b)
  | moment (m : Moment) : Unmarked (.moment m)
  | array {items : List Value} (h : ∀ v ∈ items, v.Unmarked) : Unmarked (.array items)
  | table {entries : Table} (hmarked : marked? entries = none)
      (h : ∀ e ∈ entries, e.2.Unmarked) : Unmarked (.table entries)

theorem unmarkItems?_of_forall {items : List Value} (h : ∀ v ∈ items, v.unmark? = some v) :
    unmarkItems? items = some items := by
  induction items with
  | nil => rfl
  | cons v items ih =>
    obtain ⟨hv, hitems⟩ := List.forall_mem_cons.mp h
    rw [unmarkItems?, hv, Option.bind_some, ih hitems, Option.map_some]

theorem unmarkEntries?_of_forall {entries : Table} (h : ∀ e ∈ entries, e.2.unmark? = some e.2) :
    unmarkEntries? entries = some entries := by
  induction entries with
  | nil => rfl
  | cons e entries ih =>
    obtain ⟨he, hentries⟩ := List.forall_mem_cons.mp h
    rw [unmarkEntries?, he, Option.bind_some, ih hentries, Option.map_some]

/-- Only marked tables are handed over as something else. -/
theorem Value.Unmarked.unmark? {v : Value} (h : v.Unmarked) : v.unmark? = some v := by
  induction h with
  | array _ ih => rw [Value.unmark?, unmarkItems?_of_forall ih, Option.map_some]
  | table hmarked _ ih => rw [Value.unmark?, hmarked, unmarkEntries?_of_forall ih]; rfl
  | _ => rfl

end Toml

namespace Config

/-! ## Tables of truth values -/

/-- `IsTruthTable v`: `v` is a table in which every value is a truth value. -/
def IsTruthTable (v : Toml.Value) : Prop :=
  ∃ entries, v = .table entries ∧ ∀ e ∈ entries, ∃ b, e.2 = .boolean b

/-- The table that pins values as the entries of a map do. -/
def tableOf (pins : List (String × Bool)) : Toml.Table := pins.map fun e => (e.1, .boolean e.2)

theorem boolean?_eq_some_iff {v : Toml.Value} {b : Bool} :
    v.boolean? = some b ↔ v = .boolean b := by
  cases v <;> simp [Toml.Value.boolean?]

theorem mapM_boolean?_eq_some_iff {entries : Toml.Table} {pins : List (String × Bool)} :
    (entries.mapM fun (e : String × Toml.Value) => e.2.boolean?.map (e.1, ·)) = some pins ↔
      entries = tableOf pins := by
  refine mapM_eq_some_iff ?_
  rintro ⟨x, v⟩ ⟨y, b⟩
  constructor
  · intro h
    obtain ⟨b', hb, hpin⟩ := Option.map_eq_some_iff.mp h
    obtain ⟨rfl, rfl⟩ := Prod.mk.inj hpin
    exact congrArg (x, ·) (boolean?_eq_some_iff.mp hb)
  · rintro ⟨rfl, rfl⟩
    rfl

theorem isTruthTable_iff {v : Toml.Value} : IsTruthTable v ↔ ∃ pins, v = .table (tableOf pins) := by
  constructor
  · rintro ⟨entries, rfl, h⟩
    induction entries with
    | nil => exact ⟨[], rfl⟩
    | cons e entries ih =>
      obtain ⟨⟨b, hb⟩, hrest⟩ := List.forall_mem_cons.mp h
      obtain ⟨pins, hpins⟩ := ih hrest
      refine ⟨(e.1, b) :: pins, ?_⟩
      rw [Toml.Value.table.inj hpins, tableOf, tableOf, List.map_cons, ← hb]
  · rintro ⟨pins, rfl⟩
    refine ⟨_, rfl, ?_⟩
    intro e he
    obtain ⟨e', -, rfl⟩ := List.mem_map.mp he
    exact ⟨e'.2, rfl⟩

theorem pinsOf?_eq_some_iff {v : Toml.Value} {m : NameMap Bool} :
    pinsOf? v = some m ↔ ∃ pins, v = .table (tableOf pins) ∧ .ofList pins = m := by
  cases v with
  | table entries =>
    rw [pinsOf?, Option.map_eq_some_iff]
    simp only [mapM_boolean?_eq_some_iff, Toml.Value.table.injEq]
  | _ => simp [pinsOf?]

theorem exists_pinsOf?_iff {v : Toml.Value} : (∃ m, pinsOf? v = some m) ↔ IsTruthTable v := by
  rw [isTruthTable_iff]
  constructor
  · rintro ⟨m, hm⟩
    obtain ⟨pins, rfl, -⟩ := pinsOf?_eq_some_iff.mp hm
    exact ⟨pins, rfl⟩
  · rintro ⟨pins, rfl⟩
    exact ⟨.ofList pins, pinsOf?_eq_some_iff.mpr ⟨pins, rfl, rfl⟩⟩

/-! ## Readers and contents -/

namespace Reader

variable {reader : Reader}

/-- `reader.Lawful`: a text is no document, or it describes a table with distinct keys, as are those
of the tables in it. -/
def Lawful (reader : Reader) : Prop :=
  ∀ text t, reader.table? text = some t → (Toml.Value.table t).Distinct

/-- `reader.Describes bytes t`: the bytes are a text, and as a document it describes the table
`t`. -/
def Describes (reader : Reader) (bytes : ByteArray) (t : Toml.Table) : Prop :=
  ∃ text : String, text.toUTF8 = bytes ∧ reader.table? text = some t

/-- `reader.HandsOver bytes`: what stands under `warnings` is handed over as that value. -/
def HandsOver (reader : Reader) (bytes : ByteArray) : Prop :=
  ∀ t v, reader.Describes bytes t → ("warnings", v) ∈ t → reader.handed? v = some v

theorem Describes.distinct {bytes : ByteArray} {t : Toml.Table} (h : reader.Describes bytes t)
    (hreader : reader.Lawful) : (Toml.Value.table t).Distinct := by
  obtain ⟨text, -, htable⟩ := h
  exact hreader text t htable

theorem Describes.unique {bytes : ByteArray} {t t' : Toml.Table} (h : reader.Describes bytes t)
    (h' : reader.Describes bytes t') : t = t' := by
  obtain ⟨text, rfl, htable⟩ := h
  obtain ⟨text', htext, htable'⟩ := h'
  rw [String.toByteArray_inj.mp htext] at htable'
  exact Option.some.inj (htable.symm.trans htable')

end Reader

theorem Reader.toml_lawful : Reader.toml.Lawful := fun _ _ h => Toml.parse?_distinct h

/-- The reader in use hands over a value without marked tables. -/
theorem Reader.toml_handsOver {text : String} {t : Toml.Table} (hparse : Toml.parse? text = some t)
    (h : ∀ v, ("warnings", v) ∈ t → v.Unmarked) : Reader.toml.HandsOver text.toUTF8 := by
  intro t' v ht' hv
  obtain rfl := Reader.Describes.unique ⟨text, rfl, hparse⟩ ht'
  exact (h v hv).unmark?

/-- `c.IsIn t`: the configuration `c` is that in the table `t`, with all warnings and no pinned
values where it has no entry for them. -/
structure IsIn (c : Config) (t : Toml.Table) : Prop where
  warnings : ∀ v, ("warnings", v) ∈ t → c.warnings = .ofValue v
  noWarnings : (∀ v, ("warnings", v) ∉ t) → c.warnings = .all
  pins : ∀ entries, ("capabilities", .table entries) ∈ t → entries.Perm (tableOf c.pins.entries)
  noPins : (∀ v, ("capabilities", v) ∉ t) → c.pins = .empty

theorem fromUTF8?_toUTF8 (text : String) : String.fromUTF8? text.toUTF8 = some text := by
  rw [String.fromUTF8?, String.toUTF8_eq_toByteArray, dif_pos text.isValidUTF8]
  rfl

theorem exists_toUTF8 {bytes : ByteArray} (h : bytes.IsValidUTF8) :
    ∃ text : String, text.toUTF8 = bytes := ⟨String.fromUTF8 bytes h, rfl⟩

/-! ## What is in a table -/

/-- The selection that a table's entry for warnings stands for, all warnings without one. -/
def warningsIn (t : Toml.Table) : Selection := (t.lookup "warnings").elim .all .ofValue

/-- The pinned values of a table's entry for capabilities, none without one. -/
def pinsIn? (t : Toml.Table) : Option (NameMap Bool) :=
  (t.lookup "capabilities").elim (some .empty) pinsOf?

theorem ofTable?_eq {reader : Reader} {t : Toml.Table}
    (h : ∀ v, t.lookup "warnings" = some v → reader.handed? v = some v) :
    ofTable? reader t = (pinsIn? t).map (⟨warningsIn t, ·⟩) := by
  unfold ofTable? warningsIn pinsIn?
  cases hwarnings : t.lookup "warnings" with
  | none =>
    cases t.lookup "capabilities" with
    | none => rfl
    | some caps => exact Option.map_eq_bind.symm
  | some v =>
    have hselection : selectionOf? reader v = some (.ofValue v) := by
      rw [selectionOf?, h v hwarnings]
      rfl
    dsimp only
    rw [hselection]
    cases t.lookup "capabilities" with
    | none => rfl
    | some caps => exact Option.map_eq_bind.symm

theorem pinsIn?_eq_none_iff {t : Toml.Table} (ht : (Toml.Value.table t).Distinct) :
    pinsIn? t = none ↔ ∃ v, ("capabilities", v) ∈ t ∧ ¬ IsTruthTable v := by
  constructor
  · intro h
    cases hlookup : t.lookup "capabilities" with
    | none =>
      rw [pinsIn?, hlookup] at h
      cases h
    | some v =>
      rw [pinsIn?, hlookup] at h
      refine ⟨v, (Toml.lookup_eq_some_iff_mem ht).mp hlookup, ?_⟩
      rw [← exists_pinsOf?_iff]
      rintro ⟨m, hm⟩
      exact absurd (h.symm.trans hm) (by simp)
  · rintro ⟨v, hv, hnot⟩
    rw [pinsIn?, (Toml.lookup_eq_some_iff_mem ht).mpr hv]
    rw [← exists_pinsOf?_iff] at hnot
    exact Option.eq_none_iff_forall_ne_some.mpr (not_exists.mp hnot)

theorem isIn_of_pinsIn? {t : Toml.Table} {pins : NameMap Bool}
    (ht : (Toml.Value.table t).Distinct) (h : pinsIn? t = some pins) :
    IsIn ⟨warningsIn t, pins⟩ t where
  warnings v hv := by
    show warningsIn t = _
    rw [warningsIn, (Toml.lookup_eq_some_iff_mem ht).mpr hv]
    rfl
  noWarnings hnone := by
    show warningsIn t = _
    rw [warningsIn, (Toml.lookup_eq_none_iff ht).mpr hnone]
    rfl
  pins entries hv := by
    rw [pinsIn?, (Toml.lookup_eq_some_iff_mem ht).mpr hv, Option.elim_some] at h
    obtain ⟨listed, hlisted, rfl⟩ := pinsOf?_eq_some_iff.mp h
    obtain rfl := Toml.Value.table.inj hlisted
    have hkeys : (listed.map (·.1)).Nodup := by
      have h := (ht.mem hv).keys
      rwa [tableOf, List.map_map] at h
    exact ((NameMap.ofList_perm hkeys).map _).symm
  noPins hnone := by
    rw [pinsIn?, (Toml.lookup_eq_none_iff ht).mpr hnone] at h
    exact (Option.some.inj h).symm

/-! ## Loading a file -/

section File

variable {reader : Reader} {files : Files} {p : String} {bytes : ByteArray}

theorem loadFile_of_not_isValidUTF8 (hfile : files p = .content bytes) (h : ¬ bytes.IsValidUTF8) :
    loadFile reader files p = .error (.unreadable p .notText) := by
  have hread : readText (.content bytes) = .error .notText := by
    rw [readText, String.fromUTF8?, dif_neg h]
  rw [loadFile, hfile, hread]

theorem loadFile_toUTF8 {text : String} (hfile : files p = .content text.toUTF8) :
    loadFile reader files p = (ofText? reader text).elim (.error (.invalid p)) .ok := by
  have hread : readText (.content text.toUTF8) = .ok text := by
    rw [readText, fromUTF8?_toUTF8]
  unfold loadFile
  rw [hfile, hread]
  dsimp only
  cases ofText? reader text <;> rfl

theorem Reader.Describes.loadFile {t : Toml.Table} (h : reader.Describes bytes t)
    (hreader : reader.Lawful) (hhands : reader.HandsOver bytes) (hfile : files p = .content bytes) :
    loadFile reader files p =
      (pinsIn? t).elim (.error (.invalid p)) fun pins => .ok ⟨warningsIn t, pins⟩ := by
  have hwarnings : ∀ v, t.lookup "warnings" = some v → reader.handed? v = some v :=
    fun v hv => hhands t v h ((Toml.lookup_eq_some_iff_mem (h.distinct hreader)).mp hv)
  obtain ⟨text, rfl, htable⟩ := h
  rw [loadFile_toUTF8 hfile, ofText?, htable, Option.bind_some, ofTable?_eq hwarnings]
  cases pinsIn? t <;> rfl

theorem loadFile_of_not_describes (hfile : files p = .content bytes) (hvalid : bytes.IsValidUTF8)
    (h : ∀ t, ¬ reader.Describes bytes t) : loadFile reader files p = .error (.invalid p) := by
  obtain ⟨text, rfl⟩ := exists_toUTF8 hvalid
  have htable : reader.table? text = none :=
    Option.eq_none_iff_forall_ne_some.mpr fun t ht => h t ⟨text, rfl, ht⟩
  rw [loadFile_toUTF8 hfile, ofText?, htable]
  rfl

theorem loadFile_eq_unreadable_iff (hfile : files p = .content bytes) (q : String)
    (fault : ReadFault) :
    loadFile reader files p = .error (.unreadable q fault) ↔
      ¬ bytes.IsValidUTF8 ∧ q = p ∧ fault = .notText := by
  by_cases hvalid : bytes.IsValidUTF8
  · have hnot : loadFile reader files p ≠ .error (.unreadable q fault) := by
      obtain ⟨text, rfl⟩ := exists_toUTF8 hvalid
      rw [loadFile_toUTF8 hfile]
      cases ofText? reader text <;> simp
    exact iff_of_false hnot fun h => h.1 hvalid
  · rw [loadFile_of_not_isValidUTF8 hfile hvalid]
    simp [hvalid, eq_comm]

theorem Reader.Describes.loadFile_eq_invalid_iff {t : Toml.Table} (h : reader.Describes bytes t)
    (hreader : reader.Lawful) (hhands : reader.HandsOver bytes) (hfile : files p = .content bytes)
    {q : String} :
    Config.loadFile reader files p = .error (.invalid q) ↔
      q = p ∧ ∃ v, ("capabilities", v) ∈ t ∧ ¬ IsTruthTable v := by
  rw [h.loadFile hreader hhands hfile, ← pinsIn?_eq_none_iff (h.distinct hreader)]
  cases pinsIn? t <;> simp [eq_comm]

theorem loadFile_eq_invalid_iff (hreader : reader.Lawful) (hhands : reader.HandsOver bytes)
    (hfile : files p = .content bytes) (q : String) :
    loadFile reader files p = .error (.invalid q) ↔
      bytes.IsValidUTF8 ∧ q = p ∧ ((∀ t, ¬ reader.Describes bytes t) ∨
        ∃ t v, reader.Describes bytes t ∧ ("capabilities", v) ∈ t ∧ ¬ IsTruthTable v) := by
  by_cases hvalid : bytes.IsValidUTF8
  · by_cases hdescribes : ∃ t, reader.Describes bytes t
    · obtain ⟨t, ht⟩ := hdescribes
      rw [ht.loadFile_eq_invalid_iff hreader hhands hfile]
      constructor
      · rintro ⟨rfl, v, hv, hnot⟩
        exact ⟨hvalid, rfl, .inr ⟨t, v, ht, hv, hnot⟩⟩
      · rintro ⟨-, rfl, hnone | ⟨t', v, ht', hv, hnot⟩⟩
        · exact absurd ht (hnone t)
        · obtain rfl := ht.unique ht'
          exact ⟨rfl, v, hv, hnot⟩
    · have hnone := not_exists.mp hdescribes
      rw [loadFile_of_not_describes hfile hvalid hnone]
      simp [hvalid, hnone, eq_comm]
  · rw [loadFile_of_not_isValidUTF8 hfile hvalid]
    simp [hvalid]

theorem exists_loadFile_of_isTruthTable {t : Toml.Table} (ht : reader.Describes bytes t)
    (hreader : reader.Lawful) (hhands : reader.HandsOver bytes) (hfile : files p = .content bytes)
    (htruth : ∀ v, ("capabilities", v) ∈ t → IsTruthTable v) :
    ∃ config, loadFile reader files p = .ok config ∧ config.IsIn t := by
  have hsome : pinsIn? t ≠ none := by
    rw [Ne, pinsIn?_eq_none_iff (ht.distinct hreader)]
    rintro ⟨v, hv, hnot⟩
    exact hnot (htruth v hv)
  obtain ⟨pins, hpins⟩ := Option.ne_none_iff_exists'.mp hsome
  exact ⟨_, by rw [ht.loadFile hreader hhands hfile, hpins]; rfl,
    isIn_of_pinsIn? (ht.distinct hreader) hpins⟩

/-- Besides the reader, only the entry `capabilities` has a part in the pinned values. -/
theorem loadFile_pins_congr {files' : Files} {bytes' : ByteArray} {t t' : Toml.Table}
    (hreader : reader.Lawful) (ht : reader.Describes bytes t) (ht' : reader.Describes bytes' t')
    (hhands : reader.HandsOver bytes) (hhands' : reader.HandsOver bytes')
    (hfile : files p = .content bytes) (hfile' : files' p = .content bytes')
    (hsame : ∀ v, ("capabilities", v) ∈ t ↔ ("capabilities", v) ∈ t') :
    (loadFile reader files p).map pins = (loadFile reader files' p).map pins := by
  have hlookup : t.lookup "capabilities" = t'.lookup "capabilities" := by
    refine Option.ext fun v => ?_
    rw [Toml.lookup_eq_some_iff_mem (ht.distinct hreader),
      Toml.lookup_eq_some_iff_mem (ht'.distinct hreader)]
    exact hsame v
  have hpins : pinsIn? t = pinsIn? t' := by rw [pinsIn?, pinsIn?, hlookup]
  rw [ht.loadFile hreader hhands hfile, ht'.loadFile hreader hhands' hfile', hpins]
  cases pinsIn? t' <;> rfl

end File

/-! ## The file of a project -/

theorem joinPath_eq (base name : String) :
    joinPath base name =
      base ++ (if base = "" ∨ base.toList.getLast? = some '/' then "" else "/") ++ name := by
  unfold joinPath
  split
  · next hlast =>
    obtain rfl : base = "" := String.toList_eq_nil_iff.mp (List.getLast?_eq_none_iff.mp hlast)
    simp
  · next c hlast =>
    have hne : base ≠ "" := by
      rintro rfl
      cases hlast
    by_cases hc : c = '/' <;> simp [hlast, hne, hc]

theorem path_eq (root : String) :
    path root = root ++ (if root = "" ∨ root.toList.getLast? = some '/' then "" else "/") ++
      ".simplify/config.toml" := by
  have hdirectory : ∀ s : String, joinPath (s ++ ".simplify") "config.toml" =
      s ++ ".simplify/config.toml" := by
    intro s
    have hend : ¬(s ++ ".simplify" = "" ∨ (s ++ ".simplify").toList.getLast? = some '/') := by
      simp [List.getLast?_append]
    rw [joinPath_eq, if_neg hend, String.append_assoc, String.append_assoc]
    rfl
  rw [path, joinPath_eq root, hdirectory]

/-- `file.Absent`: there is nothing at the path, or nothing that can be told. -/
inductive File.Absent : File → Prop where
  | missing : Absent .missing
  | blocked : Absent .blocked
  | hidden : Absent .hidden

theorem File.exists_eq_false_iff {file : File} : file.exists = false ↔ file.Absent := by
  constructor
  · intro h
    cases file with
    | missing => exact .missing
    | blocked => exact .blocked
    | hidden => exact .hidden
    | directory | locked | content => cases h
  · intro h
    cases h <;> rfl

theorem File.Absent.readText {file : File} (h : file.Absent) :
    ∃ fault, readText file = .error fault := by
  cases h <;> exact ⟨_, rfl⟩

section Project

variable {reader : Reader} {files : Files} {root : String}

theorem load_of_absent (h : (files (path root)).Absent) :
    load reader files root = .ok ⟨.all, .empty⟩ := by
  have hnot : ¬(files (path root)).exists = true := by
    rw [File.exists_eq_false_iff.mpr h]
    exact Bool.false_ne_true
  rw [load, if_neg hnot, default]

theorem load_of_not_absent (h : ¬(files (path root)).Absent) :
    load reader files root = loadFile reader files (path root) := by
  rw [← File.exists_eq_false_iff, Bool.not_eq_false] at h
  rw [load, if_pos h]

/-- The defaults stand in for nothing that could be read. -/
theorem loadFile_of_absent (h : (files (path root)).Absent) :
    ∃ fault, loadFile reader files (path root) = .error (.unreadable (path root) fault) := by
  obtain ⟨fault, hread⟩ := h.readText
  exact ⟨fault, by rw [loadFile, hread]⟩

theorem load_congr {files' : Files} (h : files' (path root) = files (path root)) :
    load reader files' root = load reader files root := by
  rw [load, load, loadFile, loadFile, h]

end Project

/-- Every content of a configuration file, for a reader of documents of which no more is known than
that tables have distinct keys and that the value under `warnings` is handed over as it is. The file
cannot be read exactly if its bytes are no text; it is invalid exactly if they are a text that is no
document, or one whose `capabilities` are no table of truth values; otherwise loading gives the
configuration in the document. Errors name the file. So two documents with the same `capabilities`
load with the same pinned values, or are both invalid, whatever else stands in them. The
configuration of a project is that of the file `config.toml` in the directory `.simplify` beneath
its root, and depends on no other file: what is there loads in this way, and if nothing is, so that
there is nothing to read, the defaults hold. -/
theorem load_classified {reader : Reader} (hreader : reader.Lawful) (files : Files) {p : String}
    {bytes : ByteArray} (hfile : files p = .content bytes) (hhands : reader.HandsOver bytes) :
    (∀ q fault, loadFile reader files p = .error (.unreadable q fault) ↔
      ¬ bytes.IsValidUTF8 ∧ q = p ∧ fault = .notText) ∧
    (∀ q, loadFile reader files p = .error (.invalid q) ↔
      bytes.IsValidUTF8 ∧ q = p ∧ ((∀ t, ¬ reader.Describes bytes t) ∨
        ∃ t v, reader.Describes bytes t ∧ ("capabilities", v) ∈ t ∧ ¬ IsTruthTable v)) ∧
    (∀ t, reader.Describes bytes t → (∀ v, ("capabilities", v) ∈ t → IsTruthTable v) →
      ∃ config, loadFile reader files p = .ok config ∧ config.IsIn t) ∧
    (∀ files' bytes' t t', files' p = .content bytes' → reader.HandsOver bytes' →
      reader.Describes bytes t → reader.Describes bytes' t' →
      (∀ v, ("capabilities", v) ∈ t ↔ ("capabilities", v) ∈ t') →
      (loadFile reader files p).map pins = (loadFile reader files' p).map pins) ∧
    ∀ root,
      path root = root ++ (if root = "" ∨ root.toList.getLast? = some '/' then "" else "/") ++
        ".simplify/config.toml" ∧
      ((files (path root)).Absent → load reader files root = .ok ⟨.all, .empty⟩ ∧
        ∃ fault, loadFile reader files (path root) = .error (.unreadable (path root) fault)) ∧
      (¬(files (path root)).Absent →
        load reader files root = loadFile reader files (path root)) ∧
      ∀ files', files' (path root) = files (path root) →
        load reader files' root = load reader files root := by
  refine ⟨loadFile_eq_unreadable_iff hfile, loadFile_eq_invalid_iff hreader hhands hfile, ?_, ?_,
    ?_⟩
  · intro t ht htruth
    exact exists_loadFile_of_isTruthTable ht hreader hhands hfile htruth
  · intro files' bytes' t t' hfile' hhands' ht ht' hsame
    exact loadFile_pins_congr hreader ht ht' hhands hhands' hfile hfile' hsame
  · intro root
    exact ⟨path_eq root, fun h => ⟨load_of_absent h, loadFile_of_absent h⟩, load_of_not_absent,
      fun files' => load_congr⟩

/-- A project whose file switches warnings off and has a further key, another file with the same
`capabilities` and a date under `warnings`, and a project without a file. -/
theorem load_classified_of_two :
    let silent := "warnings = false\nx = [true]\n[capabilities]\na = true"
    let dated := "warnings = 1979-05-27\n[capabilities]\na = true"
    let file := "project/.simplify/config.toml"
    let files (text : String) : Files := fun p =>
      if p = file then .content text.toUTF8 else .missing
    Reader.toml.Lawful ∧ files silent file = .content silent.toUTF8 ∧
      Reader.toml.HandsOver silent.toUTF8 ∧ Reader.toml.HandsOver dated.toUTF8 ∧
      load .toml (files silent) "elsewhere" = .ok ⟨.all, .empty⟩ ∧
      ∃ config, load .toml (files silent) "project" = .ok config ∧ config.warnings = .none ∧
        (tableOf config.pins.entries).Perm [("a", .boolean true)] ∧
        (loadFile .toml (files dated) file).map pins = .ok config.pins := by
  intro silent dated file files
  have hsilent : Toml.parse? silent = some [("warnings", .boolean false),
      ("x", .array [.boolean true]), ("capabilities", .table [("a", .boolean true)])] := by
    have hlines : Toml.statements ((Toml.dropMark silent.toList).length + 1)
        (Toml.dropMark silent.toList) =
          some [.assign ⟨[], "warnings"⟩ (.boolean false),
            .assign ⟨[], "x"⟩ (.array [.boolean true]), .header ⟨[], "capabilities"⟩,
            .assign ⟨[], "a"⟩ (.boolean true)] := by
      unfold silent
      rfl
    exact Toml.parse?_eq_some hlines rfl
  have hdated : Toml.parse? dated = some [("warnings", .moment (.date ⟨1979, 5, 27⟩)),
      ("capabilities", .table [("a", .boolean true)])] := by
    have hlines : Toml.statements ((Toml.dropMark dated.toList).length + 1)
        (Toml.dropMark dated.toList) =
          some [.assign ⟨[], "warnings"⟩ (.moment (.date ⟨1979, 5, 27⟩)),
            .header ⟨[], "capabilities"⟩, .assign ⟨[], "a"⟩ (.boolean true)] := by
      unfold dated
      rfl
    exact Toml.parse?_eq_some hlines rfl
  have hhandsSilent : Reader.toml.HandsOver silent.toUTF8 :=
    Reader.toml_handsOver hsilent (by simp [Toml.Value.Unmarked.boolean])
  have hhandsDated : Reader.toml.HandsOver dated.toUTF8 :=
    Reader.toml_handsOver hdated (by simp [Toml.Value.Unmarked.moment])
  have hfile : ∀ text, files text file = .content text.toUTF8 := fun text => if_pos rfl
  have htruth : IsTruthTable (.table [("a", .boolean true)]) :=
    isTruthTable_iff.mpr ⟨[("a", true)], rfl⟩
  obtain ⟨-, -, hok, hsame, hproject⟩ :=
    load_classified Reader.toml_lawful (files silent) (hfile silent) hhandsSilent
  obtain ⟨config, hconfig, hin⟩ := hok _ ⟨silent, rfl, hsilent⟩ (by simp [htruth])
  have hpins := hsame (files dated) _ _ _ (hfile dated) hhandsDated ⟨silent, rfl, hsilent⟩
    ⟨dated, rfl, hdated⟩ (by simp)
  have hload : load .toml (files silent) "project" = .ok config := by
    obtain ⟨hpath, -, hthere, -⟩ := hproject "project"
    have hfound : path "project" = file := hpath.trans (by decide)
    rw [hfound, hfile] at hthere
    exact (hthere nofun).trans hconfig
  have hdefault : load .toml (files silent) "elsewhere" = .ok ⟨.all, .empty⟩ := by
    obtain ⟨hpath, habsent, -, -⟩ := hproject "elsewhere"
    have hne : path "elsewhere" ≠ file := by
      rw [hpath]
      decide
    have hmissing : files silent (path "elsewhere") = .missing := if_neg hne
    rw [hmissing] at habsent
    exact (habsent .missing).1
  rw [hconfig] at hpins
  have hwarnings : config.warnings = .none := hin.warnings (.boolean false) (by simp)
  exact ⟨Reader.toml_lawful, hfile silent, hhandsSilent, hhandsDated, hdefault, config, hload,
    hwarnings, (hin.pins _ (by simp)).symm, hpins.symm⟩

end Config

end CallAdvice
