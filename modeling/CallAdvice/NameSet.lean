/-! Finite sets and maps of names. Both are kept in strictly increasing code point order, so two of
them are equal exactly when they hold the same names, and a listing needs no further sorting. -/
set_option autoImplicit false

namespace CallAdvice

/-- A finite set of names, listed in strictly increasing order. -/
structure NameSet where
  names : List String
  /-- The listing is strictly increasing. -/
  increasing : names.Pairwise (· < ·)
  deriving DecidableEq

namespace NameSet

/-! ## Insertion into an increasing list -/

/-- Puts a name at its place in an increasing list, unless it is there already. -/
def place (x : String) : List String → List String
  | [] => [x]
  | y :: ys => if x < y then x :: y :: ys else if x = y then y :: ys else y :: place x ys

theorem mem_place (x z : String) (ys : List String) : z ∈ place x ys ↔ z = x ∨ z ∈ ys := by
  induction ys with
  | nil => simp [place]
  | cons y ys ih =>
    rw [place]
    split
    · simp
    · split
      · next h => subst h; simp
      · simp only [List.mem_cons, ih]
        constructor
        · rintro (h | h | h) <;> simp [h]
        · rintro (h | h | h) <;> simp [h]

theorem pairwise_place (x : String) {ys : List String} (h : ys.Pairwise (· < ·)) :
    (place x ys).Pairwise (· < ·) := by
  induction ys with
  | nil => simp [place]
  | cons y ys ih =>
    obtain ⟨hy, hys⟩ := List.pairwise_cons.mp h
    rw [place]
    split
    · next hxy =>
      refine List.pairwise_cons.mpr ⟨fun z hz => ?_, h⟩
      rcases List.mem_cons.mp hz with rfl | hz
      · exact hxy
      · exact String.lt_trans hxy (hy z hz)
    · split
      · exact h
      · next hxy hne =>
        refine List.pairwise_cons.mpr ⟨fun z hz => ?_, ih hys⟩
        rcases (mem_place x z ys).mp hz with rfl | hz
        · rcases Std.lt_trichotomy z y with hlt | heq | hgt
          · exact absurd hlt hxy
          · exact absurd heq hne
          · exact hgt
        · exact hy z hz

/-! ## Operations -/

/-- The set without members. -/
def empty : NameSet := ⟨[], List.Pairwise.nil⟩

instance : Inhabited NameSet := ⟨empty⟩

/-- The set with one more name. -/
def insert (x : String) (s : NameSet) : NameSet := ⟨place x s.names, pairwise_place x s.increasing⟩

/-- The set of the names of a list. -/
def ofList (xs : List String) : NameSet := xs.foldr insert empty

/-- Whether a name is a member. -/
def contains (s : NameSet) (x : String) : Bool := s.names.contains x

theorem mem_names_ofList (xs : List String) (z : String) : z ∈ (ofList xs).names ↔ z ∈ xs := by
  induction xs with
  | nil => simp [ofList, empty]
  | cons x xs ih =>
    have h : (ofList (x :: xs)).names = place x (ofList xs).names := rfl
    rw [h, mem_place, ih, List.mem_cons]

/-! ## Listings -/

theorem nodup_of_increasing {xs : List String} (h : xs.Pairwise (· < ·)) : xs.Nodup := by
  refine h.imp ?_
  rintro x y hlt rfl
  exact String.lt_irrefl x hlt

theorem eq_of_increasing {xs ys : List String} (hx : xs.Pairwise (· < ·))
    (hy : ys.Pairwise (· < ·)) (h : ∀ z, z ∈ xs ↔ z ∈ ys) : xs = ys := by
  have hperm : xs.Perm ys :=
    (List.perm_ext_iff_of_nodup (nodup_of_increasing hx) (nodup_of_increasing hy)).mpr h
  refine hperm.eq_of_pairwise ?_ hx hy
  intro x y _ _ hxy hyx
  exact absurd hyx (String.lt_asymm hxy)

theorem ext_mem {s t : NameSet} (h : ∀ z, z ∈ s.names ↔ z ∈ t.names) : s = t := by
  have hnames : s.names = t.names := eq_of_increasing s.increasing t.increasing h
  cases s
  cases t
  cases hnames
  rfl

/-- `s.Lists P`: the listing of `s` goes up strictly, repeats nothing, and has the names with the
property `P` in it and no others. -/
structure Lists (s : NameSet) (P : String → Prop) : Prop where
  increasing : s.names.Pairwise (· < ·)
  nodup : s.names.Nodup
  mem_iff : ∀ x, x ∈ s.names ↔ P x

theorem lists_iff {s : NameSet} {P : String → Prop} :
    s.Lists P ↔ ∀ x, x ∈ s.names ↔ P x :=
  ⟨Lists.mem_iff, fun h => ⟨s.increasing, nodup_of_increasing s.increasing, h⟩⟩

theorem lists_ofList (xs : List String) : (ofList xs).Lists (· ∈ xs) :=
  lists_iff.mpr (mem_names_ofList xs)

theorem Lists.unique {s t : NameSet} {P : String → Prop} (hs : s.Lists P) (ht : t.Lists P) :
    s = t :=
  ext_mem fun x => (hs.mem_iff x).trans (ht.mem_iff x).symm

theorem eq_ofList_iff {s : NameSet} {xs : List String} : s = ofList xs ↔ s.Lists (· ∈ xs) := by
  constructor
  · rintro rfl
    exact lists_ofList xs
  · intro h
    exact h.unique (lists_ofList xs)

theorem ofList_eq_ofList_iff {xs ys : List String} :
    ofList xs = ofList ys ↔ ∀ x, x ∈ xs ↔ x ∈ ys := by
  rw [eq_ofList_iff, lists_iff]
  simp only [mem_names_ofList]

theorem ofList_names (s : NameSet) : ofList s.names = s :=
  ext_mem (mem_names_ofList s.names)

end NameSet

/-- A finite map from names, listed in strictly increasing order of its keys. -/
structure NameMap (α : Type) where
  /-- The entries, one for each key. -/
  entries : List (String × α)
  /-- The keys are strictly increasing. -/
  increasing : entries.Pairwise (fun a b => a.1 < b.1)

namespace NameMap

variable {α : Type}

/-- Puts an entry at its place in a list with increasing keys, replacing the one under its key. -/
def place (x : String) (a : α) : List (String × α) → List (String × α)
  | [] => [(x, a)]
  | y :: ys =>
    if x < y.1 then (x, a) :: y :: ys else if x = y.1 then (x, a) :: ys else y :: place x a ys

theorem key_of_mem_place {x : String} {a : α} {z : String × α} {ys : List (String × α)}
    (h : z ∈ place x a ys) : z.1 = x ∨ z ∈ ys := by
  induction ys with
  | nil => simp_all [place]
  | cons y ys ih =>
    rw [place] at h
    split at h
    · rcases List.mem_cons.mp h with rfl | h
      · exact .inl rfl
      · exact .inr h
    · split at h
      · rcases List.mem_cons.mp h with rfl | h
        · exact .inl rfl
        · exact .inr (List.mem_cons_of_mem _ h)
      · rcases List.mem_cons.mp h with rfl | h
        · exact .inr List.mem_cons_self
        · exact (ih h).imp id (List.mem_cons_of_mem _)

theorem pairwise_place (x : String) (a : α) {ys : List (String × α)}
    (h : ys.Pairwise (fun a b => a.1 < b.1)) :
    (place x a ys).Pairwise (fun a b => a.1 < b.1) := by
  induction ys with
  | nil => simp [place]
  | cons y ys ih =>
    obtain ⟨hy, hys⟩ := List.pairwise_cons.mp h
    rw [place]
    split
    · next hxy =>
      refine List.pairwise_cons.mpr ⟨fun z hz => ?_, h⟩
      rcases List.mem_cons.mp hz with rfl | hz
      · exact hxy
      · exact String.lt_trans hxy (hy z hz)
    · split
      · next hxy => exact List.pairwise_cons.mpr ⟨fun z hz => hxy ▸ hy z hz, hys⟩
      · next hxy hne =>
        refine List.pairwise_cons.mpr ⟨fun z hz => ?_, ih hys⟩
        rcases key_of_mem_place hz with hz | hz
        · rcases Std.lt_trichotomy x y.1 with hlt | heq | hgt
          · exact absurd hlt hxy
          · exact absurd heq hne
          · exact hz ▸ hgt
        · exact hy z hz

/-- The map without entries. -/
def empty : NameMap α := ⟨[], List.Pairwise.nil⟩

instance : Inhabited (NameMap α) := ⟨empty⟩

/-- The map with one key set. -/
def insert (m : NameMap α) (x : String) (a : α) : NameMap α :=
  ⟨place x a m.entries, pairwise_place x a m.increasing⟩

/-- The map of a list of entries, of which the last one under a key counts. -/
def ofList (xs : List (String × α)) : NameMap α := xs.foldl (fun m x => m.insert x.1 x.2) empty

/-- The value under a key. -/
def get? (m : NameMap α) (x : String) : Option α := m.entries.lookup x

/-- The number of keys. -/
def size (m : NameMap α) : Nat := m.entries.length

end NameMap

end CallAdvice
