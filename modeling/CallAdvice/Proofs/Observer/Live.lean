import CallAdvice.Observer

/-! An observer set over its history. Whatever was registered and given back, in whatever order, the
set holds the registrations that are live: those whose number was not given back since
(`ObserverSet.entries_applyAll`). Their numbers grow, so to give a number back removes one
registration at most (`ObserverSet.unregister_of_mem`). -/
set_option autoImplicit false

namespace CallAdvice.ObserverSet

variable {α : Type}

/-! ## Histories -/

/-- A change to an observer set. -/
inductive Op (α : Type) where
  | register (observer : α)
  | unregister (id : ObserverId)

def apply (s : ObserverSet α) : Op α → ObserverSet α
  | .register observer => (s.register observer).2
  | .unregister id => (s.unregister id).2

def applyAll (s : ObserverSet α) (ops : List (Op α)) : ObserverSet α := ops.foldl apply s

/-- The observers that are registered, in order. -/
def registered (ops : List (Op α)) : List α :=
  ops.filterMap fun
    | .register observer => some observer
    | .unregister _ => none

/-- The numbers that are given back, in order. -/
def returned (ops : List (Op α)) : List ObserverId :=
  ops.filterMap fun
    | .register _ => none
    | .unregister id => some id

/-- The registrations, numbered from `n` on, whose number is not given back later, in order. -/
def live : Nat → List (Op α) → List (ObserverId × α)
  | _, [] => []
  | n, .register observer :: ops =>
    if ⟨n⟩ ∈ returned ops then live (n + 1) ops else (⟨n⟩, observer) :: live (n + 1) ops
  | n, .unregister _ :: ops => live n ops

theorem next_applyAll (s : ObserverSet α) (ops : List (Op α)) :
    (s.applyAll ops).next = s.next + (registered ops).length := by
  induction ops generalizing s with
  | nil => rfl
  | cons op ops ih =>
    have happly : (s.applyAll (op :: ops)).next = ((s.apply op).applyAll ops).next := rfl
    rw [happly, ih]
    cases op with
    | register observer =>
      have hnext : (s.apply (.register observer)).next = s.next + 1 := rfl
      simp [hnext, registered]
      omega
    | unregister id => rfl

/-- A set holds what it held, less what was given back, and then what is live of the registrations
since. -/
theorem entries_applyAll (s : ObserverSet α) (ops : List (Op α)) :
    (s.applyAll ops).entries =
      s.entries.filter (fun entry => entry.1 ∉ returned ops) ++ live s.next ops := by
  induction ops generalizing s with
  | nil =>
    have hkept : s.entries.filter (fun entry => entry.1 ∉ returned ([] : List (Op α))) =
        s.entries := List.filter_eq_self.mpr (by simp [returned])
    rw [hkept, live, List.append_nil]
    rfl
  | cons op ops ih =>
    have happly : (s.applyAll (op :: ops)).entries = ((s.apply op).applyAll ops).entries := rfl
    rw [happly, ih]
    cases op with
    | register observer =>
      have hreturned : returned (.register observer :: ops) = returned ops := rfl
      have hentries : (s.apply (.register observer)).entries =
          s.entries ++ [(⟨s.next⟩, observer)] := rfl
      have hnext : (s.apply (.register observer)).next = s.next + 1 := rfl
      rw [hreturned, hentries, hnext, List.filter_append, List.append_assoc, live]
      by_cases hback : (⟨s.next⟩ : ObserverId) ∈ returned ops <;> simp [hback]
    | unregister id =>
      have hreturned : returned (.unregister id :: ops) = id :: returned ops := rfl
      have hentries : (s.apply (.unregister id)).entries =
          s.entries.filter (fun entry => entry.1 != id) := rfl
      have hnext : (s.apply (.unregister id)).next = s.next := rfl
      -- What is given back now and what is given back later leave through one filter.
      rw [hreturned, hentries, hnext, List.filter_filter, live]
      congr 2
      funext entry
      by_cases hid : entry.1 = id <;> simp [hid]

theorem entries_applyAll_empty (ops : List (Op α)) :
    (empty.applyAll ops).entries = live 0 ops := by
  rw [entries_applyAll]
  rfl

theorem le_of_mem_live {n : Nat} {ops : List (Op α)} {entry : ObserverId × α}
    (h : entry ∈ live n ops) : n ≤ entry.1.number := by
  induction ops generalizing n with
  | nil => cases h
  | cons op ops ih =>
    cases op with
    | register observer =>
      rw [live] at h
      split at h
      · exact Nat.le_of_succ_le (ih h)
      · rcases List.mem_cons.mp h with rfl | h
        · exact Nat.le_refl n
        · exact Nat.le_of_succ_le (ih h)
    | unregister id => exact ih h

theorem live_increasing (n : Nat) (ops : List (Op α)) :
    (live n ops).Pairwise fun entry later => entry.1.number < later.1.number := by
  induction ops generalizing n with
  | nil => exact .nil
  | cons op ops ih =>
    cases op with
    | register observer =>
      rw [live]
      split
      · exact ih (n + 1)
      · refine .cons ?_ (ih (n + 1))
        intro later hlater
        exact le_of_mem_live hlater
    | unregister id => exact ih n

/-! ## Giving a number back -/

/-- With growing numbers, the registration with a given number is removed, and no other. -/
theorem unregister_of_mem {s : ObserverSet α}
    (hs : s.entries.Pairwise fun entry later => entry.1.number < later.1.number)
    {id : ObserverId} {observer : α} {pre post : List (ObserverId × α)}
    (h : s.entries = pre ++ (id, observer) :: post) :
    s.unregister id = (true, { s with entries := pre ++ post }) := by
  rw [h, List.pairwise_append, List.pairwise_cons] at hs
  obtain ⟨-, ⟨hpost, -⟩, hpre⟩ := hs
  have hkeep : ∀ entry ∈ pre ++ post, (entry.1 != id) = true := by
    intro entry hentry
    have hne : entry.1.number ≠ id.number := by
      rcases List.mem_append.mp hentry with hentry | hentry
      · exact Nat.ne_of_lt (hpre entry hentry (id, observer) List.mem_cons_self)
      · exact Nat.ne_of_gt (hpost entry hentry)
    exact bne_iff_ne.mpr fun heq => hne (congrArg ObserverId.number heq)
  have hkept : s.entries.filter (fun entry => entry.1 != id) = pre ++ post := by
    rw [h, List.filter_append, List.filter_cons_of_neg (by simp), ← List.filter_append,
      List.filter_eq_self.mpr hkeep]
  have hfound : ((pre ++ post).length != s.entries.length) = true := by
    rw [h]
    simp
  unfold unregister
  dsimp only
  rw [hkept, hfound]

theorem unregister_of_not_mem {s : ObserverSet α} {id : ObserverId}
    (h : ∀ observer, (id, observer) ∉ s.entries) : s.unregister id = (false, s) := by
  have hkept : s.entries.filter (fun entry => entry.1 != id) = s.entries := by
    refine List.filter_eq_self.mpr ?_
    rintro ⟨id', observer⟩ hentry
    refine bne_iff_ne.mpr ?_
    rintro rfl
    exact h observer hentry
  unfold unregister
  dsimp only
  rw [hkept, bne_self_eq_false]

/-! ## The seats of one observer -/

variable [DecidableEq α]

/-- The numbers under which an observer is registered, in order. -/
def seats (s : ObserverSet α) (observer : α) : List ObserverId :=
  (s.entries.filter fun entry => entry.2 == observer).map (·.1)

theorem seats_register (s : ObserverSet α) (observer other : α) :
    (s.register other).2.seats observer =
      s.seats observer ++ if other = observer then [⟨s.next⟩] else [] := by
  have hentries : (s.register other).2.entries = s.entries ++ [(⟨s.next⟩, other)] := rfl
  unfold seats
  rw [hentries, List.filter_append, List.map_append]
  by_cases hother : other = observer <;> simp [hother]

theorem seats_unregister (s : ObserverSet α) (observer : α) (id : ObserverId) :
    (s.unregister id).2.seats observer = (s.seats observer).filter (· != id) := by
  have hentries : (s.unregister id).2.entries = s.entries.filter (fun entry => entry.1 != id) := rfl
  unfold seats
  rw [hentries, List.filter_map, List.filter_filter, List.filter_filter]
  congr 2
  funext entry
  exact Bool.and_comm _ _

theorem seats_applyAll {observer : α} {ops : List (Op α)} (h : observer ∉ registered ops)
    (s : ObserverSet α) :
    (s.applyAll ops).seats observer = (s.seats observer).filter (· ∉ returned ops) := by
  induction ops generalizing s with
  | nil => exact (List.filter_eq_self.mpr (by simp [returned])).symm
  | cons op ops ih =>
    have happly : s.applyAll (op :: ops) = (s.apply op).applyAll ops := rfl
    cases op with
    | register other =>
      have hregistered : registered (.register other :: ops) = other :: registered ops := rfl
      rw [hregistered, List.mem_cons, not_or] at h
      have hseats : (s.apply (.register other)).seats observer = s.seats observer := by
        refine (seats_register s observer other).trans ?_
        rw [if_neg (Ne.symm h.1), List.append_nil]
      rw [happly, ih h.2, hseats]
      rfl
    | unregister id =>
      have hseats : (s.apply (.unregister id)).seats observer =
          (s.seats observer).filter (· != id) := seats_unregister s observer id
      have hreturned : returned (.unregister id :: ops) = id :: returned ops := rfl
      rw [happly, ih h, hseats, hreturned, List.filter_filter]
      congr 1
      funext other
      by_cases hid : other = id <;> simp [hid]

theorem count_observers (s : ObserverSet α) (observer : α) :
    s.observers.count observer = (s.seats observer).length := by
  unfold observers seats
  rw [List.count, List.countP_map, List.countP_eq_length_filter, List.length_map]
  rfl

end CallAdvice.ObserverSet
