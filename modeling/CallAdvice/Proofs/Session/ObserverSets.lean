import CallAdvice.Proofs.Observer.Live
import CallAdvice.Proofs.Session.Untouched

/-! The observer sets of a session. Over any run a set goes through the registrations made in it and
the numbers given back to it, in their order, and nothing else touches it (`Session.sets_run`); it
gives its numbers out one after the other (`Session.issued_run`). A notification tells its observers
one after the other (`Session.Told`). -/
set_option autoImplicit false

namespace CallAdvice

/-! ## One call in many shapes -/

/-- `entry.Carries head args`: the head and the arguments that an entry brings, in its shape. -/
inductive EntryCall.Carries : EntryCall → Form → List Form → Prop where
  | nullary (head : Form) : Carries (.nullary head) head []
  | unary (head arg : Form) : Carries (.unary head arg) head [arg]
  | binary (head first second : Form) : Carries (.binary head first second) head [first, second]
  | ternary (head first second third : Form) :
    Carries (.ternary head first second third) head [first, second, third]
  | variadic (head : Form) (args : List Form) : Carries (.variadic head args) head args
  | whole (head : Form) (args : List Form) : Carries (.whole (.list (head :: args))) head args

theorem EntryCall.normalize?_eq_some {entry : EntryCall} {call : Call} :
    entry.normalize? = some call ↔ entry.Carries call.head call.args := by
  constructor
  · intro h
    cases entry with
    | whole form =>
      cases form with
      | list items =>
        cases items with
        | nil => cases h
        | cons head args =>
          obtain rfl := Option.some.inj h
          exact .whole head args
      | _ => cases h
    | _ =>
      obtain rfl := Option.some.inj h
      constructor
  · obtain ⟨head, args⟩ := call
    intro h
    cases h <;> rfl

namespace Session

open ObserverSet (Op live registered returned)

/-! ## Changes to one set -/

/-- What a step changes in the observer set `k`. A handle stands for its number, whichever set gave
it out. -/
def opsOn (s : Session) (k : Nat) : Step → List (Op Observer)
  | .registerEngine set i => if set = k then [.register (.engine i)] else []
  | .registerRecorder set => if set = k then [.register (.recorder s.recorders)] else []
  | .unregister set handle =>
    if set = k then ((s.handles[handle]?).map .unregister).toList else []
  | _ => []

/-- What the steps of a run change in the observer set `k`, in order. -/
def opsIn (s : Session) (k : Nat) : List Step → List (Op Observer)
  | [] => []
  | st :: steps => s.opsOn k st ++ (s.step st).1.opsIn k steps

/-- The numbers that the observer set `k` gives out in a step. -/
def issuedBy (s : Session) (k : Nat) (st : Step) : List ObserverId :=
  match st with
  | .registerEngine set _ | .registerRecorder set =>
    if set = k then (s.step st).1.handles.drop s.handles.length else []
  | _ => []

/-- The numbers that the observer set `k` gives out in a run, in order. -/
def issued (s : Session) (k : Nat) : List Step → List ObserverId
  | [] => []
  | st :: steps => s.issuedBy k st ++ (s.step st).1.issued k steps

theorem getElem?_set_eq_map {α : Type} {l : List α} {i : Nat} {a : α} (h : l[i]? = some a)
    (b : α) (k : Nat) : (l.set i b)[k]? = (l[k]?).map fun c => if i = k then b else c := by
  have hlt : i < l.length := (List.getElem?_eq_some_iff.mp h).1
  rw [List.getElem?_set]
  by_cases hk : i = k
  · subst hk
    simp [hlt]
  · simp [hk]

theorem sets_register (s : Session) (set : Nat) (o : Observer) (k : Nat) :
    (s.register set o).1.sets[k]? =
      (s.sets[k]?).map (·.applyAll (if set = k then [.register o] else [])) := by
  unfold register
  cases h : s.sets[set]? with
  | none =>
    by_cases hk : set = k
    · subst hk
      simp [h]
    · simp [hk, ObserverSet.applyAll]
  | some group =>
    refine (getElem?_set_eq_map h _ k).trans ?_
    by_cases hk : set = k
    · subst hk
      simp [h, ObserverSet.applyAll, ObserverSet.apply]
    · simp [hk, ObserverSet.applyAll]

theorem sets_unregister (s : Session) (set handle k : Nat) :
    (s.step (.unregister set handle)).1.sets[k]? =
      (s.sets[k]?).map (·.applyAll (s.opsOn k (.unregister set handle))) := by
  have hidle : s.sets[set]? = none ∨ s.handles[handle]? = none →
      s.sets[k]? = (s.sets[k]?).map (·.applyAll (s.opsOn k (.unregister set handle))) := by
    intro h
    by_cases hk : set = k
    · subst hk
      rcases h with h | h <;> simp [h, opsOn, ObserverSet.applyAll]
    · simp [hk, opsOn, ObserverSet.applyAll]
  rw [step, stepBy]
  cases hset : s.sets[set]? with
  | none => exact hidle (.inl hset)
  | some group =>
    cases hhandle : s.handles[handle]? with
    | none => exact hidle (.inr hhandle)
    | some id =>
      refine (getElem?_set_eq_map hset _ k).trans ?_
      by_cases hk : set = k
      · subst hk
        simp [hset, hhandle, opsOn, ObserverSet.applyAll, ObserverSet.apply]
      · simp [hk, opsOn, ObserverSet.applyAll]

theorem sets_step (s : Session) (st : Step) (k : Nat) :
    (s.step st).1.sets[k]? = (s.sets[k]?).map (·.applyAll (s.opsOn k st)) := by
  have hidle : (s.step st).1.sets = s.sets → s.opsOn k st = [] →
      (s.step st).1.sets[k]? = (s.sets[k]?).map (·.applyAll (s.opsOn k st)) := by
    intro hsets hops
    rw [hsets, hops]
    simp [ObserverSet.applyAll]
  cases st with
  | registerEngine set i => exact sets_register s set (.engine i) k
  | registerRecorder set => exact sets_register s set (.recorder s.recorders) k
  | unregister set handle => exact sets_unregister s set handle k
  | setShared => exact hidle rfl rfl
  | _ => exact hidle (untouched_step Scene.probe rfl s).sets rfl

theorem sets_run (s : Session) (steps : List Step) (k : Nat) :
    (s.run steps).1.sets[k]? = (s.sets[k]?).map (·.applyAll (s.opsIn k steps)) := by
  induction steps generalizing s with
  | nil =>
    show s.sets[k]? = (s.sets[k]?).map (·.applyAll [])
    simp [ObserverSet.applyAll]
  | cons st steps ih =>
    have hrun : (s.run (st :: steps)).1 = ((s.step st).1.run steps).1 := rfl
    rw [hrun, ih, sets_step, Option.map_map]
    congr 1
    funext group
    exact List.foldl_append.symm

theorem issuedBy_register {s : Session} {k : Nat} {group : ObserverSet Observer}
    (h : s.sets[k]? = some group) (o : Observer) :
    (s.register k o).1.handles.drop s.handles.length = [⟨group.next⟩] := by
  unfold register
  rw [h]
  exact List.drop_left

theorem issuedBy_step {s : Session} {k : Nat} {group : ObserverSet Observer}
    (h : s.sets[k]? = some group) (st : Step) :
    s.issuedBy k st =
      (List.range' group.next (registered (s.opsOn k st)).length).map ObserverId.mk := by
  cases st with
  | registerEngine set i =>
    by_cases hk : set = k
    · subst hk
      simp only [issuedBy, opsOn]
      exact issuedBy_register h (.engine i)
    · simp [issuedBy, opsOn, hk, registered]
  | registerRecorder set =>
    by_cases hk : set = k
    · subst hk
      simp only [issuedBy, opsOn]
      exact issuedBy_register h (.recorder s.recorders)
    · simp [issuedBy, opsOn, hk, registered]
  | unregister set handle =>
    have hregistered : registered (s.opsOn k (.unregister set handle)) = [] := by
      unfold opsOn
      by_cases hk : set = k <;> cases s.handles[handle]? <;> simp [hk, registered]
    rw [hregistered]
    rfl
  | _ => rfl

theorem issued_run {s : Session} {k : Nat} {group : ObserverSet Observer}
    (h : s.sets[k]? = some group) (steps : List Step) :
    s.issued k steps =
      (List.range' group.next (registered (s.opsIn k steps)).length).map ObserverId.mk := by
  induction steps generalizing s group with
  | nil => rfl
  | cons st steps ih =>
    have hset : (s.step st).1.sets[k]? = some (group.applyAll (s.opsOn k st)) := by
      rw [sets_step, h, Option.map_some]
    have hregistered : registered (s.opsOn k st ++ (s.step st).1.opsIn k steps) =
        registered (s.opsOn k st) ++ registered ((s.step st).1.opsIn k steps) :=
      List.filterMap_append
    rw [issued, opsIn, issuedBy_step h, ih hset, ObserverSet.next_applyAll, hregistered,
      List.length_append, ← List.range'_append_1, List.map_append]

/-! ## Giving a number back -/

/-- `s.GivesBack k group handle id`: what it does to give the number `id` of a handle back to the
observer set `k`, which is `group`. A registration with that number goes, and nothing else changes;
where there is none, nothing changes at all. -/
structure GivesBack (s : Session) (k : Nat) (group : ObserverSet Observer) (handle : Nat)
    (id : ObserverId) : Prop where
  present : ∀ before o after, group.entries = before ++ (id, o) :: after →
    s.step (.unregister k handle) =
      ({ s with sets := s.sets.set k { group with entries := before ++ after } }, [], .truth true)
  absent : (∀ o, (id, o) ∉ group.entries) →
    s.step (.unregister k handle) = (s, [], .truth false)

theorem givesBack {s : Session} {k : Nat} {group : ObserverSet Observer}
    (h : s.sets[k]? = some group)
    (hgroup : group.entries.Pairwise fun entry later => entry.1.number < later.1.number)
    {handle : Nat} {id : ObserverId} (hid : s.handles[handle]? = some id) :
    s.GivesBack k group handle id := by
  have hstep : s.step (.unregister k handle) =
      ({ s with sets := s.sets.set k (group.unregister id).2 }, [],
        .truth (group.unregister id).1) := by
    rw [step, stepBy, h, hid]
  refine ⟨?_, ?_⟩
  · intro before o after hentries
    rw [hstep, ObserverSet.unregister_of_mem hgroup hentries]
  · intro habsent
    rw [hstep, ObserverSet.unregister_of_not_mem habsent, set_eq_self h]

/-! ## Telling observers -/

/-- `Told call s observers events t`: from `s` to `t` each of the observers is told of the call
once, in their order, and nothing else happens. An engine is told by letting it observe the call. -/
inductive Told (call : Call) : Session → List Observer → List Event → Session → Prop where
  | none (s : Session) : Told call s [] [] s
  | engine {s t : Session} {observers : List Observer} {events : List Event} (i : Nat) :
    Told call (s.step (.observe i call)).1 observers events t →
    Told call s (.engine i :: observers) ((s.step (.observe i call)).2.1 ++ events) t
  | recorder {s t : Session} {observers : List Observer} {events : List Event} (number : Nat) :
    Told call s observers events t →
    Told call s (.recorder number :: observers) (.seen number call :: events) t

theorem told_deliverAll (call : Call) (s : Session) (observers : List Observer) :
    Told call s observers (s.deliverAllBy Scene.probe call observers).2
      (s.deliverAllBy Scene.probe call observers).1 := by
  induction observers generalizing s with
  | nil => exact .none s
  | cons o observers ih =>
    cases o with
    | engine i => exact .engine i (ih (s.step (.observe i call)).1)
    | recorder number => exact .recorder number (ih s)

theorem notify_of_carries {s : Session} {k : Nat} {group : ObserverSet Observer}
    (h : s.sets[k]? = some group) {entry : EntryCall} {head : Form} {args : List Form}
    (hentry : entry.Carries head args) :
    s.step (.notify k entry) =
      ((s.deliverAllBy Scene.probe ⟨head, args⟩ group.observers).1,
        (s.deliverAllBy Scene.probe ⟨head, args⟩ group.observers).2,
        .call (some ⟨head, args⟩)) := by
  have hcall : entry.normalize? = some ⟨head, args⟩ := EntryCall.normalize?_eq_some.mpr hentry
  rw [step, stepBy, h, hcall]

theorem notify_of_no_call {s : Session} {k : Nat} {group : ObserverSet Observer}
    (h : s.sets[k]? = some group) {form : Form} (hform : ∀ head args, form ≠ .list (head :: args)) :
    s.step (.notify k (.whole form)) = (s, [], .call none) := by
  have hcall : (EntryCall.whole form).normalize? = none := by
    cases hc : (EntryCall.whole form).normalize? with
    | none => rfl
    | some call =>
      have hcarries := EntryCall.normalize?_eq_some.mp hc
      generalize call.head = head, call.args = args at hcarries
      cases hcarries with
      | whole => exact absurd rfl (hform head args)
  rw [step, stepBy, h, hcall]

/-! ## Beginnings -/

theorem addEngine_sets {s t : Session} {p : Plan} {log : List Log.Entry}
    (h : s.addEngine p = .ok (t, log)) : t.sets = s.sets := by
  unfold addEngine at h
  split at h
  · obtain ⟨rfl, -⟩ := Prod.mk.inj (Except.ok.inj h)
    rfl
  · dsimp only at h
    split at h
    · cases h
    · obtain ⟨rfl, -⟩ := Prod.mk.inj (Except.ok.inj h)
      rfl

/-- At the beginning nobody is registered. -/
theorem Begins.sets {s : Session} (h : s.Begins) {k : Nat} {group : ObserverSet Observer}
    (hk : s.sets[k]? = some group) : group = .empty := by
  obtain ⟨behaviours, shared, sinks, sets, plans, log, h⟩ := h
  have hsets : s.sets = List.replicate sets .empty :=
    addEngines_induction (I := fun t => t.sets = List.replicate sets .empty)
      (fun _ _ _ _ hadd hs => (addEngine_sets hadd).trans hs) h rfl
  rw [hsets] at hk
  exact List.eq_of_mem_replicate (List.mem_of_getElem? hk)

end Session

end CallAdvice
