import CallAdvice.Proofs.Session.Gate
import CallAdvice.Proofs.Session.ObserverSets

/-! What recorders see. A recorder sits in one set under one number (`Session.Seated`) until that
number is given back to the set, so it sees the calls of which the set is notified meanwhile, each
once and in order (`Session.Seated.seenBy_run`). With the theory of observer sets this says in full
what a session does with its observers (`Session.observers_are_live`). -/
set_option autoImplicit false

namespace CallAdvice.Session

open ObserverSet (live registered returned)

/-! ## Calls seen -/

/-- The calls that recorder `r` sees among events, in order. -/
def seenBy (r : Nat) (events : List Event) : List Call :=
  events.filterMap fun
    | .seen r' call => if r' = r then some call else none
    | _ => none

/-- The calls of which steps notify the observer set `k`, in order. -/
def notified (k : Nat) (steps : List Step) : List Call :=
  steps.filterMap fun
    | .notify set entry => if set = k then entry.normalize? else none
    | _ => none

theorem seenBy_append (r : Nat) (events later : List Event) :
    seenBy r (events ++ later) = seenBy r events ++ seenBy r later :=
  List.filterMap_append

theorem seenBy_atEngine (r i j : Nat) (events : List Engine.Event) :
    seenBy r (events.map (.atEngine i j)) = [] := by
  unfold seenBy
  rw [List.filterMap_map]
  refine List.filterMap_eq_nil_iff.mpr ?_
  intro e _
  rfl

theorem seenBy_answer {α : Type} (r : Nat) (s : Session) (i : Nat) (f : Scene → α × Scene)
    (reply : α → Reply) : seenBy r (s.answer i f reply).2.1 = [] := by
  cases h : s.scene? i with
  | none =>
    rw [answer_of_no_scene h]
    rfl
  | some scene =>
    rw [answer_of_scene? h]
    exact seenBy_atEngine r i _ _

theorem seenBy_observe (r : Nat) (s : Session) (i : Nat) (call : Call) :
    seenBy r (s.observeBy Scene.probe i call).2 = [] := by
  cases h : s.scene? i with
  | none =>
    rw [observe_of_no_scene h]
    rfl
  | some scene =>
    rw [observe_of_scene? h]
    exact seenBy_atEngine r i _ _

theorem seenBy_deliverAll (r : Nat) (s : Session) (call : Call) (os : List Observer) :
    seenBy r (s.deliverAllBy Scene.probe call os).2 =
      List.replicate (os.count (.recorder r)) call := by
  induction os generalizing s with
  | nil => rfl
  | cons o os ih =>
    cases o with
    | engine i =>
      have hevents : (s.deliverAllBy Scene.probe call (.engine i :: os)).2 =
          (s.observeBy Scene.probe i call).2 ++
            ((s.observeBy Scene.probe i call).1.deliverAllBy Scene.probe call os).2 := rfl
      rw [hevents, seenBy_append, seenBy_observe, ih, List.count_cons_of_ne (by simp)]
      rfl
    | recorder r' =>
      have hevents : (s.deliverAllBy Scene.probe call (.recorder r' :: os)).2 =
          [.seen r' call] ++ (s.deliverAllBy Scene.probe call os).2 := rfl
      rw [hevents, seenBy_append, ih, List.count_cons]
      by_cases hr : r' = r <;> simp [hr, seenBy, List.replicate_succ]

theorem seenBy_step_of_ne {st : Step} (h : ∀ set entry, st ≠ .notify set entry) (r : Nat)
    (s : Session) : seenBy r (s.step st).2.1 = [] := by
  have hregister : ∀ set o, (s.register set o).2.1 = [] := by
    intro set o
    unfold register
    split <;> rfl
  cases st with
  | dispatch | probe | probeAfresh => exact seenBy_answer r s _ _ _
  | observe i call => exact seenBy_observe r s i call
  | check i under index callee call =>
    rw [step, stepBy]
    split
    · rfl
    · exact seenBy_answer r s i _ _
  | registerEngine set i => exact congrArg (seenBy r) (hregister set _)
  | registerRecorder set => exact congrArg (seenBy r) (hregister set _)
  | unregister | sameId =>
    rw [step, stepBy]
    split <;> rfl
  | notify set entry => exact absurd rfl (h set entry)
  | _ => rfl

theorem seenBy_notify (r : Nat) (s : Session) (set : Nat) (entry : EntryCall) :
    seenBy r (s.step (.notify set entry)).2.1 =
      (s.sets[set]?).elim [] fun group => entry.normalize?.elim [] fun call =>
        List.replicate (group.seats (.recorder r)).length call := by
  rw [step, stepBy]
  cases s.sets[set]? with
  | none => rfl
  | some group =>
    cases entry.normalize? with
    | none => rfl
    | some call =>
      have hseen := seenBy_deliverAll r s call group.observers
      rw [ObserverSet.count_observers] at hseen
      exact hseen

/-! ## The seat of a recorder -/

/-- `s.Seated r k ids`: recorder `r` is registered in the observer set `k` under the numbers `ids`,
and in no other set. -/
structure Seated (s : Session) (r k : Nat) (ids : List ObserverId) : Prop where
  here : ∃ group, s.sets[k]? = some group ∧ group.seats (.recorder r) = ids
  elsewhere : ∀ k' group, k' ≠ k → s.sets[k']? = some group → group.seats (.recorder r) = []

theorem Seated.seenBy_step {s : Session} {r k : Nat} {ids : List ObserverId}
    (h : s.Seated r k ids) (st : Step) :
    seenBy r (s.step st).2.1 =
      (notified k [st]).flatMap fun call => List.replicate ids.length call := by
  cases st with
  | notify set entry =>
    rw [seenBy_notify]
    by_cases hk : set = k
    · subst hk
      obtain ⟨group, hgroup, hids⟩ := h.here
      rw [hgroup, Option.elim_some, hids]
      cases hcall : entry.normalize? <;> simp [notified, hcall]
    · have hnotified : notified k [.notify set entry] = [] := by simp [notified, hk]
      rw [hnotified]
      cases hgroup : s.sets[set]? with
      | none => rfl
      | some group =>
        rw [Option.elim_some, h.elsewhere set group hk hgroup]
        cases entry.normalize? <;> rfl
  | _ => exact seenBy_step_of_ne (by simp) r s

theorem not_mem_registered {s : Session} {r : Nat} {st : Step}
    (h : ∀ set, st = .registerRecorder set → s.recorders ≠ r) (k : Nat) :
    .recorder r ∉ registered (s.opsOn k st) := by
  cases st with
  | registerEngine set i => by_cases hk : set = k <;> simp [opsOn, hk, registered]
  | registerRecorder set =>
    have hr := h set rfl
    by_cases hk : set = k <;> simp [opsOn, hk, registered, Ne.symm hr]
  | unregister set handle =>
    by_cases hk : set = k <;> cases hid : s.handles[handle]? <;>
      simp [opsOn, hk, hid, registered]
  | _ => exact List.not_mem_nil

/-- A step that does not register the recorder leaves it its seat, unless its number is given
back. -/
theorem Seated.step {s : Session} {r k : Nat} {ids : List ObserverId} (h : s.Seated r k ids)
    {st : Step} (hst : ∀ set, st = .registerRecorder set → s.recorders ≠ r) :
    (s.step st).1.Seated r k (ids.filter (· ∉ returned (s.opsOn k st))) := by
  have hseats : ∀ (k' : Nat) group, s.sets[k']? = some group →
      (s.step st).1.sets[k']? = some (group.applyAll (s.opsOn k' st)) ∧
        (group.applyAll (s.opsOn k' st)).seats (.recorder r) =
          (group.seats (.recorder r)).filter (· ∉ returned (s.opsOn k' st)) := by
    intro k' group hgroup
    refine ⟨?_, ObserverSet.seats_applyAll (not_mem_registered hst k') group⟩
    rw [sets_step, hgroup, Option.map_some]
  refine ⟨?_, ?_⟩
  · obtain ⟨group, hgroup, hids⟩ := h.here
    obtain ⟨hafter, hkept⟩ := hseats k group hgroup
    exact ⟨_, hafter, by rw [hkept, hids]⟩
  · intro k' after hk' hafter
    rw [sets_step] at hafter
    obtain ⟨group, hgroup, rfl⟩ := Option.map_eq_some_iff.mp hafter
    rw [(hseats k' group hgroup).2, h.elsewhere k' group hk' hgroup]
    rfl

theorem Seated.register {s : Session} {k : Nat} (h : s.Seated s.recorders k [])
    {group : ObserverSet Observer} (hgroup : s.sets[k]? = some group) :
    (s.step (.registerRecorder k)).1.Seated s.recorders k [⟨group.next⟩] := by
  obtain ⟨group', hgroup', hnone⟩ := h.here
  obtain rfl : group = group' := Option.some.inj (hgroup.symm.trans hgroup')
  refine ⟨⟨(group.register (.recorder s.recorders)).2, ?_, ?_⟩, ?_⟩
  · have hops : s.opsOn k (.registerRecorder k) = [.register (.recorder s.recorders)] := if_pos rfl
    rw [sets_step, hgroup, hops]
    rfl
  · rw [ObserverSet.seats_register, hnone, if_pos rfl, List.nil_append]
  · intro k' after hk' hafter
    have hops : s.opsOn k' (.registerRecorder k) = [] := if_neg (Ne.symm hk')
    rw [sets_step, hops] at hafter
    obtain ⟨group', hgroup', rfl⟩ := Option.map_eq_some_iff.mp hafter
    exact h.elsewhere k' group' hk' hgroup'

/-! ## Recorders in a run -/

theorem recorders_step (s : Session) (st : Step) : s.recorders ≤ (s.step st).1.recorders := by
  have hregister : ∀ set o, (s.register set o).1.recorders = s.recorders := by
    intro set o
    unfold Session.register
    split <;> rfl
  cases st with
  | registerEngine set i => exact Nat.le_of_eq (hregister set _).symm
  | registerRecorder set => exact Nat.le_succ s.recorders
  | unregister set handle =>
    rw [Session.step, stepBy]
    split <;> exact Nat.le_refl _
  | setShared => exact Nat.le_refl _
  | _ => exact Nat.le_of_eq (untouched_step Scene.probe rfl s).recorders.symm

theorem recorders_run (s : Session) (steps : List Step) :
    s.recorders ≤ (s.run steps).1.recorders := by
  induction steps generalizing s with
  | nil => exact Nat.le_refl _
  | cons st steps ih => exact Nat.le_trans (recorders_step s st) (ih (s.step st).1)

/-- Before a recorder is made, and once its number was given back, it has no seat and sees
nothing. -/
theorem Seated.unseen {s : Session} {r k : Nat} (h : s.Seated r k []) (steps : List Step)
    (hr : r < s.recorders ∨ (s.run steps).1.recorders ≤ r) :
    (s.run steps).1.Seated r k [] ∧ seenBy r (happened (s.run steps).2) = [] := by
  induction steps generalizing s with
  | nil => exact ⟨h, rfl⟩
  | cons st steps ih =>
    have hrun : (s.run (st :: steps)).1 = ((s.step st).1.run steps).1 := rfl
    have hmore := recorders_step s st
    -- A recorder that this step makes is another one: `r` was made before, or is not made yet.
    have hst : ∀ set, st = .registerRecorder set → s.recorders ≠ r := by
      rintro set rfl
      have hone : (s.step (.registerRecorder set)).1.recorders = s.recorders + 1 := rfl
      have hlater := recorders_run (s.step (.registerRecorder set)).1 steps
      rw [hrun] at hr
      omega
    have hr' : r < (s.step st).1.recorders ∨ ((s.step st).1.run steps).1.recorders ≤ r := by
      rw [hrun] at hr
      omega
    obtain ⟨hseated, hseen⟩ := ih (h.step hst) hr'
    have hevents : happened (s.run (st :: steps)).2 =
        (s.step st).2.1 ++ happened ((s.step st).1.run steps).2 := rfl
    refine ⟨hseated, ?_⟩
    rw [hevents, seenBy_append, h.seenBy_step, hseen]
    simp

/-- The steps before the first one that gives the number `id` back to the observer set `k`. -/
def untilReturned (s : Session) (k : Nat) (id : ObserverId) : List Step → List Step
  | [] => []
  | st :: steps =>
    if id ∈ returned (s.opsOn k st) then [] else st :: (s.step st).1.untilReturned k id steps

/-- A recorder sees the calls of which its set is notified until its number is given back. -/
theorem Seated.seenBy_run {s : Session} {r k : Nat} {id : ObserverId} (h : s.Seated r k [id])
    (hr : r < s.recorders) (steps : List Step) :
    seenBy r (happened (s.run steps).2) = notified k (s.untilReturned k id steps) := by
  induction steps generalizing s with
  | nil => rfl
  | cons st steps ih =>
    have hevents : happened (s.run (st :: steps)).2 =
        (s.step st).2.1 ++ happened ((s.step st).1.run steps).2 := rfl
    have hst : ∀ set, st = .registerRecorder set → s.recorders ≠ r :=
      fun _ _ => Nat.ne_of_gt hr
    have hr' : r < (s.step st).1.recorders := Nat.lt_of_lt_of_le hr (recorders_step s st)
    have hnow : seenBy r (s.step st).2.1 = notified k [st] := by
      rw [h.seenBy_step]
      exact List.flatMap_singleton' _
    have hseated := h.step hst
    rw [hevents, seenBy_append, hnow, untilReturned]
    by_cases hback : id ∈ returned (s.opsOn k st)
    · have hnone : notified k [st] = [] := by
        cases st with
        | notify => cases hback
        | _ => rfl
      have hempty : [id].filter (· ∉ returned (s.opsOn k st)) = [] := by simp [hback]
      rw [hempty] at hseated
      rw [hnone, if_pos hback, (hseated.unseen steps (.inl hr')).2]
      rfl
    · rw [if_neg hback]
      have hkept : [id].filter (· ∉ returned (s.opsOn k st)) = [id] := by simp [hback]
      rw [hkept] at hseated
      rw [ih hseated hr']
      exact (List.filterMap_append (l := [st])).symm

/-- A new recorder sees the calls of which its set is notified until its number is given back. -/
theorem Seated.seenBy_register {s : Session} {k : Nat} (h : s.Seated s.recorders k [])
    {group : ObserverSet Observer} (hgroup : s.sets[k]? = some group) (later : List Step) :
    seenBy s.recorders (happened (s.run (.registerRecorder k :: later)).2) =
      notified k ((s.step (.registerRecorder k)).1.untilReturned k ⟨group.next⟩ later) := by
  have hevents : happened (s.run (.registerRecorder k :: later)).2 =
      (s.step (.registerRecorder k)).2.1 ++
        happened ((s.step (.registerRecorder k)).1.run later).2 := rfl
  have hnow : seenBy s.recorders (s.step (.registerRecorder k)).2.1 = [] :=
    seenBy_step_of_ne (by simp) _ s
  have hlater := (h.register hgroup).seenBy_run (Nat.lt_succ_self s.recorders) later
  rw [hevents, seenBy_append, hnow, hlater, List.nil_append]

/-! ## Observers in a session -/

theorem Begins.seated {s : Session} (hs : s.Begins) {k : Nat} (hk : k < s.sets.length) (r : Nat) :
    s.Seated r k [] := by
  have hempty : ∀ (k' : Nat) group, s.sets[k']? = some group → group.seats (.recorder r) = [] := by
    intro k' group hgroup
    rw [hs.sets hgroup]
    rfl
  exact ⟨⟨_, List.getElem?_eq_getElem hk, hempty k _ (List.getElem?_eq_getElem hk)⟩,
    fun k' group _ hgroup => hempty k' group hgroup⟩

/-- In every session and over every run, an observer set is a list of live registrations: it gives
out the numbers from 0 on, each once; it holds the registrations made in it whose number was not
given back to it since, in order; to give a number back, whichever set it comes from, removes the
registration with it, if there is one, and no other; a notification tells the observers held of the
call, each once and in order, in whichever shape it comes, and a form that is no call is told to
nobody. So a recorder that is made next sees, over any course of the session, the calls of which its
set is notified until its number is given back. -/
theorem observers_are_live {s : Session} (hs : s.Begins) {k : Nat} (hk : k < s.sets.length)
    (steps : List Step) :
    ∃ group, (s.run steps).1.sets[k]? = some group ∧
      s.issued k steps = (List.range group.next).map ObserverId.mk ∧ (s.issued k steps).Nodup ∧
      group.entries = live 0 (s.opsIn k steps) ∧
      (∀ (handle : Nat) id, (s.run steps).1.handles[handle]? = some id →
        (s.run steps).1.GivesBack k group handle id) ∧
      (∀ head args, ∃ events t,
        Told ⟨head, args⟩ (s.run steps).1 (group.entries.map (·.2)) events t ∧
        ∀ entry : EntryCall, entry.Carries head args →
          (s.run steps).1.step (.notify k entry) = (t, events, .call (some ⟨head, args⟩))) ∧
      (∀ form, (∀ head args, form ≠ .list (head :: args)) →
        (s.run steps).1.step (.notify k (.whole form)) = ((s.run steps).1, [], .call none)) ∧
      ∀ later, seenBy (s.run steps).1.recorders
          (happened (s.run (steps ++ .registerRecorder k :: later)).2) =
        notified k (((s.run steps).1.step (.registerRecorder k)).1.untilReturned k ⟨group.next⟩
          later) := by
  have hempty : s.sets[k]? = some .empty := by
    have hfirst := List.getElem?_eq_getElem hk
    rw [hfirst, hs.sets hfirst]
  have hgroup : (s.run steps).1.sets[k]? = some (ObserverSet.empty.applyAll (s.opsIn k steps)) := by
    rw [sets_run, hempty, Option.map_some]
  have hentries := ObserverSet.entries_applyAll_empty (s.opsIn k steps)
  have hissued : s.issued k steps =
      (List.range (ObserverSet.empty.applyAll (s.opsIn k steps)).next).map ObserverId.mk := by
    rw [issued_run hempty, ObserverSet.next_applyAll, List.range_eq_range']
    simp [ObserverSet.empty]
  refine ⟨_, hgroup, hissued, ?_, hentries, ?_, ?_, ?_, ?_⟩
  · rw [hissued]
    refine List.Pairwise.map _ ?_ List.nodup_range
    intro a b hab heq
    exact hab (ObserverId.mk.inj heq)
  · intro handle id hid
    refine givesBack hgroup ?_ hid
    rw [hentries]
    exact ObserverSet.live_increasing 0 _
  · intro head args
    refine ⟨_, _, told_deliverAll ⟨head, args⟩ (s.run steps).1 _, ?_⟩
    intro entry hentry
    exact notify_of_carries hgroup hentry
  · intro form hform
    exact notify_of_no_call hgroup hform
  · intro later
    obtain ⟨hfree, hunseen⟩ := (hs.seated hk _).unseen steps (.inr (Nat.le_refl _))
    have hevents : happened (s.run (steps ++ .registerRecorder k :: later)).2 =
        happened (s.run steps).2 ++
          happened ((s.run steps).1.run (.registerRecorder k :: later)).2 :=
      (run_append Scene.probe s steps (.registerRecorder k :: later)).2
    rw [hevents, seenBy_append, hunseen, hfree.seenBy_register hgroup, List.nil_append]

/-- Two sets. The first recorder loses its seat to a handle of the other set with its number, and
cannot lose it twice. The third one is made after that; it sees the calls told until its own number
is given back, in two shapes, and not the symbol in between. -/
theorem observers_are_live_of_two :
    let e := Engine.new 0 (.fixed .all)
    let s : Session := ⟨[Host.fresh fun _ _ => .ok], [], [], [.empty, .empty], [e], [], 0⟩
    let steps : List Step := [.registerRecorder 0, .registerRecorder 1, .registerEngine 0 0,
      .unregister 0 1]
    let up : Form := .symbol "up-list"
    let later : List Step := [.notify 0 (.unary up (.int 1)), .notify 0 (.whole up),
      .unregister 1 3, .notify 0 (.whole (.list [up, .int 1])), .notify 1 (.nullary up),
      .unregister 0 3, .notify 0 (.nullary up)]
    s.Begins ∧ 0 < s.sets.length ∧ s.issued 0 steps = [⟨0⟩, ⟨1⟩] ∧
      ((s.run steps).1.sets[0]?).map (·.entries) = some [(⟨1⟩, .engine 0)] ∧
      (s.run steps).1.step (.unregister 0 0) = ((s.run steps).1, [], .truth false) ∧
      seenBy 2 (happened (s.run (steps ++ .registerRecorder 0 :: later)).2) =
        [⟨up, [.int 1]⟩, ⟨up, [.int 1]⟩] := by
  intro e s steps up later
  have hs : s.Begins :=
    ⟨[fun _ _ => .ok], [], 0, 2, [⟨0, .direct (.fixed .all) [] .empty, .builtin, .console false⟩],
      [], rfl⟩
  have hk : 0 < s.sets.length := by decide
  obtain ⟨group, hgroup, hissued, -, hentries, hback, -, -, hseen⟩ := observers_are_live hs hk steps
  have hnext : group.next = 2 := by
    obtain rfl := Option.some.inj hgroup
    rfl
  have hlive : group.entries = [(⟨1⟩, .engine 0)] := hentries
  refine ⟨hs, hk, ?_, ?_, (hback 0 ⟨0⟩ rfl).absent ?_, ?_⟩
  · rw [hissued, hnext]
    rfl
  · rw [hgroup, Option.map_some, hlive]
  · simp [hlive]
  · rw [hnext] at hseen
    refine (hseen later).trans ?_
    decide

end CallAdvice.Session
