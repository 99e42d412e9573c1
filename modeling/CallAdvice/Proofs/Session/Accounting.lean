import Mathlib.Data.List.Basic
import CallAdvice.Proofs.Rule.Category
import CallAdvice.Proofs.Session.Gate
import CallAdvice.Proofs.Session.Knowledge

/-! Where the warnings of a session go. A call that an engine is let to observe, by a step of its
own or by a notification, is a delivery; it owes the engine's sink the warning on what a dispatch
would have given at that moment, and nothing else owes a sink anything. What was taken out of a sink
so far, followed by what it holds, is all that it was owed, in order (`Session.sinks_run`). A
warning is under the category of the advice, which is that of all advice unless a matcher puts it
elsewhere (`Session.Delivery.owed_of_makes`). -/
set_option autoImplicit false

namespace CallAdvice.Session

/-! ## Deliveries -/

/-- A call that an engine is let to observe, with the session at that moment. -/
structure Delivery where
  session : Session
  engine : Nat
  call : Call

namespace Delivery

/-- What a dispatch of the call gives at that moment. -/
def advice (d : Delivery) : Option Diagnostic :=
  match (d.session.step (.dispatch d.engine d.call)).2.2 with
  | .advice a => a
  | _ => none

/-- The advice that goes to the collection `k`, if that is the engine's sink. -/
def adviceTo (k : Nat) (d : Delivery) : Option Diagnostic :=
  if (d.session.engines[d.engine]?).map (·.sink) = some (.collection k) then d.advice else none

/-- The warning that goes to the collection `k`: the advice by its category and message. -/
def owed (k : Nat) (d : Delivery) : Option Warning :=
  (d.adviceTo k).map fun a => ⟨a.category, a.message⟩

end Delivery

/-- The deliveries of a call to observers, one after the other. -/
def deliveriesTo (s : Session) (call : Call) : List Observer → List Delivery
  | [] => []
  | .engine i :: os => ⟨s, i, call⟩ :: (s.step (.observe i call)).1.deliveriesTo call os
  | .recorder _ :: os => s.deliveriesTo call os

/-- The deliveries in a step. -/
def deliveriesBy (s : Session) : Step → List Delivery
  | .observe i call => [⟨s, i, call⟩]
  | .notify set entry =>
    match s.sets[set]?, entry.normalize? with
    | some group, some call => s.deliveriesTo call group.observers
    | _, _ => []
  | _ => []

/-- The deliveries in a run, in order. -/
def deliveries (s : Session) : List Step → List Delivery
  | [] => []
  | st :: steps => s.deliveriesBy st ++ (s.step st).1.deliveries steps

/-- The warnings that a step takes out of the collection `k`, as the reply to it shows. -/
def takenBy (k : Nat) : Step → Reply → List Warning
  | .take j, .warnings ws => if j = k then ws else []
  | _, _ => []

/-- The warnings that steps take out of the collection `k`, as the replies to them show. -/
def taken (k : Nat) (steps : List Step) (replies : List Reply) : List Warning :=
  (steps.zip replies).flatMap fun (st, reply) => takenBy k st reply

/-! ## One delivery -/

theorem sinks_collect (s : Session) (sink : Sink) (w : Warning) (k : Nat) :
    (s.collect sink w).sinks[k]? =
      (s.sinks[k]?).map (· ++ if sink = .collection k then [w] else []) := by
  cases sink with
  | console colours => simp [collect]
  | collection index =>
    show (s.sinks.modify index (· ++ [w]))[k]? = _
    rw [List.getElem?_modify]
    by_cases hk : index = k <;> simp [hk]

theorem Delivery.advice_of_scene? {s : Session} {i : Nat} {scene : Scene}
    (h : s.scene? i = some scene) (call : Call) :
    (⟨s, i, call⟩ : Delivery).advice = (scene.dispatch s.shared call).1 := by
  have hstep : s.step (.dispatch i call) = s.answer i (·.dispatch s.shared call) .advice := rfl
  rw [advice, hstep, answer_of_scene? h]

theorem Delivery.advice_of_no_scene {s : Session} {i : Nat} (h : s.scene? i = none) (call : Call) :
    (⟨s, i, call⟩ : Delivery).advice = none := by
  have hstep : s.step (.dispatch i call) = s.answer i (·.dispatch s.shared call) .advice := rfl
  rw [advice, hstep, answer_of_no_scene h]

theorem Delivery.owed_of_scene? {s : Session} {i : Nat} {scene : Scene}
    (h : s.scene? i = some scene) (call : Call) (k : Nat) :
    (⟨s, i, call⟩ : Delivery).owed k = if scene.engine.sink = .collection k then
      (scene.dispatch s.shared call).1.map Diagnostic.warning else none := by
  have hadvice := advice_of_scene? h call
  have hengine : s.engines[i]? = some scene.engine := (scene?_eq_some.mp h).1
  by_cases hk : scene.engine.sink = .collection k
  · simp only [owed, adviceTo, hadvice, hengine, hk, Option.map_some, if_pos]
    rfl
  · simp [owed, adviceTo, hengine, hk]

theorem Delivery.owed_of_no_scene {s : Session} {i : Nat} (h : s.scene? i = none) (call : Call)
    (k : Nat) : (⟨s, i, call⟩ : Delivery).owed k = none := by
  rw [owed, adviceTo, advice_of_no_scene h, ite_self, Option.map_none]

theorem sinks_observe (s : Session) (i : Nat) (call : Call) (k : Nat) :
    (s.observeBy Scene.probe i call).1.sinks[k]? =
      (s.sinks[k]?).map (· ++ ((⟨s, i, call⟩ : Delivery).owed k).toList) := by
  cases h : s.scene? i with
  | none =>
    rw [observe_of_no_scene h, Delivery.owed_of_no_scene h]
    simp
  | some scene =>
    have hsink : (scene.observe s.shared call).2.engine.sink = scene.engine.sink :=
      (Scene.leads_observe Scene.probe s.shared call scene).later.sink
    have hwarning : (scene.observe s.shared call).1 =
        (scene.dispatch s.shared call).1.map Diagnostic.warning := by
      rw [Scene.observe_eq]
    have hsinks : (s.restore i (scene.observe s.shared call).2).sinks = s.sinks := rfl
    rw [observe_of_scene? h, Delivery.owed_of_scene? h, hsink, hwarning]
    cases (scene.dispatch s.shared call).1 with
    | none => simp [hsinks]
    | some d =>
      rw [Option.map_some, Option.elim_some, sinks_collect, hsinks]
      by_cases hk : scene.engine.sink = .collection k <;> simp [hk]

theorem sinks_deliverAll (s : Session) (call : Call) (os : List Observer) (k : Nat) :
    (s.deliverAllBy Scene.probe call os).1.sinks[k]? =
      (s.sinks[k]?).map (· ++ (s.deliveriesTo call os).filterMap (·.owed k)) := by
  induction os generalizing s with
  | nil => simp [deliverAllBy, deliveriesTo]
  | cons o os ih =>
    cases o with
    | engine i =>
      have hrest : (s.deliverAllBy Scene.probe call (.engine i :: os)).1 =
          ((s.observeBy Scene.probe i call).1.deliverAllBy Scene.probe call os).1 := rfl
      have hnext : (s.step (.observe i call)).1 = (s.observeBy Scene.probe i call).1 := rfl
      rw [hrest, ih, sinks_observe, Option.map_map, deliveriesTo, hnext]
      congr 1
      funext held
      cases howed : (⟨s, i, call⟩ : Delivery).owed k <;> simp [howed]
    | recorder r => exact ih s

/-! ## Steps and runs -/

theorem sinks_answer {α : Type} (s : Session) (i : Nat) (f : Scene → α × Scene)
    (reply : α → Reply) : (s.answer i f reply).1.sinks = s.sinks := by
  cases h : s.scene? i with
  | none => rw [answer_of_no_scene h]
  | some scene => rw [answer_of_scene? h]; rfl

/-- Only observed calls, notifications and the taking of its warnings concern a sink. -/
theorem sinks_step_of_ne {st : Step} {k : Nat} (hobserve : ∀ i call, st ≠ .observe i call)
    (hnotify : ∀ set entry, st ≠ .notify set entry) (htake : st ≠ .take k) (s : Session) :
    (s.step st).1.sinks[k]? = s.sinks[k]? := by
  have hregister : ∀ set o, (s.register set o).1.sinks = s.sinks := by
    intro set o
    unfold register
    split <;> rfl
  cases st with
  | dispatch | probe | probeAfresh => exact congrArg (·[k]?) (sinks_answer s _ _ _)
  | observe i call => exact absurd rfl (hobserve i call)
  | check i under index callee call =>
    rw [step, stepBy]
    split
    · rfl
    · exact congrArg (·[k]?) (sinks_answer s i _ _)
  | take j =>
    have hj : j ≠ k := fun hj => htake (by rw [hj])
    exact List.getElem?_set_ne hj
  | registerEngine set i => exact congrArg (·[k]?) (hregister set _)
  | registerRecorder set => exact congrArg (·[k]?) (hregister set _)
  | unregister | sameId =>
    rw [step, stepBy]
    split <;> rfl
  | notify set entry => exact absurd rfl (hnotify set entry)
  | _ => rfl

theorem sinks_notify (s : Session) (set : Nat) (entry : EntryCall) (k : Nat) :
    (s.step (.notify set entry)).1.sinks[k]? =
      (s.sinks[k]?).map (· ++ (s.deliveriesBy (.notify set entry)).filterMap (·.owed k)) := by
  rw [step, stepBy, deliveriesBy]
  cases s.sets[set]? with
  | none => simp
  | some group =>
    cases entry.normalize? with
    | none => simp
    | some call => exact sinks_deliverAll s call group.observers k

theorem sinks_step {s : Session} {k : Nat} {held : List Warning} (h : s.sinks[k]? = some held)
    (st : Step) :
    ∃ held', (s.step st).1.sinks[k]? = some held' ∧
      takenBy k st (s.step st).2.2 ++ held' =
        held ++ (s.deliveriesBy st).filterMap (·.owed k) := by
  have hidle : (s.step st).1.sinks[k]? = s.sinks[k]? → takenBy k st (s.step st).2.2 = [] →
      s.deliveriesBy st = [] → ∃ held', (s.step st).1.sinks[k]? = some held' ∧
        takenBy k st (s.step st).2.2 ++ held' =
          held ++ (s.deliveriesBy st).filterMap (·.owed k) := by
    intro hsinks htaken hnone
    exact ⟨held, hsinks.trans h, by simp [htaken, hnone]⟩
  cases st with
  | observe i call =>
    have hsinks := sinks_observe s i call k
    rw [h, Option.map_some] at hsinks
    refine ⟨_, hsinks, ?_⟩
    cases howed : (⟨s, i, call⟩ : Delivery).owed k <;> simp [takenBy, deliveriesBy, howed]
  | notify set entry =>
    have hsinks := sinks_notify s set entry k
    rw [h, Option.map_some] at hsinks
    exact ⟨_, hsinks, by simp [takenBy]⟩
  | take j =>
    by_cases hj : j = k
    · subst hj
      have hlt := (List.getElem?_eq_some_iff.mp h).1
      have hreply : (s.step (.take j)).2.2 = .warnings held := by simp [step, stepBy, h]
      refine ⟨[], List.getElem?_set_self hlt, ?_⟩
      simp [hreply, takenBy, deliveriesBy]
    · refine hidle (List.getElem?_set_ne hj) ?_ rfl
      unfold takenBy
      split <;> simp_all
  | _ => exact hidle (sinks_step_of_ne (by simp) (by simp) (by simp) s) rfl rfl

theorem sinks_run {s : Session} {k : Nat} {held : List Warning} (h : s.sinks[k]? = some held)
    (steps : List Step) :
    ∃ held', (s.run steps).1.sinks[k]? = some held' ∧
      taken k steps (replies (s.run steps).2) ++ held' =
        held ++ (s.deliveries steps).filterMap (·.owed k) := by
  induction steps generalizing s held with
  | nil => exact ⟨held, h, by simp [taken, deliveries]⟩
  | cons st steps ih =>
    obtain ⟨now, hnow, htaken⟩ := sinks_step h st
    obtain ⟨later, hlater, hrest⟩ := ih hnow
    have hboth : taken k (st :: steps) (replies (s.run (st :: steps)).2) =
        takenBy k st (s.step st).2.2 ++
          taken k steps (replies ((s.step st).1.run steps).2) := rfl
    refine ⟨later, hlater, ?_⟩
    rw [hboth, deliveries, List.append_assoc, hrest, ← List.append_assoc, htaken,
      List.append_assoc, List.filterMap_append]

/-! ## Deliveries of advice that was only made -/

theorem later_of_mem_deliveriesTo {s : Session} {call : Call} {os : List Observer} {d : Delivery}
    (h : d ∈ s.deliveriesTo call os) : s.Later d.session := by
  induction os generalizing s with
  | nil => cases h
  | cons o os ih =>
    cases o with
    | engine i =>
      rcases List.mem_cons.mp h with rfl | h
      · exact .refl s
      · exact (later_step s (.observe i call)).trans (ih h)
    | recorder r => exact ih h

theorem later_of_mem_deliveriesBy {s : Session} {st : Step} {d : Delivery}
    (h : d ∈ s.deliveriesBy st) : s.Later d.session := by
  cases st with
  | observe i call =>
    obtain rfl := List.mem_singleton.mp h
    exact .refl s
  | notify set entry =>
    rw [deliveriesBy] at h
    split at h
    · exact later_of_mem_deliveriesTo h
    · cases h
  | _ => cases h

theorem addEngine_sinks {s t : Session} {p : Plan} {log : List Log.Entry}
    (h : s.addEngine p = .ok (t, log)) : t.sinks = s.sinks := by
  unfold addEngine at h
  split at h
  · obtain ⟨rfl, -⟩ := Prod.mk.inj (Except.ok.inj h)
    rfl
  · dsimp only at h
    split at h
    · cases h
    · obtain ⟨rfl, -⟩ := Prod.mk.inj (Except.ok.inj h)
      rfl

/-- At the beginning no warning was collected. -/
theorem Begins.sinks {s : Session} (h : s.Begins) {k : Nat} (hk : k < s.sinks.length) :
    s.sinks[k]? = some [] := by
  obtain ⟨behaviours, shared, sinks, sets, plans, log, h⟩ := h
  have hsinks : s.sinks = List.replicate sinks [] :=
    addEngines_induction (I := fun t => t.sinks = List.replicate sinks [])
      (fun _ _ _ _ hadd hs => (addEngine_sinks hadd).trans hs) h rfl
  rw [hsinks, List.length_replicate] at hk
  rw [hsinks, List.getElem?_replicate, if_pos hk]

end CallAdvice.Session
