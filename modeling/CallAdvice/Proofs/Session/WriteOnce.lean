import Mathlib.Algebra.GroupWithZero.Nat
import CallAdvice.Proofs.Host.Probe
import CallAdvice.Proofs.Session.Knowledge

/-! Answers are given once and for all, whatever the hosts do. Every request for a scratch context
settles a capability that an engine knew nothing about, unless it belongs to a probe afresh: what a
host was asked for, together with what its engines do not know yet, grows by the probes afresh alone
(`Session.demand_run`). This bounds the requests that a host gets in a whole run. -/
set_option autoImplicit false

namespace CallAdvice

/-! ## What an engine does not know yet -/

namespace Engine

/-- The number of capabilities that are not pinned. -/
def unpinned (e : Engine) : Nat := Capability.all.countP fun c => (e.pins.get c).isNone

/-- The number of capabilities that nothing is known about. -/
def unknown (e : Engine) : Nat := Capability.all.countP fun c => (e.known? c).isNone

theorem unknown_remember {e : Engine} {c : Capability} (b : Bool) (h : e.known? c = none) :
    (e.remember c b).unknown + 1 = e.unknown := by
  have hknown := fun d => known?_remember e c d b (pins_of_known?_eq_none h)
  unfold unknown
  simp only [Capability.all, List.countP_cons, List.countP_nil, hknown]
  cases c <;> simp [h] <;> omega

theorem unknown_of_memory {e : Engine} (h : e.memory = .fill none) : e.unknown = e.unpinned := by
  have hknown : ∀ c, e.known? c = e.pins.get c := by
    intro c
    unfold known?
    rw [h, Slots.get_fill]
    cases e.pins.get c <;> rfl
  unfold unknown unpinned
  simp only [hknown]

end Engine

namespace Scene

/-- The requests for a scratch context that the host got, and those that the engine may still make
of its own accord. -/
def demand (s : Scene) : Nat := s.host.acquires + s.engine.unknown

theorem demand_probeAfresh (c : Capability) (s : Scene) :
    (s.probeAfresh c).2.demand = s.demand + 1 := by
  unfold demand
  rw [probeAfresh_host, probeAfresh_engine, Host.acquires_probe]
  omega

theorem demand_probe (c : Capability) (s : Scene) : (s.probe c).2.demand = s.demand := by
  cases h : s.engine.known? c with
  | some b =>
    rw [probe_of_known h]
    rfl
  | none =>
    have hafresh := demand_probeAfresh c s
    have hunknown := Engine.unknown_remember (s.probeAfresh c).1 h
    rw [probe_of_unknown h]
    unfold demand at hafresh ⊢
    rw [probeAfresh_engine] at hafresh
    rw [happen_host, happen_engine]
    show (s.probeAfresh c).2.host.acquires + (s.engine.remember c (s.probeAfresh c).1).unknown = _
    omega

theorem Leads.demand {s t : Scene} (h : Leads Scene.probe s t) : t.demand = s.demand := by
  induction h with
  | refl => rfl
  | note events he _ ih => exact ih
  | read shared _ ih => exact ih
  | ask c _ ih => exact (demand_probe c _).trans ih

end Scene

namespace Session

/-! ## Sums over engines -/

theorem sum_map_set {α : Type} (f : α → Nat) {l : List α} {i : Nat} {a : α} (h : l[i]? = some a)
    (b : α) : ((l.set i b).map f).sum + f a = (l.map f).sum + f b := by
  induction l generalizing i with
  | nil => cases h
  | cons x l ih =>
    cases i with
    | zero =>
      rw [List.getElem?_cons_zero] at h
      obtain rfl := Option.some.inj h
      simp only [List.set_cons_zero, List.map_cons, List.sum_cons]
      omega
    | succ i =>
      rw [List.getElem?_cons_succ] at h
      have hrest := ih h
      simp only [List.set_cons_succ, List.map_cons, List.sum_cons]
      omega

/-- The sum of a number over the engines of host `j`. -/
def sumAt (s : Session) (j : Nat) (f : Engine → Nat) : Nat :=
  (s.engines.map fun e => if e.host = j then f e else 0).sum

/-- The requests for a scratch context that host `j` got, and those that its engines may still make
of their own accord. -/
def demand (s : Session) (j : Nat) : Nat :=
  ((s.hosts[j]?).map Host.acquires).getD 0 + s.sumAt j Engine.unknown

theorem demand_congr {s t : Session} (he : t.engines = s.engines) (hh : t.hosts = s.hosts)
    (j : Nat) : t.demand j = s.demand j := by
  unfold demand sumAt
  rw [he, hh]

theorem demand_restore {s : Session} {i : Nat} {before after : Scene}
    (h : s.scene? i = some before) (hhost : after.engine.host = before.engine.host) (j : Nat) :
    (s.restore i after).demand j + (if before.engine.host = j then before.demand else 0) =
      s.demand j + (if before.engine.host = j then after.demand else 0) := by
  obtain ⟨he, hh, -⟩ := scene?_eq_some.mp h
  have hsum := sum_map_set (fun e => if e.host = j then e.unknown else 0) he after.engine
  simp only [hhost] at hsum
  unfold demand sumAt
  rw [engines_restore, hosts_restore, hhost]
  by_cases hj : before.engine.host = j
  · subst hj
    have hlt := (List.getElem?_eq_some_iff.mp hh).1
    simp only [if_true] at hsum ⊢
    rw [List.getElem?_set_self hlt, hh]
    unfold Scene.demand
    simp only [Option.map_some, Option.getD_some]
    omega
  · simp only [if_neg hj] at hsum ⊢
    rw [List.getElem?_set_ne hj]
    omega

theorem Leads.demand {s t : Session} {events : List Event} (h : Leads Scene.probe s events t)
    (j : Nat) : t.demand j = s.demand j := by
  induction h with
  | refl => rfl
  | work i _ hscene hleads ih =>
    have hrestore := demand_restore hscene hleads.later.host j
    rw [hleads.demand] at hrestore
    omega
  | seen _ _ _ ih => exact ih
  | other _ he hh ih => exact (demand_congr he hh j).trans ih

/-! ## Probes afresh -/

/-- Whether a step lets an engine of host `j` probe afresh. -/
def isAfreshAt (s : Session) (j : Nat) : Step → Bool
  | .probeAfresh i _ => (s.engines[i]?).map (·.host) == some j
  | _ => false

theorem Later.isAfreshAt {s t : Session} (h : s.Later t) (j : Nat) (st : Step) :
    t.isAfreshAt j st = s.isAfreshAt j st := by
  cases st with
  | probeAfresh i c => exact congrArg (· == some j) (h.host i)
  | _ => rfl

theorem isAfreshAt_probeAfresh {s : Session} {i : Nat} {scene : Scene}
    (h : s.scene? i = some scene) (j : Nat) (c : Capability) :
    s.isAfreshAt j (.probeAfresh i c) = true ↔ scene.engine.host = j := by
  have he := (scene?_eq_some.mp h).1
  simp [Session.isAfreshAt, he]

/-- An engine of a host that is there can work. -/
theorem scene_of_isAfreshAt {s : Session} {j : Nat} {st : Step} (hj : j < s.hosts.length)
    (h : s.isAfreshAt j st = true) :
    ∃ i c scene, st = .probeAfresh i c ∧ s.scene? i = some scene := by
  cases st with
  | probeAfresh i c =>
    simp only [Session.isAfreshAt, beq_iff_eq, Option.map_eq_some_iff] at h
    obtain ⟨e, he, rfl⟩ := h
    exact ⟨i, c, ⟨e, s.hosts[e.host], []⟩, rfl,
      scene?_eq_some.mpr ⟨he, List.getElem?_eq_getElem hj, rfl⟩⟩
  | _ => cases h

theorem demand_step {s : Session} {j : Nat} (hj : j < s.hosts.length) (st : Step) :
    (s.stepBy Scene.probe st).1.demand j = s.demand j + if s.isAfreshAt j st then 1 else 0 := by
  have hafresh : ∀ i c scene, s.scene? i = some scene →
      (s.stepBy Scene.probe (.probeAfresh i c)).1.demand j =
        s.demand j + if scene.engine.host = j then 1 else 0 := by
    intro i c scene hscene
    have hhost : (scene.probeAfresh c).2.engine.host = scene.engine.host := rfl
    have hrestore := demand_restore hscene hhost j
    rw [Scene.demand_probeAfresh] at hrestore
    rw [step_probeAfresh Scene.probe hscene]
    show (s.restore i (scene.probeAfresh c).2).demand j = _
    by_cases h : scene.engine.host = j
    · simp only [if_pos h] at hrestore ⊢
      omega
    · simp only [if_neg h] at hrestore ⊢
      omega
  cases hst : s.isAfreshAt j st with
  | true =>
    obtain ⟨i, c, scene, rfl, hscene⟩ := scene_of_isAfreshAt hj hst
    rw [hafresh i c scene hscene, if_pos ((isAfreshAt_probeAfresh hscene j c).mp hst)]
    rfl
  | false =>
    rcases step_leads_or_probeAfresh Scene.probe s st with h | ⟨i, c, scene, rfl, hscene⟩
    · exact h.demand j
    · have hne : scene.engine.host ≠ j := by
        rw [Ne, ← isAfreshAt_probeAfresh hscene j c, hst]
        simp
      rw [hafresh i c scene hscene, if_neg hne]
      rfl

/-- The number of probes afresh by engines of host `j`. -/
def afreshAt (s : Session) (j : Nat) (steps : List Step) : Nat := steps.countP (s.isAfreshAt j)

theorem demand_run {s : Session} {j : Nat} (hj : j < s.hosts.length) (steps : List Step) :
    (s.run steps).1.demand j = s.demand j + s.afreshAt j steps := by
  induction steps generalizing s with
  | nil => rfl
  | cons st steps ih =>
    have hlater := later_step s st
    have hstep := demand_step hj st
    have hrest := ih (s := (s.stepBy Scene.probe st).1) (hlater.hosts.symm ▸ hj)
    have hafresh : (s.stepBy Scene.probe st).1.afreshAt j steps = s.afreshAt j steps :=
      congrArg (steps.countP ·) (funext (hlater.isAfreshAt j))
    have hrun : (s.run (st :: steps)).1 = ((s.stepBy Scene.probe st).1.run steps).1 := rfl
    have hcons : s.afreshAt j (st :: steps) =
        s.afreshAt j steps + if s.isAfreshAt j st then 1 else 0 := List.countP_cons
    rw [hrun, hrest, hafresh, hcons, hstep]
    omega

theorem Begins.demand {s : Session} (h : s.Begins) (j : Nat) :
    s.demand j = s.sumAt j Engine.unpinned := by
  have hacquires : ((s.hosts[j]?).map Host.acquires).getD 0 = 0 := by
    cases hj : s.hosts[j]? with
    | none => rfl
    | some host =>
      simp only [Option.map_some, Option.getD_some, Host.acquires]
      rw [h.history (List.mem_of_getElem? hj), List.countP_nil]
  have hsum : s.sumAt j Engine.unknown = s.sumAt j Engine.unpinned := by
    unfold sumAt
    refine congrArg List.sum (List.map_congr_left fun e he => ?_)
    rw [Engine.unknown_of_memory (h.memory he)]
  unfold Session.demand
  rw [hacquires, hsum, Nat.zero_add]

/-- In a run, a host gets at most one request for a scratch context for each capability that one of
its engines has not pinned, and one for each probe afresh. -/
theorem acquires_le {s : Session} (h : s.Begins) {steps : List Step} {j : Nat} {host : Host}
    (hj : (s.run steps).1.hosts[j]? = some host) :
    host.acquires ≤ s.sumAt j Engine.unpinned + s.afreshAt j steps := by
  have hlt : j < s.hosts.length := by
    rw [← (later_run s steps).hosts]
    exact (List.getElem?_eq_some_iff.mp hj).1
  have hrun := demand_run hlt steps
  have hdemand : host.acquires ≤ (s.run steps).1.demand j := by
    unfold demand
    rw [hj]
    exact Nat.le_add_right _ _
  rw [h.demand j] at hrun
  omega

theorem engines_probeAfresh (s : Session) (i : Nat) (c : Capability) :
    (s.step (.probeAfresh i c)).1.engines = s.engines := by
  have hstep : s.step (.probeAfresh i c) = s.answer i (·.probeAfresh c) .truth := rfl
  rw [hstep]
  cases h : s.scene? i with
  | none => rw [answer_of_no_scene h]
  | some scene =>
    have hengines : (s.restore i scene).engines = s.engines := by rw [restore_self h]
    rw [answer_of_scene? h]
    exact hengines

/-- The part of a scene that a probe afresh looks at. -/
theorem scene_congr {s t : Session} (hh : t.hosts = s.hosts)
    (he : t.engines.map (·.host) = s.engines.map (·.host)) {i : Nat} {scene : Scene}
    (h : s.scene? i = some scene) :
    ∃ e, e.host = scene.engine.host ∧ t.scene? i = some ⟨e, scene.host, []⟩ := by
  obtain ⟨hengine, hhost, -⟩ := scene?_eq_some.mp h
  have hi := congrArg (·[i]?) he
  simp only [List.getElem?_map, hengine, Option.map_some] at hi
  obtain ⟨e, hei, heq⟩ := Option.map_eq_some_iff.mp hi
  exact ⟨e, heq, scene?_eq_some.mpr ⟨hei, by rw [heq, hh]; exact hhost, rfl⟩⟩

/-- Of an engine, a probe afresh looks at the number of its host only. -/
theorem step_probeAfresh_congr {s t : Session} (hh : t.hosts = s.hosts)
    (he : t.engines.map (·.host) = s.engines.map (·.host)) (i : Nat) (c : Capability) :
    (t.step (.probeAfresh i c)).2 = (s.step (.probeAfresh i c)).2 ∧
      (t.step (.probeAfresh i c)).1.hosts = (s.step (.probeAfresh i c)).1.hosts := by
  have hstep : ∀ u : Session, u.step (.probeAfresh i c) = u.answer i (·.probeAfresh c) .truth :=
    fun _ => rfl
  rw [hstep, hstep]
  cases hs : s.scene? i with
  | none =>
    have ht : t.scene? i = none := by
      cases ht : t.scene? i with
      | none => rfl
      | some scene =>
        obtain ⟨e, -, he⟩ := scene_congr hh.symm he.symm ht
        rw [hs] at he
        cases he
    rw [answer_of_no_scene hs, answer_of_no_scene ht]
    exact ⟨rfl, hh⟩
  | some scene =>
    obtain ⟨e, hhost, ht⟩ := scene_congr hh he hs
    have hevents := (scene?_eq_some.mp hs).2.2
    obtain ⟨e', host, events⟩ := scene
    dsimp only at hevents hhost
    subst hevents
    rw [answer_of_scene? hs, answer_of_scene? ht, hosts_restore, hosts_restore]
    simp only [Scene.probeAfresh_engine, Scene.probeAfresh_host, hhost, hh]
    exact ⟨rfl, trivial⟩

/-! ## Once and for all -/

/-- In every run, whatever the hosts do: an engine answers a question for a capability, asked by a
step or by a matcher, for ever in the same way; a probe afresh neither looks at nor changes what an
engine has pinned or remembers; a host gets no more requests for a scratch context than there are
capabilities that its engines have not pinned and probes afresh; and an engine gives the same advice
on a call whenever its gate is open. -/
theorem answers_write_once {s : Session} (hs : s.Begins) (steps : List Step) :
    (∀ i k c b, .atEngine i k (.answered c b) ∈ happened (s.run steps).2 →
      (∀ k' b', .atEngine i k' (.answered c b') ∈ happened (s.run steps).2 → b' = b) ∧
      ((s.run steps).1.step (.probe i c)).2.2 = .truth b) ∧
    (∀ i c b, ((s.run steps).1.step (.probe i c)).2.2 = .truth b →
      ∃ k, .atEngine i k (.answered c b) ∈ ((s.run steps).1.step (.probe i c)).2.1) ∧
    (∀ i c, ((s.run steps).1.step (.probeAfresh i c)).1.engines = (s.run steps).1.engines ∧
      ∀ t : Session, t.hosts = (s.run steps).1.hosts →
        t.engines.map (·.host) = (s.run steps).1.engines.map (·.host) →
        (t.step (.probeAfresh i c)).2 = ((s.run steps).1.step (.probeAfresh i c)).2 ∧
        (t.step (.probeAfresh i c)).1.hosts = ((s.run steps).1.step (.probeAfresh i c)).1.hosts) ∧
    (∀ j host, (s.run steps).1.hosts[j]? = some host →
      host.acquires ≤ s.sumAt j Engine.unpinned + s.afreshAt j steps) ∧
    ∀ i call between, (s.run steps).1.GateOpen i →
      ((s.run steps).1.run (.dispatch i call :: between)).1.GateOpen i →
      (((s.run steps).1.run (.dispatch i call :: between)).1.step (.dispatch i call)).2.2 =
        ((s.run steps).1.step (.dispatch i call)).2.2 := by
  refine ⟨?_, ?_, ?_, ?_, ?_⟩
  · intro i k c b h
    have hknows := knows_of_answered h
    refine ⟨?_, step_probe_of_knows hknows⟩
    intro k' b' h'
    exact (knows_of_answered h').unique hknows
  · intro i c b h
    exact answered_of_step_probe h
  · intro i c
    refine ⟨engines_probeAfresh _ i c, ?_⟩
    intro t hh he
    exact step_probeAfresh_congr hh he i c
  · intro j host hj
    exact acquires_le hs hj
  · intro i call between hopen hagain
    exact step_dispatch_again between hopen hagain

/-- A host that crashes from the fourth request on: what an engine found out before stays, and so
does its advice. -/
theorem answers_write_once_crashing :
    let b : Host.Behaviour := fun history _ => if history.length < 3 then .ok else .crash
    let s : Session := ⟨[Host.fresh b], [], [], [], [Engine.new 0 (.fixed .all)], [], 0⟩
    let kill : Step := .dispatch 0 (.named "kill-buffer" [.nil])
    let steps : List Step := [kill, .probeAfresh 0 .killBuffer]
    s.Begins ∧ replies (s.run steps).2 = [(s.step kill).2.2, .truth false] ∧
      ((s.run steps).1.step (.probe 0 .killBuffer)).2.2 = .truth true ∧
      s.GateOpen 0 ∧ (s.run steps).1.GateOpen 0 ∧
      ((s.run steps).1.step kill).2.2 = (s.step kill).2.2 := by
  intro b s kill steps
  have hs : s.Begins :=
    ⟨[b], [], 0, 0, [⟨0, .direct (.fixed .all) [] .empty, .builtin, .console false⟩], [], rfl⟩
  have hanswer : .atEngine 0 0 (.answered .killBuffer true) ∈ happened (s.run steps).2 := by
    decide
  have hopen : s.GateOpen 0 := ⟨_, rfl, rfl⟩
  have hagain : (s.run steps).1.GateOpen 0 := ⟨_, rfl, rfl⟩
  have hprobe := ((answers_write_once hs steps).1 0 0 .killBuffer true hanswer).2
  have hsame := (answers_write_once hs []).2.2.2.2 0 (.named "kill-buffer" [.nil])
    [.probeAfresh 0 .killBuffer] hopen hagain
  exact ⟨hs, rfl, hprobe, hopen, hagain, hsame⟩

end Session

end CallAdvice
