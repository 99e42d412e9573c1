import CallAdvice.Proofs.Session.Knowledge
import CallAdvice.Proofs.Session.Refit
import CallAdvice.Proofs.Session.Untouched

/-! Shared selections are live. Only a write to a shared selection changes it, so at any time it is
the latest value written, or the first one (`Session.shared_run`). An engine that follows a shared
selection, one from a configuration file included, treats each call by that value alone: it works as
if its gate were wide open (`Session.LetThrough`), or turns the call away. -/
set_option autoImplicit false

namespace CallAdvice.Session

/-! ## The latest write -/

/-- What steps write to the shared selection `j`, in order. -/
def writes (j : Nat) (steps : List Step) : List Selection :=
  steps.filterMap fun
    | .setShared k selection => if k = j then some selection else none
    | _ => none

/-- The value of the shared selection `j` after steps: the latest one written, or else the one that
it had. -/
def latest (j : Nat) (initial : Selection) (steps : List Step) : Selection :=
  (writes j steps).getLastD initial

theorem latest_cons (j : Nat) (initial : Selection) (st : Step) (steps : List Step) :
    latest j initial (st :: steps) = latest j (latest j initial [st]) steps := by
  have hwrites : writes j (st :: steps) = writes j [st] ++ writes j steps :=
    List.filterMap_append (l := [st])
  unfold latest
  rw [hwrites, List.getLastD_eq_getLast?, List.getLast?_append, List.getLastD_eq_getLast?,
    List.getLastD_eq_getLast?]
  cases (writes j steps).getLast? <;> rfl

theorem shared_register (s : Session) (set : Nat) (o : Observer) :
    (s.register set o).1.shared = s.shared := by
  unfold register
  split <;> rfl

theorem shared_step_of_ne {j : Nat} {st : Step} (h : ∀ v, st ≠ .setShared j v) (s : Session) :
    (s.step st).1.shared[j]? = s.shared[j]? := by
  have hwork : st.isWork = true → (s.step st).1.shared[j]? = s.shared[j]? := by
    intro hst
    have huntouched : s.Untouched (s.step st).1 := untouched_step Scene.probe hst s
    rw [huntouched.shared]
  cases st with
  | setShared k v =>
    have hk : k ≠ j := by
      rintro rfl
      exact h v rfl
    exact List.getElem?_set_ne hk
  | registerEngine set i => exact congrArg (·[j]?) (shared_register s set _)
  | registerRecorder set => exact congrArg (·[j]?) (shared_register s set _)
  | unregister set handle =>
    unfold step
    rw [stepBy]
    split <;> rfl
  | _ => exact hwork rfl

theorem shared_step (s : Session) (st : Step) (j : Nat) :
    (s.step st).1.shared[j]? = (s.shared[j]?).map fun v => latest j v [st] := by
  by_cases hst : ∃ v, st = .setShared j v
  · obtain ⟨v, rfl⟩ := hst
    have hstep : (s.step (.setShared j v)).1.shared = s.shared.set j v := rfl
    rw [hstep, List.getElem?_set, if_pos rfl]
    by_cases hlt : j < s.shared.length
    · simp [hlt, latest, writes]
    · simp [hlt]
  · have hne : ∀ v, st ≠ .setShared j v := fun v hv => hst ⟨v, hv⟩
    have hwrites : writes j [st] = [] := by
      refine List.filterMap_eq_nil_iff.mpr ?_
      intro st' hst'
      obtain rfl := List.mem_singleton.mp hst'
      cases st' with
      | setShared k v =>
        have hk : k ≠ j := fun hk => hne v (by rw [hk])
        simp [hk]
      | _ => rfl
    rw [shared_step_of_ne hne]
    simp [latest, hwrites]

theorem shared_run (s : Session) (steps : List Step) (j : Nat) :
    (s.run steps).1.shared[j]? = (s.shared[j]?).map fun v => latest j v steps := by
  induction steps generalizing s with
  | nil =>
    show s.shared[j]? = (s.shared[j]?).map fun v => latest j v []
    simp [latest, writes]
  | cons st steps ih =>
    have hrun : (s.run (st :: steps)).1 = ((s.step st).1.run steps).1 := rfl
    rw [hrun, ih, shared_step, Option.map_map]
    congr 1
    funext v
    exact (latest_cons j v st steps).symm

/-! ## Calls let through -/

/-- The session with the gate of engine `i` wide open. -/
def ungated (s : Session) (i : Nat) : Session :=
  { s with engines := s.engines.modify i Engine.ungated }

/-- `s.LetThrough i call`: a call handed to engine `i`, in any way, gets the same answer as through
a gate that is wide open, with the same events and the same changes. -/
structure LetThrough (s : Session) (i : Nat) (call : Call) : Prop where
  dispatch : (s.ungated i).step (.dispatch i call) =
    ((s.step (.dispatch i call)).1.ungated i, (s.step (.dispatch i call)).2)
  observe : (s.ungated i).step (.observe i call) =
    ((s.step (.observe i call)).1.ungated i, (s.step (.observe i call)).2)
  delivery : (s.ungated i).deliverBy Scene.probe call (.engine i) =
    ((s.deliverBy Scene.probe call (.engine i)).1.ungated i,
      (s.deliverBy Scene.probe call (.engine i)).2)

theorem letThrough {s : Session} {i : Nat} {scene : Scene} (h : s.scene? i = some scene)
    (hquiet : scene.engine.source.announced = false)
    (hopen : (scene.engine.source.read s.shared scene.engine.reads).allows = true) (call : Call) :
    s.LetThrough i call := by
  have hhost : ∀ e : Engine, e.ungated.host = e.host := fun _ => rfl
  have hsame : ∀ scene', s.scene? i = some scene' → scene' = scene := by
    intro scene' hscene'
    rw [h] at hscene'
    exact (Option.some.inj hscene').symm
  have hobserve : (s.ungated i).observeBy Scene.probe i call =
      ((s.observeBy Scene.probe i call).1.ungated i, (s.observeBy Scene.probe i call).2) := by
    refine observe_refit hhost (fun _ => rfl) s i i call ?_
    intro scene' _ hscene'
    rw [hsame scene' hscene']
    exact Scene.observe_ungated hquiet hopen call
  refine ⟨?_, ?_, hobserve⟩
  · refine answer_refit hhost s i i (·.dispatch s.shared call) .advice ?_
    intro scene' _ hscene'
    rw [hsame scene' hscene']
    exact Scene.dispatch_ungated hquiet hopen call
  · have hstep : ∀ u : Session, u.step (.observe i call) =
        ((u.observeBy Scene.probe i call).1, (u.observeBy Scene.probe i call).2, .done) :=
      fun _ => rfl
    rw [hstep, hstep, hobserve]

/-- An engine that follows a shared selection decides by its value. -/
theorem letThrough_or_turnedAway {s : Session} {i j : Nat} {scene : Scene} {v : Selection}
    (h : s.scene? i = some scene) (hsource : scene.engine.source = .shared j)
    (hj : s.shared[j]? = some v) (call : Call) :
    (v.allows = true → s.LetThrough i call) ∧ (v.allows = false → s.TurnedAway i scene call) := by
  have hread : scene.engine.source.read s.shared scene.engine.reads = v := by
    rw [hsource, Source.read, List.getD_eq_getElem?_getD, hj]
    rfl
  refine ⟨?_, ?_⟩
  · intro hv
    exact letThrough h (by rw [hsource]; rfl) (by rw [hread]; exact hv) call
  · intro hv
    exact turnedAway h (by rw [hread]; exact Selection.excludes_iff.mpr hv) call

/-! ## Selections from configurations -/

/-- Whether a plan takes its selection from the configuration of a project. -/
def Plan.fromProject (p : Plan) : Bool :=
  match p.setup with
  | .direct .. => false
  | .project .. => true

/-- `p.Equips e j s`: the engine `e` has the source that the plan gives it. With the configuration
of a project that is the shared selection `j`, which holds what was loaded. -/
def Plan.Equips (p : Plan) (e : Engine) (j : Nat) (s : Session) : Prop :=
  match p.setup with
  | .direct source _ _ => e.source = source
  | .project reader files root => e.source = .shared j ∧
    ∃ config, Config.load reader files root = .ok config ∧ s.shared[j]? = some config.warnings

theorem source_pinAll (e : Engine) (pins : List (Capability × Bool)) :
    (e.pinAll pins).source = e.source := by
  rw [pinAll_eq]

theorem Plan.Equips.more {p : Plan} {e : Engine} {j : Nat} {s t : Session} (h : p.Equips e j s)
    (hmore : s.shared <+: t.shared) : p.Equips e j t := by
  unfold Equips at h ⊢
  split at h
  · exact h
  · obtain ⟨hsource, config, hload, hj⟩ := h
    obtain ⟨added, hadded⟩ := hmore
    have hlt := (List.getElem?_eq_some_iff.mp hj).1
    refine ⟨hsource, config, hload, ?_⟩
    rw [← hadded, List.getElem?_append_left hlt]
    exact hj

theorem addEngine_equips {s t : Session} {p : Plan} {log : List Log.Entry}
    (h : s.addEngine p = .ok (t, log)) :
    ∃ e, t.engines = s.engines ++ [e] ∧ p.Equips e s.shared.length t ∧ s.shared <+: t.shared ∧
      t.shared.length = s.shared.length + [p].countP Plan.fromProject := by
  unfold addEngine at h
  unfold Plan.Equips
  cases hp : p.setup with
  | direct source pins configured =>
    rw [hp] at h
    obtain ⟨rfl, -⟩ := Prod.mk.inj (Except.ok.inj h)
    refine ⟨_, rfl, (source_pinAll _ _).trans (source_pinAll _ _), ⟨[], List.append_nil _⟩, ?_⟩
    simp [Plan.fromProject, hp]
  | project reader files root =>
    rw [hp] at h
    dsimp only at h
    split at h
    · cases h
    · next config hload =>
      obtain ⟨rfl, -⟩ := Prod.mk.inj (Except.ok.inj h)
      refine ⟨_, rfl, ⟨source_pinAll _ _, config, hload, ?_⟩, ⟨_, rfl⟩, ?_⟩
      · exact List.getElem?_concat_length
      · simp [Plan.fromProject, hp]

theorem addEngines_equips {s t : Session} {plans : List Plan} {log : List Log.Entry}
    (h : s.addEngines plans = .ok (t, log)) :
    s.shared <+: t.shared ∧ s.engines <+: t.engines ∧
      ∀ k p, plans[k]? = some p → ∃ e, t.engines[s.engines.length + k]? = some e ∧
        p.Equips e (s.shared.length + (plans.take k).countP Plan.fromProject) t := by
  induction plans generalizing s log with
  | nil =>
    obtain ⟨rfl, -⟩ := Prod.mk.inj (Except.ok.inj h)
    exact ⟨⟨[], List.append_nil _⟩, ⟨[], List.append_nil _⟩, by simp⟩
  | cons q plans ih =>
    obtain ⟨u, now, later, hu, hv, -⟩ := addEngines_cons.mp h
    obtain ⟨e, hengines, hequips, hshared, hlength⟩ := addEngine_equips hu
    obtain ⟨hshared', hengines', hrest⟩ := ih hv
    refine ⟨hshared.trans hshared', List.IsPrefix.trans ⟨[e], hengines.symm⟩ hengines', ?_⟩
    intro k p hk
    cases k with
    | zero =>
      obtain rfl : q = p := by simpa using hk
      -- Later engines and their selections are appended, so this one keeps its place.
      refine ⟨e, ?_, hequips.more hshared'⟩
      obtain ⟨added, hadded⟩ := hengines'
      rw [← hadded, hengines]
      simp
    | succ k =>
      obtain ⟨e', he', hequips'⟩ := hrest k p (by simpa using hk)
      rw [hengines, List.length_append] at he'
      have hcount : ((q :: plans).take (k + 1)).countP Plan.fromProject =
          [q].countP Plan.fromProject + (plans.take k).countP Plan.fromProject := by
        rw [List.take_succ_cons, ← List.singleton_append, List.countP_append]
      rw [hlength, Nat.add_assoc, ← hcount] at hequips'
      refine ⟨e', ?_, hequips'⟩
      have hindex : s.engines.length + (k + 1) = s.engines.length + [e].length + k := by
        simp; omega
      rw [hindex]
      exact he'

/-! ## The latest write decides -/

/-- However a session goes on, and whatever observers were told of the call before: an engine that
follows a shared selection decides by the latest write to it. -/
theorem decides_by_latest {s : Session} {i j : Nat} {scene : Scene} {v : Selection}
    (h : s.scene? i = some scene) (hsource : scene.engine.source = .shared j)
    (hj : s.shared[j]? = some v) (steps : List Step) (call : Call) (earlier : List Observer) :
    ∃ scene', ((s.run steps).1.deliverAllBy Scene.probe call earlier).1.scene? i = some scene' ∧
      ((latest j v steps).allows = true →
        ((s.run steps).1.deliverAllBy Scene.probe call earlier).1.LetThrough i call) ∧
      ((latest j v steps).allows = false →
        ((s.run steps).1.deliverAllBy Scene.probe call earlier).1.TurnedAway i scene' call) := by
  have hlater := (later_run s steps).trans
    (leads_deliverAll Scene.probe (s.run steps).1 call earlier).later
  obtain ⟨scene', hscene, hmake⟩ := hlater.scene h
  have hshared := (untouched_deliverAll Scene.probe (s.run steps).1 call earlier).shared
  have hlatest : ((s.run steps).1.deliverAllBy Scene.probe call earlier).1.shared[j]? =
      some (latest j v steps) := by
    rw [hshared, shared_run, hj, Option.map_some]
  exact ⟨scene', hscene, letThrough_or_turnedAway hscene (hmake.source.trans hsource) hlatest call⟩

/-- In every session with engines made by plan, over every run: each shared selection begins as it
was given, and those of engines made from the configurations of projects, which follow after them in
the order of the engines, as loaded; to look at a shared selection gives the latest write to it, or
how it began; no step but a write to it changes it; and whenever a call is handed to an engine that
follows it, by a dispatch, by an observe or after any observers of a set were told, that value
decides: the engine works as through an open gate, or turns the call away. -/
theorem latest_write_decides {hosts : List Host} {shared : List Selection} {sinks sets : Nat}
    {plans : List Plan} {s : Session} {log : List Log.Entry}
    (hs : (start hosts shared sinks sets).addEngines plans = .ok (s, log)) (steps : List Step) :
    (∀ (j : Nat) v, shared[j]? = some v → s.shared[j]? = some v) ∧
    (∀ (k : Nat) p, plans[k]? = some p → ∃ e, s.engines[k]? = some e ∧
      p.Equips e (shared.length + (plans.take k).countP Plan.fromProject) s) ∧
    (∀ j v, s.shared[j]? = some v →
      ((s.run steps).1.step (.getShared j)).2.2 = .selection (latest j v steps)) ∧
    (∀ j st, (∀ v, st ≠ .setShared j v) →
      ((s.run steps).1.step st).1.shared[j]? = (s.run steps).1.shared[j]?) ∧
    ∀ i scene j v, s.scene? i = some scene → scene.engine.source = .shared j →
      s.shared[j]? = some v → ∀ call earlier, ∃ scene',
        ((s.run steps).1.deliverAllBy Scene.probe call earlier).1.scene? i = some scene' ∧
        ((latest j v steps).allows = true →
          ((s.run steps).1.deliverAllBy Scene.probe call earlier).1.LetThrough i call) ∧
        ((latest j v steps).allows = false →
          ((s.run steps).1.deliverAllBy Scene.probe call earlier).1.TurnedAway i scene' call) := by
  obtain ⟨hshared, -, hequips⟩ := addEngines_equips hs
  refine ⟨?_, ?_, ?_, ?_, ?_⟩
  · intro j v hj
    obtain ⟨added, hadded⟩ := hshared
    have hlt := (List.getElem?_eq_some_iff.mp hj).1
    rw [← hadded]
    exact (List.getElem?_append_left hlt).trans hj
  · intro k p hk
    obtain ⟨e, he, hp⟩ := hequips k p hk
    have hindex : (start hosts shared sinks sets).engines.length + k = k := Nat.zero_add k
    rw [hindex] at he
    exact ⟨e, he, hp⟩
  · intro j v hj
    have hget : ((s.run steps).1.step (.getShared j)).2.2 =
        (((s.run steps).1.shared[j]?).map .selection).getD .missing := rfl
    rw [hget, shared_run, hj]
    rfl
  · intro j st hst
    exact shared_step_of_ne hst _
  · intro i scene j v h hsource hj call earlier
    exact decides_by_latest h hsource hj steps call earlier

/-- Two engines follow one shared selection, a third the one from its project, whose file switches
advice off to begin with. Both are written to between the steps of the engines. -/
theorem latest_write_decides_of_three :
    let host := Host.fresh fun _ _ => .ok
    let plan (setup : Setup) : Plan := ⟨0, setup, .builtin, .collection 0⟩
    let files : Config.Files := fun path =>
      if path = "root/.simplify/config.toml" then .content "warnings = false".toUTF8 else .missing
    let plans := [plan (.direct (.shared 0) [] .empty), plan (.project .toml files "root"),
      plan (.direct (.shared 0) [] .empty)]
    let follows (j : Nat) : Engine := { Engine.new 0 (.shared j) with sink := .collection 0 }
    let s : Session :=
      ⟨[host], [.all, .none], [[]], [.empty], [follows 0, follows 1, follows 0], [], 0⟩
    let kill : Call := .named "kill-buffer" [.nil]
    let steps : List Step := [.setShared 0 .none, .dispatch 0 kill, .setShared 1 .all,
      .registerEngine 0 1, .setShared 0 (.onlyList ["simplify"]),
      .setShared 1 (.exceptList ["simplify"]), .dispatch 2 kill]
    (start [host] [.all] 1 1).addEngines plans = .ok (s, [.configLoaded .none 0]) ∧
      (s.step (.getShared 1)).2.2 = .selection .none ∧
      ((s.run steps).1.step (.getShared 0)).2.2 = .selection (.onlyList ["simplify"]) ∧
      (s.run steps).1.LetThrough 0 kill ∧
      ((s.run steps).1.deliverAllBy Scene.probe kill [.engine 0, .recorder 0]).1.LetThrough 2 kill ∧
      ∃ scene, (s.run steps).1.TurnedAway 1 scene kill := by
  intro host plan files plans follows s kill steps
  have hs : (start [host] [.all] 1 1).addEngines plans = .ok (s, [.configLoaded .none 0]) := rfl
  obtain ⟨-, -, hbegin, -, -⟩ := latest_write_decides hs []
  obtain ⟨-, -, hget, -, hdecides⟩ := latest_write_decides hs steps
  obtain ⟨-, -, hfirst, -⟩ := hdecides 0 _ 0 .all rfl rfl rfl kill []
  obtain ⟨-, -, hthird, -⟩ := hdecides 2 _ 0 .all rfl rfl rfl kill [.engine 0, .recorder 0]
  obtain ⟨scene, -, -, hsecond⟩ := hdecides 1 _ 1 .none rfl rfl rfl kill []
  exact ⟨hs, hbegin 1 .none rfl, hget 0 .all rfl, hfirst (by decide), hthird (by decide), scene,
    hsecond (by decide)⟩

end CallAdvice.Session
