import CallAdvice.Proofs.Engine.Gate
import CallAdvice.Proofs.Session.Work

/-! The gates of the engines of a session. Over any course of a session an engine reads its
selection once for each call that it is handed, by a dispatch, by an observe or by a notification,
and at no other time (`Session.reads_run`). Where the selection excludes advice, the call changes
nothing but the number of reads (`Session.TurnedAway`). -/
set_option autoImplicit false

namespace CallAdvice.Session

/-! ## Engines put back -/

theorem scene?_restore_self {s : Session} {i : Nat} {before after : Scene}
    (h : s.scene? i = some before) (hhost : after.engine.host = before.engine.host) :
    (s.restore i after).scene? i = some ⟨after.engine, after.host, []⟩ := by
  obtain ⟨he, hh, -⟩ := scene?_eq_some.mp h
  have hi : i < s.engines.length := (List.getElem?_eq_some_iff.mp he).1
  have hj : before.engine.host < s.hosts.length := (List.getElem?_eq_some_iff.mp hh).1
  refine scene?_eq_some.mpr ⟨?_, ?_, rfl⟩
  · rw [engines_restore, List.getElem?_set_self hi]
  · rw [hosts_restore, hhost, List.getElem?_set_self hj]

theorem scene?_restore_of_ne {s : Session} {i j : Nat} {scene : Scene} (after : Scene)
    (h : s.scene? i = some scene) (hne : j ≠ i) :
    ∃ host, (s.restore j after).scene? i = some ⟨scene.engine, host, []⟩ := by
  obtain ⟨he, hh, -⟩ := scene?_eq_some.mp h
  have hlt : scene.engine.host < (s.restore j after).hosts.length := by
    rw [hosts_restore, List.length_set]
    exact (List.getElem?_eq_some_iff.mp hh).1
  refine ⟨(s.restore j after).hosts[scene.engine.host], scene?_eq_some.mpr ⟨?_, ?_, rfl⟩⟩
  · rw [engines_restore, List.getElem?_set_ne hne]
    exact he
  · exact List.getElem?_eq_getElem hlt

theorem modify_eq_set {α : Type} {l : List α} {i : Nat} {a : α} (h : l[i]? = some a)
    (f : α → α) : l.modify i f = l.set i (f a) := by
  have hlt : i < l.length := (List.getElem?_eq_some_iff.mp h).1
  apply List.ext_getElem?
  intro k
  rw [List.getElem?_modify, List.getElem?_set]
  by_cases hk : i = k
  · subst hk
    rw [h, if_pos rfl, if_pos hlt]
    simp
  · simp [hk]

theorem scene?_congr {s t : Session} (he : t.engines = s.engines) (hh : t.hosts = s.hosts)
    (i : Nat) : t.scene? i = s.scene? i := by
  unfold scene?
  rw [he, hh]

/-! ## Reads of one engine -/

/-- The numbers of the reads of engine `i` among events, in order. -/
def readings (i : Nat) (events : List Event) : List Nat :=
  events.filterMap fun
    | .atEngine j _ (.selectionRead k _) => if j = i then some k else none
    | _ => none

theorem readings_append (i : Nat) (events later : List Event) :
    readings i (events ++ later) = readings i events ++ readings i later :=
  List.filterMap_append

theorem readings_atEngine (i j k : Nat) (events : List Engine.Event) :
    readings i (events.map (.atEngine j k)) = if j = i then Engine.readings events else [] := by
  unfold readings Engine.readings
  rw [List.filterMap_map]
  by_cases hj : j = i
  · rw [if_pos hj]
    congr 1
    funext e
    cases e <;> simp [hj]
  · rw [if_neg hj]
    refine List.filterMap_eq_nil_iff.mpr ?_
    intro e _
    cases e <;> simp [hj]

/-- `Reads i n s events t`: on the way from `s` to `t` engine `i`, if it can work, reads its
selection `n` times; the events tell of each read with its number. -/
def Reads (i n : Nat) (s : Session) (events : List Event) (t : Session) : Prop :=
  ∀ scene, s.scene? i = some scene → ∃ scene', t.scene? i = some scene' ∧
    scene'.engine.reads = scene.engine.reads + n ∧
    readings i events = List.range' scene.engine.reads n

theorem Reads.refl (i : Nat) (s : Session) : Reads i 0 s [] s :=
  fun scene h => ⟨scene, h, rfl, rfl⟩

theorem Reads.trans {i n k : Nat} {s t u : Session} {events later : List Event}
    (h : Reads i n s events t) (h' : Reads i k t later u) :
    Reads i (n + k) s (events ++ later) u := by
  intro scene hs
  obtain ⟨scene', ht, hreads, hevents⟩ := h scene hs
  obtain ⟨scene'', hu, hreads', hlater⟩ := h' scene' ht
  refine ⟨scene'', hu, by omega, ?_⟩
  rw [readings_append, hevents, hlater, hreads, List.range'_append_1]

theorem Reads.other {i : Nat} {s t : Session} (he : t.engines = s.engines)
    (hh : t.hosts = s.hosts) : Reads i 0 s [] t := by
  intro scene hs
  exact ⟨scene, (scene?_congr he hh i).trans hs, rfl, rfl⟩

theorem Reads.seen (i : Nat) (s : Session) (r : Nat) (call : Call) :
    Reads i 0 s [.seen r call] s :=
  fun scene h => ⟨scene, h, rfl, rfl⟩

theorem Reads.work (i : Nat) {s : Session} {j n : Nat} {before after : Scene}
    (h : s.scene? j = some before) (hhost : after.engine.host = before.engine.host)
    (hreads : before.Reads n after) :
    Reads i (if j = i then n else 0) s (after.events.map (.atEngine j after.engine.host))
      (s.restore j after) := by
  intro scene hs
  rw [readings_atEngine]
  by_cases hj : j = i
  · subst hj
    rw [h] at hs
    obtain rfl := Option.some.inj hs
    obtain ⟨hcount, added, hevents, hadded⟩ := hreads
    rw [(scene?_eq_some.mp h).2.2, List.nil_append] at hevents
    rw [if_pos rfl, if_pos rfl, hevents]
    exact ⟨_, scene?_restore_self h hhost, hcount, hadded⟩
  · obtain ⟨host, hscene⟩ := scene?_restore_of_ne after hs hj
    rw [if_neg hj, if_neg hj]
    exact ⟨_, hscene, rfl, rfl⟩

/-- An engine that cannot work does nothing, and is not the one whose reads are counted. -/
theorem Reads.idle (i : Nat) {s : Session} {j : Nat} (n : Nat) (h : s.scene? j = none) :
    Reads i (if j = i then n else 0) s [] s := by
  intro scene hs
  have hne : j ≠ i := by
    rintro rfl
    rw [h] at hs
    cases hs
  rw [if_neg hne]
  exact ⟨scene, hs, rfl, rfl⟩

theorem reads_answer {α : Type} (i : Nat) (s : Session) (j : Nat) {f : Scene → α × Scene}
    {n : Nat} (reply : α → Reply) (hhost : ∀ scene, (f scene).2.engine.host = scene.engine.host)
    (hreads : ∀ scene : Scene, scene.Reads n (f scene).2) :
    Reads i (if j = i then n else 0) s (s.answer j f reply).2.1 (s.answer j f reply).1 := by
  cases hj : s.scene? j with
  | some scene =>
    rw [answer_of_scene? hj]
    exact Reads.work i hj (hhost scene) (hreads scene)
  | none =>
    rw [answer_of_no_scene hj]
    exact Reads.idle i n hj

/-! ## Calls handed to engines -/

theorem observe_of_scene? {s : Session} {i : Nat} {scene : Scene} (h : s.scene? i = some scene)
    (call : Call) :
    s.observeBy Scene.probe i call =
      (((scene.observe s.shared call).1.elim (s.restore i (scene.observe s.shared call).2)
        ((s.restore i (scene.observe s.shared call).2).collect
          (scene.observe s.shared call).2.engine.sink)),
        (scene.observe s.shared call).2.events.map
          (.atEngine i (scene.observe s.shared call).2.engine.host)) := by
  unfold observeBy
  rw [work_of_scene? h]
  unfold Scene.observe
  rcases scene.observeBy Scene.probe s.shared call with ⟨_ | w, t⟩
  · rfl
  · rfl

theorem observe_of_no_scene {s : Session} {i : Nat} (h : s.scene? i = none) (call : Call) :
    s.observeBy Scene.probe i call = (s, []) := by
  unfold observeBy
  rw [work_of_no_scene h]

theorem engines_collect (s : Session) (sink : Sink) (w : Warning) :
    (s.collect sink w).engines = s.engines := by
  cases sink <;> rfl

theorem hosts_collect (s : Session) (sink : Sink) (w : Warning) :
    (s.collect sink w).hosts = s.hosts := by
  cases sink <;> rfl

theorem reads_observe (i : Nat) (s : Session) (j : Nat) (call : Call) :
    Reads i (if j = i then 1 else 0) s (s.observeBy Scene.probe j call).2
      (s.observeBy Scene.probe j call).1 := by
  cases hj : s.scene? j with
  | none =>
    rw [observe_of_no_scene hj]
    exact Reads.idle i 1 hj
  | some scene =>
    let scene' := (scene.observe s.shared call).2
    have hhost : scene'.engine.host = scene.engine.host :=
      (Scene.leads_observe Scene.probe s.shared call scene).later.host
    have hwork := Reads.work i hj hhost (Scene.reads_observe s.shared call scene)
    rw [observe_of_scene? hj]
    cases (scene.observe s.shared call).1 with
    | none => exact hwork
    | some w =>
      have hcollect := hwork.trans (Reads.other (engines_collect _ scene'.engine.sink w)
        (hosts_collect _ scene'.engine.sink w))
      rw [List.append_nil, Nat.add_zero] at hcollect
      exact hcollect

theorem reads_deliverAll (i : Nat) (s : Session) (call : Call) (os : List Observer) :
    Reads i (os.count (.engine i)) s (s.deliverAllBy Scene.probe call os).2
      (s.deliverAllBy Scene.probe call os).1 := by
  induction os generalizing s with
  | nil => exact .refl i s
  | cons o os ih =>
    rw [List.count_cons, Nat.add_comm]
    cases o with
    | engine j =>
      have hj := reads_observe i s j call
      have hcount : (if Observer.engine j == Observer.engine i then 1 else 0) =
          if j = i then 1 else 0 := by simp
      rw [hcount]
      exact hj.trans (ih _)
    | recorder r => exact (Reads.seen i s r call).trans (ih s)

/-- How often a step hands a call to engine `i`: a dispatch or an observe of its own, or a notified
call, once for each time that it stands in the set. -/
def handed (s : Session) (i : Nat) : Step → Nat
  | .dispatch j _ | .observe j _ => if j = i then 1 else 0
  | .notify set entry =>
    match s.sets[set]?, entry.normalize? with
    | some group, some _ => group.observers.count (.engine i)
    | _, _ => 0
  | _ => 0

/-- How often the steps of a run hand a call to engine `i`. -/
def handedIn (s : Session) (i : Nat) : List Step → Nat
  | [] => 0
  | st :: steps => s.handed i st + (s.step st).1.handedIn i steps

theorem reads_register (i : Nat) (s : Session) (set : Nat) (o : Observer) :
    Reads i 0 s (s.register set o).2.1 (s.register set o).1 := by
  unfold register
  split
  · exact .refl i s
  · exact .other rfl rfl

theorem reads_step (i : Nat) (s : Session) (st : Step) :
    Reads i (s.handed i st) s (s.step st).2.1 (s.step st).1 := by
  cases st with
  | dispatch j call =>
    exact reads_answer i s j _
      (fun scene => (Scene.leads_dispatch Scene.probe s.shared call scene).later.host)
      (Scene.reads_dispatch s.shared call)
  | observe j call => exact reads_observe i s j call
  | probe j c =>
    have h := reads_answer i s j .truth (fun scene => (Scene.later_probe c scene).host)
      (Scene.reads_probe c)
    rwa [ite_self] at h
  | probeAfresh j c =>
    have h := reads_answer i s j .truth (fun _ => rfl) (Scene.reads_probeAfresh c)
    rwa [ite_self] at h
  | check j under index callee call =>
    unfold step
    rw [stepBy]
    split
    · exact .refl i s
    · next m _ =>
      have h := reads_answer i s j (.checked m.id)
        (fun scene => (Scene.leads_check Scene.probe m callee call scene).later.host)
        (Scene.reads_check m callee call)
      rwa [ite_self] at h
  | callees | ruleIds | lookup | getShared | warnings | size => exact .refl i s
  | setShared | take => exact .other rfl rfl
  | registerEngine set j => exact reads_register i s set _
  | registerRecorder set =>
    have h := (reads_register i s set (.recorder s.recorders)).trans
      (Reads.other (t := (s.step (.registerRecorder set)).1) rfl rfl)
    rwa [List.append_nil] at h
  | unregister set handle =>
    unfold step
    rw [stepBy]
    split
    · exact .other rfl rfl
    · exact .refl i s
  | sameId first second =>
    unfold step
    rw [stepBy]
    split <;> exact .refl i s
  | notify set entry =>
    unfold step
    rw [stepBy, handed]
    cases s.sets[set]? with
    | none => exact .refl i s
    | some group =>
      cases entry.normalize? with
      | none => exact .refl i s
      | some call => exact reads_deliverAll i s call group.observers

theorem reads_run (i : Nat) (s : Session) (steps : List Step) :
    Reads i (s.handedIn i steps) s (happened (s.run steps).2) (s.run steps).1 := by
  induction steps generalizing s with
  | nil => exact .refl i s
  | cons st steps ih => exact (reads_step i s st).trans (ih (s.step st).1)

/-! ## Excluded advice -/

/-- The session after engine `i` has read its selection once more, with nothing else changed. -/
def afterRead (s : Session) (i : Nat) : Session :=
  { s with engines := s.engines.modify i fun e => { e with reads := e.reads + 1 } }

/-- What happens when engine `i` comes to its gate in the given scene. -/
def gateEvents (s : Session) (i : Nat) (scene : Scene) : List Event :=
  (scene.gateEvents s.shared).map (.atEngine i scene.engine.host)

theorem restore_afterRead {s : Session} {i : Nat} {scene : Scene} (h : s.scene? i = some scene)
    (events : List Engine.Event) :
    s.restore i ⟨{ scene.engine with reads := scene.engine.reads + 1 }, scene.host, events⟩ =
      s.afterRead i := by
  obtain ⟨he, hh, -⟩ := scene?_eq_some.mp h
  have hengines := modify_eq_set he fun e => { e with reads := e.reads + 1 }
  unfold restore afterRead
  rw [hengines, set_eq_self hh]

/-- `s.TurnedAway i scene call`: a call handed to engine `i`, in any way, gets no advice, and
nothing happens or changes but that the selection is read. -/
structure TurnedAway (s : Session) (i : Nat) (scene : Scene) (call : Call) : Prop where
  dispatch : s.step (.dispatch i call) = (s.afterRead i, s.gateEvents i scene, .advice none)
  observe : s.step (.observe i call) = (s.afterRead i, s.gateEvents i scene, .done)
  delivery : s.deliverBy Scene.probe call (.engine i) = (s.afterRead i, s.gateEvents i scene)

theorem turnedAway {s : Session} {i : Nat} {scene : Scene} (h : s.scene? i = some scene)
    (hexcludes : (scene.engine.source.read s.shared scene.engine.reads).Excludes) (call : Call) :
    s.TurnedAway i scene call := by
  have hempty := (scene?_eq_some.mp h).2.2
  have hobserve : s.observeBy Scene.probe i call = (s.afterRead i, s.gateEvents i scene) := by
    rw [observe_of_scene? h, Scene.observe_of_excluded hexcludes, hempty, List.nil_append]
    exact congrArg (·, s.gateEvents i scene) (restore_afterRead h _)
  refine ⟨?_, ?_, hobserve⟩
  · have hstep : s.step (.dispatch i call) = s.answer i (·.dispatch s.shared call) .advice := rfl
    rw [hstep, answer_of_scene? h, Scene.dispatch_of_excluded hexcludes, hempty, List.nil_append,
      restore_afterRead h]
    rfl
  · have hstep : s.step (.observe i call) = ((s.observeBy Scene.probe i call).1,
      (s.observeBy Scene.probe i call).2, .done) := rfl
    rw [hstep, hobserve]

/-! ## Once for each call -/

theorem exists_gateEvents {s : Session} {i : Nat} {scene : Scene} (h : s.scene? i = some scene)
    (call : Call) :
    (∃ rest, (s.step (.dispatch i call)).2.1 = s.gateEvents i scene ++ rest) ∧
      ∃ rest, (s.step (.observe i call)).2.1 = s.gateEvents i scene ++ rest := by
  have hempty := (scene?_eq_some.mp h).2.2
  constructor
  · obtain ⟨rest, hevents, -, -⟩ := Scene.dispatch_events s.shared call scene
    have hhost : (scene.dispatch s.shared call).2.engine.host = scene.engine.host :=
      (Scene.leads_dispatch Scene.probe s.shared call scene).later.host
    have hstep : s.step (.dispatch i call) = s.answer i (·.dispatch s.shared call) .advice := rfl
    rw [hstep, answer_of_scene? h, hevents, hhost, hempty, List.nil_append, List.map_append]
    exact ⟨_, rfl⟩
  · obtain ⟨rest, hevents⟩ := Scene.observe_events s.shared call scene
    have hhost : (scene.observe s.shared call).2.engine.host = scene.engine.host :=
      (Scene.leads_observe Scene.probe s.shared call scene).later.host
    have hstep : (s.step (.observe i call)).2.1 = (s.observeBy Scene.probe i call).2 := rfl
    rw [hstep, observe_of_scene? h, hevents, hhost, hempty, List.nil_append, List.map_append]
    exact ⟨_, rfl⟩

/-- In every state of a session, for every engine that can work: a dispatch and an observe, and the
delivery of a notified call, which is an observe, begin with a read of the engine's selection,
whatever the call; a step reads the selection once for each call that it hands to the engine, and
otherwise not at all; where the selection excludes advice, such a call gets none, and apart from the
log nothing else happens or changes; and over a run the reads are numbered one after the other, one
for each call that the engine was handed. -/
theorem selection_read_once (s : Session) {i : Nat} {scene : Scene}
    (hs : s.scene? i = some scene) :
    (∀ call, (∃ rest, (s.step (.dispatch i call)).2.1 = s.gateEvents i scene ++ rest) ∧
      (∃ rest, (s.step (.observe i call)).2.1 = s.gateEvents i scene ++ rest) ∧
      s.deliverBy Scene.probe call (.engine i) =
        ((s.step (.observe i call)).1, (s.step (.observe i call)).2.1)) ∧
    (∀ st, readings i (s.step st).2.1 = List.range' scene.engine.reads (s.handed i st)) ∧
    ((scene.engine.source.read s.shared scene.engine.reads).Excludes →
      ∀ call, s.TurnedAway i scene call) ∧
    ∀ steps, readings i (happened (s.run steps).2) =
      List.range' scene.engine.reads (s.handedIn i steps) := by
  refine ⟨?_, ?_, turnedAway hs, ?_⟩
  · intro call
    obtain ⟨hdispatch, hobserve⟩ := exists_gateEvents hs call
    exact ⟨hdispatch, hobserve, rfl⟩
  · intro st
    obtain ⟨-, -, -, hreadings⟩ := reads_step i s st scene hs
    exact hreadings
  · intro steps
    obtain ⟨-, -, -, hreadings⟩ := reads_run i s steps scene hs
    exact hreadings

/-- A computed selection that excludes advice at every other read: the first call is turned away, a
question for a capability reads nothing, and an engine that stands in a set twice reads twice. -/
theorem selection_read_once_cycling :
    let e := Engine.new 0 (.cycling [.exceptList ["simplify"], .all])
    let host := Host.fresh fun _ _ => .ok
    let s : Session := ⟨[host], [], [], [.empty], [e], [], 0⟩
    let kill : Call := .named "kill-buffer" [.nil]
    let steps : List Step := [.dispatch 0 kill, .probe 0 .listMotion, .registerEngine 0 0,
      .registerEngine 0 0, .notify 0 (.unary (.symbol "kill-buffer") .nil),
      .notify 0 (.whole (.int 3)), .observe 0 ⟨.int 3, []⟩]
    s.scene? 0 = some ⟨e, host, []⟩ ∧ s.TurnedAway 0 ⟨e, host, []⟩ kill ∧
      readings 0 (happened (s.run steps).2) = [0, 1, 2, 3] := by
  intro e host s kill steps
  have hs : s.scene? 0 = some ⟨e, host, []⟩ := rfl
  have hexcludes : (e.source.read s.shared e.reads).Excludes := .except (by decide)
  obtain ⟨-, -, haway, hreadings⟩ := selection_read_once s hs
  refine ⟨hs, haway hexcludes kill, (hreadings steps).trans ?_⟩
  have hhanded : s.handedIn 0 steps = 4 := by decide
  rw [hhanded]
  rfl

end CallAdvice.Session
