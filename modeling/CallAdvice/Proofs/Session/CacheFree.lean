import CallAdvice.Proofs.Engine.Honest
import CallAdvice.Proofs.Session.Work

/-! Remembering makes no difference on hosts that stay the same. Two sessions whose engines differ
only in what they remember, all of it true, stay so under the same steps and give the same replies,
whichever honest way of answering each of them uses (`Session.Sim.run`). With a remembering session
on one side and one that asks its hosts every time on the other, this says that memory cannot be
seen; with the same session at two times on the two sides, it says that the order of questions does
not matter. -/
set_option autoImplicit false

namespace CallAdvice.Session

/-! ## True memories -/

/-- `s.Truthful`: the hosts stay the same, and what engines remember of them is true. -/
structure Truthful (s : Session) : Prop where
  stable : ∀ h ∈ s.hosts, h.behaviour.Stable
  memory : ∀ e ∈ s.engines, ∀ c b, e.memory.get c = some b →
    ∃ h, s.hosts[e.host]? = some h ∧ (h.probe c).1.isPresent = b

theorem Begins.truthful {s : Session} (h : s.Begins) (hs : ∀ h ∈ s.hosts, h.behaviour.Stable) :
    s.Truthful where
  stable := hs
  memory e he c b hc := by
    rw [h.memory he, Slots.get_fill] at hc
    cases hc

theorem Truthful.scene {s : Session} (h : s.Truthful) {i : Nat} {scene : Scene}
    (hs : s.scene? i = some scene) : scene.Truthful := by
  obtain ⟨he, hh, -⟩ := scene?_eq_some.mp hs
  refine ⟨h.stable _ (List.mem_of_getElem? hh), ?_⟩
  intro c b hc
  obtain ⟨host, hhost, hpresent⟩ := h.memory _ (List.mem_of_getElem? he) c b hc
  rw [hh] at hhost
  obtain rfl := Option.some.inj hhost
  exact hpresent

theorem truthful_restore {s : Session} (h : s.Truthful) {i : Nat} {before after : Scene}
    (hs : s.scene? i = some before) (hstays : before.Stays after) (hafter : after.Truthful) :
    (s.restore i after).Truthful := by
  obtain ⟨-, hh, -⟩ := scene?_eq_some.mp hs
  obtain ⟨hhost, hbehaviour⟩ := hstays
  have hlt := (List.getElem?_eq_some_iff.mp hh).1
  have hself : (s.restore i after).hosts[before.engine.host]? = some after.host := by
    rw [hosts_restore, hhost]
    exact List.getElem?_set_self hlt
  refine ⟨?_, ?_⟩
  · intro host hmem
    rcases List.mem_or_eq_of_mem_set hmem with hmem | rfl
    · exact h.stable host hmem
    · exact hafter.stable
  · intro e hmem c b hc
    rcases List.mem_or_eq_of_mem_set hmem with hmem | rfl
    · -- An engine of the same host meets it with another past, which a probe does not notice.
      obtain ⟨host, hi, hpresent⟩ := h.memory e hmem c b hc
      by_cases heq : e.host = before.engine.host
      · rw [heq] at hi ⊢
        rw [hh] at hi
        obtain rfl := Option.some.inj hi
        refine ⟨after.host, hself, ?_⟩
        rw [Host.probe_verdict_congr hbehaviour (h.stable _ (List.mem_of_getElem? hh)) c]
        exact hpresent
      · refine ⟨host, ?_, hpresent⟩
        rw [hosts_restore, hhost, List.getElem?_set_ne (Ne.symm heq)]
        exact hi
    · refine ⟨after.host, ?_, hafter.memory c b hc⟩
      rw [hhost]
      exact hself

/-! ## Likeness -/

/-- `s.Alike t`: the sessions differ at most in what their engines remember, in how often these read
their sources, and in what their hosts were asked. -/
structure Alike (s t : Session) : Prop where
  shared : t.shared = s.shared
  sinks : t.sinks = s.sinks
  sets : t.sets = s.sets
  handles : t.handles = s.handles
  recorders : t.recorders = s.recorders
  engines : ∀ i : Nat, Option.Rel Engine.Alike s.engines[i]? t.engines[i]?
  hosts : t.hosts.map (·.behaviour) = s.hosts.map (·.behaviour)

/-- `s.Sim t`: the sessions are alike, and what engines remember in either is true. -/
structure Sim (s t : Session) : Prop where
  alike : s.Alike t
  left : s.Truthful
  right : t.Truthful

theorem engines_rel_refl (engines : List Engine) (i : Nat) :
    Option.Rel Engine.Alike engines[i]? engines[i]? := by
  cases engines[i]? with
  | none => exact .none
  | some e => exact .some (.refl e)

theorem Truthful.sim {s : Session} (h : s.Truthful) : s.Sim s :=
  ⟨⟨rfl, rfl, rfl, rfl, rfl, engines_rel_refl s.engines, rfl⟩, h, h⟩

/-- Engines of the same number have the same rules. -/
theorem Alike.registry {s t : Session} (h : s.Alike t) (i : Nat) :
    (t.engines[i]?).map (·.registry) = (s.engines[i]?).map (·.registry) := by
  have hi := h.engines i
  revert hi
  generalize s.engines[i]? = x
  generalize t.engines[i]? = y
  intro hi
  cases hi with
  | none => rfl
  | some he => exact congrArg some he.registry

theorem Alike.matcher {s t : Session} (h : s.Alike t) (i : Nat) (under : String) (index : Nat) :
    ((t.engines[i]?).bind fun e => (e.registry.lookup under)[index]?) =
      (s.engines[i]?).bind fun e => (e.registry.lookup under)[index]? :=
  matcher_congr (h.registry i) under index

theorem Alike.names {s t : Session} (h : s.Alike t) (names : Registry → List String) (i : Nat) :
    ((s.engines[i]?).map fun e => Reply.names (names e.registry)).getD .missing =
      ((t.engines[i]?).map fun e => Reply.names (names e.registry)).getD .missing :=
  names_congr (h.registry i) names

theorem Alike.host_congr {s t : Session} (h : s.Alike t) (j : Nat) :
    (t.hosts[j]?).map (·.behaviour) = (s.hosts[j]?).map (·.behaviour) := by
  rw [← List.getElem?_map, ← List.getElem?_map, h.hosts]

theorem scene?_of_engine {s : Session} {i : Nat} {e : Engine} (he : s.engines[i]? = some e) :
    s.scene? i = (s.hosts[e.host]?).map fun h => ⟨e, h, []⟩ := by
  unfold scene?
  rw [he]

/-- The scenes of engines of the same number are alike. -/
theorem Sim.scene {s t : Session} (h : s.Sim t) (i : Nat) :
    (s.scene? i = none ∧ t.scene? i = none) ∨
      ∃ a b, s.scene? i = some a ∧ t.scene? i = some b ∧ a.Sim b := by
  have hi := h.alike.engines i
  cases he : s.engines[i]? with
  | none =>
    rw [he] at hi
    cases hf : t.engines[i]? with
    | none =>
      left
      unfold scene?
      rw [he, hf]
      exact ⟨rfl, rfl⟩
    | some f =>
      rw [hf] at hi
      cases hi
  | some e =>
    rw [he] at hi
    obtain ⟨f, hf, hef⟩ : ∃ f, t.engines[i]? = some f ∧ e.Alike f := by
      revert hi
      generalize t.engines[i]? = y
      intro hi
      cases hi with
      | some hef => exact ⟨_, rfl, hef⟩
    have hhosts := h.alike.host_congr e.host
    cases hh : s.hosts[e.host]? with
    | none =>
      left
      rw [hh, Option.map_none, Option.map_eq_none_iff] at hhosts
      rw [scene?_of_engine he, scene?_of_engine hf, hef.host, hh, hhosts]
      exact ⟨rfl, rfl⟩
    | some host =>
      right
      rw [hh, Option.map_some, Option.map_eq_some_iff] at hhosts
      obtain ⟨host', hh', hbehaviour⟩ := hhosts
      have hs : s.scene? i = some ⟨e, host, []⟩ := scene?_eq_some.mpr ⟨he, hh, rfl⟩
      have ht : t.scene? i = some ⟨f, host', []⟩ :=
        scene?_eq_some.mpr ⟨hf, by rw [hef.host]; exact hh', rfl⟩
      exact ⟨_, _, hs, ht, ⟨hef, hbehaviour⟩, h.left.scene hs, h.right.scene ht⟩

theorem alike_restore {s t : Session} (h : s.Alike t) {i : Nat} {a a' b b' : Scene}
    (ha : s.scene? i = some a) (hb : t.scene? i = some b) (h' : a'.Alike b') :
    (s.restore i a').Alike (t.restore i b') := by
  refine ⟨h.shared, h.sinks, h.sets, h.handles, h.recorders, ?_, ?_⟩
  · intro k
    rw [engines_restore, engines_restore]
    by_cases hk : k = i
    · subst hk
      have hlt := (List.getElem?_eq_some_iff.mp (scene?_eq_some.mp ha).1).1
      have hlt' := (List.getElem?_eq_some_iff.mp (scene?_eq_some.mp hb).1).1
      rw [List.getElem?_set_self hlt, List.getElem?_set_self hlt']
      exact .some h'.engine
    · rw [List.getElem?_set_ne (Ne.symm hk), List.getElem?_set_ne (Ne.symm hk)]
      exact h.engines k
  · rw [hosts_restore, hosts_restore, List.map_set, List.map_set, h.hosts, h'.host, h'.engine.host]

/-! ## The same work on both sides -/

/-- Two pieces of work with the same result on scenes that are alike. -/
structure Parallel {α : Type} (f g : Scene → α × Scene) : Prop where
  same : ∀ a b : Scene, a.Sim b → Scene.Matches (f a) (g b)
  left : ∀ a : Scene, a.Stays (f a).2
  right : ∀ a : Scene, a.Stays (g a).2

theorem Sim.restore {s t : Session} (h : s.Sim t) {i : Nat} {a b : Scene}
    (ha : s.scene? i = some a) (hb : t.scene? i = some b) (hab : a.Sim b) {α : Type}
    {f g : Scene → α × Scene} (hfg : Parallel f g) :
    (f a).1 = (g b).1 ∧ (s.restore i (f a).2).Sim (t.restore i (g b).2) := by
  obtain ⟨hsame, hsim⟩ := hfg.same a b hab
  exact ⟨hsame, alike_restore h.alike ha hb hsim.alike,
    truthful_restore h.left ha (hfg.left a) hsim.left,
    truthful_restore h.right hb (hfg.right b) hsim.right⟩

/-- The same reply, and sessions that are alike afterwards. -/
def Matches (x y : Session × List Event × Reply) : Prop := x.2.2 = y.2.2 ∧ x.1.Sim y.1

theorem Sim.answer {s t : Session} (h : s.Sim t) (i : Nat) {α : Type} {f g : Scene → α × Scene}
    (hfg : Parallel f g) (reply : α → Reply) :
    Matches (s.answer i f reply) (t.answer i g reply) := by
  rcases h.scene i with ⟨hs, ht⟩ | ⟨a, b, hs, ht, hab⟩
  · rw [answer_of_no_scene hs, answer_of_no_scene ht]
    exact ⟨rfl, h⟩
  · rw [answer_of_scene? hs, answer_of_scene? ht]
    obtain ⟨hsame, hsim⟩ := h.restore hs ht hab hfg
    exact ⟨congrArg reply hsame, hsim⟩

theorem parallel_probeAfresh (c : Capability) :
    Parallel (Scene.probeAfresh c) (Scene.probeAfresh c) where
  same _ _ h := h.probeAfresh c
  left a := ⟨rfl, Host.behaviour_probe a.host c⟩
  right a := ⟨rfl, Host.behaviour_probe a.host c⟩

/-- Parts other than engines and hosts can be replaced on both sides. -/
theorem Sim.others {s t : Session} (h : s.Sim t) (shared : List Selection)
    (sinks : List (List Warning)) (sets : List (ObserverSet Observer)) (handles : List ObserverId)
    (recorders : Nat) :
    Sim ⟨s.hosts, shared, sinks, sets, s.engines, handles, recorders⟩
      ⟨t.hosts, shared, sinks, sets, t.engines, handles, recorders⟩ where
  alike := ⟨rfl, rfl, rfl, rfl, rfl, h.alike.engines, h.alike.hosts⟩
  left := ⟨h.left.stable, h.left.memory⟩
  right := ⟨h.right.stable, h.right.memory⟩

theorem Sim.collect {s t : Session} (h : s.Sim t) (sink : Sink) (w : Warning) :
    (s.collect sink w).Sim (t.collect sink w) := by
  cases sink with
  | console => exact h
  | collection index =>
    unfold Session.collect
    rw [h.alike.shared, h.alike.sinks, h.alike.sets, h.alike.handles, h.alike.recorders]
    exact h.others _ _ _ _ _

theorem Sim.register {s t : Session} (h : s.Sim t) (set : Nat) (o : Observer) :
    Matches (s.register set o) (t.register set o) := by
  unfold Session.register
  rw [h.alike.shared, h.alike.sinks, h.alike.sets, h.alike.handles, h.alike.recorders]
  cases s.sets[set]? with
  | none => exact ⟨rfl, h⟩
  | some group => exact ⟨rfl, h.others _ _ _ _ _⟩

section Honest

variable {answer answer' : Scene.Answering} (ha : Scene.Honest answer) (ha' : Scene.Honest answer')
include ha ha'

theorem parallel_ask (c : Capability) : Parallel (answer c) (answer' c) where
  same _ _ h := h.ask ha ha' c
  left a := (Scene.Leads.ask c (.refl a)).stays ha
  right a := (Scene.Leads.ask c (.refl a)).stays ha'

theorem parallel_check (m : Matcher) (callee : String) (call : Call) :
    Parallel (Scene.checkBy answer m callee call) (Scene.checkBy answer' m callee call) where
  same _ _ h := h.check ha ha' m callee call
  left a := (Scene.leads_check answer m callee call a).stays ha
  right a := (Scene.leads_check answer' m callee call a).stays ha'

theorem parallel_dispatch (shared : List Selection) (call : Call) :
    Parallel (Scene.dispatchBy answer shared call) (Scene.dispatchBy answer' shared call) where
  same _ _ h := h.dispatch ha ha' shared call
  left a := (Scene.leads_dispatch answer shared call a).stays ha
  right a := (Scene.leads_dispatch answer' shared call a).stays ha'

theorem parallel_observe (shared : List Selection) (call : Call) :
    Parallel (Scene.observeBy answer shared call) (Scene.observeBy answer' shared call) where
  same _ _ h := h.observe ha ha' shared call
  left a := (Scene.leads_observe answer shared call a).stays ha
  right a := (Scene.leads_observe answer' shared call a).stays ha'

theorem Sim.observe {s t : Session} (h : s.Sim t) (i : Nat) (call : Call) :
    (s.observeBy answer i call).1.Sim (t.observeBy answer' i call).1 := by
  unfold observeBy
  rcases h.scene i with ⟨hs, ht⟩ | ⟨a, b, hs, ht, hab⟩
  · rw [work_of_no_scene hs, work_of_no_scene ht]
    exact h
  · rw [work_of_scene? hs, work_of_scene? ht, h.alike.shared]
    obtain ⟨hsame, hsim⟩ := h.restore hs ht hab (parallel_observe ha ha' s.shared call)
    have hsink := ((parallel_observe ha ha' s.shared call).same a b hab).2.alike.engine.sink
    dsimp only
    rw [hsink, ← hsame]
    cases (a.observeBy answer s.shared call).1 with
    | none => exact hsim
    | some w => exact hsim.collect _ w

theorem Sim.deliverAll {s t : Session} (h : s.Sim t) (call : Call) (os : List Observer) :
    (s.deliverAllBy answer call os).1.Sim (t.deliverAllBy answer' call os).1 := by
  induction os generalizing s t with
  | nil => exact h
  | cons o os ih =>
    cases o with
    | engine index => exact ih (h.observe ha ha' index call)
    | recorder number => exact ih h

/-- A step gives the same reply on both sides, and leaves them alike. -/
theorem Sim.step {s t : Session} (h : s.Sim t) (st : Step) :
    Matches (s.stepBy answer st) (t.stepBy answer' st) := by
  cases st with
  | dispatch i call =>
    rw [stepBy, stepBy, h.alike.shared]
    exact h.answer i (parallel_dispatch ha ha' s.shared call) _
  | observe i call => exact ⟨rfl, h.observe ha ha' i call⟩
  | probe i c => exact h.answer i (parallel_ask ha ha' c) _
  | probeAfresh i c => exact h.answer i (parallel_probeAfresh c) _
  | check i under index callee call =>
    rw [stepBy, stepBy, h.alike.matcher]
    split
    · exact ⟨rfl, h⟩
    · next m _ => exact h.answer i (parallel_check ha ha' m callee call) _
  | callees i => exact ⟨h.alike.names (·.callees.names) i, h⟩
  | ruleIds i => exact ⟨h.alike.names (·.ruleIds.names) i, h⟩
  | lookup i callee => exact ⟨h.alike.names (fun r => (r.lookup callee).map Matcher.id) i, h⟩
  | setShared index selection =>
    rw [stepBy, stepBy, h.alike.shared, h.alike.sinks, h.alike.sets, h.alike.handles,
      h.alike.recorders]
    exact ⟨rfl, h.others _ _ _ _ _⟩
  | getShared index =>
    rw [stepBy, stepBy, h.alike.shared]
    exact ⟨rfl, h⟩
  | warnings sink =>
    rw [stepBy, stepBy, h.alike.sinks]
    exact ⟨rfl, h⟩
  | take sink =>
    rw [stepBy, stepBy, h.alike.shared, h.alike.sinks, h.alike.sets, h.alike.handles,
      h.alike.recorders]
    exact ⟨rfl, h.others _ _ _ _ _⟩
  | registerEngine set i => exact h.register set _
  | registerRecorder set =>
    obtain ⟨hreply, hsim⟩ := h.register set (.recorder s.recorders)
    rw [stepBy, stepBy, h.alike.recorders]
    refine ⟨hreply, ?_⟩
    have hothers := hsim.others (s.register set (.recorder s.recorders)).1.shared
      (s.register set (.recorder s.recorders)).1.sinks
      (s.register set (.recorder s.recorders)).1.sets
      (s.register set (.recorder s.recorders)).1.handles (s.recorders + 1)
    dsimp only
    rw [hsim.alike.shared, hsim.alike.sinks, hsim.alike.sets, hsim.alike.handles]
    exact hothers
  | unregister set handle =>
    rw [stepBy, stepBy, h.alike.shared, h.alike.sinks, h.alike.sets, h.alike.handles,
      h.alike.recorders]
    split
    · exact ⟨rfl, h.others _ _ _ _ _⟩
    · exact ⟨rfl, h⟩
  | size set =>
    rw [stepBy, stepBy, h.alike.sets]
    exact ⟨rfl, h⟩
  | sameId first second =>
    rw [stepBy, stepBy, h.alike.handles]
    split
    · exact ⟨rfl, h⟩
    · exact ⟨rfl, h⟩
  | notify set entry =>
    rw [stepBy, stepBy, h.alike.sets]
    split
    · exact ⟨rfl, h⟩
    · exact ⟨rfl, h⟩
    · next group call _ _ =>
      exact ⟨Eq.refl (Reply.call (some call)), h.deliverAll ha ha' call group.observers⟩

/-- So do any number of steps. -/
theorem Sim.run {s t : Session} (h : s.Sim t) (steps : List Step) :
    replies (s.runBy answer steps).2 = replies (t.runBy answer' steps).2 ∧
      (s.runBy answer steps).1.Sim (t.runBy answer' steps).1 := by
  induction steps generalizing s t with
  | nil => exact ⟨rfl, h⟩
  | cons st steps ih =>
    obtain ⟨hreply, hsim⟩ := h.step ha ha' st
    obtain ⟨hreplies, hend⟩ := ih hsim
    have hcons : ∀ (answer : Scene.Answering) (s : Session),
        replies (s.runBy answer (st :: steps)).2 = (s.stepBy answer st).2.2 ::
          replies ((s.stepBy answer st).1.runBy answer steps).2 := fun _ _ => rfl
    rw [hcons, hcons, hreply, hreplies]
    exact ⟨rfl, hend⟩

end Honest

/-! ## Questions in any order -/

/-- Dispatches of engines whose source always gives the same, and questions for capabilities. -/
def Unvarying (s : Session) : Step → Prop
  | .dispatch i _ => ∀ e, s.engines[i]? = some e → e.source.Steady
  | .probe _ _ => True
  | _ => False

theorem Truthful.sim_restore {s : Session} (h : s.Truthful) {i : Nat} {before after : Scene}
    (hs : s.scene? i = some before) (halike : before.Alike after) (hafter : after.Truthful) :
    s.Sim (s.restore i after) := by
  have hself := alike_restore h.sim.alike hs hs halike
  rw [restore_self hs] at hself
  exact ⟨hself, h, truthful_restore h hs ⟨halike.engine.host, halike.host⟩ hafter⟩

/-- Such a step changes nothing that could be seen in a reply. -/
theorem Truthful.sim_step {s : Session} (h : s.Truthful) {st : Step} (hst : s.Unvarying st) :
    s.Sim (s.step st).1 := by
  cases st with
  | dispatch i call =>
    show s.Sim (s.answer i (·.dispatch s.shared call) .advice).1
    cases hs : s.scene? i with
    | none =>
      rw [answer_of_no_scene hs]
      exact h.sim
    | some scene =>
      rw [answer_of_scene? hs]
      have hleads := Scene.leads_dispatch Scene.probe s.shared call scene
      exact h.sim_restore hs
        (hleads.alike Scene.honest_probe (hst _ (scene?_eq_some.mp hs).1))
        (hleads.truthful Scene.honest_probe (h.scene hs))
  | probe i c =>
    show s.Sim (s.answer i (Scene.probe c) .truth).1
    cases hs : s.scene? i with
    | none =>
      rw [answer_of_no_scene hs]
      exact h.sim
    | some scene =>
      rw [answer_of_scene? hs]
      exact h.sim_restore hs (Scene.alike_probe c scene)
        (Scene.honest_probe.truthful c scene (h.scene hs))
  | _ => cases hst

/-- The replies to such steps are those that each of them would get alone. -/
theorem Truthful.replies_eq_map {s : Session} (h : s.Truthful) {asked : List Step}
    (hasked : ∀ st ∈ asked, s.Unvarying st) :
    replies (s.run asked).2 = asked.map fun st => (s.step st).2.2 := by
  induction asked with
  | nil => rfl
  | cons st asked ih =>
    have hsim := h.sim_step (hasked st (by simp))
    have hrest := (hsim.run Scene.honest_probe Scene.honest_probe asked).1
    have hrun : replies (s.run (st :: asked)).2 =
        (s.step st).2.2 :: replies ((s.step st).1.run asked).2 := rfl
    rw [hrun, List.map_cons, ← ih fun st' hst' => hasked st' (List.mem_cons_of_mem st hst')]
    exact congrArg _ hrest.symm

/-- Asked in another order, or only in part, they get the replies that they got before. -/
theorem Truthful.replies_reordered {s : Session} (h : s.Truthful) {asked : List Step}
    (hasked : ∀ st ∈ asked, s.Unvarying st) (order : List Nat) :
    replies (s.run (order.filterMap (asked[·]?))).2 =
      order.filterMap ((replies (s.run asked).2)[·]?) := by
  have hreordered : ∀ st ∈ order.filterMap (asked[·]?), s.Unvarying st := by
    intro st hst
    obtain ⟨k, -, hk⟩ := List.mem_filterMap.mp hst
    exact hasked st (List.mem_of_getElem? hk)
  rw [h.replies_eq_map hreordered, h.replies_eq_map hasked, List.map_filterMap]
  simp only [List.getElem?_map]

/-! ## Memory cannot be seen -/

theorem Truthful.step_probeAfresh {s : Session} (h : s.Truthful) {i : Nat} {e : Engine}
    {c : Capability} {b : Bool} (he : s.engines[i]? = some e) (hb : e.memory.get c = some b) :
    (s.step (.probeAfresh i c)).2.2 = .truth b := by
  obtain ⟨host, hhost, hpresent⟩ := h.memory e (List.mem_of_getElem? he) c b hb
  have hs : s.scene? i = some ⟨e, host, []⟩ := scene?_eq_some.mpr ⟨he, hhost, rfl⟩
  rw [Session.step, Session.step_probeAfresh Scene.probe hs]
  exact congrArg Reply.truth hpresent

theorem Truthful.step_probe {s : Session} (h : s.Truthful) {i : Nat} {scene : Scene}
    (hs : s.scene? i = some scene) (c : Capability) :
    (s.step (.probe i c)).2.2 =
      ((scene.engine.pins.get c).map .truth).getD (s.step (.probeAfresh i c)).2.2 := by
  have hprobe : s.step (.probe i c) = s.answer i (Scene.probe c) .truth := rfl
  rw [hprobe, answer_of_scene? hs, Scene.honest_probe.truth c scene (h.scene hs)]
  rw [Session.step, Session.step_probeAfresh Scene.probe hs]
  unfold Scene.truth
  cases scene.engine.pins.get c <;> rfl

/-- On hosts that stay the same, in every state that a run leads to: what an engine remembers is
what a probe afresh finds, and an engine answers as pinned and else as a probe afresh finds; all
steps to come get the replies that they would get if the engines remembered nothing; and dispatches
with an unchanging source and questions for capabilities get replies that depend on each of them
alone, so that to ask them in another order is to get the same replies in that order. -/
theorem remembering_unseen {s : Session} (hs : s.Begins)
    (hstable : ∀ h ∈ s.hosts, h.behaviour.Stable) (steps : List Step) :
    (∀ (i : Nat) e c b, (s.run steps).1.engines[i]? = some e → e.memory.get c = some b →
      ((s.run steps).1.step (.probeAfresh i c)).2.2 = .truth b) ∧
    (∀ i scene c, (s.run steps).1.scene? i = some scene →
      ((s.run steps).1.step (.probe i c)).2.2 = ((scene.engine.pins.get c).map .truth).getD
        ((s.run steps).1.step (.probeAfresh i c)).2.2) ∧
    (∀ later, replies ((s.run steps).1.run later).2 =
      replies ((s.run steps).1.runBy Scene.probeUnremembered later).2) ∧
    ∀ asked, (∀ st ∈ asked, (s.run steps).1.Unvarying st) →
      replies ((s.run steps).1.run asked).2 = asked.map (fun st => ((s.run steps).1.step st).2.2) ∧
      ∀ order : List Nat, replies ((s.run steps).1.run (order.filterMap (asked[·]?))).2 =
        order.filterMap ((replies ((s.run steps).1.run asked).2)[·]?) := by
  have htruthful : (s.run steps).1.Truthful :=
    ((hs.truthful hstable).sim.run Scene.honest_probe Scene.honest_probe steps).2.left
  refine ⟨?_, ?_, ?_, ?_⟩
  · intro i e c b he hb
    exact htruthful.step_probeAfresh he hb
  · intro i scene c hscene
    exact htruthful.step_probe hscene c
  · intro later
    exact (htruthful.sim.run Scene.honest_probe Scene.honest_probeUnremembered later).1
  · intro asked hasked
    exact ⟨htruthful.replies_eq_map hasked, htruthful.replies_reordered hasked⟩

/-- A host that crashes on `(delete-window)` and does all else: advice and a question, either way
round. -/
theorem remembering_unseen_either_way :
    let b : Host.Behaviour := fun _ op =>
      if op.bare = .eval 0 (.named "delete-window" []) then .crash else .ok
    let s : Session := ⟨[Host.fresh b], [], [], [], [Engine.new 0 (.fixed .all)], [], 0⟩
    let kill : Step := .dispatch 0 (.named "kill-buffer" [.nil])
    let advice : Reply := .advice (some ⟨"simplify", "kill-buffer-nil",
      .list [.symbol "kill-buffer", .nil], [⟨.nullary "kill-buffer", some .killBuffer⟩]⟩)
    s.Begins ∧ (∀ h ∈ s.hosts, h.behaviour.Stable) ∧
      replies (s.run [kill, .probe 0 .deleteWindow]).2 = [advice, .truth false] ∧
      replies (s.run [.probe 0 .deleteWindow, kill]).2 = [.truth false, advice] := by
  intro b s kill advice
  have hs : s.Begins :=
    ⟨[b], [], 0, 0, [⟨0, .direct (.fixed .all) [] .empty, .builtin, .console false⟩], [], rfl⟩
  have hstable : ∀ h ∈ s.hosts, h.behaviour.Stable := by
    intro h hh history op
    obtain rfl := List.mem_singleton.mp hh
    cases op <;> rfl
  have hreplies : replies (s.run [kill, .probe 0 .deleteWindow]).2 = [advice, .truth false] := by
    decide
  have hasked : ∀ st ∈ [kill, .probe 0 .deleteWindow], s.Unvarying st := by
    intro st hst
    simp only [List.mem_cons, List.not_mem_nil, or_false] at hst
    rcases hst with rfl | rfl
    · intro e he
      obtain rfl := Option.some.inj he
      exact fun _ _ _ => rfl
    · trivial
  have horder := ((remembering_unseen hs hstable []).2.2.2 _ hasked).2 [1, 0]
  refine ⟨hs, hstable, hreplies, Eq.trans horder ?_⟩
  show [1, 0].filterMap ((replies (s.run [kill, .probe 0 .deleteWindow]).2)[·]?) = _
  rw [hreplies]
  rfl

end CallAdvice.Session
