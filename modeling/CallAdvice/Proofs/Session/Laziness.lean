import CallAdvice.Proofs.Engine.Outcome
import CallAdvice.Proofs.Rule.Dispatch
import CallAdvice.Proofs.Rule.FirstMatch
import CallAdvice.Proofs.Session.Gate
import CallAdvice.Proofs.Session.Scratch

/-! Probing is lazy. The builtin rules look at the shape of a call before they ask for a capability,
and `Rule.Poses` lists the calls on which one of them does. All rules under one name ask for the
same capability, so after the first question the others change nothing: a dispatch probes the host
once, or not at all (`Session.dispatch_probes_lazily`). -/
set_option autoImplicit false

namespace CallAdvice

/-- Whether a decision begins with a question. -/
def Check.asks : Check → Bool
  | .done _ => false
  | .ask .. => true

/-! ## Scenes that differ in their events -/

namespace Scene

/-- `s.Still t`: the engine and the host of `t` are those of `s`. -/
structure Still (s t : Scene) : Prop where
  engine : t.engine = s.engine
  host : t.host = s.host

theorem Still.refl (s : Scene) : s.Still s := ⟨rfl, rfl⟩

theorem Still.trans {s t u : Scene} (h : s.Still t) (h' : t.Still u) : s.Still u :=
  ⟨h'.engine.trans h.engine, h'.host.trans h.host⟩

theorem still_happen (s : Scene) (events : List Engine.Event) : s.Still (s.happen events) :=
  ⟨rfl, rfl⟩

theorem probe_of_known_still {c : Capability} {s : Scene} {b : Bool}
    (h : s.engine.known? c = some b) : s.Still (s.probe c).2 := by
  rw [probe_of_known h]
  exact still_happen s _

theorem probe_of_unknown_parts {c : Capability} {s : Scene} (h : s.engine.known? c = none) :
    (s.probe c).2.engine = s.engine.remember c (s.host.probe c).1.isPresent ∧
      (s.probe c).2.host = (s.host.probe c).2 := by
  rw [probe_of_unknown h]
  exact ⟨rfl, rfl⟩

/-- A question does the same to an engine and its host whatever has happened before. -/
theorem Still.probe {s t : Scene} (h : s.Still t) (c : Capability) :
    (s.probe c).2.Still (t.probe c).2 := by
  have hsame : t.engine.known? c = s.engine.known? c := by rw [h.engine]
  cases hk : s.engine.known? c with
  | some b =>
    rw [probe_of_known hk, probe_of_known (hsame.trans hk)]
    exact ⟨h.engine, h.host⟩
  | none =>
    obtain ⟨hengine, hhost⟩ := probe_of_unknown_parts hk
    obtain ⟨hengine', hhost'⟩ := probe_of_unknown_parts (hsame.trans hk)
    exact ⟨by rw [hengine', hengine, h.engine, h.host], by rw [hhost', hhost, h.host]⟩

/-! ## Matchers that ask for one capability -/

theorem run_of_known {c : Capability} {check : Check} (hc : check.AsksOnly c) {s : Scene} {b : Bool}
    (hk : s.engine.known? c = some b) : s.Still (check.run Scene.probe s).2 := by
  induction check generalizing s with
  | done result => exact .refl s
  | ask d next ih =>
    obtain ⟨rfl, hnext⟩ := hc
    have hask := probe_of_known_still hk
    refine hask.trans (ih (s.probe d).1 (hnext _) ?_)
    rw [hask.engine]
    exact hk

theorem run_of_asks {c : Capability} {check : Check} (hc : check.AsksOnly c)
    (ha : check.asks = true) (s : Scene) : (s.probe c).2.Still (check.run Scene.probe s).2 := by
  cases check with
  | done result => cases ha
  | ask d next =>
    obtain ⟨rfl, hnext⟩ := hc
    exact run_of_known (hnext _) (known?_probe d s)

theorem run_of_not_asks {check : Check} (ha : check.asks = false) (s : Scene) :
    s.Still (check.run Scene.probe s).2 := by
  cases check with
  | done result => exact .refl s
  | ask d next => cases ha

theorem firstMatch_still {callee : String} {call : Call} {ms : List Matcher} {s : Scene}
    (hms : ∀ m ∈ ms, ∀ t, s.Still t → t.Still (t.checkBy Scene.probe m callee call).2) :
    s.Still (s.firstMatchBy Scene.probe callee call ms).2 := by
  suffices hfrom : ∀ t, s.Still t → s.Still (t.firstMatchBy Scene.probe callee call ms).2 from
    hfrom s (.refl s)
  induction ms with
  | nil => exact fun t ht => ht
  | cons m ms ih =>
    intro t ht
    have hm := ht.trans (hms m List.mem_cons_self t ht)
    rw [firstMatchBy]
    split
    · next d u he =>
      rw [he] at hm
      exact hm
    · next u he =>
      rw [he] at hm
      exact ih (fun m' hm' => hms m' (List.mem_cons_of_mem m hm')) u hm

theorem firstMatch_of_known {c : Capability} {callee : String} {call : Call} {ms : List Matcher}
    {s : Scene} {b : Bool} (hms : ∀ m ∈ ms, (m.check callee call).AsksOnly c)
    (hk : s.engine.known? c = some b) :
    s.Still (s.firstMatchBy Scene.probe callee call ms).2 := by
  refine firstMatch_still ?_
  intro m hm t ht
  refine (still_happen t _).trans (run_of_known (b := b) (hms m hm) ?_)
  rw [happen_engine, ht.engine]
  exact hk

theorem firstMatch_of_not_asks {callee : String} {call : Call} {ms : List Matcher} (s : Scene)
    (hms : ∀ m ∈ ms, (m.check callee call).asks = false) :
    s.Still (s.firstMatchBy Scene.probe callee call ms).2 :=
  firstMatch_still fun m hm t _ => (still_happen t _).trans (run_of_not_asks (hms m hm) _)

/-- Where the matchers that do not ask pass, one that asks is reached, and from then on the
capability is known. -/
theorem firstMatch_of_asks {c : Capability} {callee : String} {call : Call} {ms : List Matcher}
    (hms : ∀ m ∈ ms, (m.check callee call).AsksOnly c)
    (hpass : ∀ m ∈ ms, (m.check callee call).asks = false → m.check callee call = .pass)
    (hask : ∃ m ∈ ms, (m.check callee call).asks = true) (s : Scene) :
    (s.probe c).2.Still (s.firstMatchBy Scene.probe callee call ms).2 := by
  induction ms generalizing s with
  | nil => simp at hask
  | cons m ms ih =>
    have hms' : ∀ m' ∈ ms, (m'.check callee call).AsksOnly c :=
      fun m' hm' => hms m' (List.mem_cons_of_mem m hm')
    let t := s.happen [.matcherRun m.id callee call m.announced]
    have ht : (s.probe c).2.Still (t.probe c).2 := (still_happen s _).probe c
    cases ha : (m.check callee call).asks with
    | true =>
      have hm : (s.probe c).2.Still (s.checkBy Scene.probe m callee call).2 :=
        ht.trans (run_of_asks (hms m List.mem_cons_self) ha t)
      rw [firstMatchBy]
      split
      · next d u he =>
        rw [he] at hm
        exact hm
      · next u he =>
        rw [he] at hm
        refine hm.trans (firstMatch_of_known (b := (s.probe c).1) hms' ?_)
        rw [hm.engine]
        exact known?_probe c s
    | false =>
      have hm : s.checkBy Scene.probe m callee call = (none, t) := by
        rw [checkBy, hpass m List.mem_cons_self ha]
        rfl
      have hask' : ∃ m' ∈ ms, (m'.check callee call).asks = true := by
        obtain ⟨m', hm', ha'⟩ := hask
        rcases List.mem_cons.mp hm' with rfl | hm'
        · rw [ha] at ha'
          cases ha'
        · exact ⟨m', hm', ha'⟩
      rw [firstMatchBy, hm]
      exact ht.trans (ih hms' (fun m' hm' => hpass m' (List.mem_cons_of_mem m hm')) hask' t)

end Scene

/-! ## The questions of the builtin rules -/

namespace Rule

/-- `Poses call c`: on this call a builtin rule asks for the capability `c`. -/
inductive Poses : Call → Capability → Prop where
  | killBuffer {arg : Form}
      (harg : arg = .nullary "current-buffer" ∨ arg = .nil ∨ arg = .list []) :
    Poses (.named "kill-buffer" [arg]) .killBuffer
  | deleteWindow : Poses (.named "delete-window" [.nullary "selected-window"]) .deleteWindow
  | listMotion {f : String} (hf : f = "up-list" ∨ f = "down-list" ∨ f = "backward-up-list") :
    Poses (.named f [.int 1]) .listMotion

theorem asks_dropSoleArg {rule : String} {isDefault : Form → Bool} {c : Capability} {f : String}
    {call : Call} : (dropSoleArg rule isDefault c f call).asks = true ↔
      ∃ arg, call.soleArg? = some arg ∧ isDefault arg = true := by
  unfold dropSoleArg
  cases call.soleArg? with
  | none => simp [Check.asks, Check.pass]
  | some arg =>
    by_cases hdefault : isDefault arg = true <;> simp [Check.asks, Check.pass, hdefault]

theorem asks_killBufferCurrent {f : String} {call : Call} :
    (killBufferCurrent f call).asks = true ↔
      ∃ arg, call.soleArg? = some arg ∧ arg.isNullary "current-buffer" = true := by
  unfold killBufferCurrent
  cases call.soleArg? with
  | none => simp [Check.asks, Check.pass]
  | some arg =>
    by_cases hcurrent : arg.isNullary "current-buffer" = true <;>
      simp [Check.asks, Check.pass, hcurrent]

theorem pass_dropSoleArg {rule : String} {isDefault : Form → Bool} {c : Capability} {f : String}
    {call : Call} (h : (dropSoleArg rule isDefault c f call).asks = false) :
    dropSoleArg rule isDefault c f call = .pass := by
  unfold dropSoleArg at h ⊢
  split at h
  · split at h
    · cases h
    · next hdefault => rw [if_neg hdefault]
  · rfl

theorem pass_killBufferCurrent {f : String} {call : Call}
    (h : (killBufferCurrent f call).asks = false) : killBufferCurrent f call = .pass := by
  unfold killBufferCurrent at h ⊢
  split at h
  · split at h
    · cases h
    · next hcurrent => rw [if_neg hcurrent]
  · rfl

theorem asks_charAtPoint (f : String) (call : Call) : (charAtPoint f call).asks = false := by
  unfold charAtPoint
  split
  · split <;> rfl
  · rfl

theorem asks_searchLiteral (f : String) (call : Call) : (searchLiteral f call).asks = false := by
  unfold searchLiteral
  split
  · split <;> rfl
  · rfl

theorem asks_searchBound (f : String) (call : Call) : (searchBound f call).asks = false := by
  unfold searchBound
  split
  · split <;> split <;> rfl
  · rfl

theorem poses_of_asks {f : String} {m : Matcher} (hm : m ∈ Registry.builtin.lookup f) {call : Call}
    (hf : call.callee? = some f) (ha : (m.check f call).asks = true) : ∃ c, Poses call c := by
  rw [Call.callee?_eq_some.mp hf]
  cases listed_of_mem_lookup hm with
  | charAtPoint => simp [asks_charAtPoint] at ha
  | deleteWindow =>
    rw [check_builtin] at ha
    obtain ⟨arg, hsole, harg⟩ := asks_dropSoleArg.mp ha
    rw [Call.soleArg?_eq_some.mp hsole, Form.isNullary_iff.mp harg]
    exact ⟨_, .deleteWindow⟩
  | killCurrent =>
    rw [check_builtin] at ha
    obtain ⟨arg, hsole, harg⟩ := asks_killBufferCurrent.mp ha
    rw [Call.soleArg?_eq_some.mp hsole, Form.isNullary_iff.mp harg]
    exact ⟨_, .killBuffer (.inl rfl)⟩
  | killNil =>
    rw [check_builtin] at ha
    obtain ⟨arg, hsole, harg⟩ := asks_dropSoleArg.mp ha
    rw [Call.soleArg?_eq_some.mp hsole]
    exact ⟨_, .killBuffer (.inr (Form.isNil_iff.mp harg))⟩
  | literal => simp [asks_searchLiteral] at ha
  | bound => simp [asks_searchBound] at ha
  | listMotion hname =>
    rw [check_builtin] at ha
    obtain ⟨arg, hsole, harg⟩ := asks_dropSoleArg.mp ha
    rw [Call.soleArg?_eq_some.mp hsole, Form.int?_eq_some.mp (beq_iff_eq.mp harg)]
    exact ⟨_, .listMotion hname⟩

/-- `Asking c f call ms`: of the matchers `ms`, on a call under the name `f`, at least one asks,
those that do ask for `c`, and the others pass. -/
structure Asking (c : Capability) (f : String) (call : Call) (ms : List Matcher) : Prop where
  only : ∀ m ∈ ms, (m.check f call).AsksOnly c
  pass : ∀ m ∈ ms, (m.check f call).asks = false → m.check f call = .pass
  some : ∃ m ∈ ms, (m.check f call).asks = true

theorem asking_dropSoleArg {isDefault : Form → Bool} {arg : Form} (harg : isDefault arg = true)
    (id rule : String) (c : Capability) (f : String) :
    Asking c f (.named f [arg]) [builtin id (dropSoleArg rule isDefault c)] where
  only := by simpa using asksOnly_dropSoleArg rule isDefault c f _
  pass := by simpa using pass_dropSoleArg
  some := by simpa using asks_dropSoleArg.mpr ⟨arg, rfl, harg⟩

theorem asking_killBuffer {arg : Form}
    (harg : arg = .nullary "current-buffer" ∨ arg = .nil ∨ arg = .list []) (f : String) :
    Asking .killBuffer f (.named f [arg]) [builtin "kill-buffer-current" killBufferCurrent,
      builtin "kill-buffer-nil" killBufferNil] where
  only := by
    simp only [List.forall_mem_cons, check_builtin]
    exact ⟨asksOnly_killBufferCurrent f _, asksOnly_dropSoleArg _ _ _ f _, by simp⟩
  pass := by
    simp only [List.forall_mem_cons, check_builtin]
    exact ⟨pass_killBufferCurrent, pass_dropSoleArg, by simp⟩
  some := by
    rcases harg with rfl | harg
    · refine ⟨_, List.mem_cons_self, ?_⟩
      rw [check_builtin]
      exact asks_killBufferCurrent.mpr ⟨_, rfl, Form.isNullary_iff.mpr rfl⟩
    · refine ⟨_, List.mem_cons_of_mem _ List.mem_cons_self, ?_⟩
      rw [check_builtin]
      exact asks_dropSoleArg.mpr ⟨arg, rfl, Form.isNil_iff.mpr harg⟩

theorem Poses.asking {call : Call} {c : Capability} (h : Poses call c) :
    ∃ f, call.callee? = some f ∧ Asking c f call (Registry.builtin.lookup f) := by
  cases h with
  | killBuffer harg => exact ⟨"kill-buffer", rfl, asking_killBuffer harg "kill-buffer"⟩
  | deleteWindow =>
    exact ⟨"delete-window", rfl, asking_dropSoleArg (Form.isNullary_iff.mpr rfl) _ _ _ _⟩
  | @listMotion f hf =>
    have hlookup : Registry.builtin.lookup f = [builtin "list-motion-one" listMotionOne] := by
      rcases hf with rfl | rfl | rfl <;> rfl
    refine ⟨f, rfl, ?_⟩
    rw [hlookup]
    exact asking_dropSoleArg (by decide) _ _ _ f

end Rule

/-! ## Dispatch with the builtin rules -/

namespace Scene

theorem advise_of_poses {s : Scene} (hreg : s.engine.registry = .builtin) {call : Call}
    {c : Capability} (h : Rule.Poses call c) :
    (s.probe c).2.Still (s.adviseBy Scene.probe call).2 := by
  obtain ⟨f, hf, hasking⟩ := h.asking
  rw [advise_of_callee hf, hreg]
  exact (firstMatch_of_asks hasking.only hasking.pass hasking.some s).trans (still_happen _ _)

theorem advise_of_not_poses {s : Scene} (hreg : s.engine.registry = .builtin) {call : Call}
    (h : ∀ c, ¬ Rule.Poses call c) : s.Still (s.adviseBy Scene.probe call).2 := by
  cases hf : call.callee? with
  | none =>
    rw [advise_of_unregistered (by simp [hf])]
    exact .refl s
  | some f =>
    rw [advise_of_callee hf, hreg]
    refine (firstMatch_of_not_asks s ?_).trans (still_happen _ _)
    intro m hm
    cases ha : (m.check f call).asks with
    | false => rfl
    | true =>
      obtain ⟨c, hc⟩ := Rule.poses_of_asks hm hf ha
      exact absurd hc (h c)

/-- `s.MustAsk shared call c`: the gate is open, a builtin rule asks for the capability `c` on the
call, and the engine knows nothing about it, neither pinned nor remembered. -/
structure MustAsk (s : Scene) (shared : List Selection) (call : Call) (c : Capability) : Prop where
  opened : (s.engine.source.read shared s.engine.reads).allows = true
  posed : Rule.Poses call c
  unpinned : s.engine.pins.get c = none
  unremembered : s.engine.memory.get c = none

/-- The engine after it has read its selection once more. -/
def nextRead (s : Scene) : Engine := { s.engine with reads := s.engine.reads + 1 }

theorem dispatch_of_mustAsk {s : Scene} (hreg : s.engine.registry = .builtin)
    {shared : List Selection} {call : Call} {c : Capability} (h : s.MustAsk shared call c) :
    (s.dispatch shared call).2.engine = s.nextRead.remember c (s.host.probe c).1.isPresent ∧
      (s.dispatch shared call).2.host = (s.host.probe c).2 := by
  have hgate := s.gate_eq shared
  have hopen : (s.gate shared).1 = true := by rw [hgate]; exact h.opened
  have hunknown : (s.gate shared).2.engine.known? c = none := by
    rw [hgate]
    simp [Engine.known?, h.unpinned, h.unremembered]
  have hstill : ((s.gate shared).2.probe c).2.Still (s.dispatch shared call).2 := by
    rw [dispatch_of_open hopen]
    exact advise_of_poses (s := (s.gate shared).2) hreg h.posed
  obtain ⟨hengine, hhost⟩ := probe_of_unknown_parts hunknown
  refine ⟨?_, ?_⟩
  · rw [hstill.engine, hengine, hgate]
    rfl
  · rw [hstill.host, hhost, hgate]

theorem dispatch_of_not_mustAsk {s : Scene} (hreg : s.engine.registry = .builtin)
    {shared : List Selection} {call : Call} (h : ∀ c, ¬ s.MustAsk shared call c) :
    (s.dispatch shared call).2.engine = s.nextRead ∧
      (s.dispatch shared call).2.host = s.host := by
  have hgate := s.gate_eq shared
  suffices hstill : (s.gate shared).2.Still (s.dispatch shared call).2 by
    rw [hgate] at hstill
    exact ⟨hstill.engine, hstill.host⟩
  cases hopen : (s.gate shared).1 with
  | false =>
    rw [dispatch, dispatchBy_of_closed hopen]
    exact .refl _
  | true =>
    rw [dispatch_of_open hopen]
    by_cases hposed : ∃ c, Rule.Poses call c
    · obtain ⟨c, hposed⟩ := hposed
      refine Still.trans ?_ (advise_of_poses (s := (s.gate shared).2) hreg hposed)
      -- The question has an answer already, or else the engine would have to ask.
      have hallows : (s.engine.source.read shared s.engine.reads).allows = true := by
        rw [hgate] at hopen
        exact hopen
      cases hk : (s.gate shared).2.engine.known? c with
      | some b => exact probe_of_known_still hk
      | none =>
        have hunknown : s.engine.pins.get c = none ∧ s.engine.memory.get c = none := by
          rw [hgate] at hk
          simpa [Engine.known?] using hk
        exact absurd ⟨hallows, hposed, hunknown.1, hunknown.2⟩ (h c)
    · exact advise_of_not_poses (s := (s.gate shared).2) hreg fun c hc => hposed ⟨c, hc⟩

end Scene

/-! ## Dispatch in a session -/

namespace Session

theorem asked_dispatch {s : Session} {i : Nat} {scene : Scene} (hs : s.scene? i = some scene)
    (call : Call) {done : List Host.Exchange}
    (hhistory : (scene.dispatch s.shared call).2.host.history = scene.host.history ++ done)
    (j : Nat) :
    asked j (s.step (.dispatch i call)).2.1 = if scene.engine.host = j then done else [] := by
  have hleads := Scene.leads_dispatch Scene.probe s.shared call scene
  have hhost : (scene.dispatch s.shared call).2.engine.host = scene.engine.host := hleads.later.host
  obtain ⟨events, hevents, hexchanges⟩ := hleads.exchanges
  rw [(scene?_eq_some.mp hs).2.2, List.nil_append] at hevents
  have hdone : Engine.exchanges (scene.dispatch s.shared call).2.events = done := by
    rw [Scene.dispatch, hevents]
    exact List.append_cancel_left (hexchanges.symm.trans hhistory)
  have hstep : s.step (.dispatch i call) = s.answer i (·.dispatch s.shared call) .advice := rfl
  rw [hstep, answer_of_scene? hs, asked_atEngine, hhost, hdone]

/-- An engine with the builtin rules asks its host for something on a call exactly if its gate is
open, the call is one on which a rule asks for a capability, and this is neither pinned nor
remembered. Then it makes one probe for that capability and remembers the verdict, and nothing else
changes in the session but the number of reads; in all other cases that number alone changes. -/
theorem dispatch_probes_lazily {s : Session} {i : Nat} {scene : Scene}
    (hs : s.scene? i = some scene) (hreg : scene.engine.registry = .builtin) (call : Call) :
    ((∃ j, asked j (s.step (.dispatch i call)).2.1 ≠ []) ↔
      ∃ c, scene.MustAsk s.shared call c) ∧
    (∀ c, scene.MustAsk s.shared call c → ∃ done v, Host.Probed c scene.host.granted done v ∧
      scene.host.probe c = (v, scene.host.after done) ∧
      (∀ j, asked j (s.step (.dispatch i call)).2.1 =
        if scene.engine.host = j then done else []) ∧
      (s.step (.dispatch i call)).1 = { s with
        engines := s.engines.set i { scene.engine with
          reads := scene.engine.reads + 1
          memory := scene.engine.memory.set c (some v.isPresent) }
        hosts := s.hosts.set scene.engine.host (scene.host.after done) }) ∧
    ((∀ c, ¬ scene.MustAsk s.shared call c) → (s.step (.dispatch i call)).1 = s.afterRead i) := by
  have hstep : s.step (.dispatch i call) = s.answer i (·.dispatch s.shared call) .advice := rfl
  have hsession : (s.step (.dispatch i call)).1 = s.restore i (scene.dispatch s.shared call).2 := by
    rw [hstep, answer_of_scene? hs]
  have hasks : ∀ c, scene.MustAsk s.shared call c → ∃ done v,
      Host.Probed c scene.host.granted done v ∧ scene.host.probe c = (v, scene.host.after done) ∧
      ∀ j, asked j (s.step (.dispatch i call)).2.1 =
        if scene.engine.host = j then done else [] := by
    intro c hc
    obtain ⟨done, hafter, hcourse⟩ := scene.host.probe_course c
    refine ⟨done, _, hcourse, Prod.ext rfl hafter, asked_dispatch hs call ?_⟩
    rw [(Scene.dispatch_of_mustAsk hreg hc).2, hafter]
  refine ⟨⟨?_, ?_⟩, ?_, ?_⟩
  · rintro ⟨j, hj⟩
    by_contra hno
    obtain ⟨-, hhost⟩ := Scene.dispatch_of_not_mustAsk hreg (not_exists.mp hno)
    have hhistory : (scene.dispatch s.shared call).2.host.history = scene.host.history ++ [] := by
      rw [hhost, List.append_nil]
    apply hj
    rw [asked_dispatch hs call hhistory, ite_self]
  · rintro ⟨c, hc⟩
    obtain ⟨done, v, hcourse, -, hasked⟩ := hasks c hc
    refine ⟨scene.engine.host, ?_⟩
    rw [hasked, if_pos rfl]
    rintro rfl
    simpa using hcourse.acquires
  · intro c hc
    obtain ⟨done, v, hcourse, hprobe, hasked⟩ := hasks c hc
    obtain ⟨hengine, hhost⟩ := Scene.dispatch_of_mustAsk hreg hc
    refine ⟨done, v, hcourse, hprobe, hasked, ?_⟩
    rw [hsession, restore, hengine, hhost, hprobe]
    rfl
  · intro hno
    obtain ⟨hengine, hhost⟩ := Scene.dispatch_of_not_mustAsk hreg hno
    rw [hsession, restore, hengine, hhost]
    exact restore_afterRead hs []

/-- On a motion down one list, an engine that knows nothing asks its host; down two, it does not. -/
theorem dispatch_probes_lazily_down_list :
    let e := Engine.new 0 (.fixed .all)
    let host := Host.fresh fun _ _ => .ok
    let s : Session := ⟨[host], [], [], [], [e], [], 0⟩
    s.scene? 0 = some ⟨e, host, []⟩ ∧ e.registry = .builtin ∧
      (∃ j, asked j (s.step (.dispatch 0 (.named "down-list" [.int 1]))).2.1 ≠ []) ∧
      (s.step (.dispatch 0 (.named "down-list" [.int 2]))).1 = s.afterRead 0 := by
  intro e host s
  have hs : s.scene? 0 = some ⟨e, host, []⟩ := rfl
  obtain ⟨hone, -, -⟩ := dispatch_probes_lazily hs rfl (.named "down-list" [.int 1])
  obtain ⟨-, -, htwo⟩ := dispatch_probes_lazily hs rfl (.named "down-list" [.int 2])
  refine ⟨hs, rfl, hone.mpr ⟨.listMotion, ?_⟩, htwo ?_⟩
  · exact ⟨rfl, .listMotion (.inr (.inl rfl)), rfl, rfl⟩
  · intro c hc
    generalize hcall : Call.named "down-list" [.int 2] = call at hc
    cases hc.posed <;> simp [Call.named] at hcall

end Session

end CallAdvice
