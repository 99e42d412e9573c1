import CallAdvice.Proofs.Engine.Refit
import CallAdvice.Proofs.Session.Gate

/-! A session with a change of one engine. Where the work of an engine goes the same way with the
change as without it, so does the step that lets it work, and the change is still there in the end
(`Session.answer_refit`, `Session.observe_refit`). Other engines do not notice, nor do those that
are added later (`Session.addEngines_refit`). -/
set_option autoImplicit false

namespace CallAdvice.Session

/-- The session with a change of engine `k`. -/
def refit (s : Session) (k : Nat) (g : Engine → Engine) : Session :=
  { s with engines := s.engines.modify k g }

theorem refit_of_fixed {s : Session} {k : Nat} {e : Engine} (he : s.engines[k]? = some e)
    {g : Engine → Engine} (hg : g e = e) : s.refit k g = s := by
  unfold refit
  rw [modify_eq_set he, hg, set_eq_self he]

/-- The change that engine `i` undergoes where `g` is a change of engine `k`. -/
def changeOf (k : Nat) (g : Engine → Engine) (i : Nat) : Engine → Engine := if i = k then g else id

theorem modify_set {α : Type} (l : List α) (k i : Nat) (g : α → α) (a : α) :
    (l.modify k g).set i ((if i = k then g else id) a) = (l.set i a).modify k g := by
  apply List.ext_getElem?
  intro j
  rw [List.getElem?_set, List.getElem?_modify, List.getElem?_modify, List.getElem?_set,
    List.length_modify]
  by_cases hi : i = j
  · subst hi
    by_cases hk : i = k
    · subst hk
      by_cases hlt : i < l.length <;> simp [hlt]
    · by_cases hlt : i < l.length <;> simp [hlt, hk, Ne.symm hk]
  · simp [hi]

section

variable {g : Engine → Engine} (hhost : ∀ e, (g e).host = e.host)
include hhost

theorem host_changeOf (k i : Nat) (e : Engine) : (changeOf k g i e).host = e.host := by
  unfold changeOf
  split
  · exact hhost e
  · rfl

theorem scene?_refit (s : Session) (k i : Nat) :
    (s.refit k g).scene? i = (s.scene? i).map (Scene.refit (changeOf k g i)) := by
  have hengine : (s.refit k g).engines[i]? = (s.engines[i]?).map (changeOf k g i) := by
    show (s.engines.modify k g)[i]? = _
    rw [List.getElem?_modify]
    by_cases hk : k = i
    · simp [changeOf, hk]
    · simp [changeOf, hk, Ne.symm hk]
  unfold scene?
  rw [hengine]
  cases s.engines[i]? with
  | none => rfl
  | some e =>
    dsimp only [Option.map_some]
    rw [host_changeOf hhost, Option.map_map]
    rfl

theorem restore_refit (s : Session) (k i : Nat) (after : Scene) :
    (s.refit k g).restore i (after.refit (changeOf k g i)) = (s.restore i after).refit k g := by
  have hengines : (s.engines.modify k g).set i (changeOf k g i after.engine) =
      (s.engines.set i after.engine).modify k g := modify_set s.engines k i g after.engine
  unfold restore refit Scene.refit
  dsimp only
  rw [hengines, host_changeOf hhost]

theorem events_refit (k i : Nat) (after : Scene) :
    (after.refit (changeOf k g i)).events.map
        (Event.atEngine i (after.refit (changeOf k g i)).engine.host) =
      after.events.map (.atEngine i after.engine.host) := by
  have hsame : (after.refit (changeOf k g i)).engine.host = after.engine.host :=
    host_changeOf hhost k i after.engine
  rw [hsame]
  rfl

omit hhost in
theorem commutes_changeOf {α : Type} {f : Scene → α × Scene} {scene : Scene} {k i : Nat}
    (hf : i = k → f (scene.refit g) = (f scene).map id (Scene.refit g)) :
    f (scene.refit (changeOf k g i)) = (f scene).map id (Scene.refit (changeOf k g i)) := by
  unfold changeOf
  split
  · next hi => exact hf hi
  · rfl

theorem answer_refit {α : Type} (s : Session) (k i : Nat) (f : Scene → α × Scene)
    (reply : α → Reply) (hf : ∀ scene, i = k → s.scene? i = some scene →
      f (scene.refit g) = (f scene).map id (Scene.refit g)) :
    (s.refit k g).answer i f reply =
      ((s.answer i f reply).1.refit k g, (s.answer i f reply).2) := by
  have hscene' := scene?_refit hhost s k i
  cases hscene : s.scene? i with
  | none =>
    rw [hscene] at hscene'
    rw [answer_of_no_scene hscene, answer_of_no_scene hscene']
  | some scene =>
    have hwork := commutes_changeOf fun hi => hf scene hi hscene
    have hrestore := restore_refit hhost s k i (f scene).2
    have hevents := events_refit hhost k i (f scene).2
    rw [hscene] at hscene'
    rw [answer_of_scene? hscene, answer_of_scene? hscene', hwork]
    exact Prod.ext hrestore (Prod.ext hevents rfl)

theorem observe_refit (hsink : ∀ e, (g e).sink = e.sink) (s : Session) (k i : Nat) (call : Call)
    (hf : ∀ scene, i = k → s.scene? i = some scene →
      (scene.refit g).observe s.shared call =
        (scene.observe s.shared call).map id (Scene.refit g)) :
    (s.refit k g).observeBy Scene.probe i call =
      ((s.observeBy Scene.probe i call).1.refit k g, (s.observeBy Scene.probe i call).2) := by
  have hscene' := scene?_refit hhost s k i
  cases hscene : s.scene? i with
  | none =>
    rw [hscene] at hscene'
    rw [observe_of_no_scene hscene, observe_of_no_scene hscene']
  | some scene =>
    have hshared : (s.refit k g).shared = s.shared := rfl
    have hwork := commutes_changeOf (f := (·.observe s.shared call)) fun hi => hf scene hi hscene
    rw [hscene] at hscene'
    rw [observe_of_scene? hscene, observe_of_scene? hscene', hshared, hwork]
    rcases scene.observe s.shared call with ⟨w, after⟩
    have hrestore := restore_refit hhost s k i after
    have hevents := events_refit hhost k i after
    have hsame : (changeOf k g i after.engine).sink = after.engine.sink := by
      unfold changeOf
      split
      · exact hsink after.engine
      · rfl
    refine Prod.ext ?_ hevents
    cases w with
    | none => exact hrestore
    | some w =>
      show ((s.refit k g).restore i (after.refit (changeOf k g i))).collect
        (changeOf k g i after.engine).sink w = _
      rw [hrestore, hsame]
      cases after.engine.sink <;> rfl

end

theorem register_refit (s : Session) (k : Nat) (g : Engine → Engine) (set : Nat) (o : Observer) :
    (s.refit k g).register set o = ((s.register set o).1.refit k g, (s.register set o).2) := by
  have hsets : (s.refit k g).sets = s.sets := rfl
  unfold register
  rw [hsets]
  split <;> rfl

theorem registry_refit {g : Engine → Engine} (hregistry : ∀ e, (g e).registry = e.registry)
    (s : Session) (k i : Nat) :
    ((s.refit k g).engines[i]?).map (·.registry) = (s.engines[i]?).map (·.registry) := by
  show ((s.engines.modify k g)[i]?).map _ = _
  rw [List.getElem?_modify]
  by_cases hk : k = i
  · cases s.engines[i]? <;> simp [hk, hregistry]
  · simp [hk]

/-! ## Engines added after the change -/

theorem modify_append_left {α : Type} {l : List α} {k : Nat} (hk : k < l.length) (g : α → α)
    (more : List α) : (l ++ more).modify k g = l.modify k g ++ more := by
  have hl : l[k]? = some l[k] := List.getElem?_eq_getElem hk
  have hmore : (l ++ more)[k]? = some l[k] := by rw [List.getElem?_append_left hk, hl]
  rw [modify_eq_set hmore, modify_eq_set hl, List.set_append_left _ _ hk]

theorem addEngine_refit {s t : Session} {p : Plan} {log : List Log.Entry}
    (h : s.addEngine p = .ok (t, log)) {k : Nat} (hk : k < s.engines.length)
    (g : Engine → Engine) : (s.refit k g).addEngine p = .ok (t.refit k g, log) := by
  unfold addEngine at h ⊢
  cases hp : p.setup with
  | direct source pins configured =>
    rw [hp] at h
    obtain ⟨rfl, rfl⟩ := Prod.mk.inj (Except.ok.inj h)
    unfold refit
    rw [modify_append_left hk]
  | project reader files root =>
    rw [hp] at h
    dsimp only at h ⊢
    split at h
    · cases h
    · obtain ⟨rfl, rfl⟩ := Prod.mk.inj (Except.ok.inj h)
      unfold refit
      rw [modify_append_left hk]

theorem addEngines_refit {s t : Session} {plans : List Plan} {log : List Log.Entry}
    (h : s.addEngines plans = .ok (t, log)) {k : Nat} (hk : k < s.engines.length)
    (g : Engine → Engine) : (s.refit k g).addEngines plans = .ok (t.refit k g, log) := by
  induction plans generalizing s log with
  | nil =>
    obtain ⟨rfl, rfl⟩ := Prod.mk.inj (Except.ok.inj h)
    rfl
  | cons p plans ih =>
    obtain ⟨u, now, later, hu, hv, rfl⟩ := addEngines_cons.mp h
    obtain ⟨-, e, -, hengines⟩ := addEngine_eq_ok hu
    have hk' : k < u.engines.length := by
      rw [hengines, List.length_append]
      exact Nat.lt_add_right _ hk
    exact addEngines_cons.mpr ⟨_, now, later, addEngine_refit hu hk g, ih hv hk', rfl⟩

end CallAdvice.Session
