import CallAdvice.Proofs.Engine.Probing
import CallAdvice.Proofs.Engine.Refit

/-! Pinned capabilities. Of the values that are pinned one after the other the last one counts, and
those of a configuration come after all others (`Engine.pins_pinConfigured`); what a configuration
says under a key that names no capability is logged and has no other effect. At work, an engine
never fills the place of a pinned capability (`Scene.Leads.unfilled`), and other pins would make no
difference to it unless it is asked for a capability on which they differ
(`Scene.observe_repin`). -/
set_option autoImplicit false

namespace CallAdvice

/-! ## Keys -/

theorem Capability.ofId?_eq_some_iff {x : String} {c : Capability} :
    ofId? x = some c ↔ x = c.id := by
  constructor
  · intro h
    have hid := List.find?_some h
    exact (beq_iff_eq.mp hid).symm
  · rintro rfl
    cases c <;> decide

theorem Capability.isNone_ofId? (x : String) :
    (ofId? x).isNone = decide (x ∉ all.map Capability.id) := by
  rw [Bool.eq_iff_iff, Option.isNone_iff_eq_none, ofId?, List.find?_eq_none]
  simp only [beq_iff_eq, List.mem_map, not_exists, not_and, decide_eq_true_eq]

namespace NameMap

variable {α : Type}

/-- The keys, in increasing order. -/
def keys (m : NameMap α) : List String := m.entries.map (·.1)

/-- The map without the keys that are not to be kept. -/
def filterKeys (keep : String → Bool) (m : NameMap α) : NameMap α :=
  ⟨m.entries.filter fun e => keep e.1, m.increasing.filter _⟩

theorem filter_key {entries : List (String × α)}
    (h : entries.Pairwise fun a b => a.1 < b.1) (x : String) :
    entries.filter (fun e => e.1 = x) = ((entries.lookup x).map (x, ·)).toList := by
  induction entries with
  | nil => rfl
  | cons e entries ih =>
    obtain ⟨he, hentries⟩ := List.pairwise_cons.mp h
    by_cases hx : e.1 = x
    · subst hx
      have hrest : entries.filter (fun e' => e'.1 = e.1) = [] := by
        refine List.filter_eq_nil_iff.mpr ?_
        intro e' he'
        have hlt := he e' he'
        have hne : e'.1 ≠ e.1 := fun heq => String.lt_irrefl e.1 (heq ▸ hlt)
        simpa using hne
      rw [List.filter_cons_of_pos (by simp), hrest, List.lookup_cons, beq_self_eq_true]
      rfl
    · have hne : (x == e.1) = false := beq_false_of_ne (Ne.symm hx)
      rw [List.filter_cons_of_neg (by simpa using hx), ih hentries, List.lookup_cons, hne]

end NameMap

namespace Engine

/-! ## The last pin counts -/

/-- The value of the last of some pins that is for a capability. -/
def lastPin? (c : Capability) (pins : List (Capability × Bool)) : Option Bool :=
  ((pins.filter fun p => p.1 = c).getLast?).map (·.2)

theorem lastPin?_cons (c : Capability) (p : Capability × Bool) (pins : List (Capability × Bool)) :
    lastPin? c (p :: pins) = (lastPin? c pins).or (if p.1 = c then some p.2 else none) := by
  unfold lastPin?
  by_cases hp : p.1 = c
  · rw [List.filter_cons_of_pos (by simpa using hp), List.getLast?_cons, if_pos hp]
    cases (pins.filter fun p => p.1 = c).getLast? <;> rfl
  · rw [List.filter_cons_of_neg (by simpa using hp), if_neg hp, Option.or_none]

theorem pins_pinAll (e : Engine) (pins : List (Capability × Bool)) (c : Capability) :
    (e.pinAll pins).pins.get c = (lastPin? c pins).or (e.pins.get c) := by
  induction pins generalizing e with
  | nil => rfl
  | cons p pins ih =>
    have hpin : (e.pin p.1 p.2).pins.get c =
        (if p.1 = c then some p.2 else none).or (e.pins.get c) := by
      rw [pin, Slots.get_set]
      by_cases hp : p.1 = c
      · rw [if_pos hp, if_pos hp.symm]
        rfl
      · rw [if_neg hp, if_neg (Ne.symm hp)]
        rfl
    have hrest : (e.pinAll (p :: pins)).pins.get c = ((e.pin p.1 p.2).pinAll pins).pins.get c := rfl
    rw [hrest, ih, hpin, lastPin?_cons, Option.or_assoc]

theorem lastPin?_configured (m : NameMap Bool) (c : Capability) :
    lastPin? c (m.entries.filterMap fun p => (Capability.ofId? p.1).map (·, p.2)) =
      m.get? c.id := by
  have hfilter : ∀ entries : List (String × Bool),
      (entries.filterMap fun p => (Capability.ofId? p.1).map (·, p.2)).filter (fun p => p.1 = c) =
        (entries.filter fun e => e.1 = c.id).map fun e => (c, e.2) := by
    intro entries
    induction entries with
    | nil => rfl
    | cons e entries ih =>
      obtain ⟨x, b⟩ := e
      by_cases he : x = c.id
      · subst he
        have hid : Capability.ofId? c.id = some c := Capability.ofId?_eq_some_iff.mpr rfl
        rw [List.filterMap_cons_some (by rw [hid]; rfl)]
        simp [ih]
      · have hne : ∀ d, Capability.ofId? x = some d → d ≠ c := by
          rintro d hd rfl
          exact he (Capability.ofId?_eq_some_iff.mp hd)
        cases hid : Capability.ofId? x with
        | none => simp [hid, he, ih]
        | some d => simp [hid, he, ih, hne d hid]
  unfold lastPin?
  rw [hfilter, NameMap.filter_key m.increasing, NameMap.get?]
  cases m.entries.lookup c.id <;> rfl

theorem pins_pinConfigured (e : Engine) (m : NameMap Bool) (c : Capability) :
    (e.pinConfigured m).pins.get c = (m.get? c.id).or (e.pins.get c) := by
  rw [pinConfigured, pins_pinAll, lastPin?_configured]

/-! ## Keys that name no capability -/

/-- A configuration without the keys that name no capability. -/
def knownPins (m : NameMap Bool) : NameMap Bool :=
  m.filterKeys fun x => x ∈ Capability.all.map Capability.id

theorem pinConfigured_knownPins (e : Engine) (m : NameMap Bool) :
    e.pinConfigured (knownPins m) = e.pinConfigured m := by
  have hentries : ((knownPins m).entries.filterMap fun p => (Capability.ofId? p.1).map (·, p.2)) =
      m.entries.filterMap fun p => (Capability.ofId? p.1).map (·, p.2) := by
    unfold knownPins NameMap.filterKeys
    rw [List.filterMap_filter]
    congr 1
    funext p
    have hkey := Capability.isNone_ofId? p.1
    cases hid : Capability.ofId? p.1 with
    | none => simp
    | some c =>
      rw [hid, Option.isNone_some, eq_comm, decide_eq_false_iff_not, Decidable.not_not] at hkey
      rw [if_pos (decide_eq_true hkey)]
  rw [pinConfigured, pinConfigured, hentries]

theorem unknownPins_eq (m : NameMap Bool) :
    unknownPins m = (m.keys.filter fun x => x ∉ Capability.all.map Capability.id).map
      .unknownCapability := by
  unfold unknownPins NameMap.keys
  induction m.entries with
  | nil => rfl
  | cons p entries ih =>
    have hkey := Capability.isNone_ofId? p.1
    by_cases hp : p.1 ∈ Capability.all.map Capability.id
    · simp only [hp, not_true_eq_false, decide_false] at hkey
      rw [List.filterMap_cons_none (by simp [hkey]), List.map_cons,
        List.filter_cons_of_neg (by simpa using hp)]
      exact ih
    · simp only [hp, not_false_eq_true, decide_true] at hkey
      rw [List.filterMap_cons_some (by simp [hkey]; rfl), List.map_cons,
        List.filter_cons_of_pos (by simpa using hp), List.map_cons]
      exact congrArg _ ih

theorem unknownPins_knownPins (m : NameMap Bool) : unknownPins (knownPins m) = [] := by
  rw [unknownPins_eq, List.map_eq_nil_iff, List.filter_eq_nil_iff]
  intro x hx
  obtain ⟨p, hp, rfl⟩ := List.mem_map.mp hx
  have hkept := (List.mem_filter.mp hp).2
  simpa using hkept

/-! ## Places of pinned capabilities -/

/-- `e.Unfilled`: nothing is remembered about a capability that is pinned. -/
def Unfilled (e : Engine) : Prop := ∀ c v, e.pins.get c = some v → e.memory.get c = none

theorem Unfilled.remember {e : Engine} (h : e.Unfilled) {d : Capability}
    (hd : e.known? d = none) (b : Bool) : (e.remember d b).Unfilled := by
  intro c v hc
  have hpin : e.pins.get c = some v := hc
  have hne : c ≠ d := by
    rintro rfl
    rw [pins_of_known?_eq_none hd] at hpin
    cases hpin
  rw [Engine.remember, Slots.get_set, if_neg hne]
  exact h c v hpin

theorem known?_of_pinned {e : Engine} {c : Capability} {v : Bool} (h : e.pins.get c = some v) :
    e.known? c = some v := by
  rw [known?, h]
  rfl

/-- The engine with other pins. -/
def repin (pins : Slots (Option Bool)) (e : Engine) : Engine := { e with pins := pins }

theorem host_repin (pins : Slots (Option Bool)) (e : Engine) : (e.repin pins).host = e.host := rfl

theorem registry_repin (pins : Slots (Option Bool)) (e : Engine) :
    (e.repin pins).registry = e.registry := rfl

theorem sink_repin (pins : Slots (Option Bool)) (e : Engine) : (e.repin pins).sink = e.sink := rfl

theorem known?_repin {e : Engine} {c : Capability} {pins : Slots (Option Bool)}
    (h : pins.get c = e.pins.get c) : (e.repin pins).known? c = e.known? c := by
  have hpins : (e.repin pins).pins.get c = e.pins.get c := h
  rw [known?, known?, hpins]
  rfl

end Engine

namespace Scene
open Engine

theorem Leads.unfilled {s t : Scene} (h : Leads Scene.probe s t) (hs : s.engine.Unfilled) :
    t.engine.Unfilled := by
  induction h with
  | refl => exact hs
  | note _ _ _ ih => exact ih
  | read _ _ ih => exact ih
  | @ask t c _ ih =>
    rcases probe_cases c t with ⟨b, -, hprobe⟩ | ⟨hunknown, done, v, -, hprobe⟩
    · rw [hprobe]
      exact ih
    · rw [hprobe]
      exact ih.remember hunknown v.isPresent

/-! ## Other pins -/

variable {pins : Slots (Option Bool)}

/-- `s.Spares pins`: the answers so far were on capabilities for which `pins` says what is
pinned. -/
def Spares (pins : Slots (Option Bool)) (s : Scene) : Prop :=
  ∀ c b, .answered c b ∈ s.events → pins.get c = s.engine.pins.get c

theorem Leads.spares {s t : Scene} (h : Leads Scene.probe s t) (ht : t.Spares pins) :
    s.Spares pins := by
  obtain ⟨events, hevents, -⟩ := h.exchanges
  intro c b hc
  rw [← h.later.pins]
  exact ht c b (by rw [hevents]; exact List.mem_append_left _ hc)

theorem probe_repin {c : Capability} {s : Scene} (h : (s.probe c).2.Spares pins) :
    (s.refit (repin pins)).probe c = (s.probe c).map id (refit (repin pins)) := by
  have hpins : pins.get c = s.engine.pins.get c := by
    rw [← (later_probe c s).pins]
    exact h c _ (answered_mem_probe c s)
  exact probe_refit_of_known (known?_repin hpins) fun _ => rfl

theorem run_repin (check : Check) {s : Scene} (h : (check.run probe s).2.Spares pins) :
    check.run probe (s.refit (repin pins)) = (check.run probe s).map id (refit (repin pins)) := by
  induction check generalizing s with
  | done result => rfl
  | ask c next ih =>
    have hc : (s.probe c).2.Spares pins := (leads_run probe _ (s.probe c).2).spares h
    rw [Check.run, Check.run, probe_repin hc]
    exact ih (s.probe c).1 h

theorem check_repin (m : Matcher) (callee : String) (call : Call) {s : Scene}
    (h : (s.checkBy probe m callee call).2.Spares pins) :
    (s.refit (repin pins)).checkBy probe m callee call =
      (s.checkBy probe m callee call).map id (refit (repin pins)) :=
  run_repin (m.check callee call) h

theorem firstMatch_repin (callee : String) (call : Call) (ms : List Matcher) {s : Scene}
    (h : (s.firstMatchBy probe callee call ms).2.Spares pins) :
    (s.refit (repin pins)).firstMatchBy probe callee call ms =
      (s.firstMatchBy probe callee call ms).map id (refit (repin pins)) := by
  induction ms generalizing s with
  | nil => rfl
  | cons m ms ih =>
    have hm : (s.checkBy probe m callee call).2.Spares pins → _ := check_repin m callee call
    rw [firstMatchBy] at h
    rw [firstMatchBy, firstMatchBy]
    rcases hcheck : s.checkBy probe m callee call with ⟨_ | d, t⟩
    · rw [hcheck] at h hm
      rw [hm ((leads_firstMatch probe callee call ms t).spares h)]
      exact ih h
    · rw [hcheck] at h hm
      rw [hm h]
      rfl

theorem advise_repin (call : Call) {s : Scene} (h : (s.adviseBy probe call).2.Spares pins) :
    (s.refit (repin pins)).adviseBy probe call =
      (s.adviseBy probe call).map id (refit (repin pins)) := by
  unfold adviseBy at h ⊢
  cases hcallee : call.callee? with
  | none => rfl
  | some callee =>
    have hregistry : (s.refit (repin pins)).engine.registry = s.engine.registry := rfl
    have hfirst : (s.firstMatchBy probe callee call
        (s.engine.registry.lookup callee)).2.Spares pins → _ := firstMatch_repin callee call _
    rw [hcallee] at h
    dsimp only at h ⊢
    rw [hregistry]
    rcases hmatch : s.firstMatchBy probe callee call (s.engine.registry.lookup callee)
      with ⟨_ | d, t⟩
    · rw [hmatch] at h hfirst
      rw [hfirst h]
      rfl
    · rw [hmatch] at h hfirst
      rw [hfirst ((leads_log probe t _).spares h)]
      rfl

theorem dispatch_repin (shared : List Selection) (call : Call) {s : Scene}
    (h : (s.dispatchBy probe shared call).2.Spares pins) :
    (s.refit (repin pins)).dispatchBy probe shared call =
      (s.dispatchBy probe shared call).map id (refit (repin pins)) := by
  have hgate : (s.refit (repin pins)).gate shared =
      (s.gate shared).map id (refit (repin pins)) := rfl
  cases hopen : (s.gate shared).1 with
  | false =>
    have hrefit : ((s.refit (repin pins)).gate shared).1 = false := hopen
    rw [dispatchBy_of_closed hopen, dispatchBy_of_closed hrefit, hgate]
    rfl
  | true =>
    have hrefit : ((s.refit (repin pins)).gate shared).1 = true := hopen
    rw [dispatchBy_of_open hopen] at h ⊢
    rw [dispatchBy_of_open hrefit, hgate]
    exact advise_repin call h

/-- An engine with other pins does the same on a call, unless it is asked for a capability on which
the pins differ. -/
theorem observe_repin (shared : List Selection) (call : Call) {s : Scene}
    (h : (s.observeBy probe shared call).2.Spares pins) :
    (s.refit (repin pins)).observeBy probe shared call =
      (s.observeBy probe shared call).map id (refit (repin pins)) := by
  have hdispatch : (s.dispatchBy probe shared call).2.Spares pins → _ := dispatch_repin shared call
  unfold observeBy at h ⊢
  rcases hresult : s.dispatchBy probe shared call with ⟨_ | d, t⟩
  · rw [hresult] at h hdispatch
    rw [hdispatch h]
    rfl
  · rw [hresult] at h hdispatch
    have hnotes : ∀ e ∈ [Event.logged (.emitting d.rule d.message), .warned d.warning],
        e.isNote = true := by simp [Event.isNote]
    rw [hdispatch ((Leads.note _ hnotes (.refl t)).spares h)]
    rfl

end Scene

end CallAdvice
