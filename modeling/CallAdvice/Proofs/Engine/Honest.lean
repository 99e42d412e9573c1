import CallAdvice.Proofs.Engine.Knowledge
import CallAdvice.Proofs.Host.Probe

/-! Engines on hosts that stay the same. There a question has one true answer, `Scene.truth`, and a
way of answering is honest when it gives that one. Remembering answers is honest and so is asking
the host every time; two scenes that differ only in what is remembered give the same results under
any two honest ways of answering (`Scene.Sim`). -/
set_option autoImplicit false

namespace CallAdvice

/-- A source that gives the same selection at each read, while the shared selections stay. -/
def Source.Steady (source : Source) : Prop :=
  ∀ shared k k', source.read shared k = source.read shared k'

/-! ## Likeness -/

/-- `e.Alike f`: the engines differ at most in what they remember and in how often they read their
source, and all reads to come give the same selections. -/
structure Engine.Alike (e f : Engine) : Prop extends e.SameMake f where
  read : ∀ shared k, f.source.read shared (f.reads + k) = e.source.read shared (e.reads + k)

namespace Engine.Alike

theorem refl (e : Engine) : e.Alike e := ⟨.refl e, fun _ _ => rfl⟩

theorem symm {e f : Engine} (h : e.Alike f) : f.Alike e :=
  ⟨⟨h.host.symm, h.registry.symm, h.pins.symm, h.source.symm, h.sink.symm⟩,
    fun shared k => (h.read shared k).symm⟩

theorem trans {e f g : Engine} (h : e.Alike f) (h' : f.Alike g) : e.Alike g :=
  ⟨h.toSameMake.trans h'.toSameMake, fun shared k => (h'.read shared k).trans (h.read shared k)⟩

theorem remember (e : Engine) (c : Capability) (b : Bool) : e.Alike (e.remember c b) :=
  ⟨⟨rfl, rfl, rfl, rfl, rfl⟩, fun _ _ => rfl⟩

/-- Another read on both sides leaves engines alike. -/
theorem nextRead {e f : Engine} (h : e.Alike f) :
    Engine.Alike { e with reads := e.reads + 1 } { f with reads := f.reads + 1 } := by
  refine ⟨⟨h.host, h.registry, h.pins, h.source, h.sink⟩, ?_⟩
  intro shared k
  show f.source.read shared (f.reads + 1 + k) = e.source.read shared (e.reads + 1 + k)
  rw [Nat.add_assoc, Nat.add_assoc]
  exact h.read shared (1 + k)

end Engine.Alike

namespace Scene

/-- `s.Alike t`: the engines are alike, and the hosts react in the same way. -/
structure Alike (s t : Scene) : Prop where
  engine : s.engine.Alike t.engine
  host : t.host.behaviour = s.host.behaviour

theorem Alike.refl (s : Scene) : s.Alike s := ⟨.refl _, rfl⟩

theorem Alike.symm {s t : Scene} (h : s.Alike t) : t.Alike s := ⟨h.engine.symm, h.host.symm⟩

theorem Alike.trans {s t u : Scene} (h : s.Alike t) (h' : t.Alike u) : s.Alike u :=
  ⟨h.engine.trans h'.engine, h'.host.trans h.host⟩

theorem alike_probeAfresh (c : Capability) (s : Scene) : s.Alike (s.probeAfresh c).2 :=
  ⟨.refl _, Host.behaviour_probe s.host c⟩

/-! ## The truth about a host -/

/-- The answer to a question for a capability: as pinned, else as a probe finds. -/
def truth (s : Scene) (c : Capability) : Bool := (s.engine.pins.get c).getD (s.probeAfresh c).1

/-- `s.Truthful`: the host stays the same, and what the engine remembers of it is true. -/
structure Truthful (s : Scene) : Prop where
  stable : s.host.behaviour.Stable
  memory : ∀ c b, s.engine.memory.get c = some b → (s.probeAfresh c).1 = b

theorem Alike.probeAfresh_answer {s t : Scene} (h : s.Alike t) (hs : s.host.behaviour.Stable)
    (c : Capability) : (t.probeAfresh c).1 = (s.probeAfresh c).1 := by
  rw [Scene.probeAfresh_answer, Scene.probeAfresh_answer, Host.probe_verdict_congr h.host hs c]

theorem Alike.truth {s t : Scene} (h : s.Alike t) (hs : s.host.behaviour.Stable)
    (c : Capability) : t.truth c = s.truth c := by
  unfold Scene.truth
  rw [h.engine.pins, h.probeAfresh_answer hs c]

/-- What is true stays true when nothing but the events and the reads changes. -/
theorem Truthful.of_alike {s t : Scene} (hs : s.Truthful) (h : s.Alike t)
    (hmemory : t.engine.memory = s.engine.memory) : t.Truthful where
  stable := by
    rw [h.host]
    exact hs.stable
  memory c b hc := by
    rw [h.probeAfresh_answer hs.stable c]
    rw [hmemory] at hc
    exact hs.memory c b hc

theorem Truthful.known {s : Scene} (h : s.Truthful) {c : Capability} {b : Bool}
    (hk : s.engine.known? c = some b) : s.truth c = b := by
  unfold Engine.known? at hk
  unfold truth
  cases hp : s.engine.pins.get c with
  | some b' =>
    rw [hp] at hk
    exact Option.some.inj hk
  | none =>
    rw [hp] at hk
    exact h.memory c b hk

/-! ## Honest answers -/

/-- A way of answering that gives true answers, and changes only what is remembered. -/
structure Honest (answer : Answering) : Prop where
  truth : ∀ (c : Capability) (s : Scene), s.Truthful → (answer c s).1 = s.truth c
  truthful : ∀ (c : Capability) (s : Scene), s.Truthful → (answer c s).2.Truthful
  alike : ∀ (c : Capability) (s : Scene), s.Alike (answer c s).2

theorem alike_probe (c : Capability) (s : Scene) : s.Alike (s.probe c).2 := by
  cases hk : s.engine.known? c with
  | some b =>
    rw [probe_of_known hk]
    exact ⟨.refl _, rfl⟩
  | none =>
    rw [probe_of_unknown hk]
    exact ⟨.remember _ _ _, Host.behaviour_probe s.host c⟩

/-- To ask the host unless the answer is known, and to remember its answer, is honest. -/
theorem honest_probe : Honest Scene.probe where
  truth c s hs := by
    cases hk : s.engine.known? c with
    | some b =>
      rw [probe_of_known hk]
      exact (hs.known hk).symm
    | none =>
      rw [probe_of_unknown hk]
      unfold truth
      rw [Engine.pins_of_known?_eq_none hk, Option.getD_none]
  truthful c s hs := by
    have halike := alike_probe c s
    refine ⟨halike.host.symm ▸ hs.stable, ?_⟩
    intro d b hd
    rw [halike.probeAfresh_answer hs.stable d]
    cases hk : s.engine.known? c with
    | some b' =>
      rw [probe_of_known hk] at hd
      exact hs.memory d b hd
    | none =>
      rw [probe_of_unknown hk, happen_engine, Engine.remember, Slots.get_set] at hd
      split at hd
      · next hdc =>
        rw [hdc]
        exact Option.some.inj hd
      · exact hs.memory d b hd
  alike := alike_probe

/-- To ask the host every time is honest. -/
theorem honest_probeUnremembered : Honest probeUnremembered where
  truth c s hs := by
    unfold probeUnremembered truth
    cases s.engine.pins.get c <;> rfl
  truthful c s hs := by
    unfold probeUnremembered
    cases s.engine.pins.get c with
    | some b => exact hs.of_alike ⟨.refl _, rfl⟩ rfl
    | none => exact hs.of_alike ⟨.refl _, Host.behaviour_probe s.host c⟩ rfl
  alike c s := by
    unfold probeUnremembered
    cases s.engine.pins.get c with
    | some b => exact ⟨.refl _, rfl⟩
    | none => exact ⟨.refl _, Host.behaviour_probe s.host c⟩

/-! ## The same results -/

/-- `s.Sim t`: the scenes are alike, and what is remembered in either is true. -/
structure Sim (s t : Scene) : Prop where
  alike : s.Alike t
  left : s.Truthful
  right : t.Truthful

/-- The same result, and scenes that are alike afterwards. -/
def Matches {α : Type} (x y : α × Scene) : Prop := x.1 = y.1 ∧ x.2.Sim y.2

theorem Matches.split {α : Type} {x y : α × Scene} (h : Matches x y) :
    ∃ a s t, x = (a, s) ∧ y = (a, t) ∧ s.Sim t :=
  ⟨x.1, x.2, y.2, rfl, Prod.ext h.1.symm rfl, h.2⟩

theorem Sim.happen {s t : Scene} (h : s.Sim t) (events events' : List Engine.Event) :
    (s.happen events).Sim (t.happen events') where
  alike := ⟨h.alike.engine, h.alike.host⟩
  left := h.left.of_alike ⟨.refl _, rfl⟩ rfl
  right := h.right.of_alike ⟨.refl _, rfl⟩ rfl

theorem Sim.probeAfresh {s t : Scene} (h : s.Sim t) (c : Capability) :
    Matches (s.probeAfresh c) (t.probeAfresh c) := by
  refine ⟨(h.alike.probeAfresh_answer h.left.stable c).symm, ?_, ?_, ?_⟩
  · exact (alike_probeAfresh c s).symm.trans (h.alike.trans (alike_probeAfresh c t))
  · exact h.left.of_alike (alike_probeAfresh c s) rfl
  · exact h.right.of_alike (alike_probeAfresh c t) rfl

theorem Sim.gate {s t : Scene} (h : s.Sim t) (shared : List Selection) :
    Matches (s.gate shared) (t.gate shared) := by
  refine ⟨?_, ⟨h.alike.engine.nextRead, h.alike.host⟩, ⟨h.left.stable, h.left.memory⟩,
    ⟨h.right.stable, h.right.memory⟩⟩
  exact congrArg Selection.allows (h.alike.engine.read shared 0).symm

section Honest

variable {answer answer' : Answering} (ha : Honest answer) (ha' : Honest answer')
include ha ha'

theorem Sim.ask {s t : Scene} (h : s.Sim t) (c : Capability) :
    Matches (answer c s) (answer' c t) := by
  refine ⟨?_, ?_, ha.truthful c s h.left, ha'.truthful c t h.right⟩
  · rw [ha.truth c s h.left, ha'.truth c t h.right, h.alike.truth h.left.stable c]
  · exact (ha.alike c s).symm.trans (h.alike.trans (ha'.alike c t))

theorem Sim.run {s t : Scene} (h : s.Sim t) (check : Check) :
    Matches (check.run answer s) (check.run answer' t) := by
  induction check generalizing s t with
  | done result => exact ⟨rfl, h⟩
  | ask c next ih =>
    obtain ⟨hsame, hsim⟩ := h.ask ha ha' c
    rw [Check.run, Check.run, hsame]
    exact ih _ hsim

theorem Sim.check {s t : Scene} (h : s.Sim t) (m : Matcher) (callee : String) (call : Call) :
    Matches (s.checkBy answer m callee call) (t.checkBy answer' m callee call) :=
  (h.happen _ _).run ha ha' (m.check callee call)

theorem Sim.firstMatch {s t : Scene} (h : s.Sim t) (callee : String) (call : Call)
    (ms : List Matcher) :
    Matches (s.firstMatchBy answer callee call ms) (t.firstMatchBy answer' callee call ms) := by
  induction ms generalizing s t with
  | nil => exact ⟨rfl, h⟩
  | cons m ms ih =>
    obtain ⟨d, s', t', hs, ht, hsim⟩ := (h.check ha ha' m callee call).split
    rw [firstMatchBy, firstMatchBy, hs, ht]
    cases d with
    | some d => exact ⟨rfl, hsim⟩
    | none => exact ih hsim

theorem Sim.advise {s t : Scene} (h : s.Sim t) (call : Call) :
    Matches (s.adviseBy answer call) (t.adviseBy answer' call) := by
  unfold adviseBy
  cases call.callee? with
  | none => exact ⟨rfl, h⟩
  | some callee =>
    obtain ⟨d, s', t', hs, ht, hsim⟩ :=
      (h.firstMatch ha ha' callee call (s.engine.registry.lookup callee)).split
    simp only [h.alike.engine.registry, hs, ht]
    cases d with
    | some d => exact ⟨rfl, hsim.happen _ _⟩
    | none => exact ⟨rfl, hsim⟩

theorem Sim.dispatch {s t : Scene} (h : s.Sim t) (shared : List Selection) (call : Call) :
    Matches (s.dispatchBy answer shared call) (t.dispatchBy answer' shared call) := by
  obtain ⟨hsame, hsim⟩ := h.gate shared
  cases hgate : (s.gate shared).1 with
  | false =>
    rw [dispatchBy_of_closed hgate, dispatchBy_of_closed (hsame.symm.trans hgate)]
    exact ⟨rfl, hsim⟩
  | true =>
    rw [dispatchBy_of_open hgate, dispatchBy_of_open (hsame.symm.trans hgate)]
    exact hsim.advise ha ha' call

theorem Sim.observe {s t : Scene} (h : s.Sim t) (shared : List Selection) (call : Call) :
    Matches (s.observeBy answer shared call) (t.observeBy answer' shared call) := by
  obtain ⟨d, s', t', hs, ht, hsim⟩ := (h.dispatch ha ha' shared call).split
  rw [observeBy, observeBy, hs, ht]
  cases d with
  | some d => exact ⟨rfl, hsim.happen _ _⟩
  | none => exact ⟨rfl, hsim⟩

end Honest

/-! ## What work leaves alone -/

/-- `s.Stays t`: the engine keeps its host, and the host the way in which it reacts. -/
def Stays (s t : Scene) : Prop :=
  t.engine.host = s.engine.host ∧ t.host.behaviour = s.host.behaviour

section Work

variable {answer : Answering} (ha : Honest answer)
include ha

theorem Leads.stays {s t : Scene} (h : Leads answer s t) : s.Stays t := by
  induction h with
  | refl => exact ⟨rfl, rfl⟩
  | note events he _ ih => exact ih
  | read shared _ ih => exact ih
  | @ask t c _ ih =>
    have halike := ha.alike c t
    exact ⟨halike.engine.host.trans ih.1, halike.host.trans ih.2⟩

theorem Leads.truthful {s t : Scene} (h : Leads answer s t) (hs : s.Truthful) : t.Truthful := by
  induction h with
  | refl => exact hs
  | note events he _ ih => exact ih.of_alike ⟨.refl _, rfl⟩ rfl
  | read shared _ ih => exact ⟨ih.stable, ih.memory⟩
  | ask c _ ih => exact ha.truthful c _ ih

/-- Work with a source that always gives the same changes only what is remembered. -/
theorem Leads.alike {s t : Scene} (h : Leads answer s t) (hsource : s.engine.source.Steady) :
    s.Alike t := by
  induction h with
  | refl => exact .refl s
  | note events he _ ih => exact ⟨ih.engine, ih.host⟩
  | @read t shared _ ih =>
    have hmake := ih.engine.toSameMake
    refine ⟨⟨⟨hmake.host, hmake.registry, hmake.pins, hmake.source, hmake.sink⟩, ?_⟩, ih.host⟩
    intro shared' k
    show t.engine.source.read shared' (t.engine.reads + 1 + k) = _
    rw [ih.engine.source]
    exact hsource shared' _ _
  | ask c _ ih => exact ih.trans (ha.alike c _)

end Work

end Scene

end CallAdvice
