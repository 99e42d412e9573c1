import CallAdvice.Proofs.Session.Work

/-! What engines at work cannot touch: the shared selections, the observer sets and the numbers
given out. A step that lets engines work leaves all of these as they are
(`Session.untouched_step`). -/
set_option autoImplicit false

namespace CallAdvice.Session

/-- `s.Untouched t`: nothing but engines, hosts and sinks differs. -/
structure Untouched (s t : Session) : Prop where
  shared : t.shared = s.shared
  sets : t.sets = s.sets
  handles : t.handles = s.handles
  recorders : t.recorders = s.recorders

theorem Untouched.refl (s : Session) : s.Untouched s := ⟨rfl, rfl, rfl, rfl⟩

theorem Untouched.trans {s t u : Session} (h : s.Untouched t) (h' : t.Untouched u) :
    s.Untouched u :=
  ⟨h'.shared.trans h.shared, h'.sets.trans h.sets, h'.handles.trans h.handles,
    h'.recorders.trans h.recorders⟩

variable (answer : Scene.Answering)

theorem untouched_restore (s : Session) (i : Nat) (scene : Scene) :
    s.Untouched (s.restore i scene) := ⟨rfl, rfl, rfl, rfl⟩

theorem untouched_collect (s : Session) (sink : Sink) (w : Warning) :
    s.Untouched (s.collect sink w) := by
  cases sink <;> exact ⟨rfl, rfl, rfl, rfl⟩

theorem untouched_answer {α : Type} (s : Session) (i : Nat) (f : Scene → α × Scene)
    (reply : α → Reply) : s.Untouched (s.answer i f reply).1 := by
  cases h : s.scene? i with
  | none =>
    rw [answer_of_no_scene h]
    exact .refl s
  | some scene =>
    rw [answer_of_scene? h]
    exact untouched_restore s i _

theorem untouched_observe (s : Session) (i : Nat) (call : Call) :
    s.Untouched (s.observeBy answer i call).1 := by
  unfold observeBy
  cases h : s.scene? i with
  | none =>
    rw [work_of_no_scene h]
    exact .refl s
  | some scene =>
    rw [work_of_scene? h]
    cases hw : (scene.observeBy answer s.shared call).1 with
    | none =>
      simp only [hw]
      exact untouched_restore s i _
    | some w =>
      simp only [hw]
      exact (untouched_restore s i _).trans (untouched_collect _ _ w)

theorem untouched_deliverAll (s : Session) (call : Call) (os : List Observer) :
    s.Untouched (s.deliverAllBy answer call os).1 := by
  induction os generalizing s with
  | nil => exact .refl s
  | cons o os ih =>
    cases o with
    | engine i => exact (untouched_observe answer s i call).trans (ih _)
    | recorder r => exact ih s

/-- Whether a step lets engines work, or just looks at something. -/
def Step.isWork : Step → Bool
  | .setShared .. | .registerEngine .. | .registerRecorder _ | .unregister .. => false
  | _ => true

theorem untouched_step {st : Step} (h : st.isWork = true) (s : Session) :
    s.Untouched (s.stepBy answer st).1 := by
  cases st with
  | dispatch | probe | probeAfresh => exact untouched_answer s _ _ _
  | observe i call => exact untouched_observe answer s i call
  | check i under index callee call =>
    rw [stepBy]
    split
    · exact .refl s
    · exact untouched_answer s i _ _
  | callees | ruleIds | lookup | getShared | warnings | size => exact .refl s
  | take => exact ⟨rfl, rfl, rfl, rfl⟩
  | sameId first second =>
    rw [stepBy]
    split <;> exact .refl s
  | notify set entry =>
    rw [stepBy]
    split
    · exact .refl s
    · exact .refl s
    · next group call _ _ => exact untouched_deliverAll answer s call group.observers
  | setShared | registerEngine | registerRecorder | unregister => cases h

end CallAdvice.Session
