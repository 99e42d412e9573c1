import CallAdvice.Host.Script
import CallAdvice.Proofs.Engine.Probing
import CallAdvice.Proofs.Session.Knowledge

/-! No scratch context outlives a step. In every run, whatever the hosts do and however many engines
share one, each host is asked exactly what the events tell, block by block: `Session.Accounted` is
kept by every piece of work and so by every step and every run (`Session.accounted_run`). -/
set_option autoImplicit false

namespace CallAdvice.Session

/-! ## What hosts are asked -/

/-- What host `j` is asked among events, in order. -/
def asked (j : Nat) (events : List Event) : List Host.Exchange :=
  events.filterMap fun
    | .atEngine _ k (.hostAsked x) => if k = j then some x else none
    | _ => none

theorem asked_append (j : Nat) (events later : List Event) :
    asked j (events ++ later) = asked j events ++ asked j later :=
  List.filterMap_append

theorem asked_atEngine (i j k : Nat) (events : List Engine.Event) :
    asked j (events.map (.atEngine i k)) = if k = j then Engine.exchanges events else [] := by
  unfold asked Engine.exchanges
  rw [List.filterMap_map]
  by_cases hk : k = j
  · rw [if_pos hk]
    congr 1
    funext e
    cases e <;> simp [hk]
  · rw [if_neg hk]
    refine List.filterMap_eq_nil_iff.mpr ?_
    intro e _
    cases e <;> simp [hk]

/-- `Accounted events s`: each host was asked what the events tell, one block after the other. -/
def Accounted (events : List Event) (s : Session) : Prop :=
  ∀ (j : Nat) (host : Host), s.hosts[j]? = some host →
    host.history = asked j events ∧ Host.Blocks host.history

theorem accounted_restore {events : List Event} {s : Session} {i : Nat} {before after : Scene}
    (h : Accounted events s) (hscene : s.scene? i = some before)
    (hhost : after.engine.host = before.engine.host)
    (hhistory : after.host.history = before.host.history ++ Engine.exchanges after.events)
    (hblocks : Host.Blocks after.host.history) :
    Accounted (events ++ after.events.map (.atEngine i after.engine.host)) (s.restore i after) := by
  intro j host hj
  obtain ⟨-, hbefore, -⟩ := scene?_eq_some.mp hscene
  have hlt := (List.getElem?_eq_some_iff.mp hbefore).1
  rw [hosts_restore, hhost] at hj
  rw [asked_append, asked_atEngine, hhost]
  by_cases hk : before.engine.host = j
  · subst hk
    rw [List.getElem?_set_self hlt] at hj
    obtain rfl := Option.some.inj hj
    have hpast := (h _ _ hbefore).1
    rw [if_pos rfl, hhistory, hpast]
    exact ⟨rfl, by rwa [hhistory, hpast] at hblocks⟩
  · rw [List.getElem?_set_ne hk] at hj
    rw [if_neg hk, List.append_nil]
    exact h j host hj

/-! ## Steps and runs -/

theorem Leads.accounted {past events : List Event} {s t : Session}
    (h : Leads Scene.probe s events t) (hs : Accounted past s) : Accounted (past ++ events) t := by
  induction h with
  | refl => rwa [List.append_nil]
  | @work t events i before after _ hscene hleads ih =>
    obtain ⟨-, hhost, hempty⟩ := scene?_eq_some.mp hscene
    obtain ⟨added, hevents, hhistory⟩ := hleads.exchanges
    rw [hempty, List.nil_append] at hevents
    rw [← hevents] at hhistory
    have hblocks := hleads.blocks (ih _ _ hhost).2
    rw [← List.append_assoc]
    exact accounted_restore ih hscene hleads.later.host hhistory hblocks
  | seen recorder call _ ih =>
    intro j host hj
    rw [← List.append_assoc, asked_append]
    simpa [asked] using ih j host hj
  | other _ _ hh ih =>
    intro j host hj
    rw [hh] at hj
    exact ih j host hj

theorem accounted_step {past : List Event} {s : Session} (h : Accounted past s) (st : Step) :
    Accounted (past ++ (s.stepBy Scene.probe st).2.1) (s.stepBy Scene.probe st).1 := by
  rcases step_leads_or_probeAfresh Scene.probe s st with hleads | ⟨i, c, scene, rfl, hscene⟩
  · exact hleads.accounted h
  · obtain ⟨done, v, hcourse, hprobe⟩ := Scene.probeAfresh_cases c scene
    obtain ⟨-, hhost, hempty⟩ := scene?_eq_some.mp hscene
    rw [step_probeAfresh Scene.probe hscene, hprobe]
    refine accounted_restore h hscene rfl ?_ ((h _ _ hhost).2.append hcourse.block)
    rw [hempty, List.nil_append, Engine.exchanges_probeEvents]

theorem Begins.accounted {s : Session} (h : s.Begins) : Accounted [] s := by
  intro j host hj
  rw [h.history (List.mem_of_getElem? hj)]
  exact ⟨rfl, .nil⟩

theorem accounted_run {s : Session} (h : s.Begins) (steps : List Step) :
    Accounted (happened (s.run steps).2) (s.run steps).1 :=
  run_induction Scene.probe (I := Accounted) (fun _ _ st ht => accounted_step ht st) []
    h.accounted steps

/-- In every run, whatever the hosts do: what a host is asked is a sequence of blocks, each of them
a request for a scratch context that was not granted, or one that was, evaluations in it, and its
release. So after every step each scratch context was given back exactly once, only live ones were
used, and no host ever had two. -/
theorem scratch_given_back {s : Session} (hs : s.Begins) (steps : List Step) {j : Nat} {host : Host}
    (hj : (s.run steps).1.hosts[j]? = some host) :
    asked j (happened (s.run steps).2) = host.history ∧ Host.Blocks host.history ∧
      Host.Tidy host.history := by
  obtain ⟨hasked, hblocks⟩ := accounted_run hs steps j host hj
  exact ⟨hasked.symm, hblocks, hblocks.tidy⟩

/-- Two engines share a host: an evaluation crashes, a scratch context is refused, and after an
error in another one the release crashes. -/
theorem scratch_given_back_shared :
    let script : Host.Script := ⟨[.ok, .error (.noScratch "full"), .ok],
      [("kill-buffer", [.crash]), ("down-list", [.error (.signal "scan-error" "")])], [.crash]⟩
    let s : Session := ⟨[Host.fresh script.behaviour], [], [], [],
      [Engine.new 0 (.fixed .all), Engine.new 0 (.fixed .all)], [], 0⟩
    let steps : List Step := [.dispatch 0 (.named "kill-buffer" [.nil]),
      .probeAfresh 1 .killBuffer, .probe 1 .listMotion]
    s.Begins ∧ ∃ host, (s.run steps).1.hosts[0]? = some host ∧
      host.history.map (·.op) =
        [.acquire, .eval 0 (.named "kill-buffer" []), .release 0 true, .acquire, .acquire,
          .eval 1 (.named "insert" [.str "(())"]),
          .eval 1 (.named "goto-char" [.nullary "point-min"]),
          .eval 1 (.named "down-list" []), .release 1 false] ∧
      Host.Blocks host.history ∧ Host.Tidy host.history := by
  intro script s steps
  have hs : s.Begins := ⟨[script.behaviour], [], 0, 0,
    [⟨0, .direct (.fixed .all) [] .empty, .builtin, .console false⟩,
      ⟨0, .direct (.fixed .all) [] .empty, .builtin, .console false⟩], [], rfl⟩
  have hrun : ((s.run steps).1.hosts[0]?).map (fun host => host.history.map (·.op)) =
      some [.acquire, .eval 0 (.named "kill-buffer" []), .release 0 true, .acquire, .acquire,
        .eval 1 (.named "insert" [.str "(())"]),
        .eval 1 (.named "goto-char" [.nullary "point-min"]),
        .eval 1 (.named "down-list" []), .release 1 false] := by decide
  obtain ⟨host, hhost, hops⟩ := Option.map_eq_some_iff.mp hrun
  exact ⟨hs, host, hhost, hops, (scratch_given_back hs steps hhost).2⟩

end CallAdvice.Session
