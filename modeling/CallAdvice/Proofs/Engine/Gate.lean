import CallAdvice.Proofs.Engine.Probing
import CallAdvice.Proofs.Engine.Refit

/-! The gate of an engine at work. A dispatch reads the warning selection before anything else, and
never again: matchers do not see the number of reads, so they leave it alone, and every read is both
counted and told (`Scene.Reads`). A selection that excludes advice ends the dispatch there; behind
one that lets it through, it does not matter which one it was (`Scene.dispatch_ungated`). -/
set_option autoImplicit false

namespace CallAdvice

/-! ## Selections at the gate -/

/-- The selections that leave out the category of all advice. -/
inductive Selection.Excludes : Selection → Prop where
  | except {categories : NameSet} : "simplify" ∈ categories.names → Excludes (.except categories)
  | only {categories : NameSet} : "simplify" ∉ categories.names → Excludes (.only categories)
  | unrecognized : Excludes .unrecognized

theorem Selection.excludes_iff {s : Selection} : s.Excludes ↔ s.allows = false := by
  constructor
  · intro h
    cases h <;> simp_all [allows, NameSet.contains, category]
  · intro h
    cases s with
    | all => cases h
    | «except» c => exact .except (by simpa [allows, NameSet.contains, category] using h)
    | only c => exact .only (by simpa [allows, NameSet.contains, category] using h)
    | unrecognized => exact .unrecognized

/-- What passes the gate is recognized, so nothing is logged on it. -/
theorem Log.ofSelection_of_allows {s : Selection} (h : s.allows = true) : ofSelection s = [] := by
  cases s with
  | unrecognized => cases h
  | all | «except» | only => rfl

/-! ## Reads of the selection -/

namespace Engine

/-- The numbers of the reads among events, in order. -/
def readings (events : List Event) : List Nat :=
  events.filterMap fun
    | .selectionRead k _ => some k
    | _ => none

theorem readings_append (events later : List Event) :
    readings (events ++ later) = readings events ++ readings later := List.filterMap_append

theorem readings_probeEvents (c : Capability) (done : List Host.Exchange) (v : Verdict) :
    readings (probeEvents c done v) = [] := by
  simp [readings, probeEvents]

theorem readings_notes {events : List Event} (h : ∀ e ∈ events, e.isNote = true) :
    readings events = [] := by
  refine List.filterMap_eq_nil_iff.mpr ?_
  intro e he
  have hnote := h e he
  cases e <;> simp_all [Event.isNote]

/-- The engine with its gate wide open. -/
def ungated (e : Engine) : Engine := { e with source := .fixed .all }

end Engine

namespace Scene
open Engine

/-- `Reads n s t`: from `s` to `t` the selection is read `n` times; each read is told with its
number. -/
def Reads (n : Nat) (s t : Scene) : Prop :=
  t.engine.reads = s.engine.reads + n ∧
    ∃ added, t.events = s.events ++ added ∧ readings added = List.range' s.engine.reads n

theorem Reads.refl (s : Scene) : Reads 0 s s := ⟨rfl, [], (List.append_nil _).symm, rfl⟩

theorem Reads.trans {n k : Nat} {s t u : Scene} (h : Reads n s t) (h' : Reads k t u) :
    Reads (n + k) s u := by
  obtain ⟨hreads, added, hevents, hadded⟩ := h
  obtain ⟨hreads', added', hevents', hadded'⟩ := h'
  refine ⟨by omega, added ++ added', ?_, ?_⟩
  · rw [hevents', hevents, List.append_assoc]
  · rw [readings_append, hadded, hadded', hreads, List.range'_append_1]

theorem reads_probeAfresh (c : Capability) (s : Scene) : Reads 0 s (s.probeAfresh c).2 := by
  obtain ⟨done, v, -, hprobe⟩ := probeAfresh_cases c s
  rw [hprobe]
  exact ⟨rfl, probeEvents c done v, rfl, readings_probeEvents c done v⟩

theorem reads_probe (c : Capability) (s : Scene) : Reads 0 s (s.probe c).2 := by
  rcases probe_cases c s with ⟨b, -, hprobe⟩ | ⟨-, done, v, -, hprobe⟩
  · rw [hprobe]
    exact ⟨rfl, [.answered c b], rfl, rfl⟩
  · rw [hprobe]
    refine ⟨rfl, probeEvents c done v ++ [.answered c v.isPresent], by simp, ?_⟩
    rw [readings_append, readings_probeEvents]
    rfl

theorem reads_readSelection (shared : List Selection) (s : Scene) :
    Reads 1 s (s.readSelection shared).2 :=
  ⟨rfl, [.selectionRead s.engine.reads s.engine.source.announced], rfl, rfl⟩

theorem reads_notes {events : List Event} (h : ∀ e ∈ events, e.isNote = true) (s : Scene) :
    Reads 0 s (s.happen events) :=
  ⟨rfl, events, rfl, readings_notes h⟩

theorem Leads.reads {s t : Scene} (h : Leads Scene.probe s t) : ∃ n, Reads n s t := by
  induction h with
  | refl => exact ⟨0, .refl _⟩
  | note events hnotes _ ih =>
    obtain ⟨n, hn⟩ := ih
    exact ⟨n, hn.trans (reads_notes hnotes _)⟩
  | read shared _ ih =>
    obtain ⟨n, hn⟩ := ih
    exact ⟨n + 1, hn.trans (reads_readSelection shared _)⟩
  | ask c _ ih =>
    obtain ⟨n, hn⟩ := ih
    exact ⟨n, hn.trans (reads_probe c _)⟩

/-- Work in which matchers decide everything reads nothing: it would go the same way with any number
of reads, and keep that number. -/
theorem reads_of_refit {α : Type} {f : Scene → α × Scene} {s : Scene}
    (hleads : Leads Scene.probe s (f s).2)
    (hf : f (s.refit fun e => { e with reads := s.engine.reads }) =
      (f s).map id (refit fun e => { e with reads := s.engine.reads })) : Reads 0 s (f s).2 := by
  obtain ⟨n, hreads, hadded⟩ := hleads.reads
  have hsame : (f s).2.engine.reads = s.engine.reads :=
    congrArg (fun x => x.2.engine.reads) hf
  obtain rfl : n = 0 := by omega
  exact ⟨hreads, hadded⟩

theorem reads_check (m : Matcher) (callee : String) (call : Call) (s : Scene) :
    Reads 0 s (s.check m callee call).2 :=
  reads_of_refit (leads_check probe m callee call s)
    (check_refit (unseen_reads s.engine.reads) m callee call s)

theorem reads_advise (call : Call) (s : Scene) : Reads 0 s (s.adviseBy probe call).2 :=
  reads_of_refit (leads_advise probe call s)
    (advise_refit (unseen_reads s.engine.reads) (fun _ => rfl) call s)

/-! ## Dispatch at the gate -/

/-- What happens at the gate: the selection is read, and an unknown one is logged. -/
def gateEvents (s : Scene) (shared : List Selection) : List Event :=
  .selectionRead s.engine.reads s.engine.source.announced ::
    (Log.ofSelection (s.engine.source.read shared s.engine.reads)).map .logged

theorem gate_eq (s : Scene) (shared : List Selection) :
    s.gate shared = ((s.engine.source.read shared s.engine.reads).allows,
      ⟨{ s.engine with reads := s.engine.reads + 1 }, s.host,
        s.events ++ s.gateEvents shared⟩) := by
  have hevents : s.events ++ s.gateEvents shared = s.events ++
      [.selectionRead s.engine.reads s.engine.source.announced] ++
      (Log.ofSelection (s.engine.source.read shared s.engine.reads)).map .logged := by
    rw [List.append_assoc]
    rfl
  rw [hevents]
  rfl

/-- The gate comes first, whatever the call. -/
theorem dispatch_events (shared : List Selection) (call : Call) (s : Scene) :
    ∃ rest, (s.dispatch shared call).2.events = s.events ++ s.gateEvents shared ++ rest ∧
      readings rest = [] ∧ (s.dispatch shared call).2.engine.reads = s.engine.reads + 1 := by
  have hgate := s.gate_eq shared
  cases hopen : (s.gate shared).1 with
  | false =>
    refine ⟨[], ?_, rfl, ?_⟩
    · rw [dispatch, dispatchBy_of_closed hopen, hgate, List.append_nil]
    · rw [dispatch, dispatchBy_of_closed hopen, hgate]
  | true =>
    obtain ⟨hreads, rest, hevents, hrest⟩ := reads_advise call (s.gate shared).2
    rw [dispatch, dispatchBy_of_open hopen, hevents, hreads, hgate]
    exact ⟨rest, rfl, hrest, rfl⟩

theorem reads_gateEvents (s : Scene) (shared : List Selection) :
    readings (s.gateEvents shared) = [s.engine.reads] := by
  simp [readings, gateEvents]

theorem reads_dispatch (shared : List Selection) (call : Call) (s : Scene) :
    Reads 1 s (s.dispatch shared call).2 := by
  obtain ⟨rest, hevents, hrest, hreads⟩ := dispatch_events shared call s
  refine ⟨hreads, s.gateEvents shared ++ rest, ?_, ?_⟩
  · rw [hevents, List.append_assoc]
  · rw [readings_append, reads_gateEvents, hrest]
    rfl

/-- The report that follows a dispatch. -/
def report (d : Option Diagnostic) (s : Scene) : Scene :=
  s.happen (d.toList.flatMap fun d => [.logged (.emitting d.rule d.message), .warned d.warning])

theorem observe_eq (shared : List Selection) (call : Call) (s : Scene) :
    s.observe shared call = ((s.dispatch shared call).1.map Diagnostic.warning,
      (s.dispatch shared call).2.report (s.dispatch shared call).1) := by
  unfold observe observeBy dispatch
  rcases s.dispatchBy probe shared call with ⟨_ | d, t⟩
  · simp [report, happen]
  · rfl

theorem reads_report (d : Option Diagnostic) (s : Scene) : Reads 0 s (s.report d) := by
  refine reads_notes ?_ s
  cases d <;> simp [Event.isNote]

theorem reads_observe (shared : List Selection) (call : Call) (s : Scene) :
    Reads 1 s (s.observe shared call).2 := by
  rw [observe_eq]
  exact (reads_dispatch shared call s).trans (reads_report _ _)

theorem observe_events (shared : List Selection) (call : Call) (s : Scene) :
    ∃ rest, (s.observe shared call).2.events = s.events ++ s.gateEvents shared ++ rest := by
  obtain ⟨rest, hevents, -, -⟩ := dispatch_events shared call s
  rw [observe_eq, report, happen_events, hevents, List.append_assoc]
  exact ⟨_, rfl⟩

/-! ## Closed and open -/

theorem dispatch_of_excluded {shared : List Selection} {s : Scene}
    (h : (s.engine.source.read shared s.engine.reads).Excludes) (call : Call) :
    s.dispatch shared call = (none, ⟨{ s.engine with reads := s.engine.reads + 1 }, s.host,
      s.events ++ s.gateEvents shared⟩) := by
  have hgate := s.gate_eq shared
  rw [Selection.excludes_iff.mp h] at hgate
  have hclosed : (s.gate shared).1 = false := by rw [hgate]
  rw [dispatch, dispatchBy_of_closed hclosed, hgate]

theorem observe_of_excluded {shared : List Selection} {s : Scene}
    (h : (s.engine.source.read shared s.engine.reads).Excludes) (call : Call) :
    s.observe shared call = (none, ⟨{ s.engine with reads := s.engine.reads + 1 }, s.host,
      s.events ++ s.gateEvents shared⟩) := by
  rw [observe_eq, dispatch_of_excluded h]
  simp [report, happen]

theorem gate_ungated {shared : List Selection} {s : Scene}
    (hquiet : s.engine.source.announced = false)
    (hopen : (s.engine.source.read shared s.engine.reads).allows = true) :
    (s.refit ungated).gate shared = (s.gate shared).map id (refit ungated) := by
  have hevents : (s.refit ungated).gateEvents shared = s.gateEvents shared := by
    rw [gateEvents, gateEvents, Log.ofSelection_of_allows hopen, hquiet]
    rfl
  rw [gate_eq, gate_eq, hevents, hopen]
  rfl

/-- Behind an open gate it does not matter which selection opened it. -/
theorem dispatch_ungated {shared : List Selection} {s : Scene}
    (hquiet : s.engine.source.announced = false)
    (hopen : (s.engine.source.read shared s.engine.reads).allows = true) (call : Call) :
    (s.refit ungated).dispatch shared call = (s.dispatch shared call).map id (refit ungated) := by
  have hgate := gate_ungated hquiet hopen
  have hs : (s.gate shared).1 = true := by rw [gate_eq, hopen]
  have hs' : ((s.refit ungated).gate shared).1 = true := by rw [hgate]; exact hs
  rw [dispatch, dispatch, dispatchBy_of_open hs, dispatchBy_of_open hs', hgate]
  exact advise_refit (unseen_source (.fixed .all)) (fun _ => rfl) call (s.gate shared).2

theorem observe_ungated {shared : List Selection} {s : Scene}
    (hquiet : s.engine.source.announced = false)
    (hopen : (s.engine.source.read shared s.engine.reads).allows = true) (call : Call) :
    (s.refit ungated).observe shared call = (s.observe shared call).map id (refit ungated) := by
  rw [observe_eq, observe_eq, dispatch_ungated hquiet hopen]
  rfl

end Scene

end CallAdvice
