import Mathlib.Data.List.Induction
import CallAdvice.Proofs.Host.Probe

/-! Scratch contexts are given back. A probe is a block of exchanges that belong together: a request
for a scratch context that was not granted, or one that was, then evaluations in it, then its
release (`Host.Probed.block`). Where the history of a host is made of such blocks, no scratch
context is left over, none is used before it is granted or after it is given back, and at no time
are there two of them (`Host.Blocks.tidy`). -/
set_option autoImplicit false

namespace CallAdvice.Host

/-! ## Blocks -/

/-- The number of scratch contexts granted in some exchanges. -/
def grantedIn (history : List Exchange) : Nat := history.countP (· == ⟨.acquire, .ok⟩)

/-- `Block scratch xs`: the exchanges `xs` are one use of the scratch context `scratch` from its
grant to its release, or a request for it that was not granted. -/
inductive Block (scratch : Nat) : List Exchange → Prop where
  | refused {outcome : Outcome} (h : outcome ≠ .ok) : Block scratch [⟨.acquire, outcome⟩]
  | used {evals : List Exchange} {unwinding : Bool} {outcome : Outcome} (hne : evals ≠ [])
    (hevals : ∀ x ∈ evals, ∃ call, x.op = .eval scratch call) :
    Block scratch (⟨.acquire, .ok⟩ :: (evals ++ [⟨.release scratch unwinding, outcome⟩]))

/-- `Blocks history`: the history is one block after the other, and scratch contexts are numbered in
the order in which they are granted. -/
inductive Blocks : List Exchange → Prop where
  | nil : Blocks []
  | append {history block : List Exchange} : Blocks history → Block (grantedIn history) block →
    Blocks (history ++ block)

theorem Evaluated.ne_nil {scratch : Nat} {calls : List Call} {done : List Exchange} {v : Verdict}
    (h : Evaluated scratch calls done v) (hne : calls ≠ []) : done ≠ [] := by
  cases h with
  | all => exact absurd rfl hne
  | ok => simp
  | error => simp
  | crash => simp

theorem forms_ne_nil (c : Capability) : c.forms ≠ [] := by
  cases c <;> simp [Capability.forms]

theorem Probed.block {c : Capability} {scratch : Nat} {done : List Exchange} {v : Verdict}
    (h : Probed c scratch done v) : Block scratch done := by
  cases h with
  | refused e => exact .refused (by simp)
  | broken => exact .refused (by simp)
  | unwound hdone => exact .used (hdone.ne_nil (forms_ne_nil c)) hdone.op_eq
  | stuck hdone hv => exact .used (hdone.ne_nil (forms_ne_nil c)) hdone.op_eq
  | settled hdone hv houtcome => exact .used (hdone.ne_nil (forms_ne_nil c)) hdone.op_eq

/-! ## Scratch contexts over time -/

/-- The scratch context that a request names. -/
def Op.scratch? : Op → Option Nat
  | .acquire => none
  | .eval scratch _ | .release scratch _ => some scratch

/-- Whether a request is the release of a scratch context. -/
def Op.givesBack (scratch : Nat) : Op → Bool
  | .release n _ => n == scratch
  | _ => false

/-- How often a scratch context was given back in some exchanges. -/
def releasesOf (scratch : Nat) (history : List Exchange) : Nat :=
  history.countP (·.op.givesBack scratch)

/-- `Live history scratch`: after the history, the scratch context is granted and not given back. -/
def Live (history : List Exchange) (scratch : Nat) : Prop :=
  scratch < grantedIn history ∧ releasesOf scratch history = 0

/-- `Tidy history`: scratch contexts are used while they are live, one at a time, and given back. -/
structure Tidy (history : List Exchange) : Prop where
  /-- Each scratch context that was granted was given back exactly once. -/
  given_back : ∀ n, n < grantedIn history → releasesOf n history = 1
  /-- An evaluation or a release names a scratch context that is live at that time. -/
  names_live : ∀ before x, before ++ [x] <+: history → ∀ n, x.op.scratch? = some n →
    Live before n
  /-- At no time are there two live scratch contexts. -/
  one_live : ∀ before, before <+: history → ∀ m n, Live before m → Live before n → m = n

/-- `InUse p history`: exchange by exchange, the history keeps to one scratch context at a time, and
`p` is the one in use at its end, if any. -/
inductive InUse : Option Nat → List Exchange → Prop where
  | start : InUse none []
  | refused {history : List Exchange} {outcome : Outcome} : InUse none history → outcome ≠ .ok →
    InUse none (history ++ [⟨.acquire, outcome⟩])
  | granted {history : List Exchange} : InUse none history →
    InUse (some (grantedIn history)) (history ++ [⟨.acquire, .ok⟩])
  | evaluated {history : List Exchange} {scratch : Nat} (call : Call) (outcome : Outcome) :
    InUse (some scratch) history →
    InUse (some scratch) (history ++ [⟨.eval scratch call, outcome⟩])
  | released {history : List Exchange} {scratch : Nat} (unwinding : Bool) (outcome : Outcome) :
    InUse (some scratch) history →
    InUse none (history ++ [⟨.release scratch unwinding, outcome⟩])

theorem InUse.evals {history evals : List Exchange} {scratch : Nat}
    (h : InUse (some scratch) history) (hevals : ∀ x ∈ evals, ∃ call, x.op = .eval scratch call) :
    InUse (some scratch) (history ++ evals) := by
  induction evals generalizing history with
  | nil => rwa [List.append_nil]
  | cons x evals ih =>
    obtain ⟨⟨call, hop⟩, hrest⟩ := List.forall_mem_cons.mp hevals
    obtain ⟨op, outcome⟩ := x
    obtain rfl : op = .eval scratch call := hop
    have hnext := ih (h.evaluated call outcome) hrest
    rwa [List.append_assoc] at hnext

theorem InUse.block {history block : List Exchange} (h : InUse none history)
    (hblock : Block (grantedIn history) block) : InUse none (history ++ block) := by
  cases hblock with
  | refused houtcome => exact .refused h houtcome
  | @used evals unwinding outcome hne hevals =>
    have huse := (h.granted.evals hevals).released unwinding outcome
    simpa using huse

theorem Blocks.inUse {history : List Exchange} (h : Blocks history) : InUse none history := by
  induction h with
  | nil => exact .start
  | append _ hblock ih => exact ih.block hblock

theorem grantedIn_concat (history : List Exchange) (x : Exchange) :
    grantedIn (history ++ [x]) = grantedIn history + if x = ⟨.acquire, .ok⟩ then 1 else 0 := by
  simp [grantedIn, List.countP_cons]

theorem releasesOf_concat (n : Nat) (history : List Exchange) (x : Exchange) :
    releasesOf n (history ++ [x]) = releasesOf n history + if x.op.givesBack n then 1 else 0 := by
  simp [releasesOf, List.countP_cons]

/-- Of the scratch contexts granted, the one in use is not given back, and each other one was given
back once. -/
theorem InUse.releases {p : Option Nat} {history : List Exchange} (h : InUse p history) :
    (∀ n, p = some n → n < grantedIn history) ∧
      ∀ n, releasesOf n history = if n < grantedIn history ∧ p ≠ some n then 1 else 0 := by
  -- A grant brings in the next number, and only the release of the one in use adds to a count.
  induction h with
  | start => simp [releasesOf, grantedIn]
  | refused _ houtcome ih =>
    simp only [grantedIn_concat, releasesOf_concat, Op.givesBack]
    grind
  | granted _ ih =>
    simp only [grantedIn_concat, releasesOf_concat, Op.givesBack]
    grind
  | evaluated call outcome _ ih =>
    simp only [grantedIn_concat, releasesOf_concat, Op.givesBack]
    grind
  | released unwinding outcome _ ih =>
    simp only [grantedIn_concat, releasesOf_concat, Op.givesBack]
    grind

theorem InUse.live_iff {p : Option Nat} {history : List Exchange} (h : InUse p history) {n : Nat} :
    Live history n ↔ p = some n := by
  obtain ⟨hlt, hreleases⟩ := h.releases
  unfold Live
  rw [hreleases]
  grind

theorem InUse.of_concat {p : Option Nat} {history : List Exchange} {x : Exchange}
    (h : InUse p (history ++ [x])) :
    ∃ q, InUse q history ∧ ∀ n, x.op.scratch? = some n → q = some n := by
  generalize hlast : history ++ [x] = whole at h
  cases h with
  | start => simp at hlast
  | refused hbefore _ =>
    obtain ⟨rfl, rfl⟩ := List.append_singleton_inj.mp hlast
    exact ⟨_, hbefore, by simp [Op.scratch?]⟩
  | granted hbefore =>
    obtain ⟨rfl, rfl⟩ := List.append_singleton_inj.mp hlast
    exact ⟨_, hbefore, by simp [Op.scratch?]⟩
  | evaluated call outcome hbefore =>
    obtain ⟨rfl, rfl⟩ := List.append_singleton_inj.mp hlast
    exact ⟨_, hbefore, by simp [Op.scratch?]⟩
  | released unwinding outcome hbefore =>
    obtain ⟨rfl, rfl⟩ := List.append_singleton_inj.mp hlast
    exact ⟨_, hbefore, by simp [Op.scratch?]⟩

theorem InUse.of_prefix {p : Option Nat} {history before : List Exchange} (h : InUse p history)
    (hbefore : before <+: history) : ∃ q, InUse q before := by
  induction history using List.reverseRecOn generalizing p with
  | nil => exact ⟨p, by rwa [List.prefix_nil.mp hbefore]⟩
  | append_singleton history x ih =>
    rcases List.prefix_concat_iff.mp hbefore with rfl | hbefore
    · exact ⟨p, h⟩
    · obtain ⟨q, hq, -⟩ := h.of_concat
      exact ih hq hbefore

theorem Blocks.tidy {history : List Exchange} (h : Blocks history) : Tidy history where
  given_back := by
    intro n hn
    rw [h.inUse.releases.2]
    simp [hn]
  names_live := by
    intro before x hbefore n hn
    obtain ⟨p, hp⟩ := h.inUse.of_prefix hbefore
    obtain ⟨q, hq, hscratch⟩ := hp.of_concat
    exact hq.live_iff.mpr (hscratch n hn)
  one_live := by
    intro before hbefore m n hm hn
    obtain ⟨p, hp⟩ := h.inUse.of_prefix hbefore
    have hpm := hp.live_iff.mp hm
    have hpn := hp.live_iff.mp hn
    rw [hpm] at hpn
    exact Option.some.inj hpn

end CallAdvice.Host
