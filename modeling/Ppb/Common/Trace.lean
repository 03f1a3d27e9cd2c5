import Mathlib

/-!
# Runs of a step function

A system is a partial step function `step : σ → ι → Option σ`: in state `s` the
step labelled `l` is either disabled (`none`) or leads to one state. Whatever is
nondeterministic (the scheduler, the network, a failing disk) is in the label.

* `Reaches step ok s₀ s`: some run from `s₀`, all of whose steps meet `ok`,
  leads to `s`. With `ok` always true these are the reachable states.
* `Reaches.invariant`: the induction over a run, done once.
* `Reaches.project`: a system whose steps are steps of another, or nothing there, reaches what
  the other reaches.
* `Follows`: a run with its labels; `Follows.gain` adds up what its steps gain.
* `runFrom`: the state after a concrete list of labels, for evaluating one run.
-/

namespace Ppb.Trace

variable {σ ι : Type*}

/-- `s` is the last state of a run from `s₀` in which every step is taken in a
    state and under a label that meet `ok`. -/
inductive Reaches (step : σ → ι → Option σ) (ok : σ → ι → Prop) (s₀ : σ) : σ → Prop
  | start : Reaches step ok s₀ s₀
  | next {s s' : σ} {l : ι} : Reaches step ok s₀ s → ok s l → step s l = some s' →
      Reaches step ok s₀ s'

/-- Every state some run from `s₀` leads to. -/
abbrev Reachable (step : σ → ι → Option σ) (s₀ : σ) : σ → Prop :=
  Reaches step (fun _ _ => True) s₀

variable {step : σ → ι → Option σ} {ok ok' : σ → ι → Prop} {s₀ s : σ}

/-- What holds at the start and is kept by every step that meets `ok` holds in
    every state such a run reaches. -/
theorem Reaches.invariant {I : σ → Prop} (h : Reaches step ok s₀ s) (h0 : I s₀)
    (hstep : ∀ s l s', I s → ok s l → step s l = some s' → I s') : I s := by
  induction h with
  | start => exact h0
  | next _ hok hs ih => exact hstep _ _ _ ih hok hs

theorem Reaches.mono (h : Reaches step ok s₀ s) (hok : ∀ s l, ok s l → ok' s l) :
    Reaches step ok' s₀ s := by
  induction h with
  | start => exact .start
  | next _ h1 h2 ih => exact .next ih (hok _ _ h1) h2

theorem Reaches.trans {s' : σ} (h : Reaches step ok s₀ s) (h' : Reaches step ok s s') :
    Reaches step ok s₀ s' := by
  induction h' with
  | start => exact h
  | next _ h1 h2 ih => exact .next ih h1 h2

/-- Where `f` sees of every step a step of the other system, or nothing at all, it sees of every run
    a run of that system. -/
theorem Reaches.project {τ κ : Type*} {step' : τ → κ → Option τ} {okay : τ → κ → Prop}
    (f : σ → τ) (h : Reaches step ok s₀ s)
    (hstep : ∀ s l s', Reaches step ok s₀ s → ok s l → step s l = some s' →
      f s' = f s ∨ ∃ l', okay (f s) l' ∧ step' (f s) l' = some (f s')) :
    Reaches step' okay (f s₀) (f s) := by
  induction h with
  | start => exact .start
  | next hs hok hl ih =>
    rcases hstep _ _ _ hs hok hl with heq | ⟨l', hok', hl'⟩
    · exact heq ▸ ih
    · exact ih.next hok' hl'

/-- The steps `ls`, all of which meet `ok`, lead from `s` to `s'`. -/
inductive Follows (step : σ → ι → Option σ) (ok : σ → ι → Prop) : σ → List ι → σ → Prop
  | nil {s : σ} : Follows step ok s [] s
  | cons {s s₁ s' : σ} {l : ι} {ls : List ι} : ok s l → step s l = some s₁ →
      Follows step ok s₁ ls s' → Follows step ok s (l :: ls) s'

/-- If every step gains what it counts for, a sequence of steps gains the sum. -/
theorem Follows.gain {s' : σ} {ls : List ι} {g : σ → ℕ} {counts : ι → Bool}
    (h : Follows step ok s ls s') (hs : Reaches step ok s₀ s)
    (hgain : ∀ s l s', Reaches step ok s₀ s → ok s l → step s l = some s' →
      g s + (if counts l then 1 else 0) ≤ g s') : g s + ls.countP counts ≤ g s' := by
  induction h with
  | nil => simp
  | cons hok hstep _ ih =>
    have h1 := hgain _ _ _ hs hok hstep
    have h2 := ih (hs.next hok hstep)
    rw [List.countP_cons]
    split_ifs at h1 ⊢ <;> omega

theorem Follows.reaches {s' : σ} {ls : List ι} (h : Follows step ok s ls s')
    (hs : Reaches step ok s₀ s) : Reaches step ok s₀ s' := by
  induction h with
  | nil => exact hs
  | cons hok hstep _ ih => exact ih (hs.next hok hstep)

/-- The state after the labels `ls` in order; `none` if one of them is disabled. -/
def runFrom (step : σ → ι → Option σ) : σ → List ι → Option σ
  | s, [] => some s
  | s, l :: ls => (step s l).bind fun s' => runFrom step s' ls

theorem runFrom_append (ls ls' : List ι) :
    runFrom step s₀ (ls ++ ls') = (runFrom step s₀ ls).bind fun s => runFrom step s ls' := by
  induction ls generalizing s₀ with
  | nil => rfl
  | cons l ls ih =>
    rw [List.cons_append, runFrom, runFrom, Option.bind_assoc]
    congr 1
    funext s
    exact ih

/-- `runFrom` where every step must also pass the test `ok`. -/
def runWhile (step : σ → ι → Option σ) (ok : σ → ι → Bool) : σ → List ι → Option σ
  | s, [] => some s
  | s, l :: ls => if ok s l then (step s l).bind fun s' => runWhile step ok s' ls else none

theorem reaches_of_runWhile {test : σ → ι → Bool} (htest : ∀ s l, test s l = true → ok s l)
    {ls : List ι} : ∀ {s₀ : σ}, runWhile step test s₀ ls = some s → Reaches step ok s₀ s := by
  induction ls with
  | nil => rintro s₀ ⟨⟩; exact .start
  | cons l ls ih =>
    intro s₀ h
    rw [runWhile] at h
    split_ifs at h with hl
    obtain ⟨s₁, h1, h2⟩ := Option.bind_eq_some_iff.mp h
    exact (Reaches.next .start (htest _ _ hl) h1).trans (ih h2)

theorem reachable_of_runFrom {ls : List ι} :
    ∀ {s₀ : σ}, runFrom step s₀ ls = some s → Reachable step s₀ s := by
  induction ls with
  | nil => rintro s₀ ⟨⟩; exact .start
  | cons l ls ih =>
    intro s₀ h
    obtain ⟨s₁, h1, h2⟩ := Option.bind_eq_some_iff.mp h
    exact (Reaches.next .start trivial h1).trans (ih h2)

/-- A run that can be computed, and whose last state passes the test `p`. -/
theorem exists_reaches_of_runWhile {test : σ → ι → Bool} (htest : ∀ s l, test s l = true → ok s l)
    {ls : List ι} {p : σ → Bool} (h : (runWhile step test s₀ ls).any p = true) :
    ∃ s, Reaches step ok s₀ s ∧ p s = true := by
  obtain ⟨s, hs, hp⟩ := (Option.any_eq_true _ _).mp h
  exact ⟨s, reaches_of_runWhile htest hs, hp⟩

theorem exists_reachable_of_runFrom {ls : List ι} {p : σ → Bool}
    (h : (runFrom step s₀ ls).any p = true) : ∃ s, Reachable step s₀ s ∧ p s = true := by
  obtain ⟨s, hs, hp⟩ := (Option.any_eq_true _ _).mp h
  exact ⟨s, reachable_of_runFrom hs, hp⟩

end Ppb.Trace
