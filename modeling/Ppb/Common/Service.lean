import Ppb.Common.SharedStore

/-!
# A background task beside a pool

A service is a store, one task that handles its inputs one after the other (`body x` is
what it does for the input `x`), and any number of programs that run beside it.

The task and the pool rely on each other in different ways: nobody but the task is in its
place, so it may rely on more than a program of the pool can. `Service.safe` is the
induction over a run: `R₁`, `G₁` are for the task, `R₂`, `G₂` for the pool.
-/

namespace Ppb.Shared

open Prog Trace

variable {Q : Type} {A : Q → Type} {S Op X ε α : Type}

structure Service (Q : Type) (A : Q → Type) (S Op ε α : Type) where
  store : S
  /-- what is left of the task's current turn; it waits if this is done -/
  task : Prog Q A ε Unit
  threads : List (Op × Prog Q A ε α)

/-- A step: an input for the task, the answer to its question, or a step of the pool. -/
inductive Service.Label (Q : Type) (A : Q → Type) (Op X : Type) where
  | input (x : X)
  | task (e : Event Q A)
  | spawn (op : Op)
  | answer (i : ℕ) (e : Event Q A)

variable [DecidableEq Q] {exec : S → Event Q A → Option S} {body : X → Prog Q A ε Unit}
  {program : Op → Prog Q A ε α} {E : S → Event Q A → Prop}

/-- One step of a service. -/
def Service.step (exec : S → Event Q A → Option S) (body : X → Prog Q A ε Unit)
    (program : Op → Prog Q A ε α) (p : Service Q A S Op ε α) :
    Service.Label Q A Op X → Option (Service Q A S Op ε α)
  | .input x => if p.task.result.isSome then some { p with task := body x } else none
  | .task e => do
    let rest ← p.task.follow [e]
    let store ← exec p.store e
    return { p with store := store, task := rest }
  | .spawn op => some { p with threads := p.threads ++ [(op, program op)] }
  | .answer i e => do
    let thread ← p.threads[i]?
    let rest ← thread.2.follow [e]
    let store ← exec p.store e
    return { p with store := store, threads := p.threads.set i (thread.1, rest) }

/-- A condition on the events of the task. -/
def Service.Ok (E : S → Event Q A → Prop) (p : Service Q A S Op ε α) :
    Service.Label Q A Op X → Prop
  | .task e => E p.store e
  | .input _ | .spawn _ | .answer _ _ => True

instance Service.Ok.instDecidable [∀ s e, Decidable (E s e)] (p : Service Q A S Op ε α) :
    ∀ l : Service.Label Q A Op X, Decidable (p.Ok E l)
  | .task e => inferInstanceAs (Decidable (E p.store e))
  | .input _ | .spawn _ | .answer _ _ => .isTrue trivial

theorem Service.step_task {p p' : Service Q A S Op ε α} {e : Event Q A}
    (h : p.step (X := X) exec body program (.task e) = some p') :
    ∃ rest, p.task.follow [e] = some rest ∧ exec p.store e = some p'.store ∧ p'.task = rest ∧
      p'.threads = p.threads := by
  simp only [Service.step, Option.bind_eq_bind, Option.bind_eq_some_iff] at h
  obtain ⟨rest, hrest, store, hstore, heq⟩ := h
  obtain rfl := Option.some.inj heq
  exact ⟨rest, hrest, hstore, rfl, rfl⟩

theorem Service.step_answer {p p' : Service Q A S Op ε α} {i : ℕ} {e : Event Q A}
    (h : p.step (X := X) exec body program (.answer i e) = some p') :
    ∃ op rest rest', p.threads[i]? = some (op, rest) ∧ rest.follow [e] = some rest' ∧
      exec p.store e = some p'.store ∧ p'.threads = p.threads.set i (op, rest') ∧
      p'.task = p.task := by
  simp only [Service.step, Option.bind_eq_bind, Option.bind_eq_some_iff] at h
  obtain ⟨⟨op, rest⟩, hi, rest', hrest, store, hstore, heq⟩ := h
  obtain rfl := Option.some.inj heq
  exact ⟨op, rest, rest', hi, hrest, hstore, rfl, rfl⟩

section Safe

variable {I : S → Prop} {R₁ G₁ R₂ G₂ : S → S → Prop}

/-- The invariant holds and what is in progress is safe. -/
structure Service.Safely (exec : S → Event Q A → Option S) (E : S → Event Q A → Prop) (I : S → Prop)
    (R₁ G₁ R₂ G₂ : S → S → Prop) (p : Service Q A S Op ε α) : Prop where
  inv : I p.store
  task : Safe (fun s e s' => exec s e = some s' ∧ E s e) I R₁ G₁ p.task p.store fun _ _ => True
  threads : ∀ t ∈ p.threads,
    Safe (fun s e s' => exec s e = some s' ∧ True) I R₂ G₂ t.2 p.store fun _ _ => True

/-- What a step does to the store: nothing, or what the task or the pool may do. -/
theorem Service.Safely.guarantee (h₁ : ∀ s, R₁ s s) (h₂ : ∀ s, R₂ s s) {p p' : Service Q A S Op ε α}
    (hp : p.Safely exec E I R₁ G₁ R₂ G₂) {l : Service.Label Q A Op X} (hok : p.Ok E l)
    (hstep : p.step exec body program l = some p') :
    p'.store = p.store ∨ G₁ p.store p'.store ∨ G₂ p.store p'.store := by
  cases l with
  | input x =>
    simp only [Service.step] at hstep
    split_ifs at hstep
    exact .inl (by rw [← Option.some.inj hstep])
  | spawn op => exact .inl (by rw [← Option.some.inj hstep])
  | task e =>
    obtain ⟨rest, hfollow, hexec, -, -⟩ := Service.step_task hstep
    exact .inr (.inl (hp.task.follow (h₁ _) hp.inv hfollow ⟨hexec, hok⟩).1.2)
  | answer i e =>
    obtain ⟨op, rest, rest', hi, hfollow, hexec, -, -⟩ := Service.step_answer hstep
    have hthread := hp.threads _ (List.mem_of_getElem? hi)
    exact .inr (.inr (hthread.follow (h₂ _) hp.inv hfollow ⟨hexec, trivial⟩).1.2)

/-- The induction over a run, done once. -/
theorem Service.safe (hrefl₁ : ∀ s, R₁ s s) (htrans₁ : ∀ {a b c}, R₁ a b → R₁ b c → R₁ a c)
    (hrefl₂ : ∀ s, R₂ s s) (htrans₂ : ∀ {a b c}, R₂ a b → R₂ b c → R₂ a c)
    (htask : ∀ {a b}, G₁ a b → R₂ a b) (hpool : ∀ {a b}, G₂ a b → R₁ a b ∧ R₂ a b)
    (hbody : ∀ s x, I s → Safe (fun s e s' => exec s e = some s' ∧ E s e) I R₁ G₁ (body x) s
      fun _ _ => True)
    (hspawn : ∀ s op, I s → Safe (fun s e s' => exec s e = some s' ∧ True) I R₂ G₂ (program op) s
      fun _ _ => True)
    {p₀ p : Service Q A S Op ε α} (hstart : p₀.Safely exec E I R₁ G₁ R₂ G₂)
    (hrun : Reaches (Service.step exec body program) (Service.Ok E) p₀ p) :
    p.Safely exec E I R₁ G₁ R₂ G₂ := by
  refine hrun.invariant hstart fun p l p' hp hok hstep => ?_
  cases l with
  | input x =>
    simp only [Service.step] at hstep
    split_ifs at hstep
    obtain rfl := Option.some.inj hstep
    exact ⟨hp.inv, hbody _ x hp.inv, hp.threads⟩
  | spawn op =>
    obtain rfl := Option.some.inj hstep
    refine ⟨hp.inv, hp.task, fun t ht => ?_⟩
    rcases List.mem_append.mp ht with ht | ht
    · exact hp.threads t ht
    · rw [List.mem_singleton.mp ht]
      exact hspawn _ op hp.inv
  | task e =>
    obtain ⟨rest, hfollow, hexec, hrest, hthreads⟩ := Service.step_task hstep
    obtain ⟨⟨hI, hG⟩, hsafe⟩ := hp.task.follow (hrefl₁ _) hp.inv hfollow ⟨hexec, hok⟩
    refine ⟨hI, hrest ▸ hsafe, fun t ht => ?_⟩
    exact safe_stable htrans₂ (hp.threads t (hthreads ▸ ht)) (htask hG)
  | answer i e =>
    obtain ⟨op, rest, rest', hi, hfollow, hexec, hset, htask'⟩ := Service.step_answer hstep
    have hthread := hp.threads _ (List.mem_of_getElem? hi)
    obtain ⟨⟨hI, hG⟩, hsafe⟩ := hthread.follow (hrefl₂ _) hp.inv hfollow ⟨hexec, trivial⟩
    refine ⟨hI, htask' ▸ safe_stable htrans₁ hp.task (hpool hG).1, fun t ht => ?_⟩
    rw [hset] at ht
    rcases List.mem_or_eq_of_mem_set ht with ht | rfl
    · exact safe_stable htrans₂ (hp.threads t ht) (hpool hG).2
    · exact hsafe

end Safe

end Ppb.Shared
