import Ppb.Common.SharedStore

/-!
# Pools that remember

A pool in which each operation in progress stands for what it has asked so far; what is left of
it follows from that. So a condition on a step can speak about what the operation has seen.

* `Logged.step`: one step. `Logged.step_answer`: what an answer does.
* `ok_of_follow_snoc`: what `wp` says about the question that was just asked.
-/

namespace Ppb

namespace Prog

variable {Q : Type} {A : Q → Type} {ε α : Type} {ok : History Q A → Event Q A → Prop}
  {h : History Q A} {p : Prog Q A ε α} {C : Q → Prop}

/-- Questions of one kind at the front of a path. -/
theorem Only.wp_extends (hp : p.Only C) (hok : ∀ h' e, Extends C h h' → C e.1 → ok h' e) :
    Prog.wp ok p h fun h' _ => Extends C h h' := by
  suffices hfrom : ∀ h₁, Extends C h h₁ → Prog.wp ok p h₁ fun h' _ => Extends C h h' from
    hfrom h .refl
  induction p with
  | done r => exact fun h₁ hx => hx
  | ask q next ih =>
    intro h₁ hx a
    exact ⟨hok h₁ ⟨q, a⟩ hx hp.1, ih a (hp.2 a) _ (hx.snoc hp.1)⟩

theorem ok_of_follow_snoc [DecidableEq Q] {e : Event Q A} {p' : Prog Q A ε α}
    {R : History Q A → Except ε α → Prop} (hp : wp ok p [] R)
    (hf : p.follow (h ++ [e]) = some p') : ok h e := by
  rw [follow_append] at hf
  obtain ⟨p₁, hf₁, hf₂⟩ := Option.bind_eq_some_iff.mp hf
  exact ok_of_follow (wp_follow hp hf₁) hf₂

/-- Nothing follows the end. -/
theorem Ends.follow_snoc [DecidableEq Q] {e : Event Q A} {r : Except ε α} (hr : p.Ends h r) :
    p.follow (h ++ [e]) = none := by
  rw [Ends, Option.bind_eq_some_iff] at hr
  obtain ⟨p', hf, hr'⟩ := hr
  rw [follow_append, hf]
  cases p' with
  | done r' => rfl
  | ask q next => cases hr'

end Prog

namespace Shared

open Prog Trace

variable {Q : Type} {A : Q → Type} {S Op ε α : Type}

/-- The store and the operations in progress, each with what it has asked. -/
structure Logged (Q : Type) (A : Q → Type) (S Op : Type) where
  store : S
  threads : List (Op × History Q A)

variable [DecidableEq Q] {exec : S → Event Q A → Option S} {program : Op → Prog Q A ε α}

/-- One step of such a pool. -/
def Logged.step (exec : S → Event Q A → Option S) (program : Op → Prog Q A ε α)
    (p : Logged Q A S Op) : Label Q A Op → Option (Logged Q A S Op)
  | .spawn op => some { p with threads := p.threads ++ [(op, [])] }
  | .answer i e => do
    let thread ← p.threads[i]?
    let _ ← (program thread.1).follow (thread.2 ++ [e])
    let store ← exec p.store e
    return { store := store, threads := p.threads.set i (thread.1, thread.2 ++ [e]) }

theorem Logged.step_answer {p p' : Logged Q A S Op} {i : ℕ} {e : Event Q A}
    (h : p.step exec program (.answer i e) = some p') :
    ∃ op past rest, p.threads[i]? = some (op, past) ∧
      (program op).follow (past ++ [e]) = some rest ∧ exec p.store e = some p'.store ∧
      p'.threads = p.threads.set i (op, past ++ [e]) := by
  simp only [Logged.step, Option.bind_eq_bind, Option.bind_eq_some_iff] at h
  obtain ⟨⟨op, past⟩, hi, rest, hrest, store, hstore, heq⟩ := h
  obtain rfl := Option.some.inj heq
  exact ⟨op, past, rest, hi, hrest, hstore, rfl⟩

omit [DecidableEq Q] in
/-- The operation number `j` after the answer to number `i`. -/
theorem Logged.getElem?_set {p p' : Logged Q A S Op} {i : ℕ} {op : Op} {past : History Q A}
    {e : Event Q A} (hi : p.threads[i]? = some (op, past))
    (hset : p'.threads = p.threads.set i (op, past ++ [e])) (j : ℕ) :
    p'.threads[j]? = if j = i then some (op, past ++ [e]) else p.threads[j]? := by
  rw [hset]
  split_ifs with hj
  · rw [hj, List.getElem?_set_self (List.getElem?_eq_some_iff.mp hi).1]
  · rw [List.getElem?_set_ne (Ne.symm hj)]

omit [DecidableEq Q] in
theorem Logged.getElem?_spawn {p : Logged Q A S Op} {op : Op} (j : ℕ) :
    (p.threads ++ [(op, [])])[j]? =
      if j = p.threads.length then some (op, []) else p.threads[j]? := by
  split_ifs with hj
  · rw [hj, List.getElem?_append_right le_rfl, Nat.sub_self]
    rfl
  · rcases lt_or_gt_of_ne hj with hlt | hgt
    · rw [List.getElem?_append_left hlt]
    · rw [List.getElem?_eq_none (by rw [List.length_append, List.length_singleton]; omega),
        List.getElem?_eq_none hgt.le]

end Shared

end Ppb
