import Ppb.Common.Trace

/-!
# Bounded queues with one lazily spawned worker for each key

Tasks are submitted under a key. A submit looks the key up in a map, spawns a
worker with an empty bounded queue if there is none, and then offers its task
to the queue of the worker it found; a full queue, or the queue of a worker
that died, refuses it. A worker takes one task at a time.

The map lookup and the offer are two steps, so that submits race with each
other. Workers live in one global list: nothing in a state says that a key has
only one of them. The log records what happened.

Results:
* `view_step_of_eq`, `view_step_of_ne`, `view_run`: what concerns a key is what a
  run of this key's steps alone would make of it.
* `Lane.step`: one worker for each key, serving its accepted tasks in order.
* `serialFifo_of_reachable`: what this means for the log.
-/

namespace Ppb.KeyedQueue

open Ppb.Trace

/-! ## States -/

/-- A submitted task. `id` tells the submits of one key apart. -/
structure Item (τ : Type) where
  id : ℕ
  task : τ
  deriving DecidableEq

/-- What a worker is doing. -/
inductive Phase (τ : Type) where
  | idle
  | busy (item : Item τ)
  | dead
  deriving DecidableEq

/-- A worker, named by the submit that spawned it. -/
structure Worker (κ τ : Type) where
  name : ℕ
  key : κ
  queue : List (Item τ)
  phase : Phase τ
  deriving DecidableEq

/-- A submit that has found its worker and not yet offered its task. -/
structure Pending (τ : Type) where
  item : Item τ
  worker : ℕ
  deriving DecidableEq

inductive EventKind where
  | accepted | rejected | started | finished
  deriving DecidableEq

structure Event (τ : Type) where
  kind : EventKind
  item : Item τ
  deriving DecidableEq

@[ext]
structure State (κ τ : Type) where
  workers : List (Worker κ τ)
  entry : κ → Option ℕ
  pending : List (Pending τ)
  log : List (Event τ)

inductive Label (κ τ : Type) where
  /-- submit `id` looks its key up, and spawns a worker if there is none -/
  | enter (id : ℕ) (task : τ)
  /-- submit `id` offers its task -/
  | send (key : κ) (id : ℕ)
  /-- a worker takes the next task -/
  | recv (key : κ) (worker : ℕ)
  /-- the execution of a worker's task returns -/
  | finish (key : κ) (worker : ℕ)
  /-- the execution of a worker's task panics -/
  | crash (key : κ) (worker : ℕ)
  deriving DecidableEq

variable {κ τ : Type} [DecidableEq κ] (key : τ → κ) (cap : ℕ)

/-- The key a step is about. -/
def Label.keyOf : Label κ τ → κ
  | .enter _ task => key task
  | .send k _ | .recv k _ | .finish k _ | .crash k _ => k

namespace State

/-- Nothing submitted. -/
def init : State κ τ := { workers := [], entry := fun _ => none, pending := [], log := [] }

def findWorker (s : State κ τ) (k : κ) (w : ℕ) : Option (Worker κ τ) :=
  s.workers.find? fun W => decide (W.key = k ∧ W.name = w)

def setWorker (s : State κ τ) (W' : Worker κ τ) : List (Worker κ τ) :=
  s.workers.map fun W => if W.key = W'.key ∧ W.name = W'.name then W' else W

def findPending (s : State κ τ) (k : κ) (id : ℕ) : Option (Pending τ) :=
  s.pending.find? fun p => decide (key p.item.task = k ∧ p.item.id = id)

def dropPending (s : State κ τ) (k : κ) (id : ℕ) : List (Pending τ) :=
  s.pending.filter fun p => decide ¬ (key p.item.task = k ∧ p.item.id = id)

/-- The submit `id` of the key `k` has not been seen. -/
def Fresh (s : State κ τ) (k : κ) (id : ℕ) : Prop :=
  (∀ p ∈ s.pending, key p.item.task = k → p.item.id ≠ id) ∧
    ∀ e ∈ s.log, key e.item.task = k → e.item.id ≠ id

instance (s : State κ τ) (k : κ) (id : ℕ) : Decidable (s.Fresh key k id) :=
  inferInstanceAs (Decidable (_ ∧ _))

end State

/-- A task is refused if its worker died or has `cap` tasks waiting. -/
def Worker.refuses (W : Worker κ τ) : Bool :=
  match W.phase with
  | .dead => true
  | _ => decide (cap ≤ W.queue.length)

/-! ## Steps -/

/-- The map lookup of a submit. -/
def enterStep (s : State κ τ) (id : ℕ) (task : τ) : Option (State κ τ) :=
  if s.Fresh key (key task) id then
    match s.entry (key task) with
    | some w => some { s with pending := s.pending ++ [⟨⟨id, task⟩, w⟩] }
    | none =>
      some { s with
        workers := s.workers ++ [⟨id, key task, [], .idle⟩]
        entry := Function.update s.entry (key task) (some id)
        pending := s.pending ++ [⟨⟨id, task⟩, id⟩] }
  else none

/-- The offer of a submit. -/
def sendStep (s : State κ τ) (k : κ) (id : ℕ) : Option (State κ τ) :=
  match s.findPending key k id with
  | none => none
  | some p =>
    match s.findWorker k p.worker with
    | none => none
    | some W =>
      if W.refuses cap then
        some { s with pending := s.dropPending key k id, log := s.log ++ [⟨.rejected, p.item⟩] }
      else
        some { s with
          workers := s.setWorker { W with queue := W.queue ++ [p.item] }
          pending := s.dropPending key k id
          log := s.log ++ [⟨.accepted, p.item⟩] }

def recvStep (s : State κ τ) (k : κ) (w : ℕ) : Option (State κ τ) :=
  match s.findWorker k w with
  | some ⟨name, k', item :: queue, .idle⟩ =>
    some { s with
      workers := s.setWorker ⟨name, k', queue, .busy item⟩
      log := s.log ++ [⟨.started, item⟩] }
  | _ => none

def finishStep (s : State κ τ) (k : κ) (w : ℕ) : Option (State κ τ) :=
  match s.findWorker k w with
  | some ⟨name, k', queue, .busy item⟩ =>
    some { s with
      workers := s.setWorker ⟨name, k', queue, .idle⟩
      log := s.log ++ [⟨.finished, item⟩] }
  | _ => none

/-- The worker's task dies, and its queue with it. -/
def crashStep (s : State κ τ) (k : κ) (w : ℕ) : Option (State κ τ) :=
  match s.findWorker k w with
  | some ⟨name, k', _, .busy _⟩ => some { s with workers := s.setWorker ⟨name, k', [], .dead⟩ }
  | _ => none

def step (s : State κ τ) : Label κ τ → Option (State κ τ)
  | .enter id task => enterStep key s id task
  | .send k id => sendStep key cap s k id
  | .recv k w => recvStep s k w
  | .finish k w => finishStep s k w
  | .crash k w => crashStep s k w

/-! ## What concerns one key -/

/-- The part of a state that belongs to the key `k`. -/
def view (k : κ) (s : State κ τ) : State κ τ :=
  { workers := s.workers.filter fun W => decide (W.key = k)
    entry := fun k' => if k' = k then s.entry k else none
    pending := s.pending.filter fun p => decide (key p.item.task = k)
    log := s.log.filter fun e => decide (key e.item.task = k) }

variable {key cap} {s s' : State κ τ} {k : κ} {l : Label κ τ}

@[simp] theorem findWorker_view (k : κ) (w : ℕ) :
    (view key k s).findWorker k w = s.findWorker k w := by
  simp only [State.findWorker, view, List.find?_filter]
  congr 1
  funext W
  by_cases h : W.key = k <;> simp [h]

@[simp] theorem findPending_view (k : κ) (id : ℕ) :
    (view key k s).findPending key k id = s.findPending key k id := by
  simp only [State.findPending, view, List.find?_filter]
  congr 1
  funext p
  by_cases h : key p.item.task = k <;> simp [h]

theorem fresh_view (k : κ) (id : ℕ) : (view key k s).Fresh key k id ↔ s.Fresh key k id := by
  simp only [State.Fresh, view, List.mem_filter, decide_eq_true_eq]
  constructor
  · rintro ⟨h1, h2⟩
    exact ⟨fun p hp hk => h1 p ⟨hp, hk⟩ hk, fun e he hk => h2 e ⟨he, hk⟩ hk⟩
  · rintro ⟨h1, h2⟩
    exact ⟨fun p hp hk => h1 p hp.1 hk, fun e he hk => h2 e he.1 hk⟩

theorem findWorker_eq_some {W : Worker κ τ} {w : ℕ} (h : s.findWorker k w = some W) :
    W ∈ s.workers ∧ W.key = k ∧ W.name = w :=
  ⟨List.mem_of_find?_eq_some h, by simpa using List.find?_some h⟩

theorem findPending_eq_some {p : Pending τ} {id : ℕ} (h : s.findPending key k id = some p) :
    p ∈ s.pending ∧ key p.item.task = k ∧ p.item.id = id :=
  ⟨List.mem_of_find?_eq_some h, by simpa using List.find?_some h⟩

theorem setWorker_view (key : τ → κ) (W' : Worker κ τ) :
    (view key k s).setWorker W' = (s.setWorker W').filter fun W => decide (W.key = k) := by
  simp only [State.setWorker, view, List.filter_map]
  congr 1
  refine List.filter_congr fun W _ => ?_
  simp only [Function.comp_apply]
  split_ifs with h
  · rw [h.1]
  · rfl

theorem filter_setWorker_of_ne {W' : Worker κ τ} (h : W'.key ≠ k) :
    (s.setWorker W').filter (fun W => decide (W.key = k)) =
      s.workers.filter fun W => decide (W.key = k) := by
  rw [← setWorker_view fun _ => k]
  simp only [State.setWorker, view]
  refine (List.map_congr_left fun W hW => if_neg ?_).trans (List.map_id _)
  rintro ⟨h1, -⟩
  exact h (h1 ▸ of_decide_eq_true (List.mem_filter.mp hW).2)

theorem dropPending_view (k : κ) (id : ℕ) :
    (view key k s).dropPending key k id =
      (s.dropPending key k id).filter fun p => decide (key p.item.task = k) := by
  simp only [State.dropPending, view, List.filter_filter]
  exact List.filter_congr fun p _ => Bool.and_comm _ _

theorem filter_dropPending_of_ne {k' : κ} (h : k' ≠ k) (id : ℕ) :
    (s.dropPending key k' id).filter (fun p => decide (key p.item.task = k)) =
      s.pending.filter fun p => decide (key p.item.task = k) := by
  simp only [State.dropPending, List.filter_filter]
  refine List.filter_congr fun p _ => ?_
  by_cases hp : key p.item.task = k
  · simp [hp, h.symm]
  · simp [hp]

/-! ### A step concerns its key only -/

theorem view_eq {s s' : State κ τ}
    (h1 : s'.workers.filter (fun W => decide (W.key = k)) =
      s.workers.filter fun W => decide (W.key = k))
    (h2 : s'.entry k = s.entry k)
    (h3 : s'.pending.filter (fun p => decide (key p.item.task = k)) =
      s.pending.filter fun p => decide (key p.item.task = k))
    (h4 : s'.log.filter (fun e => decide (key e.item.task = k)) =
      s.log.filter fun e => decide (key e.item.task = k)) : view key k s' = view key k s := by
  unfold view
  rw [h1, h2, h3, h4]

theorem filter_log_of_ne {log : List (Event τ)} {e : Event τ} (h : key e.item.task ≠ k) :
    (log ++ [e]).filter (fun e => decide (key e.item.task = k)) =
      log.filter fun e => decide (key e.item.task = k) := by
  simp [h]

/-- The tasks a worker holds were submitted under its key. -/
def Keyed (key : τ → κ) (s : State κ τ) : Prop :=
  ∀ W ∈ s.workers, (∀ i ∈ W.queue, key i.task = W.key) ∧ ∀ i, W.phase = .busy i → key i.task = W.key

theorem mem_setWorker {W W' : Worker κ τ} (h : W ∈ s.setWorker W') : W ∈ s.workers ∨ W = W' := by
  obtain ⟨V, hV, rfl⟩ := List.mem_map.mp h
  split_ifs
  · exact .inr rfl
  · exact .inl hV

theorem Keyed.set {W' : Worker κ τ} (h : Keyed key s) (hw : s'.workers = s.setWorker W')
    (hq : ∀ i ∈ W'.queue, key i.task = W'.key)
    (hp : ∀ i, W'.phase = .busy i → key i.task = W'.key) : Keyed key s' := by
  intro W hW
  rw [hw] at hW
  rcases mem_setWorker hW with hW | rfl
  · exact h W hW
  · exact ⟨hq, hp⟩

theorem Keyed.step (h : Keyed key s) (hs : step key cap s l = some s') : Keyed key s' := by
  cases l with
  | enter id task =>
    simp only [KeyedQueue.step, enterStep] at hs
    split_ifs at hs
    split at hs
    · cases hs; exact h
    · cases hs
      intro W hW
      rcases List.mem_append.mp hW with hW | hW
      · exact h W hW
      · rw [List.mem_singleton.mp hW]
        exact ⟨nofun, nofun⟩
  | send k' id =>
    simp only [KeyedQueue.step, sendStep] at hs
    split at hs
    · cases hs
    · next p hp =>
      split at hs
      · cases hs
      · next W hW =>
        obtain ⟨hmem, hkey, -⟩ := findWorker_eq_some hW
        split_ifs at hs
        · cases hs; exact h
        · cases hs
          refine h.set rfl (fun i hi => ?_) (h W hmem).2
          rcases List.mem_append.mp hi with hi | hi
          · exact (h W hmem).1 i hi
          · rw [List.mem_singleton.mp hi, (findPending_eq_some hp).2.1, hkey]
  | recv k' w =>
    simp only [KeyedQueue.step, recvStep] at hs
    split at hs
    · next name k'' item queue hW =>
      cases hs
      have h0 := (h _ (findWorker_eq_some hW).1).1
      refine h.set rfl (fun i hi => h0 i (List.mem_cons_of_mem _ hi)) ?_
      rintro i ⟨⟩
      exact h0 _ List.mem_cons_self
    · cases hs
  | finish k' w =>
    simp only [KeyedQueue.step, finishStep] at hs
    split at hs
    · next name k'' queue item hW =>
      cases hs
      exact h.set rfl (h _ (findWorker_eq_some hW).1).1 nofun
    · cases hs
  | crash k' w =>
    simp only [KeyedQueue.step, crashStep] at hs
    split at hs
    · cases hs
      exact h.set rfl nofun nofun
    · cases hs

/-- **A step of another key changes nothing** that concerns `k`. -/
theorem view_step_of_ne (h : Keyed key s) (hk : l.keyOf key ≠ k)
    (hs : step key cap s l = some s') : view key k s' = view key k s := by
  cases l with
  | enter id task =>
    have hk : key task ≠ k := hk
    simp only [step, enterStep] at hs
    split_ifs at hs
    split at hs
    · cases hs
      exact view_eq rfl rfl (by simp [hk]) rfl
    · cases hs
      exact view_eq (by simp [hk]) (Function.update_of_ne hk.symm _ _) (by simp [hk]) rfl
  | send k' id =>
    have hk : k' ≠ k := hk
    simp only [step, sendStep] at hs
    split at hs
    · cases hs
    · next p hp =>
      obtain ⟨-, hpk, -⟩ := findPending_eq_some hp
      split at hs
      · cases hs
      · next W hW =>
        split_ifs at hs
        · cases hs
          exact view_eq rfl rfl (filter_dropPending_of_ne hk id) (filter_log_of_ne (hpk ▸ hk))
        · cases hs
          refine view_eq (filter_setWorker_of_ne ?_) rfl (filter_dropPending_of_ne hk id)
            (filter_log_of_ne (hpk ▸ hk))
          rw [(findWorker_eq_some hW).2.1]
          exact hk
  | recv k' w =>
    have hk : k' ≠ k := hk
    simp only [step, recvStep] at hs
    split at hs
    · next name k'' item queue hW =>
      obtain ⟨hmem, rfl, -⟩ := findWorker_eq_some hW
      cases hs
      refine view_eq (filter_setWorker_of_ne hk) rfl rfl (filter_log_of_ne ?_)
      rw [(h _ hmem).1 item List.mem_cons_self]
      exact hk
    · cases hs
  | finish k' w =>
    have hk : k' ≠ k := hk
    simp only [step, finishStep] at hs
    split at hs
    · next name k'' queue item hW =>
      obtain ⟨hmem, rfl, -⟩ := findWorker_eq_some hW
      cases hs
      refine view_eq (filter_setWorker_of_ne hk) rfl rfl (filter_log_of_ne ?_)
      rw [(h _ hmem).2 item rfl]
      exact hk
    · cases hs
  | crash k' w =>
    have hk : k' ≠ k := hk
    simp only [step, crashStep] at hs
    split at hs
    · next name k'' queue item hW =>
      obtain ⟨-, rfl, -⟩ := findWorker_eq_some hW
      cases hs
      exact view_eq (filter_setWorker_of_ne hk) rfl rfl rfl
    · cases hs

@[simp] theorem entry_view : (view key k s).entry k = s.entry k := if_pos rfl

/-- The view of an accepting step, as a step of the view. -/
theorem view_mk {workers : List (Worker κ τ)} {entry : κ → Option ℕ} {pending : List (Pending τ)}
    {e : Event τ} (hk : key e.item.task = k) (log : List (Event τ)) :
    view key k { workers := workers, entry := entry, pending := pending, log := log ++ [e] } =
      { workers := workers.filter fun W => decide (W.key = k)
        entry := fun k' => if k' = k then entry k else none
        pending := pending.filter fun p => decide (key p.item.task = k)
        log := log.filter (fun e => decide (key e.item.task = k)) ++ [e] } := by
  simp [view, hk]

/-- **A step of the key `k`** depends on what concerns `k` only, and what it does
    to that is the same step. -/
theorem view_step_of_eq (h : Keyed key s) (hk : l.keyOf key = k) :
    step key cap (view key k s) l = (step key cap s l).map (view key k) := by
  cases l with
  | enter id task =>
    obtain rfl : key task = k := hk
    simp only [step, enterStep, fresh_view, entry_view]
    split_ifs
    · cases s.entry (key task) with
      | some w => simp [view]
      | none =>
        refine congrArg some (State.ext ?_ ?_ ?_ rfl)
        · simp [view]
        · funext k'
          simp only [view, Function.update_apply]
          split_ifs <;> rfl
        · simp [view]
    · rfl
  | send k' id =>
    obtain rfl : k' = k := hk
    simp only [step, sendStep, findPending_view]
    cases hp : s.findPending key k' id with
    | none => rfl
    | some p =>
      simp only [findWorker_view]
      cases hW : s.findWorker k' p.worker with
      | none => rfl
      | some W =>
        simp only
        split_ifs
        · rw [Option.map_some, view_mk (findPending_eq_some hp).2.1, dropPending_view]
          rfl
        · rw [Option.map_some, view_mk (findPending_eq_some hp).2.1, dropPending_view,
            setWorker_view]
          rfl
  | recv k' w =>
    obtain rfl : k' = k := hk
    simp only [step, recvStep, findWorker_view]
    split
    · next name k'' item queue hW =>
      obtain ⟨hmem, rfl, -⟩ := findWorker_eq_some hW
      rw [Option.map_some, view_mk ((h _ hmem).1 item List.mem_cons_self), setWorker_view]
      rfl
    · rfl
  | finish k' w =>
    obtain rfl : k' = k := hk
    simp only [step, finishStep, findWorker_view]
    split
    · next name k'' queue item hW =>
      obtain ⟨hmem, rfl, -⟩ := findWorker_eq_some hW
      rw [Option.map_some, view_mk ((h _ hmem).2 item rfl), setWorker_view]
      rfl
    · rfl
  | crash k' w =>
    obtain rfl : k' = k := hk
    simp only [step, crashStep, findWorker_view]
    split
    · rw [Option.map_some, setWorker_view]
      rfl
    · rfl

/-- **Independence of keys**: leaving out every step of the other keys, a run is
    still one, and leads to the same view of `k`. -/
theorem view_run (h : Keyed key s) {ls : List (Label κ τ)}
    (hs : runFrom (step key cap) s ls = some s') :
    runFrom (step key cap) (view key k s) (ls.filter fun l => decide (l.keyOf key = k)) =
      some (view key k s') := by
  induction ls generalizing s with
  | nil => cases hs; rfl
  | cons l ls ih =>
    obtain ⟨s₁, h1, h2⟩ := Option.bind_eq_some_iff.mp hs
    have ih := ih (h.step h1) h2
    by_cases hk : l.keyOf key = k
    · rw [List.filter_cons_of_pos (by simpa using hk), runFrom, view_step_of_eq h hk, h1]
      exact ih
    · rw [List.filter_cons_of_neg (by simpa using hk), ← view_step_of_ne h hk h1]
      exact ih

/-- A step is enabled, and does the same to its key, in every state with the same
    view of that key. -/
theorem step_of_view_eq {t : State κ τ} (h : Keyed key s) (ht : Keyed key t)
    (hv : view key (l.keyOf key) t = view key (l.keyOf key) s) (hs : step key cap s l = some s') :
    ∃ t', step key cap t l = some t' ∧ view key (l.keyOf key) t' = view key (l.keyOf key) s' := by
  have h1 : (step key cap t l).map (view key (l.keyOf key)) =
      some (view key (l.keyOf key) s') := by
    rw [← view_step_of_eq ht rfl, hv, view_step_of_eq h rfl, hs]
    rfl
  obtain ⟨t', ht', hv'⟩ := Option.map_eq_some_iff.mp h1
  exact ⟨t', ht', hv'⟩

/-- **Steps of different keys commute**, up to the order of their entries in the
    log: every key sees the same. -/
theorem view_swap (h : Keyed key s) {l l' : Label κ τ} (hk : l.keyOf key ≠ l'.keyOf key)
    (hs : runFrom (step key cap) s [l, l'] = some s') :
    ∃ s'', runFrom (step key cap) s [l', l] = some s'' ∧ ∀ k, view key k s'' = view key k s' := by
  obtain ⟨s₁, h1, h2⟩ := Option.bind_eq_some_iff.mp hs
  obtain ⟨_, h2, ⟨⟩⟩ := Option.bind_eq_some_iff.mp h2
  have hK₁ := h.step h1
  obtain ⟨t₁, ht₁, hv₁⟩ := step_of_view_eq hK₁ h (view_step_of_ne h hk h1).symm h2
  obtain ⟨t₂, ht₂, hv₂⟩ :=
    step_of_view_eq h (h.step ht₁) (view_step_of_ne h (Ne.symm hk) ht₁) h1
  refine ⟨t₂, by simp [runFrom, ht₁, ht₂], fun k => ?_⟩
  by_cases hkl : l.keyOf key = k
  · subst hkl
    rw [hv₂, view_step_of_ne hK₁ (Ne.symm hk) h2]
  · rw [view_step_of_ne (h.step ht₁) hkl ht₂]
    by_cases hkl' : l'.keyOf key = k
    · subst hkl'
      exact hv₁
    · rw [view_step_of_ne h hkl' ht₁, view_step_of_ne hK₁ hkl' h2, view_step_of_ne h hkl h1]

/-! ## One worker for each key -/

/-- The items of the entries of one kind, in order. -/
def items (kind : EventKind) (log : List (Event τ)) : List (Item τ) :=
  (log.filter fun e => decide (e.kind = kind)).map (·.item)

/-- The starts and ends of executions, in order. -/
def execs (log : List (Event τ)) : List (Event τ) :=
  log.filter fun e => decide (e.kind = .started ∨ e.kind = .finished)

/-- What became of the submits, in order. -/
def answers (log : List (Event τ)) : List (Event τ) :=
  log.filter fun e => decide (e.kind = .accepted ∨ e.kind = .rejected)

/-- The executions of `done`, one after the other. -/
def runs (done : List (Item τ)) : List (Event τ) :=
  done.flatMap fun i => [⟨.started, i⟩, ⟨.finished, i⟩]

@[simp] theorem items_append (kind : EventKind) (log : List (Event τ)) (e : Event τ) :
    items kind (log ++ [e]) = items kind log ++ if e.kind = kind then [e.item] else [] := by
  by_cases h : e.kind = kind <;> simp [items, h]

@[simp] theorem execs_append (log : List (Event τ)) (e : Event τ) :
    execs (log ++ [e]) =
      execs log ++ if e.kind = .started ∨ e.kind = .finished then [e] else [] := by
  by_cases h : e.kind = .started ∨ e.kind = .finished <;> simp [execs, h]

@[simp] theorem answers_append (log : List (Event τ)) (e : Event τ) :
    answers (log ++ [e]) =
      answers log ++ if e.kind = .accepted ∨ e.kind = .rejected then [e] else [] := by
  by_cases h : e.kind = .accepted ∨ e.kind = .rejected <;> simp [answers, h]

theorem runs_append (done : List (Item τ)) (i : Item τ) :
    runs (done ++ [i]) = runs done ++ [⟨.started, i⟩] ++ [⟨.finished, i⟩] := by
  simp [runs]

/-- The worker has executed a prefix of the accepted tasks, one at a time; the
    rest is in its hands and in its queue, unless it died. -/
inductive Served (W : Worker κ τ) (log : List (Event τ)) : Prop
  | idle (done : List (Item τ)) (hp : W.phase = .idle)
      (ha : items .accepted log = done ++ W.queue) (he : execs log = runs done)
  | busy (done : List (Item τ)) (i : Item τ) (hp : W.phase = .busy i)
      (ha : items .accepted log = done ++ i :: W.queue)
      (he : execs log = runs done ++ [⟨.started, i⟩])
  | dead (done : List (Item τ)) (i : Item τ) (rest : List (Item τ)) (hp : W.phase = .dead)
      (ha : items .accepted log = done ++ i :: rest) (he : execs log = runs done ++ [⟨.started, i⟩])

/-- A key has no worker and no history, or exactly one worker, which serves it
    and which every submit finds. -/
inductive Lane (cap : ℕ) (k : κ) (v : State κ τ) : Prop
  | closed (he : v.entry k = none) (hw : v.workers = []) (hp : v.pending = []) (hl : v.log = [])
  | opened (W : Worker κ τ) (he : v.entry k = some W.name) (hw : v.workers = [W]) (hk : W.key = k)
      (hp : ∀ p ∈ v.pending, p.worker = W.name) (hq : W.queue.length ≤ cap) (hs : Served W v.log)

theorem findWorker_single {v : State κ τ} {W W' : Worker κ τ} {w : ℕ} (hw : v.workers = [W])
    (h : v.findWorker k w = some W') : W' = W ∧ w = W.name := by
  obtain ⟨hmem, -, hname⟩ := findWorker_eq_some h
  rw [hw, List.mem_singleton] at hmem
  subst hmem
  exact ⟨rfl, hname.symm⟩

theorem setWorker_single {v : State κ τ} {W W' : Worker κ τ} (hw : v.workers = [W])
    (hk : W'.key = W.key) (hn : W'.name = W.name) : v.setWorker W' = [W'] := by
  simp [State.setWorker, hw, hk, hn]

theorem Lane.enter {v v' : State κ τ} {id : ℕ} {task : τ} (h : Lane cap (key task) v)
    (hs : enterStep key v id task = some v') : Lane cap (key task) v' := by
  unfold enterStep at hs
  split_ifs at hs
  cases h with
  | closed he hw hp hl =>
    rw [he] at hs
    cases hs
    refine .opened ⟨id, key task, [], .idle⟩ (Function.update_self _ _ _) (by simp [hw]) rfl ?_
      (Nat.zero_le _) ?_
    · simp [hp]
    · exact .idle [] rfl (by simp [hl, items]) (by simp [hl, execs, runs])
  | opened W he hw hk hp hq hserved =>
    rw [he] at hs
    cases hs
    refine .opened W he hw hk ?_ hq hserved
    intro p hmem
    rcases List.mem_append.mp hmem with hmem | hmem
    · exact hp p hmem
    · rw [List.mem_singleton.mp hmem]

theorem Lane.send {v v' : State κ τ} {id : ℕ} (h : Lane cap k v)
    (hs : sendStep key cap v k id = some v') : Lane cap k v' := by
  unfold sendStep at hs
  split at hs
  · cases hs
  · next p hfind =>
    obtain ⟨hmem, -, -⟩ := findPending_eq_some hfind
    have hdrop : ∀ q ∈ v.dropPending key k id, q ∈ v.pending := fun q hq =>
      (List.mem_filter.mp hq).1
    cases h with
    | closed he hw hp hl => rw [hp] at hmem; cases hmem
    | opened W he hw hk hp hq hserved =>
      split at hs
      · cases hs
      · next W' hW' =>
        obtain ⟨rfl, -⟩ := findWorker_single hw hW'
        split_ifs at hs with href
        · cases hs
          refine .opened W' he hw hk (fun q hq => hp q (hdrop q hq)) hq ?_
          cases hserved with
          | idle done hp ha he => exact .idle done hp (by simp [ha]) (by simp [he])
          | busy done i hp ha he => exact .busy done i hp (by simp [ha]) (by simp [he])
          | dead done i rest hp ha he => exact .dead done i rest hp (by simp [ha]) (by simp [he])
        · cases hs
          have hlt : W'.phase ≠ .dead ∧ W'.queue.length < cap := by
            unfold Worker.refuses at href
            cases hph : W'.phase <;> simp_all
          refine .opened { W' with queue := W'.queue ++ [p.item] } he
            (setWorker_single hw rfl rfl) hk (fun q hq => hp q (hdrop q hq)) ?_ ?_
          · simpa using hlt.2
          · cases hserved with
            | idle done hp ha he => exact .idle done hp (by simp [ha]) (by simp [he])
            | busy done i hp ha he => exact .busy done i hp (by simp [ha]) (by simp [he])
            | dead done i rest hp => exact absurd hp hlt.1

theorem Lane.recv {v v' : State κ τ} {w : ℕ} (h : Lane cap k v)
    (hs : recvStep v k w = some v') : Lane cap k v' := by
  unfold recvStep at hs
  split at hs
  · next name k' item queue hW =>
    cases h with
    | closed he hw hp hl =>
      have := (findWorker_eq_some hW).1
      rw [hw] at this
      cases this
    | opened W he hw hk hp hq hserved =>
      obtain ⟨rfl, -⟩ := findWorker_single hw hW
      cases hs
      refine .opened ⟨name, k', queue, .busy item⟩ he (setWorker_single hw rfl rfl) hk hp
        (Nat.le_of_succ_le hq) ?_
      cases hserved with
      | idle done _ ha he => exact .busy done item rfl (by simpa using ha) (by simp [he])
      | busy done i hp => cases hp
      | dead done i rest hp => cases hp
  · cases hs

theorem Lane.finish {v v' : State κ τ} {w : ℕ} (h : Lane cap k v)
    (hs : finishStep v k w = some v') : Lane cap k v' := by
  unfold finishStep at hs
  split at hs
  · next name k' queue item hW =>
    cases h with
    | closed he hw hp hl =>
      have := (findWorker_eq_some hW).1
      rw [hw] at this
      cases this
    | opened W he hw hk hp hq hserved =>
      obtain ⟨rfl, -⟩ := findWorker_single hw hW
      cases hs
      refine .opened ⟨name, k', queue, .idle⟩ he (setWorker_single hw rfl rfl) hk hp hq ?_
      cases hserved with
      | idle done hp => cases hp
      | busy done i hp ha he =>
        cases hp
        exact .idle (done ++ [item]) rfl (by simp [ha]) (by simp [he, runs_append])
      | dead done i rest hp => cases hp
  · cases hs

theorem Lane.crash {v v' : State κ τ} {w : ℕ} (h : Lane cap k v)
    (hs : crashStep v k w = some v') : Lane cap k v' := by
  unfold crashStep at hs
  split at hs
  · next name k' queue item hW =>
    cases h with
    | closed he hw hp hl =>
      have := (findWorker_eq_some hW).1
      rw [hw] at this
      cases this
    | opened W he hw hk hp hq hserved =>
      obtain ⟨rfl, -⟩ := findWorker_single hw hW
      cases hs
      refine .opened ⟨name, k', [], .dead⟩ he (setWorker_single hw rfl rfl) hk hp
        (Nat.zero_le _) ?_
      cases hserved with
      | idle done hp => cases hp
      | busy done i hp ha he => exact .dead done i queue rfl ha he
      | dead done i rest hp => cases hp
  · cases hs

/-- Each key keeps to one worker that serves it in order, whatever step is taken. -/
theorem Lane.step (hK : Keyed key s) (h : Lane cap k (view key k s))
    (hs : step key cap s l = some s') : Lane cap k (view key k s') := by
  by_cases hk : l.keyOf key = k
  · have hv : KeyedQueue.step key cap (view key k s) l = some (view key k s') := by
      rw [view_step_of_eq hK hk, hs]
      rfl
    cases l with
    | enter id task => cases hk; exact h.enter hv
    | send k' id => cases hk; exact h.send hv
    | recv k' w => cases hk; exact h.recv hv
    | finish k' w => cases hk; exact h.finish hv
    | crash k' w => cases hk; exact h.crash hv
  · rwa [view_step_of_ne hK hk hs]

theorem Lane.init (cap : ℕ) (k : κ) : Lane cap k (view key k (State.init : State κ τ)) :=
  .closed (if_pos rfl) rfl rfl rfl

/-! ## Submits are told apart -/

/-- No two submits of a key share their id. -/
def Distinct (v : State κ τ) : Prop :=
  (v.pending.map (·.item.id) ++ (answers v.log).map (·.item.id)).Nodup

/-- A submit that is answered moves from the pending ones to the log. -/
theorem Distinct.answer {v : State κ τ} (h : Distinct v) {p : Pending τ} {id : ℕ}
    (hmem : p ∈ v.pending) (hid : p.item.id = id) {log : List (Event τ)}
    (hlog : (answers log).map (·.item.id) = (answers v.log).map (·.item.id) ++ [id])
    (hk : ∀ q ∈ v.pending, key q.item.task = k) :
    ((v.dropPending key k id).map (·.item.id) ++ (answers log).map (·.item.id)).Nodup := by
  have hsub : ((v.dropPending key k id).map (·.item.id)).Sublist (v.pending.map (·.item.id)) :=
    List.filter_sublist.map _
  rw [hlog, ← List.append_assoc]
  refine (h.sublist (hsub.append_right _)).append (List.nodup_singleton _) ?_
  intro x hx hx'
  obtain rfl := List.mem_singleton.mp hx'
  rcases List.mem_append.mp hx with hx | hx
  · obtain ⟨q, hq, hqid⟩ := List.mem_map.mp hx
    obtain ⟨hq, hne⟩ := List.mem_filter.mp hq
    exact of_decide_eq_true hne ⟨hk q hq, hqid⟩
  · have hdisj := (List.nodup_append.mp h).2.2
    exact hdisj _ (List.mem_map.mpr ⟨p, hmem, hid⟩) _ hx rfl

theorem Distinct.step_view (h : Distinct (view key k s)) (hk : l.keyOf key = k)
    (hs : KeyedQueue.step key cap (view key k s) l = some s') : Distinct s' := by
  cases l with
  | enter id task =>
    unfold Distinct at h ⊢
    obtain rfl : key task = k := hk
    simp only [KeyedQueue.step, enterStep] at hs
    split_ifs at hs with hf
    have hnew : id ∉ (view key (key task) s).pending.map (·.item.id) ++
        (answers (view key (key task) s).log).map (·.item.id) := by
      intro hmem
      rcases List.mem_append.mp hmem with hmem | hmem
      · obtain ⟨p, hp, hid⟩ := List.mem_map.mp hmem
        exact hf.1 p hp (of_decide_eq_true (List.mem_filter.mp hp).2) hid
      · obtain ⟨e, he, hid⟩ := List.mem_map.mp hmem
        have he := (List.mem_filter.mp he).1
        exact hf.2 e he (of_decide_eq_true (List.mem_filter.mp he).2) hid
    split at hs <;> cases hs
    all_goals
      rw [List.map_append, List.map_singleton, List.append_assoc, List.singleton_append,
        List.nodup_middle]
      exact List.nodup_cons.mpr ⟨hnew, h⟩
  | send k' id =>
    obtain rfl : k' = k := hk
    simp only [KeyedQueue.step, sendStep] at hs
    split at hs
    · cases hs
    · next p hp =>
      obtain ⟨hmem, -, hid⟩ := findPending_eq_some hp
      split at hs
      · cases hs
      · split_ifs at hs <;> cases hs
        all_goals
          refine h.answer hmem hid (by simp [hid]) fun q hq => ?_
          exact of_decide_eq_true (List.mem_filter.mp hq).2
  | recv k' w =>
    simp only [KeyedQueue.step, recvStep] at hs
    split at hs
    · cases hs; simpa [Distinct] using h
    · cases hs
  | finish k' w =>
    simp only [KeyedQueue.step, finishStep] at hs
    split at hs
    · cases hs; simpa [Distinct] using h
    · cases hs
  | crash k' w =>
    simp only [KeyedQueue.step, crashStep] at hs
    split at hs
    · cases hs; exact h
    · cases hs

theorem Distinct.step (hK : Keyed key s) (h : Distinct (view key k s))
    (hs : step key cap s l = some s') : Distinct (view key k s') := by
  by_cases hk : l.keyOf key = k
  · have hv : KeyedQueue.step key cap (view key k s) l = some (view key k s') := by
      rw [view_step_of_eq hK hk, hs]
      rfl
    exact h.step_view hk hv
  · rwa [view_step_of_ne hK hk hs]

/-! ## Serial execution in order -/

/-- What the log says about one key: at most one worker was spawned; the
    accepted tasks are executed in the order they were accepted, one at a time,
    each once; a refused task is not executed. -/
structure SerialFifo (key : τ → κ) (s : State κ τ) (k : κ) : Prop where
  one_worker : (view key k s).workers.length ≤ 1
  order : ∃ (done : List (Item τ)) (running : Option (Item τ)) (waiting : List (Item τ)),
    items .accepted (view key k s).log = done ++ running.toList ++ waiting ∧
      execs (view key k s).log = runs done ++ running.toList.map fun i => ⟨.started, i⟩
  once : ((items .accepted (view key k s).log).map (·.id)).Nodup
  refused : ∀ i ∈ items .rejected (view key k s).log, ∀ e ∈ execs (view key k s).log,
    e.item.id ≠ i.id

theorem mem_runs {done : List (Item τ)} {e : Event τ} (h : e ∈ runs done) : e.item ∈ done := by
  obtain ⟨i, hi, he⟩ := List.mem_flatMap.mp h
  simp only [List.mem_cons, List.not_mem_nil, or_false] at he
  rcases he with rfl | rfl <;> exact hi

theorem mem_answers_of_items {kind : EventKind} (hkind : kind = .accepted ∨ kind = .rejected)
    {log : List (Event τ)} {i : Item τ} (h : i ∈ items kind log) : ⟨kind, i⟩ ∈ answers log := by
  obtain ⟨e, he, rfl⟩ := List.mem_map.mp h
  obtain ⟨hmem, hk⟩ := List.mem_filter.mp he
  obtain rfl := of_decide_eq_true hk
  exact List.mem_filter.mpr ⟨hmem, decide_eq_true hkind⟩

omit [DecidableEq κ] in
theorem Distinct.accepted_nodup {v : State κ τ} (h : Distinct v) :
    ((items .accepted v.log).map (·.id)).Nodup := by
  have hsub : ((items .accepted v.log).map (·.id)).Sublist ((answers v.log).map (·.item.id)) := by
    have hfilter : items .accepted v.log =
        ((answers v.log).filter fun e => decide (e.kind = .accepted)).map (·.item) := by
      rw [items, answers, List.filter_filter]
      refine congrArg _ (List.filter_congr fun e _ => ?_)
      cases e.kind <;> rfl
    rw [hfilter, List.map_map]
    exact List.filter_sublist.map _
  exact (List.nodup_append.mp h).2.1.sublist hsub

omit [DecidableEq κ] in
/-- An accepted and a refused submit are different submits. -/
theorem Distinct.accepted_ne_rejected {v : State κ τ} (h : Distinct v) {i j : Item τ}
    (hi : i ∈ items .accepted v.log) (hj : j ∈ items .rejected v.log) : i.id ≠ j.id := by
  intro hid
  have hinj := List.inj_on_of_nodup_map (List.nodup_append.mp h).2.1
    (mem_answers_of_items (.inl rfl) hi) (mem_answers_of_items (.inr rfl) hj) hid
  cases congrArg Event.kind hinj

omit [DecidableEq κ] in
theorem Lane.order {v : State κ τ} (h : Lane cap k v) :
    ∃ (done : List (Item τ)) (running : Option (Item τ)) (waiting : List (Item τ)),
      items .accepted v.log = done ++ running.toList ++ waiting ∧
        execs v.log = runs done ++ running.toList.map fun i => ⟨.started, i⟩ := by
  cases h with
  | closed he hw hp hl => exact ⟨[], none, [], by simp [hl, items], by simp [hl, execs, runs]⟩
  | opened W he hw hk hp hq hs =>
    cases hs with
    | idle done hp ha he => exact ⟨done, none, W.queue, by simp [ha], by simp [he]⟩
    | busy done i hp ha he => exact ⟨done, some i, W.queue, by simp [ha], by simp [he]⟩
    | dead done i rest hp ha he => exact ⟨done, some i, rest, by simp [ha], by simp [he]⟩

theorem Lane.serialFifo (h : Lane cap k (view key k s)) (hd : Distinct (view key k s)) :
    SerialFifo key s k := by
  obtain ⟨done, running, waiting, ha, he⟩ := h.order
  refine ⟨?_, ⟨done, running, waiting, ha, he⟩, hd.accepted_nodup, ?_⟩
  · cases h with
    | closed _ hw => simp [hw]
    | opened W _ hw => simp [hw]
  · intro i hi e hmem
    -- whatever is executed was accepted
    have hacc : e.item ∈ items .accepted (view key k s).log := by
      rw [he] at hmem
      rw [ha]
      rcases List.mem_append.mp hmem with hmem | hmem
      · simp [mem_runs hmem]
      · obtain ⟨j, hj, rfl⟩ := List.mem_map.mp hmem
        simp [List.mem_append, hj]
    exact hd.accepted_ne_rejected hacc hi

/-- The invariants of every reachable state. -/
theorem lanes_of_reachable (h : Reachable (step key cap) State.init s) :
    Keyed key s ∧ ∀ k, Lane cap k (view key k s) ∧ Distinct (view key k s) :=
  h.invariant (I := fun s => Keyed key s ∧ ∀ k, Lane cap k (view key k s) ∧ Distinct (view key k s))
    ⟨by simp [Keyed, State.init], fun k => ⟨.init cap k, by simp [Distinct, view, State.init, answers]⟩⟩
    fun _ _ _ hi _ hs => ⟨hi.1.step hs, fun k => ⟨(hi.2 k).1.step hi.1 hs, (hi.2 k).2.step hi.1 hs⟩⟩

/-- **Serial and in order**, for every key and every reachable state. -/
theorem serialFifo_of_reachable (h : Reachable (step key cap) State.init s) (k : κ) :
    SerialFifo key s k := by
  obtain ⟨-, hl⟩ := lanes_of_reachable h
  exact (hl k).1.serialFifo (hl k).2

end Ppb.KeyedQueue
