import Ppb.Common.KeyedQueue

/-!
# The tasks in a keyed queue

What the workers of a keyed queue hold: the tasks waiting in their queues and the
ones being executed. Each step changes this list in one place, since a key has
one worker (`one_worker`).

* `held_enter`, `held_send`, `held_recv`, `held_finish`, `held_crash`: what each step
  does to the held tasks.
* `Alive`: no worker died; only a crash ends it (`Alive.step`).
* `submit_spec`: both steps of a submit together.
-/

namespace Ppb.KeyedQueue

open Ppb.Trace

variable {κ τ : Type} [DecidableEq κ] {key : τ → κ} {cap : ℕ}

/-- The task being executed. -/
def Phase.item : Phase τ → Option (Item τ)
  | .busy i => some i
  | _ => none

/-- The tasks a worker executes or has waiting. -/
def Worker.held (W : Worker κ τ) : List (Item τ) := W.phase.item.toList ++ W.queue

/-- The tasks waiting or being executed. -/
def State.held (s : State κ τ) : List (Item τ) := s.workers.flatMap Worker.held

/-- The task a worker is executing. -/
def State.busy (s : State κ τ) (k : κ) (w : ℕ) : Option (Item τ) :=
  (s.findWorker k w).bind fun W => W.phase.item

/-- How many tasks of a key are waiting. -/
def State.waiting (key : τ → κ) (s : State κ τ) (k : κ) : ℕ :=
  ((view key k s).workers.map fun W => W.queue.length).sum

/-- No worker died. -/
def State.Alive (s : State κ τ) : Prop := ∀ W ∈ s.workers, W.phase ≠ .dead

variable {s s' : State κ τ} {k : κ} {l : Label κ τ} {W W' : Worker κ τ} {w id : ℕ} {task : τ}

/-! ## One worker -/

theorem one_worker (hlane : Lane cap k (view key k s)) (hf : s.findWorker k w = some W) :
    (view key k s).workers = [W] := by
  have hview : (view key k s).findWorker k w = some W := (findWorker_view k w).trans hf
  cases hlane with
  | closed he hw hp hl =>
    have hmem := (findWorker_eq_some hview).1
    rw [hw] at hmem
    cases hmem
  | opened V he hw hk hp hq hserved =>
    obtain ⟨rfl, -⟩ := findWorker_single hw hview
    exact hw

/-- Replacing the worker of a key changes the held tasks in one place. -/
theorem held_setWorker (W' : Worker κ τ) (hone : (view key k s).workers = [W]) (hk : W'.key = k)
    (hn : W'.name = W.name) :
    ∃ A B, s.held = A ++ W.held ++ B ∧ (s.setWorker W').flatMap Worker.held = A ++ W'.held ++ B := by
  obtain ⟨l₁, l₂, hsplit, h₁, hW, h₂⟩ := List.filter_eq_cons_iff.mp hone
  have hWk : W.key = k := by simpa using hW
  have hkeep : ∀ l : List (Worker κ τ), (∀ V ∈ l, V.key ≠ k) →
      l.map (fun V => if V.key = W'.key ∧ V.name = W'.name then W' else V) = l := by
    intro l hl
    refine (List.map_congr_left (g := id) fun V hV => if_neg fun h => ?_).trans (List.map_id l)
    exact hl V hV (h.1.trans hk)
  have hother : ∀ V ∈ l₂, V.key ≠ k := by
    intro V hV
    have hfilter := List.filter_eq_nil_iff.mp h₂ V hV
    simpa using hfilter
  refine ⟨l₁.flatMap Worker.held, l₂.flatMap Worker.held, ?_, ?_⟩
  · simp [State.held, hsplit]
  · rw [State.setWorker, hsplit, List.map_append, List.map_cons, hkeep l₁ (by simpa using h₁),
      hkeep l₂ hother, if_pos ⟨hWk.trans hk.symm, hn.symm⟩]
    simp

theorem held_replace (W' : Worker κ τ) (less more : List (Item τ))
    (hs' : s'.workers = s.setWorker W') (hone : (view key k s).workers = [W]) (hk : W'.key = k) (hn : W'.name = W.name)
    (hheld : (W'.held ++ less).Perm (W.held ++ more)) :
    (s'.held ++ less).Perm (s.held ++ more) := by
  obtain ⟨A, B, hA, hB⟩ := held_setWorker W' hone hk hn
  rw [State.held, hs', hB, hA]
  have hmove : ∀ X Y : List (Item τ), (A ++ X ++ B ++ Y).Perm (A ++ B ++ (X ++ Y)) := by
    intro X Y
    rw [List.append_assoc A X B, List.append_assoc A (X ++ B) Y, List.append_assoc A B]
    refine List.Perm.append_left A ?_
    rw [← List.append_assoc B]
    exact List.perm_append_comm.append_right Y
  exact (hmove _ _).trans ((List.Perm.append_left _ hheld).trans (hmove _ _).symm)

/-! ## Steps -/

theorem held_enter (hs : enterStep key s id task = some s') : s'.held = s.held := by
  unfold enterStep at hs
  split_ifs at hs
  split at hs
  · cases hs
    rfl
  · cases hs
    simp [State.held, Worker.held, Phase.item]

/-- An offer is refused and changes nothing, or adds the task. -/
theorem held_send (hlane : Lane cap k (view key k s)) (hs : sendStep key cap s k id = some s') :
    ∃ p W, s.findPending key k id = some p ∧ s.findWorker k p.worker = some W ∧
      s'.pending = s.dropPending key k id ∧
      ((W.refuses cap = true ∧ s'.held = s.held ∧ s'.workers = s.workers ∧
          s'.log = s.log ++ [⟨.rejected, p.item⟩]) ∨
        (W.refuses cap = false ∧ s'.held.Perm (s.held ++ [p.item]) ∧
          s'.log = s.log ++ [⟨.accepted, p.item⟩])) := by
  unfold sendStep at hs
  split at hs
  · cases hs
  · next p hp =>
    split at hs
    · cases hs
    · next W hW =>
      have hone := one_worker hlane hW
      split_ifs at hs with href
      · cases hs
        exact ⟨p, W, hp, hW, rfl, .inl ⟨href, rfl, rfl, rfl⟩⟩
      · have hs' : s'.workers = s.setWorker { W with queue := W.queue ++ [p.item] } := by
          rw [← Option.some.inj hs]
        have hheld := held_replace _ [] [p.item] hs' hone (findWorker_eq_some hW).2.1 rfl
          (by simp [Worker.held])
        rw [List.append_nil] at hheld
        refine ⟨p, W, hp, hW, ?_, .inr ⟨by simpa using href, hheld, ?_⟩⟩
        · rw [← Option.some.inj hs]
        · rw [← Option.some.inj hs]

/-- A worker that takes a task still holds it. -/
theorem held_recv (hlane : Lane cap k (view key k s)) (hs : recvStep s k w = some s') :
    s'.held.Perm s.held := by
  unfold recvStep at hs
  split at hs
  · next name k' item queue hW =>
    have hs' : s'.workers = s.setWorker ⟨name, k', queue, .busy item⟩ := by
      rw [← Option.some.inj hs]
    have hheld := held_replace _ [] [] hs' (one_worker hlane hW) (findWorker_eq_some hW).2.1 rfl
      (by simp [Worker.held, Phase.item])
    rwa [List.append_nil, List.append_nil] at hheld
  · cases hs

/-- A worker that is done lets its task go. -/
theorem held_finish (hlane : Lane cap k (view key k s)) (hs : finishStep s k w = some s') :
    ∃ W item, s.findWorker k w = some W ∧ W.phase = .busy item ∧
      s.held.Perm (s'.held ++ [item]) := by
  unfold finishStep at hs
  split at hs
  · next name k' queue item hW =>
    have hs' : s'.workers = s.setWorker ⟨name, k', queue, .idle⟩ := by
      rw [← Option.some.inj hs]
    have hheld := held_replace _ [item] [] hs' (one_worker hlane hW) (findWorker_eq_some hW).2.1 rfl
      (by simp [Worker.held, Phase.item])
    rw [List.append_nil] at hheld
    exact ⟨_, item, hW, rfl, hheld.symm⟩
  · cases hs

/-- A worker that dies drops all it holds. -/
theorem held_crash (hlane : Lane cap k (view key k s)) (hs : crashStep s k w = some s') :
    ∀ i ∈ s'.held, i ∈ s.held := by
  unfold crashStep at hs
  split at hs
  · next name k' queue item hW =>
    cases hs
    obtain ⟨A, B, hA, hB⟩ := held_setWorker ⟨name, k', [], .dead⟩ (one_worker hlane hW)
      (findWorker_eq_some hW).2.1 rfl
    intro i hi
    rw [State.held, hB] at hi
    rw [hA]
    simp only [Worker.held, Phase.item, Option.toList, List.append_nil, List.mem_append] at hi
    rcases hi with hi | hi
    · simp [hi]
    · simp [hi]
  · cases hs

/-! ## Tasks being executed -/

omit [DecidableEq κ] in
theorem mem_held {i : Item τ} : i ∈ s.held ↔ ∃ W ∈ s.workers, W.phase.item = some i ∨ i ∈ W.queue := by
  simp [State.held, Worker.held]

theorem mem_held_of_busy {i : Item τ} (h : s.busy k w = some i) : i ∈ s.held := by
  obtain ⟨W, hW, hi⟩ := Option.bind_eq_some_iff.mp h
  exact mem_held.mpr ⟨W, (findWorker_eq_some hW).1, .inl hi⟩

theorem findWorker_set (hs' : s'.workers = s.setWorker W') (k : κ) (w : ℕ) :
    s'.findWorker k w = (s.findWorker k w).map fun V =>
      if V.key = W'.key ∧ V.name = W'.name then W' else V := by
  rw [State.findWorker, hs', State.setWorker, List.find?_map, State.findWorker]
  congr 2
  funext V
  show decide ((if _ then W' else V).key = k ∧ (if _ then W' else V).name = w) = _
  split_ifs with h
  · rw [h.1, h.2]
  · rfl

/-- Replacing a worker changes what this worker is executing. -/
theorem busy_set (W' : Worker κ τ) (hs' : s'.workers = s.setWorker W')
    (hW : s.findWorker k w = some W) (hk : W'.key = W.key) (hn : W'.name = W.name) (k' : κ)
    (w' : ℕ) :
    s'.busy k' w' = if k' = k ∧ w' = w then W'.phase.item else s.busy k' w' := by
  obtain ⟨-, hWk, hWn⟩ := findWorker_eq_some hW
  rw [State.busy, findWorker_set hs', State.busy]
  split_ifs with h
  · obtain ⟨rfl, rfl⟩ := h
    simp [hW, hk, hn]
  · cases hV : s.findWorker k' w' with
    | none => rfl
    | some V =>
      obtain ⟨-, hVk, hVn⟩ := findWorker_eq_some hV
      have hne : ¬ (V.key = W'.key ∧ V.name = W'.name) := by
        rw [hVk, hVn, hk, hn, hWk, hWn]
        exact h
      simp [hne]

theorem busy_enter (hs : enterStep key s id task = some s') (k : κ) (w : ℕ) :
    s'.busy k w = s.busy k w := by
  unfold enterStep at hs
  split_ifs at hs
  split at hs
  · cases hs
    rfl
  · cases hs
    simp only [State.busy, State.findWorker, List.find?_append]
    cases hW : s.workers.find? fun W => decide (W.key = k ∧ W.name = w) with
    | some W => rfl
    | none =>
      simp only [Option.none_or, Option.bind_none, List.find?_singleton]
      split_ifs <;> rfl

theorem busy_send (hs : sendStep key cap s k id = some s') (k' : κ) (w : ℕ) :
    s'.busy k' w = s.busy k' w := by
  unfold sendStep at hs
  split at hs
  · cases hs
  · next p hp =>
    split at hs
    · cases hs
    · next W hW =>
      split_ifs at hs
      · cases hs
        rfl
      · cases hs
        rw [busy_set { W with queue := W.queue ++ [p.item] } rfl hW rfl rfl]
        split_ifs with h
        · rw [h.1, h.2, State.busy, hW]
          rfl
        · rfl

theorem busy_recv (hs : recvStep s k w = some s') :
    ∃ item, s'.pending = s.pending ∧ s'.log = s.log ++ [⟨.started, item⟩] ∧
      s.busy k w = none ∧
      ∀ k' w', s'.busy k' w' = if k' = k ∧ w' = w then some item else s.busy k' w' := by
  unfold recvStep at hs
  split at hs
  · next name k' item queue hW =>
    cases hs
    exact ⟨item, rfl, rfl, by simp [State.busy, hW, Phase.item],
      busy_set ⟨name, k', queue, .busy item⟩ rfl hW rfl rfl⟩
  · cases hs

theorem busy_finish (hs : finishStep s k w = some s') :
    ∃ item, s'.pending = s.pending ∧ s'.log = s.log ++ [⟨.finished, item⟩] ∧
      s.busy k w = some item ∧
      ∀ k' w', s'.busy k' w' = if k' = k ∧ w' = w then none else s.busy k' w' := by
  unfold finishStep at hs
  split at hs
  · next name k' queue item hW =>
    cases hs
    exact ⟨item, rfl, rfl, by simp [State.busy, hW, Phase.item],
      busy_set ⟨name, k', queue, .idle⟩ rfl hW rfl rfl⟩
  · cases hs

theorem busy_crash (hs : crashStep s k w = some s') :
    ∃ item, s'.pending = s.pending ∧ s'.log = s.log ∧ s.busy k w = some item ∧
      ∀ k' w', s'.busy k' w' = if k' = k ∧ w' = w then none else s.busy k' w' := by
  unfold crashStep at hs
  split at hs
  · next name k' queue item hW =>
    cases hs
    exact ⟨item, rfl, rfl, by simp [State.busy, hW, Phase.item],
      busy_set ⟨name, k', [], .dead⟩ rfl hW rfl rfl⟩
  · cases hs

/-! ## Workers that stay alive -/

theorem alive_set (W' : Worker κ τ) (ha : s.Alive) (hW : W'.phase ≠ .dead)
    (hs' : s'.workers = s.setWorker W') : s'.Alive := by
  intro V hV
  rw [hs'] at hV
  rcases mem_setWorker hV with hV | rfl
  · exact ha V hV
  · exact hW

/-- Only a crash kills a worker. -/
theorem Alive.step (ha : s.Alive) (hl : ∀ k w, l ≠ .crash k w)
    (hs : KeyedQueue.step key cap s l = some s') : s'.Alive := by
  cases l with
  | enter id task =>
    simp only [KeyedQueue.step, enterStep] at hs
    split_ifs at hs
    split at hs
    · cases hs
      exact ha
    · cases hs
      intro V hV
      rcases List.mem_append.mp hV with hV | hV
      · exact ha V hV
      · simp [List.mem_singleton.mp hV]
  | send k id =>
    simp only [KeyedQueue.step, sendStep] at hs
    split at hs
    · cases hs
    · next p hp =>
      split at hs
      · cases hs
      · next W hW =>
        split_ifs at hs
        · cases hs
          exact ha
        · cases hs
          exact alive_set { W with queue := W.queue ++ [p.item] } ha (ha W (findWorker_eq_some hW).1) rfl
  | recv k w =>
    simp only [KeyedQueue.step, recvStep] at hs
    split at hs
    · next name k' item queue hW =>
      cases hs
      exact alive_set ⟨name, k', queue, .busy item⟩ ha (by simp) rfl
    · cases hs
  | finish k w =>
    simp only [KeyedQueue.step, finishStep] at hs
    split at hs
    · next name k' queue item hW =>
      cases hs
      exact alive_set ⟨name, k', queue, .idle⟩ ha (by simp) rfl
    · cases hs
  | crash k w => exact absurd rfl (hl k w)

/-- The worker of `k` has died. -/
def State.Dead (s : State κ τ) (k : κ) : Prop := ∃ W ∈ s.workers, W.key = k ∧ W.phase = .dead

theorem dead_set {k' : κ} (hs' : s'.workers = s.setWorker W') (hd : s.Dead k)
    (hlane : Lane cap k (view key k s)) (hW : s.findWorker k' w = some W)
    (hW' : W.phase = .dead → W'.phase = .dead) (hk : W'.key = W.key) : s'.Dead k := by
  obtain ⟨V, hV, hVk, hdead⟩ := hd
  obtain ⟨hmem, hWk, -⟩ := findWorker_eq_some hW
  rw [State.Dead, hs']
  by_cases hsame : V.key = W'.key ∧ V.name = W'.name
  · -- the key has one worker, so the one that is replaced is the dead one
    have hone : (view key k s).workers = [W] := by
      refine one_worker hlane (w := w) ?_
      rwa [← hVk, hsame.1, hk, hWk]
    have hVW : V = W := by
      have hview : V ∈ (view key k s).workers := List.mem_filter.mpr ⟨hV, by simpa using hVk⟩
      rwa [hone, List.mem_singleton] at hview
    refine ⟨W', List.mem_map.mpr ⟨V, hV, if_pos hsame⟩, hsame.1.symm.trans hVk, hW' ?_⟩
    rw [← hVW]
    exact hdead
  · exact ⟨V, List.mem_map.mpr ⟨V, hV, if_neg hsame⟩, hVk, hdead⟩

/-- A worker that died stays dead. -/
theorem Dead.step (hd : s.Dead k) (hlane : Lane cap k (view key k s))
    (hs : KeyedQueue.step key cap s l = some s') : s'.Dead k := by
  cases l with
  | enter id task =>
    simp only [KeyedQueue.step, enterStep] at hs
    split_ifs at hs
    split at hs
    · cases hs
      exact hd
    · cases hs
      obtain ⟨W, hW, hdead⟩ := hd
      exact ⟨W, List.mem_append_left _ hW, hdead⟩
  | send k' id =>
    simp only [KeyedQueue.step, sendStep] at hs
    split at hs
    · cases hs
    · next p hp =>
      split at hs
      · cases hs
      · next W hW =>
        split_ifs at hs
        · cases hs
          exact hd
        · have hs' : s'.workers = s.setWorker { W with queue := W.queue ++ [p.item] } := by
            rw [← Option.some.inj hs]
          exact dead_set hs' hd hlane hW (fun h => h) rfl
  | recv k' w =>
    simp only [KeyedQueue.step, recvStep] at hs
    split at hs
    · next name k'' item queue hW =>
      have hs' : s'.workers = s.setWorker ⟨name, k'', queue, .busy item⟩ := by
        rw [← Option.some.inj hs]
      exact dead_set hs' hd hlane hW (by simp) rfl
    · cases hs
  | finish k' w =>
    simp only [KeyedQueue.step, finishStep] at hs
    split at hs
    · next name k'' queue item hW =>
      have hs' : s'.workers = s.setWorker ⟨name, k'', queue, .idle⟩ := by
        rw [← Option.some.inj hs]
      exact dead_set hs' hd hlane hW (by simp) rfl
    · cases hs
  | crash k' w =>
    simp only [KeyedQueue.step, crashStep] at hs
    split at hs
    · next name k'' queue item hW =>
      have hs' : s'.workers = s.setWorker ⟨name, k'', [], .dead⟩ := by
        rw [← Option.some.inj hs]
      exact dead_set hs' hd hlane hW (by simp) rfl
    · cases hs

theorem dead_crash (hs : crashStep s k w = some s') : s'.Dead k := by
  unfold crashStep at hs
  split at hs
  · next name k' queue item hW =>
    cases hs
    obtain ⟨hmem, hk, hn⟩ := findWorker_eq_some hW
    exact ⟨⟨name, k', [], .dead⟩, List.mem_map.mpr ⟨_, hmem, if_pos ⟨rfl, rfl⟩⟩, hk, rfl⟩
  · cases hs

/-! ## Served tasks -/

variable (key) in
/-- The tasks of a key that were executed, in order. -/
def State.served (s : State κ τ) (k : κ) : List (Item τ) := items .finished (view key k s).log

theorem served_append {e : Event τ} (hl : s'.log = s.log ++ [e]) :
    s'.served key k = s.served key k ++
      if e.kind = .finished ∧ key e.item.task = k then [e.item] else [] := by
  simp only [State.served, view, hl, List.filter_append]
  by_cases hk : key e.item.task = k
  · simp [hk, items_append]
  · simp [hk]

theorem items_finished_execs (log : List (Event τ)) :
    items .finished log = items .finished (execs log) := by
  rw [items, items, execs, List.filter_filter]
  refine congrArg _ (List.filter_congr fun e _ => ?_)
  cases e.kind <;> rfl

theorem items_finished_runs (done : List (Item τ)) : items .finished (runs done) = done := by
  induction done with
  | nil => rfl
  | cons i done ih =>
    have hcons : runs (i :: done) = ⟨.started, i⟩ :: ⟨.finished, i⟩ :: runs done := rfl
    rw [hcons]
    simpa [items] using ih

/-- While its worker is alive, the accepted tasks of a key are the executed ones and
    then the ones it holds. -/
theorem accepted_eq (hlane : Lane cap k (view key k s)) (ha : s.Alive) :
    items .accepted (view key k s).log = s.served key k ++ (view key k s).held := by
  unfold State.served State.held
  cases hlane with
  | closed he hw hp hl => simp [hl, hw, items]
  | opened W he hw hk hp hq hserved =>
    rw [hw, items_finished_execs]
    have hmem : W ∈ s.workers := by
      have hview : W ∈ (view key k s).workers := by simp [hw]
      exact (List.mem_filter.mp hview).1
    cases hserved with
    | idle done hph hacc hexec =>
      rw [hexec, items_finished_runs, hacc]
      simp [Worker.held, hph, Phase.item]
    | busy done i hph hacc hexec =>
      have hfin : items .finished (runs done ++ [⟨.started, i⟩]) = done := by
        rw [items_append, items_finished_runs]
        simp
      rw [hexec, hfin, hacc]
      simp [Worker.held, hph, Phase.item]
    | dead done i rest hph hacc hexec => exact absurd hph (ha W hmem)

/-- The worker of a key is the one its entry names. -/
theorem entry_of_findWorker (hlane : Lane cap k (view key k s)) (hf : s.findWorker k w = some W) :
    s.entry k = some w := by
  have hview : (view key k s).findWorker k w = some W := (findWorker_view k w).trans hf
  cases hlane with
  | closed he hw hp hl =>
    have hmem := (findWorker_eq_some hview).1
    rw [hw] at hmem
    cases hmem
  | opened V he hw hk hp hq hserved =>
    obtain ⟨rfl, rfl⟩ := findWorker_single hw hview
    simpa [view] using he

theorem key_of_busy {i : Item τ} (hK : Keyed key s) (hb : s.busy k w = some i) : key i.task = k := by
  obtain ⟨W, hW, hi⟩ := Option.bind_eq_some_iff.mp hb
  obtain ⟨hmem, hk, -⟩ := findWorker_eq_some hW
  rw [← hk]
  refine (hK W hmem).2 i ?_
  cases hph : W.phase with
  | idle => rw [hph] at hi; cases hi
  | busy j => rw [hph] at hi; rw [Option.some.inj hi]
  | dead => rw [hph] at hi; cases hi

/-- Only a submit that finds no worker makes an entry. -/
theorem entry_of_step (hs : step key cap s l = some s') (hl : ∀ id task, l ≠ .enter id task) :
    s'.entry = s.entry := by
  cases l with
  | enter id task => exact absurd rfl (hl id task)
  | send k id =>
    simp only [KeyedQueue.step, sendStep] at hs
    split at hs
    · cases hs
    · split at hs
      · cases hs
      · split_ifs at hs <;> cases hs <;> rfl
  | recv k w =>
    simp only [KeyedQueue.step, recvStep] at hs
    split at hs <;> cases hs
    rfl
  | finish k w =>
    simp only [KeyedQueue.step, finishStep] at hs
    split at hs <;> cases hs
    rfl
  | crash k w =>
    simp only [KeyedQueue.step, crashStep] at hs
    split at hs <;> cases hs
    rfl

theorem entry_enter (hs : enterStep key s id task = some s') (hk : s.entry k = some w) :
    s'.entry k = some w := by
  unfold enterStep at hs
  split_ifs at hs
  split at hs
  · cases hs
    exact hk
  · next hnone =>
    cases hs
    have hne : k ≠ key task := by
      rintro rfl
      rw [hnone] at hk
      cases hk
    exact (Function.update_of_ne hne _ _).trans hk

/-- The log only grows. -/
theorem log_prefix (hs : step key cap s l = some s') : s.log <+: s'.log := by
  cases l with
  | enter id task =>
    simp only [KeyedQueue.step, enterStep] at hs
    split_ifs at hs
    split at hs <;> cases hs <;> exact List.prefix_rfl
  | send k id =>
    simp only [KeyedQueue.step, sendStep] at hs
    split at hs
    · cases hs
    · split at hs
      · cases hs
      · split_ifs at hs <;> cases hs <;> exact List.prefix_append _ _
  | recv k w =>
    obtain ⟨item, -, hl, -⟩ := busy_recv hs
    exact ⟨_, hl.symm⟩
  | finish k w =>
    obtain ⟨item, -, hl, -⟩ := busy_finish hs
    exact ⟨_, hl.symm⟩
  | crash k w =>
    obtain ⟨item, -, hl, -⟩ := busy_crash hs
    exact ⟨[], by rw [hl, List.append_nil]⟩

/-- No worker of the key refuses tasks. -/
def State.Accepts (cap : ℕ) (s : State κ τ) (k : κ) : Prop :=
  ∀ W ∈ s.workers, W.key = k → W.refuses cap = false

instance (s : State κ τ) (k : κ) : Decidable (s.Accepts cap k) :=
  inferInstanceAs (Decidable (∀ W ∈ s.workers, _))

omit [DecidableEq κ] in
theorem refuses_eq_false (hph : W.phase ≠ .dead) :
    W.refuses cap = false ↔ W.queue.length < cap := by
  unfold Worker.refuses
  cases h : W.phase with
  | idle => simp
  | busy i => simp
  | dead => exact absurd h hph

/-- A key whose worker is alive accepts tasks while fewer than `cap` are waiting. -/
theorem accepts_of_alive (ha : s.Alive) (hlt : s.waiting key k < cap) : s.Accepts cap k := by
  intro W hW hk
  have hmem : W ∈ (view key k s).workers := List.mem_filter.mpr ⟨hW, by simpa using hk⟩
  rw [refuses_eq_false (ha W hW)]
  refine lt_of_le_of_lt ?_ hlt
  exact List.single_le_sum (by simp) _ (List.mem_map_of_mem hmem)

omit [DecidableEq κ] in
theorem not_accepts_of_dead (hd : s.Dead k) : ¬ s.Accepts cap k := by
  obtain ⟨W, hW, hk, hdead⟩ := hd
  intro h
  have hno := h W hW hk
  simp [Worker.refuses, hdead] at hno

/-! ## Steps that can be taken -/

theorem exists_recv (hW : s.findWorker k w = some W) (hph : W.phase = .idle) (hq : W.queue ≠ []) :
    ∃ s', recvStep s k w = some s' := by
  obtain ⟨name, k', queue, phase⟩ := W
  obtain rfl : phase = .idle := hph
  cases queue with
  | nil => exact absurd rfl hq
  | cons i queue => exact ⟨_, by rw [recvStep, hW]⟩

theorem exists_finish {i : Item τ} (hb : s.busy k w = some i) :
    (∃ s', finishStep s k w = some s') ∧ ∃ s', crashStep s k w = some s' := by
  obtain ⟨⟨name, k', queue, phase⟩, hW, hi⟩ := Option.bind_eq_some_iff.mp hb
  cases phase with
  | idle => cases hi
  | busy j => exact ⟨⟨_, by rw [finishStep, hW]⟩, ⟨_, by rw [crashStep, hW]⟩⟩
  | dead => cases hi

/-! ## Submits -/

variable (key cap) in
/-- Both steps of a submit, and whether the task was accepted. -/
def submit [DecidableEq τ] (s : State κ τ) (id : ℕ) (task : τ) : Option (State κ τ × Bool) := do
  let s ← step key cap s (.enter id task)
  let s ← step key cap s (.send (key task) id)
  return (s, s.log.getLast? == some ⟨.accepted, ⟨id, task⟩⟩)

theorem enter_spec (cap : ℕ) (hs : enterStep key s id task = some s') :
    s'.log = s.log ∧ (∃ w, s'.pending = s.pending ++ [⟨⟨id, task⟩, w⟩]) ∧
      (0 < cap → (s'.Accepts cap (key task) ↔ s.Accepts cap (key task))) := by
  unfold enterStep at hs
  split_ifs at hs
  split at hs
  · cases hs
    exact ⟨rfl, ⟨_, rfl⟩, fun _ => Iff.rfl⟩
  · cases hs
    refine ⟨rfl, ⟨_, rfl⟩, fun hcap => ⟨fun h W hW => h W (List.mem_append_left _ hW), ?_⟩⟩
    intro h W hW hk
    rcases List.mem_append.mp hW with hW | hW
    · exact h W hW hk
    · rw [List.mem_singleton.mp hW]
      simp [Worker.refuses, Nat.pos_iff_ne_zero.mp hcap]

variable [DecidableEq τ]

/-- A submit is accepted if no worker of its key refuses it, and then adds its task;
    otherwise it changes nothing that is held. -/
theorem submit_spec {accepted : Bool} (hcap : 0 < cap)
    (hreach : Reachable (step key cap) State.init s) (hp : s.pending = [])
    (hs : submit key cap s id task = some (s', accepted)) :
    s'.pending = [] ∧ (accepted = true ↔ s.Accepts cap (key task)) ∧
      (∃ kind, kind ≠ .finished ∧ s'.log = s.log ++ [⟨kind, ⟨id, task⟩⟩]) ∧
      (accepted = true → s'.held.Perm (s.held ++ [⟨id, task⟩])) ∧
      (accepted = false → s'.held = s.held) := by
  simp only [submit, Option.bind_eq_bind, Option.bind_eq_some_iff, Option.pure_def,
    Option.some.injEq, Prod.mk.injEq] at hs
  obtain ⟨s₁, h₁, s₂, h₂, rfl, hacc⟩ := hs
  obtain ⟨hlog, ⟨w, hpend⟩, haccepts⟩ := enter_spec cap h₁
  have hlane := ((lanes_of_reachable (hreach.next trivial h₁)).2 (key task)).1
  obtain ⟨p, W, hfind, hW, hdrop, hcase⟩ := held_send hlane h₂
  have hpitem : p.item = ⟨id, task⟩ := by
    have hmem := (findPending_eq_some hfind).1
    rw [hpend, hp, List.nil_append, List.mem_singleton] at hmem
    rw [hmem]
  have hone := one_worker hlane hW
  have hiff : s₁.Accepts cap (key task) ↔ W.refuses cap = false := by
    constructor
    · exact fun h => h W (findWorker_eq_some hW).1 (findWorker_eq_some hW).2.1
    · intro h V hV hk
      have hmem : V ∈ (view key (key task) s₁).workers := List.mem_filter.mpr ⟨hV, by simpa using hk⟩
      rw [hone, List.mem_singleton] at hmem
      rw [hmem]
      exact h
  have hpending : s₂.pending = [] := by
    rw [hdrop, State.dropPending, hpend, hp]
    simp
  rw [← haccepts hcap, hiff, ← hlog]
  rw [← held_enter h₁]
  rcases hcase with ⟨href, hheld, -, hlog'⟩ | ⟨href, hheld, hlog'⟩
  · obtain rfl : accepted = false := by simp [← hacc, hlog']
    refine ⟨hpending, by simp [href], ⟨.rejected, by simp, hpitem ▸ hlog'⟩, by simp, fun _ => hheld⟩
  · obtain rfl : accepted = true := by simp [← hacc, hlog', hpitem]
    refine ⟨hpending, by simp [href], ⟨.accepted, by simp, hpitem ▸ hlog'⟩, fun _ => hpitem ▸ hheld, by simp⟩

theorem busy_submit {accepted : Bool} (hs : submit key cap s id task = some (s', accepted)) (k : κ)
    (w : ℕ) : s'.busy k w = s.busy k w := by
  simp only [submit, Option.bind_eq_bind, Option.bind_eq_some_iff, Option.pure_def,
    Option.some.injEq, Prod.mk.injEq] at hs
  obtain ⟨s₁, h₁, s₂, h₂, rfl, -⟩ := hs
  rw [busy_send h₂, busy_enter h₁]

theorem entry_submit {accepted : Bool} (hs : submit key cap s id task = some (s', accepted))
    (hk : s.entry k = some w) : s'.entry k = some w := by
  simp only [submit, Option.bind_eq_bind, Option.bind_eq_some_iff, Option.pure_def,
    Option.some.injEq, Prod.mk.injEq] at hs
  obtain ⟨s₁, h₁, s₂, h₂, rfl, -⟩ := hs
  rw [entry_of_step h₂ nofun]
  exact entry_enter h₁ hk

theorem Alive.submit {accepted : Bool} (ha : s.Alive)
    (hs : submit key cap s id task = some (s', accepted)) : s'.Alive := by
  simp only [KeyedQueue.submit, Option.bind_eq_bind, Option.bind_eq_some_iff, Option.pure_def,
    Option.some.injEq, Prod.mk.injEq] at hs
  obtain ⟨s₁, h₁, s₂, h₂, rfl, -⟩ := hs
  have ha₁ : s₁.Alive := Alive.step ha (by simp) h₁
  exact Alive.step ha₁ (by simp) h₂

/-- A submit with a new id is answered. -/
theorem exists_submit (hreach : Reachable (step key cap) State.init s) (hp : s.pending = [])
    (hfresh : ∀ e ∈ s.log, e.item.id ≠ id) :
    ∃ s' accepted, submit key cap s id task = some (s', accepted) := by
  obtain ⟨s₁, h₁⟩ : ∃ s₁, enterStep key s id task = some s₁ := by
    have hf : s.Fresh key (key task) id := ⟨by simp [hp], fun e he _ => hfresh e he⟩
    unfold enterStep
    rw [if_pos hf]
    split
    · exact ⟨_, rfl⟩
    · exact ⟨_, rfl⟩
  obtain ⟨-, ⟨w, hpend⟩, -⟩ := enter_spec cap h₁
  rw [hp, List.nil_append] at hpend
  have hfind : s₁.findPending key (key task) id = some ⟨⟨id, task⟩, w⟩ := by
    simp [State.findPending, hpend]
  obtain ⟨W, hW⟩ : ∃ W, s₁.findWorker (key task) w = some W := by
    have hreach₁ : Reachable (step key cap) State.init s₁ :=
      hreach.next (l := .enter id task) trivial h₁
    have hmem : (⟨⟨id, task⟩, w⟩ : Pending τ) ∈ (view key (key task) s₁).pending := by
      simp [view, hpend]
    have hview : (view key (key task) s₁).findWorker (key task) w = s₁.findWorker (key task) w :=
      findWorker_view _ _
    rw [← hview]
    cases ((lanes_of_reachable hreach₁).2 (key task)).1 with
    | closed he hw hp' hl =>
      rw [hp'] at hmem
      cases hmem
    | opened W he hw hk hpw hq hserved =>
      have hname : W.name = w := (hpw _ hmem).symm
      exact ⟨W, by simp [State.findWorker, hw, hk, hname]⟩
  obtain ⟨s₂, h₂⟩ : ∃ s₂, sendStep key cap s₁ (key task) id = some s₂ := by
    simp only [sendStep, hfind, hW]
    split_ifs
    · exact ⟨_, rfl⟩
    · exact ⟨_, rfl⟩
  refine ⟨s₂, s₂.log.getLast? == some ⟨.accepted, ⟨id, task⟩⟩, ?_⟩
  simp only [submit, step, h₁, h₂, Option.bind_eq_bind, Option.bind_some, Option.pure_def]

/-- A submit to a key with one worker, that has not started: its queue takes the task unless it
    is full. -/
theorem submit_of_idle {queue : List (Item τ)} (hp : s.pending = [])
    (hfresh : ∀ e ∈ s.log, e.item.id ≠ id) (hentry : s.entry (key task) = some w)
    (hworkers : s.workers = [⟨w, key task, queue, .idle⟩]) :
    ∃ s', submit key cap s id task = some (s', decide (queue.length < cap)) ∧
      s'.entry = s.entry ∧
      s'.workers = [⟨w, key task, if queue.length < cap then queue ++ [⟨id, task⟩] else queue,
        .idle⟩] := by
  have hf : s.Fresh key (key task) id := ⟨by simp [hp], fun e he _ => hfresh e he⟩
  have henter : enterStep key s id task = some { s with pending := [⟨⟨id, task⟩, w⟩] } := by
    rw [enterStep, if_pos hf, hentry, hp]
    rfl
  have hpending : State.findPending key { s with pending := [⟨⟨id, task⟩, w⟩] } (key task) id =
      some ⟨⟨id, task⟩, w⟩ := by
    simp [State.findPending]
  have hworker : State.findWorker { s with pending := [⟨⟨id, task⟩, w⟩] } (key task) w =
      some ⟨w, key task, queue, .idle⟩ := by
    simp [State.findWorker, hworkers]
  simp only [submit, step, henter, sendStep, Option.bind_eq_bind, Option.bind_some, hpending,
    hworker]
  by_cases hfull : queue.length < cap
  · have hrefuses : Worker.refuses cap (⟨w, key task, queue, .idle⟩ : Worker κ τ) = false := by
      simpa [Worker.refuses] using hfull
    simp only [hrefuses, Bool.false_eq_true, if_false, Option.bind_some, if_pos hfull]
    refine ⟨_, congrArg some (Prod.ext rfl ?_), rfl, by simp [State.setWorker, hworkers]⟩
    simp [hfull]
  · have hrefuses : Worker.refuses cap (⟨w, key task, queue, .idle⟩ : Worker κ τ) = true := by
      simpa [Worker.refuses] using hfull
    simp only [hrefuses, if_true, Option.bind_some, if_neg hfull]
    refine ⟨_, congrArg some (Prod.ext rfl ?_), rfl, hworkers⟩
    simp [hfull]

end Ppb.KeyedQueue
