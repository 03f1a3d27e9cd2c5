import Ppb.Jobs.System

/-!
# Active rows and the runs that finish them

A row stays `queued` or `running` until a run writes another state, so an
active row needs a run that will still do so. The runner gives it one when it
queues the row, and forgets it in three ways: the process restarts (nothing
reads the rows again), the request that queued it is dropped before it spawned
the task, or the last `update_state` of the task fails and is ignored.
`State.lost` records exactly these.

Results:
* `attended_of_reachable`: every other active row has such a run, and that run
  can always go on to a terminal state.
* `orphan_stays`: an active row without a run and without a pending retry
  keeps its state for ever.
* `orphan_after_restart`: a restart makes one.
-/

namespace Ppb.Jobs

open Ppb.Trace

variable {deployment : Deployment} {s s' : State} {l : Label}

/-- A run of `job` that has not made its last write. -/
def Attended (s : State) (job : Uuid) : Prop := ∃ x ∈ s.runs, x.job = job ∧ x.phase ≠ .finished

/-- Every active row that was not lost is attended. -/
def NoOrphan (s : State) : Prop :=
  ∀ row ∈ s.rows, row.state.active = true → row.id ∉ s.lost → Attended s row.id

theorem mem_activeJobs {rows : JobTable} {row : JobRow} (hrow : row ∈ rows)
    (h : row.state.active = true) : row.id ∈ activeJobs rows :=
  List.mem_map.mpr ⟨row, List.mem_filter.mpr ⟨hrow, h⟩, rfl⟩

theorem NoOrphan.init (rows : JobTable) : NoOrphan (State.init rows) :=
  fun _ hrow h hlost => absurd (mem_activeJobs hrow h) hlost

theorem NoOrphan.enqueue (h : NoOrphan s) {rows : JobTable} {job : Uuid} {jobType : String}
    (hback : ∀ row' ∈ rows, row'.id ≠ job → row' ∈ s.rows) :
    NoOrphan (s.enqueue rows job jobType) := by
  intro row hrow hact hlost
  by_cases hid : row.id = job
  · exact ⟨_, List.mem_append_right _ (List.mem_singleton_self _), hid.symm, nofun⟩
  · have hlost' : row.id ∉ s.lost := fun hl => hlost (List.mem_filter.mpr ⟨hl, by simpa using hid⟩)
    obtain ⟨x, hx, hjob, hp⟩ := h row (hback row hrow hid) hact hlost'
    exact ⟨x, List.mem_append_left _ hx, hjob, hp⟩

/-- The last write of a run sets a terminal state or is recorded as lost. -/
theorem row_finished {x : Run} {l : RunLabel} {m : Move} {ok : Bool}
    (hm : x.move deployment l = some m) (hp : m.phase = .finished) {row' : JobRow}
    (hrow' : row' ∈ (s.advance x m ok).rows) (hid : row'.id = x.job) :
    row'.state.active = false ∨ x.job ∈ (s.advance x m ok).lost := by
  obtain ⟨row, hrow, hrid, ⟨w, hw, -, rfl⟩ | ⟨rfl, hno | hno⟩⟩ := row_advance hrow' hid
  · cases move_moves hm with
    | finish r => cases hw; exact .inl (finalWrite_active r)
    | finishCancelled => cases hw; exact .inl (finalWrite_active _)
    | _ => cases hp
  · cases move_moves hm with
    | finish r => cases hno
    | finishCancelled => cases hno
    | _ => cases hp
  · exact .inr (by simp [State.advance, hno, hp])

theorem NoOrphan.advance (hw : Wf s) (h : NoOrphan s) {x : Run} {l : RunLabel} {m : Move}
    {ok : Bool} (hx : x ∈ s.runs) (hm : x.move deployment l = some m) :
    NoOrphan (s.advance x m ok) := by
  intro row' hrow' hact hlost
  by_cases hid : row'.id = x.job
  · -- the row of the moving run, which goes on unless this was its last write
    refine ⟨{ x with phase := m.phase }, List.mem_map.mpr ⟨x, hx, if_pos rfl⟩, hid.symm, ?_⟩
    intro hp
    rcases row_finished hm hp hrow' hid with hf | hl
    · rw [hf] at hact
      cases hact
    · exact hlost (hid ▸ hl)
  · obtain ⟨row, hrow, hrid, -, hkeep⟩ := (touched_advance s x m ok).back row' hrow'
    obtain rfl := hkeep (hrid ▸ hid)
    have hlost' : row'.id ∉ s.lost := by
      intro hl
      refine hlost ?_
      simp only [State.advance]
      split_ifs
      · exact List.mem_cons_of_mem _ hl
      · exact hl
    obtain ⟨y, hy, hjob, hp⟩ := h row' hrow hact hlost'
    have hne : y.id ≠ x.id := by
      rintro hyx
      exact hid (by rw [← hjob, hw.eq_of_id hy hx hyx])
    exact ⟨y, List.mem_map.mpr ⟨y, hy, if_neg hne⟩, hjob, hp⟩

theorem NoOrphan.step (hw : Wf s) (h : NoOrphan s) (hs : step deployment s l = some s') :
    NoOrphan s' := by
  cases step_effect hs with
  | request l calls hc hr => exact h
  | start jobType id desc rows hc hi => exact h.enqueue (mem_of_insert hi)
  | reset job jobType rows hc hu =>
    exact NoOrphan.enqueue (s := { s with calls := _ }) h (mem_of_requeue hu)
  | register x hx hp =>
    intro row hrow hact hlost
    obtain ⟨y, hy, hjob, hph⟩ := h row hrow hact hlost
    refine ⟨_, List.mem_map.mpr ⟨y, hy, rfl⟩, ?_⟩
    split_ifs
    · exact ⟨hjob, nofun⟩
    · exact ⟨hjob, hph⟩
  | drop x hx hp =>
    intro row hrow hact hlost
    obtain ⟨hne, hlost'⟩ := not_or.mp (fun h => hlost (List.mem_cons.mpr h))
    obtain ⟨y, hy, hjob, hph⟩ := h row hrow hact hlost'
    refine ⟨y, List.mem_filter.mpr ⟨hy, ?_⟩, hjob, hph⟩
    exact decide_eq_true fun hyx => hne (by rw [← hjob, hw.eq_of_id hy hx hyx])
  | run x l m ok hx hm => exact h.advance hw hx hm
  | remove x hx hp =>
    intro row hrow hact hlost
    obtain ⟨y, hy, hjob, hph⟩ := h row hrow hact hlost
    refine ⟨y, List.mem_filter.mpr ⟨hy, ?_⟩, hjob, hph⟩
    exact decide_eq_true fun hyx => hph (by rw [hw.eq_of_id hy hx hyx, hp])
  | store job run hc =>
    intro row hrow hact hlost
    obtain ⟨y, hy, hjob, hph⟩ := h row hrow hact hlost
    refine ⟨_, List.mem_map.mpr ⟨y, hy, rfl⟩, ?_⟩
    split_ifs <;> exact ⟨hjob, hph⟩
  | restart =>
    exact fun row hrow hact hlost =>
      absurd (List.mem_append_left _ (mem_activeJobs hrow hact)) hlost

/-! ## An attended row can always be finished -/

/-- How many of its own steps a run is away from its last write. -/
def Phase.rank : Phase → ℕ
  | .committed => 9
  | .registered => 8
  | .spawned => 7
  | .starting => 6
  | .ticking => 5
  | .sleeping => 4
  | .executing => 3
  | .cancelSeen => 2
  | .finishing _ | .cancelWritten => 1
  | .finished => 0

theorem findRun_of_mem (hw : Wf s) {x : Run} (hx : x ∈ s.runs) : s.findRun x.id = some x := by
  cases hf : s.findRun x.id with
  | none => exact absurd (beq_self_eq_true x.id) (List.find?_eq_none.mp hf x hx)
  | some y =>
    obtain ⟨hy, hid⟩ := findRun_eq_some hf
    rw [hw.eq_of_id hy hx hid]

theorem step_run (hw : Wf s) {x : Run} (hx : x ∈ s.runs) {l : RunLabel} {m : Move} (ok : Bool)
    (hm : x.move deployment l = some m) :
    step deployment s (.run x.id l ok) = some (s.advance x m ok) := by
  simp [step, findRun_of_mem hw hx, hm]

/-- A spawned or about to be spawned run that is not at its last write has a
    next step of its own. -/
theorem exists_move (deployment : Deployment) {x : Run} (hd : (getDescriptor x.jobType).isSome) (h0 : x.phase ≠ .committed)
    (h1 : 1 < x.phase.rank) :
    ∃ l m, x.move deployment l = some m ∧ m.phase.rank < x.phase.rank ∧ 1 ≤ m.phase.rank := by
  obtain ⟨desc, hd⟩ := Option.isSome_iff_exists.mp hd
  cases hp : x.phase with
  | committed => exact absurd hp h0
  | registered => exact ⟨.spawn, _, by unfold Run.move; rw [hp], by decide, by decide⟩
  | spawned => exact ⟨.markRunning, _, by unfold Run.move; rw [hp], by decide, by decide⟩
  | starting =>
    refine ⟨.load, { phase := if x.flag then .cancelSeen else .ticking }, ?_, ?_⟩
    · unfold Run.move
      rw [hp]
      simp only [hd]
    · cases x.flag <;> decide
  | cancelSeen => exact ⟨.writeCancelled, _, by unfold Run.move; rw [hp], by decide, by decide⟩
  | ticking =>
    refine ⟨.tick, { phase := .sleeping, write := some ⟨.running, desc.stage, ""⟩ }, ?_, ?_⟩
    · simp [Run.move, hp, hd]
    · simp [Phase.rank]
  | sleeping =>
    refine ⟨.dispatch, dispatchMove deployment x.jobType desc, ?_, ?_⟩
    · simp [Run.move, hp, hd]
    · unfold dispatchMove
      split
      · decide
      · split_ifs <;> simp [Phase.rank]
  | executing =>
    refine ⟨.executed (.ok ()), { phase := .finishing (executeResult desc (.ok ())) }, ?_, ?_⟩
    · simp [Run.move, hp, hd]
    · simp [Phase.rank]
  | cancelWritten => rw [hp] at h1; exact absurd h1 (by decide)
  | finishing r => rw [hp] at h1; exact absurd h1 (Nat.lt_irrefl 1)
  | finished => rw [hp] at h1; exact absurd h1 (by decide)

/-- The last write, when it reaches the database, sets a terminal state. -/
theorem exists_last_write (hw : Wf s) {x : Run} (hx : x ∈ s.runs) (h1 : x.phase.rank = 1) :
    ∃ s', step deployment s (.run x.id .finish true) = some s' ∧
      ∀ row ∈ s'.rows, row.id = x.job → row.state.active = false := by
  obtain ⟨result, hm⟩ : ∃ result,
      x.move deployment .finish = some { phase := .finished, write := some (finalWrite result) } := by
    unfold Run.move
    cases hp : x.phase <;> rw [hp] at h1 <;> first | exact ⟨_, rfl⟩ | cases h1
  refine ⟨_, step_run hw hx true hm, fun row hrow hid => ?_⟩
  obtain ⟨row', -, -, ⟨w, hww, -, rfl⟩ | ⟨-, hno | hno⟩⟩ := row_advance hrow hid
  · cases hww
    exact finalWrite_active result
  · cases hno
  · obtain ⟨t, ht⟩ := terminal_write_commits s.rows x.job (finalWrite_active result)
    exact absurd (ht.symm.trans hno) nofun

/-- From every state, a run that has not made its last write has a continuation
    in which it does, and leaves its row in a terminal state. -/
theorem exists_finish (deployment : Deployment) (n : ℕ) : ∀ {s : State} {x : Run}, Wf s → x ∈ s.runs → x.phase.rank ≤ n →
    1 ≤ x.phase.rank → ∃ s', Reachable (step deployment) s s' ∧
      ∀ row ∈ s'.rows, row.id = x.job → row.state.active = false := by
  induction n with
  | zero => intro s x _ _ h0 h1; omega
  | succ n ih =>
    intro s x hw hx hn h1
    by_cases hlast : x.phase.rank = 1
    · obtain ⟨s', hs, hrow⟩ := exists_last_write hw hx hlast
      exact ⟨s', .next .start trivial hs, hrow⟩
    · -- one step of this run, and the induction hypothesis for the run after it
      obtain ⟨l, s₁, y, hs, hy, hjob, hlt, hy1⟩ : ∃ l s₁ y, step deployment s l = some s₁ ∧
          y ∈ s₁.runs ∧ y.job = x.job ∧ y.phase.rank < x.phase.rank ∧ 1 ≤ y.phase.rank := by
        by_cases h0 : x.phase = .committed
        · refine ⟨.register x.id, s.register x, { x with phase := .registered }, ?_,
            List.mem_map.mpr ⟨x, hx, if_pos rfl⟩, rfl, by simp [Phase.rank, h0], by simp [Phase.rank]⟩
          simp [step, findRun_of_mem hw hx, h0]
        · obtain ⟨l, m, hm, hlt, hm1⟩ := exists_move deployment (hw.known x hx) h0 (by omega)
          exact ⟨_, _, { x with phase := m.phase }, step_run hw hx true hm,
            List.mem_map.mpr ⟨x, hx, if_pos rfl⟩, rfl, hlt, hm1⟩
      obtain ⟨s', hs', hrow⟩ := ih (hw.step hs) hy (by omega) hy1
      exact ⟨s', (Reaches.next .start trivial hs).trans hs', hjob ▸ hrow⟩

theorem rank_pos {p : Phase} (h : p ≠ .finished) : 1 ≤ p.rank := by
  cases p <;> first | decide | exact absurd rfl h | exact Nat.le_refl 1

/-- **No orphan but the lost ones**: in every reachable state an active row that
    was not lost has a run in this process that has not made its last write, and
    the process can go on from there so that the row reaches a terminal state. -/
theorem attended_of_reachable {rows : JobTable}
    (h : Reachable (step deployment) (State.init rows) s) :
    ∀ row ∈ s.rows, row.state.active = true → row.id ∉ s.lost →
      Attended s row.id ∧ ∃ s', Reachable (step deployment) s s' ∧
        ∀ row' ∈ s'.rows, row'.id = row.id → row'.state.active = false := by
  obtain ⟨hw, hn⟩ := h.invariant (I := fun s => Wf s ∧ NoOrphan s) ⟨.init rows, .init rows⟩
    fun _ _ _ hi _ hs => ⟨hi.1.step hs, hi.2.step hi.1 hs⟩
  intro row hrow hact hlost
  obtain ⟨x, hx, hjob, hp⟩ := hn row hrow hact hlost
  obtain ⟨s', hs', hfin⟩ := exists_finish deployment _ hw hx le_rfl (rank_pos hp)
  exact ⟨⟨x, hx, hjob, hp⟩, s', hs', hjob ▸ hfin⟩

theorem attended_after_start :
    ∃ s, Reachable (step ⟨false, false⟩) (State.init Table.empty) s ∧ ∃ row ∈ s.rows,
      row.state.active = true ∧ row.id ∉ s.lost ∧ Attended s row.id ∧
        ∃ s', Reachable (step ⟨false, false⟩) s s' ∧
          ∀ row' ∈ s'.rows, row'.id = row.id → row'.state.active = false := by
  have hrun : (runFrom (step ⟨false, false⟩) (State.init Table.empty)
      [.start "pmp.update.apply" 1#128 true, .register 0, .run 0 .spawn true]).any
      (fun s => decide (∃ row ∈ s.rows, row.state.active = true ∧ row.id ∉ s.lost)) = true := by
    decide
  obtain ⟨s, hs, h0⟩ := exists_reachable_of_runFrom hrun
  obtain ⟨row, hrow, hact, hlost⟩ := of_decide_eq_true h0
  exact ⟨s, hs, row, hrow, hact, hlost, attended_of_reachable hs row hrow hact hlost⟩

/-! ## An orphan stays one -/

/-- The row `row` is active, no run is left for it and no retry of it is under
    way. -/
structure Orphan (s : State) (row : JobRow) : Prop where
  mem : row ∈ s.rows
  active : row.state.active = true
  runs : ∀ x ∈ s.runs, x.job ≠ row.id
  calls : ∀ c ∈ s.calls, ¬ c.Retries row.id

theorem Orphan.enqueue {row : JobRow} (h : Orphan s row) {rows : JobTable} {job : Uuid}
    {jobType : String} (hrow : row ∈ rows) (hne : row.id ≠ job) :
    Orphan (s.enqueue rows job jobType) row := by
  refine ⟨hrow, h.active, fun x hx => ?_, h.calls⟩
  rcases List.mem_append.mp hx with hx | hx
  · exact h.runs x hx
  · rw [List.mem_singleton.mp hx]
    exact hne.symm

theorem Orphan.step {row : JobRow} (h : Orphan s row) (hs : step deployment s l = some s') :
    Orphan s' row := by
  cases step_effect hs with
  | request l calls hc hr =>
    refine ⟨h.mem, h.active, h.runs, fun c hc' hret => ?_⟩
    rcases hr row.id c hc' hret with ⟨c', hc', hret'⟩ | ⟨row', hrow', hid, hret'⟩
    · exact h.calls c' hc' hret'
    · -- a retry only starts from a row that is not active
      rw [row_unique hrow' h.mem hid] at hret'
      exact absurd (h.active.symm.trans (retryable_not_active hret')) nofun
  | start jobType id desc rows hc hi =>
    exact h.enqueue ((Table.mem_insert hi).mpr (.inl h.mem)) (Table.compat_of_insert hi h.mem).1
  | reset job jobType rows hc hu =>
    have hne : row.id ≠ job := fun hid => h.calls _ hc hid.symm
    refine Orphan.enqueue (s := { s with calls := s.calls.erase (.retryFree job jobType) })
      ⟨h.mem, h.active, h.runs, fun c hc' => h.calls c (List.mem_of_mem_erase hc')⟩ ?_ hne
    exact (mem_rewrite hu).mpr ⟨row, h.mem, by rw [if_neg hne]⟩
  | register x hx hp =>
    refine ⟨h.mem, h.active, fun y' hy' => ?_, h.calls⟩
    obtain ⟨y, hy, ⟨-, rfl⟩ | ⟨-, rfl⟩⟩ := mem_advance hy'
    · exact h.runs y hy
    · exact h.runs y' hy
  | drop x hx hp =>
    exact ⟨h.mem, h.active, fun y hy => h.runs y (List.mem_filter.mp hy).1, h.calls⟩
  | run x l m ok hx hm =>
    refine ⟨?_, h.active, fun y' hy' => ?_, h.calls⟩
    · -- the step of a run of another job
      obtain ⟨row', hrow', hid⟩ := (touched_advance s x m ok).forth row h.mem
      obtain ⟨row₀, hrow₀, hid₀, -, hkeep⟩ := (touched_advance s x m ok).back row' hrow'
      obtain rfl := row_unique hrow₀ h.mem (hid₀.symm.trans hid)
      rw [← hkeep (h.runs x hx).symm]
      exact hrow'
    · obtain ⟨y, hy, ⟨-, rfl⟩ | ⟨-, rfl⟩⟩ := mem_advance hy'
      · exact h.runs y hy
      · exact h.runs y' hy
  | remove x hx hp =>
    exact ⟨h.mem, h.active, fun y hy => h.runs y (List.mem_filter.mp hy).1, h.calls⟩
  | store job run hc =>
    refine ⟨h.mem, h.active, fun y' hy' => ?_, fun c hc' => h.calls c (List.mem_of_mem_erase hc')⟩
    obtain ⟨y, hy, rfl⟩ := List.mem_map.mp hy'
    split_ifs <;> exact h.runs y hy
  | restart => exact ⟨h.mem, h.active, by simp [State.restart], by simp [State.restart]⟩

/-- **An orphan stays one** in every continuation, restarts included. -/
theorem orphan_stays {row : JobRow} (h : Orphan s row) (hs : Reachable (Jobs.step deployment) s s') :
    Orphan s' row :=
  hs.invariant (I := fun s => Orphan s row) h fun _ _ _ hi _ hstep => hi.step hstep

/-- A job is running when the process restarts: its row stays `running` in
    every continuation, and no run will ever write it. -/
theorem orphan_after_restart :
    ∃ s, Reachable (step ⟨false, false⟩) (State.init Table.empty) s ∧ ∃ row ∈ s.rows,
      row.state.active = true ∧ ∀ s', Reachable (step ⟨false, false⟩) s s' →
        row ∈ s'.rows ∧ ¬ Attended s' row.id := by
  have hrun : (runFrom (step ⟨false, false⟩) (State.init Table.empty)
      [.start "pmp.update.apply" 1#128 true, .register 0, .run 0 .spawn true,
        .run 0 .markRunning true, .restart]).any
      (fun s => decide ((∃ row ∈ s.rows, row.state.active = true) ∧ s.runs = [] ∧ s.calls = [])) =
      true := by
    decide
  obtain ⟨s, hs, h0⟩ := exists_reachable_of_runFrom hrun
  obtain ⟨⟨row, hrow, hact⟩, hruns, hcalls⟩ := of_decide_eq_true h0
  have ho : Orphan s row := ⟨hrow, hact, by simp [hruns], by simp [hcalls]⟩
  refine ⟨s, hs, row, hrow, hact, fun s' hs' => ?_⟩
  have ho' := orphan_stays ho hs'
  exact ⟨ho'.mem, fun ⟨x, hx, hjob, _⟩ => ho'.runs x hx hjob⟩

end Ppb.Jobs
