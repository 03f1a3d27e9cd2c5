import Ppb.Jobs.System

/-!
# Mutual exclusion of job runs

`start` relies on the partial unique index for exclusion: while the row of a
run is active, no second row with its key can become active. The index speaks
about rows, exclusion about tasks. The two agree as long as the row of a run
stays active until the task is done, which `tick_stage` and `run` do not
ensure: they write a terminal state while the task is still there, and `retry`
re-queues a row whose state it read two statements earlier.

Results:
* `single_run_of_reaches`: one run for each job, if every re-queueing `UPDATE`
  finds its row settled.
* `exclusive_of_reaches`: runs exclude each other by job and by key, if
  moreover no key is taken while a finished run still lingers on it.
* `not_exclusive_after_cancel`: without these conditions, two tasks of one job
  and one key.
-/

namespace Ppb.Jobs

open Ppb.Trace

variable {deployment : Deployment} {s s' : State} {l : Label}

/-! ## Statements -/

/-- The rows of the two jobs have the same nonempty `resource_key`. -/
def SameKey (rows : JobTable) (job job' : Uuid) : Prop :=
  ∃ a ∈ rows, ∃ b ∈ rows, a.id = job ∧ b.id = job' ∧ a.resourceKey = b.resourceKey ∧
    a.resourceKey ≠ ""

/-- At most one run task for each job id and for each nonempty key. -/
def Exclusive (s : State) : Prop :=
  s.runs.Pairwise fun x y => x.phase.isTask = true → y.phase.isTask = true →
    x.job ≠ y.job ∧ ¬ SameKey s.rows x.job y.job

/-- The row of `job` is still `failed` or `cancelled`, and the run that wrote
    this has ended. -/
def Settled (s : State) (job : Uuid) : Prop :=
  (∀ row ∈ s.rows, row.id = job → row.state.retryable = true) ∧
    ∀ x ∈ s.runs, x.job = job → x.phase.afterTerminal = false

/-- No run that has written a terminal state, and has not ended, holds `key`. -/
def KeyReleased (s : State) (key : String) : Prop :=
  ∀ x ∈ s.runs, x.phase.afterTerminal = true → ∀ row ∈ s.rows, row.id = x.job →
    row.resourceKey = key → key ≠ "" → row.state.active = true

/-- The re-queueing `UPDATE` of `retry` commits only on a settled row. -/
def RequeuesSettled (s : State) : Label → Prop
  | .retryReset job _ true =>
    (s.rows.update (fun r => r.id == job) requeue.apply).isSome = true → Settled s job
  | _ => True

/-- An `INSERT` of `start` or an `UPDATE` of `retry` commits only when its key
    is released. -/
def TakesReleasedKey (s : State) : Label → Prop
  | .start jobType id true =>
    match getDescriptor jobType with
    | some desc =>
      (s.rows.insert (newRow id jobType desc)).isSome = true →
        KeyReleased s (desc.resourceKey.getD "")
    | none => True
  | .retryReset job _ true =>
    (s.rows.update (fun r => r.id == job) requeue.apply).isSome = true →
      ∀ row ∈ s.rows, row.id = job → KeyReleased s row.resourceKey
  | _ => True

instance (rows : JobTable) (job job' : Uuid) : Decidable (SameKey rows job job') := by
  unfold SameKey; infer_instance

instance (s : State) : Decidable (Exclusive s) := by unfold Exclusive; infer_instance

instance (s : State) (job : Uuid) : Decidable (Settled s job) := by unfold Settled; infer_instance

instance (s : State) (key : String) : Decidable (KeyReleased s key) := by
  unfold KeyReleased; infer_instance

instance (s : State) (l : Label) : Decidable (RequeuesSettled s l) := by
  unfold RequeuesSettled; split <;> infer_instance

instance (s : State) (l : Label) : Decidable (TakesReleasedKey s l) := by
  unfold TakesReleasedKey; split <;> (try split) <;> infer_instance

/-! ## One run for each job -/

/-- Every run that has written no terminal state holds an active row, and no job
    has two runs. -/
structure SingleRun (s : State) : Prop where
  active : ∀ x ∈ s.runs, x.phase.afterTerminal = false → ∀ row ∈ s.rows, row.id = x.job →
    row.state.active = true
  job : ∀ x ∈ s.runs, ∀ y ∈ s.runs, x.job = y.job → x.id = y.id

theorem SingleRun.init (rows : JobTable) : SingleRun (State.init rows) :=
  ⟨by simp [State.init], by simp [State.init]⟩

/-- A run leaves the phases after a terminal write only by ending, and before
    them it only writes active states. -/
theorem move_active {x : Run} {l : RunLabel} {m : Move} (h : x.move deployment l = some m)
    (hp : m.phase.afterTerminal = false) :
    x.phase.afterTerminal = false ∧ ∀ w, m.write = some w → w.state.active = true := by
  cases move_moves h with
  | writeCancelled => cases hp
  | finish => cases hp
  | finishCancelled => cases hp
  | spawn h0 => rw [h0]; exact ⟨rfl, nofun⟩
  | markRunning h0 => rw [h0]; exact ⟨rfl, by rintro w ⟨⟩; rfl⟩
  | unknown e h0 => rw [h0]; exact ⟨rfl, nofun⟩
  | seen h0 => rw [h0]; exact ⟨rfl, nofun⟩
  | clear h0 => rw [h0]; exact ⟨rfl, nofun⟩
  | tick stage h0 => rw [h0]; exact ⟨rfl, by rintro w ⟨⟩; rfl⟩
  | refuse l e h0 => rw [h0]; exact ⟨rfl, nofun⟩
  | dispatch h0 => rw [h0]; exact ⟨rfl, nofun⟩
  | executed r r' h0 => rw [h0]; exact ⟨rfl, nofun⟩

/-- The new run of `enqueue` against the old ones: `hnew` says no run of this
    job was left. -/
theorem SingleRun.enqueue (h : SingleRun s) {rows : JobTable} {job : Uuid} {jobType : String}
    (hback : ∀ row' ∈ rows, row'.id ≠ job → row' ∈ s.rows)
    (hq : ∀ row ∈ rows, row.id = job → row.state.active = true)
    (hnew : ∀ x ∈ s.runs, x.job ≠ job) : SingleRun (s.enqueue rows job jobType) := by
  constructor
  · intro x hx hp row hrow hid
    rcases List.mem_append.mp hx with hx | hx
    · exact h.active x hx hp row (hback row hrow (hid ▸ hnew x hx)) hid
    · rw [List.mem_singleton.mp hx] at hid
      exact hq row hrow hid
  · intro x hx y hy hxy
    rcases List.mem_append.mp hx with hx | hx <;> rcases List.mem_append.mp hy with hy | hy
    · exact h.job x hx y hy hxy
    · rw [List.mem_singleton.mp hy] at hxy
      exact absurd hxy (hnew x hx)
    · rw [List.mem_singleton.mp hx] at hxy
      exact absurd hxy.symm (hnew y hy)
    · rw [List.mem_singleton.mp hx, List.mem_singleton.mp hy]

/-- Steps that keep the rows, the jobs of the runs, and which runs are past
    their terminal write. -/
theorem SingleRun.of_back (h : SingleRun s) (hrows : s'.rows = s.rows)
    (hback : ∀ y' ∈ s'.runs, ∃ y ∈ s.runs, y'.id = y.id ∧ y'.job = y.job ∧
      (y'.phase.afterTerminal = false → y.phase.afterTerminal = false)) : SingleRun s' := by
  constructor
  · intro x' hx' hp row hrow hid
    obtain ⟨x, hx, -, hjob, hph⟩ := hback x' hx'
    exact h.active x hx (hph hp) row (hrows ▸ hrow) (hid.trans hjob)
  · intro x' hx' y' hy' hxy
    obtain ⟨x, hx, hxid, hxjob, -⟩ := hback x' hx'
    obtain ⟨y, hy, hyid, hyjob, -⟩ := hback y' hy'
    rw [hxid, hyid]
    exact h.job x hx y hy (by rw [← hxjob, ← hyjob, hxy])

theorem SingleRun.advance (hw : Wf s) (h : SingleRun s) {x : Run} {l : RunLabel} {m : Move}
    {ok : Bool} (hx : x ∈ s.runs) (hm : x.move deployment l = some m) :
    SingleRun (s.advance x m ok) := by
  constructor
  · intro y' hy' hp row' hrow' hid
    obtain ⟨y, hy, ⟨hyx, rfl⟩ | ⟨hyx, rfl⟩⟩ := mem_advance hy'
    · -- the moving run: its row is rewritten with an active state, or kept
      obtain rfl := hw.eq_of_id hy hx hyx
      obtain ⟨hp0, hwr⟩ := move_active hm hp
      obtain ⟨row, hrow, hrid, ⟨w, hww, -, rfl⟩ | ⟨rfl, -⟩⟩ := row_advance hrow' hid
      · exact hwr w hww
      · exact h.active y hy hp0 row' hrow hrid
    · -- another run: by the invariant it is of another job
      obtain ⟨row, hrow, hrid, -, hkeep⟩ := (touched_advance s x m ok).back row' hrow'
      have hjob : row.id ≠ x.job := by
        rintro hrx
        exact hyx (h.job y' hy x hx (by rw [← hid, hrid, hrx]))
      rw [hkeep hjob] at hid ⊢
      exact h.active y' hy hp row hrow hid
  · intro y' hy' z' hz' hyz
    obtain ⟨y, hy, ⟨-, rfl⟩ | ⟨-, rfl⟩⟩ := mem_advance hy' <;>
      obtain ⟨z, hz, ⟨-, rfl⟩ | ⟨-, rfl⟩⟩ := mem_advance hz'
    · exact h.job y hy z hz hyz
    · exact h.job y hy z' hz hyz
    · exact h.job y' hy z hz hyz
    · exact h.job y' hy z' hz hyz

theorem Wf.job_ne_of_insert (hw : Wf s) {rows : JobTable} {id : Uuid} {jobType : String}
    {desc : JobDescriptor} (hi : s.rows.insert (newRow id jobType desc) = some rows) :
    ∀ x ∈ s.runs, x.job ≠ id := by
  intro x hx hxj
  obtain ⟨row, hrow, hid⟩ := hw.row x hx
  exact (Table.compat_of_insert hi hrow).1 (hid.trans hxj)

/-- A run of a settled job would hold an active row. -/
theorem SingleRun.job_ne_of_settled (hw : Wf s) (h : SingleRun s) {job : Uuid}
    (hset : Settled s job) : ∀ x ∈ s.runs, x.job ≠ job := by
  intro x hx hxj
  obtain ⟨row, hrow, hid⟩ := hw.row x hx
  have h1 := h.active x hx (hset.2 x hx hxj) row hrow hid
  rw [retryable_not_active (hset.1 row hrow (hid.trans hxj))] at h1
  cases h1

theorem SingleRun.step (hw : Wf s) (h : SingleRun s) (hok : RequeuesSettled s l)
    (hs : step deployment s l = some s') : SingleRun s' := by
  cases step_effect hs with
  | request l calls hc => exact ⟨h.active, h.job⟩
  | start jobType id desc rows hc hi =>
    refine h.enqueue (mem_of_insert hi) ?_ (hw.job_ne_of_insert hi)
    intro row hrow hid
    rcases (Table.mem_insert hi).mp hrow with hr | rfl
    · exact absurd hid (Table.compat_of_insert hi hr).1
    · rfl
  | reset job jobType rows hc hu =>
    have h0 : SingleRun { s with calls := s.calls.erase (.retryFree job jobType) } :=
      ⟨h.active, h.job⟩
    refine h0.enqueue (mem_of_requeue hu) ?_ (h.job_ne_of_settled hw (hok (by rw [hu]; rfl)))
    intro row' hrow' hid
    obtain ⟨row, hrow, rfl⟩ := (mem_rewrite hu).mp hrow'
    split_ifs at hid ⊢ with hj
    · rfl
    · exact absurd hid hj
  | register x hx hp =>
    refine h.of_back rfl fun y' hy' => ?_
    obtain ⟨y, hy, ⟨hyx, rfl⟩ | ⟨-, rfl⟩⟩ := mem_advance hy'
    · obtain rfl := hw.eq_of_id hy hx hyx
      exact ⟨y, hy, rfl, rfl, fun _ => by rw [hp]; rfl⟩
    · exact ⟨y', hy, rfl, rfl, id⟩
  | drop x hx hp =>
    exact h.of_back rfl fun y' hy' => ⟨y', (List.mem_filter.mp hy').1, rfl, rfl, id⟩
  | run x l m ok hx hm => exact h.advance hw hx hm
  | remove x hx hp =>
    exact h.of_back rfl fun y' hy' => ⟨y', (List.mem_filter.mp hy').1, rfl, rfl, id⟩
  | store job run hc =>
    refine h.of_back rfl fun y' hy' => ?_
    obtain ⟨y, hy, rfl⟩ := List.mem_map.mp hy'
    refine ⟨y, hy, ?_⟩
    split_ifs <;> exact ⟨rfl, rfl, id⟩
  | restart => exact h.of_back rfl (by simp [State.restart])

/-- **One run for each job** in every run whose re-queueing statements find
    their rows settled. -/
theorem single_run_of_reaches {rows : JobTable}
    (h : Reaches (step deployment) RequeuesSettled (State.init rows) s) : Wf s ∧ SingleRun s :=
  h.invariant (I := fun s => Wf s ∧ SingleRun s) ⟨.init rows, .init rows⟩
    fun _ _ _ hi hok hs => ⟨hi.1.step hs, hi.2.step hi.1 hok hs⟩

/-! ## One run for each key -/

/-- No two runs have rows with the same key. -/
def SingleKey (s : State) : Prop :=
  ∀ x ∈ s.runs, ∀ y ∈ s.runs, SameKey s.rows x.job y.job → x.id = y.id

theorem SameKey.symm {t : JobTable} {j j' : Uuid} (h : SameKey t j j') : SameKey t j' j := by
  obtain ⟨a, ha, b, hb, h1, h2, h3, h4⟩ := h
  exact ⟨b, hb, a, ha, h2, h1, h3.symm, h3 ▸ h4⟩

theorem SameKey.of_touched {t t' : JobTable} {job j j' : Uuid} (h : Touched job t t')
    (hk : SameKey t' j j') : SameKey t j j' := by
  obtain ⟨a', ha', b', hb', rfl, rfl, h3, h4⟩ := hk
  obtain ⟨a, ha, haid, hakey, -⟩ := h.back a' ha'
  obtain ⟨b, hb, hbid, hbkey, -⟩ := h.back b' hb'
  exact ⟨a, ha, b, hb, haid.symm, hbid.symm, by rw [← hakey, ← hbkey, h3], hakey ▸ h4⟩

theorem SingleKey.of_back (h : SingleKey s)
    (hrows : ∀ j j', SameKey s'.rows j j' → SameKey s.rows j j')
    (hback : ∀ y' ∈ s'.runs, ∃ y ∈ s.runs, y'.id = y.id ∧ y'.job = y.job) : SingleKey s' := by
  intro x' hx' y' hy' hk
  obtain ⟨x, hx, hxid, hxjob⟩ := hback x' hx'
  obtain ⟨y, hy, hyid, hyjob⟩ := hback y' hy'
  rw [hxid, hyid]
  exact h x hx y hy (hrows _ _ (hxjob ▸ hyjob ▸ hk))

theorem SingleKey.enqueue (h : SingleKey s) {rows : JobTable} {job : Uuid} {jobType : String}
    (hback : ∀ row' ∈ rows, row'.id ≠ job → row' ∈ s.rows) (hnew : ∀ x ∈ s.runs, x.job ≠ job)
    (hkey : ∀ x ∈ s.runs, ¬ SameKey rows x.job job) : SingleKey (s.enqueue rows job jobType) := by
  intro x hx y hy hk
  rcases List.mem_append.mp hx with hx | hx <;> rcases List.mem_append.mp hy with hy | hy
  · obtain ⟨a, ha, b, hb, h1, h2, h3⟩ := hk
    exact h x hx y hy ⟨a, hback a ha (h1 ▸ hnew x hx), b, hback b hb (h2 ▸ hnew y hy), h1, h2, h3⟩
  · rw [List.mem_singleton.mp hy] at hk
    exact absurd hk (hkey x hx)
  · rw [List.mem_singleton.mp hx] at hk
    exact absurd hk.symm (hkey y hy)
  · rw [List.mem_singleton.mp hx, List.mem_singleton.mp hy]

/-- A run whose key is released holds an active row. -/
theorem SingleRun.active_of_released (h : SingleRun s) {key : String} (hk : KeyReleased s key)
    {x : Run} (hx : x ∈ s.runs) {row : JobRow} (hrow : row ∈ s.rows) (hid : row.id = x.job)
    (hkey : row.resourceKey = key) (hne : key ≠ "") : row.state.active = true := by
  cases hp : x.phase.afterTerminal with
  | true => exact hk x hx hp row hrow hid hkey hne
  | false => exact h.active x hx hp row hrow hid

theorem SingleKey.step (hw : Wf s) (hr : SingleRun s) (h : SingleKey s)
    (hok : RequeuesSettled s l ∧ TakesReleasedKey s l) (hs : step deployment s l = some s') :
    SingleKey s' := by
  cases step_effect hs with
  | request l calls hc => exact h
  | start jobType id desc rows hc hi =>
    have hkey : KeyReleased s (desc.resourceKey.getD "") := by
      have := hok.2
      rw [TakesReleasedKey, startCheck_ok hc] at this
      exact this (by rw [hi]; rfl)
    have hnew := hw.job_ne_of_insert hi
    refine h.enqueue (mem_of_insert hi) hnew ?_
    rintro x hx ⟨a, ha, b, hb, haid, hbid, h3, h4⟩
    have ha0 := mem_of_insert hi a ha (haid ▸ hnew x hx)
    obtain rfl : b = newRow id jobType desc :=
      row_unique hb ((Table.mem_insert hi).mpr (.inr rfl)) hbid
    have hactive := hr.active_of_released hkey hx ha0 haid h3 fun he => h4 (h3.trans he)
    exact (Table.compat_of_insert hi ha0).2 ⟨h3, h4, hactive, rfl⟩
  | reset job jobType rows hc hu =>
    have hnew := hr.job_ne_of_settled hw (hok.1 (by rw [hu]; rfl))
    refine SingleKey.enqueue (s := { s with calls := s.calls.erase (.retryFree job jobType) })
      h (mem_of_requeue hu) hnew ?_
    rintro x hx ⟨a, ha, b, hb, haid, hbid, h3, h4⟩
    have ha0 := mem_of_requeue hu a ha (haid ▸ hnew x hx)
    obtain ⟨row, hrow, rfl⟩ := (mem_rewrite hu).mp hb
    split_ifs at hb hbid h3 with hj
    · have hactive := hr.active_of_released (hok.2 (by rw [hu]; rfl) row hrow hj) hx ha0 haid h3
        fun he => h4 (h3.trans he)
      have hne : a ≠ requeue.apply row := by
        rintro rfl
        exact hnew x hx (haid.symm.trans hbid)
      exact (compat_of_mem ha hb hne).2 ⟨h3, h4, hactive, rfl⟩
    · exact hj hbid
  | register x hx hp =>
    refine h.of_back (fun _ _ => id) fun y' hy' => ?_
    obtain ⟨y, hy, ⟨-, rfl⟩ | ⟨-, rfl⟩⟩ := mem_advance hy'
    · exact ⟨y, hy, rfl, rfl⟩
    · exact ⟨y', hy, rfl, rfl⟩
  | drop x hx hp =>
    exact h.of_back (fun _ _ => id) fun y' hy' => ⟨y', (List.mem_filter.mp hy').1, rfl, rfl⟩
  | run x l m ok hx hm =>
    refine h.of_back (fun _ _ => .of_touched (touched_advance s x m ok)) fun y' hy' => ?_
    obtain ⟨y, hy, ⟨-, rfl⟩ | ⟨-, rfl⟩⟩ := mem_advance hy'
    · exact ⟨y, hy, rfl, rfl⟩
    · exact ⟨y', hy, rfl, rfl⟩
  | remove x hx hp =>
    exact h.of_back (fun _ _ => id) fun y' hy' => ⟨y', (List.mem_filter.mp hy').1, rfl, rfl⟩
  | store job run hc =>
    refine h.of_back (fun _ _ => id) fun y' hy' => ?_
    obtain ⟨y, hy, rfl⟩ := List.mem_map.mp hy'
    refine ⟨y, hy, ?_⟩
    split_ifs <;> exact ⟨rfl, rfl⟩
  | restart => exact h.of_back (fun _ _ => id) (by simp [State.restart])

/-- **Mutual exclusion**: in every run whose re-queueing statements find their
    rows settled, and whose statements take a key only once the run that held it
    has ended, no two run tasks share a job or a nonempty key. -/
theorem exclusive_of_reaches {rows : JobTable}
    (h : Reaches (step deployment) (fun s l => RequeuesSettled s l ∧ TakesReleasedKey s l)
      (State.init rows) s) : Exclusive s := by
  obtain ⟨hw, hr, hk⟩ :=
    h.invariant (I := fun s => Wf s ∧ SingleRun s ∧ SingleKey s)
      ⟨.init rows, .init rows, by simp [SingleKey, State.init]⟩
      fun _ _ _ hi hok hs =>
        ⟨hi.1.step hs, hi.2.1.step hi.1 hok.1 hs, hi.2.2.step hi.1 hi.2.1 hok hs⟩
  refine (List.pairwise_map.mp hw.distinct).imp_of_mem fun hx hy hne _ _ => ⟨?_, ?_⟩
  · exact fun hjob => hne (hr.job _ hx _ hy hjob)
  · exact fun hkey => hne (hk _ hx _ hy hkey)

/-- A job fails, its task ends, and the job is retried. -/
def failThenRetry : List Label :=
  [.start "pmp.update.check" 1#128 true, .register 0, .run 0 .spawn true, .run 0 .markRunning true,
    .run 0 .load true, .run 0 .tick true, .run 0 .dispatch true,
    .run 0 (.executed (.error "down")) true, .run 0 .finish true, .remove 0,
    .retryLookup 1#128, .retryCount 1#128 "pmp.update.check" (some "server"),
    .retryReset 1#128 "pmp.update.check" true, .register 1, .run 1 .spawn true]

theorem exclusive_after_retry :
    ∃ s, Reaches (step ⟨false, false⟩) (fun s l => RequeuesSettled s l ∧ TakesReleasedKey s l)
      (State.init Table.empty) s ∧ s.ended = [0] ∧ s.runs.map (·.job) = [1#128] ∧ Exclusive s := by
  have hrun : (runWhile (step ⟨false, false⟩)
      (fun s l => decide (RequeuesSettled s l ∧ TakesReleasedKey s l)) (State.init Table.empty)
      failThenRetry).any (fun s => decide (s.ended = [0] ∧ s.runs.map (·.job) = [1#128])) = true := by
    decide
  obtain ⟨s, hs, h0⟩ := exists_reaches_of_runWhile (fun _ _ h => of_decide_eq_true h) hrun
  obtain ⟨h1, h2⟩ := of_decide_eq_true h0
  exact ⟨s, hs, h1, h2, exclusive_of_reaches hs⟩

/-- A queued job is cancelled. Its task writes `cancelled`, and before it ends
    the job is retried. -/
def cancelThenRetry : List Label :=
  [.start "pmp.update.apply" 1#128 true, .register 0, .cancelLookup 1#128,
    .cancelStore 1#128 (some 0), .run 0 .spawn true, .run 0 .markRunning true, .run 0 .load true,
    .run 0 .writeCancelled true, .retryLookup 1#128,
    .retryCount 1#128 "pmp.update.apply" (some "server"),
    .retryReset 1#128 "pmp.update.apply" true, .register 1, .run 1 .spawn true]

/-- Two tasks of one job, which also hold one key, after `cancelThenRetry`. -/
theorem not_exclusive_after_cancel :
    ∃ s, Reachable (step ⟨false, false⟩) (State.init Table.empty) s ∧ ¬ Exclusive s := by
  have hrun : (runFrom (step ⟨false, false⟩) (State.init Table.empty) cancelThenRetry).any
      (fun s => decide (¬ Exclusive s)) = true := by
    decide
  obtain ⟨s, hs, h0⟩ := exists_reachable_of_runFrom hrun
  exact ⟨s, hs, of_decide_eq_true h0⟩

/-- Two retries of one failed job that both look it up before either re-queues
    it: the second `UPDATE` finds its row no longer settled. -/
def doubleRetry : List Label :=
  failThenRetry.take 10 ++
    [.retryLookup 1#128, .retryLookup 1#128,
      .retryCount 1#128 "pmp.update.check" (some "server"),
      .retryCount 1#128 "pmp.update.check" (some "server"),
      .retryReset 1#128 "pmp.update.check" true, .retryReset 1#128 "pmp.update.check" true,
      .register 1, .run 1 .spawn true, .register 2, .run 2 .spawn true]

example : (runFrom (step ⟨false, false⟩) (State.init Table.empty) doubleRetry).any
    (fun s => decide (¬ Exclusive s)) = true := by
  decide

end Ppb.Jobs
