import Ppb.Common.Trace
import Ppb.Common.Table
import Ppb.Jobs.Registry

/-!
# The job runner as a transition system (`jobs/runner.rs`)

The state is the `jobs` table together with what lives in memory: the run tasks,
the requests that are between two statements, and the map `cancels`. A step is
one database statement or one operation on shared memory. The label says which
party moves and how its environment answers: whether a statement reaches the
database, which id it generates, what the executor returns.

A run exists from the statement that (re-)queued its row, since from then on
the request is about to spawn its task. Fields after `next` are history: they
record what happened and no step reads them.

Results:
* `step_effect`: what a step can do, once for all invariants.
* `Wf.step`: identities are never reused, and every run has a row and a known type.

Deviation: the server has a database: the error of `require_db` is left out.
-/

namespace Ppb.Jobs

open Ppb.Trace

/-! ## Runs -/

/-- How far a run is (jobs/runner.rs:76-84 and 164-247). -/
inductive Phase where
  /-- the row is queued, `cancels.insert` comes next -/
  | committed
  /-- the flag is in `cancels`, `tokio::spawn` comes next -/
  | registered
  /-- the task exists and has done nothing -/
  | spawned
  /-- the row has been set to `running`/`starting` -/
  | starting
  /-- `tick_stage` loaded the flag and found it set -/
  | cancelSeen
  /-- `tick_stage` has written `cancelled` and returned the error `cancelled` -/
  | cancelWritten
  /-- `tick_stage` loaded the flag and found it clear -/
  | ticking
  /-- the descriptor's stage has been written; the task sleeps -/
  | sleeping
  /-- the executor command has been dispatched -/
  | executing
  /-- `execute` returned -/
  | finishing (result : Except String String)
  /-- the final state has been written, `cancels.remove` comes next -/
  | finished
  deriving DecidableEq

/-- The run's task has been spawned. -/
def Phase.isTask : Phase → Bool
  | .committed | .registered => false
  | _ => true

/-- The flag has not been loaded. -/
def Phase.beforeLoad : Phase → Bool
  | .committed | .registered | .spawned | .starting => true
  | _ => false

/-- A terminal state has been written and the task has not ended. -/
def Phase.afterTerminal : Phase → Bool
  | .cancelWritten | .finished => true
  | _ => false

/-- A run of a job. `flag` is the `AtomicBool` the task shares with `cancels`. -/
structure Run where
  id : ℕ
  job : Uuid
  jobType : String
  flag : Bool
  phase : Phase
  deriving DecidableEq

/-- The steps a task takes between `spawn` and `cancels.remove`. -/
inductive RunLabel where
  | spawn
  | markRunning
  | load
  | writeCancelled
  | tick
  | configFailed (error : String)
  | dispatch
  | executed (result : Except String Unit)
  | finish
  deriving DecidableEq

/-- The effect of a task's step: its next phase, the `update_state` it issues,
    and whether it dispatches the executor command. -/
structure Move where
  phase : Phase
  write : Option StateWrite := none
  dispatches : Bool := false
  deriving DecidableEq

/-- What `execute` makes of the executor's answer (jobs/runner.rs:207-228). -/
def executeResult (desc : JobDescriptor) : Except String Unit → Except String String
  | .ok () => .ok desc.terminal
  | .error e =>
    match desc.executor with
    | .fixedCli _ => .error s!"failed: {e}"
    | .deployment => .error e

/-- `execute` after `tick_stage` (jobs/runner.rs:207-228): `run_job` refuses a
    job whose command is not configured (deployment.rs:124-126). -/
def dispatchMove (deployment : Deployment) (jobType : String) (desc : JobDescriptor) : Move :=
  match desc.executor with
  | .fixedCli _ => { phase := .executing, dispatches := true }
  | .deployment =>
    if deployment.jobConfigured jobType then { phase := .executing, dispatches := true }
    else
      { phase := .finishing (.error
          s!"CAPABILITY_NOT_SUPPORTED: {jobType} deployment command is not configured") }

/-- One step of `run`/`execute`/`tick_stage` (jobs/runner.rs:164-247). -/
def Run.move (deployment : Deployment) (x : Run) (l : RunLabel) : Option Move :=
  match l, x.phase with
  | .spawn, .registered => some { phase := .spawned }
  | .markRunning, .spawned =>
    some { phase := .starting, write := some ⟨.running, "starting", ""⟩ }
  | .load, .starting =>
    match getDescriptor x.jobType with
    | none => some { phase := .finishing (.error s!"unknown job type: {x.jobType}") }
    | some _ => some { phase := if x.flag then .cancelSeen else .ticking }
  | .writeCancelled, .cancelSeen =>
    some { phase := .cancelWritten, write := some ⟨.cancelled, "cancelled", "cancelled"⟩ }
  | .tick, .ticking =>
    (getDescriptor x.jobType).map fun desc =>
      { phase := .sleeping, write := some ⟨.running, desc.stage, ""⟩ }
  | .configFailed e, .sleeping =>
    if x.jobType = "ppf.build" then
      some { phase := .finishing (.error s!"failed to load PPF build config: {e}") }
    else none
  | .dispatch, .sleeping => (getDescriptor x.jobType).map (dispatchMove deployment x.jobType)
  | .executed result, .executing =>
    (getDescriptor x.jobType).map fun desc => { phase := .finishing (executeResult desc result) }
  | .finish, .finishing result => some { phase := .finished, write := some (finalWrite result) }
  | .finish, .cancelWritten =>
    some { phase := .finished, write := some (finalWrite (.error "cancelled")) }
  | _, _ => none

/-! ## States -/

/-- A request between two of its statements. -/
inductive Call where
  /-- `retry` after its lookup; the `COUNT` of `ensure_resource_free` comes next -/
  | retryLooked (job : Uuid) (jobType : String) (resourceKey : Option String)
  /-- `retry` after `ensure_resource_free`; the re-queueing `UPDATE` comes next -/
  | retryFree (job : Uuid) (jobType : String)
  /-- `cancel` after its lookup saw `queued`, with the run that then existed -/
  | cancelQueued (job : Uuid) (run : Option ℕ)
  deriving DecidableEq

/-- The jobs table with its constraints. -/
abbrev JobTable := Table JobRow JobRow.Compat

structure State where
  rows : JobTable
  runs : List Run
  calls : List Call
  /-- `cancels`: an `Arc` is named by the run it was made for -/
  cancels : Uuid → Option ℕ
  next : ℕ
  /-- the latest run of each job -/
  owner : Uuid → Option ℕ
  /-- runs whose cancellation was answered with `Ok` -/
  cancelOk : List ℕ
  /-- runs that dispatched their executor command -/
  dispatched : List ℕ
  /-- runs whose task ended -/
  ended : List ℕ
  /-- jobs whose active row lost the run that would have finished it -/
  lost : List Uuid

/-- The jobs whose rows are active. -/
def activeJobs (rows : JobTable) : List Uuid := (rows.rows.filter (·.state.active)).map (·.id)

/-- A process that has just started over the rows it finds (`build_state`,
    app.rs:109-236, makes an empty runner). -/
def State.init (rows : JobTable) : State :=
  { rows := rows, runs := [], calls := [], cancels := fun _ => none, next := 0,
    owner := fun _ => none, cancelOk := [], dispatched := [], ended := [],
    lost := activeJobs rows }

namespace State

/-- The rows after an `update_state` of `job`; `none` if it had no effect
    because it failed on the way (`ok = false`) or violated the index. -/
def writeRow (rows : JobTable) (job : Uuid) (write : Option StateWrite) (ok : Bool) :
    Option JobTable :=
  match write with
  | none => some rows
  | some w => if ok then rows.update (fun r => r.id == job) w.apply else none

/-- A new run of `job`, whose row is now queued. -/
def enqueue (s : State) (rows : JobTable) (job : Uuid) (jobType : String) : State :=
  { s with
    rows := rows
    runs := s.runs ++ [⟨s.next, job, jobType, false, .committed⟩]
    next := s.next + 1
    owner := Function.update s.owner job (some s.next)
    lost := s.lost.filter (· ≠ job) }

/-- The run's step `m`; `ok` says whether its statement reached the database. -/
def advance (s : State) (x : Run) (m : Move) (ok : Bool) : State :=
  let written := writeRow s.rows x.job m.write ok
  { s with
    rows := written.getD s.rows
    runs := s.runs.map fun y => if y.id = x.id then { y with phase := m.phase } else y
    dispatched := if m.dispatches then x.id :: s.dispatched else s.dispatched
    lost := if m.phase = .finished ∧ written.isNone then x.job :: s.lost else s.lost }

/-- `cancels.insert(job, flag)`. -/
def register (s : State) (x : Run) : State :=
  { s with
    runs := s.runs.map fun y => if y.id = x.id then { y with phase := .registered } else y
    cancels := Function.update s.cancels x.job (some x.id) }

/-- The request is dropped after its statement committed and before it spawned
    the task. -/
def drop (s : State) (x : Run) : State :=
  { s with runs := s.runs.filter (·.id ≠ x.id), lost := x.job :: s.lost }

/-- `cancels.remove(&job_id)` and the end of the task (jobs/runner.rs:191). -/
def remove (s : State) (x : Run) : State :=
  { s with
    runs := s.runs.filter (·.id ≠ x.id)
    cancels := Function.update s.cancels x.job none
    ended := x.id :: s.ended }

/-- `flag.store(true)` through `cancels`, then `Ok(())` (jobs/runner.rs:101-105). -/
def storeFlag (s : State) (job : Uuid) (run : Option ℕ) : State :=
  { s with
    runs := s.runs.map fun y => if s.cancels job = some y.id then { y with flag := true } else y
    cancelOk := run.toList ++ s.cancelOk }

/-- The process dies and starts again over the same rows. -/
def restart (s : State) : State :=
  { s with
    runs := [], calls := [], cancels := fun _ => none
    lost := activeJobs s.rows ++ s.lost }

end State

/-! ## Steps -/

inductive Label where
  /-- the checks and the `INSERT` of `start`, with the generated id -/
  | start (jobType : String) (id : Uuid) (ok : Bool)
  | register (run : ℕ)
  | drop (run : ℕ)
  | run (run : ℕ) (l : RunLabel) (ok : Bool)
  | remove (run : ℕ)
  | retryLookup (job : Uuid)
  | retryCount (job : Uuid) (jobType : String) (resourceKey : Option String)
  | retryReset (job : Uuid) (jobType : String) (ok : Bool)
  | cancelLookup (job : Uuid)
  | cancelStore (job : Uuid) (run : Option ℕ)
  /-- a request is dropped, or one of its statements fails -/
  | abandon (call : Call)
  | restart
  deriving DecidableEq

/-- The row `create` inserts (jobs/mod.rs:29-53, defaults of migration 0001). -/
def newRow (id : Uuid) (jobType : String) (desc : JobDescriptor) : JobRow :=
  { id := id, type := jobType, state := .queued, stage := "", error := "",
    resourceKey := desc.resourceKey.getD "" }

/-- The run named `r`. -/
def State.findRun (s : State) (r : ℕ) : Option Run := s.runs.find? fun x => x.id == r

/-- The run that now exists for `job`. -/
def State.runOf (s : State) (job : Uuid) : Option ℕ :=
  (s.runs.find? fun x => x.job == job).map (·.id)

/-- One step. A request that returns an error leaves the state as it is. -/
def step (deployment : Deployment) (s : State) : Label → Option State
  | .start jobType id ok =>
    match startCheck deployment jobType with
    | .error _ => some s
    | .ok desc =>
      if ok then
        match s.rows.insert (newRow id jobType desc) with
        | some rows => some (s.enqueue rows id jobType)
        | none => some s
      else some s
  | .register r =>
    match s.findRun r with
    | some x => if x.phase = .committed then some (s.register x) else none
    | none => none
  | .drop r =>
    match s.findRun r with
    | some x => if x.phase = .committed then some (s.drop x) else none
    | none => none
  | .run r l ok =>
    match s.findRun r with
    | some x => (x.move deployment l).map fun m => s.advance x m ok
    | none => none
  | .remove r =>
    match s.findRun r with
    | some x => if x.phase = .finished then some (s.remove x) else none
    | none => none
  | .retryLookup job =>
    match lookupRow s.rows.rows job with
    | .error _ => some s
    | .ok row =>
      match retryCheck row with
      | .error _ => some s
      | .ok desc =>
        some { s with calls := .retryLooked job row.type desc.resourceKey :: s.calls }
  | .retryCount job jobType key =>
    if .retryLooked job jobType key ∈ s.calls then
      let calls := s.calls.erase (.retryLooked job jobType key)
      match ensureResourceFree s.rows.rows key with
      | .error _ => some { s with calls := calls }
      | .ok () => some { s with calls := .retryFree job jobType :: calls }
    else none
  | .retryReset job jobType ok =>
    if .retryFree job jobType ∈ s.calls then
      let s := { s with calls := s.calls.erase (.retryFree job jobType) }
      if ok then
        match s.rows.update (fun r => r.id == job) requeue.apply with
        | some rows => some (s.enqueue rows job jobType)
        | none => some s
      else some s
    else none
  | .cancelLookup job =>
    match lookupRow s.rows.rows job with
    | .error _ => some s
    | .ok row =>
      match cancelCheck row with
      | .error _ => some s
      | .ok () => some { s with calls := .cancelQueued job (s.runOf job) :: s.calls }
  | .cancelStore job run =>
    if .cancelQueued job run ∈ s.calls then
      some ({ s with calls := s.calls.erase (.cancelQueued job run) }.storeFlag job run)
    else none
  | .abandon call =>
    if call ∈ s.calls then some { s with calls := s.calls.erase call } else none
  | .restart => some s.restart

/-! ## What a step can do -/

/-- The moves of a run, one constructor for each way `run` can go on. -/
inductive Moves (x : Run) : RunLabel → Move → Prop
  | spawn (hp : x.phase = .registered) : Moves x .spawn { phase := .spawned }
  | markRunning (hp : x.phase = .spawned) :
      Moves x .markRunning { phase := .starting, write := some ⟨.running, "starting", ""⟩ }
  | unknown (e : String) (hp : x.phase = .starting) (hd : getDescriptor x.jobType = none) :
      Moves x .load { phase := .finishing (.error e) }
  | seen (hp : x.phase = .starting) (hf : x.flag = true) : Moves x .load { phase := .cancelSeen }
  | clear (hp : x.phase = .starting) (hf : x.flag = false) : Moves x .load { phase := .ticking }
  | writeCancelled (hp : x.phase = .cancelSeen) :
      Moves x .writeCancelled
        { phase := .cancelWritten, write := some ⟨.cancelled, "cancelled", "cancelled"⟩ }
  | tick (stage : String) (hp : x.phase = .ticking) :
      Moves x .tick { phase := .sleeping, write := some ⟨.running, stage, ""⟩ }
  | refuse (l : RunLabel) (e : String) (hp : x.phase = .sleeping) :
      Moves x l { phase := .finishing (.error e) }
  | dispatch (hp : x.phase = .sleeping) :
      Moves x .dispatch { phase := .executing, dispatches := true }
  | executed (result : Except String Unit) (result' : Except String String)
      (hp : x.phase = .executing) :
      Moves x (.executed result) { phase := .finishing result' }
  | finish (result : Except String String) (hp : x.phase = .finishing result) :
      Moves x .finish { phase := .finished, write := some (finalWrite result) }
  | finishCancelled (hp : x.phase = .cancelWritten) :
      Moves x .finish { phase := .finished, write := some (finalWrite (.error "cancelled")) }

theorem move_moves {deployment : Deployment} {x : Run} {l : RunLabel} {m : Move}
    (h : x.move deployment l = some m) : Moves x l m := by
  unfold Run.move at h
  split at h
  · next hp => cases h; exact .spawn hp
  · next hp => cases h; exact .markRunning hp
  · next hp =>
    split at h
    · next hd => cases h; exact .unknown _ hp hd
    · cases h
      cases hf : x.flag with
      | true => exact .seen hp hf
      | false => exact .clear hp hf
  · next hp => cases h; exact .writeCancelled hp
  · next hp =>
    obtain ⟨desc, -, rfl⟩ := Option.map_eq_some_iff.mp h
    exact .tick desc.stage hp
  · next e hp =>
    split_ifs at h
    cases h
    exact .refuse _ _ hp
  · next hp =>
    obtain ⟨desc, -, rfl⟩ := Option.map_eq_some_iff.mp h
    unfold dispatchMove
    split
    · exact .dispatch hp
    · split_ifs
      · exact .dispatch hp
      · exact .refuse _ _ hp
  · next hp =>
    obtain ⟨desc, -, rfl⟩ := Option.map_eq_some_iff.mp h
    exact .executed _ _ hp
  · next hp => cases h; exact .finish _ hp
  · next hp => cases h; exact .finishCancelled hp
  · cases h

/-- The job of a `retry` in flight has a row, and its type a descriptor. -/
def Call.Known (rows : JobTable) : Call → Prop
  | .retryLooked job jobType _ | .retryFree job jobType =>
    (∃ row ∈ rows, row.id = job) ∧ (getDescriptor jobType).isSome
  | .cancelQueued _ _ => True

/-- `c` is a retry of `job`. -/
def Call.Retries (job : Uuid) : Call → Prop
  | .retryLooked job' _ _ | .retryFree job' _ => job' = job
  | .cancelQueued _ _ => False

/-- The effects a step can have. A step that only moves requests keeps what is
    known about them, and a new retry has seen a row it accepts. -/
inductive Effect (deployment : Deployment) (s : State) : Label → State → Prop
  | request (l : Label) (calls : List Call)
      (h : (∀ c ∈ s.calls, c.Known s.rows) → ∀ c ∈ calls, c.Known s.rows)
      (hr : ∀ job, ∀ c ∈ calls, c.Retries job → (∃ c' ∈ s.calls, c'.Retries job) ∨
        ∃ row ∈ s.rows, row.id = job ∧ row.state.retryable = true) :
      Effect deployment s l { s with calls := calls }
  | start (jobType : String) (id : Uuid) (desc : JobDescriptor) (rows : JobTable)
      (hc : startCheck deployment jobType = .ok desc)
      (hi : s.rows.insert (newRow id jobType desc) = some rows) :
      Effect deployment s (.start jobType id true) (s.enqueue rows id jobType)
  | reset (job : Uuid) (jobType : String) (rows : JobTable)
      (hc : .retryFree job jobType ∈ s.calls)
      (hu : s.rows.update (fun r => r.id == job) requeue.apply = some rows) :
      Effect deployment s (.retryReset job jobType true)
        ({ s with calls := s.calls.erase (.retryFree job jobType) }.enqueue rows job jobType)
  | register (x : Run) (hx : x ∈ s.runs) (hp : x.phase = .committed) :
      Effect deployment s (.register x.id) (s.register x)
  | drop (x : Run) (hx : x ∈ s.runs) (hp : x.phase = .committed) :
      Effect deployment s (.drop x.id) (s.drop x)
  | run (x : Run) (l : RunLabel) (m : Move) (ok : Bool) (hx : x ∈ s.runs)
      (hm : x.move deployment l = some m) :
      Effect deployment s (.run x.id l ok) (s.advance x m ok)
  | remove (x : Run) (hx : x ∈ s.runs) (hp : x.phase = .finished) :
      Effect deployment s (.remove x.id) (s.remove x)
  | store (job : Uuid) (run : Option ℕ) (hc : .cancelQueued job run ∈ s.calls) :
      Effect deployment s (.cancelStore job run)
        ({ s with calls := s.calls.erase (.cancelQueued job run) }.storeFlag job run)
  | restart : Effect deployment s .restart s.restart

variable {deployment : Deployment} {s s' : State} {l : Label}

theorem Effect.idle (l : Label) : Effect deployment s l s :=
  .request l s.calls id fun _ c hc hr => .inl ⟨c, hc, hr⟩

theorem Effect.erase (l : Label) (c : Call) :
    Effect deployment s l { s with calls := s.calls.erase c } :=
  .request l _ (fun h c' hc' => h c' (List.mem_of_mem_erase hc'))
    fun _ c' hc' hr => .inl ⟨c', List.mem_of_mem_erase hc', hr⟩

/-- A request whose new call is `c`. -/
theorem Effect.call (l : Label) (c : Call) {calls : List Call} (hsub : ∀ c' ∈ calls, c' ∈ s.calls)
    (h : (∀ c ∈ s.calls, c.Known s.rows) → c.Known s.rows)
    (hr : ∀ job, c.Retries job → (∃ c' ∈ s.calls, c'.Retries job) ∨
      ∃ row ∈ s.rows, row.id = job ∧ row.state.retryable = true) :
    Effect deployment s l { s with calls := c :: calls } := by
  refine .request l _ (fun hknown c' hc' => ?_) fun job c' hc' hj => ?_
  · rcases List.mem_cons.mp hc' with rfl | hc'
    · exact h hknown
    · exact hknown c' (hsub c' hc')
  · rcases List.mem_cons.mp hc' with rfl | hc'
    · exact hr job hj
    · exact .inl ⟨c', hsub c' hc', hj⟩

theorem findRun_eq_some {s : State} {r : ℕ} {x : Run} (h : s.findRun r = some x) :
    x ∈ s.runs ∧ x.id = r :=
  ⟨List.mem_of_find?_eq_some h, by simpa using List.find?_some h⟩

theorem lookupRow_ok {rows : List JobRow} {job : Uuid} {row : JobRow}
    (h : lookupRow rows job = .ok row) : row ∈ rows ∧ row.id = job := by
  unfold lookupRow at h
  split at h
  · next row' hr =>
    cases h
    exact ⟨List.mem_of_find?_eq_some hr, by simpa using List.find?_some hr⟩
  · cases h

theorem step_effect (h : step deployment s l = some s') : Effect deployment s l s' := by
  cases l with
  | start jobType id ok =>
    simp only [step] at h
    split at h
    · cases h; exact .idle _
    · next desc hc =>
      split_ifs at h with hok
      · subst hok
        split at h
        · next rows hi => cases h; exact .start jobType id desc rows hc hi
        · cases h; exact .idle _
      · cases h; exact .idle _
  | register r =>
    simp only [step] at h
    split at h
    · next x hf =>
      obtain ⟨hx, rfl⟩ := findRun_eq_some hf
      split_ifs at h with hp
      cases h
      exact .register x hx hp
    · cases h
  | drop r =>
    simp only [step] at h
    split at h
    · next x hf =>
      obtain ⟨hx, rfl⟩ := findRun_eq_some hf
      split_ifs at h with hp
      cases h
      exact .drop x hx hp
    · cases h
  | run r l ok =>
    simp only [step] at h
    split at h
    · next x hf =>
      obtain ⟨hx, rfl⟩ := findRun_eq_some hf
      obtain ⟨m, hm, rfl⟩ := Option.map_eq_some_iff.mp h
      exact .run x l m ok hx hm
    · cases h
  | remove r =>
    simp only [step] at h
    split at h
    · next x hf =>
      obtain ⟨hx, rfl⟩ := findRun_eq_some hf
      split_ifs at h with hp
      cases h
      exact .remove x hx hp
    · cases h
  | retryLookup job =>
    simp only [step] at h
    split at h
    · cases h; exact .idle _
    · next row hl =>
      obtain ⟨hrow, hid⟩ := lookupRow_ok hl
      split at h
      · cases h; exact .idle _
      · next desc hd =>
        cases h
        obtain ⟨hret, htype⟩ := retryCheck_ok hd
        refine .call _ _ (fun _ => id) (fun _ => ⟨⟨row, hrow, hid⟩, by rw [htype]; rfl⟩) ?_
        rintro job' rfl
        exact .inr ⟨row, hrow, hid, hret⟩
  | retryCount job jobType key =>
    simp only [step] at h
    split_ifs at h with hc
    split at h
    · cases h; exact .erase _ _
    · cases h
      refine .call _ _ (fun c' => List.mem_of_mem_erase)
        (fun hknown => hknown (.retryLooked job jobType key) hc) ?_
      rintro job' rfl
      exact .inl ⟨_, hc, rfl⟩
  | retryReset job jobType ok =>
    simp only [step] at h
    split_ifs at h with hc hok
    · subst hok
      split at h
      · next rows hu => cases h; exact .reset job jobType rows hc hu
      · cases h; exact .erase _ _
    · cases h; exact .erase _ _
  | cancelLookup job =>
    simp only [step] at h
    split at h
    · cases h; exact .idle _
    · split at h
      · cases h; exact .idle _
      · cases h
        exact .call _ _ (fun _ => id) (fun _ => trivial) nofun
  | cancelStore job run =>
    simp only [step] at h
    split_ifs at h with hc
    cases h
    exact .store job run hc
  | abandon call =>
    simp only [step] at h
    split_ifs at h with hc
    cases h
    exact .erase _ _
  | restart => cases h; exact .restart

/-! ## Rows under a step -/

instance : Std.Symm JobRow.Compat where
  symm := by
    rintro a b ⟨h1, h2⟩
    refine ⟨h1.symm, ?_⟩
    rintro ⟨h3, h4, h5, h6⟩
    exact h2 ⟨h3.symm, h3 ▸ h4, h6, h5⟩

theorem compat_of_mem {t : JobTable} {a b : JobRow} (ha : a ∈ t) (hb : b ∈ t) (h : a ≠ b) :
    a.Compat b :=
  t.wf.forall ha hb h

theorem row_unique {t : JobTable} {a b : JobRow} (ha : a ∈ t) (hb : b ∈ t) (h : a.id = b.id) :
    a = b := by
  by_contra hne
  exact (compat_of_mem ha hb hne).1 h

/-- `t'` is `t` with at most the row of `job` rewritten, and its key kept. -/
structure Touched (job : Uuid) (t t' : JobTable) : Prop where
  back : ∀ row' ∈ t', ∃ row ∈ t, row'.id = row.id ∧ row'.resourceKey = row.resourceKey ∧
    (row.id ≠ job → row' = row)
  forth : ∀ row ∈ t, ∃ row' ∈ t', row'.id = row.id

theorem Touched.refl (job : Uuid) (t : JobTable) : Touched job t t :=
  ⟨fun row h => ⟨row, h, rfl, rfl, fun _ => rfl⟩, fun row h => ⟨row, h, rfl⟩⟩

theorem mem_rewrite {t t' : JobTable} {job : Uuid} {w : StateWrite} {row' : JobRow}
    (h : t.update (fun r => r.id == job) w.apply = some t') :
    row' ∈ t' ↔ ∃ row ∈ t, row' = if row.id = job then w.apply row else row := by
  rw [Table.mem_update h]
  constructor
  · rintro ⟨row, hrow, rfl⟩
    exact ⟨row, hrow, by simp⟩
  · rintro ⟨row, hrow, rfl⟩
    exact ⟨row, hrow, by simp⟩

theorem touched_of_update {t t' : JobTable} {job : Uuid} {w : StateWrite}
    (h : t.update (fun r => r.id == job) w.apply = some t') : Touched job t t' := by
  refine ⟨fun row' hrow' => ?_, fun row hrow => ?_⟩
  · obtain ⟨row, hrow, rfl⟩ := (mem_rewrite h).mp hrow'
    refine ⟨row, hrow, ?_⟩
    split_ifs with hj
    · exact ⟨rfl, rfl, fun hne => absurd hj hne⟩
    · exact ⟨rfl, rfl, fun _ => rfl⟩
  · refine ⟨_, (mem_rewrite h).mpr ⟨row, hrow, rfl⟩, ?_⟩
    split_ifs <;> rfl

theorem mem_of_insert {rows : JobTable} {id : Uuid} {jobType : String} {desc : JobDescriptor}
    (hi : s.rows.insert (newRow id jobType desc) = some rows) :
    ∀ row ∈ rows, row.id ≠ id → row ∈ s.rows := fun _ hrow hne =>
  ((Table.mem_insert hi).mp hrow).resolve_right fun he => hne (by rw [he]; rfl)

theorem mem_of_requeue {rows : JobTable} {job : Uuid}
    (hu : s.rows.update (fun r => r.id == job) requeue.apply = some rows) :
    ∀ row ∈ rows, row.id ≠ job → row ∈ s.rows := by
  intro row' hrow' hne
  obtain ⟨row, hrow, rfl⟩ := (mem_rewrite hu).mp hrow'
  split_ifs at hne ⊢ with hj
  · exact absurd hj hne
  · exact hrow

theorem touched_of_writeRow {t t' : JobTable} {job : Uuid} {w : Option StateWrite} {ok : Bool}
    (h : State.writeRow t job w ok = some t') : Touched job t t' := by
  cases w with
  | none => cases h; exact .refl job t
  | some w =>
    rw [State.writeRow] at h
    split_ifs at h
    exact touched_of_update h

theorem touched_advance (s : State) (x : Run) (m : Move) (ok : Bool) :
    Touched x.job s.rows (s.advance x m ok).rows := by
  cases h : State.writeRow s.rows x.job m.write ok with
  | none => simpa [State.advance, h] using Touched.refl x.job s.rows
  | some t => simpa [State.advance, h] using touched_of_writeRow h

/-- The index never stands in the way of a terminal state. -/
theorem terminal_write_commits (t : JobTable) (job : Uuid) {w : StateWrite}
    (hw : w.state.active = false) : ∃ t', State.writeRow t job (some w) true = some t' := by
  rw [State.writeRow, if_pos rfl]
  refine Table.exists_update fun a b hab => ⟨?_, ?_⟩
  · have hid : ∀ r : JobRow, (if r.id == job then w.apply r else r).id = r.id := by
      intro r
      split_ifs <;> rfl
    rw [hid, hid]
    exact hab.1
  · rintro ⟨h1, h2, h3, h4⟩
    split_ifs at h1 h2 h3 h4 with ha hb hb
    · exact absurd h3 (by simp [StateWrite.apply, hw])
    · exact absurd h3 (by simp [StateWrite.apply, hw])
    · exact absurd h4 (by simp [StateWrite.apply, hw])
    · exact hab.2 ⟨h1, h2, h3, h4⟩

/-- The row of `x` after its step: rewritten if the write took effect. -/
theorem row_advance {s : State} {x : Run} {m : Move} {ok : Bool} {row' : JobRow}
    (h : row' ∈ (s.advance x m ok).rows) (hid : row'.id = x.job) :
    ∃ row ∈ s.rows, row.id = x.job ∧
      ((∃ w, m.write = some w ∧ ok = true ∧ row' = w.apply row) ∨
        row' = row ∧ (m.write = none ∨ State.writeRow s.rows x.job m.write ok = none)) := by
  cases hw : m.write with
  | none =>
    have h0 : row' ∈ s.rows := by simpa [State.advance, State.writeRow, hw] using h
    exact ⟨row', h0, hid, .inr ⟨rfl, .inl rfl⟩⟩
  | some w =>
    cases ht : State.writeRow s.rows x.job (some w) ok with
    | none =>
      have h0 : row' ∈ s.rows := by simpa [State.advance, hw, ht] using h
      exact ⟨row', h0, hid, .inr ⟨rfl, .inr rfl⟩⟩
    | some t =>
      have h0 : row' ∈ t := by simpa [State.advance, hw, ht] using h
      rw [State.writeRow] at ht
      split_ifs at ht with hok
      obtain ⟨row, hrow, hr⟩ := (mem_rewrite ht).mp h0
      split_ifs at hr with hj
      · exact ⟨row, hrow, hj, .inl ⟨w, rfl, hok, hr⟩⟩
      · exact absurd (hr ▸ hid) hj

/-! ## Identities -/

/-- What holds in every reachable state, whatever the interleaving. -/
structure Wf (s : State) : Prop where
  distinct : (s.runs.map (·.id)).Nodup
  fresh : ∀ x ∈ s.runs, x.id < s.next
  row : ∀ x ∈ s.runs, ∃ row ∈ s.rows, row.id = x.job
  known : ∀ x ∈ s.runs, (getDescriptor x.jobType).isSome
  calls : ∀ c ∈ s.calls, c.Known s.rows

theorem Wf.eq_of_id (h : Wf s) {x y : Run} (hx : x ∈ s.runs) (hy : y ∈ s.runs)
    (hid : x.id = y.id) : x = y :=
  List.inj_on_of_nodup_map h.distinct hx hy hid

theorem map_id_advance (s : State) (x : Run) (p : Phase) :
    (s.runs.map fun y => if y.id = x.id then { y with phase := p } else y).map (·.id) =
      s.runs.map (·.id) := by
  rw [List.map_map]
  refine List.map_congr_left fun y _ => ?_
  simp only [Function.comp_apply]
  split_ifs <;> rfl

/-- A run after a step of the run `x`: its identity is kept. -/
theorem mem_advance {s : State} {x y' : Run} {p : Phase}
    (h : y' ∈ s.runs.map fun y => if y.id = x.id then { y with phase := p } else y) :
    ∃ y ∈ s.runs, (y.id = x.id ∧ y' = { y with phase := p }) ∨ (y.id ≠ x.id ∧ y' = y) := by
  obtain ⟨y, hy, rfl⟩ := List.mem_map.mp h
  refine ⟨y, hy, ?_⟩
  split_ifs with hid
  · exact .inl ⟨hid, rfl⟩
  · exact .inr ⟨hid, rfl⟩

theorem Call.Known.mono {t t' : JobTable} (h : ∀ row ∈ t, ∃ row' ∈ t', row'.id = row.id)
    {c : Call} (hc : c.Known t) : c.Known t' := by
  cases c with
  | cancelQueued job run => trivial
  | retryLooked job jobType key =>
    obtain ⟨⟨row, hrow, rfl⟩, hd⟩ := hc
    exact ⟨h row hrow, hd⟩
  | retryFree job jobType =>
    obtain ⟨⟨row, hrow, rfl⟩, hd⟩ := hc
    exact ⟨h row hrow, hd⟩

theorem Wf.init (rows : JobTable) : Wf (State.init rows) :=
  ⟨.nil, by simp [State.init], by simp [State.init], by simp [State.init], by simp [State.init]⟩

theorem Wf.enqueue (h : Wf s) {rows : JobTable} {job : Uuid} {jobType : String}
    (hrows : ∀ row ∈ s.rows, ∃ row' ∈ rows, row'.id = row.id) (hjob : ∃ row ∈ rows, row.id = job)
    (hd : (getDescriptor jobType).isSome) : Wf (s.enqueue rows job jobType) := by
  refine ⟨?_, ?_, ?_, ?_, fun c hc => (h.calls c hc).mono hrows⟩
  · rw [State.enqueue, List.map_append, List.map_singleton]
    refine h.distinct.append (List.nodup_singleton _) ?_
    rintro r hr hr'
    obtain ⟨x, hx, rfl⟩ := List.mem_map.mp hr
    exact absurd (List.mem_singleton.mp hr') (h.fresh x hx).ne
  · rintro x hx
    rcases List.mem_append.mp hx with hx | hx
    · exact Nat.lt_succ_of_lt (h.fresh x hx)
    · rw [List.mem_singleton.mp hx]; exact Nat.lt_succ_self _
  · rintro x hx
    rcases List.mem_append.mp hx with hx | hx
    · obtain ⟨row, hrow, hid⟩ := h.row x hx
      obtain ⟨row', hrow', hid'⟩ := hrows row hrow
      exact ⟨row', hrow', hid'.trans hid⟩
    · rw [List.mem_singleton.mp hx]; exact hjob
  · rintro x hx
    rcases List.mem_append.mp hx with hx | hx
    · exact h.known x hx
    · rw [List.mem_singleton.mp hx]; exact hd

/-- Steps that only drop runs, or change their flags and phases. -/
theorem Wf.of_sublist (h : Wf s) (hids : (s'.runs.map (·.id)).Sublist (s.runs.map (·.id)))
    (hback : ∀ y' ∈ s'.runs, ∃ y ∈ s.runs, y'.id = y.id ∧ y'.job = y.job ∧ y'.jobType = y.jobType)
    (hnext : s'.next = s.next) (hrows : ∀ row ∈ s.rows, ∃ row' ∈ s'.rows, row'.id = row.id)
    (hcalls : ∀ c ∈ s'.calls, c ∈ s.calls) : Wf s' := by
  refine ⟨h.distinct.sublist hids, ?_, ?_, ?_, fun c hc => (h.calls c (hcalls c hc)).mono hrows⟩
  · intro y' hy'
    obtain ⟨y, hy, hid, -, -⟩ := hback y' hy'
    rw [hid, hnext]
    exact h.fresh y hy
  · intro y' hy'
    obtain ⟨y, hy, -, hjob, -⟩ := hback y' hy'
    obtain ⟨row, hrow, hid⟩ := h.row y hy
    obtain ⟨row', hrow', hid'⟩ := hrows row hrow
    exact ⟨row', hrow', by rw [hid', hid, hjob]⟩
  · intro y' hy'
    obtain ⟨y, hy, -, -, htype⟩ := hback y' hy'
    rw [htype]
    exact h.known y hy

theorem Wf.filter (h : Wf s) (p : Run → Bool) (hruns : s'.runs = s.runs.filter p)
    (hnext : s'.next = s.next) (hrows : s'.rows = s.rows) (hcalls : s'.calls = s.calls) :
    Wf s' := by
  refine h.of_sublist ?_ ?_ hnext ?_ ?_
  · rw [hruns]; exact List.filter_sublist.map _
  · rw [hruns]
    exact fun y' hy' => ⟨y', (List.mem_filter.mp hy').1, rfl, rfl, rfl⟩
  · rw [hrows]; exact fun row hrow => ⟨row, hrow, rfl⟩
  · rw [hcalls]; exact fun _ => id

theorem startCheck_ok {jobType : String} {desc : JobDescriptor}
    (h : startCheck deployment jobType = .ok desc) : getDescriptor jobType = some desc := by
  unfold startCheck at h
  split at h
  · cases h
  · next d hd =>
    split_ifs at h
    cases h
    exact hd

/-- **Identities**: every step keeps run ids distinct and fresh, and every run
    keeps a row and a registered type. -/
theorem Wf.step (h : Wf s) (hs : step deployment s l = some s') : Wf s' := by
  cases step_effect hs with
  | request l calls hc hr =>
    exact ⟨h.distinct, h.fresh, h.row, h.known, hc h.calls⟩
  | start jobType id desc rows hc hi =>
    refine h.enqueue (fun row hrow => ⟨row, (Table.mem_insert hi).mpr (.inl hrow), rfl⟩)
      ⟨_, (Table.mem_insert hi).mpr (.inr rfl), rfl⟩ ?_
    rw [startCheck_ok hc]
    rfl
  | reset job jobType rows hc hu =>
    obtain ⟨⟨row, hrow, rfl⟩, hd⟩ := h.calls _ hc
    have h0 : Wf { s with calls := s.calls.erase (.retryFree row.id jobType) } :=
      ⟨h.distinct, h.fresh, h.row, h.known, fun c hc' => h.calls c (List.mem_of_mem_erase hc')⟩
    exact h0.enqueue (touched_of_update hu).forth ((touched_of_update hu).forth row hrow) hd
  | register x hx hp =>
    refine h.of_sublist ?_ ?_ rfl (fun row hrow => ⟨row, hrow, rfl⟩) fun _ => id
    · rw [State.register, map_id_advance]
    · intro y' hy'
      obtain ⟨y, hy, ⟨-, rfl⟩ | ⟨-, rfl⟩⟩ := mem_advance hy'
      · exact ⟨y, hy, rfl, rfl, rfl⟩
      · exact ⟨y', hy, rfl, rfl, rfl⟩
  | drop x hx hp => exact h.filter (·.id ≠ x.id) rfl rfl rfl rfl
  | run x l m ok hx hm =>
    refine h.of_sublist ?_ ?_ rfl (touched_advance s x m ok).forth fun _ => id
    · rw [State.advance, map_id_advance]
    · intro y' hy'
      obtain ⟨y, hy, ⟨-, rfl⟩ | ⟨-, rfl⟩⟩ := mem_advance hy'
      · exact ⟨y, hy, rfl, rfl, rfl⟩
      · exact ⟨y', hy, rfl, rfl, rfl⟩
  | remove x hx hp => exact h.filter (·.id ≠ x.id) rfl rfl rfl rfl
  | store job run hc =>
    refine h.of_sublist ?_ ?_ rfl (fun row hrow => ⟨row, hrow, rfl⟩)
      fun c hc' => List.mem_of_mem_erase hc'
    · have hid : ∀ y : Run,
          (if s.cancels job = some y.id then { y with flag := true } else y).id = y.id := by
        intro y
        split_ifs <;> rfl
      simp [State.storeFlag, Function.comp_def, hid]
    · intro y' hy'
      obtain ⟨y, hy, rfl⟩ := List.mem_map.mp hy'
      exact ⟨y, hy, by split_ifs <;> exact ⟨rfl, rfl, rfl⟩⟩
  | restart =>
    exact h.of_sublist (List.nil_sublist _) (by simp [State.restart]) rfl
      (fun row hrow => ⟨row, hrow, rfl⟩) (by simp [State.restart])

end Ppb.Jobs
