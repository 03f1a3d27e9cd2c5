import Ppb.Server.Error
import Ppb.Server.Types

/-!
# Job descriptors, rows and the checks of the job API (`jobs/registry.rs`, `jobs/mod.rs`)

The registry fixes, for each job type, the executor, the exclusion key and the
stages. A row of the `jobs` table carries the state of one job; the partial
unique index of migration 0007 is `JobRow.Compat`.

The functions below are the parts of `JobRunner::start`, `retry`, `cancel` and
`run` that decide without waiting for anything: which error a request gets,
and which state the outcome of `execute` is written as.
-/

namespace Ppb.Jobs

/-! ## Registry -/

/-- `JobExecutor` (jobs/registry.rs:15-20). -/
inductive JobExecutor where
  | fixedCli (cmd : String)
  | deployment
  deriving DecidableEq, Repr

/-- `CancelMode` (jobs/registry.rs:24-29). -/
inductive CancelMode where
  | beforeDispatch
  deriving DecidableEq, Repr

/-- `JobDescriptor` (jobs/registry.rs:33-48), the fields the runner reads. -/
structure JobDescriptor where
  id : String
  resourceKey : Option String
  cancelMode : CancelMode
  executor : JobExecutor
  stage : String
  terminal : String
  deriving DecidableEq, Repr

/-- `seed_jobs` (jobs/registry.rs:52-122). -/
def seedJobs : List JobDescriptor :=
  [ { id := "pmp.update.check", resourceKey := some "server", cancelMode := .beforeDispatch,
      executor := .fixedCli "update check", stage := "checking", terminal := "checked" },
    { id := "pmp.update.apply", resourceKey := some "server", cancelMode := .beforeDispatch,
      executor := .fixedCli "update apply", stage := "executing_pmp_update",
      terminal := "completed" },
    { id := "pmp.update.cancel", resourceKey := some "server", cancelMode := .beforeDispatch,
      executor := .fixedCli "update cancel", stage := "cancelling_update",
      terminal := "completed" },
    { id := "pmp.update.force", resourceKey := some "server", cancelMode := .beforeDispatch,
      executor := .fixedCli "update force", stage := "forcing_update", terminal := "completed" },
    { id := "ppf.build", resourceKey := some "ppf", cancelMode := .beforeDispatch,
      executor := .deployment, stage := "building", terminal := "completed" },
    { id := "backup", resourceKey := some "server", cancelMode := .beforeDispatch,
      executor := .deployment, stage := "backing-up", terminal := "completed" } ]

/-- `JobRegistry::get` (jobs/registry.rs:140-142). -/
def getDescriptor (id : String) : Option JobDescriptor := seedJobs.find? fun d => d.id == id

/-- `DeploymentAdapter` (deployment.rs), as far as the runner asks it: which of
    the two deployment commands are configured. -/
structure Deployment where
  ppfBuild : Bool
  backup : Bool
  deriving DecidableEq, Repr

/-- `DeploymentAdapter::job_configured` (deployment.rs:107-109). -/
def Deployment.jobConfigured (d : Deployment) (jobType : String) : Bool :=
  if jobType = "ppf.build" then d.ppfBuild else if jobType = "backup" then d.backup else true

/-! ## Rows -/

/-- The values the `CHECK` on `jobs.state` allows (migration 0006). -/
inductive JobState where
  | queued | running | succeeded | failed | cancelled | notImplemented
  deriving DecidableEq, Repr

/-- `state IN ('queued', 'running')`. -/
def JobState.active : JobState → Bool
  | .queued | .running => true
  | .succeeded | .failed | .cancelled | .notImplemented => false

/-- `state = 'failed'` or `'cancelled'`: what `retry` accepts. -/
def JobState.retryable : JobState → Bool
  | .failed | .cancelled => true
  | .queued | .running | .succeeded | .notImplemented => false

/-- A row of `jobs` (migrations 0001, 0006): the columns the runner reads or
    that hold an outcome. -/
structure JobRow where
  id : Uuid
  type : String
  state : JobState
  stage : String
  error : String
  resourceKey : String
  deriving DecidableEq, Repr

/-- The primary key of `jobs` and its partial unique index
    (`0007_jobs_resource_unique.sql`): ids differ, and no two active rows have
    the same nonempty `resource_key`. -/
def JobRow.Compat (a b : JobRow) : Prop :=
  a.id ≠ b.id ∧
    ¬ (a.resourceKey = b.resourceKey ∧ a.resourceKey ≠ "" ∧ a.state.active = true ∧
      b.state.active = true)

instance : DecidableRel JobRow.Compat := fun _ _ => inferInstanceAs (Decidable (_ ∧ ¬ _))

/-! ## The checks of start, retry and cancel -/

/-- `JobRunner::start` before its `INSERT` (jobs/runner.rs:61-74): the
    descriptor, or the error the caller gets. -/
def startCheck (deployment : Deployment) (jobType : String) : Except ApiError JobDescriptor :=
  match getDescriptor jobType with
  | none => .error (.new .jobTypeUnknown "unknown job type")
  | some d =>
    if d.executor = .deployment ∧ deployment.jobConfigured jobType = false then
      .error (.new .capabilityNotSupported "deployment capability is not configured")
    else .ok d

/-- `JobRunner::lookup` (jobs/runner.rs:281-294) once the statement succeeded. -/
def lookupRow (rows : List JobRow) (job : Uuid) : Except ApiError JobRow :=
  match rows.find? fun r => r.id == job with
  | some row => .ok row
  | none => .error (.new .jobNotFound "job not found")

/-- `JobRunner::retry` between its lookup and `ensure_resource_free`
    (jobs/runner.rs:125-134). -/
def retryCheck (row : JobRow) : Except ApiError JobDescriptor :=
  if row.state.retryable = false then
    .error (.new .jobNotRetryable "only failed or cancelled jobs can be retried")
  else
    match getDescriptor row.type with
    | none => .error (.new .jobTypeUnknown "unknown job type")
    | some d => .ok d

/-- `JobRunner::ensure_resource_free` (jobs/runner.rs:249-273) once the `COUNT`
    succeeded. -/
def ensureResourceFree (rows : List JobRow) (resourceKey : Option String) : Except ApiError Unit :=
  match resourceKey with
  | none => .ok ()
  | some key =>
    if rows.any fun r => r.resourceKey == key && r.state.active then
      .error (.new .jobAlreadyRunning "job already running for this resource")
    else .ok ()

/-- `JobRunner::cancel` after its lookup (jobs/runner.rs:94-117): `ok` is the
    branch that sets the flag. -/
def cancelCheck (row : JobRow) : Except ApiError Unit :=
  match getDescriptor row.type with
  | none => .error (.new .jobTypeUnknown "unknown job type")
  | some d =>
    match d.cancelMode with
    | .beforeDispatch =>
      match row.state with
      | .queued => .ok ()
      | .running => .error (.new .jobNotCancellable "job already dispatched; cannot cancel")
      | .succeeded | .failed | .cancelled | .notImplemented =>
        .error (.new .jobNotCancellable "job already finished")

/-! ## State writes -/

/-- What `update_state` (jobs/mod.rs:60-85) sets. -/
structure StateWrite where
  state : JobState
  stage : String
  error : String
  deriving DecidableEq, Repr

/-- The row after `update_state`. -/
def StateWrite.apply (w : StateWrite) (row : JobRow) : JobRow :=
  { row with state := w.state, stage := w.stage, error := w.error }

/-- The row after the re-queueing `UPDATE` of `retry` (jobs/runner.rs:137-142). -/
def requeue : StateWrite := { state := .queued, stage := "", error := "" }

/-- The state `run` writes for the result of `execute` (jobs/runner.rs:172-190). -/
def finalWrite : Except String String → StateWrite
  | .ok stage => { state := .succeeded, stage := stage, error := "" }
  | .error e =>
    if e = "not_implemented" then
      { state := .notImplemented, stage := "not_implemented", error := e }
    else
      { state := .failed, stage := if e = "timeout" then "timeout" else "failed", error := e }

theorem finalWrite_active (result : Except String String) :
    (finalWrite result).state.active = false := by
  cases result with
  | ok stage => rfl
  | error e =>
    rw [finalWrite]
    split_ifs <;> rfl

theorem finalWrite_ne_cancelled (result : Except String String) :
    (finalWrite result).state ≠ .cancelled := by
  cases result with
  | ok stage => exact JobState.noConfusion
  | error e =>
    rw [finalWrite]
    split_ifs <;> exact JobState.noConfusion

theorem retryable_not_active {s : JobState} (h : s.retryable = true) : s.active = false := by
  cases s <;> first | rfl | exact absurd h (by decide)

theorem retryCheck_ok {row : JobRow} {d : JobDescriptor} (h : retryCheck row = .ok d) :
    row.state.retryable = true ∧ getDescriptor row.type = some d := by
  unfold retryCheck at h
  split_ifs at h with h0
  cases hd : getDescriptor row.type with
  | none => rw [hd] at h; cases h
  | some d' =>
    rw [hd] at h
    cases h
    exact ⟨by simpa using h0, rfl⟩

end Ppb.Jobs
