import Ppb.Actions.Routes

/-!
# Runbooks (`automation/mod.rs`, `automation/routes.rs`)

A runbook is a stored list of steps, each an action with arguments or a wait. A
run authorizes and executes the steps one after the other and stops at the first
that fails.
-/

namespace Ppb.Automation

open Prog Auth Commands Actions

/-- The check of one step in `validate_steps` (automation/mod.rs:41-50). -/
def validateStep (step : RunbookStep) : Except String Unit :=
  if step.action = "" ∧ step.waitSecs = none then .error "step must have an action or a wait"
  else if step.action ≠ "" ∧ getAction step.action = none then
    .error ("unknown action in runbook step: " ++ step.action)
  else if 3600 < step.waitSecs.getD 0 then .error "wait exceeds 3600s limit"
  else .ok ()

/-- `validate_steps` (automation/mod.rs:39-53). -/
def validateSteps : List RunbookStep → Except String Unit
  | [] => .ok ()
  | step :: rest =>
    match validateStep step with
    | .ok () => validateSteps rest
    | .error e => .error e

/-- `AutomationStepResult` (automation/routes.rs:302-311). -/
structure AutomationStepResult where
  step : String
  ok : Bool
  result : Option Json
  error : Option (ErrorCode × String)
  waitSecs : Option ℕ

/-- A failed step. -/
def stepFailed (step : String) (code : ErrorCode) (message : String) : AutomationStepResult :=
  { step := step, ok := false, result := none, error := some (code, message), waitSecs := none }

/-- The run's arguments are added to a step's own (automation/routes.rs:423-428). -/
def mergeRunArgs (args runArgs : Json) : Json :=
  match args, runArgs with
  | .obj fields, .obj run => .obj (run.foldl (fun fields f => Fields.orInsert f.1 f.2 fields) fields)
  | _, _ => args

/-- The wait after a step (automation/routes.rs:479-481). -/
def sleepAfter : Option ℕ → Server Unit
  | some wait => do
    let _ ← ask (.sleep (min wait 3600))
  | none => pure ()

/-- The step loop of `run` (automation/routes.rs:374-482): whether all steps
    succeeded, and their results. -/
def runSteps (state : AppState) (auth : AuthPrincipal) (headers : Headers) (runbook : Uuid)
    (runArgs : Json) : List RunbookStep → List AutomationStepResult →
      Server (Bool × List AutomationStepResult)
  | [], results => pure (true, results)
  | step :: rest, results =>
    if step.action = "" then do
      sleepAfter step.waitSecs
      runSteps state auth headers runbook runArgs rest (results ++
        step.waitSecs.toList.map fun wait =>
          { step := "wait", ok := true, result := none, error := none, waitSecs := some wait })
    else do
      let action ← ofOption (.notFound "action") (getAction step.action)
      if action.longRunning || isJobOnlyAction action.id then
        return (false, results ++ [stepFailed step.action .longRunningActionRequiresJob
          "long-running action requires Job execution"])
      else
        let granted ← hasPermission state auth action.permission
        if granted = false then
          return (false, results ++ [stepFailed step.action .permissionDenied "permission denied"])
        else
          reauthGate auth headers action
          let commandId ← enqueue auth headers action (mergeRunArgs step.args runArgs)
            (fun _ => ("runbook", runbook.toText)) true
          match ← ask (.completion commandId none) with
          | .result (.ok v) =>
            sleepAfter step.waitSecs
            runSteps state auth headers runbook runArgs rest (results ++
              [{ step := step.action, ok := true, result := some v, error := none,
                 waitSecs := none }])
          | _ =>
            return (false, results ++ [stepFailed step.action .pmpCommandFailed "command failed"])

/-- `RunbookExecutionResponse` (automation/routes.rs:314-318). -/
structure RunbookExecutionResponse where
  runId : Uuid
  status : String
  results : List AutomationStepResult

/-- The arguments in the request body, which may be empty or not be JSON
    (automation/routes.rs:350-359). -/
def runArgsOf : Option (Except Unit Json) → Except ApiError Json
  | none => .ok .null
  | some (.ok args) => .ok args
  | some (.error _) => .error (.new .invalidJson "invalid json request")

/-- The `db_err` of the automation routes (automation/routes.rs:539-546). -/
def automationDbErr : DbError → ApiError := dbErr .resourceNotFound "not found"

/-- `run` (automation/routes.rs:336-492). -/
def run (state : AppState) (auth : AuthPrincipal) (headers : Headers) (id : Uuid)
    (body : Option (Except Unit Json)) : Server RunbookExecutionResponse := do
  require state auth "automation:execute"
  state.requireDb
  let row ← ask (.findRunbook id)
  let row ← orFail automationDbErr row
  let runbook ← ofOption (.notFound "runbook") row
  let definition ← orFail (fun e => .validation ("invalid definition: " ++ e)) runbook.parsed
  orFail ApiError.validation (validateSteps definition.steps)
  let runArgs ← ofExcept (runArgsOf body)
  let runId ← ask (.insertRunbookRun id runbook.definition runArgs auth.sub.toText)
  let runId ← orFail automationDbErr runId
  let (ok, results) ← runSteps state auth headers id runArgs definition.steps []
  let status := if ok then "succeeded" else "failed"
  let finished ← ask (.finishRunbookRun runId status)
  orFail automationDbErr finished
  return { runId := runId, status := status, results := results }

end Ppb.Automation
