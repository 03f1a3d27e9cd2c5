import Ppb.Actions.Registry
import Ppb.Auth.Permissions
import Ppb.Auth.Reauth

/-!
# Action endpoints (`actions/routes.rs`, `users/routes.rs`, `logs/routes.rs`)

Six endpoints hand tasks to the command broker. They repeat the same stages with
small differences: reject the actions of other planes, merge the path into the
arguments, authorize, check reauthentication, insert the `command_runs` row, submit
and wait. A stage that is the same text everywhere is one definition here; what
differs is its parameter or has a definition of its own.

This module has the stages, the generic endpoint `execute_action`, the user
endpoint `user_actions` and the two console endpoints, which send free text to
PMP without the broker.
-/

namespace Ppb.Actions

open Prog Auth Commands

/-- An HTTP response. -/
structure Response where
  status : ℕ
  body : Json

/-! ## Stages -/

/-- The plane checks of the generic and scoped endpoints
    (actions/routes.rs:91-104). -/
def rejectOtherPlanes (action : ActionDescriptor) : Server Unit := do
  failIf (isJobOnlyAction action.id = true)
    (.new .longRunningActionRequiresJob "long-running action requires the Job API")
  failIf (action.id = "pmp.cli.execute")
    (.new .resourceConflict "raw PMP CLI requires the dedicated CommandRun endpoint")

/-- `RoomService::info` (rooms/service.rs:120-122), as a question. -/
def roomInfo (roomId : String) : Query := .openuds "room.info" (.obj [("room_id", .str roomId)]) none

/-- The host in the answer of `room.info` (rooms/service.rs:127-131). -/
def hostIdOf (info : Json) : Option Int32 :=
  (((info.get? "host_id").bind Json.asI64).map Int64.toInt32).or
    (((info.get? "host").bind Json.asI64).map Int64.toInt32)

/-- `verify_real_host`: the room of the arguments, the caller's `phira_id` and the
    host PMP reports. The two copies differ in the error for a caller without a
    `users` row. -/
def verifyRealHostOr (noUser : ApiError) (state : AppState) (auth : AuthPrincipal) (args : Json) :
    Server Bool := do
  let roomId ← ofOption (.new .roomIdRequired "room_id required for host action")
    ((args.get? "room_id").bind Json.asStr)
  state.requireDb
  let row ← ask (.findUserById auth.sub)
  let row ← orFail (dbErr .userNotFound "user not found") row
  let user ← ofOption noUser row
  let info ← ask (roomInfo roomId)
  let info ← orFail OpenUdsError.toApiError info
  return hostIdOf info == some user.phiraId.toInt32

/-- `verify_real_host` (actions/routes.rs:349-364). -/
def verifyRealHost : AppState → AuthPrincipal → Json → Server Bool :=
  verifyRealHostOr (.notFound "user")

/-- The authorization of `execute_action` (actions/routes.rs:106-120). -/
def authorizeAction (state : AppState) (auth : AuthPrincipal) (action : ActionDescriptor)
    (args : Json) : Server Unit := do
  let granted ← hasPermission state auth action.permission
  if action.hostAllowed then
    let isHost ← verifyRealHost state auth args
    failIf (granted = false ∧ isHost = false) .permissionDenied
  else
    failIf (granted = false) .permissionDenied

/-- The risk a reauth token must be issued for (actions/routes.rs:124-128). -/
def reauthRisk (action : ActionDescriptor) : ReauthRisk :=
  if Risk.critical.rank ≤ action.risk.rank then .critical else .high

/-- The reauth gate (actions/routes.rs:122-130). -/
def reauthGate (auth : AuthPrincipal) (headers : Headers) (action : ActionDescriptor) :
    Server Unit :=
  if action.reauth then checkReauthHeader auth headers (reauthRisk action) else pure ()

/-- The audit data of a task; `resource` is its `resource_type` and `resource_id`. -/
def commandAudit (auth : AuthPrincipal) (headers : Headers) (action : ActionDescriptor)
    (resource : String × String) : Option CommandAudit :=
  if action.audit then
    some { principalType := auth.principalType.toText
           actorUserId := if auth.isRoot then none else some auth.sub
           actorSessionId := auth.sid
           action := action.id
           resourceType := resource.1
           resourceId := resource.2
           requestId := auth.requestId
           ip := ipFromHeaders headers
           userAgent := userAgentFromHeaders headers }
  else none

/-- `CommandBroker::submit(task)?`. -/
def submit (task : CommandTask) : Server Unit := do
  let accepted ← ask (.submit task)
  failIf (accepted = false) submitError

/-- Insert the row and submit the task (actions/routes.rs:133-181): `resource`
    gives the audit's resource from the queue key, and `completion` whether the
    caller waits for the result. Returns the command's id. -/
def enqueue (auth : AuthPrincipal) (headers : Headers) (action : ActionDescriptor) (args : Json)
    (resource : String → String × String) (completion : Bool) : Server Uuid := do
  let queueKey := resolveQueueKey action args
  let commandId ← ask .newUuid
  let argsRedacted := redactArgs args
  let inserted ← ask (.insertQueued commandId action.id auth.sub.toText queueKey argsRedacted)
  orFail (dbErr .resourceNotFound "command run not found") inserted
  submit
    { commandId := commandId
      action := action.id
      actor := auth.sub.toText
      resourceKey := queueKey
      args := args
      argsRedacted := argsRedacted
      completion := completion
      audit := commandAudit auth headers action (resource queueKey) }
  return commandId

/-- Wait for the result, or answer at once for a long-running action
    (actions/routes.rs:183-198). `accepted` is the body of the second case. -/
def awaitResult (action : ActionDescriptor) (commandId : Uuid) (accepted : Json) :
    Server Response :=
  if action.longRunning then return ⟨202, accepted⟩
  else do
    match ← ask (.completion commandId (some 30)) with
    | .result (.ok v) => return ⟨200, v⟩
    | .result (.error e) => .fail (.new .pmpUnavailable e)
    | .dropped => .fail (.new .pmpUnavailable "executor dropped")
    | .timedOut => .fail (.new .pmpUnavailable "command timed out")

/-- The body of a response to a scoped long-running action. -/
def queuedBody (commandId : Uuid) : Json :=
  .obj [("command_id", .str commandId.toText), ("status", .str "queued")]

/-- `args.get(key).is_none()` and `args` is an object: insert the path's value
    (rooms/routes.rs:263-268). -/
def mergeArg (key : String) (value : Json) (args : Json) : Json :=
  match args with
  | .obj fields =>
    if (Fields.get? fields key).isNone then .obj (Fields.insert key value fields) else args
  | _ => args

/-! ## Endpoints -/

/-- `execute_action` (actions/routes.rs:78-199). -/
def executeAction (state : AppState) (auth : AuthPrincipal) (headers : Headers) (actionId : String)
    (args : Json) : Server Response := do
  let action ← ofOption (.notFound "action") (getAction actionId)
  rejectOtherPlanes action
  authorizeAction state auth action args
  reauthGate auth headers action
  state.requireDb
  let commandId ← enqueue auth headers action args (fun key => ("action", key)) !action.longRunning
  awaitResult action commandId (.obj
    [("command_id", .str commandId.toText), ("message", .str "long-running job accepted"),
      ("status", .str "queued")])

/-- `user_actions` (users/routes.rs:490-592): the permission alone decides. -/
def userActions (state : AppState) (auth : AuthPrincipal) (headers : Headers) (userId : Int64)
    (actionId : String) (args : Json) : Server Response := do
  let action ← ofOption (.notFound "action") (getAction actionId)
  rejectOtherPlanes action
  let args := mergeArg "user_id" (Json.ofInt64 userId) args
  require state auth action.permission
  reauthGate auth headers action
  state.requireDb
  let commandId ← enqueue auth headers action args
    (fun _ => ("user", toString userId.toInt)) !action.longRunning
  awaitResult action commandId (queuedBody commandId)

/-! ## Console endpoints -/

/-- `pmp::cli::cli_execute` (pmp/cli/mod.rs:17-21), as a question. -/
def cliExecute (command : String) : Query :=
  .openuds "cli.execute" (.obj [("command", .str command)]) (some 0)

/-- The checks of the console endpoints (actions/routes.rs:277-282). -/
def consoleGate (state : AppState) (auth : AuthPrincipal) (headers : Headers) : Server Unit := do
  require state auth "pmp:cli"
  let allowed ← ask (.rateLimit ("raw-cli:" ++ auth.sub.toText) state.rawCliPerMinute)
  ofExcept allowed
  checkReauthHeader auth headers .high

/-- `output_string` (actions/routes.rs:338-343). -/
def outputString : Json → String
  | .str s => s
  | v => v.render

/-- What the console endpoints write to the audit log. -/
def consoleAudit (result errorCode ip userAgent : String) : AuditRecord :=
  { action := "pmp.cli.execute", resourceType := "pmp", resourceId := "console",
    parametersRedacted := .obj [("command", .str "[REDACTED input]")], result := result,
    errorCode := errorCode, commandId := "", ip := ip, userAgent := userAgent }

/-- `CommandRun`, the response of `execute_command`. -/
structure CommandRun where
  commandId : Uuid
  command : String
  action : String
  status : String
  output : Option String
  error : Option String
  principal : String
  scope : String
  deriving DecidableEq

/-- `execute_command` (actions/routes.rs:271-334), without the time of the
    response. -/
def executeCommand (state : AppState) (auth : AuthPrincipal) (headers : Headers)
    (command : String) : Server CommandRun := do
  consoleGate state auth headers
  state.requireDb
  let commandId ← ask .newUuid
  let actor := auth.sub.toText
  let inserted ← ask (.insertConsoleRun commandId actor command "server")
  orFail (dbErr .resourceNotFound "command run not found") inserted
  let answer ← ask (cliExecute command)
  let (status, output, error) := match answer with
    | .ok v => ("succeeded", some (outputString v), none)
    | .error e => ("failed", none, some e.toText)
  let marked ← ask (.markFinished commandId status (output.getD "") (error.getD ""))
  orFail (dbErr .resourceNotFound "command run not found") marked
  let _ ← ask (.recordPrincipal (consoleAudit status
    (if error.isSome then "cli_execute_error" else "") (ipFromHeaders headers)
    (userAgentFromHeaders headers)))
  return { commandId := commandId, command := command, action := "pmp.cli.execute",
           status := status, output := output, error := error, principal := actor,
           scope := "server" }

/-- `submit_input` (logs/routes.rs:174-212). -/
def submitInput (state : AppState) (auth : AuthPrincipal) (headers : Headers) (command : String) :
    Server Json := do
  consoleGate state auth headers
  let answer ← ask (cliExecute command)
  let (status, errorCode) := match answer with
    | .ok _ => ("succeeded", "")
    | .error _ => ("failed", "cli_execute_error")
  if state.db then
    let _ ← ask (.recordPrincipal (consoleAudit status errorCode "" ""))
  orFail OpenUdsError.toApiError answer

end Ppb.Actions
