import Ppb.Commands.Broker
import Ppb.Common.Prog
import Ppb.Common.Serde
import Ppb.Server.OpenUds

/-!
# What a handler can ask

The handlers and the command executor are programs over one set of questions:
database statements, commands to PMP, the command broker, the rate limiter, the
clock and random ids. An answer is what the call returns; a database statement
may fail at any time.

`Server α` is a handler that returns an `α` or an `ApiError`.
-/

namespace Ppb

open Commands Serde

/-- The errors of a statement, as far as `db_err` tells them apart. -/
inductive DbError where
  | rowNotFound
  | other
  deriving DecidableEq, Repr

/-- The `db_err` functions: a missing row has its own code and text. -/
def dbErr (code : ErrorCode) (message : String) : DbError → ApiError
  | .rowNotFound => .new code message
  | .other => .internal

/-- A row of the group query (permissions/resolver.rs:16-19). -/
structure UserGroupPermRow where
  systemKind : Option String
  permission : Option String
  deriving DecidableEq, Repr

/-- The columns of `users` the modelled handlers read. -/
structure User where
  id : Uuid
  phiraId : Int64
  deriving DecidableEq, Repr

/-- `ReauthClaims` (auth/reauth.rs:33-44). -/
structure ReauthClaims where
  purpose : String
  sub : Uuid
  sid : Uuid
  principalType : PrincipalType
  clientType : ClientType
  risk : String
  iat : Int64
  exp : Int64
  deriving DecidableEq, Repr

/-- `RunbookStep` (automation/mod.rs:25-34). -/
structure RunbookStep where
  action : String
  args : Json
  waitSecs : Option ℕ
  deriving DecidableEq, Repr

/-- A `RunbookStep` in a stored definition. `wait_secs` is another name of `wait`, and a step that
    has both is refused as having the field twice. -/
def RunbookStep.fromValue (v : Json) : Option RunbookStep := do
  let field ← fieldsOf 3 v
  let action ← defaulted "" Json.asStr (field 0 "action")
  let args ← defaulted .null some (field 1 "with")
  guard ¬ ((v.get? "wait").isSome = true ∧ (v.get? "wait_secs").isSome = true)
  let waitSecs ← defaulted none (Serde.optional fun w => w.asU64.map (·.toNat))
    ((field 2 "wait").or (v.get? "wait_secs"))
  return ⟨action, args, waitSecs⟩

/-- `RunbookDefinition` (automation/mod.rs:15-22); only the steps are run. -/
structure RunbookDefinition where
  steps : List RunbookStep
  deriving DecidableEq, Repr

/-- A stored `RunbookDefinition`; its `args` may be any value, or missing. -/
def RunbookDefinition.fromValue (v : Json) : Option RunbookDefinition := do
  let field ← fieldsOf 4 v
  let _name ← required Json.asStr (field 0 "name")
  let _description ← defaulted "" Json.asStr (field 1 "description")
  let steps ← required Json.asArray (field 3 "steps")
  let steps ← steps.mapM RunbookStep.fromValue
  return ⟨steps⟩

/-- A row of `runbooks`: the stored JSON, and what `serde_json::from_value` makes
    of it as a `RunbookDefinition` (the error is serde's text). -/
structure RunbookRow where
  definition : Json
  parsed : Except String RunbookDefinition
  decodes : parsed.toOption = RunbookDefinition.fromValue definition

/-- A stored definition: a name, and steps of an action with its arguments. -/
def RunbookDefinition.valueOf (name : String) (steps : List (String × Json)) : Json :=
  .obj [("name", .str name),
    ("steps", .arr (steps.map fun step => .obj [("action", .str step.1), ("with", step.2)]))]

/-- It is read as these steps. -/
theorem RunbookDefinition.fromValue_valueOf (name : String) (steps : List (String × Json)) :
    fromValue (valueOf name steps) =
      some (RunbookDefinition.mk (steps.map fun step => RunbookStep.mk step.1 step.2 none)) := by
  have hsteps : (steps.map fun step => Json.obj [("action", .str step.1), ("with", step.2)]).mapM
      RunbookStep.fromValue = some (steps.map fun step => RunbookStep.mk step.1 step.2 none) := by
    induction steps with
    | nil => rfl
    | cons step steps ih =>
      rw [List.map_cons, List.mapM_cons, ih]
      rfl
  show ((steps.map fun step => Json.obj [("action", .str step.1), ("with", step.2)]).mapM
    RunbookStep.fromValue).bind (fun read => some (RunbookDefinition.mk read)) = _
  rw [hsteps]
  rfl

/-- Its row. -/
def RunbookRow.ofSteps (name : String) (steps : List (String × Json)) : RunbookRow where
  definition := RunbookDefinition.valueOf name steps
  parsed := .ok (RunbookDefinition.mk (steps.map fun step => RunbookStep.mk step.1 step.2 none))
  decodes := by rw [RunbookDefinition.fromValue_valueOf]; rfl

/-- What is written to `audit_events` besides the caller's own data. -/
structure AuditRecord where
  action : String
  resourceType : String
  resourceId : String
  parametersRedacted : Json
  result : String
  errorCode : String
  commandId : String
  ip : String
  userAgent : String
  deriving DecidableEq

/-- How waiting for a command's completion channel ends. -/
inductive Completion where
  | result (r : Except String Json)
  /-- the sender was dropped -/
  | dropped
  /-- the caller's own timeout ran out -/
  | timedOut

inductive Query where
  /-- the group query of `permissions_for_user` (permissions/resolver.rs:46-56) -/
  | groupRows (user : Uuid)
  /-- `users::repo::find_by_id` -/
  | findUserById (user : Uuid)
  /-- `SELECT id FROM users WHERE phira_id = $1` -/
  | findUserIdByPhiraId (phiraId : Int64)
  /-- `session::revoke_all_for_user` -/
  | revokeAllForUser (user : Uuid)
  /-- `OpenUdsClient::command_with_timeout` -/
  | openuds (command : String) (params : Json) (timeoutMs : Option ℕ)
  /-- `jsonwebtoken::decode::<ReauthClaims>` with the server's secret -/
  | decodeReauthToken (token : String)
  /-- `Utc::now().timestamp()` -/
  | now
  /-- `Uuid::new_v4()` -/
  | newUuid
  /-- `RateLimiter::check` -/
  | rateLimit (key : String) (perMinute : ℕ)
  /-- `CommandBroker::submit`; the answer is whether the task was accepted -/
  | submit (task : CommandTask)
  /-- the completion channel of a submitted task, with the caller's timeout -/
  | completion (commandId : Uuid) (timeoutSecs : Option ℕ)
  /-- the executor's end of the completion channel -/
  | complete (commandId : Uuid) (result : Except String Json)
  /-- `command_repo::insert_queued` -/
  | insertQueued (id : Uuid) (action actor resourceKey : String) (argsRedacted : Json)
  /-- `command_repo::insert_console_run` -/
  | insertConsoleRun (id : Uuid) (actor command scope : String)
  /-- `command_repo::mark_finished` -/
  | markFinished (id : Uuid) (status summary errorCode : String)
  /-- `audit::service::record_principal` -/
  | recordPrincipal (record : AuditRecord)
  /-- `audit::service::record_completed_command` -/
  | recordCompletedCommand (audit : CommandAudit) (argsRedacted : Json)
      (status errorCode commandId : String)
  /-- the row of `fetch_runbook` -/
  | findRunbook (id : Uuid)
  /-- `INSERT INTO runbook_runs` -/
  | insertRunbookRun (runbook : Uuid) (definition args : Json) (actor : String)
  /-- `UPDATE runbook_runs` -/
  | finishRunbookRun (id : Uuid) (status : String)
  /-- `tokio::time::sleep` -/
  | sleep (secs : ℕ)
  /-- `DeploymentAdapter::start_pmp` -/
  | startPmp (args : Json)
  /-- `DeploymentAdapter::stop_pmp` -/
  | stopPmp
  deriving DecidableEq

/-- What a question is answered with. -/
@[reducible]
def Query.Answer : Query → Type
  | .groupRows _ => Except DbError (List UserGroupPermRow)
  | .findUserById _ => Except DbError (Option User)
  | .findUserIdByPhiraId _ => Except String (Option Uuid)
  | .revokeAllForUser _ => Except String Unit
  | .openuds _ _ _ => Except OpenUdsError Json
  | .decodeReauthToken _ => Option ReauthClaims
  | .now => Int64
  | .newUuid => Uuid
  | .rateLimit _ _ => Except ApiError Unit
  | .submit _ => Bool
  | .completion _ _ => Completion
  | .complete _ _ => Unit
  | .insertQueued _ _ _ _ _ => Except DbError Unit
  | .insertConsoleRun _ _ _ _ => Except DbError Unit
  | .markFinished _ _ _ _ => Except DbError Unit
  | .recordPrincipal _ => Except DbError Unit
  | .recordCompletedCommand _ _ _ _ _ => Except DbError Unit
  | .findRunbook _ => Except DbError (Option RunbookRow)
  | .insertRunbookRun _ _ _ _ => Except DbError Uuid
  | .finishRunbookRun _ _ => Except DbError Unit
  | .sleep _ => Unit
  | .startPmp _ => Except String Json
  | .stopPmp => Except String Json

/-- A handler. -/
abbrev Server (α : Type) := Prog Query Query.Answer ApiError α

/-- Ask and return the answer. -/
abbrev ask {ε : Type} (q : Query) : Prog Query Query.Answer ε q.Answer := Prog.query q

/-- The history of a handler. -/
abbrev Asked := History Query Query.Answer

/-- A world in which every statement succeeds on empty tables, PMP answers `{}` and
    the clock stands at 0. -/
def emptyWorld : (q : Query) → q.Answer
  | .groupRows _ => .ok []
  | .findUserById _ => .ok none
  | .findUserIdByPhiraId _ => .ok none
  | .revokeAllForUser _ => .ok ()
  | .openuds _ _ _ => .ok .emptyObject
  | .decodeReauthToken _ => none
  | .now => 0
  | .newUuid => Uuid.nil
  | .rateLimit _ _ => .ok ()
  | .submit _ => true
  | .completion _ _ => .result (.ok .emptyObject)
  | .complete _ _ => ()
  | .insertQueued _ _ _ _ _ => .ok ()
  | .insertConsoleRun _ _ _ _ => .ok ()
  | .markFinished _ _ _ _ => .ok ()
  | .recordPrincipal _ => .ok ()
  | .recordCompletedCommand _ _ _ _ _ => .ok ()
  | .findRunbook _ => .ok none
  | .insertRunbookRun _ _ _ _ => .ok Uuid.nil
  | .finishRunbookRun _ _ => .ok ()
  | .sleep _ => ()
  | .startPmp _ => .ok .emptyObject
  | .stopPmp => .ok .emptyObject

/-- The configuration the handlers depend on. -/
structure AppState where
  /-- `state.db` is set -/
  db : Bool
  /-- `config.rate_limit.raw_cli_per_minute` -/
  rawCliPerMinute : ℕ

/-- The error of a missing database. -/
def noDatabase : ApiError := .new .internalError "database not configured"

/-- `AppState::require_db` (app.rs:85-89). -/
def AppState.requireDb (state : AppState) : Server Unit :=
  .failIf (state.db = false) noDatabase

theorem wp_requireDb_bind {ok : Asked → Event Query Query.Answer → Prop} {state : AppState}
    {h : Asked} {β : Type} {k : Unit → Server β} {S : Asked → Except ApiError β → Prop}
    (herr : S h (.error noDatabase)) (hk : Prog.wp ok (k ()) h S) :
    Prog.wp ok (state.requireDb >>= k) h S :=
  Prog.wp_failIf_bind (fun _ => herr) fun _ => hk

/-- `r.map_err(e)?` for the answer of a question. -/
def orFail {ε α : Type} (toApi : ε → ApiError) : Except ε α → Server α
  | .ok a => pure a
  | .error e => .fail (toApi e)

@[simp] theorem eval_orFail_ok {ε α : Type} (answer : (q : Query) → q.Answer) (toApi : ε → ApiError)
    (a : α) : (orFail toApi (.ok a)).eval answer = .ok a := rfl

@[simp] theorem eval_orFail_error {ε α : Type} (answer : (q : Query) → q.Answer)
    (toApi : ε → ApiError) (e : ε) :
    (orFail toApi (.error e : Except ε α)).eval answer = .error (toApi e) := rfl

@[simp] theorem eval_requireDb (answer : (q : Query) → q.Answer) (state : AppState) :
    state.requireDb.eval answer = if state.db = false then .error noDatabase else .ok () :=
  Prog.eval_failIf ..

theorem wp_orFail_bind {ok : Asked → Event Query Query.Answer → Prop} {h : Asked} {ε α β : Type}
    {toApi : ε → ApiError} {r : Except ε α} {k : α → Server β} {S : Asked → Except ApiError β → Prop}
    (herr : ∀ e, r = .error e → S h (.error (toApi e)))
    (hk : ∀ a, r = .ok a → Prog.wp ok (k a) h S) : Prog.wp ok (orFail toApi r >>= k) h S := by
  cases r with
  | ok a => exact hk a rfl
  | error e => exact herr e rfl

/-! ## Requests -/

/-- The request headers: for each name the first value, if it is visible ASCII
    (`HeaderValue::to_str`). -/
abbrev Headers := List (String × String)

/-- `headers.get(name).and_then(|v| v.to_str().ok())`. -/
def Headers.get (headers : Headers) (name : String) : Option String := Fields.get? headers name

/-- `ip_from_headers` (actions/routes.rs:366-374). -/
def ipFromHeaders (headers : Headers) : String :=
  match headers.get "x-forwarded-for" with
  | some s => String.ofList (Text.trimSpaces (s.toList.takeWhile fun c => c != ','))
  | none => ""

/-- `user_agent_from_headers` (actions/routes.rs:376-382). -/
def userAgentFromHeaders (headers : Headers) : String := (headers.get "user-agent").getD ""

end Ppb
