import Ppb.Admin.Config
import Ppb.Automation.Routes

/-!
# Notifications and runbooks (`admin/notifications.rs`, `automation/routes.rs`)

`send` stores a notification and tells its recipients; `create` and `update` store a runbook.
Each also stores who has done it.

Deviation: the counts of the push notifications are not part of the answer of `send`.
-/

namespace Ppb.Admin

open Prog Auth

/-! ## Notifications -/

/-- `NotificationActionKind` (notifications/mod.rs:14-25). -/
inductive NotificationActionKind where
  | joinRoom | friendAccept | friendReject | openChart | openReplay | openRoom | openUser
  | openProfile
  deriving DecidableEq, Repr

/-- `NotificationActionKind::as_str` (notifications/mod.rs:28-39). -/
def NotificationActionKind.toText : NotificationActionKind → String
  | .joinRoom => "join_room"
  | .friendAccept => "friend_accept"
  | .friendReject => "friend_reject"
  | .openChart => "open_chart"
  | .openReplay => "open_replay"
  | .openRoom => "open_room"
  | .openUser => "open_user"
  | .openProfile => "open_profile"

/-- `NotificationActionTarget` (notifications/mod.rs:43-54). -/
structure NotificationActionTarget where
  roomId : Option String
  chartId : Option Int64
  phiraId : Option Int64
  roundUuid : Option String
  friendRequestId : Option Uuid
  deriving DecidableEq, Repr

/-- `NotificationActionDraft` (notifications/mod.rs:57-67). -/
structure NotificationActionDraft where
  label : String
  labelKey : Option String
  action : NotificationActionKind
  data : NotificationActionTarget
  danger : Bool
  deriving DecidableEq, Repr

/-- `value.as_deref().is_some_and(|value| !value.trim().is_empty())`. -/
def isFilled (value : Option String) : Bool := value.any fun s => Text.trim s != ""

/-- `validate_action_target` (notifications/mod.rs:83-108). -/
def validateActionTarget (action : NotificationActionKind) (target : NotificationActionTarget) :
    Except ApiError Unit :=
  let valid :=
    match action with
    | .joinRoom | .openRoom => isFilled target.roomId
    | .friendAccept | .friendReject => target.friendRequestId.isSome
    | .openChart => target.chartId.isSome
    | .openReplay => isFilled target.roundUuid
    | .openUser | .openProfile => target.phiraId.isSome
  if valid = true then .ok ()
  else .error (.new .notificationActionTargetInvalid "notification action target is invalid")

/-- A field that is left out if it is `None`. -/
def optionalField (key : String) (value : Option Json) : List (String × Json) :=
  (value.map fun v => (key, v)).toList

/-- `json!` of a target. -/
def NotificationActionTarget.toJson (target : NotificationActionTarget) : Json :=
  .obj (optionalField "chart_id" (target.chartId.map Json.ofInt64) ++
    optionalField "friend_request_id" (target.friendRequestId.map fun id => .str id.toText) ++
    optionalField "phira_id" (target.phiraId.map Json.ofInt64) ++
    optionalField "room_id" (target.roomId.map .str) ++
    optionalField "round_uuid" (target.roundUuid.map .str))

/-- `json!` of the `NotificationActionWire` that a draft becomes. -/
def NotificationActionDraft.toJson (draft : NotificationActionDraft) (id : Uuid) : Json :=
  .obj ([("action", .str draft.action.toText), ("danger", .bool draft.danger),
    ("data", draft.data.toJson), ("id", .str id.toText), ("label", .str (Text.trim draft.label))] ++
    optionalField "label_key" ((draft.labelKey.filter fun s => Text.trim s != "").map .str))

/-- `normalize_action_drafts` (notifications/mod.rs:110-132). -/
def normalizeActionDrafts : List NotificationActionDraft → Handler (List Json)
  | [] => pure []
  | draft :: rest => do
    failIf (Text.trim draft.label = "" ∧ isFilled draft.labelKey = false)
      (.new .notificationActionTargetInvalid "notification action label or label_key is required")
    ofExcept (validateActionTarget draft.action draft.data)
    let id ← ask (.server .newUuid)
    let wires ← normalizeActionDrafts rest
    return draft.toJson id :: wires

/-- `SendBody` (admin/notifications.rs:25-44). -/
structure SendBody where
  notificationType : String
  title : String
  body : String
  priority : String
  target : Json
  actions : List NotificationActionDraft
  dedupKey : String
  payload : Json
  deriving DecidableEq

/-- `db_err` (admin/notifications.rs:279-286). -/
def notificationsDbErr : DbError → ApiError := dbErr .resourceNotFound "not found"

/-- The ids in an array of texts; what is no id is left out. -/
def uuidsOf (x : Extern) (items : List Json) : List Uuid :=
  items.filterMap fun v => v.asStr.bind x.parseUuid

/-- The members of each group (admin/notifications.rs:239-249). -/
def membersOf : List Uuid → Handler (List Uuid)
  | [] => pure []
  | group :: rest => do
    let rows ← ask (.groupMembers group)
    let rows ← mapErr notificationsDbErr rows
    let others ← membersOf rest
    return rows ++ others

/-- `resolve_recipients` (admin/notifications.rs:228-277). -/
def resolveRecipients (x : Extern) (target : Json) : Handler (List Uuid) :=
  let userIds := ((target.get? "user_ids").bind Json.asArray).map (uuidsOf x)
  if ((target.get? "all").bind Json.asBool).getD false = true then do
    let rows ← ask .listUsers
    mapErr notificationsDbErr rows
  else
    match (target.get? "group_ids").bind Json.asArray with
    | some groups => do
      let out ← membersOf (uuidsOf x groups)
      return (out.mergeSort (· ≤ ·)).destutter (· ≠ ·)
    | none =>
      match ((target.get? "group_id").bind Json.asStr).bind x.parseUuid with
      | some group => do
        let rows ← ask (.groupMembers group)
        mapErr notificationsDbErr rows
      | none => pure (userIds.getD [])

/-- The payload of the request with what the endpoint adds (admin/notifications.rs:97-115). -/
def sendPayload (body : SendBody) (actions : List Json) : Except ApiError Json :=
  let withFields (fields : List (String × Json)) : Json :=
    .obj ([("type", .str body.notificationType), ("priority", .str body.priority),
      ("title", .str body.title), ("body", .str body.body), ("actions", .arr actions),
      ("dedup_key", .str body.dedupKey), ("admin_target", body.target)].foldl
        (fun fields f => Fields.insert f.1 f.2 fields) fields)
  match body.payload with
  | .null => .ok (withFields [])
  | .obj fields => .ok (withFields fields)
  | _ => .error (.validation "notification payload must be an object")

/-- The push notifications (admin/notifications.rs:135-145); their results are only counted. -/
def notifyAll (body : SendBody) (payload : Json) : List Uuid → Handler Unit
  | [] => pure ()
  | user :: rest => do
    let _ ← ask (.notify user body.title body.body payload)
    notifyAll body payload rest

/-- `send` (admin/notifications.rs:86-151); the answer is the id of the event and how many
    recipients it has. -/
def send (x : Extern) (state : AdminState) (auth : AuthPrincipal) (body : SendBody) :
    Handler (Uuid × ℕ) := do
  call (require state.app auth "notification:send_system")
  call state.app.requireDb
  let actions ← normalizeActionDrafts body.actions
  let payload ← ofExcept (sendPayload body actions)
  let recipients ← resolveRecipients x body.target
  failIf (recipients = []) (.validation "notification target resolves to no users")
  let event ← ask (.publish body.notificationType (some auth.sub) payload recipients)
  let event ← mapErr notificationsDbErr event
  notifyAll body payload recipients
  return (event, recipients.length)

/-! ## Runbooks -/

/-- `CreateRunbookBody` (automation/routes.rs:122-128), with the `RunbookDefinition` in it. -/
structure CreateRunbookBody where
  name : String
  description : String
  definitionName : String
  definitionDescription : String
  args : Json
  steps : List RunbookStep
  deriving DecidableEq

/-- `serde_json::to_value` of a step. -/
def stepToJson (step : RunbookStep) : Json :=
  .obj [("action", .str step.action),
    ("wait", (step.waitSecs.map fun n => Json.num (.posInt (.ofNat n))).getD .null),
    ("with", step.args)]

/-- `serde_json::to_value` of the definition. -/
def CreateRunbookBody.definition (body : CreateRunbookBody) : Json :=
  .obj [("args", body.args), ("description", .str body.definitionDescription),
    ("name", .str body.definitionName), ("steps", .arr (body.steps.map stepToJson))]

/-- What `create` and `update` check first. -/
def runbookGuard (state : AdminState) (auth : AuthPrincipal) (body : CreateRunbookBody) :
    Handler Unit := do
  call (require state.app auth "automation:edit")
  call (orFail ApiError.validation (Automation.validateSteps body.steps))
  call state.app.requireDb

/-- `create` (automation/routes.rs:155-178); the answer is the id of the row. -/
def create (state : AdminState) (auth : AuthPrincipal) (body : CreateRunbookBody) :
    Handler Uuid := do
  runbookGuard state auth body
  let row ← ask (.insertRunbook (Text.trim body.name) body.description body.definition
    (some auth.sub))
  mapErr Automation.automationDbErr row

/-- `update` (automation/routes.rs:233-259). -/
def update (state : AdminState) (auth : AuthPrincipal) (id : Uuid) (body : CreateRunbookBody) :
    Handler Unit := do
  runbookGuard state auth body
  let row ← ask (.updateRunbook id (Text.trim body.name) body.description body.definition
    (some auth.sub))
  mapErr Automation.automationDbErr row

end Ppb.Admin
