import Ppb.Actions.Routes

/-!
# Room endpoints (`rooms/routes.rs`)

`execute_room_action` and `admin_room_action` are `execute_action` scoped to a
room: the path's room id is added to the arguments unless these have one. The
batch endpoint runs one of four actions in several rooms, one after the other.
-/

namespace Ppb.Rooms

open Prog Auth Commands Actions

/-- `verify_real_host` (rooms/routes.rs:1096-1108), with `caller_phira_id`
    (rooms/routes.rs:897-903). -/
def verifyRealHost : AppState → AuthPrincipal → Json → Server Bool :=
  verifyRealHostOr (.new .userNotFound "user not found")

/-- The authorization of `execute_room_action` (rooms/routes.rs:269-281) and of
    `admin_room_action` (rooms/routes.rs:569-580). -/
def authorizeRoomAction (state : AppState) (auth : AuthPrincipal) (action : ActionDescriptor)
    (args : Json) : Server Unit := do
  let granted ← hasPermission state auth action.permission
  let isHost ← (if action.hostAllowed then verifyRealHost state auth args else pure false)
  failIf (granted = false ∧ isHost = false) .permissionDenied

/-- The two room endpoints; they differ in the audit's resource. -/
def roomAction (resource : String → String × String) (state : AppState) (auth : AuthPrincipal)
    (headers : Headers) (roomId actionId : String) (args : Json) : Server Response := do
  let action ← ofOption (.notFound "action") (getAction actionId)
  rejectOtherPlanes action
  let args := mergeArg "room_id" (.str roomId) args
  authorizeRoomAction state auth action args
  reauthGate auth headers action
  state.requireDb
  let commandId ← enqueue auth headers action args resource !action.longRunning
  awaitResult action commandId (queuedBody commandId)

/-- `execute_room_action` (rooms/routes.rs:233-351). -/
def executeRoomAction : AppState → AuthPrincipal → Headers → String → String → Json →
    Server Response :=
  roomAction fun key => ("action", key)

/-- `admin_room_action` (rooms/routes.rs:536-643). -/
def adminRoomAction (state : AppState) (auth : AuthPrincipal) (headers : Headers)
    (roomId actionId : String) (args : Json) : Server Response :=
  roomAction (fun _ => ("room", roomId)) state auth headers roomId actionId args

/-! ## Batch -/

/-- `RoomBatchItemResult` (rooms/routes.rs:652-659). -/
structure RoomBatchItemResult where
  roomUuid : String
  ok : Bool
  result : Option Json
  error : Option (ErrorCode × String)

/-- `RoomBatchResponse` (rooms/routes.rs:662-666). -/
structure RoomBatchResponse where
  items : List RoomBatchItemResult
  succeeded : ℕ
  failed : ℕ

/-- `results.push(item)`, counted as succeeded or failed. -/
def RoomBatchResponse.push (r : RoomBatchResponse) (item : RoomBatchItemResult) :
    RoomBatchResponse :=
  { items := r.items ++ [item]
    succeeded := if item.ok then r.succeeded + 1 else r.succeeded
    failed := if item.ok then r.failed else r.failed + 1 }

/-- `RoomBatchBody` (rooms/routes.rs:669-677). -/
structure RoomBatchBody where
  action : String
  roomIds : List String
  args : Json
  dryRun : Bool

/-- The actions the batch endpoint takes (rooms/routes.rs:703). -/
def isBatchAction (id : String) : Bool :=
  id == "room.kick" || id == "room.force_move" || id == "room.ban" || id == "room.unban"

/-- The target of a batch (rooms/routes.rs:712-723). -/
def batchTarget (args : Json) : Option Int64 :=
  (((args.get? "phira_id").or (args.get? "user_id")).bind Json.asI64).filter fun v => decide (0 < v)

/-- The arguments for one room (rooms/routes.rs:742-748). -/
def batchArgs (args : Json) (roomId : String) (phiraId : Int64) : Json :=
  match args with
  | .obj fields =>
    let fields := Fields.insert "room_id" (.str roomId) fields
    if (Fields.get? fields "user_id").isNone then
      .obj (Fields.insert "phira_id" (Json.ofInt64 phiraId) fields)
    else .obj fields
  | _ => args

/-- `room_contains_player` (rooms/routes.rs:882-893). -/
def roomContainsPlayer (room : Json) (phiraId : Int64) : Bool :=
  match (room.get? "players").bind Json.asArray with
  | some players => players.any fun player => ["phira_id", "user_id", "id"].any fun key =>
      (player.get? key).bind Json.asI64 == some phiraId
  | none => false

/-- A failed item of a batch. -/
def itemFailed (roomId : String) (code : ErrorCode) (message : String) : RoomBatchItemResult :=
  { roomUuid := roomId, ok := false, result := none, error := some (code, message) }

/-- One room of a batch (rooms/routes.rs:742-877). -/
def batchItem (state : AppState) (auth : AuthPrincipal) (headers : Headers)
    (action : ActionDescriptor) (args : Json) (phiraId : Int64) (dryRun : Bool) (roomId : String) :
    Server RoomBatchItemResult := do
  match ← ask (roomInfo roomId) with
  | .error _ => return itemFailed roomId .roomNotFound "room not found"
  | .ok room =>
    if action.id = "room.kick" ∧ roomContainsPlayer room phiraId = false then
      return itemFailed roomId .roomUserNotPresent "target player is not present in room"
    else if dryRun then
      return { roomUuid := roomId, ok := true, error := none,
               result := some (.obj [("action", .str action.id), ("dry_run", .bool true),
                 ("phira_id", Json.ofInt64 phiraId)]) }
    else
      state.requireDb
      let commandId ← enqueue auth headers action (batchArgs args roomId phiraId)
        (fun _ => ("room", roomId)) true
      match ← ask (.completion commandId (some 30)) with
      | .result (.ok v) => return { roomUuid := roomId, ok := true, result := some v, error := none }
      | .result (.error _) => return itemFailed roomId .pmpCommandFailed "command failed"
      | .dropped => return itemFailed roomId .pmpCommandFailed "command completion channel closed"
      | .timedOut => return itemFailed roomId .pmpCommandTimeout "command timed out"

/-- The loop over the rooms (rooms/routes.rs:738-878). -/
def batchLoop (state : AppState) (auth : AuthPrincipal) (headers : Headers)
    (action : ActionDescriptor) (args : Json) (phiraId : Int64) (dryRun : Bool) :
    List String → RoomBatchResponse → Server RoomBatchResponse
  | [], response => pure response
  | roomId :: rest, response => do
    let item ← batchItem state auth headers action args phiraId dryRun roomId
    batchLoop state auth headers action args phiraId dryRun rest (response.push item)

/-- The error of an action the batch endpoint does not take. -/
def batchUnsupported : ApiError :=
  .new .roomBatchActionUnsupported "unsupported room batch action"

/-- `admin_room_actions_batch` (rooms/routes.rs:692-880). -/
def adminRoomActionsBatch (state : AppState) (auth : AuthPrincipal) (headers : Headers)
    (body : RoomBatchBody) : Server RoomBatchResponse := do
  let action ← ofOption batchUnsupported (getAction body.action)
  failIf (isBatchAction action.id = false) batchUnsupported
  failIf (body.roomIds = [])
    (.new .roomBatchTargetRequired "room batch requires at least one room")
  let phiraId ← ofOption (.new .roomBatchTargetRequired "room batch requires args.phira_id")
    (batchTarget body.args)
  require state auth action.permission
  reauthGate auth headers action
  batchLoop state auth headers action body.args phiraId body.dryRun body.roomIds ⟨[], 0, 0⟩

end Ppb.Rooms
