import Ppb.Server.World

/-!
# Action registry (`actions/types.rs`, `actions/registry.rs`)

An action is known by its id. Its descriptor says which permission it needs, who
executes it and which queue it waits in.
-/

namespace Ppb.Actions

/-- `Executor` (actions/types.rs:8-17). -/
inductive Executor where
  | openUds
  /-- a fixed `cli.execute` text -/
  | cliExecute
  /-- `cli.execute` with text chosen by the client -/
  | cliRaw
  | internal
  deriving DecidableEq, Repr

/-- `Risk` (actions/types.rs:20-27). -/
inductive Risk where
  | low | medium | high | critical
  deriving DecidableEq, Repr

/-- The derived order of `Risk`. -/
def Risk.rank : Risk → ℕ
  | .low => 0
  | .medium => 1
  | .high => 2
  | .critical => 3

/-- `ActionDescriptor` (actions/types.rs:30-45). -/
structure ActionDescriptor where
  id : String
  permission : String
  executor : Executor
  risk : Risk
  audit : Bool
  reauth : Bool
  hostAllowed : Bool
  queueKey : String
  longRunning : Bool
  deriving DecidableEq, Repr

/-- The queue of the room an action is about. -/
def roomKey : String := "room:\x7broom_id\x7d"

/-- The queue of the user an action is about. -/
def userKey : String := "user:\x7buser_id\x7d"

/-- `seed_actions` (actions/registry.rs:14-73). -/
def seedActions : List ActionDescriptor :=
  [⟨"room.kick", "room:kick", .openUds, .medium, true, false, true, roomKey, false⟩,
    ⟨"room.force_move", "room:move", .openUds, .medium, true, false, true, roomKey, false⟩,
    ⟨"room.start", "room:start", .openUds, .medium, true, false, true, roomKey, false⟩,
    ⟨"room.cancel_start", "room:start", .openUds, .medium, true, false, true, roomKey, false⟩,
    ⟨"room.ready", "room:start", .openUds, .low, true, false, false, roomKey, false⟩,
    ⟨"room.close", "room:manage", .openUds, .high, true, false, false, roomKey, false⟩,
    ⟨"room.set_chart", "room:config", .openUds, .medium, true, false, true, roomKey, false⟩,
    ⟨"room.lock", "room:config", .openUds, .medium, true, false, true, roomKey, false⟩,
    ⟨"room.cycle", "room:config", .openUds, .medium, true, false, true, roomKey, false⟩,
    ⟨"room.set_live", "room:config", .openUds, .medium, true, false, true, roomKey, false⟩,
    ⟨"room.set_hidden", "room:config", .openUds, .medium, true, false, true, roomKey, false⟩,
    ⟨"room.set_persistent", "room:config", .openUds, .medium, true, false, true, roomKey, false⟩,
    ⟨"room.set_api_endpoint", "room:config", .openUds, .high, true, false, false, roomKey, false⟩,
    ⟨"room.set_host", "room:config", .openUds, .high, true, false, false, roomKey, false⟩,
    ⟨"room.set_degraded", "room:config", .openUds, .high, true, false, false, roomKey, false⟩,
    ⟨"room.ban", "room:blacklist", .openUds, .medium, true, false, true, roomKey, false⟩,
    ⟨"room.unban", "room:blacklist", .openUds, .medium, true, false, true, roomKey, false⟩,
    ⟨"room.whitelist_add", "room:whitelist", .openUds, .medium, true, false, true, roomKey, false⟩,
    ⟨"room.whitelist_remove", "room:whitelist", .openUds, .medium, true, false, true, roomKey, false⟩,
    ⟨"player.kick", "user:kick", .openUds, .medium, true, false, false, userKey, false⟩,
    ⟨"player.ban", "user:ban", .openUds, .high, true, true, false, userKey, false⟩,
    ⟨"player.unban", "user:ban", .openUds, .medium, true, true, false, userKey, false⟩,
    ⟨"player.ban_ip", "user:ban_ip", .openUds, .high, true, true, false, "server", false⟩,
    ⟨"player.unban_ip", "user:ban_ip", .openUds, .high, true, true, false, "server", false⟩,
    ⟨"broadcast.all", "broadcast:all", .openUds, .high, true, false, false, "server", false⟩,
    ⟨"broadcast.room", "broadcast:room", .openUds, .medium, true, false, false, roomKey, false⟩,
    ⟨"broadcast.user", "broadcast:user", .openUds, .medium, true, false, false, "server", false⟩,
    ⟨"server.config_reload", "config:reload", .openUds, .high, true, false, false, "config:pmp", false⟩,
    ⟨"server.roomcreation", "server:manage", .openUds, .high, true, false, false, "server", false⟩,
    ⟨"server.shutdown", "server:shutdown", .openUds, .critical, true, true, false, "server", false⟩,
    ⟨"server.start", "server:start", .internal, .critical, true, true, false, "server", false⟩,
    ⟨"server.supervisor_stop", "server:shutdown", .internal, .critical, true, true, false, "server", false⟩,
    ⟨"server.connections", "server:manage", .cliExecute, .high, true, false, false, "server", false⟩,
    ⟨"pmp.cli.execute", "pmp:cli", .cliRaw, .high, true, true, false, "server", false⟩,
    ⟨"pmp.update.apply", "server:update", .cliExecute, .critical, true, true, false, "server", true⟩,
    ⟨"pmp.update.check", "server:update", .cliExecute, .high, true, false, false, "server", false⟩,
    ⟨"pmp.update.cancel", "server:update", .cliExecute, .high, true, false, false, "server", false⟩,
    ⟨"pmp.update.force", "server:update", .cliExecute, .critical, true, true, false, "server", true⟩,
    ⟨"user.revoke_sessions", "user:kick", .internal, .high, true, false, false, userKey, false⟩]

/-- `ActionRegistry::get` (actions/registry.rs:109-111). -/
def getAction (id : String) : Option ActionDescriptor := seedActions.find? fun a => a.id == id

/-- `is_job_only_action` (actions/registry.rs:90-95). -/
def isJobOnlyAction (id : String) : Bool :=
  id == "pmp.update.check" || id == "pmp.update.apply" || id == "pmp.update.cancel" ||
    id == "pmp.update.force"

/-- `ActionRegistry::resolve_queue_key` (actions/registry.rs:118-130). -/
def resolveQueueKey (action : ActionDescriptor) (args : Json) : String :=
  if !action.queueKey.toList.contains '\x7b' then action.queueKey
  else
    let key := match (args.get? "room_id").bind Json.asStr with
      | some roomId => Text.replaceAll action.queueKey "\x7broom_id\x7d" roomId
      | none => action.queueKey
    match args.get? "user_id" with
    | some userId => Text.replaceAll key "\x7buser_id\x7d" userId.render
    | none => key

theorem getAction_mem {id : String} {a : ActionDescriptor} (h : getAction id = some a) :
    a ∈ seedActions := List.mem_of_find?_eq_some h

theorem getAction_id {id : String} {a : ActionDescriptor} (h : getAction id = some a) :
    a.id = id := by
  have hid := List.find?_some h
  simpa using hid

theorem getAction_self {id : String} {a : ActionDescriptor} (h : getAction id = some a) :
    getAction a.id = some a := by
  rw [getAction_id h]
  exact h

/-- A queue key with a room in it, and one with a user in it. -/
example : (getAction "room.kick").map (fun a => resolveQueueKey a (.obj [("room_id", .str "ABC")])) =
    some "room:ABC" := by decide

example : (getAction "player.ban").map
    (fun a => resolveQueueKey a (.obj [("user_id", .num (.posInt 42))])) = some "user:42" := by
  decide

end Ppb.Actions
