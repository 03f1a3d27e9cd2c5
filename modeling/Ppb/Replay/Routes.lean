import Ppb.Replay.Store

/-!
# The replay endpoints (`replay/routes.rs`, `replay/visibility.rs`, `replay/persist.rs`)

`resolveReplayAccess` decides which player of a round a request may see: the one of the
share token, or the one asked for if the visibility of the pair allows it. `detail`,
`manifest`, `frames` and the viewer's WebSocket fetch that player's data from PMP, which
numbers players with 32 bits.

Deviations: the responses hold the batches themselves, where the source holds a summary
(`summarize_batches`) computed with floating-point numbers. The server has a database: the error of
`require_db` is left out.
-/

namespace Ppb.Replay

open Prog

/-- `ReplayRoundMeta` (replay/routes.rs:51-61). -/
structure ReplayRoundMeta where
  roundUuid : String
  chartId : Int32
  chartName : String
  roomId : String
  players : List Int32
  startedAt : Int64
  finishedAt : Option Int64
  deriving DecidableEq, Repr

/-- What other packages compute: SHA-256, and what `serde_json::from_value` makes of a JSON
    value. -/
structure Extern where
  hashToken : String → String
  roundMeta : Json → Option ReplayRoundMeta
  touchPoint : Json → Option Json
  judgeFrame : Json → Option Json

abbrev Handler (α : Type) := Prog Query Query.Answer ApiError α

abbrev ask (q : Query) : Handler q.Answer := query q

/-- `db_err` (replay/mod.rs:146-153, replay/visibility.rs:154-161). -/
def replayErr : DbError → ApiError := dbErr .replayNotFound "replay not found"

/-- `db_err` of users/repo.rs:70-77. -/
def userErr : DbError → ApiError := dbErr .userNotFound "user not found"

/-- `db_err` of social/mod.rs:287-294. -/
def socialErr : DbError → ApiError := dbErr .resourceNotFound "not found"

/-! ## Access -/

/-- The visibility of a pair with this row; the default is public. -/
def visibilityOf : Option Visibility → Visibility
  | some v => if v = .inherit then .public else v
  | none => .public

/-- `effective_visibility` (replay/visibility.rs:21-40). -/
def effectiveVisibility (round : String) (player : Int64) : Handler Visibility := do
  let row ← ask (.visibility round player)
  let row ← mapErr replayErr row
  return visibilityOf row

/-- `requester_phira_id` (replay/visibility.rs:58-67). -/
def requesterPhiraId (auth : AuthPrincipal) : Handler (Option Int64) :=
  if auth.isRoot = true then pure none
  else do
    let user ← ask (.findUser auth.sub)
    let user ← mapErr userErr user
    return user.map (·.phiraId)

/-- The end of `check_pair_access`: neither the owner of the override nor the player. -/
def checkListed (auth : AuthPrincipal) (row : Option ReplayOverride) :
    Visibility → Handler Bool
  | .friends => do
    let friends ← ask (.listFriends ((row.bind (·.ownerUserId)).getD Uuid.nil))
    let friends ← mapErr socialErr friends
    return friends.contains auth.sub
  | .custom =>
    match row with
    | none => pure false
    | some row => do
      let acl ← ask (.acl row.id auth.sub)
      let acl ← mapErr replayErr acl
      return acl == some true
  | _ => pure false

/-- `check_pair_access` (replay/visibility.rs:70-128). -/
def checkPairAccess (round : String) (player : Int64) (requester : Option AuthPrincipal) :
    Handler Bool := do
  let visibility ← effectiveVisibility round player
  if visibility = .public then return true
  else
    match requester with
    | none => return false
    | some auth =>
      if auth.isRoot = true then return true
      else
        let row ← ask (.override round player)
        let row ← mapErr replayErr row
        if row.bind (·.ownerUserId) = some auth.sub then return true
        else
          let own ← requesterPhiraId auth
          if own = some player then return true
          else checkListed auth row visibility

variable (x : Extern)

/-- `resolve_share_token` (replay/mod.rs:103-135). -/
def resolveShareToken (token : String) : Handler (String × Int64) := do
  let row ← ask (.linkByHash (x.hashToken token))
  let row ← mapErr replayErr row
  let link ← ofOption (.new .replayShareInvalid "invalid share token") row
  failIf (link.revokedAt.isSome = true) (.new .replayShareRevoked "share link revoked")
  match link.expiresAt with
  | some exp =>
    let now ← ask .now
    failIf (exp < now) (.new .replayShareExpired "share link expired")
    return (link.replayRound, link.playerPhiraId)
  | none => return (link.replayRound, link.playerPhiraId)

/-- `resolve_replay_access` (replay/visibility.rs:137-152). -/
def resolveReplayAccess (round : String) (requested : Int64) (requester : Option AuthPrincipal)
    (shareToken : Option String) : Handler (Option Int64) :=
  match shareToken with
  | some token => do
    let (shared, player) ← resolveShareToken x token
    return if shared = round then some player else none
  | none => do
    let allowed ← checkPairAccess round requested requester
    return if allowed then some requested else none

/-! ## Fetching from PMP -/

/-- `.map_err(ApiError::from)?`. -/
def fromPmp {Q : Type} {A : Q → Type} {α : Type} : Except OpenUdsError α → Prog Q A ApiError α
  | .ok a => pure a
  | .error e => .fail e.toApiError

/-- `MAX_PAGE` (replay/persist.rs:11). -/
def maxPage : Int64 := 500

/-- `batches_of` (replay/persist.rs:134-142). -/
def batchesOf (value : Json) : List Json :=
  match value.asArray with
  | some batches => batches
  | none => ((value.get? "data").bind Json.asArray).getD []

/-- The rounds of a `persist.rounds` response (replay/persist.rs:30-35). -/
def roundsOf (value : Json) : List Json :=
  match (value.get? "items").bind Json.asArray with
  | some items => items
  | none => value.asArray.getD []

/-- `fetch_batches` (replay/persist.rs:72-94). -/
def fetchBatches (stream : Stream) (since limit : Int64) (round : String) (player : Int32) :
    Handler (Except OpenUdsError Json) :=
  ask (.persist stream (max since 0) (max 1 (min limit maxPage)) round player)

/-- The highest sequence of a page. -/
def lastSequence (since : Int64) (batches : List Json) : Int64 :=
  (batches.filterMap fun b => (b.get? "sequence").bind Json.asI64).max?.getD since

/-- The loop of `fetch_all_batches` (replay/persist.rs:106-128): `all` are the batches so far. -/
def fetchAllFrom (stream : Stream) (round : String) (player : Int32) (all : List Json)
    (since : Int64) : Handler (List Json) :=
  fetchBatches stream since maxPage round player >>= fun page => fromPmp page >>= fun value =>
    if batchesOf value = [] then pure all
    else if _hlast : lastSequence since (batchesOf value) ≤ since then pure (all ++ batchesOf value)
    else if (all ++ batchesOf value).length % 500 ≠ 0 then pure (all ++ batchesOf value)
    else fetchAllFrom stream round player (all ++ batchesOf value)
      (lastSequence since (batchesOf value))
termination_by (Int64.maxValue.toInt - since.toInt).toNat
decreasing_by
  rw [Int64.le_iff_toInt_le, not_le] at _hlast
  have hmax := Int64.toInt_le (lastSequence since (batchesOf value))
  have heq : Int64.maxValue.toInt = 9223372036854775807 := by decide
  omega

/-- `fetch_all_batches` (replay/persist.rs:98-130). -/
def fetchAllBatches (stream : Stream) (round : String) (player : Int32) : Handler (List Json) :=
  fetchAllFrom stream round player [] 0

/-- `round_meta` (replay/routes.rs:104-117). -/
def roundMeta (round : String) (player : Int32) : Handler ReplayRoundMeta := do
  let value ← ask (.persist .rounds 0 1 round player)
  let value ← fromPmp value
  let found := ((roundsOf value).findSome? x.roundMeta).filter (·.players.contains player)
  ofOption (.new .replayNotFound "replay not found") found

/-! ## The endpoints -/

/-- `ReplayDetailParams` (replay/routes.rs:276-283). -/
structure ReplayDetailParams where
  playerId : Int64
  token : Option String
  deriving DecidableEq, Repr

/-- `ReplayDetail` and `ReplayManifest`; a manifest has no visibility. -/
structure ReplayDetail where
  roundUuid : String
  playerPhiraId : Int64
  roundMeta : ReplayRoundMeta
  visibility : Option Visibility
  touches : List Json
  judges : List Json

/-- The first step of every endpoint: the player that may be seen, or 403. -/
def pinPlayer (auth : Option AuthPrincipal) (round : String) (requested : Int64)
    (token : Option String) : Handler Int64 := do
  let player ← resolveReplayAccess x round requested auth token
  ofOption .permissionDenied player

/-- `detail` (replay/routes.rs:302-341). -/
def detail (auth : Option AuthPrincipal) (round : String) (params : ReplayDetailParams) :
    Handler ReplayDetail := do
  let player ← pinPlayer x auth round params.playerId params.token
  let visibility ← effectiveVisibility round player
  let info ← roundMeta x round player.toInt32
  let touches ← fetchBatches .touches 0 1 round player.toInt32
  let touches ← fromPmp touches
  let judges ← fetchBatches .judges 0 1 round player.toInt32
  let judges ← fromPmp judges
  return ⟨round, player, info, some visibility, batchesOf touches, batchesOf judges⟩

/-- `manifest` (replay/routes.rs:360-397). -/
def manifest (auth : Option AuthPrincipal) (round : String) (params : ReplayDetailParams) :
    Handler ReplayDetail := do
  let player ← pinPlayer x auth round params.playerId params.token
  let info ← roundMeta x round player.toInt32
  let touches ← fetchAllBatches .touches round player.toInt32
  let judges ← fetchAllBatches .judges round player.toInt32
  return ⟨round, player, info, none, touches, judges⟩

/-- `payload_items` (replay/routes.rs:399-406). -/
def payloadItems (parse : Json → Option Json) (batches : List Json) : List Json :=
  ((batches.filterMap fun b => (b.get? "payload").bind Json.asArray).flatten).filterMap parse

/-- `ReplayFramesResponse`. -/
structure ReplayFramesResponse where
  roundUuid : String
  playerPhiraId : Int64
  touches : List Json
  judges : List Json

/-- `frames` (replay/routes.rs:425-457). -/
def frames (auth : Option AuthPrincipal) (round : String) (params : ReplayDetailParams) :
    Handler ReplayFramesResponse := do
  let player ← pinPlayer x auth round params.playerId params.token
  let _ ← roundMeta x round player.toInt32
  let touches ← fetchAllBatches .touches round player.toInt32
  let judges ← fetchAllBatches .judges round player.toInt32
  return ⟨round, player, payloadItems x.touchPoint touches, payloadItems x.judgeFrame judges⟩

/-! ### The viewer -/

/-- `ReplayWsParams` (replay/routes.rs:585-592). -/
structure ReplayWsParams where
  token : Option String
  playerId : Option Int64
  deriving DecidableEq, Repr

/-- A message of the client; a text with what `serde_json::from_str` makes of it. -/
inductive Message where
  | text (parsed : Option Json)
  /-- a `Close` frame, or a broken connection -/
  | close
  | other
  deriving DecidableEq

def viewerError (message : String) : Json :=
  .obj [("message", .str message), ("type", .str "error")]

/-- The stream a `fetch` names. -/
def streamOf (parsed : Json) : Option Stream :=
  match ((parsed.get? "stream").bind Json.asStr).getD "touches" with
  | "touches" => some .touches
  | "judges" => some .judges
  | _ => none

def Stream.toText : Stream → String
  | .rounds => "rounds"
  | .touches => "touches"
  | .judges => "judges"

/-- The answer to a `fetch` (replay/routes.rs:676-694). -/
def batchesMessage (stream : Stream) (batches : List Json) (last : Int64) : Json :=
  .obj [("batches", .arr batches), ("done", .bool batches.isEmpty), ("last_sequence", .ofInt64 last),
    ("stream", .str stream.toText), ("type", .str "batches")]

/-- `replay_ws_task` (replay/routes.rs:630-705) over the messages of the client. -/
def replayWsTask (round : String) (pinned : Int32) : Int64 → List Message → Handler Unit
  | _, [] => pure ()
  | _, .close :: _ => pure ()
  | since, .other :: rest => replayWsTask round pinned since rest
  | since, .text none :: rest => do
    let _ ← ask (.send (viewerError "invalid json"))
    replayWsTask round pinned since rest
  | since, .text (some parsed) :: rest =>
    let type := ((parsed.get? "type").bind Json.asStr).getD ""
    if type = "close" then pure ()
    else if type ≠ "fetch" then do
      let _ ← ask (.send (viewerError "expected fetch"))
      replayWsTask round pinned since rest
    else
      match streamOf parsed with
      | none => do
        let _ ← ask (.send (viewerError "stream must be touches|judges"))
        replayWsTask round pinned since rest
      | some stream => do
        let since := ((parsed.get? "since").bind Json.asI64).getD since
        match ← fetchBatches stream since maxPage round pinned with
        | .ok value =>
          let batches := batchesOf value
          let last := lastSequence since batches
          let _ ← ask (.send (batchesMessage stream batches last))
          if batches = [] then pure () else replayWsTask round pinned last rest
        | .error e =>
          let _ ← ask (.send (viewerError e.toText))
          pure ()

/-- The player a viewer asks for (replay/routes.rs:606-620). -/
def requestedPlayer (auth : Option AuthPrincipal) (params : ReplayWsParams) : Handler Int64 :=
  if params.token.isSome = true then pure (params.playerId.getD 0)
  else
    match params.playerId, auth with
    | some player, _ => pure player
    | none, some principal => do
      let user ← ask (.findUser principal.sub)
      let user ← mapErr userErr user
      return (user.map (·.phiraId)).getD 0
    | none, none => .fail (.new .replayPlayerRequired "replay player_id required")

/-- `replay_ws` (replay/routes.rs:597-628), and the task it starts. -/
def replayWs (auth : Option AuthPrincipal) (round : String) (params : ReplayWsParams)
    (messages : List Message) : Handler Unit := do
  let requested ← requestedPlayer auth params
  let pinned ← pinPlayer x auth round requested params.token
  replayWsTask round pinned.toInt32 0 messages

/-! ### Share links -/

/-- `ensure_owner` (replay/routes.rs:549-581). -/
def ensureOwner (round : String) (player : Int64) (userId : Uuid) : Handler Unit := do
  let row ← ask (.override round player)
  let row ← mapErr replayErr row
  match row with
  | some o => failIf (o.ownerUserId ≠ some userId) .permissionDenied
  | none =>
    let user ← ask (.findUser userId)
    let user ← mapErr userErr user
    failIf (user.map (·.phiraId) ≠ some player) .permissionDenied

/-- `revoke_share` (replay/routes.rs:534-544). -/
def revokeShare (auth : AuthPrincipal) (round : String) (linkId : Uuid)
    (params : ReplayDetailParams) : Handler Unit := do
  ensureOwner round params.playerId auth.sub
  let revoked ← ask (.revokeLink linkId)
  let _ ← mapErr replayErr revoked
  return ()

end Ppb.Replay
