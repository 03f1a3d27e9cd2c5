import Ppb.JoinIntents.Store
import Ppb.Server.Error

/-!
# The operations on join intents (`join_intent/mod.rs`, `app.rs`)

* `create`, `get`, `cancel`, `listForUser`: what the API calls.
* `matchOnline`, `markMoving`, `markTerminal`: what the task for `user.online` calls;
  `fulfil` is one turn of that task.
* `cleanupExpired`: what the other task calls every minute.
-/

namespace Ppb.JoinIntents

open Prog

abbrev Handler (α : Type) := Prog Query Query.Answer ApiError α

abbrev ask (q : Query) : Handler q.Answer := query q

/-- `JoinIntentStore::create` (join_intent/mod.rs:69-101). -/
def create (userId : Uuid) (phiraId : Int64) (roomId : String) (ttlSecs : Option ℤ) :
    Handler JoinIntent := do
  let ttl := ttlSecs.getD defaultTtlSecs
  failIf (¬ (1 ≤ ttl ∧ ttl ≤ maxTtlSecs)) (.validation "ttl_secs must be between 1 and 900")
  failIf (Text.trim roomId = "") (.validation "room_id required")
  let now ← ask .now
  let room := Text.trim roomId
  let expiresAt := now + ttl.toNat * second
  let (id, previous) ← ask (.insertIntent userId phiraId room now expiresAt)
  match previous with
  | some prev => ask (.removePhira prev.phiraId id)
  | none => pure ()
  let () ← ask (.insertPhira phiraId id)
  return ⟨id, userId, phiraId, room, now, expiresAt, .pending⟩

/-- `JoinIntentStore::get` (join_intent/mod.rs:105-116). -/
def get (userId id : Uuid) : Handler JoinIntent := do
  let found ← ask (.getIntent id)
  match found with
  | none => fail (.notFound "join intent")
  | some intent =>
    if intent.userId = userId then
      let now ← ask .now
      return { intent with status := effectiveStatus now intent }
    else fail .permissionDenied

/-- `JoinIntentStore::cancel` (join_intent/mod.rs:118-131). -/
def cancel (userId id : Uuid) : Handler Unit := do
  let found ← ask (.getIntent id)
  match found with
  | none => fail (.notFound "join intent")
  | some intent =>
    if intent.userId = userId then
      let () ← ask (.removePhira intent.phiraId id)
      let _ ← ask (.removeIntent id)
      return ()
    else fail .permissionDenied

/-- The entries of a list, each with its effective status. -/
def effectiveAll : List JoinIntent → Handler (List JoinIntent)
  | [] => return []
  | intent :: rest => do
    let now ← ask .now
    let out ← effectiveAll rest
    return { intent with status := effectiveStatus now intent } :: out

/-- `JoinIntentStore::list_for_user` (join_intent/mod.rs:134-145). -/
def listForUser (userId : Uuid) : Handler (List JoinIntent) := do
  let now ← ask .now
  let all ← ask .listIntents
  effectiveAll (all.filter fun e =>
    e.userId = userId ∧ now < e.expiresAt + terminalRetentionSecs * second)

/-- `JoinIntentStore::match_online` (join_intent/mod.rs:149-159). -/
def matchOnline (phiraId : Int64) : Handler (Option JoinIntent) := do
  let index ← ask (.getPhira phiraId)
  match index with
  | none => return none
  | some id =>
    let found ← ask (.lookIntent id)
    match found with
    | none => return none
    | some intent =>
      let now ← ask .now
      if effectiveStatus now intent = .pending then
        let () ← ask (.updateStatus id .userOnline)
        return some { intent with status := .userOnline }
      else return none

/-- `JoinIntentStore::mark_moving` (join_intent/mod.rs:161-163). -/
def markMoving (id : Uuid) : Handler Unit := ask (.updateStatus id .moving)

/-- `JoinIntentStore::mark_terminal` (join_intent/mod.rs:167-173). -/
def markTerminal (id : Uuid) (status : Status) : Handler Unit := do
  let found ← ask (.getIntent id)
  let () ← ask (.updateStatus id status)
  match found with
  | some intent => ask (.removePhira intent.phiraId id)
  | none => return ()

/-- The status after a move (app.rs:295-302). -/
def moveStatus (ok : Bool) : Status := if ok then .completed else .failed

/-- The body of the loop of `cleanup_expired` (join_intent/mod.rs:188-204): how many it has
    removed. -/
def cleanupOne (now : ℕ) (id : Uuid) : Handler ℕ := do
  let found ← ask (.getIntent id)
  match found with
  | none =>
    -- `unwrap_or_default`: expired since 1970, and no terminal status
    let () ← ask (.updateStatus id .expired)
    return 0
  | some intent =>
    if now < intent.expiresAt then return 0
    else if intent.status.isTerminal = true then
      if now - intent.expiresAt > terminalRetentionSecs * second then
        let removed ← ask (.removeIntent id)
        match removed with
        | some intent =>
          let () ← ask (.removePhira intent.phiraId id)
          return 1
        | none => return 0
      else return 0
    else
      let () ← ask (.updateStatus id .expired)
      return 0

def cleanupAll (now : ℕ) : List Uuid → Handler ℕ
  | [] => return 0
  | id :: rest => do
    let n ← cleanupOne now id
    let m ← cleanupAll now rest
    return n + m

/-- `JoinIntentStore::cleanup_expired` (join_intent/mod.rs:183-207). -/
def cleanupExpired : Handler ℕ := do
  let now ← ask .now
  let ids ← ask .intentIds
  cleanupAll now ids

/-- A frame of the event stream, as far as the task reads it. -/
structure EventFrame where
  eventType : String
  userId : Option Int64
  deriving DecidableEq

/-- `spawn_join_intent_task`: one frame (app.rs:275-304). -/
def fulfil (frame : EventFrame) : Handler Unit := do
  let phiraId := frame.userId.getD 0
  if frame.eventType = "user.online" ∧ 0 < phiraId then
    let matched ← matchOnline phiraId
    match matched with
    | none => return ()
    | some intent =>
      markMoving intent.id
      let ok ← ask (.forceMove intent.id intent.roomId phiraId.toInt32)
      markTerminal intent.id (moveStatus ok)
  else return ()

/-- What an operation of the store returns. -/
inductive Reply where
  | intent (intent : JoinIntent)
  | intents (intents : List JoinIntent)
  | matched (intent : Option JoinIntent)
  | removed (n : ℕ)
  | ok
  deriving DecidableEq

inductive Op where
  | create (userId : Uuid) (phiraId : Int64) (roomId : String) (ttlSecs : Option ℤ)
  | get (userId id : Uuid)
  | cancel (userId id : Uuid)
  | listForUser (userId : Uuid)
  | matchOnline (phiraId : Int64)
  | markMoving (id : Uuid)
  /-- with `completed` or `failed`, as a move has ended -/
  | markTerminal (id : Uuid) (ok : Bool)
  | cleanupExpired
  deriving DecidableEq

def Op.program : Op → Handler Reply
  | .create userId phiraId roomId ttlSecs => return .intent (← JoinIntents.create userId phiraId roomId ttlSecs)
  | .get userId id => return .intent (← JoinIntents.get userId id)
  | .cancel userId id => do
    let () ← JoinIntents.cancel userId id
    return .ok
  | .listForUser userId => return .intents (← JoinIntents.listForUser userId)
  | .matchOnline phiraId => return .matched (← JoinIntents.matchOnline phiraId)
  | .markMoving id => do
    let () ← JoinIntents.markMoving id
    return .ok
  | .markTerminal id ok => do
    let () ← JoinIntents.markTerminal id (moveStatus ok)
    return .ok
  | .cleanupExpired => return .removed (← JoinIntents.cleanupExpired)

end Ppb.JoinIntents
