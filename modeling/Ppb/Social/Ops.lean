import Ppb.Social.Store

/-!
# The operations on friends and blocks (`social/mod.rs`, `social/routes.rs`)

`sendRequest`, `respondRequest`, `removeFriend`, `block`, `unblock` as programs over the
tables; `sendRequestRoute` is the endpoint, which looks for blocks first.

Deviation: the server has a database: the error of `require_db` is left out.
-/

namespace Ppb.Social

open Prog

abbrev Handler (α : Type) := Prog Query Query.Answer ApiError α

abbrev ask (q : Query) : Handler q.Answer := query q

/-- `db_err` of social/mod.rs:287-294. -/
def socialErr : DbError → ApiError := dbErr .resourceNotFound "not found"

/-- `db_err` of users/repo.rs:70-77. -/
def userErr : DbError → ApiError := dbErr .userNotFound "user not found"

/-- `send_request` (social/mod.rs:61-123). -/
def sendRequest (fromUserId toUserId : Uuid) : Handler FriendRequest := do
  failIf (fromUserId = toUserId) (.new .validationFailed "cannot friend yourself")
  let friend ← ask (.areFriends fromUserId toUserId)
  let friend ← mapErr socialErr friend
  failIf (friend = true) (.new .alreadyFriends "already friends")
  let inserted ← ask (.insertRequest fromUserId toUserId)
  let request ← mapErr socialErr inserted
  ofOption (.new .friendRequestAlreadySent "friend request already sent") request

/-- `send_request` (social/routes.rs:161-196), without the push at its end. -/
def sendRequestRoute (auth : AuthPrincipal) (phiraId : Int64) : Handler FriendRequest := do
  failIf (auth.isRoot = true) .permissionDenied
  let limited ← ask (.rateLimit ("social-request:" ++ Uuid.toText auth.sub))
  ofExcept limited
  let found ← ask (.findUser phiraId)
  let found ← mapErr userErr found
  let target ← ofOption (.new .userNotFound "user not found") found
  let blocked ← ask (.isBlocked auth.sub target.id)
  let blocked ← mapErr socialErr blocked
  failIf (blocked = true) (.new .userBlocked "user is blocked")
  sendRequest auth.sub target.id

/-- The status of an answer. -/
def answerStatus (accept : Bool) : RequestStatus := if accept then .accepted else .declined

/-- The friendship of a request that is accepted. -/
def friendshipOf (accept : Bool) (request : FriendRequest) : Option (Uuid × Uuid) :=
  if accept then some (normalizePair request.fromUserId request.toUserId) else none

/-- `respond_request` (social/mod.rs:126-168). -/
def respondRequest (id toUserId : Uuid) (accept : Bool) : Handler Unit := do
  let found ← ask (.getRequest id)
  let found ← mapErr socialErr found
  let request ← ofOption (.new .friendRequestNotFound "friend request not found") found
  failIf (request.toUserId ≠ toUserId) .permissionDenied
  failIf (request.status ≠ .pending) (.new .resourceConflict "request already handled")
  let responded ← ask (.respond id (answerStatus accept) (friendshipOf accept request))
  mapErr socialErr responded

/-- `remove_friend` (social/mod.rs:179-188). -/
def removeFriend (a b : Uuid) : Handler Unit := do
  let deleted ← ask (.deleteFriendship (normalizePair a b))
  mapErr socialErr deleted

/-- The second half of `block`: the result of `remove_friend` is ignored. -/
def removeBlocked (blocker blocked : Uuid) : Handler Unit :=
  (removeFriend blocker blocked).attempt >>= fun _ => pure ()

/-- `block` (social/mod.rs:263-276). -/
def block (blocker blocked : Uuid) : Handler Unit := do
  failIf (blocker = blocked) (.validation "cannot block yourself")
  let inserted ← ask (.insertBlock blocker blocked)
  mapErr socialErr inserted
  removeBlocked blocker blocked

/-- `unblock` (social/mod.rs:278-285). -/
def unblock (blocker blocked : Uuid) : Handler Unit := do
  let deleted ← ask (.deleteBlock blocker blocked)
  mapErr socialErr deleted

inductive Op where
  | sendRequest (auth : AuthPrincipal) (phiraId : Int64)
  | respondRequest (id toUserId : Uuid) (accept : Bool)
  | removeFriend (a b : Uuid)
  | block (blocker blocked : Uuid)
  | unblock (blocker blocked : Uuid)
  deriving DecidableEq

/-- The operations; of a request that was sent only that it was. -/
def Op.program : Op → Handler Unit
  | .sendRequest auth phiraId => do
    let _ ← sendRequestRoute auth phiraId
    return ()
  | .respondRequest id toUserId accept => Social.respondRequest id toUserId accept
  | .removeFriend a b => Social.removeFriend a b
  | .block blocker blocked => Social.block blocker blocked
  | .unblock blocker blocked => Social.unblock blocker blocked

/-- What an operation asks for. -/
def Op.MayAsk : Op → Query → Prop
  | .sendRequest _ _, .rateLimit _ | .sendRequest _ _, .findUser _
  | .sendRequest _ _, .isBlocked _ _ | .sendRequest _ _, .areFriends _ _
  | .sendRequest _ _, .insertRequest _ _ => True
  | .respondRequest id _ _, .getRequest id' => id' = id
  | .respondRequest id _ accept, .respond id' status pair =>
    id' = id ∧ status = answerStatus accept ∧ pair.isSome = accept
  | .removeFriend a b, .deleteFriendship pair => pair = normalizePair a b
  | .block a b, .insertBlock x y => (x, y) = (a, b)
  | .block a b, .deleteFriendship pair => pair = normalizePair a b
  | .unblock a b, .deleteBlock x y => (x, y) = (a, b)
  | _, _ => False

theorem only_program (op : Op) : op.program.Only op.MayAsk := by
  cases op with
  | sendRequest auth phiraId =>
    refine only_bind ?_ fun _ => trivial
    refine only_bind only_failIf fun _ => only_bind (only_query trivial) fun _ => ?_
    refine only_bind only_done fun _ => only_bind (only_query trivial) fun _ => ?_
    refine only_bind only_mapErr fun _ => only_bind only_ofOption fun _ => ?_
    refine only_bind (only_query trivial) fun _ => only_bind only_mapErr fun _ => ?_
    refine only_bind only_failIf fun _ => ?_
    refine only_bind only_failIf fun _ => only_bind (only_query trivial) fun _ => ?_
    refine only_bind only_mapErr fun _ => only_bind only_failIf fun _ => ?_
    exact only_bind (only_query trivial) fun _ => only_bind only_mapErr fun _ => only_ofOption
  | respondRequest id toUserId accept =>
    refine only_bind (only_query rfl) fun _ => only_bind only_mapErr fun _ => ?_
    refine only_bind only_ofOption fun request => only_bind only_failIf fun _ => ?_
    refine only_bind only_failIf fun _ => only_bind (only_query ?_) fun _ => only_mapErr
    exact ⟨rfl, rfl, by cases accept <;> rfl⟩
  | removeFriend a b => exact only_bind (only_query rfl) fun _ => only_mapErr
  | block blocker blocked =>
    refine only_bind only_failIf fun _ => only_bind (only_query rfl) fun _ => ?_
    refine only_bind only_mapErr fun _ => only_bind (only_attempt ?_) fun _ => trivial
    exact only_bind (only_query rfl) fun _ => only_mapErr
  | unblock blocker blocked => exact only_bind (only_query rfl) fun _ => only_mapErr

/-- The tables and the operations in progress. -/
abbrev System := Shared.Pool Query Query.Answer Db Op ApiError Unit

abbrev step : System → Shared.Label Query Query.Answer Op → Option System :=
  Shared.Pool.step exec Op.program

end Ppb.Social
