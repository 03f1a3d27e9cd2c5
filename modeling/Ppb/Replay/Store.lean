import Ppb.Common.Json
import Ppb.Common.SharedStore
import Ppb.Common.Table
import Ppb.Server.Sql

/-!
# Who may see a replay (`replay/mod.rs`, `replay/visibility.rs`)

A replay is a pair of a round and a player. PPB keeps the policy: an override of the
visibility of a pair, an access list for it, and share links, of which only the hash of
the token is stored. The replay itself is fetched from PMP.

`exec db e`: the tables after the statement `e`. A statement may fail, and then changes
nothing.
-/

namespace Ppb.Replay

/-- The visibilities that the check of `replay_overrides` allows. -/
inductive Visibility where
  | inherit | «public» | friends | «private» | unlisted | custom
  deriving DecidableEq, Repr

/-- `ReplayOverride` (replay/mod.rs:19-26), without its time. -/
structure ReplayOverride where
  id : Uuid
  pmpReplayId : String
  playerPhiraId : Int64
  ownerUserId : Option Uuid
  visibility : Visibility
  deriving DecidableEq, Repr

/-- `PRIMARY KEY (id)` and `UNIQUE (pmp_replay_id, player_phira_id)`. -/
def OverrideKeys (a b : ReplayOverride) : Prop :=
  a.id ≠ b.id ∧ (a.pmpReplayId, a.playerPhiraId) ≠ (b.pmpReplayId, b.playerPhiraId)

instance : DecidableRel OverrideKeys := fun a b => inferInstanceAs (Decidable
  (a.id ≠ b.id ∧ (a.pmpReplayId, a.playerPhiraId) ≠ (b.pmpReplayId, b.playerPhiraId)))

/-- `ReplayShareLink` (replay/mod.rs:29-37). -/
structure ReplayShareLink where
  id : Uuid
  replayRound : String
  playerPhiraId : Int64
  tokenHash : String
  createdBy : Uuid
  expiresAt : Option ℕ
  revokedAt : Option ℕ
  deriving DecidableEq, Repr

/-- `PRIMARY KEY (id)` and `UNIQUE (token_hash)`. -/
def LinkKeys (a b : ReplayShareLink) : Prop := a.id ≠ b.id ∧ a.tokenHash ≠ b.tokenHash

instance : DecidableRel LinkKeys := fun a b =>
  inferInstanceAs (Decidable (a.id ≠ b.id ∧ a.tokenHash ≠ b.tokenHash))

/-- A row of `replay_acl`; its effect is `allow` or `deny`. -/
structure AclRow where
  replayId : Uuid
  userId : Uuid
  allow : Bool
  deriving DecidableEq, Repr

structure Db where
  users : List User
  overrides : Table ReplayOverride OverrideKeys
  acl : List AclRow
  friendships : List (Uuid × Uuid)
  links : Table ReplayShareLink LinkKeys

/-- What is kept by PMP: the rounds, and the telemetry in two streams. -/
inductive Stream where
  | rounds | touches | judges
  deriving DecidableEq, Repr

inductive Query where
  /-- the statement of `effective_visibility` (replay/visibility.rs:27-35) -/
  | visibility (round : String) (player : Int64)
  /-- the row of a pair (replay/visibility.rs:47-55, replay/routes.rs:555-563) -/
  | override (round : String) (player : Int64)
  /-- `users::repo::find_by_id` -/
  | findUser (id : Uuid)
  /-- `social::list_friends` -/
  | listFriends (user : Uuid)
  /-- the access list of an override (replay/visibility.rs:112-119) -/
  | acl (replayId userId : Uuid)
  /-- the statement of `resolve_share_token` (replay/mod.rs:108-115) -/
  | linkByHash (tokenHash : String)
  /-- `Utc::now()` -/
  | now
  /-- `revoke_share_link` (replay/mod.rs:137-144); the answer is the time it writes -/
  | revokeLink (id : Uuid)
  /-- a page of `persist.rounds`, `persist.touches` or `persist.judges` for one player of a
      round (replay/persist.rs:15-36, 72-94); `since` is not sent for rounds -/
  | persist (stream : Stream) (since limit : Int64) (round : String) (player : Int32)
  /-- a message to the client of the viewer -/
  | send (message : Json)
  deriving DecidableEq

@[reducible]
def Query.Answer : Query → Type
  | .visibility .. => Except DbError (Option Visibility)
  | .override .. => Except DbError (Option ReplayOverride)
  | .findUser _ => Except DbError (Option User)
  | .listFriends _ => Except DbError (List Uuid)
  | .acl .. => Except DbError (Option Bool)
  | .linkByHash _ => Except DbError (Option ReplayShareLink)
  | .now => ℕ
  | .revokeLink _ => Except DbError ℕ
  | .persist .. => Except OpenUdsError Json
  | .send _ => Unit

namespace Db

variable (db : Db)

/-- The override of a pair. -/
def overrideOf (round : String) (player : Int64) : Option ReplayOverride :=
  db.overrides.rows.find? fun o => o.pmpReplayId == round && o.playerPhiraId == player

def findUser (id : Uuid) : Option User := db.users.find? (·.id == id)

/-- `CASE WHEN user_a = $1 THEN user_b ELSE user_a END … WHERE user_a = $1 OR user_b = $1`. -/
def friendsOf (user : Uuid) : List Uuid :=
  (db.friendships.filter fun f => f.1 == user || f.2 == user).map fun f =>
    if f.1 = user then f.2 else f.1

def aclOf (replayId userId : Uuid) : Option Bool :=
  (db.acl.find? fun r => r.replayId == replayId && r.userId == userId).map (·.allow)

def linkOf (tokenHash : String) : Option ReplayShareLink :=
  db.links.rows.find? (·.tokenHash == tokenHash)

/-- `UPDATE replay_share_links SET revoked_at = now() WHERE id = …`. -/
def revokeLink (id : Uuid) (time : ℕ) : Option Db :=
  (db.links.update (·.id == id) fun l => { l with revokedAt := some time }).map
    fun links => { db with links := links }

end Db

/-- The tables after a statement and its answer; `none` if it is not answered so. -/
def exec (db : Db) (e : Event Query Query.Answer) : Option Db :=
  match e with
  | ⟨.visibility round player, a⟩ => reads db ((db.overrideOf round player).map (·.visibility)) a
  | ⟨.override round player, a⟩ => reads db (db.overrideOf round player) a
  | ⟨.findUser id, a⟩ => reads db (db.findUser id) a
  | ⟨.listFriends user, a⟩ => reads db (db.friendsOf user) a
  | ⟨.acl replayId userId, a⟩ => reads db (db.aclOf replayId userId) a
  | ⟨.linkByHash tokenHash, a⟩ => reads db (db.linkOf tokenHash) a
  | ⟨.now, _⟩ => some db
  | ⟨.revokeLink id, a⟩ => orUnchanged db (db.revokeLink id) a
  | ⟨.persist .., _⟩ => some db
  | ⟨.send _, _⟩ => some db

/-- Only `revoke_share_link` changes anything. -/
theorem exec_cases {db db' : Db} {e : Event Query Query.Answer} (h : exec db e = some db') :
    db' = db ∨ ∃ id time, e = ⟨.revokeLink id, .ok time⟩ ∧ db.revokeLink id time = some db' := by
  obtain ⟨q, a⟩ := e
  cases q with
  | visibility round player | override round player | findUser id | listFriends user
  | acl replayId userId | linkByHash tokenHash => exact .inl (reads_cases h).1
  | now | persist stream since limit round player | send message =>
    exact .inl (Option.some.inj h).symm
  | revokeLink id =>
    rcases orUnchanged_cases h with h | ⟨time, rfl, hrevoke⟩
    · exact .inl h
    · exact .inr ⟨id, time, rfl, hrevoke⟩

end Ppb.Replay
