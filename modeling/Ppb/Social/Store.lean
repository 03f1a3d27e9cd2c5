import Ppb.Common.SharedStore
import Ppb.Common.Table
import Ppb.Server.Sql

/-!
# Friends and blocks (`social/mod.rs`, migrations/0001_init.sql:127-151)

Three tables: friend requests, of which there is at most one from one user to another
whatever its status; friendships, one row for a pair; and blocks.

`exec db e`: the tables after the statement `e`. A transaction is one statement: it takes
effect when it commits. A statement may fail, and then changes nothing.
-/

namespace Ppb.Social

/-- The statuses that the check of `friend_requests` allows. -/
inductive RequestStatus where
  | pending | accepted | declined | cancelled
  deriving DecidableEq, Repr

/-- `FriendRequest` (social/mod.rs:14-22), without its times. -/
structure FriendRequest where
  id : Uuid
  fromUserId : Uuid
  toUserId : Uuid
  status : RequestStatus
  deriving DecidableEq, Repr

/-- `PRIMARY KEY (id)` and `UNIQUE (from_user_id, to_user_id)`. -/
def RequestKeys (a b : FriendRequest) : Prop :=
  a.id ≠ b.id ∧ (a.fromUserId, a.toUserId) ≠ (b.fromUserId, b.toUserId)

instance : DecidableRel RequestKeys := fun a b =>
  inferInstanceAs (Decidable (a.id ≠ b.id ∧ (a.fromUserId, a.toUserId) ≠ (b.fromUserId, b.toUserId)))

/-- `normalize_pair` (social/mod.rs:171-177). -/
def normalizePair (a b : Uuid) : Uuid × Uuid := if a < b then (a, b) else (b, a)

structure Db where
  users : List User
  requests : Table FriendRequest RequestKeys
  friendships : List (Uuid × Uuid)
  blocks : List (Uuid × Uuid)
  /-- the requests whose transaction has run the `INSERT` of a friendship -/
  befriended : List Uuid

/-- No friends, no requests, no blocks. -/
def Db.new (users : List User) : Db := ⟨users, .empty, [], [], []⟩

inductive Query where
  | rateLimit (key : String)
  | findUser (phiraId : Int64)
  /-- the statement of `is_blocked` (social/mod.rs:247-257) -/
  | isBlocked (a b : Uuid)
  /-- the first statement of `send_request` (social/mod.rs:69-78) -/
  | areFriends (a b : Uuid)
  /-- the transaction of `send_request` (social/mod.rs:83-121) -/
  | insertRequest (fromUserId toUserId : Uuid)
  /-- the first statement of `respond_request` (social/mod.rs:132-139) -/
  | getRequest (id : Uuid)
  /-- the transaction of `respond_request` (social/mod.rs:150-166): the new status, and the
      pair of the friendship if there is to be one -/
  | respond (id : Uuid) (status : RequestStatus) (pair : Option (Uuid × Uuid))
  /-- `remove_friend` (social/mod.rs:181-187) -/
  | deleteFriendship (pair : Uuid × Uuid)
  /-- the first statement of `block` (social/mod.rs:267-272) -/
  | insertBlock (blocker blocked : Uuid)
  /-- `unblock` (social/mod.rs:279-284) -/
  | deleteBlock (blocker blocked : Uuid)
  deriving DecidableEq

@[reducible]
def Query.Answer : Query → Type
  | .rateLimit _ => Except ApiError Unit
  | .findUser _ => Except DbError (Option User)
  | .isBlocked .. | .areFriends .. => Except DbError Bool
  | .insertRequest .. | .getRequest _ => Except DbError (Option FriendRequest)
  | .respond .. | .deleteFriendship _ | .insertBlock .. | .deleteBlock .. => Except DbError Unit

namespace Db

/-- The two have a friendship, whichever way round it is stored. -/
def Friends (db : Db) (a b : Uuid) : Prop := (a, b) ∈ db.friendships ∨ (b, a) ∈ db.friendships

/-- One of the two has blocked the other. -/
def Blocked (db : Db) (a b : Uuid) : Prop := (a, b) ∈ db.blocks ∨ (b, a) ∈ db.blocks

instance (db : Db) (a b : Uuid) : Decidable (db.Friends a b) :=
  inferInstanceAs (Decidable (_ ∨ _))

instance (db : Db) (a b : Uuid) : Decidable (db.Blocked a b) :=
  inferInstanceAs (Decidable (_ ∨ _))

/-- The request from one user to another. -/
def requestOf (db : Db) (fromUserId toUserId : Uuid) : Option FriendRequest :=
  db.requests.rows.find? fun r => r.fromUserId == fromUserId && r.toUserId == toUserId

/-- `INSERT … ON CONFLICT (from_user_id, to_user_id) DO NOTHING RETURNING …`. -/
def insertRequest (db : Db) (fromUserId toUserId : Uuid) : Option FriendRequest → Option Db
  | none => if (db.requestOf fromUserId toUserId).isSome then some db else none
  | some r =>
    if r.fromUserId = fromUserId ∧ r.toUserId = toUserId ∧ r.status = .pending then
      (db.requests.insert r).map fun requests => { db with requests := requests }
    else none

/-- `INSERT INTO friendships … ON CONFLICT DO NOTHING`, with its check; `none` if the
    check fails. -/
def befriend (db : Db) (id : Uuid) (pair : Uuid × Uuid) : Option Db :=
  if pair.1 < pair.2 then
    some { db with friendships := db.friendships.insert pair, befriended := id :: db.befriended }
  else none

/-- `UPDATE friend_requests SET status = … WHERE id = …`, and the friendship. -/
def respond (db : Db) (id : Uuid) (status : RequestStatus) (pair : Option (Uuid × Uuid)) :
    Option Db := do
  let requests ← db.requests.update (·.id == id) fun r => { r with status := status }
  let db := { db with requests := requests }
  match pair with
  | some pair => db.befriend id pair
  | none => some db

end Db

/-- The tables after a statement and its answer; `none` if it is not answered so. -/
def exec (db : Db) (e : Event Query Query.Answer) : Option Db :=
  match e with
  | ⟨.rateLimit _, _⟩ => some db
  | ⟨.findUser phiraId, a⟩ => reads db (db.users.find? (·.phiraId == phiraId)) a
  | ⟨.isBlocked x y, a⟩ => reads db (decide (db.Blocked x y)) a
  | ⟨.areFriends x y, a⟩ => reads db (decide (db.Friends x y)) a
  | ⟨.insertRequest fromUserId toUserId, a⟩ =>
    orUnchanged db (db.insertRequest fromUserId toUserId) a
  | ⟨.getRequest id, a⟩ => reads db (db.requests.rows.find? (·.id == id)) a
  | ⟨.respond id status pair, a⟩ => orUnchanged db (fun _ => db.respond id status pair) a
  | ⟨.deleteFriendship pair, a⟩ => orUnchanged db (fun _ => some
      { db with friendships := db.friendships.filter (· ≠ pair) }) a
  | ⟨.insertBlock blocker blocked, a⟩ => orUnchanged db (fun _ => some
      { db with blocks := db.blocks.insert (blocker, blocked) }) a
  | ⟨.deleteBlock blocker blocked, a⟩ => orUnchanged db (fun _ => some
      { db with blocks := db.blocks.filter (· ≠ (blocker, blocked)) }) a

/-! ## What a statement does -/

variable {db db' : Db}

/-- What a statement can do to the tables. -/
inductive Effect (q : Query) (db db' : Db) : Prop
  | unchanged (h : db' = db)
  | requested (r : FriendRequest) (requests : Table FriendRequest RequestKeys)
      (hq : q = .insertRequest r.fromUserId r.toUserId) (hstatus : r.status = .pending)
      (hinsert : db.requests.insert r = some requests) (h : db' = { db with requests := requests })
  | responded (id : Uuid) (status : RequestStatus) (pair : Option (Uuid × Uuid))
      (hq : q = .respond id status pair) (h : db.respond id status pair = some db')
  | unfriended (pair : Uuid × Uuid) (hq : q = .deleteFriendship pair)
      (h : db' = { db with friendships := db.friendships.filter (· ≠ pair) })
  | blocked (x y : Uuid) (hq : q = .insertBlock x y)
      (h : db' = { db with blocks := db.blocks.insert (x, y) })
  | unblocked (x y : Uuid) (hq : q = .deleteBlock x y)
      (h : db' = { db with blocks := db.blocks.filter (· ≠ (x, y)) })

theorem exec_effect {e : Event Query Query.Answer} (h : exec db e = some db') :
    Effect e.1 db db' := by
  obtain ⟨q, a⟩ := e
  cases q with
  | rateLimit key => exact .unchanged (Option.some.inj h).symm
  | findUser phiraId | isBlocked x y | areFriends x y | getRequest id =>
    exact .unchanged (reads_cases h).1
  | insertRequest fromUserId toUserId =>
    rcases orUnchanged_cases h with h | ⟨row, -, h⟩
    · exact .unchanged h
    · cases row with
      | none =>
        simp only [Db.insertRequest] at h
        split_ifs at h
        exact .unchanged (Option.some.inj h).symm
      | some r =>
        simp only [Db.insertRequest] at h
        split_ifs at h with hrow
        obtain ⟨requests, hinsert, heq⟩ := Option.map_eq_some_iff.mp h
        exact .requested r requests (by rw [hrow.1, hrow.2.1]) hrow.2.2 hinsert heq.symm
  | respond id status pair =>
    rcases orUnchanged_cases h with h | ⟨-, -, h⟩
    · exact .unchanged h
    · exact .responded id status pair rfl h
  | deleteFriendship pair =>
    rcases orUnchanged_cases h with h | ⟨-, -, h⟩
    · exact .unchanged h
    · exact .unfriended pair rfl (Option.some.inj h).symm
  | insertBlock x y =>
    rcases orUnchanged_cases h with h | ⟨-, -, h⟩
    · exact .unchanged h
    · exact .blocked x y rfl (Option.some.inj h).symm
  | deleteBlock x y =>
    rcases orUnchanged_cases h with h | ⟨-, -, h⟩
    · exact .unchanged h
    · exact .unblocked x y rfl (Option.some.inj h).symm

/-- The transaction of `respond_request`: the status, and the friendship if there is to be one. -/
theorem respond_cases {id : Uuid} {status : RequestStatus} {pair : Option (Uuid × Uuid)}
    (h : db.respond id status pair = some db') :
    ∃ requests, db.requests.update (·.id == id) (fun r => { r with status := status }) = some requests ∧
      (pair = none ∧ db' = { db with requests := requests } ∨
        ∃ x, pair = some x ∧ x.1 < x.2 ∧ db' = { db with
          requests := requests
          friendships := db.friendships.insert x
          befriended := id :: db.befriended }) := by
  obtain ⟨requests, hupdate, h⟩ := Option.bind_eq_some_iff.mp h
  refine ⟨requests, hupdate, ?_⟩
  cases pair with
  | none => exact .inl ⟨rfl, (Option.some.inj h).symm⟩
  | some x =>
    simp only [Db.befriend] at h
    split_ifs at h with hlt
    exact .inr ⟨x, rfl, hlt, (Option.some.inj h).symm⟩

end Ppb.Social
