import Ppb.Admin.Recipients
import Ppb.Common.Transactions
import Ppb.Server.Sql

/-!
# Inboxes (`notifications/mod.rs`, `notifications/routes.rs`)

`publish_to_users` stores an event and a row for each of its recipients in one transaction. A
user lists his rows that are not dismissed, and marks rows as read or dismissed by their ids.
All of that goes on at the same time, and any statement may fail.

* `Sound`: what holds of the tables; `Op.Commits`: what a request may commit.
* `safely_program`: every request keeps the one and is within the other.
* `inbox_sound`: in every run, an event is there with the rows of all its recipients; nobody but
  its user changes a row, and never back; and what is dismissed is never listed again.

Deviations: the form in which a row is sent (`wire_notification`) is left out, and so are the
users, whom the rows refer to, and the error of `require_db` on a server without a database.
-/

namespace Ppb.Notifications.Inbox

open Admin (userRows)
open Prog Transactions Trace

/-! ## Rows -/

/-- `NotificationEvent` (notifications/mod.rs:166-174). -/
structure NotificationEvent where
  id : Uuid
  notificationType : String
  actorUserId : Option Uuid
  payload : Json
  createdAt : ℕ
  deriving DecidableEq

/-- `UserNotification` (notifications/mod.rs:177-184). -/
structure UserNotification where
  id : Uuid
  eventId : Uuid
  userId : Uuid
  readAt : Option ℕ
  dismissedAt : Option ℕ
  createdAt : ℕ
  deriving DecidableEq

/-- `UserNotificationWithEvent` (notifications/mod.rs:271-283): the columns of a row and those of
    its event. -/
structure UserNotificationWithEvent where
  row : UserNotification
  event : NotificationEvent
  deriving DecidableEq

structure Db where
  events : List NotificationEvent
  rows : List UserNotification

def Db.new : Db := ⟨[], []⟩

namespace Db

def event (db : Db) (id : Uuid) : Option NotificationEvent := db.events.find? (·.id == id)

def row (db : Db) (id : Uuid) : Option UserNotification := db.rows.find? (·.id == id)

/-- The rows of a user, with their events. -/
def joined (db : Db) (user : Uuid) : List UserNotificationWithEvent :=
  (db.rows.filter (·.userId == user)).filterMap fun r => (db.event r.eventId).map (⟨r, ·⟩)

/-- Those in the inbox. -/
def visible (db : Db) (user : Uuid) : List UserNotificationWithEvent :=
  (db.joined user).filter (·.row.dismissedAt.isNone)

/-- Whom an event has reached. -/
def reached (db : Db) (event : Uuid) : List Uuid :=
  (db.rows.filter (·.eventId == event)).map (·.userId)

end Db

/-! ## Writes -/

/-- The column that a request sets. -/
inductive Mark where
  | read
  | dismissed
  deriving DecidableEq

def UserNotification.mark (r : UserNotification) (now : ℕ) : Mark → UserNotification
  | .read => { r with readAt := some now }
  | .dismissed => { r with dismissedAt := some now }

inductive Write where
  | addEvent (event : NotificationEvent)
  /-- `INSERT INTO user_notifications … ON CONFLICT DO NOTHING` -/
  | addRow (row : UserNotification)
  | mark (m : Mark) (id user : Uuid) (now : ℕ)
  deriving DecidableEq

/-- What a write does; `none` if it would violate a constraint. -/
def Db.apply (db : Db) : Write → Option Db
  | .addEvent event =>
    if event.id ∈ db.events.map (·.id) then none else some { db with events := db.events ++ [event] }
  | .addRow row =>
    if (row.eventId, row.userId) ∈ db.rows.map fun r => (r.eventId, r.userId) then some db
    else if row.id ∈ db.rows.map (·.id) ∨ row.eventId ∉ db.events.map (·.id) then none
    else some { db with rows := db.rows ++ [row] }
  | .mark m id user now => some { db with
      rows := db.rows.map fun r => if r.id = id ∧ r.userId = user then r.mark now m else r }

/-- The rows a write changes. -/
def Write.touches : Write → List Uuid
  | .addEvent _ => []
  | .addRow row => [row.id]
  | .mark _ id _ _ => [id]

/-- What a row becomes. -/
structure UserNotification.Later (r r' : UserNotification) : Prop where
  same : (r'.id, r'.eventId, r'.userId, r'.createdAt) = (r.id, r.eventId, r.userId, r.createdAt)
  read : r.readAt.isSome = true → r'.readAt.isSome = true
  dismissed : r.dismissedAt.isSome = true → r'.dismissedAt.isSome = true

/-- What no write undoes. -/
structure Db.Later (db db' : Db) : Prop where
  events : ∀ e ∈ db.events, e ∈ db'.events
  rows : ∀ r ∈ db.rows, ∃ r' ∈ db'.rows, r.Later r'

variable {db db' : Db} {w : Write} {r : UserNotification}

theorem UserNotification.Later.refl (r : UserNotification) : r.Later r :=
  ⟨rfl, fun h => h, fun h => h⟩

theorem later_mark (r : UserNotification) (now : ℕ) (m : Mark) : r.Later (r.mark now m) := by
  cases m with
  | read => exact ⟨rfl, fun _ => rfl, id⟩
  | dismissed => exact ⟨rfl, id, fun _ => rfl⟩

theorem Db.Later.refl (db : Db) : db.Later db := ⟨fun _ h => h, fun r hr => ⟨r, hr, .refl r⟩⟩

theorem Db.Later.trans {db'' : Db} (h : db.Later db') (h' : db'.Later db'') : db.Later db'' := by
  refine ⟨fun e he => h'.events e (h.events e he), fun r hr => ?_⟩
  obtain ⟨r₁, hr₁, hl₁⟩ := h.rows r hr
  obtain ⟨r₂, hr₂, hl₂⟩ := h'.rows r₁ hr₁
  exact ⟨r₂, hr₂, hl₂.same.trans hl₁.same, fun hs => hl₂.read (hl₁.read hs),
    fun hs => hl₂.dismissed (hl₁.dismissed hs)⟩

theorem later_apply (h : db.apply w = some db') : db.Later db' := by
  cases w with
  | addEvent event =>
    simp only [Db.apply] at h
    split_ifs at h
    obtain rfl := Option.some.inj h
    exact ⟨fun e he => List.mem_append_left _ he, fun r hr => ⟨r, hr, .refl r⟩⟩
  | addRow row =>
    simp only [Db.apply] at h
    split_ifs at h
    · obtain rfl := Option.some.inj h
      exact .refl db
    · obtain rfl := Option.some.inj h
      exact ⟨fun e he => he, fun r hr => ⟨r, List.mem_append_left _ hr, .refl r⟩⟩
  | mark m id user now =>
    obtain rfl := Option.some.inj h
    refine ⟨fun e he => he, fun r hr => ⟨_, List.mem_map_of_mem hr, ?_⟩⟩
    split_ifs
    · exact later_mark r now m
    · exact .refl r

theorem mark_id (r : UserNotification) (now : ℕ) (m : Mark) : (r.mark now m).id = r.id := by
  cases m <;> rfl

theorem row_apply {k : Uuid} (h : db.apply w = some db') (hk : k ∉ w.touches) :
    db'.row k = db.row k := by
  cases w with
  | addEvent event =>
    simp only [Db.apply] at h
    split_ifs at h
    obtain rfl := Option.some.inj h
    rfl
  | addRow row =>
    have hne : row.id ≠ k := fun hid => hk (hid ▸ List.mem_cons_self)
    simp only [Db.apply] at h
    split_ifs at h
    · obtain rfl := Option.some.inj h
      rfl
    · obtain rfl := Option.some.inj h
      simp [Db.row, List.find?_append, hne]
  | mark m id user now =>
    have hne : id ≠ k := fun hid => hk (hid ▸ List.mem_cons_self)
    obtain rfl := Option.some.inj h
    rw [Db.row, Db.row, List.find?_map]
    have hkey : (fun r : UserNotification => r.id == k) ∘
        (fun r => if r.id = id ∧ r.userId = user then r.mark now m else r) = fun r => r.id == k := by
      funext r
      show ((if r.id = id ∧ r.userId = user then r.mark now m else r).id == k) = (r.id == k)
      split_ifs
      · rw [mark_id]
      · rfl
    rw [hkey]
    cases hfind : db.rows.find? (fun r => r.id == k) with
    | none => rfl
    | some r =>
      have hid : r.id = k := by simpa using List.find?_some hfind
      exact congrArg some (if_neg fun h => hne (h.1.symm.trans hid))

/-- The tables, with the rows of the inboxes as those that are locked. -/
def tables : Tables Db Write Uuid (Option UserNotification) where
  apply := Db.apply
  touches := Write.touches
  row := Db.row
  Later := Db.Later
  refl := .refl
  trans := .trans
  later := later_apply
  frame := row_apply

/-! ## Statements -/

inductive Query where
  | begin
  | commit
  /-- the transaction is dropped -/
  | rollback
  /-- `INSERT INTO notification_events … RETURNING …` -/
  | insertEvent (notificationType : String) (actorUserId : Option Uuid) (payload : Json)
  /-- the answer has the id and the time of the row, which nobody reads -/
  | insertRow (event user : Uuid)
  /-- `UPDATE user_notifications SET … = now()`; nobody reads the time -/
  | update (m : Mark) (id user : Uuid)
  | get (user id : Uuid)
  | countVisible (user : Uuid)
  | countUnread (user : Uuid)
  /-- `… ORDER BY un.created_at DESC LIMIT … OFFSET …` -/
  | page (user : Uuid) (limit offset : Int64)
  deriving DecidableEq

@[reducible]
def Query.Answer : Query → Type
  | .begin | .commit => Except DbError Unit
  | .rollback => Unit
  | .insertEvent .. => Except DbError NotificationEvent
  | .insertRow .. => Except DbError (Uuid × ℕ)
  | .update .. => Except DbError ℕ
  | .get .. => Except DbError (Option UserNotificationWithEvent)
  | .countVisible _ | .countUnread _ => Except DbError ℕ
  | .page .. => Except DbError (List UserNotificationWithEvent)

/-- What a statement does if it does not fail. -/
def orFails {α : Type} (ok : α → Option (Does Write Uuid)) :
    Except DbError α → Option (Does Write Uuid)
  | .ok a => ok a
  | .error .other => some .nothing
  | .error .rowNotFound => none

/-- A page of rows, the newest first; rows of the same time come in any order. -/
def IsPage (all : List UserNotificationWithEvent) (limit offset : Int64)
    (page : List UserNotificationWithEvent) : Prop :=
  0 ≤ limit ∧ 0 ≤ offset ∧ ∃ rows ∈ all.permutations,
    rows.Pairwise (fun a b => b.row.createdAt ≤ a.row.createdAt) ∧
    page = (rows.drop offset.toInt.toNat).take limit.toInt.toNat

instance IsPage.decidable (all : List UserNotificationWithEvent) (limit offset : Int64)
    (page : List UserNotificationWithEvent) : Decidable (IsPage all limit offset page) := by
  unfold IsPage
  infer_instance

/-- What a statement and its answer do if `db` is committed. -/
def does (db : Db) : Event Query Query.Answer → Option (Does Write Uuid)
  | ⟨.begin, a⟩ => orFails (fun _ => some .begin) a
  | ⟨.commit, a⟩ => orFails (fun _ => some .commit) a
  | ⟨.rollback, _⟩ => some .rollback
  | ⟨.insertEvent notificationType actorUserId payload, a⟩ => orFails (fun event =>
      if event = ⟨event.id, notificationType, actorUserId, payload, event.createdAt⟩ then
        some (.write (.addEvent event))
      else none) a
  | ⟨.insertRow event user, a⟩ =>
    orFails (fun r => some (.write (.addRow ⟨r.1, event, user, none, none, r.2⟩))) a
  | ⟨.update m id user, a⟩ => orFails (fun now => some (.autocommit (.mark m id user now))) a
  | ⟨.get user id, a⟩ => orFails (fun found =>
      if found = (db.joined user).find? (·.row.id == id) then some .nothing else none) a
  | ⟨.countVisible user, a⟩ =>
    orFails (fun n => if n = (db.visible user).length then some .nothing else none) a
  | ⟨.countUnread user, a⟩ => orFails (fun n =>
      if n = db.rows.countP (fun r => r.userId == user && r.readAt.isNone && r.dismissedAt.isNone)
      then some .nothing else none) a
  | ⟨.page user limit offset, a⟩ => orFails (fun page =>
      if IsPage (db.visible user) limit offset page then some .nothing else none) a

/-! ## The requests -/

abbrev Handler (α : Type) := Prog Query Query.Answer ApiError α

abbrev ask (q : Query) : Handler q.Answer := query q

/-- `db_err` (notifications/mod.rs:457-464). -/
def inboxErr : DbError → ApiError := dbErr .resourceNotFound "notification not found"

/-- The rows of an event (notifications/mod.rs:256-266). -/
def insertRows (event : Uuid) : List Uuid → Handler Unit
  | [] => pure ()
  | uid :: rest => do
    let r ← ask (.insertRow event uid)
    let _ ← mapErr inboxErr r
    insertRows event rest

/-- The transaction of `publish_to_users`. -/
def publishBody (notificationType : String) (actorUserId : Option Uuid) (payload : Json)
    (recipients : List Uuid) : Handler NotificationEvent := do
  let event ← ask (.insertEvent notificationType actorUserId payload)
  let event ← mapErr inboxErr event
  insertRows event.id recipients
  let committed ← ask .commit
  mapErr inboxErr committed
  return event

/-- `publish_to_users` (notifications/mod.rs:236-269); the transaction is dropped unless it is
    committed. -/
def publishToUsers (notificationType : String) (actorUserId : Option Uuid) (payload : Json)
    (recipients : List Uuid) : Handler NotificationEvent := do
  let begun ← ask .begin
  mapErr inboxErr begun
  let r ← ((publishBody notificationType actorUserId payload recipients).attempt :
    Handler (Except ApiError NotificationEvent))
  match r with
  | .ok event => pure event
  | .error e => do
    ask .rollback
    fail e

/-- `list_inbox` (notifications/mod.rs:358-399). -/
def listInbox (user : Uuid) (limit offset : Int64) :
    Handler (List UserNotificationWithEvent × ℕ × ℕ) := do
  let total ← ask (.countVisible user)
  let total ← mapErr inboxErr total
  let unread ← ask (.countUnread user)
  let unread ← mapErr inboxErr unread
  let rows ← ask (.page user limit offset)
  let rows ← mapErr inboxErr rows
  return (rows, total, unread)

/-- `NotificationInboxResponse`, with the rows as they come from the database. -/
structure NotificationInboxResponse where
  items : List UserNotificationWithEvent
  total : ℕ
  page : Int64
  pageNum : Int64
  unread : ℕ
  deriving DecidableEq

/-- `GET /notifications` (notifications/routes.rs:151-176). The offset may wrap around. -/
def list (auth : AuthPrincipal) (page pageNum : Option Int64) :
    Handler NotificationInboxResponse := do
  failIf (auth.isRoot = true) .permissionDenied
  let page := let p := page.getD 1; if p < 1 then 1 else p
  let pageNum := let n := pageNum.getD 50; if n < 1 then 1 else if 100 < n then 100 else n
  let (rows, total, unread) ← listInbox auth.sub pageNum ((page - 1) * pageNum)
  return ⟨rows, total, page, pageNum, unread⟩

/-- `read` and `dismiss` (notifications/routes.rs:189-203, 216-230): the row is looked up, and then
    `mark_read` or `mark_dismissed`. -/
def set (m : Mark) (auth : AuthPrincipal) (id : Uuid) : Handler Unit := do
  failIf (auth.isRoot = true) .permissionDenied
  let found ← ask (.get auth.sub id)
  let found ← mapErr inboxErr found
  let _ ← ofOption (.new .notificationNotFound "notification not found") found
  let updated ← ask (.update m id auth.sub)
  let _ ← mapErr inboxErr updated
  return ()

inductive Op where
  | publish (notificationType : String) (actorUserId : Option Uuid) (payload : Json)
      (recipients : List Uuid)
  | list (auth : AuthPrincipal) (page pageNum : Option Int64)
  | set (m : Mark) (auth : AuthPrincipal) (id : Uuid)

inductive Reply where
  | event (event : NotificationEvent)
  | inbox (response : NotificationInboxResponse)
  | noContent

def program : Op → Handler Reply
  | .publish notificationType actorUserId payload recipients => do
    let event ← publishToUsers notificationType actorUserId payload recipients
    return .event event
  | .list auth page pageNum => do
    let response ← list auth page pageNum
    return .inbox response
  | .set m auth id => do
    set m auth id
    return .noContent

abbrev System := Shared.Pool Query Query.Answer (Store Db Write Uuid) Op ApiError Reply

abbrev step : System → Shared.Label Query Query.Answer Op → Option System :=
  Transactions.step tables does program

/-- Nobody has been told anything. -/
def start : System := ⟨.start .new, []⟩

/-! ## What holds of the tables -/

structure Sound (db : Db) : Prop where
  events : (db.events.map (·.id)).Nodup
  rows : (db.rows.map (·.id)).Nodup
  pairs : (db.rows.map fun r => (r.eventId, r.userId)).Nodup
  joined : ∀ r ∈ db.rows, r.eventId ∈ db.events.map (·.id)

theorem sound_new : Sound .new := ⟨.nil, .nil, .nil, nofun⟩

/-- The rows after one of the user's is marked. -/
def Db.marked (db : Db) (m : Mark) (id user : Uuid) (now : ℕ) : Db :=
  { db with rows := db.rows.map fun r => if r.id = id ∧ r.userId = user then r.mark now m else r }

theorem mark_same (r : UserNotification) (now : ℕ) (m : Mark) :
    ((r.mark now m).eventId, (r.mark now m).userId) = (r.eventId, r.userId) := by
  cases m <;> rfl

/-- A mark leaves what the rows are known by. -/
theorem map_marked {β : Type} {m : Mark} {id user : Uuid} {now : ℕ} {f : UserNotification → β}
    (hf : ∀ r : UserNotification, f (r.mark now m) = f r) :
    (db.marked m id user now).rows.map f = db.rows.map f := by
  rw [Db.marked, List.map_map]
  refine List.map_congr_left fun r _ => ?_
  show f (if r.id = id ∧ r.userId = user then r.mark now m else r) = f r
  split_ifs
  · exact hf r
  · rfl

theorem nodup_snoc {β : Type} {l : List β} {x : β} (hl : l.Nodup) (hx : x ∉ l) :
    (l ++ [x]).Nodup := by
  refine List.nodup_append.mpr ⟨hl, List.nodup_singleton x, fun a ha b hb heq => hx ?_⟩
  rw [← List.mem_singleton.mp hb, ← heq]
  exact ha

theorem sound_apply (h : Sound db) (happly : db.apply w = some db') : Sound db' := by
  cases w with
  | addEvent event =>
    simp only [Db.apply] at happly
    split_ifs at happly with hmem
    obtain rfl := Option.some.inj happly
    refine ⟨?_, h.rows, h.pairs, fun r hr => ?_⟩
    · rw [List.map_append]
      exact nodup_snoc h.events hmem
    · rw [List.map_append]
      exact List.mem_append_left _ (h.joined r hr)
  | addRow row =>
    simp only [Db.apply] at happly
    split_ifs at happly with hpair hfresh
    · exact Option.some.inj happly ▸ h
    · obtain rfl := Option.some.inj happly
      rw [not_or, not_not] at hfresh
      refine ⟨h.events, ?_, ?_, fun r hr => ?_⟩
      · rw [List.map_append]
        exact nodup_snoc h.rows hfresh.1
      · rw [List.map_append]
        exact nodup_snoc h.pairs hpair
      · rcases List.mem_append.mp hr with hr | hr
        · exact h.joined r hr
        · rw [List.mem_singleton.mp hr]
          exact hfresh.2
  | mark m id user now =>
    obtain rfl := Option.some.inj happly
    show Sound (db.marked m id user now)
    refine ⟨h.events, ?_, ?_, fun r hr => ?_⟩
    · rw [map_marked fun r => mark_id r now m]
      exact h.rows
    · rw [map_marked fun r => mark_same r now m]
      exact h.pairs
    · have hmem := List.mem_map_of_mem (f := fun r : UserNotification => (r.eventId, r.userId)) hr
      rw [map_marked fun r => mark_same r now m] at hmem
      obtain ⟨r₀, hr₀, heq⟩ := List.mem_map.mp hmem
      rw [← (Prod.mk.inj heq).1]
      exact h.joined r₀ hr₀

theorem sound_foldlM {ws : List Write} (h : Sound db) (hws : ws.foldlM Db.apply db = some db') :
    Sound db' := by
  induction ws generalizing db with
  | nil => exact Option.some.inj hws ▸ h
  | cons w ws ih =>
    obtain ⟨db₁, h₁, h₂⟩ := Option.bind_eq_some_iff.mp hws
    exact ih (sound_apply h h₁) h₂

/-! ## What a request commits -/

/-- An event with a row for each of its recipients, none of them marked. -/
def Publishes (notificationType : String) (actorUserId : Option Uuid) (payload : Json)
    (recipients : List Uuid) (db db' : Db) : Prop :=
  ∃ (event : NotificationEvent) (rows : List UserNotification),
    event = ⟨event.id, notificationType, actorUserId, payload, event.createdAt⟩ ∧
    event.id ∉ db.events.map (·.id) ∧ db' = ⟨db.events ++ [event], db.rows ++ rows⟩ ∧
    rows.map (·.userId) = userRows recipients ∧
    ∀ r ∈ rows, r.eventId = event.id ∧ r.readAt = none ∧ r.dismissedAt = none

def Op.Commits : Op → Db → Db → Prop
  | .publish notificationType actorUserId payload recipients, db, db' =>
    Publishes notificationType actorUserId payload recipients db db'
  | .set m auth id, db, db' => ∃ now, db' = db.marked m id auth.sub now
  | .list .., _, _ => False

/-- The rows of a transaction. -/
def Drafts (event : Uuid) (users : List Uuid) (rows : List UserNotification) : Prop :=
  rows.map (·.userId) = users ∧
    ∀ r ∈ rows, r.eventId = event ∧ r.readAt = none ∧ r.dismissedAt = none

/-- One row for each user that has none yet. -/
theorem rows_foldlM {event : Uuid} (db : Db) (old new : List UserNotification)
    {drafts : List UserNotification} {users : List Uuid}
    (hold : ∀ r ∈ old, r.eventId ≠ event)
    (hnew : ∀ r ∈ new, r.eventId = event ∧ r.readAt = none ∧ r.dismissedAt = none)
    (hdrafts : Drafts event users drafts) (hdb : db.rows = old ++ new)
    (h : (drafts.map Write.addRow).foldlM Db.apply db = some db') :
    ∃ rows, db' = { db with rows := old ++ rows } ∧
      rows.map (·.userId) = users.foldl (fun us u => if u ∈ us then us else us ++ [u])
        (new.map (·.userId)) ∧
      ∀ r ∈ rows, r.eventId = event ∧ r.readAt = none ∧ r.dismissedAt = none := by
  induction drafts generalizing db new users with
  | nil =>
    obtain rfl := Option.some.inj h
    obtain rfl : users = [] := hdrafts.1.symm
    exact ⟨new, by rw [← hdb], rfl, hnew⟩
  | cons r rest ih =>
    obtain ⟨huser, hr⟩ := hdrafts
    obtain ⟨db₁, h₁, h₂⟩ := Option.bind_eq_some_iff.mp h
    rw [← huser, List.map_cons, List.foldl_cons]
    have hrest : Drafts event (rest.map (·.userId)) rest :=
      ⟨rfl, fun x hx => hr x (List.mem_cons_of_mem _ hx)⟩
    have hfirst := hr r List.mem_cons_self
    have hthere : (r.eventId, r.userId) ∈ db.rows.map (fun r => (r.eventId, r.userId)) ↔
        r.userId ∈ new.map (·.userId) := by
      rw [hdb, List.map_append, List.mem_append, hfirst.1]
      constructor
      · rintro (hmem | hmem)
        · obtain ⟨x, hx, heq⟩ := List.mem_map.mp hmem
          exact absurd (Prod.mk.inj heq).1 (hold x hx)
        · obtain ⟨x, hx, heq⟩ := List.mem_map.mp hmem
          exact List.mem_map.mpr ⟨x, hx, (Prod.mk.inj heq).2⟩
      · intro hmem
        obtain ⟨x, hx, heq⟩ := List.mem_map.mp hmem
        exact .inr (List.mem_map.mpr ⟨x, hx, Prod.ext (hnew x hx).1 heq⟩)
    simp only [Db.apply, hthere] at h₁
    split_ifs at h₁ with hmem hfresh
    · obtain rfl := Option.some.inj h₁
      rw [if_pos hmem]
      exact ih db new hnew hrest hdb h₂
    · obtain rfl := Option.some.inj h₁
      rw [if_neg hmem]
      have hsnoc : ∀ x ∈ new ++ [r], x.eventId = event ∧ x.readAt = none ∧ x.dismissedAt = none := by
        intro x hx
        rcases List.mem_append.mp hx with hx | hx
        · exact hnew x hx
        · exact List.mem_singleton.mp hx ▸ hfirst
      obtain ⟨rows, hrows, husers, hall⟩ := ih _ (new ++ [r]) hsnoc hrest
        (by rw [hdb, List.append_assoc]) h₂
      refine ⟨rows, hrows, ?_, hall⟩
      rw [husers, List.map_append]
      rfl

/-- The commit of `publish_to_users`. -/
theorem publishes_commit {event : NotificationEvent} {drafts : List UserNotification}
    {recipients : List Uuid} {notificationType : String} {actorUserId : Option Uuid} {payload : Json}
    (hdb : Sound db)
    (hevent : event = ⟨event.id, notificationType, actorUserId, payload, event.createdAt⟩)
    (hdrafts : Drafts event.id recipients drafts)
    (h : (Write.addEvent event :: drafts.map Write.addRow).foldlM Db.apply db = some db') :
    Publishes notificationType actorUserId payload recipients db db' := by
  obtain ⟨db₁, h₁, h₂⟩ := Option.bind_eq_some_iff.mp h
  simp only [Db.apply] at h₁
  split_ifs at h₁ with hmem
  obtain rfl := Option.some.inj h₁
  have hold : ∀ r ∈ db.rows, r.eventId ≠ event.id := fun r hr heq => hmem (heq ▸ hdb.joined r hr)
  obtain ⟨rows, hrows, husers, hall⟩ := rows_foldlM ⟨db.events ++ [event], db.rows⟩ db.rows []
    hold nofun hdrafts (List.append_nil _).symm h₂
  exact ⟨event, rows, hevent, hmem, hrows, husers, hall⟩

/-! ## Every request -/

variable {α β : Type} {i : ℕ} {s : Store Db Write Uuid} {op : Op}
  {P : Store Db Write Uuid → Except ApiError β → Prop}

theorem orFails_cases {ok : α → Option (Does Write Uuid)} {a : Except DbError α}
    {d : Does Write Uuid} (h : orFails ok a = some d) :
    (∃ x, a = .ok x ∧ ok x = some d) ∨ a = .error .other ∧ d = .nothing := by
  match a with
  | .ok x => exact .inl ⟨x, rfl, h⟩
  | .error .other => exact .inr ⟨rfl, (Option.some.inj h).symm⟩
  | .error .rowNotFound => cases h

/-- The statements that do not commit at once. -/
def Query.Quiet : Query → Prop
  | .commit | .update .. => False
  | _ => True

theorem quiet_does {q : Query} (hq : q.Quiet) {a : q.Answer} {d : Does Write Uuid}
    (hd : does db ⟨q, a⟩ = some d) : d.quiet = true := by
  have hcases : ∀ {α : Type} {a : Except DbError α} {ok : α → Option (Does Write Uuid)},
      (∀ x d, ok x = some d → d.quiet = true) → orFails ok a = some d → d.quiet = true := by
    intro α a ok hok h
    rcases orFails_cases h with ⟨x, -, hx⟩ | ⟨-, rfl⟩
    · exact hok x d hx
    · rfl
  have hread : ∀ {c : Prop} [Decidable c] {d : Does Write Uuid},
      (if c then some Does.nothing else none) = some d → d.quiet = true := by
    intro c _ d h
    split_ifs at h
    obtain rfl := Option.some.inj h
    rfl
  cases q with
  | begin => exact hcases (fun _ _ h => Option.some.inj h ▸ rfl) hd
  | commit => exact hq.elim
  | rollback =>
    obtain rfl := Option.some.inj hd
    rfl
  | insertEvent =>
    refine hcases (fun event d h => ?_) hd
    split_ifs at h
    obtain rfl := Option.some.inj h
    rfl
  | insertRow => exact hcases (fun _ _ h => Option.some.inj h ▸ rfl) hd
  | update => exact hq.elim
  | get => exact hcases (fun _ _ => hread) hd
  | countVisible => exact hcases (fun _ _ => hread) hd
  | countUnread => exact hcases (fun _ _ => hread) hd
  | page => exact hcases (fun _ _ => hread) hd

/-- What a request may do in one step. -/
def Op.Allows (op : Op) (db db' : Db) : Prop := db' = db ∨ op.Commits db db'

abbrev Safely (op : Op) (i : ℕ) : Handler β → Store Db Write Uuid →
    (Store Db Write Uuid → Except ApiError β → Prop) → Prop :=
  SafeIn tables does Sound i op.Allows

theorem safely_done {r : Except ApiError β} : Safely op i (.done r) s fun _ _ => True :=
  fun _ _ _ => trivial

/-- A statement that commits nothing. -/
theorem safely_quiet {q : Query} {k : q.Answer → Handler β} (hq : q.Quiet)
    (h : ∀ s₂ a, Owned tables s₂ ∧ Sound s₂.db → Safely op i (k a) s₂ P) :
    Safely op i (ask q >>= k) s P :=
  safe_quiet (F := fun _ => True) (fun _ _ _ => quiet_does hq) (fun _ => .inl rfl) trivial
    (fun _ _ _ _ => trivial) fun _ a s₂ _ _ _ _ hI => h s₂ a hI

/-- A statement that commits nothing, in a transaction. -/
theorem safely_pending {q : Query} {k : q.Answer → Handler β} (hq : q.Quiet) {ws : List Write}
    (hs : s.pending i = some ws)
    (h : ∀ s₂ a db d, does db ⟨q, a⟩ = some d →
      (∀ w, d = .write w → s₂.pending i = some (ws ++ [w])) → Owned tables s₂ ∧ Sound s₂.db →
      Safely op i (k a) s₂ P) :
    Safely op i (ask q >>= k) s P := by
  refine safe_quiet (F := fun s => s.pending i = some ws) (fun _ _ _ => quiet_does hq)
    (fun _ => .inl rfl) hs (fun _ _ h hkeeps => hkeeps.1.trans h)
    fun s₁ a s₂ d hs₁ hd hperform hI => h s₂ a s₁.db d hd (fun w hw => ?_) hI
  subst hw
  exact (write_spec hs₁ hperform).2.1

/-- The transaction has the event and these rows. -/
def Pending (i : ℕ) (event : NotificationEvent) (users : List Uuid) (s : Store Db Write Uuid) :
    Prop :=
  ∃ drafts, Drafts event.id users drafts ∧
    s.pending i = some (.addEvent event :: drafts.map .addRow)

theorem Pending.keeps {event : NotificationEvent} {users : List Uuid}
    {s' : Store Db Write Uuid} (h : Pending i event users s) (hkeeps : Keeps tables i s s') :
    Pending i event users s' := by
  obtain ⟨drafts, hdrafts, hpending⟩ := h
  exact ⟨drafts, hdrafts, hkeeps.1.trans hpending⟩

theorem safe_insertRows {event : NotificationEvent} (recipients : List Uuid) {users : List Uuid}
    (hs : Pending i event users s) :
    Safely op i (insertRows event.id recipients) s
      fun s' r => r = .ok () → Pending i event (users ++ recipients) s' := by
  induction recipients generalizing users s with
  | nil =>
    refine Shared.safe_pure fun s₁ hkeeps _ _ => ?_
    rw [List.append_nil]
    exact hs.keeps hkeeps
  | cons uid rest ih =>
    obtain ⟨drafts, hdrafts, hpending⟩ := hs
    refine safely_pending trivial hpending fun s₂ a db d hd hs₂ _ => ?_
    rcases orFails_cases hd with ⟨⟨id, now⟩, rfl, hwrite⟩ | ⟨rfl, rfl⟩
    · have hnext : Pending i event (users ++ [uid]) s₂ := by
        refine ⟨drafts ++ [⟨id, event.id, uid, none, none, now⟩], ⟨?_, fun r hr => ?_⟩, ?_⟩
        · rw [List.map_append, hdrafts.1]
          rfl
        · rcases List.mem_append.mp hr with hr | hr
          · exact hdrafts.2 r hr
          · rw [List.mem_singleton.mp hr]
            exact ⟨rfl, rfl, rfl⟩
        · rw [hs₂ _ (Option.some.inj hwrite).symm, List.map_append]
          rfl
      have hrest := ih hnext
      rw [List.append_assoc] at hrest
      exact hrest
    · exact Shared.safe_fail fun _ _ _ => nofun

theorem safe_publishBody (notificationType : String) (actorUserId : Option Uuid) (payload : Json)
    (recipients : List Uuid) (hs : s.pending i = some []) :
    Safely (.publish notificationType actorUserId payload recipients) i
      (publishBody notificationType actorUserId payload recipients) s fun _ _ => True := by
  refine safely_pending trivial hs fun s₂ a db d hd hs₂ hI => ?_
  rcases orFails_cases hd with ⟨event, rfl, hwrite⟩ | ⟨rfl, rfl⟩
  · split_ifs at hwrite with hevent
    have hfirst : Pending i event [] s₂ :=
      ⟨[], ⟨rfl, nofun⟩, hs₂ _ (Option.some.inj hwrite).symm⟩
    show Safely _ i (insertRows event.id recipients >>= _) s₂ _
    refine Shared.safe_bind keeps_refl hI (safe_insertRows recipients hfirst)
      (fun s₃ _ _ hs₃ => ?_) fun _ _ _ _ => trivial
    have hs₃ : Pending i event recipients s₃ := hs₃ rfl
    refine Shared.safe_ask fun s₄ hkeeps hI₄ a s₅ hexec => ?_
    obtain ⟨d, hd, hperform⟩ := Option.bind_eq_some_iff.mp hexec
    rcases orFails_cases hd with ⟨x, rfl, hcommit⟩ | ⟨rfl, rfl⟩
    · obtain rfl := Option.some.inj hcommit
      obtain ⟨drafts, hdrafts, hpending⟩ := hs₃.keeps hkeeps
      have happly := commit_spec hpending hperform
      exact ⟨⟨⟨owned_perform hI₄.1 hperform, sound_foldlM hI₄.2 happly⟩,
        .inr (publishes_commit hI₄.2 hevent hdrafts happly)⟩, safely_done⟩
    · obtain rfl := Option.some.inj hperform
      exact ⟨⟨hI₄, .inl rfl⟩, safely_done⟩
  · exact safely_done

theorem safely_publish (notificationType : String) (actorUserId : Option Uuid) (payload : Json)
    (recipients : List Uuid) :
    Safely (.publish notificationType actorUserId payload recipients) i
      (publishToUsers notificationType actorUserId payload recipients) s fun _ _ => True := by
  refine safe_quiet (F := fun _ => True) (fun _ _ _ => quiet_does (q := .begin) trivial)
    (fun _ => .inl rfl) trivial (fun _ _ _ _ => trivial) fun s₁ a s₂ d _ hd hperform hI => ?_
  rcases orFails_cases hd with ⟨x, rfl, hbegin⟩ | ⟨rfl, rfl⟩
  · obtain rfl := Option.some.inj hbegin
    obtain ⟨hpending, -, -⟩ := begin_spec hperform
    show Safely _ i (((publishBody notificationType actorUserId payload recipients).attempt :
      Handler (Except ApiError NotificationEvent)) >>= _) s₂ _
    refine Shared.safe_bind (P := fun _ _ => True) keeps_refl hI
      (Shared.safe_attempt (safe_publishBody _ _ _ recipients hpending)) (fun s₃ r _ _ => ?_)
      fun _ _ _ _ => trivial
    cases r with
    | ok event => exact safely_done
    | error e => exact safely_quiet trivial fun _ _ _ => safely_done
  · exact safely_done

theorem safely_set (m : Mark) (auth : AuthPrincipal) (id : Uuid) :
    Safely (.set m auth id) i (set m auth id) s fun _ _ => True := by
  refine Shared.safe_failIf_bind (fun _ _ _ _ => trivial) fun _ => ?_
  refine safely_quiet trivial fun s₂ found _ => ?_
  cases found with
  | error e => exact safely_done
  | ok found =>
    refine Shared.safe_ofOption_bind (fun _ _ _ _ => trivial) fun x _ => ?_
    refine Shared.safe_ask fun s₃ _ hI a s₄ hexec => ?_
    obtain ⟨d, hd, hperform⟩ := Option.bind_eq_some_iff.mp hexec
    rcases orFails_cases hd with ⟨now, rfl, hmark⟩ | ⟨rfl, rfl⟩
    · obtain rfl := Option.some.inj hmark
      have happly : s₃.db.apply (.mark m id auth.sub now) = some s₄.db := autocommit_spec hperform
      exact ⟨⟨⟨owned_perform hI.1 hperform, sound_apply hI.2 happly⟩,
        .inr ⟨now, (Option.some.inj happly).symm⟩⟩, safely_done⟩
    · obtain rfl := Option.some.inj hperform
      exact ⟨⟨hI, .inl rfl⟩, safely_done⟩

theorem safely_list (auth : AuthPrincipal) (page pageNum : Option Int64) :
    Safely op i (list auth page pageNum) s fun _ _ => True := by
  have honly : (list auth page pageNum).Only Query.Quiet := by
    refine only_failIf_bind fun _ => only_bind ?_ fun _ => trivial
    exact only_bind (only_query trivial) fun _ => only_bind only_mapErr fun _ =>
      only_bind (only_query trivial) fun _ => only_bind only_mapErr fun _ =>
        only_bind (only_query trivial) fun _ => only_bind only_mapErr fun _ => only_done
  refine Shared.safe_of_only (K := fun _ => True) honly trivial (fun _ _ => trivial) ?_
  rintro s₁ ⟨q, a⟩ s₂ hq - hI₁ hexec
  obtain ⟨d, hd, hperform⟩ := Option.bind_eq_some_iff.mp hexec
  have hdb := db_of_quiet (quiet_does hq hd) hperform
  exact ⟨⟨⟨owned_perform hI₁.1 hperform, by rw [hdb]; exact hI₁.2⟩, .inl hdb⟩, trivial⟩

/-- Every request keeps the tables sound, and commits only what it may. -/
theorem safely_program (op : Op) (hI : Owned tables s ∧ Sound s.db) :
    Safely op i (program op) s fun _ _ => True := by
  cases op with
  | publish notificationType actorUserId payload recipients =>
    exact Shared.safe_bind (P := fun _ _ => True) keeps_refl hI (safely_publish _ _ _ recipients)
      (fun _ _ _ _ => safely_done) fun _ _ _ _ => trivial
  | list auth page pageNum =>
    exact Shared.safe_bind (P := fun _ _ => True) keeps_refl hI (safely_list auth page pageNum)
      (fun _ _ _ _ => safely_done) fun _ _ _ _ => trivial
  | set m auth id =>
    exact Shared.safe_bind (P := fun _ _ => True) keeps_refl hI (safely_set m auth id)
      (fun _ _ _ _ => safely_done) fun _ _ _ _ => trivial

/-! ## Whole runs -/

variable {p p' : System} {e : Event Query Query.Answer}

/-- A page is asked for by its user. -/
def Op.Asks (op : Op) : Query → Prop
  | .page user limit _ => ∃ auth page pageNum, op = .list auth page pageNum ∧ user = auth.sub ∧
      auth.isRoot = false ∧ 1 ≤ limit ∧ limit ≤ 100
  | _ => True

theorem only_insertRows (event : Uuid) (recipients : List Uuid) :
    (insertRows event recipients).Only op.Asks := by
  induction recipients with
  | nil => exact only_done
  | cons uid rest ih =>
    exact only_bind (only_query trivial) fun _ => only_bind only_mapErr fun _ => ih

theorem only_publish (notificationType : String) (actorUserId : Option Uuid) (payload : Json)
    (recipients : List Uuid) :
    (publishToUsers notificationType actorUserId payload recipients).Only op.Asks := by
  refine only_bind (only_query trivial) fun _ => only_bind only_mapErr fun _ =>
    only_bind (only_attempt ?_) fun r => ?_
  · exact only_bind (only_query trivial) fun _ => only_bind only_mapErr fun _ =>
      only_bind (only_insertRows _ _) fun _ => only_bind (only_query trivial) fun _ =>
        only_bind only_mapErr fun _ => only_done
  · cases r with
    | ok event => exact only_done
    | error e => exact only_bind (only_query trivial) fun _ => only_done

theorem only_list (auth : AuthPrincipal) (page pageNum : Option Int64) :
    (list auth page pageNum).Only (Op.list auth page pageNum).Asks := by
  unfold list
  refine only_failIf_bind fun hroot => only_bind ?_ fun _ => trivial
  refine only_bind (only_query trivial) fun _ => only_bind only_mapErr fun _ =>
    only_bind (only_query trivial) fun _ => only_bind only_mapErr fun _ =>
      only_bind (only_query ?_) fun _ => only_bind only_mapErr fun _ => only_done
  refine ⟨auth, page, pageNum, rfl, rfl, Bool.eq_false_iff.mpr hroot, ?_⟩
  dsimp only
  split_ifs with hlow hhigh
  · decide
  · decide
  · exact ⟨Int64.not_lt.mp hlow, Int64.not_lt.mp hhigh⟩

theorem only_program (op : Op) : (program op).Only op.Asks := by
  cases op with
  | publish notificationType actorUserId payload recipients =>
    exact only_bind (only_publish _ _ _ _) fun _ => only_done
  | list auth page pageNum => exact only_bind (only_list auth page pageNum) fun _ => only_done
  | set m auth id =>
    refine only_bind ?_ fun _ => only_done
    exact only_failIf_bind fun _ => only_bind (only_query trivial) fun _ =>
      only_bind only_mapErr fun _ => only_bind only_ofOption fun _ =>
        only_bind (only_query trivial) fun _ => only_bind only_mapErr fun _ => only_done

theorem asks_run (hrun : Reachable step start p) {t : Op × Handler Reply} (ht : t ∈ p.threads) :
    t.2.Each fun q _ => t.1.Asks q :=
  each_run (C := fun op q _ => op.Asks q)
    (fun op => each_of_only (only_program op) fun _ _ hq => hq) hrun t ht

theorem safe_system (hrun : Reachable step start p) :
    SafeRun tables does Sound Op.Allows p :=
  safe_run (fun _ op _ howned hdb => safely_program op ⟨howned, hdb⟩) sound_new hrun

theorem Op.Commits.later (h : op.Commits db db') : db.Later db' := by
  cases op with
  | publish notificationType actorUserId payload recipients =>
    obtain ⟨event, rows, -, -, rfl, -⟩ := h
    exact ⟨fun _ he => List.mem_append_left _ he,
      fun r hr => ⟨r, List.mem_append_left _ hr, .refl r⟩⟩
  | list auth page pageNum => exact h.elim
  | set m auth id =>
    obtain ⟨now, rfl⟩ := h
    exact later_apply (w := .mark m id auth.sub now) rfl

theorem later_run (hrun : Reachable step start p) (hlater : Reachable step p p') :
    p.store.db.Later p'.store.db := by
  induction hlater with
  | start => exact .refl _
  | @next p₁ p₂ l hreach _ hstep ih =>
    refine ih.trans ?_
    cases l with
    | spawn op =>
      obtain rfl := Option.some.inj hstep
      exact .refl _
    | answer i e =>
      obtain ⟨op, rest, rest', hi, -⟩ := step_answer hstep
      rcases (safe_system (hrun.trans hreach)).guarantee hi hstep with hsame | hcommits
      · rw [hsame]
        exact .refl _
      · exact hcommits.later

/-- The requests so far. -/
def requests (p : System) : List Op := p.threads.map (·.1)

theorem requests_step {l : Shared.Label Query Query.Answer Op} (hstep : step p l = some p')
    (hop : op ∈ requests p) : op ∈ requests p' := by
  cases l with
  | spawn new =>
    obtain rfl := Option.some.inj hstep
    rw [requests, List.map_append]
    exact List.mem_append_left _ hop
  | answer i e =>
    obtain ⟨op', rest, rest', hi, -, -, hset⟩ := step_answer hstep
    have hsame : requests p' = requests p := by
      rw [requests, hset, List.map_set, requests]
      refine List.ext_getElem? fun j => ?_
      rw [List.getElem?_set]
      split_ifs with hij hlt
      · subst hij
        rw [List.getElem?_map, hi]
        rfl
      · rw [List.getElem?_eq_none (by omega)]
      · rfl
    rw [hsame]
    exact hop

/-- An event was published, and has reached its recipients. -/
def Told (p : System) (event : NotificationEvent) : Prop :=
  ∃ recipients, Op.publish event.notificationType event.actorUserId event.payload recipients ∈
    requests p ∧ p.store.db.reached event.id = userRows recipients

theorem reached_marked (m : Mark) (id user : Uuid) (now : ℕ) (event : Uuid) :
    (db.marked m id user now).reached event = db.reached event := by
  have hcomp : ∀ rows : List UserNotification,
      (rows.filter (·.eventId == event)).map (·.userId) =
        ((rows.map fun r => (r.eventId, r.userId)).filter (·.1 == event)).map (·.2) := by
    intro rows
    rw [List.filter_map, List.map_map]
    rfl
  rw [Db.reached, Db.reached, hcomp, hcomp, map_marked fun r => mark_same r now m]

theorem told_commits (hdb : Sound p.store.db) (htold : ∀ event ∈ p.store.db.events, Told p event)
    (hop : op ∈ requests p) (hrequests : ∀ op ∈ requests p, op ∈ requests p')
    (h : op.Commits p.store.db p'.store.db) : ∀ event ∈ p'.store.db.events, Told p' event := by
  cases op with
  | publish notificationType actorUserId payload recipients =>
    obtain ⟨new, rows, hnew, hfresh, hdb', husers, hrows⟩ := h
    rw [hdb']
    intro event hevent
    rcases List.mem_append.mp hevent with hevent | hevent
    · obtain ⟨rs, hrs, hreached⟩ := htold event hevent
      refine ⟨rs, hrequests _ hrs, ?_⟩
      have hnone : rows.filter (·.eventId == event.id) = [] := by
        refine List.filter_eq_nil_iff.mpr fun r hr heq => hfresh ?_
        rw [← (hrows r hr).1, eq_of_beq heq]
        exact List.mem_map_of_mem hevent
      rw [← hreached, hdb', Db.reached, List.filter_append, hnone, List.append_nil]
      rfl
    · obtain rfl := List.mem_singleton.mp hevent
      refine ⟨recipients, ?_, ?_⟩
      · have hpublished := hrequests _ hop
        rw [hnew]
        exact hpublished
      · have hnone : p.store.db.rows.filter (·.eventId == event.id) = [] := by
          refine List.filter_eq_nil_iff.mpr fun r hr heq => hfresh ?_
          rw [← eq_of_beq heq]
          exact hdb.joined r hr
        have hall : rows.filter (·.eventId == event.id) = rows :=
          List.filter_eq_self.mpr fun r hr => beq_iff_eq.mpr (hrows r hr).1
        rw [hdb', Db.reached, List.filter_append, hnone, hall, List.nil_append, husers]
  | list auth page pageNum => exact h.elim
  | set m auth id =>
    obtain ⟨now, hdb'⟩ := h
    rw [hdb']
    intro event hevent
    obtain ⟨rs, hrs, hreached⟩ := htold event hevent
    refine ⟨rs, hrequests _ hrs, ?_⟩
    rw [hdb', reached_marked]
    exact hreached

theorem told_run (hrun : Reachable step start p) : ∀ event ∈ p.store.db.events, Told p event := by
  induction hrun with
  | start => nofun
  | @next p p' l hreach _ hstep ih =>
    have hrequests : ∀ op ∈ requests p, op ∈ requests p' := fun op => requests_step hstep
    have hkeep (hsame : p'.store.db = p.store.db) : ∀ event ∈ p'.store.db.events, Told p' event := by
      intro event hevent
      rw [hsame] at hevent
      obtain ⟨rs, hrs, hreached⟩ := ih event hevent
      exact ⟨rs, hrequests _ hrs, by rw [hsame]; exact hreached⟩
    cases l with
    | spawn op =>
      obtain rfl := Option.some.inj hstep
      exact hkeep rfl
    | answer i e =>
      obtain ⟨op, rest, rest', hi, -⟩ := step_answer hstep
      have hsafe := safe_system hreach
      rcases hsafe.guarantee hi hstep with hsame | hcommits
      · exact hkeep hsame
      · exact told_commits hsafe.inv ih (List.mem_map_of_mem (List.mem_of_getElem? hi)) hrequests
          hcommits

/-- What a statement does to a row that was there. -/
theorem row_changes (h : op.Allows db db') {r : UserNotification} (hr : r ∈ db'.rows) :
    r ∈ db.rows ∨
    (r.eventId ∉ db.events.map (·.id) ∧ r.readAt = none ∧ r.dismissedAt = none) ∨
    ∃ m auth now, op = .set m auth r.id ∧ auth.sub = r.userId ∧
      ∃ r₀ ∈ db.rows, r = r₀.mark now m := by
  rcases h with rfl | hcommits
  · exact .inl hr
  · cases op with
    | publish notificationType actorUserId payload recipients =>
      obtain ⟨event, rows, -, hfresh, rfl, -, hrows⟩ := hcommits
      rcases List.mem_append.mp hr with hr | hr
      · exact .inl hr
      · obtain ⟨hevent, hnone⟩ := hrows r hr
        exact .inr (.inl ⟨hevent ▸ hfresh, hnone⟩)
    | list auth page pageNum => exact hcommits.elim
    | set m auth id =>
      obtain ⟨now, rfl⟩ := hcommits
      obtain ⟨r₀, hr₀, rfl⟩ := List.mem_map.mp hr
      by_cases hmine : r₀.id = id ∧ r₀.userId = auth.sub
      · refine .inr (.inr ⟨m, auth, now, ?_, ?_, r₀, hr₀, if_pos hmine⟩)
        · rw [if_pos hmine, mark_id, hmine.1]
        · rw [if_pos hmine, (Prod.mk.inj (mark_same r₀ now m)).2, hmine.2]
      · left
        rw [if_neg hmine]
        exact hr₀

/-- What the answer to a page says. -/
theorem page_step {i : ℕ} {user : Uuid} {limit offset : Int64}
    {page : List UserNotificationWithEvent}
    (hstep : step p (.answer i ⟨.page user limit offset, .ok page⟩) = some p') :
    IsPage (p.store.db.visible user) limit offset page := by
  obtain ⟨-, -, -, -, -, hexec, -⟩ := step_answer hstep
  obtain ⟨d, hd, -⟩ := Option.bind_eq_some_iff.mp hexec
  have hpage : (if IsPage (p.store.db.visible user) limit offset page then some Does.nothing
    else none) = some d := hd
  split_ifs at hpage with h
  exact h

theorem mem_of_isPage {all page : List UserNotificationWithEvent} {limit offset : Int64}
    (h : IsPage all limit offset page) {x : UserNotificationWithEvent} (hx : x ∈ page) : x ∈ all := by
  obtain ⟨-, -, rows, hperm, -, rfl⟩ := h
  exact (List.mem_permutations.mp hperm).mem_iff.mp (List.mem_of_mem_drop (List.mem_of_mem_take hx))

theorem visible_row {user : Uuid} {x : UserNotificationWithEvent} (hx : x ∈ db.visible user) :
    x.row ∈ db.rows ∧ x.row.userId = user ∧ x.row.dismissedAt = none ∧
      db.event x.row.eventId = some x.event := by
  obtain ⟨hjoined, hnone⟩ := List.mem_filter.mp hx
  obtain ⟨r, hr, hmap⟩ := List.mem_filterMap.mp hjoined
  obtain ⟨event, hevent, rfl⟩ := Option.map_eq_some_iff.mp hmap
  obtain ⟨hrow, huser⟩ := List.mem_filter.mp hr
  exact ⟨hrow, eq_of_beq huser, Option.isNone_iff_eq_none.mp hnone, hevent⟩

/-- What is dismissed stays out of sight. -/
theorem not_visible_of_dismissed (hdb : Sound db') (hlater : db.Later db') (hr : r ∈ db.rows)
    (hdismissed : r.dismissedAt.isSome = true) {user : Uuid} {x : UserNotificationWithEvent}
    (hx : x ∈ db'.visible user) : x.row.id ≠ r.id := by
  intro hid
  obtain ⟨r', hr', hl⟩ := hlater.rows r hr
  obtain ⟨hrow, -, hnone, -⟩ := visible_row hx
  have hid' : r'.id = x.row.id := (Prod.mk.inj hl.same).1.trans hid.symm
  have heq : r' = x.row := List.inj_on_of_nodup_map hdb.rows hr' hrow hid'
  have hsome := hl.dismissed hdismissed
  rw [heq, hnone] at hsome
  cases hsome

/-- In every run of the requests, whichever statements fail: the tables are sound; an event was
    published, and is there with exactly one row for each of its recipients; a row changes only
    when its own user marks it; rows stay, and so do their marks; and a page is asked for by its
    user, has at most a hundred rows, and all of them are his, with their events, not dismissed
    at any time before, the newest first. -/
theorem inbox_sound (p : System) (hrun : Reachable step start p) :
    Sound p.store.db ∧
    (∀ event ∈ p.store.db.events, Told p event) ∧
    (∀ i op rest e p', p.threads[i]? = some (op, rest) → step p (.answer i e) = some p' →
      ∀ r ∈ p'.store.db.rows, r ∈ p.store.db.rows ∨
        (r.eventId ∉ p.store.db.events.map (·.id) ∧ r.readAt = none ∧ r.dismissedAt = none) ∨
        ∃ m auth now, op = .set m auth r.id ∧ auth.sub = r.userId ∧
          ∃ r₀ ∈ p.store.db.rows, r = r₀.mark now m) ∧
    ∀ p', Reachable step p p' → p.store.db.Later p'.store.db ∧
      ∀ i op rest user limit offset page p'', p'.threads[i]? = some (op, rest) →
        step p' (.answer i ⟨.page user limit offset, .ok page⟩) = some p'' →
        (∃ auth a b, op = .list auth a b ∧ user = auth.sub ∧ auth.isRoot = false) ∧
        page.length ≤ 100 ∧ page.Pairwise (fun a b => b.row.createdAt ≤ a.row.createdAt) ∧
        ∀ x ∈ page, x.row ∈ p'.store.db.rows ∧ x.row.userId = user ∧ x.row.dismissedAt = none ∧
          p'.store.db.event x.row.eventId = some x.event ∧
          ∀ r ∈ p.store.db.rows, r.dismissedAt.isSome = true → x.row.id ≠ r.id := by
  have hsafe := safe_system hrun
  refine ⟨hsafe.inv, told_run hrun, fun i op rest e p' hi hstep r hr =>
    row_changes (hsafe.guarantee hi hstep) hr, fun p' hlater => ⟨later_run hrun hlater, ?_⟩⟩
  intro i op rest user limit offset page p'' hi hstep
  obtain ⟨op', rest', rest'', hi', hfollow, -⟩ := step_answer hstep
  obtain ⟨rfl, rfl⟩ := Prod.mk.inj (Option.some.inj (hi.symm.trans hi'))
  obtain ⟨next, rfl, rfl⟩ := follow_one hfollow
  obtain ⟨auth, a, b, hop, huser, hroot, hlimit⟩ :=
    (asks_run (hrun.trans hlater) (List.mem_of_getElem? hi)).1
  have hpage := page_step hstep
  refine ⟨⟨auth, a, b, hop, huser, hroot⟩, ?_, ?_, fun x hx => ?_⟩
  · obtain ⟨-, -, rows, -, -, rfl⟩ := hpage
    have hle : limit.toInt ≤ 100 := Int64.le_iff_toInt_le.mp hlimit.2
    refine (List.length_take_le _ _).trans ?_
    omega
  · obtain ⟨-, -, rows, -, hsorted, rfl⟩ := hpage
    exact (hsorted.sublist (List.drop_sublist _ _)).sublist (List.take_sublist _ _)
  · have hvisible := mem_of_isPage hpage hx
    obtain ⟨hrow, hmine, hnone, hevent⟩ := visible_row hvisible
    exact ⟨hrow, hmine, hnone, hevent, fun r hr hdismissed => not_visible_of_dismissed
      (safe_system (hrun.trans hlater)).inv (later_run hrun hlater) hr hdismissed hvisible⟩

/-- Two users are told, the second twice; the first dismisses what he was told. -/
def sampleRun : List (Shared.Label Query Query.Answer Op) :=
  [.spawn (.publish "system" none .null [5, 6, 6]), .answer 0 ⟨.begin, .ok ()⟩,
    .answer 0 ⟨.insertEvent "system" none .null, .ok ⟨1, "system", none, .null, 10⟩⟩,
    .answer 0 ⟨.insertRow 1 5, .ok (2, 10)⟩, .answer 0 ⟨.insertRow 1 6, .ok (3, 10)⟩,
    .answer 0 ⟨.insertRow 1 6, .ok (4, 10)⟩, .answer 0 ⟨.commit, .ok ()⟩,
    .spawn (.set .dismissed ⟨5, 0, .user, .ppf, ""⟩ 2),
    .answer 1 ⟨.get 5 2, .ok (some ⟨⟨2, 1, 5, none, none, 10⟩, ⟨1, "system", none, .null, 10⟩⟩)⟩,
    .answer 1 ⟨.update .dismissed 2 5, .ok 20⟩]

theorem inbox_sound_dismissed : ∃ p, Reachable step start p ∧
    p.store.db.rows = [⟨2, 1, 5, none, some 20, 10⟩, ⟨3, 1, 6, none, none, 10⟩] ∧
    ∀ event ∈ p.store.db.events, Told p event := by
  have hrun : (runFrom step start sampleRun).any (fun p => decide (p.store.db.rows =
      [⟨2, 1, 5, none, some 20, 10⟩, ⟨3, 1, 6, none, none, 10⟩])) = true := by decide +kernel
  obtain ⟨p, hp, hrows⟩ := exists_reachable_of_runFrom hrun
  exact ⟨p, hp, of_decide_eq_true hrows, (inbox_sound p hp).2.1⟩

end Ppb.Notifications.Inbox
