import Ppb.Audit.Completeness
import Ppb.Common.Pages
import Ppb.Rooms.HostMarker
import Ppb.Social.Store

/-!
# Paginated lists

The lists that are answered in pages: `{items, total, page, pageNum}`. `page` counts from 1,
`pageNum` is the size of a page. Each handler computes its page on its own: the audit list and
the user list with `LIMIT` and `OFFSET`, friends and their requests with a slice, logs and rooms
with `skip` and `take`.

Deviation: authentication, permissions and a database (`require_db`) are presupposed. The logs are those that
`history_entries_of` and `parse_log_line_with_seq` make of PMP's answer.
-/

namespace Ppb.Pages

variable {α : Type}

/-- `Page<T>` (error/pagination.rs:45-52), and the list responses of the same shape. -/
structure Page (α : Type) where
  items : List α
  total : Int64
  page : Int64
  pageNum : Int64
  deriving DecidableEq

/-! ## Page and size -/

/-- `(1..=100).contains(&page_num)`. -/
def Accepted (pageNum : Int64) : Prop := 1 ≤ pageNum ∧ pageNum ≤ 100

instance (pageNum : Int64) : Decidable (Accepted pageNum) := inferInstanceAs (Decidable (_ ∧ _))

/-- The page and the size of a request, or the error for a size that is not accepted. -/
def resolveWith (size : Int64) (e : ApiError) (page pageNum : Option Int64) :
    Except ApiError (Int64 × Int64) :=
  let page := max (page.getD 1) 1
  let pageNum := pageNum.getD size
  if Accepted pageNum then .ok (page, pageNum) else .error e

/-- The error of `audit`, `users`, `logs` and `rooms`. -/
def sizeError : ApiError := .validation "pageNum must be between 1 and 100"

/-- `PaginationParams` (error/pagination.rs:16-21). -/
structure PaginationParams where
  page : Option Int64
  pageNum : Option Int64

/-- `PaginationParams::resolve` (error/pagination.rs:25-35). -/
def PaginationParams.resolve (params : PaginationParams) : Except ApiError (Int64 × Int64) :=
  resolveWith 20 (.new .invalidQuery "pageNum must be between 1 and 100") params.page params.pageNum

/-- `(page - 1) * page_num`; without overflow checks it wraps around. -/
def offsetOf (page pageNum : Int64) : Int64 := (page - 1) * pageNum

/-- `PaginationParams::offset_limit` (error/pagination.rs:38-41). -/
def PaginationParams.offsetLimit (params : PaginationParams) : Except ApiError (Int64 × Int64) := do
  let (page, pageNum) ← params.resolve
  return (offsetOf page pageNum, pageNum)

/-! ## Rows of a query -/

/-- The order in which the database returns the rows of a query, every time the same. -/
structure Order (α : Type) where
  sort : List α → List α
  perm : ∀ rows, (sort rows).Perm rows

/-- The order of the table. -/
def Order.table : Order α := ⟨id, fun _ => .refl _⟩

/-- `LIMIT … OFFSET …`; a negative number is an error of the database. -/
def limitOffset (rows : List α) (limit offset : Int64) : Except ApiError (List α) :=
  if offset < 0 ∨ limit < 0 then .error .internal
  else .ok ((rows.drop offset.toInt.toNat).take limit.toInt.toNat)

/-! ## Audit events (`audit/routes.rs`, `audit/repo.rs`) -/

/-- `AuditEvent` (audit/model.rs:8-25). -/
structure AuditEvent extends Audit.NewAuditEvent where
  id : Uuid
  occurredAt : ℕ
  deriving DecidableEq

/-- `AuditFilterParams` (audit/routes.rs:27-36). -/
structure AuditFilterParams where
  action : Option String
  principalType : Option String
  actor : Option Uuid
  result : Option String
  page : Option Int64
  pageNum : Option Int64

/-- The conditions of `list_filtered` (audit/repo.rs:68-89). -/
def AuditFilterParams.matches (params : AuditFilterParams) (e : AuditEvent) : Bool :=
  params.action.all (e.action == ·) && params.principalType.all (e.principalType == ·) &&
    params.actor.all (e.actorUserId == some ·) && params.result.all (e.result == ·)

/-- The events that match, in the order of the list. -/
def auditMatches (events : Vec AuditEvent) (order : Order AuditEvent) (params : AuditFilterParams) :
    List AuditEvent := order.sort (events.toList.filter params.matches)

/-- `list_filtered` (audit/repo.rs:59-110). -/
def listFiltered (events : Vec AuditEvent) (order : Order AuditEvent) (params : AuditFilterParams)
    (limit offset : Int64) : Except ApiError (List AuditEvent) :=
  limitOffset (auditMatches events order params) limit offset

/-- `list` (audit/routes.rs:60-92). -/
def auditList (events : Vec AuditEvent) (order : Order AuditEvent) (params : AuditFilterParams) :
    Except ApiError (Page AuditEvent) := do
  let (page, pageNum) ← resolveWith 20 sizeError params.page params.pageNum
  let found ← listFiltered events order params pageNum (offsetOf page pageNum)
  return ⟨found, .ofNat found.length, page, pageNum⟩

/-! ## Users (`users/routes.rs`) -/

/-- The columns of `users` (users/model.rs:9-18). -/
structure UserRow extends User where
  usernameCache : String
  avatarCache : String
  status : String
  createdAt : ℕ
  updatedAt : ℕ
  lastSeenAt : Option ℕ
  deriving DecidableEq

/-- `AdminUserItem` (users/model.rs:43-53). -/
structure AdminUserItem where
  ppbUserId : Uuid
  phiraId : Int64
  username : String
  avatar : String
  status : String
  createdAt : ℕ
  updatedAt : ℕ
  lastSeenAt : Option ℕ
  deriving DecidableEq

/-- `to_admin_item` (users/model.rs:26-37). -/
def UserRow.toAdminItem (u : UserRow) : AdminUserItem where
  ppbUserId := u.id
  phiraId := u.phiraId
  username := u.usernameCache
  avatar := u.avatarCache
  status := u.status
  createdAt := u.createdAt
  updatedAt := u.updatedAt
  lastSeenAt := u.lastSeenAt

/-- `UserListParams` (users/routes.rs:47-53). -/
structure UserListParams where
  phiraId : Option Int64
  search : Option String
  page : Option Int64
  pageNum : Option Int64

/-- The query of `list_users` (users/routes.rs:83-116); `ilike text pattern` is the database's
    `ILIKE`. -/
def userRows (ilike : String → String → Bool) (users : Vec UserRow) (order : Order UserRow)
    (params : UserListParams) (limit offset : Int64) : Except ApiError (List UserRow) :=
  match params.phiraId with
  | some pid => limitOffset (order.sort (users.toList.filter (·.phiraId == pid))) limit offset
  | none =>
    match params.search.filter (· != "") with
    | some search =>
      limitOffset (order.sort (users.toList.filter fun u =>
        ilike u.usernameCache ("%" ++ search ++ "%"))) limit offset
    | none => limitOffset (order.sort users.toList) limit offset

/-- `list_users` (users/routes.rs:65-133). -/
def listUsers (ilike : String → String → Bool) (users : Vec UserRow) (order : Order UserRow)
    (params : UserListParams) : Except ApiError (Page AdminUserItem) := do
  let (page, pageNum) ← resolveWith 20 sizeError params.page params.pageNum
  let rows ← userRows ilike users order params pageNum (offsetOf page pageNum)
  return ⟨rows.map UserRow.toAdminItem, users.len, page, pageNum⟩

/-- Whether a user matches the filter. -/
def UserListParams.matches (params : UserListParams) (ilike : String → String → Bool)
    (u : UserRow) : Bool :=
  match params.phiraId with
  | some pid => u.phiraId == pid
  | none => (params.search.filter (· != "")).all fun search =>
      ilike u.usernameCache ("%" ++ search ++ "%")

/-! ## Friends (`social/routes.rs`) -/

/-- `v as usize`, as a number. -/
def asUsize (v : Int64) : ℕ := v.toUInt64.toNat

/-- `page_num.clamp(1, 100)`. -/
def clampSize (pageNum : Int64) : Int64 := min (max pageNum 1) 100

/-- `paginate` (social/routes.rs:41-48); `none` where the slice is out of range. -/
def paginate (items : Vec α) (page pageNum : Int64) : Option (List α × Int64) :=
  let total := items.len
  let page := max page 1
  let pageNum := clampSize pageNum
  let start := (min (offsetOf page pageNum) total).toUInt64
  let stop := min (start + pageNum.toUInt64) total.toUInt64
  if start ≤ stop ∧ stop.toNat ≤ items.toList.length then
    some ((items.toList.drop start.toNat).take (stop.toNat - start.toNat), total)
  else none

/-- `friend_of` (social/routes.rs:50-57); `online_status` is always null. -/
structure Friend where
  phiraId : Int64
  username : String
  avatar : String
  deriving DecidableEq

def friendOf (user : UserRow) : Friend := ⟨user.phiraId, user.usernameCache, user.avatarCache⟩

/-- `user_by_id` (social/routes.rs:59-61). -/
def userById (users : Vec UserRow) (id : Uuid) : Option UserRow :=
  users.toList.find? (·.id == id)

/-- `list_friends` (social/mod.rs:190-200). -/
def listFriends (friendships : Vec (Uuid × Uuid)) (order : Order (Uuid × Uuid)) (user : Uuid) :
    Vec Uuid :=
  (friendships.shrink
    (order.sort (friendships.toList.filter fun row => row.1 == user || row.2 == user))
    (le_trans (order.perm _).length_eq.le (List.length_filter_le ..))).map fun row =>
      if row.1 = user then row.2 else row.1

/-- The friends of `user`. -/
def friendsOf (users : Vec UserRow) (friendships : Vec (Uuid × Uuid)) (order : Order (Uuid × Uuid))
    (user : Uuid) : Vec Friend :=
  (listFriends friendships order user).filterMap fun id => (userById users id).map friendOf

/-- The answer of the lists of friends and requests; the size is echoed as it came. -/
def paginated (items : Vec α) (params : PaginationParams) : Option (Page α) := do
  let (slice, total) ← paginate items (params.page.getD 1) (params.pageNum.getD 50)
  return ⟨slice, total, max (params.page.getD 1) 1, params.pageNum.getD 50⟩

/-- `list` (social/routes.rs:74-92). -/
def friendList (users : Vec UserRow) (friendships : Vec (Uuid × Uuid)) (order : Order (Uuid × Uuid))
    (user : Uuid) (params : PaginationParams) : Option (Page Friend) :=
  paginated (friendsOf users friendships order user) params

/-- A row of `friend_requests` with its time. -/
structure RequestRow extends Social.FriendRequest where
  createdAt : ℕ
  deriving DecidableEq

/-- The object of a request (social/routes.rs:125-131); a user who is gone is null. -/
structure RequestItem where
  id : Uuid
  sender : Option Friend
  receiver : Option Friend
  status : Social.RequestStatus
  createdAt : ℕ
  deriving DecidableEq

/-- `list_requests_for_user` (social/mod.rs:203-216), with the users of each request. -/
def requestsOf (users : Vec UserRow) (requests : Vec RequestRow) (order : Order RequestRow)
    (user : Uuid) : Vec RequestItem :=
  (requests.shrink
    (order.sort (requests.toList.filter fun r => r.fromUserId == user || r.toUserId == user))
    (le_trans (order.perm _).length_eq.le (List.length_filter_le ..))).map fun r =>
      { id := r.id, sender := (userById users r.fromUserId).map friendOf,
        receiver := (userById users r.toUserId).map friendOf, status := r.status,
        createdAt := r.createdAt }

/-- `list_requests` (social/routes.rs:106-135). -/
def requestList (users : Vec UserRow) (requests : Vec RequestRow) (order : Order RequestRow)
    (user : Uuid) (params : PaginationParams) : Option (Page RequestItem) :=
  paginated (requestsOf users requests order user) params

/-! ## Logs (`logs/routes.rs`) -/

/-- `LogEntry` (logs/mod.rs:28-47). -/
structure LogEntry where
  logId : String
  timestamp : String
  service : String
  level : String
  event : Option String
  message : String
  errorCode : Option String
  requestId : Option String
  commandId : Option String
  roomUuid : Option String
  userId : Option String
  deriving DecidableEq

/-- `LogParams` (logs/routes.rs:38-49). -/
structure LogParams where
  limit : Option UInt64
  page : Option Int64
  pageNum : Option Int64
  level : Option String
  search : Option String
  logId : Option String

/-- The levels of `level`, none of which is empty. -/
def LogParams.levels (params : LogParams) : List String :=
  (((params.level.map fun s => (s.toList.splitOn ',').map (Text.trim ∘ String.ofList)).getD []).filter
    (· != "")).map Text.toAsciiLowercase

/-- The conditions of `apply_log_filters` (logs/routes.rs:116-139); `toLowercase` is
    `str::to_lowercase`. -/
def LogParams.matches (toLowercase : String → String) (params : LogParams) (e : LogEntry) : Bool :=
  (params.levels.isEmpty || params.levels.contains (Text.toAsciiLowercase e.level)) &&
    ((params.search.filter (· != "")).all fun q =>
      Text.containsStr (toLowercase e.message) (toLowercase q) ||
        e.errorCode.any fun code => Text.containsStr (toLowercase code) (toLowercase q)) &&
    (params.logId.filter (· != "")).all fun id =>
      Text.toAsciiLowercase e.logId == Text.toAsciiLowercase id

/-- The entries that match; `window` are the entries in PMP's answer for a window. -/
def logMatches (toLowercase : String → String) (window : UInt64 → Vec LogEntry)
    (params : LogParams) : Vec LogEntry :=
  (window (min (max (params.limit.getD 2000) 1) 2000)).filter (params.matches toLowercase)

/-- `history` (logs/routes.rs:80-109). -/
def history (toLowercase : String → String) (window : UInt64 → Vec LogEntry) (params : LogParams) :
    Except ApiError (Page LogEntry) := do
  let (page, pageNum) ← resolveWith 20 sizeError params.page params.pageNum
  let entries := logMatches toLowercase window params
  let items := (entries.toList.drop (asUsize (offsetOf page pageNum))).take (asUsize pageNum)
  return ⟨items, entries.len, page, pageNum⟩

/-! ## Rooms (`rooms/routes.rs`) -/

/-- `resolve_page` (rooms/routes.rs:951-958). -/
def resolvePage (page pageNum : Option Int64) : Except ApiError (Int64 × Int64) :=
  resolveWith 50 sizeError page pageNum

/-- `paginate_room_items` (rooms/routes.rs:962-975). -/
def paginateRoomItems (rooms : Vec Json) (page pageNum : Int64) (myPhira : Option Int64) :
    List Json :=
  ((rooms.toList.drop (asUsize (offsetOf page pageNum))).take (asUsize pageNum)).map fun room =>
    Rooms.enrichRoomIsSelf (Rooms.normalizeRoom room) myPhira

end Ppb.Pages
