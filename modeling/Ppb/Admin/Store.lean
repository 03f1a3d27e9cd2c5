import Ppb.Auth.Permissions
import Ppb.Auth.Reauth
import Ppb.Common.Lift
import Ppb.Common.Table
import Ppb.Server.Sql

/-!
# What the admin endpoints write

The configuration of PMP is a file; PPB replaces it by writing a temporary file beside it, always
of the same name, and renaming that. Whoever has the temporary file open when another renames it
goes on writing to what is then the configuration. Before a save the old text goes into
`config_snapshots`. The tables with a column for the acting user refer to `users`, and Root has no
row there.

`exec s e`: the store after the event `e`. A statement may fail, and then changes nothing; a
write that fails may leave anything in its file. A write is one event, and so is a read.
-/

namespace Ppb.Admin

open Auth

/-- `ConfigSnapshot` (config/repo.rs:10-19). -/
structure ConfigSnapshot where
  id : Uuid
  scope : String
  content : String
  note : String
  createdBy : Option Uuid
  createdAt : ℕ
  restoredAt : Option ℕ
  deriving DecidableEq, Repr

/-- `PRIMARY KEY (id)`. -/
def SnapshotKeys (a b : ConfigSnapshot) : Prop := a.id ≠ b.id

instance : DecidableRel SnapshotKeys := fun a b => inferInstanceAs (Decidable (a.id ≠ b.id))

/-- A row of `runbooks`. -/
structure Runbook where
  id : Uuid
  name : String
  description : String
  definition : Json
  createdBy : Option Uuid
  updatedBy : Option Uuid
  deriving DecidableEq

/-- `PRIMARY KEY (id)`. -/
def RunbookKeys (a b : Runbook) : Prop := a.id ≠ b.id

instance : DecidableRel RunbookKeys := fun a b => inferInstanceAs (Decidable (a.id ≠ b.id))

/-- A row of `notification_events`, with its recipients. -/
structure NotificationEvent where
  id : Uuid
  type : String
  actorUserId : Option Uuid
  payload : Json
  recipients : List Uuid
  deriving DecidableEq

def EventKeys (a b : NotificationEvent) : Prop := a.id ≠ b.id

instance : DecidableRel EventKeys := fun a b => inferInstanceAs (Decidable (a.id ≠ b.id))

/-- The row of `ppf_build_config`. -/
structure PpfConfig where
  revision : Int64
  content : Json
  updatedBy : Option Uuid
  deriving DecidableEq

structure Store where
  users : List Uuid
  /-- the group rows of each user -/
  groups : Uuid → List UserGroupPermRow
  /-- the members of each group -/
  members : Uuid → List Uuid
  /-- the text of the configuration file -/
  file : Option String
  /-- the temporary file, if it is there, with its text -/
  tmp : Option (Option String)
  /-- the inode of the configuration file; the temporary file has the next one -/
  inode : ℕ := 0
  snapshots : Table ConfigSnapshot SnapshotKeys
  ppfConfig : Option PpfConfig
  runbooks : Table Runbook RunbookKeys
  events : Table NotificationEvent EventKeys
  /-- the text that PMP has last acknowledged to have loaded -/
  acknowledged : Option String

inductive Query where
  /-- what the permission and reauth checks and the audit log ask -/
  | server (q : Ppb.Query)
  /-- `File::open` of the configuration; the answer is its inode -/
  | openFile
  /-- `read_to_string` of the open file -/
  | readFile (inode : ℕ)
  /-- `File::create` of the temporary file, which empties it; the answer is its inode -/
  | createTmp
  /-- `write_all` to the open file; the answer holds the text that is in it then -/
  | write (inode : ℕ) (content : String)
  /-- `fs::rename` of the temporary file over the configuration -/
  | rename
  /-- the `server.config_reload` command to PMP -/
  | reload
  /-- `OpenUdsClient::ping` -/
  | ping
  /-- `insert_snapshot` (config/repo.rs:112-130); the answer is the id and the time it writes -/
  | insertSnapshot (scope content note : String) (actor : Option Uuid)
  /-- `list_snapshots` (config/repo.rs:132-142) -/
  | listSnapshots (scope : String) (limit : ℕ)
  /-- `get_snapshot` (config/repo.rs:144-153) -/
  | getSnapshot (id : Uuid)
  /-- `mark_restored` (config/repo.rs:155-162); the answer is the time it writes -/
  | markRestored (id : Uuid)
  /-- `put_ppf_config` (config/repo.rs:88-108); the answer is the revision -/
  | putPpfConfig (content : Json) (actor : Option Uuid)
  /-- `INSERT INTO runbooks` (automation/routes.rs:164-176); the answer is the id -/
  | insertRunbook (name description : String) (definition : Json) (actor : Option Uuid)
  /-- `UPDATE runbooks` (automation/routes.rs:242-254) -/
  | updateRunbook (id : Uuid) (name description : String) (definition : Json) (actor : Option Uuid)
  /-- `SELECT id FROM users` -/
  | listUsers
  /-- `SELECT user_id FROM group_members WHERE group_id = $1` -/
  | groupMembers (group : Uuid)
  /-- `publish_to_users` (notifications/mod.rs:240-276), one transaction; the answer is the id -/
  | publish (type : String) (actor : Option Uuid) (payload : Json) (recipients : List Uuid)
  /-- `push.notify`; a failure is not looked at -/
  | notify (user : Uuid) (title body : String) (payload : Json)
  deriving DecidableEq

@[reducible]
def Query.Answer : Query → Type
  | .server q => q.Answer
  | .openFile => Except Unit ℕ
  | .readFile _ => Except Unit String
  | .createTmp => Except Unit ℕ
  | .write .. => Except Unit Unit × Option String
  | .rename => Except Unit Unit
  | .reload => Except OpenUdsError Json
  | .ping => Except OpenUdsError Unit
  | .insertSnapshot .. => Except DbError (Uuid × ℕ)
  | .listSnapshots .. => Except DbError (List ConfigSnapshot)
  | .getSnapshot _ => Except DbError (Option ConfigSnapshot)
  | .markRestored _ => Except DbError ℕ
  | .putPpfConfig .. => Except DbError Int64
  | .insertRunbook .. => Except DbError Uuid
  | .updateRunbook .. => Except DbError Unit
  | .listUsers => Except DbError (List Uuid)
  | .groupMembers _ => Except DbError (List Uuid)
  | .publish .. => Except DbError Uuid
  | .notify .. => Unit

/-- What a write to a file with the text `old` can leave in it. What is longer than `content` in
    another's text stays behind it; a write that fails leaves anything. -/
def leaves (old : Option String) (content : String) : Except Unit Unit × Option String → Bool
  | (.ok (), new) =>
    if old = some "" then decide (new = some content) else new.all content.isPrefixOf
  | (.error (), _) => true

namespace Store

variable (s : Store)

/-- The foreign key of a column that may be `NULL`. -/
def references (actor : Option Uuid) : Bool := actor.all s.users.contains

/-- `WHERE scope = $1 ORDER BY created_at DESC LIMIT $2`. -/
def listed (scope : String) (limit : ℕ) : List ConfigSnapshot :=
  ((s.snapshots.rows.filter (·.scope == scope)).mergeSort fun a b => b.createdAt ≤ a.createdAt).take
    limit

/-- The store after a write to the file `inode`. One that is neither of the two has been replaced,
    and nobody opens it any more. -/
def write (inode : ℕ) (content : String) (a : Except Unit Unit × Option String) : Option Store :=
  if inode = s.inode + 1 then
    if leaves s.tmp.join content a = true then some { s with tmp := some a.2 } else none
  else if inode = s.inode then
    if leaves s.file content a = true then some { s with file := a.2 } else none
  else some s

/-- The rows after `insert_snapshot`. -/
def insertSnapshot (scope content note : String) (actor : Option Uuid) (id : Uuid) (time : ℕ) :
    Option Store :=
  if s.references actor = true then
    (s.snapshots.insert ⟨id, scope, content, note, actor, time, none⟩).map fun snapshots =>
      { s with snapshots := snapshots }
  else none

def markRestored (id : Uuid) (time : ℕ) : Option Store :=
  (s.snapshots.update (·.id == id) fun r => { r with restoredAt := some time }).map
    fun snapshots => { s with snapshots := snapshots }

/-- The next revision of the build configuration. -/
def nextRevision : Int64 := (s.ppfConfig.map (·.revision + 1)).getD 1

def putPpfConfig (content : Json) (actor : Option Uuid) (revision : Int64) : Option Store :=
  if s.references actor = true ∧ revision = s.nextRevision then
    some { s with ppfConfig := some ⟨revision, content, actor⟩ }
  else none

def insertRunbook (name description : String) (definition : Json) (actor : Option Uuid) (id : Uuid) :
    Option Store :=
  if s.references actor = true then
    (s.runbooks.insert ⟨id, name, description, definition, actor, actor⟩).map fun runbooks =>
      { s with runbooks := runbooks }
  else none

def updateRunbook (id : Uuid) (name description : String) (definition : Json)
    (actor : Option Uuid) : Option Store :=
  if s.references actor = true then
    (s.runbooks.update (·.id == id) fun r =>
      ⟨r.id, name, description, definition, r.createdBy, actor⟩).map fun runbooks =>
        { s with runbooks := runbooks }
  else none

def publish (type : String) (actor : Option Uuid) (payload : Json) (recipients : List Uuid)
    (id : Uuid) : Option Store :=
  if s.references actor = true ∧ recipients.all s.users.contains = true then
    (s.events.insert ⟨id, type, actor, payload, recipients⟩).map fun events =>
      { s with events := events }
  else none

end Store

/-- `UPDATE … RETURNING` with `fetch_one`: a missing row is an error. -/
def fetchOne {α : Type} (s : Store) (found : Bool) (ok : α → Option Store) :
    Except DbError α → Option Store
  | .ok a => if found then ok a else none
  | .error .other => some s
  | .error .rowNotFound => if found then none else some s

theorem fetchOne_cases {α : Type} {s s' : Store} {found : Bool} {ok : α → Option Store}
    {a : Except DbError α} (h : fetchOne s found ok a = some s') :
    s' = s ∨ ∃ row, ok row = some s' := by
  match a with
  | .ok row =>
    simp only [fetchOne] at h
    split_ifs at h
    exact .inr ⟨row, h⟩
  | .error .other => exact .inl (Option.some.inj h).symm
  | .error .rowNotFound =>
    simp only [fetchOne] at h
    split_ifs at h
    exact .inl (Option.some.inj h).symm

/-- The store after an event; `none` if it is not answered so. -/
def exec (s : Store) (e : Event Query Query.Answer) : Option Store :=
  match e with
  | ⟨.server (.groupRows user), a⟩ => reads s (s.groups user) a
  | ⟨.server _, _⟩ => some s
  | ⟨.openFile, a⟩ =>
    match a with
    | .ok inode => if inode = s.inode then some s else none
    | .error () => some s
  | ⟨.readFile inode, a⟩ =>
    match a with
    | .ok text => if inode = s.inode → s.file = some text then some s else none
    | .error () => some s
  | ⟨.createTmp, a⟩ =>
    match a with
    | .ok inode => if inode = s.inode + 1 then some { s with tmp := some (some "") } else none
    | .error () => some s
  | ⟨.write inode content, a⟩ => s.write inode content a
  | ⟨.rename, a⟩ =>
    match a with
    | .ok () => s.tmp.map fun text => { s with file := text, tmp := none, inode := s.inode + 1 }
    | .error () => some s
  | ⟨.reload, a⟩ =>
    match a with
    | .ok _ => some { s with acknowledged := s.file }
    | .error _ => some s
  | ⟨.ping, _⟩ => some s
  | ⟨.insertSnapshot scope content note actor, a⟩ =>
    orUnchanged s (fun row => s.insertSnapshot scope content note actor row.1 row.2) a
  | ⟨.listSnapshots scope limit, a⟩ => reads s (s.listed scope limit) a
  | ⟨.getSnapshot id, a⟩ => reads s (s.snapshots.rows.find? (·.id == id)) a
  | ⟨.markRestored id, a⟩ => orUnchanged s (s.markRestored id) a
  | ⟨.putPpfConfig content actor, a⟩ => orUnchanged s (s.putPpfConfig content actor) a
  | ⟨.insertRunbook name description definition actor, a⟩ =>
    orUnchanged s (s.insertRunbook name description definition actor) a
  | ⟨.updateRunbook id name description definition actor, a⟩ =>
    fetchOne s (s.runbooks.rows.any (·.id == id))
      (fun () => s.updateRunbook id name description definition actor) a
  | ⟨.listUsers, a⟩ => reads s s.users a
  | ⟨.groupMembers group, a⟩ => reads s (s.members group) a
  | ⟨.publish type actor payload recipients, a⟩ =>
    orUnchanged s (s.publish type actor payload recipients) a
  | ⟨.notify .., _⟩ => some s

/-- What an event can do to the configuration and its snapshots. -/
inductive Effect (s s' : Store) (e : Event Query Query.Answer) : Prop
  | elsewhere (hfile : s'.file = s.file) (hsnapshots : s'.snapshots = s.snapshots)
  | wrote (content : String) (a : Except Unit Unit × Option String)
      (he : e = ⟨.write s.inode content, a⟩) (h : s' = { s with file := a.2 })
  | renamed (text : Option String) (he : e = ⟨.rename, .ok ()⟩) (htmp : s.tmp = some text)
      (h : s' = { s with file := text, tmp := none, inode := s.inode + 1 })
  | inserted (scope content note : String) (actor : Option Uuid) (id : Uuid) (time : ℕ)
      (he : e = ⟨.insertSnapshot scope content note actor, .ok (id, time)⟩)
      (h : s.insertSnapshot scope content note actor id time = some s')
  | restored (id : Uuid) (time : ℕ) (he : e = ⟨.markRestored id, .ok time⟩)
      (h : s.markRestored id time = some s')

theorem exec_effect {s s' : Store} {e : Event Query Query.Answer} (h : exec s e = some s') :
    Effect s s' e := by
  have hsame : s' = s → Effect s s' e := fun heq => by
    rw [heq]
    exact .elsewhere rfl rfl
  obtain ⟨q, a⟩ := e
  cases q with
  | server q =>
    unfold exec at h
    split at h
    case h_1 => exact hsame (reads_cases h).1
    case h_2 => exact hsame (Option.some.inj h).symm
    all_goals rename_i heq; cases heq
  | openFile | readFile inode =>
    cases a with
    | ok a =>
      simp only [exec] at h
      split_ifs at h
      exact hsame (Option.some.inj h).symm
    | error u => exact hsame (Option.some.inj h).symm
  | createTmp =>
    cases a with
    | ok inode =>
      simp only [exec] at h
      split_ifs at h
      rw [← Option.some.inj h]
      exact .elsewhere rfl rfl
    | error u => exact hsame (Option.some.inj h).symm
  | write inode content =>
    simp only [exec, Store.write] at h
    split_ifs at h with htmp hleaves hlive hleaves
    · rw [← Option.some.inj h]
      exact .elsewhere rfl rfl
    · exact .wrote content a (by rw [hlive]) (Option.some.inj h).symm
    · exact hsame (Option.some.inj h).symm
  | rename =>
    cases a with
    | ok u =>
      obtain ⟨text, htmp, rfl⟩ := Option.map_eq_some_iff.mp h
      exact .renamed text rfl htmp rfl
    | error u => exact hsame (Option.some.inj h).symm
  | reload =>
    cases a with
    | ok v =>
      rw [← Option.some.inj h]
      exact .elsewhere rfl rfl
    | error e => exact hsame (Option.some.inj h).symm
  | ping | notify user title body payload => exact hsame (Option.some.inj h).symm
  | insertSnapshot scope content note actor =>
    rcases orUnchanged_cases h with h | ⟨row, rfl, hdone⟩
    · exact hsame h
    · exact .inserted scope content note actor row.1 row.2 rfl hdone
  | markRestored id =>
    rcases orUnchanged_cases h with h | ⟨time, rfl, hdone⟩
    · exact hsame h
    · exact .restored id time rfl hdone
  | listSnapshots scope limit | getSnapshot id | listUsers | groupMembers group =>
    exact hsame (reads_cases h).1
  | putPpfConfig content actor =>
    rcases orUnchanged_cases h with h | ⟨revision, rfl, hdone⟩
    · exact hsame h
    · unfold Store.putPpfConfig at hdone
      split_ifs at hdone
      rw [← Option.some.inj hdone]
      exact .elsewhere rfl rfl
  | insertRunbook name description definition actor =>
    rcases orUnchanged_cases h with h | ⟨id, rfl, hdone⟩
    · exact hsame h
    · unfold Store.insertRunbook at hdone
      split_ifs at hdone
      obtain ⟨rows, -, rfl⟩ := Option.map_eq_some_iff.mp hdone
      exact .elsewhere rfl rfl
  | updateRunbook id name description definition actor =>
    rcases fetchOne_cases h with h | ⟨u, hdone⟩
    · exact hsame h
    · unfold Store.updateRunbook at hdone
      split_ifs at hdone
      obtain ⟨rows, -, rfl⟩ := Option.map_eq_some_iff.mp hdone
      exact .elsewhere rfl rfl
  | publish type actor payload recipients =>
    rcases orUnchanged_cases h with h | ⟨id, rfl, hdone⟩
    · exact hsame h
    · unfold Store.publish at hdone
      split_ifs at hdone
      obtain ⟨rows, -, rfl⟩ := Option.map_eq_some_iff.mp hdone
      exact .elsewhere rfl rfl

abbrev Handler (α : Type) := Prog Query Query.Answer ApiError α

abbrev ask (q : Query) : Handler q.Answer := Prog.query q

/-- A program of another part of the server. -/
def call {α : Type} (p : Server α) : Handler α := p.lift Query.server fun _ a => a

/-- The configuration the admin endpoints depend on. -/
structure AdminState where
  app : AppState
  /-- `config.pmp.config_path` is set -/
  configured : Bool

end Ppb.Admin
