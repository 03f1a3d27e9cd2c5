import Ppb.Common.Json
import Ppb.Common.SharedStore
import Ppb.Server.Sql

/-!
# Preferences (`preferences/mod.rs`, `preferences/routes.rs`)

A user has one row of preferences for each namespace, with a revision that `upsert` counts
up. A client sends the revision it has read along with an update, and `upsert` compares it
with the one it reads itself; then it writes, whatever is there by then.

`exec db e`: the table after the statement `e`. A statement may fail, and then changes
nothing.

Deviation: the server has a database: the error of `require_db` is left out.
-/

namespace Ppb.Preferences

open Prog

/-- The primary key of `user_preferences`: user and namespace. -/
abbrev Key := Uuid × String

/-- `UserPreference` (preferences/mod.rs:12-19), without its time. -/
structure UserPreference where
  userId : Uuid
  «namespace» : String
  revision : Int64
  data : Json
  deriving DecidableEq

structure Db where
  rows : Key → Option UserPreference
  /-- what has happened to each key, newest first: the revision of a row that was written, or
      `none` for one that was deleted -/
  log : List (Key × Option Int64)

def Db.new : Db := ⟨fun _ => none, []⟩

inductive Query where
  /-- the statement of `get` (preferences/mod.rs:26-34) -/
  | get (key : Key)
  /-- `INSERT … ON CONFLICT … DO UPDATE … RETURNING …` (preferences/mod.rs:63-75) -/
  | put (key : Key) (revision : Int64) (data : Json)
  /-- the statement of `delete` (preferences/mod.rs:80-85) -/
  | delete (key : Key)
  deriving DecidableEq

@[reducible]
def Query.Answer : Query → Type
  | .get _ => Except DbError (Option UserPreference)
  | .put .. => Except DbError UserPreference
  | .delete _ => Except DbError Unit

/-- The row is written, whether there was one or not. -/
def Db.put (db : Db) (key : Key) (row : UserPreference) : Db :=
  { rows := Function.update db.rows key (some row), log := (key, some row.revision) :: db.log }

/-- The row is deleted if there is one. -/
def Db.delete (db : Db) (key : Key) : Db :=
  if (db.rows key).isSome then
    { rows := Function.update db.rows key none, log := (key, none) :: db.log }
  else db

def exec (db : Db) (e : Event Query Query.Answer) : Option Db :=
  match e with
  | ⟨.get key, a⟩ => reads db (db.rows key) a
  | ⟨.put key revision data, a⟩ => orUnchanged db (fun row =>
      if row = ⟨key.1, key.2, revision, data⟩ then some (db.put key row) else none) a
  | ⟨.delete key, a⟩ => orUnchanged db (fun _ => some (db.delete key)) a

/-! ## The handlers -/

abbrev Handler (α : Type) := Prog Query Query.Answer ApiError α

abbrev ask (q : Query) : Handler q.Answer := query q

/-- `db_err` (preferences/mod.rs:90-97). -/
def preferenceErr : DbError → ApiError := dbErr .resourceNotFound "preference not found"

/-- `get` (preferences/mod.rs:21-35). -/
def get (userId : Uuid) (ns : String) : Handler (Option UserPreference) := do
  let found ← ask (.get (userId, ns))
  mapErr preferenceErr found

/-- The revision of a row; `0` if there is none. -/
def revisionOf (row : Option UserPreference) : Int64 := (row.map (·.revision)).getD 0

/-- The error of a revision that is not the one in the table (preferences/mod.rs:52-60). -/
def revisionMismatch (revision : Int64) : ApiError :=
  .withDetails .resourceConflict "preference revision mismatch (optimistic concurrency)"
    (.obj [("current_revision", .ofInt64 revision)])

/-- `upsert` (preferences/mod.rs:39-77). -/
def upsert (userId : Uuid) (ns : String) (data : Json) (expectedRevision : Option Int64) :
    Handler UserPreference := do
  let current ← get userId ns
  let revision := revisionOf current
  failIf (expectedRevision.any (· ≠ revision) = true) (revisionMismatch revision)
  let written ← ask (.put (userId, ns) (revision + 1) data)
  mapErr preferenceErr written

/-- `delete` (preferences/mod.rs:79-87). -/
def delete (userId : Uuid) (ns : String) : Handler Unit := do
  let deleted ← ask (.delete (userId, ns))
  mapErr preferenceErr deleted

/-- `validate_namespace` (preferences/routes.rs:25-31). -/
def validateNamespace (ns : String) : Handler Unit :=
  failIf (ns ∉ ["common", "ppf", "panel", "experiments"])
    (.validation "namespace must be common|ppf|panel|experiments")

/-- `get_one` (preferences/routes.rs:44-58). -/
def getOne (auth : AuthPrincipal) (ns : String) : Handler UserPreference := do
  failIf (auth.isRoot = true) .permissionDenied
  validateNamespace ns
  let found ← get auth.sub ns
  ofOption (.notFound "preferences") found

/-- `update` (preferences/routes.rs:79-92). -/
def update (auth : AuthPrincipal) (ns : String) (data : Json)
    (baseRevision : Option Int64) : Handler UserPreference := do
  failIf (auth.isRoot = true) .permissionDenied
  validateNamespace ns
  upsert auth.sub ns data baseRevision

/-- `delete_one` (preferences/routes.rs:106-117). -/
def deleteOne (auth : AuthPrincipal) (ns : String) : Handler Unit := do
  failIf (auth.isRoot = true) .permissionDenied
  validateNamespace ns
  delete auth.sub ns

/-- The endpoint that is called. -/
inductive Op where
  | getOne (auth : AuthPrincipal) (ns : String)
  | update (auth : AuthPrincipal) (ns : String) (data : Json) (baseRevision : Option Int64)
  | deleteOne (auth : AuthPrincipal) (ns : String)
  deriving DecidableEq

/-- The row of the answer; none after a `DELETE`. -/
def Op.program : Op → Handler (Option UserPreference)
  | .getOne auth ns => do
    let row ← Preferences.getOne auth ns
    return some row
  | .update auth ns data baseRevision => do
    let row ← Preferences.update auth ns data baseRevision
    return some row
  | .deleteOne auth ns => do
    Preferences.deleteOne auth ns
    return none

abbrev System := Shared.Pool Query Query.Answer Db Op ApiError (Option UserPreference)

abbrev step : System → Shared.Label Query Query.Answer Op → Option System :=
  Shared.Pool.step exec Op.program

def System.new : System := ⟨.new, []⟩

/-! ## What they ask -/

theorem only_validateNamespace {C : Query → Prop} {ns : String} : (validateNamespace ns).Only C :=
  only_failIf

/-- What an operation asks for: an update with a revision writes the next one. -/
def Op.MayAsk : Op → Query → Prop
  | .getOne auth ns, .get key => key = (auth.sub, ns)
  | .update auth ns _ _, .get key => key = (auth.sub, ns)
  | .update auth ns data baseRevision, .put key revision data' =>
    key = (auth.sub, ns) ∧ data' = data ∧ ∀ base ∈ baseRevision, revision = base + 1
  | .deleteOne auth ns, .delete key => key = (auth.sub, ns)
  | _, _ => False

theorem only_program (op : Op) : op.program.Only op.MayAsk := by
  cases op with
  | getOne auth ns =>
    refine only_bind ?_ fun _ => trivial
    refine only_bind only_failIf fun _ => only_bind only_validateNamespace fun _ => ?_
    exact only_bind (only_bind (only_query rfl) fun _ => only_mapErr) fun _ => only_ofOption
  | update auth ns data baseRevision =>
    refine only_bind ?_ fun _ => trivial
    refine only_bind only_failIf fun _ => only_bind only_validateNamespace fun _ => ?_
    refine only_bind (only_bind (only_query rfl) fun _ => only_mapErr) fun current => ?_
    refine only_failIf_bind fun hmatch => ?_
    refine only_bind (only_query ⟨rfl, rfl, fun base hbase => ?_⟩) fun _ => only_mapErr
    rw [Option.mem_def.mp hbase] at hmatch
    have heq : base = revisionOf current := by simpa using hmatch
    rw [heq]
  | deleteOne auth ns =>
    refine only_bind ?_ fun _ => trivial
    refine only_bind only_failIf fun _ => only_bind only_validateNamespace fun _ => ?_
    exact only_bind (only_query rfl) fun _ => only_mapErr

/-! ## What a statement does -/

variable {db db' : Db} {key k : Key}

/-- What a statement can do to the table. -/
inductive Effect (e : Event Query Query.Answer) (db db' : Db) : Prop
  | unchanged (h : db' = db)
  | wrote (key : Key) (revision : Int64) (data : Json)
      (he : e = ⟨.put key revision data, .ok ⟨key.1, key.2, revision, data⟩⟩)
      (h : db' = db.put key ⟨key.1, key.2, revision, data⟩)
  | deleted (key : Key) (hsome : (db.rows key).isSome = true)
      (h : db' = { rows := Function.update db.rows key none, log := (key, none) :: db.log })

theorem exec_effect {e : Event Query Query.Answer} (h : exec db e = some db') : Effect e db db' := by
  obtain ⟨q, a⟩ := e
  cases q with
  | get key => exact .unchanged (reads_cases h).1
  | put key revision data =>
    rcases orUnchanged_cases h with h | ⟨row, rfl, hput⟩
    · exact .unchanged h
    · split_ifs at hput with hrow
      subst hrow
      exact .wrote key revision data rfl (Option.some.inj hput).symm
  | delete key =>
    rcases orUnchanged_cases h with h | ⟨-, -, h⟩
    · exact .unchanged h
    · have hdelete : db' = db.delete key := (Option.some.inj h).symm
      unfold Db.delete at hdelete
      split_ifs at hdelete with hsome
      · exact .deleted key hsome hdelete
      · exact .unchanged hdelete

end Ppb.Preferences
