import Ppb.Common.SharedStore
import Ppb.Common.Table
import Ppb.Common.Text
import Ppb.Server.Types

/-!
# The store of join intents (`join_intent/mod.rs`)

A user who wants to join a room while he is offline leaves an intent; when his player
comes online, he is moved. The store has two maps, `intents` by id and `by_phira` from a
player to an id, and every access to one of them is a step of its own: an operation of the
store makes several.

`exec db e`: the store after the access `e`. Ids are random and never drawn twice. An
iteration over a map reports entries that were there at some time during it.

Times are in nanoseconds.
-/

namespace Ppb.JoinIntents

/-- The statuses of an intent (join_intent/mod.rs:24-29). -/
inductive Status where
  | pending | userOnline | moving | completed | failed | expired
  deriving DecidableEq, Repr

/-- `is_terminal` (join_intent/mod.rs:42-44). -/
def Status.isTerminal : Status → Bool
  | .completed | .failed | .expired => true
  | .pending | .userOnline | .moving => false

/-- `JoinIntent` (join_intent/mod.rs:31-40). -/
structure JoinIntent where
  id : Uuid
  userId : Uuid
  phiraId : Int64
  roomId : String
  createdAt : ℕ
  expiresAt : ℕ
  status : Status
  deriving DecidableEq, Repr

def second : ℕ := 1000000000

/-- `DEFAULT_TTL_SECS` (join_intent/mod.rs:18). -/
def defaultTtlSecs : ℤ := 300

/-- `MAX_TTL_SECS` (join_intent/mod.rs:20). -/
def maxTtlSecs : ℤ := 900

/-- `TERMINAL_RETENTION_SECS` (join_intent/mod.rs:22). -/
def terminalRetentionSecs : ℕ := 3600

/-- `effective_status` (join_intent/mod.rs:48-54), at the time `now`. -/
def effectiveStatus (now : ℕ) (intent : JoinIntent) : Status :=
  if intent.expiresAt ≤ now ∧ intent.status.isTerminal = false then .expired else intent.status

/-- An intent is stored under its id. -/
def IntentKeys (a b : JoinIntent) : Prop := a.id ≠ b.id

instance : DecidableRel IntentKeys := fun a b => inferInstanceAs (Decidable (a.id ≠ b.id))

/-- `JoinIntentStore` (join_intent/mod.rs:58-62), and what has happened. -/
structure Db where
  intents : Table JoinIntent IntentKeys
  byPhira : Int64 → Option Uuid
  /-- the latest time that was asked for -/
  clock : ℕ
  /-- the ids and players of the intents that were created, the latest first -/
  created : List (Uuid × Int64)
  /-- the intents that `match_online` has found, and when -/
  looked : List (JoinIntent × ℕ)
  /-- the intents for which `room.force_move` was sent, the latest first -/
  moves : List Uuid

/-- `JoinIntentStore::new`. -/
def Db.new : Db := ⟨.empty, fun _ => none, 0, [], [], []⟩

/-! ## Accesses -/

inductive Query where
  /-- `Utc::now` -/
  | now
  /-- `Uuid::new_v4` and `intents.insert` -/
  | insertIntent (userId : Uuid) (phiraId : Int64) (roomId : String) (createdAt expiresAt : ℕ)
  /-- `intents.get` -/
  | getIntent (id : Uuid)
  /-- `intents.get` in `match_online` -/
  | lookIntent (id : Uuid)
  /-- `update_status` (join_intent/mod.rs:175-179) -/
  | updateStatus (id : Uuid) (status : Status)
  /-- `intents.remove` -/
  | removeIntent (id : Uuid)
  /-- the iteration of `cleanup_expired` -/
  | intentIds
  /-- the iteration of `list_for_user` -/
  | listIntents
  /-- `by_phira.get` -/
  | getPhira (phiraId : Int64)
  /-- `by_phira.insert` -/
  | insertPhira (phiraId : Int64) (id : Uuid)
  /-- `by_phira.remove`, on account of an intent -/
  | removePhira (phiraId : Int64) (of : Uuid)
  /-- `room.force_move`, for an intent -/
  | forceMove (id : Uuid) (roomId : String) (player : Int32)
  deriving DecidableEq

@[reducible]
def Query.Answer : Query → Type
  | .now => ℕ
  | .insertIntent .. => Uuid × Option JoinIntent
  | .getIntent _ | .lookIntent _ | .removeIntent _ => Option JoinIntent
  | .updateStatus .. | .insertPhira .. | .removePhira .. => Unit
  | .intentIds => List Uuid
  | .listIntents => List JoinIntent
  | .getPhira _ => Option Uuid
  | .forceMove .. => Bool

namespace Db

/-- `intents.get`. -/
def find (db : Db) (id : Uuid) : Option JoinIntent := db.intents.rows.find? (·.id == id)

/-- The intent that was created last for a player. -/
def latest (db : Db) (phiraId : Int64) : Option Uuid :=
  (db.created.find? (·.2 == phiraId)).map (·.1)

def addIntent (db : Db) (intent : JoinIntent) : Option Db :=
  if intent.id ∉ db.created.map (·.1) then
    (db.intents.insert intent).map fun intents =>
      { db with intents := intents, created := (intent.id, intent.phiraId) :: db.created }
  else none

def setStatus (db : Db) (id : Uuid) (status : Status) : Option Db :=
  (db.intents.update (·.id == id) fun a => { a with status := status }).map fun intents =>
    { db with intents := intents }

def removeIntent (db : Db) (id : Uuid) : Db :=
  { db with intents := db.intents.delete (·.id == id) }

def setPhira (db : Db) (phiraId : Int64) (id : Option Uuid) : Db :=
  { db with byPhira := Function.update db.byPhira phiraId id }

end Db

/-- The store after an access and its answer; `none` if it is not answered so. -/
def exec (db : Db) (e : Event Query Query.Answer) : Option Db :=
  match e with
  | ⟨.now, now⟩ => if db.clock ≤ now then some { db with clock := now } else none
  | ⟨.insertIntent userId phiraId roomId createdAt expiresAt, (id, previous)⟩ =>
    if previous = db.find id then
      db.addIntent ⟨id, userId, phiraId, roomId, createdAt, expiresAt, .pending⟩
    else none
  | ⟨.getIntent id, found⟩ => if found = db.find id then some db else none
  | ⟨.lookIntent id, found⟩ =>
    if found = db.find id then
      some { db with looked := found.toList.map (fun a => (a, db.clock)) ++ db.looked }
    else none
  | ⟨.updateStatus id status, _⟩ => db.setStatus id status
  | ⟨.removeIntent id, found⟩ => if found = db.find id then some (db.removeIntent id) else none
  | ⟨.intentIds, ids⟩ => if ids.all (· ∈ db.created.map (·.1)) then some db else none
  | ⟨.listIntents, intents⟩ => if ∀ a ∈ intents, db.find a.id = some a then some db else none
  | ⟨.getPhira phiraId, found⟩ => if found = db.byPhira phiraId then some db else none
  | ⟨.insertPhira phiraId id, _⟩ => some (db.setPhira phiraId (some id))
  | ⟨.removePhira phiraId _, _⟩ => some (db.setPhira phiraId none)
  | ⟨.forceMove id _ _, _⟩ => some { db with moves := id :: db.moves }

/-! ## What an access does -/

variable {db db' : Db} {a : JoinIntent} {id : Uuid}

/-- An id has one intent. -/
theorem eq_of_id {b : JoinIntent} (ha : a ∈ db.intents) (hb : b ∈ db.intents) (hid : a.id = b.id) :
    a = b := by
  rcases db.intents.eq_or_compat ha hb with h | h | h
  · exact h
  · exact absurd hid h
  · exact absurd hid.symm h

theorem find_eq_some : db.find id = some a ↔ a ∈ db.intents ∧ a.id = id := by
  constructor
  · intro h
    exact ⟨List.mem_of_find?_eq_some h, by simpa using List.find?_some h⟩
  · rintro ⟨hmem, rfl⟩
    cases hfind : db.find a.id with
    | none => exact absurd (List.find?_eq_none.mp hfind a hmem) (by simp)
    | some b =>
      have hb : b ∈ db.intents := List.mem_of_find?_eq_some hfind
      have hid : b.id = a.id := by simpa using List.find?_some hfind
      rw [eq_of_id hb hmem hid]

theorem find_eq_none : db.find id = none ↔ ∀ a ∈ db.intents, a.id ≠ id := by
  simp [Db.find, Table.mem_def]

@[simp] theorem mem_removeIntent : a ∈ (db.removeIntent id).intents ↔ a ∈ db.intents ∧ a.id ≠ id := by
  simp [Db.removeIntent]

@[simp] theorem removeIntent_byPhira : (db.removeIntent id).byPhira = db.byPhira := rfl

@[simp] theorem removeIntent_clock : (db.removeIntent id).clock = db.clock := rfl

@[simp] theorem removeIntent_created : (db.removeIntent id).created = db.created := rfl

@[simp] theorem setPhira_intents {p : Int64} {o : Option Uuid} :
    (db.setPhira p o).intents = db.intents := rfl

@[simp] theorem setPhira_clock {p : Int64} {o : Option Uuid} : (db.setPhira p o).clock = db.clock := rfl

@[simp] theorem setPhira_created {p : Int64} {o : Option Uuid} :
    (db.setPhira p o).created = db.created := rfl

theorem setPhira_byPhira {p p' : Int64} {o : Option Uuid} :
    (db.setPhira p o).byPhira p' = if p' = p then o else db.byPhira p' := by
  simp only [Db.setPhira, Function.update_apply]

/-- `update_status` changes the status of one intent. -/
structure SetsStatus (id : Uuid) (status : Status) (db db' : Db) : Prop where
  mem : ∀ y, y ∈ db'.intents ↔
    ∃ x ∈ db.intents, y = if x.id = id then { x with status := status } else x
  byPhira : db'.byPhira = db.byPhira
  clock : db'.clock = db.clock
  created : db'.created = db.created
  looked : db'.looked = db.looked
  moves : db'.moves = db.moves

theorem setStatus_spec {status : Status} (h : db.setStatus id status = some db') :
    SetsStatus id status db db' := by
  obtain ⟨intents, hupdate, rfl⟩ := Option.map_eq_some_iff.mp h
  refine ⟨fun y => ?_, rfl, rfl, rfl, rfl, rfl⟩
  rw [Table.mem_update hupdate]
  simp only [beq_iff_eq]
  constructor
  · rintro ⟨x, hx, heq⟩
    exact ⟨x, hx, heq.symm⟩
  · rintro ⟨x, hx, heq⟩
    exact ⟨x, hx, heq.symm⟩

/-- A new intent is under an id that was never drawn. -/
structure Adds (intent : JoinIntent) (db db' : Db) : Prop where
  fresh : ∀ c ∈ db.created, c.1 ≠ intent.id
  mem : ∀ y, y ∈ db'.intents ↔ y ∈ db.intents ∨ y = intent
  byPhira : db'.byPhira = db.byPhira
  clock : db'.clock = db.clock
  created : db'.created = (intent.id, intent.phiraId) :: db.created
  looked : db'.looked = db.looked
  moves : db'.moves = db.moves

theorem addIntent_spec {intent : JoinIntent} (h : db.addIntent intent = some db') :
    Adds intent db db' := by
  unfold Db.addIntent at h
  split_ifs at h with hfresh
  obtain ⟨intents, hinsert, rfl⟩ := Option.map_eq_some_iff.mp h
  exact ⟨fun c hc heq => hfresh (List.mem_map.mpr ⟨c, hc, heq⟩), fun y => Table.mem_insert hinsert, rfl, rfl, rfl, rfl, rfl⟩

theorem latest_cons {c : Uuid × Int64} {p : Int64}
    (h : db'.created = c :: db.created) :
    db'.latest p = if c.2 = p then some c.1 else db.latest p := by
  simp only [Db.latest, h, List.find?_cons]
  by_cases hp : c.2 = p
  · rw [if_pos hp, beq_iff_eq.mpr hp]
    rfl
  · rw [if_neg hp, beq_eq_false_iff_ne.mpr hp]

end Ppb.JoinIntents
