import Ppb.Auth.Permissions
import Ppb.Common.SharedStore
import Ppb.Common.Table

/-!
# Groups, members and permissions in the database (`migrations/0001_init.sql`)

The three tables of groups and what each SQL statement of `permissions/groups.rs`,
`permissions/repo.rs` and `permissions/resolver.rs` does to them. `Db` carries the
constraints of the schema, so a state that violates one cannot be built.

`exec db e`: the tables after the statement and answer `e`. A statement may fail at
any time, and then it changes nothing; a write that would violate a constraint can
only fail.
-/

namespace Ppb.Groups

open Auth

/-! ## Tables -/

/-- `Group` (permissions/groups.rs:19-28), without its times. -/
structure Group where
  id : Uuid
  name : String
  description : String
  systemKind : Option String
  isDefault : Bool
  isProtected : Bool
  deriving DecidableEq, Repr

/-- `system_kind = 'admin_scope'`. -/
def Group.isAdminScope (g : Group) : Bool := g.systemKind == some "admin_scope"

/-- A row of `group_members`. -/
structure GroupMember where
  groupId : Uuid
  userId : Uuid
  deriving DecidableEq, Repr

/-- A row of `group_permissions`. -/
structure GroupPermission where
  groupId : Uuid
  permission : String
  deriving DecidableEq, Repr

/-- `PRIMARY KEY (id)` and `UNIQUE (name)` of `groups`. -/
def GroupKeys (a b : Group) : Prop := a.id ≠ b.id ∧ a.name ≠ b.name

instance : DecidableRel GroupKeys := fun a b =>
  inferInstanceAs (Decidable (a.id ≠ b.id ∧ a.name ≠ b.name))

/-- `CHECK (system_kind IN ('admin_scope'))`. -/
def KindCheck (g : Group) : Prop := g.systemKind = none ∨ g.systemKind = some "admin_scope"

instance (g : Group) : Decidable (KindCheck g) := inferInstanceAs (Decidable (_ ∨ _))

/-- The tables, with the constraints of migrations/0001_init.sql:84-109. -/
structure Db where
  /-- the ids of `users` -/
  users : List Uuid
  groups : Table Group GroupKeys
  members : Table GroupMember (· ≠ ·)
  permissions : Table GroupPermission (· ≠ ·)
  /-- the ids `gen_random_uuid()` has given to groups; it does not repeat one -/
  issued : List Uuid
  kind : ∀ g ∈ groups, KindCheck g
  group_issued : ∀ g ∈ groups, g.id ∈ issued
  member_group : ∀ m ∈ members, ∃ g ∈ groups, g.id = m.groupId
  member_user : ∀ m ∈ members, m.userId ∈ users
  permission_group : ∀ p ∈ permissions, ∃ g ∈ groups, g.id = p.groupId
  not_wildcard : ∀ p ∈ permissions, p.permission ≠ rootWildcard

/-- The tables of a new installation. -/
def Db.fresh (users : List Uuid) : Db where
  users := users
  groups := .empty
  members := .empty
  permissions := .empty
  issued := []
  kind := nofun
  group_issued := nofun
  member_group := nofun
  member_user := nofun
  permission_group := nofun
  not_wildcard := nofun

/-- A column of `groups` that an `UPDATE` sets: neither the id nor the kind. -/
inductive GroupUpdate where
  /-- `SET name = $1 WHERE id = $2` -/
  | setName (id : Uuid) (name : String)
  /-- `SET description = $1 WHERE id = $2` -/
  | setDescription (id : Uuid) (description : String)
  /-- `SET is_default = (id = $1)` -/
  | setDefault (id : Uuid)
  /-- `SET is_default = (name = $1)` -/
  | setDefaultByName (name : String)
  deriving DecidableEq

/-- What an `UPDATE` does to one row. -/
def GroupUpdate.apply : GroupUpdate → Group → Group
  | .setName id name, g => if g.id = id then { g with name := name } else g
  | .setDescription id description, g =>
    if g.id = id then { g with description := description } else g
  | .setDefault id, g => { g with isDefault := g.id == id }
  | .setDefaultByName name, g => { g with isDefault := g.name == name }

@[simp] theorem GroupUpdate.apply_id (u : GroupUpdate) (g : Group) : (u.apply g).id = g.id := by
  cases u with
  | setName id name => simp only [apply]; split_ifs <;> rfl
  | setDescription id description => simp only [apply]; split_ifs <;> rfl
  | setDefault id => rfl
  | setDefaultByName name => rfl

@[simp] theorem GroupUpdate.apply_systemKind (u : GroupUpdate) (g : Group) :
    (u.apply g).systemKind = g.systemKind := by
  cases u with
  | setName id name => simp only [apply]; split_ifs <;> rfl
  | setDescription id description => simp only [apply]; split_ifs <;> rfl
  | setDefault id => rfl
  | setDefaultByName name => rfl

namespace Db

/-- The group with an id. -/
def findGroup (db : Db) (id : Uuid) : Option Group := db.groups.rows.find? fun g => g.id == id

/-- Two groups with the same id are the same. -/
theorem group_unique {db : Db} {g g' : Group} (hg : g ∈ db.groups) (hg' : g' ∈ db.groups)
    (hid : g.id = g'.id) : g = g' := by
  rcases Table.eq_or_compat hg hg' with heq | hcompat | hcompat
  · exact heq
  · exact absurd hid hcompat.1
  · exact absurd hid.symm hcompat.1

theorem findGroup_eq_some {db : Db} {id : Uuid} {g : Group} :
    db.findGroup id = some g ↔ g ∈ db.groups ∧ g.id = id := by
  constructor
  · intro hfind
    exact ⟨List.mem_of_find?_eq_some hfind, by simpa using List.find?_some hfind⟩
  · rintro ⟨hmem, rfl⟩
    cases hfind : db.findGroup g.id with
    | none => exact absurd (List.find?_eq_none.mp hfind g hmem) (by simp)
    | some g' =>
      have hid : g'.id = g.id := by simpa using List.find?_some hfind
      rw [group_unique (List.mem_of_find?_eq_some hfind) hmem hid]

/-! ## Writes -/

/-- `INSERT INTO groups`, with the id the row gets. -/
def insertGroup (db : Db) (g : Group) : Option Db :=
  if hkind : KindCheck g ∧ g.id ∉ db.issued then
    match hinsert : db.groups.insert g with
    | some groups => some
      { db with
        groups := groups
        issued := g.id :: db.issued
        kind := by
          intro g' hg'
          rcases (Table.mem_insert hinsert).mp hg' with hg' | rfl
          · exact db.kind g' hg'
          · exact hkind.1
        group_issued := by
          intro g' hg'
          rcases (Table.mem_insert hinsert).mp hg' with hg' | rfl
          · exact List.mem_cons_of_mem _ (db.group_issued g' hg')
          · exact List.mem_cons_self
        member_group := by
          intro m hm
          obtain ⟨g', hg', hid⟩ := db.member_group m hm
          exact ⟨g', (Table.mem_insert hinsert).mpr (.inl hg'), hid⟩
        permission_group := by
          intro p hp
          obtain ⟨g', hg', hid⟩ := db.permission_group p hp
          exact ⟨g', (Table.mem_insert hinsert).mpr (.inl hg'), hid⟩ }
    | none => none
  else none

theorem mem_updated {groups groups' : Table Group GroupKeys} {u : GroupUpdate}
    (h : groups.update (fun _ => true) u.apply = some groups') {g' : Group} :
    g' ∈ groups' ↔ ∃ g ∈ groups, u.apply g = g' := by
  simpa using Table.mem_update h

/-- `UPDATE groups`. -/
def updateGroups (db : Db) (u : GroupUpdate) : Option Db :=
  match hupdate : db.groups.update (fun _ => true) u.apply with
  | some groups => some
    { db with
      groups := groups
      kind := by
        intro g' hg'
        obtain ⟨g, hg, rfl⟩ := (mem_updated hupdate).mp hg'
        simpa [KindCheck] using db.kind g hg
      group_issued := by
        intro g' hg'
        obtain ⟨g, hg, rfl⟩ := (mem_updated hupdate).mp hg'
        simpa using db.group_issued g hg
      member_group := by
        intro m hm
        obtain ⟨g, hg, hid⟩ := db.member_group m hm
        exact ⟨u.apply g, (mem_updated hupdate).mpr ⟨g, hg, rfl⟩, by simpa using hid⟩
      permission_group := by
        intro p hp
        obtain ⟨g, hg, hid⟩ := db.permission_group p hp
        exact ⟨u.apply g, (mem_updated hupdate).mpr ⟨g, hg, rfl⟩, by simpa using hid⟩ }
  | none => none

/-- Several `UPDATE`s in one transaction. -/
def updateAll (db : Db) : List GroupUpdate → Option Db
  | [] => some db
  | u :: us => (db.updateGroups u).bind fun db' => db'.updateAll us

/-- `DELETE FROM groups WHERE id = $1`, with `ON DELETE CASCADE`. -/
def deleteGroup (db : Db) (id : Uuid) : Db :=
  { db with
    groups := db.groups.delete fun g => g.id == id
    members := db.members.delete fun m => m.groupId == id
    permissions := db.permissions.delete fun p => p.groupId == id
    kind := fun g hg => db.kind g (Table.mem_delete.mp hg).1
    group_issued := fun g hg => db.group_issued g (Table.mem_delete.mp hg).1
    member_group := by
      intro m hm
      obtain ⟨hm, hne⟩ := Table.mem_delete.mp hm
      obtain ⟨g, hg, hid⟩ := db.member_group m hm
      exact ⟨g, Table.mem_delete.mpr ⟨hg, hid ▸ hne⟩, hid⟩
    member_user := fun m hm => db.member_user m (Table.mem_delete.mp hm).1
    permission_group := by
      intro p hp
      obtain ⟨hp, hne⟩ := Table.mem_delete.mp hp
      obtain ⟨g, hg, hid⟩ := db.permission_group p hp
      exact ⟨g, Table.mem_delete.mpr ⟨hg, hid ▸ hne⟩, hid⟩
    not_wildcard := fun p hp => db.not_wildcard p (Table.mem_delete.mp hp).1 }

/-- `INSERT INTO group_members … ON CONFLICT DO NOTHING`. -/
def insertMember (db : Db) (m : GroupMember) : Option Db :=
  if m ∈ db.members.rows then some db
  else if hkeys : (∃ g ∈ db.groups, g.id = m.groupId) ∧ m.userId ∈ db.users then
    match hinsert : db.members.insert m with
    | some members => some
      { db with
        members := members
        member_group := by
          intro m' hm'
          rcases (Table.mem_insert hinsert).mp hm' with hm' | rfl
          · exact db.member_group m' hm'
          · exact hkeys.1
        member_user := by
          intro m' hm'
          rcases (Table.mem_insert hinsert).mp hm' with hm' | rfl
          · exact db.member_user m' hm'
          · exact hkeys.2 }
    | none => none
  else none

/-- `DELETE FROM group_members WHERE p`. -/
def deleteMembers (db : Db) (p : GroupMember → Bool) : Db :=
  { db with
    members := db.members.delete p
    member_group := fun m hm => db.member_group m (Table.mem_delete.mp hm).1
    member_user := fun m hm => db.member_user m (Table.mem_delete.mp hm).1 }

/-- `INSERT INTO group_permissions … ON CONFLICT DO NOTHING`. -/
def insertPermission (db : Db) (p : GroupPermission) : Option Db :=
  if p ∈ db.permissions.rows then some db
  else if hkeys : (∃ g ∈ db.groups, g.id = p.groupId) ∧ p.permission ≠ rootWildcard then
    match hinsert : db.permissions.insert p with
    | some permissions => some
      { db with
        permissions := permissions
        permission_group := by
          intro p' hp'
          rcases (Table.mem_insert hinsert).mp hp' with hp' | rfl
          · exact db.permission_group p' hp'
          · exact hkeys.1
        not_wildcard := by
          intro p' hp'
          rcases (Table.mem_insert hinsert).mp hp' with hp' | rfl
          · exact db.not_wildcard p' hp'
          · exact hkeys.2 }
    | none => none
  else none

/-- `DELETE FROM group_permissions WHERE p`. -/
def deletePermissions (db : Db) (p : GroupPermission → Bool) : Db :=
  { db with
    permissions := db.permissions.delete p
    permission_group := fun q hq => db.permission_group q (Table.mem_delete.mp hq).1
    not_wildcard := fun q hq => db.not_wildcard q (Table.mem_delete.mp hq).1 }

/-! ## Reads -/

/-- The rows of the group query (permissions/resolver.rs:46-53): a `LEFT JOIN`
    gives a group without permissions one row. -/
def groupRows (db : Db) (user : Uuid) : List UserGroupPermRow :=
  (db.members.rows.filter fun m => m.userId == user).flatMap fun m =>
    (db.groups.rows.filter fun g => g.id == m.groupId).flatMap fun g =>
      match db.permissions.rows.filter fun p => p.groupId == g.id with
      | [] => [⟨g.systemKind, none⟩]
      | ps => ps.map fun p => ⟨g.systemKind, some p.permission⟩

/-- `SELECT user_id … WHERE group_id = $1`. -/
def membersOf (db : Db) (group : Uuid) : List Uuid :=
  (db.members.rows.filter fun m => m.groupId == group).map (·.userId)

/-- `SELECT COUNT(*) FROM group_members WHERE user_id = $1`. -/
def countMemberships (db : Db) (user : Uuid) : ℕ :=
  db.members.rows.countP fun m => m.userId == user

/-- `SELECT permission … WHERE group_id = $1`. -/
def permissionsOf (db : Db) (group : Uuid) : List String :=
  (db.permissions.rows.filter fun p => p.groupId == group).map (·.permission)

end Db

/-! ## Statements -/

/-- A seed group of `bootstrap_groups`. -/
structure Seed where
  name : String
  description : String
  systemKind : Option String
  isDefault : Bool
  isProtected : Bool
  deriving DecidableEq

/-- The row of a seed group. -/
def Seed.toGroup (seed : Seed) (id : Uuid) : Group :=
  ⟨id, seed.name, seed.description, seed.systemKind, seed.isDefault, seed.isProtected⟩

inductive Stmt where
  /-- `INSERT INTO groups (name, description)` -/
  | insertGroup (name description : String)
  /-- `INSERT INTO groups … ON CONFLICT (name) DO NOTHING` -/
  | insertSeed (seed : Seed)
  | updateGroups (update : GroupUpdate)
  /-- `UPDATE`s of one transaction, and whether it is committed -/
  | transaction (updates : List GroupUpdate) (commit : Bool)
  | deleteGroup (id : Uuid)
  | getGroup (id : Uuid)
  /-- `SELECT … FROM groups WHERE name = $1` -/
  | findByName (name : String)
  /-- `SELECT id FROM groups WHERE is_default = TRUE LIMIT 1` -/
  | findDefault
  | insertMember (group user : Uuid)
  | deleteMember (group user : Uuid)
  /-- `DELETE FROM group_members WHERE group_id = $1` -/
  | deleteMembers (group : Uuid)
  | listMembers (group : Uuid)
  | countMemberships (user : Uuid)
  /-- `SELECT EXISTS(SELECT 1 FROM group_members WHERE user_id = $1)` -/
  | hasMembership (user : Uuid)
  | insertPermission (group : Uuid) (permission : String)
  | deletePermission (group : Uuid) (permission : String)
  /-- `DELETE FROM group_permissions WHERE group_id = $1` -/
  | deletePermissions (group : Uuid)
  | listPermissions (group : Uuid)
  deriving DecidableEq

/-- The errors of an `INSERT` that `create_group` tells apart. -/
inductive InsertError where
  | uniqueViolation
  | db (e : DbError)
  deriving DecidableEq

/-- What a statement is answered with. -/
@[reducible]
def Stmt.Answer : Stmt → Type
  | .insertGroup _ _ => Except InsertError Group
  /- the id of the row, if one was inserted (`rows_affected() > 0`) -/
  | .insertSeed _ => Except DbError (Option Uuid)
  | .getGroup _ | .findByName _ => Except DbError (Option Group)
  | .findDefault => Except DbError (Option Uuid)
  | .listMembers _ => Except DbError (List Uuid)
  | .countMemberships _ => Except DbError ℕ
  | .hasMembership _ => Except DbError Bool
  | .listPermissions _ => Except DbError (List String)
  | _ => Except DbError Unit

/-- A read: `p` says which answers are right. -/
def reads {α : Type} (db : Db) (p : α → Bool) : Except DbError α → Option Db
  | .ok a => if p a then some db else none
  | .error .other => some db
  | .error .rowNotFound => none

/-- A write: it commits `result`, or fails. `none` is a violated constraint. -/
def writes (db : Db) (result : Option Db) : Except DbError Unit → Option Db
  | .ok () => result
  | .error .other => some db
  | .error .rowNotFound => none

/-- The tables after a statement; `none` if it is not answered so. -/
def exec (db : Db) (e : Event Stmt Stmt.Answer) : Option Db :=
  match e with
  | ⟨.insertGroup name description, a⟩ =>
    match a with
    | .ok g => if g = ⟨g.id, name, description, none, false, false⟩ then db.insertGroup g else none
    | .error .uniqueViolation => if db.groups.rows.any fun g => g.name == name then some db else none
    | .error (.db .other) => some db
    | .error (.db .rowNotFound) => none
  | ⟨.insertSeed seed, a⟩ =>
    match a with
    | .ok (some id) => db.insertGroup (seed.toGroup id)
    | .ok none => if db.groups.rows.any fun g => g.name == seed.name then some db else none
    | .error .other => some db
    | .error .rowNotFound => none
  | ⟨.updateGroups update, a⟩ => writes db (db.updateGroups update) a
  | ⟨.transaction updates commit, a⟩ =>
    writes db ((db.updateAll updates).map fun db' => if commit then db' else db) a
  | ⟨.deleteGroup id, a⟩ => writes db (some (db.deleteGroup id)) a
  | ⟨.getGroup id, a⟩ => reads db (· = db.findGroup id) a
  | ⟨.findByName name, a⟩ => reads db (· = db.groups.rows.find? fun g => g.name == name) a
  | ⟨.findDefault, a⟩ => reads db (fun found => match found with
      | some id => db.groups.rows.any fun g => g.id == id && g.isDefault
      | none => db.groups.rows.all fun g => !g.isDefault) a
  | ⟨.insertMember group user, a⟩ => writes db (db.insertMember ⟨group, user⟩) a
  | ⟨.deleteMember group user, a⟩ =>
    writes db (some (db.deleteMembers fun m => m == ⟨group, user⟩)) a
  | ⟨.deleteMembers group, a⟩ => writes db (some (db.deleteMembers fun m => m.groupId == group)) a
  -- the order of a list depends on names and on the collation
  | ⟨.listMembers group, a⟩ => reads db (fun users => decide (users.Perm (db.membersOf group))) a
  | ⟨.countMemberships user, a⟩ => reads db (· = db.countMemberships user) a
  | ⟨.hasMembership user, a⟩ => reads db (· = decide (0 < db.countMemberships user)) a
  | ⟨.insertPermission group permission, a⟩ =>
    writes db (db.insertPermission ⟨group, permission⟩) a
  | ⟨.deletePermission group permission, a⟩ =>
    writes db (some (db.deletePermissions fun p => p == ⟨group, permission⟩)) a
  | ⟨.deletePermissions group, a⟩ =>
    writes db (some (db.deletePermissions fun p => p.groupId == group)) a
  | ⟨.listPermissions group, a⟩ =>
    reads db (fun ps => decide (ps.Perm (db.permissionsOf group))) a

/-! ## What a statement does -/

namespace Db

variable {db db' : Db}

theorem insertGroup_spec {g : Group} (h : db.insertGroup g = some db') :
    db'.users = db.users ∧ db'.members = db.members ∧ db'.permissions = db.permissions ∧
      db'.issued = g.id :: db.issued ∧ g.id ∉ db.issued ∧
        ∀ g', g' ∈ db'.groups ↔ g' ∈ db.groups ∨ g' = g := by
  unfold insertGroup at h
  split_ifs at h with hkind
  split at h
  · rename_i groups hinsert
    obtain rfl := Option.some.inj h
    exact ⟨rfl, rfl, rfl, rfl, hkind.2, fun g' => Table.mem_insert hinsert⟩
  · cases h

theorem updateGroups_spec {u : GroupUpdate} (h : db.updateGroups u = some db') :
    db'.users = db.users ∧ db'.members = db.members ∧ db'.permissions = db.permissions ∧
      db'.issued = db.issued ∧ ∀ g', g' ∈ db'.groups ↔ ∃ g ∈ db.groups, u.apply g = g' := by
  unfold updateGroups at h
  split at h
  · rename_i groups hupdate
    obtain rfl := Option.some.inj h
    exact ⟨rfl, rfl, rfl, rfl, fun g' => mem_updated hupdate⟩
  · cases h

/-- Several `UPDATE`s of one row. -/
def applyAll (us : List GroupUpdate) (g : Group) : Group := us.foldl (fun g u => u.apply g) g

@[simp] theorem applyAll_id (us : List GroupUpdate) (g : Group) : (applyAll us g).id = g.id := by
  induction us generalizing g with
  | nil => rfl
  | cons u us ih => exact (ih (u.apply g)).trans (u.apply_id g)

@[simp] theorem applyAll_systemKind (us : List GroupUpdate) (g : Group) :
    (applyAll us g).systemKind = g.systemKind := by
  induction us generalizing g with
  | nil => rfl
  | cons u us ih => exact (ih (u.apply g)).trans (u.apply_systemKind g)

theorem updateAll_spec {us : List GroupUpdate} (h : db.updateAll us = some db') :
    db'.users = db.users ∧ db'.members = db.members ∧ db'.permissions = db.permissions ∧
      db'.issued = db.issued ∧ ∀ g', g' ∈ db'.groups ↔ ∃ g ∈ db.groups, applyAll us g = g' := by
  induction us generalizing db with
  | nil =>
    obtain rfl := Option.some.inj h
    exact ⟨rfl, rfl, rfl, rfl, fun g' => by simp [applyAll]⟩
  | cons u us ih =>
    obtain ⟨db₁, h1, h2⟩ := Option.bind_eq_some_iff.mp h
    obtain ⟨hu, hm, hp, hi, hg⟩ := updateGroups_spec h1
    obtain ⟨hu', hm', hp', hi', hg'⟩ := ih h2
    refine ⟨hu'.trans hu, hm'.trans hm, hp'.trans hp, hi'.trans hi, fun g' => ?_⟩
    rw [hg']
    simp only [hg]
    constructor
    · rintro ⟨_, ⟨g, hmem, rfl⟩, heq⟩
      exact ⟨g, hmem, heq⟩
    · rintro ⟨g, hmem, heq⟩
      exact ⟨u.apply g, ⟨g, hmem, rfl⟩, heq⟩

theorem insertMember_spec {m : GroupMember} (h : db.insertMember m = some db') :
    db'.users = db.users ∧ db'.groups = db.groups ∧ db'.permissions = db.permissions ∧
      db'.issued = db.issued ∧ ∀ m', m' ∈ db'.members ↔ m' ∈ db.members ∨ m' = m := by
  unfold insertMember at h
  split_ifs at h with hmem hkeys
  · obtain rfl := Option.some.inj h
    refine ⟨rfl, rfl, rfl, rfl, fun m' => ⟨.inl, ?_⟩⟩
    rintro (hm' | rfl)
    · exact hm'
    · exact hmem
  · split at h
    · rename_i members hinsert
      obtain rfl := Option.some.inj h
      exact ⟨rfl, rfl, rfl, rfl, fun m' => Table.mem_insert hinsert⟩
    · cases h

theorem insertPermission_spec {p : GroupPermission} (h : db.insertPermission p = some db') :
    db'.users = db.users ∧ db'.groups = db.groups ∧ db'.members = db.members ∧
      db'.issued = db.issued ∧ ∀ p', p' ∈ db'.permissions ↔ p' ∈ db.permissions ∨ p' = p := by
  unfold insertPermission at h
  split_ifs at h with hmem hkeys
  · obtain rfl := Option.some.inj h
    refine ⟨rfl, rfl, rfl, rfl, fun p' => ⟨.inl, ?_⟩⟩
    rintro (hp' | rfl)
    · exact hp'
    · exact hmem
  · split at h
    · rename_i permissions hinsert
      obtain rfl := Option.some.inj h
      exact ⟨rfl, rfl, rfl, rfl, fun p' => Table.mem_insert hinsert⟩
    · cases h

end Db

theorem reads_eq_some {α : Type} {db db' : Db} {p : α → Bool} {a : Except DbError α}
    (h : reads db p a = some db') : db' = db ∧ ∀ v, a = .ok v → p v = true := by
  cases a with
  | ok v =>
    simp only [reads] at h
    split_ifs at h with hp
    obtain rfl := Option.some.inj h
    refine ⟨rfl, ?_⟩
    rintro v ⟨⟩
    exact hp
  | error e =>
    cases e with
    | rowNotFound => cases h
    | other =>
      obtain rfl := Option.some.inj h
      exact ⟨rfl, nofun⟩

theorem writes_eq_some {db db' : Db} {result : Option Db} {a : Except DbError Unit}
    (h : writes db result a = some db') :
    a = .ok () ∧ result = some db' ∨ a = .error .other ∧ db' = db := by
  cases a with
  | ok u => exact .inl ⟨rfl, h⟩
  | error e =>
    cases e with
    | rowNotFound => cases h
    | other => exact .inr ⟨rfl, (Option.some.inj h).symm⟩

/-- What the statement and answer `e` can do to the tables. -/
inductive Wrote (db : Db) : Event Stmt Stmt.Answer → Db → Prop
  /-- a read, a conflict or a failure -/
  | nothing {e : Event Stmt Stmt.Answer} : Wrote db e db
  | newGroup {db' : Db} {name description : String} {id : Uuid} :
      db.insertGroup ⟨id, name, description, none, false, false⟩ = some db' →
      Wrote db ⟨.insertGroup name description, .ok ⟨id, name, description, none, false, false⟩⟩ db'
  | newSeed {db' : Db} {seed : Seed} {id : Uuid} : db.insertGroup (seed.toGroup id) = some db' →
      Wrote db ⟨.insertSeed seed, .ok (some id)⟩ db'
  | updated {db' : Db} {u : GroupUpdate} : db.updateGroups u = some db' →
      Wrote db ⟨.updateGroups u, .ok ()⟩ db'
  | committed {db' : Db} {us : List GroupUpdate} : db.updateAll us = some db' →
      Wrote db ⟨.transaction us true, .ok ()⟩ db'
  | deletedGroup {id : Uuid} : Wrote db ⟨.deleteGroup id, .ok ()⟩ (db.deleteGroup id)
  | newMember {db' : Db} {group user : Uuid} : db.insertMember ⟨group, user⟩ = some db' →
      Wrote db ⟨.insertMember group user, .ok ()⟩ db'
  | deletedMember {group user : Uuid} : Wrote db ⟨.deleteMember group user, .ok ()⟩
      (db.deleteMembers fun m => m == ⟨group, user⟩)
  | deletedMembers {group : Uuid} : Wrote db ⟨.deleteMembers group, .ok ()⟩
      (db.deleteMembers fun m => m.groupId == group)
  | newPermission {db' : Db} {group : Uuid} {permission : String} :
      db.insertPermission ⟨group, permission⟩ = some db' →
      Wrote db ⟨.insertPermission group permission, .ok ()⟩ db'
  | deletedPermission {group : Uuid} {permission : String} :
      Wrote db ⟨.deletePermission group permission, .ok ()⟩
        (db.deletePermissions fun p => p == ⟨group, permission⟩)
  | deletedPermissions {group : Uuid} : Wrote db ⟨.deletePermissions group, .ok ()⟩
      (db.deletePermissions fun p => p.groupId == group)

theorem exec_wrote {db db' : Db} {e : Event Stmt Stmt.Answer} (h : exec db e = some db') :
    Wrote db e db' := by
  obtain ⟨q, a⟩ := e
  cases q with
  | insertGroup name description =>
    cases a with
    | ok g =>
      simp only [exec] at h
      split_ifs at h with hg
      rw [hg] at h ⊢
      exact .newGroup h
    | error e =>
      cases e with
      | uniqueViolation =>
        simp only [exec] at h
        split_ifs at h
        obtain rfl := Option.some.inj h
        exact .nothing
      | db e =>
        cases e with
        | rowNotFound => cases h
        | other =>
          obtain rfl := Option.some.inj h
          exact .nothing
  | insertSeed seed =>
    cases a with
    | ok inserted =>
      cases inserted with
      | some id => exact .newSeed h
      | none =>
        simp only [exec] at h
        split_ifs at h
        obtain rfl := Option.some.inj h
        exact .nothing
    | error e =>
      cases e with
      | rowNotFound => cases h
      | other =>
        obtain rfl := Option.some.inj h
        exact .nothing
  | updateGroups u =>
    obtain ⟨rfl, h⟩ | ⟨rfl, rfl⟩ := writes_eq_some h
    · exact .updated h
    · exact .nothing
  | transaction us commit =>
    obtain ⟨rfl, h⟩ | ⟨rfl, rfl⟩ := writes_eq_some h
    · obtain ⟨db₁, h1, h2⟩ := Option.map_eq_some_iff.mp h
      cases commit with
      | true =>
        obtain rfl : db₁ = db' := h2
        exact .committed h1
      | false =>
        obtain rfl : db = db' := h2
        exact .nothing
    · exact .nothing
  | deleteGroup id =>
    obtain ⟨rfl, h⟩ | ⟨rfl, rfl⟩ := writes_eq_some h
    · obtain rfl := Option.some.inj h
      exact .deletedGroup
    · exact .nothing
  | insertMember group user =>
    obtain ⟨rfl, h⟩ | ⟨rfl, rfl⟩ := writes_eq_some h
    · exact .newMember h
    · exact .nothing
  | deleteMember group user =>
    obtain ⟨rfl, h⟩ | ⟨rfl, rfl⟩ := writes_eq_some h
    · obtain rfl := Option.some.inj h
      exact .deletedMember
    · exact .nothing
  | deleteMembers group =>
    obtain ⟨rfl, h⟩ | ⟨rfl, rfl⟩ := writes_eq_some h
    · obtain rfl := Option.some.inj h
      exact .deletedMembers
    · exact .nothing
  | insertPermission group permission =>
    obtain ⟨rfl, h⟩ | ⟨rfl, rfl⟩ := writes_eq_some h
    · exact .newPermission h
    · exact .nothing
  | deletePermission group permission =>
    obtain ⟨rfl, h⟩ | ⟨rfl, rfl⟩ := writes_eq_some h
    · obtain rfl := Option.some.inj h
      exact .deletedPermission
    · exact .nothing
  | deletePermissions group =>
    obtain ⟨rfl, h⟩ | ⟨rfl, rfl⟩ := writes_eq_some h
    · obtain rfl := Option.some.inj h
      exact .deletedPermissions
    · exact .nothing
  | _ =>
    obtain ⟨rfl, -⟩ := reads_eq_some h
    exact .nothing

/-- The answer is an error. -/
def isError {ε α : Type} : Except ε α → Bool
  | .ok _ => false
  | .error _ => true

/-- The statement failed. -/
def failed (e : Event Stmt Stmt.Answer) : Bool :=
  match e with
  | ⟨.insertGroup _ _, a⟩ => isError a
  | ⟨.insertSeed _, a⟩ => isError a
  | ⟨.updateGroups _, a⟩ => isError a
  | ⟨.transaction _ _, a⟩ => isError a
  | ⟨.deleteGroup _, a⟩ => isError a
  | ⟨.getGroup _, a⟩ => isError a
  | ⟨.findByName _, a⟩ => isError a
  | ⟨.findDefault, a⟩ => isError a
  | ⟨.insertMember _ _, a⟩ => isError a
  | ⟨.deleteMember _ _, a⟩ => isError a
  | ⟨.deleteMembers _, a⟩ => isError a
  | ⟨.listMembers _, a⟩ => isError a
  | ⟨.countMemberships _, a⟩ => isError a
  | ⟨.hasMembership _, a⟩ => isError a
  | ⟨.insertPermission _ _, a⟩ => isError a
  | ⟨.deletePermission _ _, a⟩ => isError a
  | ⟨.deletePermissions _, a⟩ => isError a
  | ⟨.listPermissions _, a⟩ => isError a

/-! What a statement says. -/

variable {db db' : Db}

/-- A statement that fails changes nothing. -/
theorem exec_failed {e : Event Stmt Stmt.Answer} (h : exec db e = some db') (hf : failed e = true) : db' = db := by
  cases exec_wrote h with
  | nothing => rfl
  | _ => cases hf

theorem exec_getGroup {id : Uuid} {found : Option Group}
    (h : exec db ⟨.getGroup id, .ok found⟩ = some db') : db' = db ∧ found = db.findGroup id := by
  simp only [exec] at h
  obtain ⟨heq, hp⟩ := reads_eq_some h
  exact ⟨heq, of_decide_eq_true (hp found rfl)⟩

theorem exec_findByName {name : String} {found : Option Group}
    (h : exec db ⟨.findByName name, .ok found⟩ = some db') :
    db' = db ∧ found = db.groups.rows.find? fun g => g.name == name := by
  simp only [exec] at h
  obtain ⟨heq, hp⟩ := reads_eq_some h
  exact ⟨heq, of_decide_eq_true (hp found rfl)⟩

theorem exec_findDefault_some {id : Uuid} (h : exec db ⟨.findDefault, .ok (some id)⟩ = some db') :
    db' = db ∧ ∃ g ∈ db.groups, g.id = id ∧ g.isDefault = true := by
  simp only [exec] at h
  obtain ⟨heq, hp⟩ := reads_eq_some h
  obtain ⟨g, hg, hid⟩ := List.any_eq_true.mp (hp (some id) rfl)
  rw [Bool.and_eq_true, beq_iff_eq] at hid
  exact ⟨heq, g, hg, hid⟩

theorem exec_findDefault_none (h : exec db ⟨.findDefault, .ok none⟩ = some db') :
    db' = db ∧ ∀ g ∈ db.groups, g.isDefault = false := by
  simp only [exec] at h
  obtain ⟨heq, hp⟩ := reads_eq_some h
  refine ⟨heq, fun g hg => ?_⟩
  simpa using List.all_eq_true.mp (hp none rfl) g hg

theorem exec_countMemberships {user : Uuid} {count : ℕ}
    (h : exec db ⟨.countMemberships user, .ok count⟩ = some db') :
    db' = db ∧ count = db.countMemberships user := by
  simp only [exec] at h
  obtain ⟨heq, hp⟩ := reads_eq_some h
  exact ⟨heq, of_decide_eq_true (hp count rfl)⟩

theorem exec_listMembers {group : Uuid} {users : List Uuid}
    (h : exec db ⟨.listMembers group, .ok users⟩ = some db') :
    db' = db ∧ users.Perm (db.membersOf group) := by
  simp only [exec] at h
  obtain ⟨heq, hp⟩ := reads_eq_some h
  exact ⟨heq, of_decide_eq_true (hp users rfl)⟩

theorem exec_listPermissions {group : Uuid} {permissions : List String}
    (h : exec db ⟨.listPermissions group, .ok permissions⟩ = some db') :
    db' = db ∧ permissions.Perm (db.permissionsOf group) := by
  simp only [exec] at h
  obtain ⟨heq, hp⟩ := reads_eq_some h
  exact ⟨heq, of_decide_eq_true (hp permissions rfl)⟩

end Ppb.Groups
