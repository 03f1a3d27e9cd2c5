import Ppb.Groups.Store

/-!
# Group operations (`permissions/groups.rs`, `permissions/repo.rs`)

Every operation on groups is a program of SQL statements. Only `patch_group` uses a
transaction; everywhere else another operation can come between two statements, and
an operation that fails leaves what its statements have done so far.

`Op` are the operations that change the tables, `Op.program` runs one.
-/

namespace Ppb.Groups

open Prog Auth Shared

/-- A program of statements. -/
abbrev Repo (α : Type) := Prog Stmt Stmt.Answer ApiError α

/-- Run a statement. -/
abbrev sql {ε : Type} (q : Stmt) : Prog Stmt Stmt.Answer ε q.Answer := Prog.query q

/-- `.map_err(db_err)?`; the two `db_err` differ in the text of a missing row. -/
def orDbErr {α : Type} (message : String) : Except DbError α → Repo α
  | .ok a => pure a
  | .error e => .fail (dbErr .resourceNotFound message e)

/-- `db_err` of permissions/repo.rs:359-366. -/
def orFail {α : Type} : Except DbError α → Repo α := orDbErr "not found"

@[simp] theorem orDbErr_ok {α β : Type} (message : String) (a : α) (k : α → Repo β) :
    (orDbErr message (.ok a) >>= k) = k a := rfl

@[simp] theorem orDbErr_error {α β : Type} (message : String) (e : DbError) (k : α → Repo β) :
    (orDbErr message (.error e : Except DbError α) >>= k) =
      .fail (dbErr .resourceNotFound message e) := rfl

@[simp] theorem orFail_ok {α β : Type} (a : α) (k : α → Repo β) :
    (orFail (.ok a) >>= k) = k a := rfl

@[simp] theorem orFail_error {α β : Type} (e : DbError) (k : α → Repo β) :
    (orFail (.error e : Except DbError α) >>= k) =
      .fail (dbErr .resourceNotFound "not found" e) := rfl

/-! ## Seeds and the default group (`permissions/groups.rs`) -/

/-- The seed groups, in order (permissions/groups.rs:31-36). -/
def administrators : Seed :=
  ⟨"Administrators", "系统管理员（admin_scope）", some "admin_scope", false, true⟩

def moderators : Seed := ⟨"Moderators", "版主模板组", none, false, false⟩

def developers : Seed := ⟨"Developers", "开发者模板组", none, false, false⟩

def members : Seed := ⟨"Members", "默认成员组", none, true, true⟩

/-- `ensure_group` (permissions/groups.rs:39-73). -/
def ensureGroup (message : String) (seed : Seed) : Repo Unit := do
  let inserted ← sql (.insertSeed seed)
  let inserted ← orDbErr message inserted
  if inserted.isSome ∧ seed.isDefault then
    let updated ← sql (.updateGroups (.setDefaultByName seed.name))
    orDbErr message updated
  else pure ()

/-- `bootstrap_groups` (permissions/groups.rs:31-37). -/
def bootstrapGroups (message : String) : Repo Unit := do
  ensureGroup message administrators
  ensureGroup message moderators
  ensureGroup message developers
  ensureGroup message members

/-- `fetch_one`: a missing row is an error. -/
def fetchOne {α : Type} : Except DbError (Option α) → Except DbError α
  | .ok (some a) => .ok a
  | .ok none => .error .rowNotFound
  | .error e => .error e

/-- `default_group_id` (permissions/groups.rs:76-93). -/
def defaultGroupId : Repo Uuid := do
  let row ← sql .findDefault
  let row ← orDbErr "group not found" row
  match row with
  | some id => return id
  | none =>
    bootstrapGroups "group not found"
    let row ← sql (.findByName members.name)
    let group ← orDbErr "group not found" (fetchOne row)
    return group.id

/-- `ensure_user_in_default_group` (permissions/groups.rs:96-118). -/
def ensureUserInDefaultGroup (user : Uuid) : Repo Unit := do
  let membership ← sql (.hasMembership user)
  let membership ← orDbErr "group not found" membership
  if membership then pure ()
  else
    let group ← defaultGroupId
    let inserted ← sql (.insertMember group user)
    orDbErr "group not found" inserted

/-! ## Groups (`permissions/repo.rs`) -/

/-- `get_group` (permissions/repo.rs:203-213). -/
def getGroup (id : Uuid) : Repo Group := do
  let row ← sql (.getGroup id)
  let row ← orFail row
  ofOption (.notFound "group") row

/-- The row of a new group (permissions/repo.rs:28-36). -/
def orConflict : Except InsertError Group → Repo Group
  | .ok group => pure group
  | .error .uniqueViolation => .fail (.new .resourceConflict "group name already exists")
  | .error (.db e) => .fail (dbErr .resourceNotFound "not found" e)

/-- `create_group` (permissions/repo.rs:12-50). -/
def createGroup (name description : String) (isDefault : Option Bool) : Repo Group := do
  failIf (Text.trim name = "") (.validation "group name required")
  let inserted ← sql (.insertGroup (Text.trim name) description)
  let group ← orConflict inserted
  if isDefault = some true then
    let updated ← sql (.updateGroups (.setDefault group.id))
    orFail updated
    getGroup group.id
  else
    return group

/-- The error of an `admin_scope` group that is to be the default. -/
def adminScopeDefault : ApiError := .validation "admin_scope group cannot be the default group"

/-- `set_default_group` (permissions/repo.rs:217-230). -/
def setDefaultGroup (id : Uuid) : Repo Unit := do
  let group ← getGroup id
  failIf (group.isAdminScope = true) adminScopeDefault
  let updated ← sql (.updateGroups (.setDefault id))
  orFail updated

/-- `new_name` (permissions/repo.rs:244). -/
def newName (name : Option String) : Option String := (name.map Text.trim).filter (· != "")

/-- The first `UPDATE`s of `patch_group` (permissions/repo.rs:245-260). -/
def patchUpdates (id : Uuid) (name description : Option String) : List GroupUpdate :=
  (newName name).toList.map (.setName id) ++ description.toList.map (.setDescription id)

/-- `patch_group` (permissions/repo.rs:234-279): the transaction of an `admin_scope`
    group that is to be the default is dropped. -/
def patchGroup (id : Uuid) (name description : Option String) (isDefault : Option Bool) :
    Repo Group := do
  let group ← getGroup id
  let updates := patchUpdates id name description
  if isDefault = some true then
    if group.isAdminScope then
      let updated ← sql (.transaction updates false)
      orFail updated
      .fail adminScopeDefault
    else
      let updated ← sql (.transaction (updates ++ [.setDefault id]) true)
      orFail updated
      getGroup id
  else
    let updated ← sql (.transaction updates true)
    orFail updated
    getGroup id

/-- `delete_group` (permissions/repo.rs:327-357). -/
def deleteGroup (id : Uuid) : Repo Unit := do
  let group ← getGroup id
  failIf (group.isProtected = true) (.new .resourceConflict
    ("protected group '" ++ group.name ++ "' cannot be deleted"))
  failIf (group.isDefault = true) (.new .resourceConflict
    "current default group cannot be deleted; switch default first")
  let deleted ← sql (.deleteGroup id)
  orFail deleted

/-! ## Permissions of a group -/

/-- `PermissionResolver::validate_group_permission` (permissions/resolver.rs:129-141). -/
def validateGroupPermission (permission : String) : Repo Unit := do
  failIf (permission = rootWildcard) (.new .validationFailed "*:* 仅允许授予 Root，普通用户组禁止")
  failIf (Text.splitCount ':' permission ≠ 2) (.validation "permission must be <resource>:<action>")

/-- `PermissionResolver::permission_by_id` (permissions/resolver.rs:37-39). -/
def permissionById (id : String) : Option PermissionDef :=
  permissionManifest.find? fun p => p.id == id

/-- `add_permission` (permissions/repo.rs:70-86). -/
def addPermission (group : Uuid) (permission : String) : Repo Unit := do
  validateGroupPermission permission
  failIf ((permissionById permission).isNone = true) (.validation "unknown permission id")
  let inserted ← sql (.insertPermission group permission)
  orFail inserted

/-- `remove_permission` (permissions/repo.rs:88-100). -/
def removePermission (group : Uuid) (permission : String) : Repo Unit := do
  let deleted ← sql (.deletePermission group permission)
  orFail deleted

/-- The checks of `replace_group_permissions` (permissions/repo.rs:146-151). -/
def validatePermissions : List String → Repo Unit
  | [] => pure ()
  | p :: ps => do
    validateGroupPermission p
    failIf ((permissionById p).isNone = true) (.validation ("unknown permission id: " ++ p))
    validatePermissions ps

/-- The inserts of `replace_group_permissions` (permissions/repo.rs:157-164). -/
def insertPermissions (group : Uuid) : List String → Repo Unit
  | [] => pure ()
  | p :: ps => do
    let inserted ← sql (.insertPermission group p)
    orFail inserted
    insertPermissions group ps

/-- `replace_group_permissions` (permissions/repo.rs:141-166). -/
def replaceGroupPermissions (group : Uuid) (permissions : List String) : Repo Unit := do
  validatePermissions permissions
  let deleted ← sql (.deletePermissions group)
  orFail deleted
  insertPermissions group permissions

/-- `list_group_permissions` (permissions/repo.rs:303-312). -/
def listGroupPermissions (group : Uuid) : Repo (List String) := do
  let rows ← sql (.listPermissions group)
  orFail rows

/-- `effective_group_permissions` (permissions/repo.rs:316-325). -/
def effectiveGroupPermissions (id : Uuid) : Repo (List String) := do
  let group ← getGroup id
  if group.isAdminScope then
    return nonRootOnlyIds.mergeSort
  else
    listGroupPermissions id

/-! ## Members of a group -/

/-- `add_member` (permissions/repo.rs:102-110). -/
def addMember (group user : Uuid) : Repo Unit := do
  let inserted ← sql (.insertMember group user)
  orFail inserted

/-- `ensure_user_not_orphaned` (permissions/repo.rs:180-201). -/
def ensureUserNotOrphaned (user : Uuid) : Repo Unit := do
  let count ← sql (.countMemberships user)
  let count ← orFail count
  if count = 0 then
    let group ← defaultGroupId
    let inserted ← sql (.insertMember group user)
    orFail inserted
  else pure ()

/-- `remove_member` (permissions/repo.rs:168-177). -/
def removeMember (group user : Uuid) : Repo Unit := do
  let deleted ← sql (.deleteMember group user)
  orFail deleted
  ensureUserNotOrphaned user

/-- The inserts of `replace_group_members` (permissions/repo.rs:122-129). -/
def insertMembers (group : Uuid) : List Uuid → Repo Unit
  | [] => pure ()
  | user :: users => do
    let inserted ← sql (.insertMember group user)
    orFail inserted
    insertMembers group users

/-- The last loop of `replace_group_members` (permissions/repo.rs:131-135). -/
def rehome : List Uuid → Repo Unit
  | [] => pure ()
  | user :: users => do
    ensureUserNotOrphaned user
    rehome users

/-- `replace_group_members` (permissions/repo.rs:115-137). -/
def replaceGroupMembers (group : Uuid) (users : List Uuid) : Repo Unit := do
  let existing ← sql (.listMembers group)
  let existing ← orFail existing
  let deleted ← sql (.deleteMembers group)
  orFail deleted
  insertMembers group users
  rehome (existing.filter fun user => !users.contains user)

/-- The group of an `account_role` redemption code. -/
inductive RoleTarget where
  | byId (id : Uuid)
  | byName (name : String)

/-- The lookup of a `RoleTarget`. -/
def RoleTarget.find : RoleTarget → Repo (Except DbError (Option Group))
  | .byId id => sql (.getGroup id)
  | .byName name => sql (.findByName name)

/-- The action `account_role` of a redemption code (admin/coupons.rs:84), for a code
    that is redeemed. The insert takes effect with the rest of its transaction. -/
def accountRole (target : RoleTarget) (user : Uuid) : Repo Unit := do
  let row ← target.find
  let row ← (match row with
    | .ok row => pure row
    | .error _ => .fail .internal : Repo (Option Group))
  let group ← ofOption (.new .groupNotFound "group not found") row
  failIf (group.isAdminScope = true ∨
    Text.toAsciiLowercase group.name = Text.toAsciiLowercase "Administrators") .permissionDenied
  let inserted ← sql (.insertMember group.id user)
  match inserted with
  | .ok () => pure ()
  | .error _ => .fail .internal

/-! ## Operations -/

/-- The operations that change the tables. -/
inductive Op where
  | createGroup (name description : String) (isDefault : Option Bool)
  | patchGroup (id : Uuid) (name description : Option String) (isDefault : Option Bool)
  | setDefaultGroup (id : Uuid)
  | deleteGroup (id : Uuid)
  | addPermission (group : Uuid) (permission : String)
  | removePermission (group : Uuid) (permission : String)
  | replaceGroupPermissions (group : Uuid) (permissions : List String)
  | addMember (group user : Uuid)
  | removeMember (group user : Uuid)
  | replaceGroupMembers (group : Uuid) (users : List Uuid)
  | bootstrapGroups
  | defaultGroupId
  | ensureUserInDefaultGroup (user : Uuid)
  | accountRole (target : RoleTarget) (user : Uuid)

/-- What an operation returns. -/
inductive Reply where
  | done
  | group (group : Group)
  | groupId (id : Uuid)

/-- The program of an operation. -/
def Op.program : Op → Repo Reply
  | .createGroup name description isDefault =>
    Reply.group <$> Groups.createGroup name description isDefault
  | .patchGroup id name description isDefault =>
    Reply.group <$> Groups.patchGroup id name description isDefault
  | .setDefaultGroup id => (fun _ => .done) <$> Groups.setDefaultGroup id
  | .deleteGroup id => (fun _ => .done) <$> Groups.deleteGroup id
  | .addPermission group permission => (fun _ => .done) <$> Groups.addPermission group permission
  | .removePermission group permission =>
    (fun _ => .done) <$> Groups.removePermission group permission
  | .replaceGroupPermissions group permissions =>
    (fun _ => .done) <$> Groups.replaceGroupPermissions group permissions
  | .addMember group user => (fun _ => .done) <$> Groups.addMember group user
  | .removeMember group user => (fun _ => .done) <$> Groups.removeMember group user
  | .replaceGroupMembers group users => (fun _ => .done) <$> Groups.replaceGroupMembers group users
  | .bootstrapGroups => (fun _ => .done) <$> Groups.bootstrapGroups "group not found"
  | .defaultGroupId => Reply.groupId <$> Groups.defaultGroupId
  | .ensureUserInDefaultGroup user => (fun _ => .done) <$> Groups.ensureUserInDefaultGroup user
  | .accountRole target user => (fun _ => .done) <$> Groups.accountRole target user

/-! ## The statements of an operation -/

/-- The reads. -/
def IsRead : Stmt → Prop
  | .getGroup _ | .findByName _ | .findDefault | .listMembers _ | .countMemberships _
  | .hasMembership _ | .listPermissions _ => True
  | _ => False

/-- The writes of `bootstrap_groups`. -/
def IsSeeding : Stmt → Prop
  | .insertSeed _ => True
  | .updateGroups (.setDefaultByName _) => True
  | _ => False

/-- The permission is in the manifest. -/
def Known (permission : String) : Prop := permissionById permission ≠ none

/-- The writes of an operation. -/
def Op.Writes : Op → Stmt → Prop
  | .createGroup name description _, q => q = .insertGroup (Text.trim name) description ∨
      ∃ id, q = .updateGroups (.setDefault id)
  | .patchGroup _ _ _ _, q => ∃ updates commit, q = .transaction updates commit
  | .setDefaultGroup id, q => q = .updateGroups (.setDefault id)
  | .deleteGroup id, q => q = .deleteGroup id
  | .addPermission group permission, q => q = .insertPermission group permission ∧ Known permission
  | .removePermission group permission, q => q = .deletePermission group permission
  | .replaceGroupPermissions group permissions, q => q = .deletePermissions group ∨
      ∃ p ∈ permissions, q = .insertPermission group p ∧ Known p
  | .addMember group user, q => q = .insertMember group user
  | .removeMember group user, q => q = .deleteMember group user ∨ IsSeeding q ∨
      ∃ group, q = .insertMember group user
  | .replaceGroupMembers group _, q => q = .deleteMembers group ∨ IsSeeding q ∨
      ∃ group user, q = .insertMember group user
  | .bootstrapGroups, q => IsSeeding q
  | .defaultGroupId, q => IsSeeding q
  | .ensureUserInDefaultGroup user, q => IsSeeding q ∨ ∃ group, q = .insertMember group user
  | .accountRole _ user, q => ∃ group, q = .insertMember group user

/-- The statements of an operation. -/
def Op.Asks (op : Op) (q : Stmt) : Prop := IsRead q ∨ op.Writes q

section

variable {ok : History Stmt Stmt.Answer → Event Stmt Stmt.Answer → Prop}
  {h : History Stmt Stmt.Answer} {α β : Type}

theorem wp_orDbErr_bind {message : String} {r : Except DbError α} {k : α → Repo β}
    (hk : ∀ a, r = .ok a → wp ok (k a) h fun _ _ => True) :
    wp ok (orDbErr message r >>= k) h fun _ _ => True := by
  cases r with
  | ok a => exact hk a rfl
  | error e => trivial

theorem wp_orDbErr {message : String} {r : Except DbError α} :
    wp ok (orDbErr message r) h fun _ _ => True := by
  cases r <;> trivial

theorem wp_map {f : α → β} {p : Repo α} (hp : wp ok p h fun _ _ => True) :
    wp ok (f <$> p) h fun _ _ => True := by
  have hmap : (f <$> p) = p >>= fun a => pure (f a) := rfl
  rw [hmap]
  exact wp_bind hp (fun _ _ _ => trivial) fun _ _ _ => trivial

variable {C : Stmt → Prop}

theorem wp_ensureGroup (hC : ∀ q, IsSeeding q → C q) {message : String} {seed : Seed} :
    wp (fun _ e => C e.1) (ensureGroup message seed) h fun _ _ => True := by
  refine wp_ask (fun _ => hC _ trivial) fun inserted => wp_orDbErr_bind fun inserted' _ => ?_
  split_ifs
  · exact wp_ask (fun _ => hC _ trivial) fun updated => wp_orDbErr
  · trivial

theorem wp_bootstrapGroups (hC : ∀ q, IsSeeding q → C q) {message : String} :
    wp (fun _ e => C e.1) (bootstrapGroups message) h fun _ _ => True := by
  refine wp_bind (wp_ensureGroup hC) (fun _ _ _ => ?_) fun _ _ _ => trivial
  refine wp_bind (wp_ensureGroup hC) (fun _ _ _ => ?_) fun _ _ _ => trivial
  refine wp_bind (wp_ensureGroup hC) (fun _ _ _ => ?_) fun _ _ _ => trivial
  exact wp_ensureGroup hC

theorem wp_defaultGroupId (hC : ∀ q, IsRead q ∨ IsSeeding q → C q) :
    wp (fun _ e => C e.1) defaultGroupId h fun _ _ => True := by
  refine wp_ask (fun _ => hC _ (.inl trivial)) fun row => wp_orDbErr_bind fun row' _ => ?_
  cases row' with
  | some id => trivial
  | none =>
    refine wp_bind (wp_bootstrapGroups fun q hq => hC q (.inr hq)) (fun _ _ _ => ?_)
      fun _ _ _ => trivial
    refine wp_ask (fun _ => hC _ (.inl trivial)) fun row => wp_orDbErr_bind fun _ _ => trivial

theorem wp_ensureUserInDefaultGroup {user : Uuid}
    (hC : ∀ q, IsRead q ∨ IsSeeding q ∨ (∃ group, q = .insertMember group user) → C q) :
    wp (fun _ e => C e.1) (ensureUserInDefaultGroup user) h fun _ _ => True := by
  refine wp_ask (fun _ => hC _ (.inl trivial)) fun found => wp_orDbErr_bind fun found' _ => ?_
  split_ifs
  · trivial
  · refine wp_bind (wp_defaultGroupId fun q hq => hC q ?_) (fun _ _ _ => ?_) fun _ _ _ => trivial
    · exact hq.imp_right .inl
    · exact wp_ask (fun _ => hC _ (.inr (.inr ⟨_, rfl⟩))) fun _ => wp_orDbErr

theorem wp_ensureUserNotOrphaned {user : Uuid}
    (hC : ∀ q, IsRead q ∨ IsSeeding q ∨ (∃ group, q = .insertMember group user) → C q) :
    wp (fun _ e => C e.1) (ensureUserNotOrphaned user) h fun _ _ => True := by
  refine wp_ask (fun _ => hC _ (.inl trivial)) fun count => wp_orDbErr_bind fun count' _ => ?_
  split_ifs
  · refine wp_bind (wp_defaultGroupId fun q hq => hC q ?_) (fun _ _ _ => ?_) fun _ _ _ => trivial
    · exact hq.imp_right .inl
    · exact wp_ask (fun _ => hC _ (.inr (.inr ⟨_, rfl⟩))) fun _ => wp_orDbErr
  · trivial

theorem wp_insertMembers {group : Uuid} {users : List Uuid}
    (hC : ∀ user, C (.insertMember group user)) :
    wp (fun _ e => C e.1) (insertMembers group users) h fun _ _ => True := by
  induction users generalizing h with
  | nil => trivial
  | cons user users ih =>
    exact wp_ask (fun _ => hC user) fun inserted => wp_orDbErr_bind fun _ _ => ih

theorem wp_rehome {users : List Uuid}
    (hC : ∀ q, IsRead q ∨ IsSeeding q ∨ (∃ group user, q = .insertMember group user) → C q) :
    wp (fun _ e => C e.1) (rehome users) h fun _ _ => True := by
  induction users generalizing h with
  | nil => trivial
  | cons user users ih =>
    refine wp_bind (wp_ensureUserNotOrphaned fun q hq => hC q ?_) (fun _ _ _ => ih)
      fun _ _ _ => trivial
    exact hq.imp_right (.imp_right fun ⟨group, hgroup⟩ => ⟨group, user, hgroup⟩)

theorem wp_getGroup (hC : ∀ q, IsRead q → C q) {id : Uuid} :
    wp (fun _ e => C e.1) (getGroup id) h fun _ _ => True := by
  refine wp_ask (fun _ => hC _ trivial) fun row => wp_orDbErr_bind fun row' _ => ?_
  cases row' <;> trivial

theorem wp_validateGroupPermission {permission : String} :
    wp ok (validateGroupPermission permission) h fun _ _ => True :=
  wp_failIf_bind (fun _ => trivial) fun _ => wp_failIf (fun _ => trivial) fun _ => trivial

/-- A list that was accepted is known. -/
theorem wp_validatePermissions {permissions : List String} :
    wp ok (validatePermissions permissions) h fun _ r => r = .ok () →
      ∀ p ∈ permissions, Known p := by
  induction permissions generalizing h with
  | nil => exact fun _ => nofun
  | cons p ps ih =>
    refine wp_bind wp_validateGroupPermission (fun h' _ _ => ?_) fun _ _ _ => nofun
    refine wp_failIf_bind (fun _ => nofun) fun hknown => wp_mono ih fun _ r hr hok q hq => ?_
    rcases List.mem_cons.mp hq with rfl | hq
    · simpa [Known] using hknown
    · exact hr hok q hq

theorem wp_insertPermissions {group : Uuid} {permissions : List String}
    (hC : ∀ p ∈ permissions, C (.insertPermission group p)) :
    wp (fun _ e => C e.1) (insertPermissions group permissions) h fun _ _ => True := by
  induction permissions generalizing h with
  | nil => trivial
  | cons p ps ih =>
    refine wp_ask (fun _ => hC p (by simp)) fun inserted => wp_orDbErr_bind fun _ _ => ?_
    exact ih fun q hq => hC q (by simp [hq])

/-- An operation asks reads and its writes. -/
theorem wp_program (op : Op) :
    wp (fun _ e => op.Asks e.1) op.program [] fun _ _ => True := by
  have hread : ∀ q, IsRead q → op.Asks q := fun q hq => .inl hq
  cases op with
  | createGroup name description isDefault =>
    apply wp_map
    apply wp_failIf_bind (fun _ => trivial)
    intro hname
    refine wp_ask (fun _ => ?_) fun inserted => ?_
    · exact .inr (.inl rfl)
    · refine wp_bind (R := fun _ _ => True) ?_ (fun _ group _ => ?_) fun _ _ _ => trivial
      · unfold orConflict
        split <;> trivial
      · split_ifs
        · refine wp_ask (fun _ => .inr (.inr ⟨_, rfl⟩)) fun updated => wp_orDbErr_bind fun _ _ => ?_
          exact wp_getGroup hread
        · trivial
  | patchGroup id name description isDefault =>
    refine wp_map (wp_bind (wp_getGroup hread) (fun _ group _ => ?_) fun _ _ _ => trivial)
    dsimp only
    split_ifs
    · exact wp_ask (fun _ => .inr ⟨_, _, rfl⟩) fun updated => wp_orDbErr_bind fun _ _ => trivial
    · refine wp_ask (fun _ => .inr ⟨_, _, rfl⟩) fun updated => wp_orDbErr_bind fun _ _ => ?_
      exact wp_getGroup hread
    · refine wp_ask (fun _ => .inr ⟨_, _, rfl⟩) fun updated => wp_orDbErr_bind fun _ _ => ?_
      exact wp_getGroup hread
  | setDefaultGroup id =>
    refine wp_map (wp_bind (wp_getGroup hread) (fun _ group _ => ?_) fun _ _ _ => trivial)
    refine wp_failIf_bind (fun _ => trivial) fun _ => ?_
    exact wp_ask (fun _ => .inr rfl) fun _ => wp_orDbErr
  | deleteGroup id =>
    refine wp_map (wp_bind (wp_getGroup hread) (fun _ group _ => ?_) fun _ _ _ => trivial)
    refine wp_failIf_bind (fun _ => trivial) fun _ => wp_failIf_bind (fun _ => trivial) fun _ => ?_
    exact wp_ask (fun _ => .inr rfl) fun _ => wp_orDbErr
  | addPermission group permission =>
    refine wp_map (wp_bind wp_validateGroupPermission (fun _ _ _ => ?_) fun _ _ _ => trivial)
    refine wp_failIf_bind (fun _ => trivial) fun hknown => ?_
    exact wp_ask (fun _ => .inr ⟨rfl, by simpa [Known] using hknown⟩) fun _ => wp_orDbErr
  | removePermission group permission =>
    exact wp_map (wp_ask (fun _ => .inr rfl) fun _ => wp_orDbErr)
  | replaceGroupPermissions group permissions =>
    refine wp_map (wp_bind wp_validatePermissions (fun _ _ hknown => ?_) fun _ _ _ => trivial)
    refine wp_ask (fun _ => .inr (.inl rfl)) fun deleted => wp_orDbErr_bind fun _ _ => ?_
    refine wp_insertPermissions fun p hp => ?_
    exact .inr (.inr ⟨p, hp, rfl, hknown rfl p hp⟩)
  | addMember group user => exact wp_map (wp_ask (fun _ => .inr rfl) fun _ => wp_orDbErr)
  | removeMember group user =>
    refine wp_map (wp_ask (fun _ => .inr (.inl rfl)) fun deleted => wp_orDbErr_bind fun _ _ => ?_)
    exact wp_ensureUserNotOrphaned fun q hq => hq.imp_right .inr
  | replaceGroupMembers group users =>
    refine wp_map (wp_ask (fun _ => .inl trivial) fun existing => wp_orDbErr_bind fun existing' _ => ?_)
    refine wp_ask (fun _ => .inr (.inl rfl)) fun deleted => wp_orDbErr_bind fun _ _ => ?_
    refine wp_bind (wp_insertMembers fun user => ?_) (fun _ _ _ => ?_) fun _ _ _ => trivial
    · exact .inr (.inr (.inr ⟨group, user, rfl⟩))
    · exact wp_rehome fun q hq => hq.imp_right .inr
  | bootstrapGroups => exact wp_map (wp_bootstrapGroups fun q hq => .inr hq)
  | defaultGroupId => exact wp_map (wp_defaultGroupId fun q hq => hq)
  | ensureUserInDefaultGroup user => exact wp_map (wp_ensureUserInDefaultGroup fun q hq => hq)
  | accountRole target user =>
    refine wp_map (wp_bind (R := fun _ _ => True) ?_ (fun _ row _ => ?_) fun _ _ _ => trivial)
    · cases target with
      | byId id => exact wp_query.mpr fun _ => ⟨.inl trivial, trivial⟩
      | byName name => exact wp_query.mpr fun _ => ⟨.inl trivial, trivial⟩
    · refine wp_bind (R := fun _ _ => True) ?_ (fun _ row' _ => ?_) fun _ _ _ => trivial
      · cases row <;> trivial
      · refine wp_ofOption_bind (fun _ => trivial) fun group _ => ?_
        refine wp_failIf_bind (fun _ => trivial) fun _ => ?_
        refine wp_ask (fun _ => .inr ⟨group.id, rfl⟩) fun inserted => ?_
        cases inserted <;> trivial

end

/-! ## An operation that runs alone -/

section

variable {α β : Type} {db db' : Db}

/-- A success has `Q`. -/
def Succeeds (Q : Db → α → Prop) (db : Db) (r : Except ApiError α) : Prop := ∀ a, r = .ok a → Q db a

variable {Q : Db → α → Prop}

theorem succeeds_error {err : ApiError} : Succeeds Q db (.error err) := nofun

/-- `p` runs alone on `db` and ends in `P`. -/
def Starts (p : Repo α) (db : Db) (P : Db → Except ApiError α → Prop) : Prop :=
  Safe (fun db e db' => exec db e = some db' ∧ True) (fun _ => True) Eq (fun _ _ => True) p db P

theorem starts_sql {q : Stmt} {k : q.Answer → Repo α} {P : Db → Except ApiError α → Prop}
    (h : ∀ a db', exec db ⟨q, a⟩ = some db' → Starts (k a) db' P) : Starts (sql q >>= k) db P := by
  rintro _ rfl - a db' ⟨hexec, -⟩
  exact ⟨⟨trivial, trivial⟩, h a db' hexec⟩

theorem starts_pure {a : α} (h : Q db a) : Starts (pure a) db (Succeeds Q) := by
  rintro _ rfl - _ ⟨⟩
  exact h

theorem starts_fail {err : ApiError} : Starts (.fail err) db (Succeeds Q) :=
  safe_fail fun _ _ _ => succeeds_error

theorem starts_bind {p : Repo α} {k : α → Repo β} {Q' : Db → β → Prop}
    (hp : Starts p db (Succeeds Q)) (hok : ∀ db' a, Q db' a → Starts (k a) db' (Succeeds Q')) :
    Starts (p >>= k) db (Succeeds Q') :=
  safe_bind (fun _ => rfl) trivial hp (fun db' a _ h => hok db' a (h a rfl))
    fun _ _ _ _ => succeeds_error

theorem starts_getGroup {id : Uuid} : Starts (getGroup id) db
    (Succeeds fun db' g => db' = db ∧ g ∈ db.groups ∧ g.id = id) := by
  refine starts_sql fun row db₁ hexec => ?_
  cases row with
  | error e => exact starts_fail
  | ok row =>
    obtain ⟨rfl, hrow⟩ := exec_getGroup hexec
    cases row with
    | none => exact starts_fail
    | some g => exact starts_pure ⟨rfl, Db.findGroup_eq_some.mp hrow.symm⟩

theorem Starts.execAll {p : Repo α} {P : Db → Except ApiError α → Prop}
    {h : History Stmt Stmt.Answer} {r : Except ApiError α} (hp : Starts p db P) (hr : p.Ends h r)
    (hdb : execAll exec db h = some db') : P db' r := by
  refine Safe.execAll hp trivial ?_ (okAll_of_forall (by simp) _ _) hdb
  obtain ⟨p', hfollow, hresult⟩ := Option.bind_eq_some_iff.mp hr
  cases p' with
  | done r' => rw [hfollow, Option.some.inj hresult]
  | ask q next => cases hresult

end

end Ppb.Groups
