import Ppb.Groups.Repo

/-!
# Effective permissions

`permissions_for_user` gives a user the rows of `group_permissions` of all his
groups and, if one of them is an `admin_scope` group, every permission that is not
`root_only` (`mem_permissionsOfRows`).

* `root_only_kept`: nobody but Root has a `root_only` permission as long as none is
  asked for. `add_permission` and `replace_group_permissions` reject `*:*` and ids
  that are not in the manifest, but not `root_only` ones.
* `preview_eq_iff`: the permissions shown for a group are those its members have,
  except for the rows of an `admin_scope` group, which `effective_group_permissions`
  leaves out.
-/

namespace Ppb.Groups

open Prog Shared Trace Auth

variable {db db' : Db} {user : Uuid} {permission : String}

/-! ## What a user has -/

/-- `user` is in the group `g`. -/
def Db.IsIn (db : Db) (user : Uuid) (g : Group) : Prop := g ∈ db.groups ∧ ⟨g.id, user⟩ ∈ db.members

/-- The rows of the group query. -/
theorem mem_groupRows {row : UserGroupPermRow} : row ∈ db.groupRows user ↔
    ∃ g, db.IsIn user g ∧ row.systemKind = g.systemKind ∧
      ((∀ p, ⟨g.id, p⟩ ∉ db.permissions) ∧ row.permission = none ∨
        ∃ p, ⟨g.id, p⟩ ∈ db.permissions ∧ row.permission = some p) := by
  have hperms : ∀ g : Group, (db.permissions.rows.filter fun p => p.groupId == g.id) = [] ↔
      ∀ p, ⟨g.id, p⟩ ∉ db.permissions := by
    intro g
    rw [List.filter_eq_nil_iff]
    constructor
    · exact fun h p hp => h _ hp (by simp)
    · rintro h ⟨group, p⟩ hp hg
      obtain rfl : group = g.id := by simpa using hg
      exact h p hp
  simp only [Db.groupRows, List.mem_flatMap, List.mem_filter, beq_iff_eq]
  constructor
  · rintro ⟨⟨group, user'⟩, ⟨hm, rfl⟩, g, ⟨hg, rfl⟩, hrow⟩
    refine ⟨g, ⟨hg, hm⟩, ?_⟩
    split at hrow
    · rename_i hnil
      obtain rfl := List.mem_singleton.mp hrow
      exact ⟨rfl, .inl ⟨(hperms g).mp hnil, rfl⟩⟩
    · obtain ⟨⟨group, p⟩, hp, rfl⟩ := List.mem_map.mp hrow
      obtain ⟨hp, heq⟩ := List.mem_filter.mp hp
      obtain rfl : group = g.id := by simpa using heq
      exact ⟨rfl, .inr ⟨p, hp, rfl⟩⟩
  · rintro ⟨g, ⟨hg, hm⟩, hkind, h⟩
    refine ⟨⟨g.id, user⟩, ⟨hm, rfl⟩, g, ⟨hg, rfl⟩, ?_⟩
    obtain ⟨kind, permission⟩ := row
    obtain rfl : kind = g.systemKind := hkind
    rcases h with ⟨hnone, rfl⟩ | ⟨p, hp, rfl⟩
    · rw [(hperms g).mpr hnone]
      exact List.mem_singleton_self _
    · have hmem : (⟨g.id, p⟩ : GroupPermission) ∈
          db.permissions.rows.filter fun p => p.groupId == g.id :=
        List.mem_filter.mpr ⟨hp, by simp⟩
      split
      · rename_i hnil
        rw [hnil] at hmem
        cases hmem
      · exact List.mem_map_of_mem hmem

/-- Every group of the user has a row, whether it has permissions or not. -/
theorem any_groupRows_admin :
    ((db.groupRows user).any fun row => row.systemKind == some "admin_scope") = true ↔
      ∃ g, db.IsIn user g ∧ g.isAdminScope = true := by
  rw [List.any_eq_true]
  constructor
  · rintro ⟨row, hrow, hkind⟩
    obtain ⟨g, hin, heq, -⟩ := mem_groupRows.mp hrow
    exact ⟨g, hin, by rwa [Group.isAdminScope, ← heq]⟩
  · rintro ⟨g, hin, hadmin⟩
    by_cases hnone : ∀ p, ⟨g.id, p⟩ ∉ db.permissions
    · exact ⟨⟨g.systemKind, none⟩, mem_groupRows.mpr ⟨g, hin, rfl, .inl ⟨hnone, rfl⟩⟩, hadmin⟩
    · obtain ⟨p, hp⟩ := not_forall.mp hnone
      exact ⟨⟨g.systemKind, some p⟩,
        mem_groupRows.mpr ⟨g, hin, rfl, .inr ⟨p, by simpa using hp, rfl⟩⟩, hadmin⟩

/-- The permissions of a user: those of his groups, and the mapped ones if one of
    these is an `admin_scope` group. -/
theorem mem_permissionsOfRows {rows : List UserGroupPermRow} (hrows : rows.Perm (db.groupRows user)) :
    permission ∈ permissionsOfRows rows ↔
      (∃ g, db.IsIn user g ∧ ⟨g.id, permission⟩ ∈ db.permissions) ∨
        (∃ g, db.IsIn user g ∧ g.isAdminScope = true) ∧ permission ∈ nonRootOnlyIds := by
  have hany : (rows.any fun row => row.systemKind == some "admin_scope") = true ↔
      ∃ g, db.IsIn user g ∧ g.isAdminScope = true := by
    rw [← any_groupRows_admin, List.any_eq_true, List.any_eq_true]
    simp only [hrows.mem_iff]
  unfold permissionsOfRows
  rw [List.mem_append]
  refine or_congr ?_ ?_
  · simp only [List.mem_filterMap, hrows.mem_iff, Option.filter_eq_some_iff]
    constructor
    · rintro ⟨row, hrow, hp, -⟩
      obtain ⟨g, hin, -, ⟨-, hnone⟩ | ⟨p, hmem, hsome⟩⟩ := mem_groupRows.mp hrow
      · rw [hnone] at hp
        cases hp
      · obtain rfl : p = permission := Option.some.inj (hsome.symm.trans hp)
        exact ⟨g, hin, hmem⟩
    · rintro ⟨g, hin, hmem⟩
      refine ⟨⟨g.systemKind, some permission⟩, ?_, rfl, ?_⟩
      · exact mem_groupRows.mpr ⟨g, hin, rfl, .inr ⟨permission, hmem, rfl⟩⟩
      · simpa using db.not_wildcard _ hmem
  · split_ifs with h
    · simp [hany.mp h]
    · have hno : ¬ ∃ g, db.IsIn user g ∧ g.isAdminScope = true := fun hadmin => h (hany.mpr hadmin)
      simp only [hno, false_and, List.not_mem_nil]

/-! ## Permissions of Root only -/

/-- `PermissionDef::root_only_ids` (permissions/manifest.rs:113-119). -/
def rootOnlyIds : List String := (permissionManifest.filter (·.rootOnly)).map (·.id)

theorem mem_nonRootOnlyIds (hknown : Known permission) (hnot : permission ∉ rootOnlyIds) :
    permission ∈ nonRootOnlyIds := by
  obtain ⟨d, hd⟩ := Option.ne_none_iff_exists'.mp hknown
  have hmem := List.mem_of_find?_eq_some hd
  obtain rfl : d.id = permission := by simpa using List.find?_some hd
  refine List.mem_map.mpr ⟨d, List.mem_filter.mpr ⟨hmem, ?_⟩, rfl⟩
  by_contra hroot
  exact hnot (List.mem_map.mpr ⟨d, List.mem_filter.mpr ⟨hmem, by simpa using hroot⟩, rfl⟩)

theorem not_mem_nonRootOnlyIds (h : permission ∈ rootOnlyIds ∨ permission = rootWildcard) :
    permission ∉ nonRootOnlyIds := by
  have hids : ∀ p ∈ rootOnlyIds, p ∉ nonRootOnlyIds := by decide +kernel
  rcases h with hmem | rfl
  · exact hids permission hmem
  · decide +kernel

/-- No group is granted a `root_only` permission. -/
def NoRootOnly (db : Db) : Prop := ∀ p ∈ db.permissions, p.permission ∈ nonRootOnlyIds

/-- One statement. -/
theorem noRootOnly_of_exec {e : Event Stmt Stmt.Answer} (h : NoRootOnly db)
    (hexec : exec db e = some db')
    (hgrant : ∀ group p, e.1 = .insertPermission group p → p ∈ nonRootOnlyIds) : NoRootOnly db' := by
  have heq : db'.permissions = db.permissions → NoRootOnly db' := by
    intro heq p hp
    exact h p (heq ▸ hp)
  cases exec_wrote hexec with
  | nothing => exact h
  | newGroup hins => exact heq (Db.insertGroup_spec hins).2.2.1
  | newSeed hins => exact heq (Db.insertGroup_spec hins).2.2.1
  | updated hup => exact heq (Db.updateGroups_spec hup).2.2.1
  | committed hup => exact heq (Db.updateAll_spec hup).2.2.1
  | newMember hins => exact heq (Db.insertMember_spec hins).2.2.1
  | deletedMember => exact h
  | deletedMembers => exact h
  | deletedGroup => exact fun p hp => h p (Table.mem_delete.mp hp).1
  | deletedPermission => exact fun p hp => h p (Table.mem_delete.mp hp).1
  | deletedPermissions => exact fun p hp => h p (Table.mem_delete.mp hp).1
  | newPermission hins =>
    obtain ⟨-, -, -, -, hmem⟩ := Db.insertPermission_spec hins
    intro p hp
    rcases (hmem p).mp hp with hp | rfl
    · exact h p hp
    · exact hgrant _ _ rfl

/-- The permissions that a request grants. -/
def Op.permissions : Op → List String
  | .addPermission _ permission => [permission]
  | .replaceGroupPermissions _ permissions => permissions
  | _ => []

/-- What is inserted is in the manifest and was asked for. -/
theorem mem_of_asks_insertPermission {op : Op} {group : Uuid} (hop : ∀ p ∈ op.permissions, p ∉ rootOnlyIds)
    (h : op.Asks (.insertPermission group permission)) : permission ∈ nonRootOnlyIds := by
  rcases h with hread | hwrites
  · exact hread.elim
  · cases op with
    | addPermission group' p =>
      obtain ⟨heq, hknown⟩ := hwrites
      obtain ⟨rfl, rfl⟩ := Stmt.insertPermission.inj heq
      exact mem_nonRootOnlyIds hknown (hop _ List.mem_cons_self)
    | replaceGroupPermissions group' ps =>
      obtain heq | ⟨p, hp, heq, hknown⟩ := hwrites
      · cases heq
      · obtain ⟨rfl, rfl⟩ := Stmt.insertPermission.inj heq
        exact mem_nonRootOnlyIds hknown (hop _ hp)
    | _ => simp [Op.Writes, IsSeeding] at hwrites

/-- The answer of the only question. -/
theorem latest_singleton {q : Query} {a b : q.Answer} (h : Latest [⟨q, b⟩] q a) : a = b := by
  obtain ⟨h₁, h₂, heq, -⟩ := h
  obtain ⟨rfl, heq⟩ | ⟨rfl, heq⟩ := List.singleton_eq_append_iff.mp heq
  · cases heq
    rfl
  · cases heq

/-- **Root-only permissions stay with Root** in every state that group operations
    reach from tables without permissions, however their statements interleave, as
    long as no request asks for a `root_only` permission. -/
theorem root_only_kept {db₀ : Db} (hstart : db₀.permissions.rows = [])
    {p : Pool Stmt Stmt.Answer Db Op ApiError Reply}
    (hrun : Reaches (Pool.step exec Op.program) (Pool.Ok
      (fun _ op => ∀ permission ∈ op.permissions, permission ∉ rootOnlyIds) fun _ _ _ => True)
      ⟨db₀, []⟩ p)
    (state : AppState) (auth : AuthPrincipal) (hroot : auth.isRoot = false)
    {rows : List UserGroupPermRow} (hrows : rows.Perm (p.store.groupRows auth.sub)) :
    (∀ perms, (permissionsForPrincipal state auth).Ends [⟨.groupRows auth.sub, .ok rows⟩] (.ok perms) →
        perms ⊆ nonRootOnlyIds) ∧
      ∀ permission granted, permission ∈ rootOnlyIds ∨ permission = rootWildcard →
        (hasPermission state auth permission).Ends [⟨.groupRows auth.sub, .ok rows⟩] (.ok granted) →
          granted = false := by
  have hno : NoRootOnly p.store := by
    refine Pool.invariant wp_program (fun db op e db' hop hasks _ hno hexec => ?_) ?_ rfl hrun
    · refine noRootOnly_of_exec hno hexec fun group p heq => ?_
      exact mem_of_asks_insertPermission hop (heq ▸ hasks)
    · intro p hp
      rw [Table.mem_def, hstart] at hp
      cases hp
  have hsub : permissionsOfRows rows ⊆ nonRootOnlyIds := by
    intro permission hmem
    obtain ⟨g, -, hp⟩ | ⟨-, hp⟩ := (mem_permissionsOfRows hrows).mp hmem
    · exact hno _ hp
    · exact hp
  have hresolved : ∀ {perms}, Resolved auth [⟨.groupRows auth.sub, .ok rows⟩] perms →
      perms = permissionsOfRows rows := by
    intro perms hres
    unfold Resolved at hres
    rw [if_neg (by simp [hroot])] at hres
    obtain ⟨rows', hlatest, rfl⟩ := hres
    rw [Except.ok.inj (latest_singleton hlatest)]
  refine ⟨fun perms hends => ?_, fun permission granted hperm hends => ?_⟩
  · have hwp : wp (fun _ _ => True) (permissionsForPrincipal state auth) [] _ :=
      wp_permissionsForPrincipal fun _ => trivial
    rw [hresolved ((of_ends hwp hends).2 perms rfl)]
    exact hsub
  · by_contra htrue
    have hwp : wp (fun _ _ => True) (hasPermission state auth permission) [] _ :=
      wp_hasPermission fun _ => trivial
    obtain ⟨perms, hres, hmem⟩ := (of_ends hwp hends).2 (by simpa using htrue)
    rw [hresolved hres] at hmem
    rcases hmem with hmem | hmem
    · exact not_mem_nonRootOnlyIds (.inr rfl) (hsub hmem)
    · exact not_mem_nonRootOnlyIds hperm (hsub hmem)

/-- A new installation; the user 1 is put into `Administrators` (id 1), and the
    permissions `granted` are given to that group. -/
def grantTo (granted : List String) : List (Label Stmt Stmt.Answer Op) :=
  [.spawn .bootstrapGroups, .answer 0 ⟨.insertSeed administrators, .ok (some 1)⟩,
    .answer 0 ⟨.insertSeed moderators, .ok (some 2)⟩, .answer 0 ⟨.insertSeed developers, .ok (some 3)⟩,
    .answer 0 ⟨.insertSeed members, .ok (some 4)⟩,
    .answer 0 ⟨.updateGroups (.setDefaultByName "Members"), .ok ()⟩,
    .spawn (.addMember 1 1), .answer 1 ⟨.insertMember 1 1, .ok ()⟩,
    .spawn (.replaceGroupPermissions 1 granted), .answer 2 ⟨.deletePermissions 1, .ok ()⟩] ++
    granted.map fun permission => .answer 2 ⟨.insertPermission 1 permission, .ok ()⟩

/-- The user 1. -/
def panelUser : AuthPrincipal :=
  { sub := 1, sid := 1, principalType := .user, clientType := .panel, requestId := "" }

/-- `Administrators` are granted `room:kick`: the user 1 may not shut the server down. -/
theorem root_only_kept_kick :
    ∃ p, Reaches (Pool.step exec Op.program) (Pool.Ok
        (fun _ op => ∀ permission ∈ op.permissions, permission ∉ rootOnlyIds) fun _ _ _ => True)
        ⟨.fresh [1], []⟩ p ∧
      (hasPermission ⟨true, 10⟩ panelUser "server:shutdown").Ends
        [⟨.groupRows 1, .ok (p.store.groupRows 1)⟩] (.ok false) := by
  have hrun : (runWhile (Pool.step exec Op.program) (fun p l => decide (p.Ok
      (fun _ op => ∀ permission ∈ op.permissions, permission ∉ rootOnlyIds) (fun _ _ _ => True) l))
      ⟨.fresh [1], []⟩ (grantTo ["room:kick"])).any (fun p => decide
        (p.store.groupRows 1 = [⟨some "admin_scope", some "room:kick"⟩])) = true := by decide +kernel
  obtain ⟨p, hp, hrows⟩ := exists_reaches_of_runWhile (fun _ _ h => of_decide_eq_true h) hrun
  have hends : (hasPermission ⟨true, 10⟩ panelUser "server:shutdown").Ends
      [⟨.groupRows 1, .ok (p.store.groupRows 1)⟩] (.ok (grants (permissionsOfRows
        (p.store.groupRows 1)) "server:shutdown")) := rfl
  have hfalse := (root_only_kept rfl hp ⟨true, 10⟩ panelUser rfl (.refl _)).2 _ _
    (.inl (by decide +kernel)) hends
  exact ⟨p, hp, hfalse ▸ hends⟩

/-- `Administrators` are granted `server:shutdown`, and the user 1 has it. -/
theorem not_root_only_kept_shutdown :
    ∃ p, Reachable (Pool.step exec Op.program) ⟨.fresh [1], []⟩ p ∧ panelUser.isRoot = false ∧
      "server:shutdown" ∈ rootOnlyIds ∧
      (hasPermission ⟨true, 10⟩ panelUser "server:shutdown").Ends
        [⟨.groupRows 1, .ok (p.store.groupRows 1)⟩] (.ok true) := by
  have hrun : (runFrom (Pool.step exec Op.program) ⟨.fresh [1], []⟩
      (grantTo ["server:shutdown"])).any (fun p => decide
        (p.store.groupRows 1 = [⟨some "admin_scope", some "server:shutdown"⟩])) = true := by
    decide +kernel
  obtain ⟨p, hp, hrows⟩ := exists_reachable_of_runFrom hrun
  have hgrants : grants (permissionsOfRows (p.store.groupRows 1)) "server:shutdown" = true := by
    rw [of_decide_eq_true hrows]
    decide +kernel
  have hends : (hasPermission ⟨true, 10⟩ panelUser "server:shutdown").Ends
      [⟨.groupRows 1, .ok (p.store.groupRows 1)⟩] (.ok (grants (permissionsOfRows
        (p.store.groupRows 1)) "server:shutdown")) := rfl
  exact ⟨p, hp, rfl, by decide +kernel, hgrants ▸ hends⟩

/-! ## The preview of a group -/

/-- `effective_group_permissions` of the group `id` may return `permissions`. -/
def Previews (db : Db) (id : Uuid) (permissions : List String) : Prop :=
  ∃ h, (effectiveGroupPermissions id).Ends h (.ok permissions) ∧ execAll exec db h = some db

theorem mem_permissionsOf {id : Uuid} :
    permission ∈ db.permissionsOf id ↔ ⟨id, permission⟩ ∈ db.permissions := by
  simp only [Db.permissionsOf, List.mem_map, List.mem_filter, beq_iff_eq, Table.mem_def]
  constructor
  · rintro ⟨⟨group, p⟩, ⟨hp, rfl⟩, rfl⟩
    exact hp
  · exact fun hp => ⟨⟨id, permission⟩, ⟨hp, rfl⟩, rfl⟩

/-- The preview of an `admin_scope` group is the mapped set. -/
theorem starts_effectiveGroupPermissions {g : Group} (hg : g ∈ db.groups) :
    Starts (effectiveGroupPermissions g.id) db (Succeeds fun _ ps =>
      if g.isAdminScope then ps = nonRootOnlyIds.mergeSort else ps.Perm (db.permissionsOf g.id)) := by
  refine starts_bind starts_getGroup ?_
  rintro db₁ g' ⟨rfl, hg', hid⟩
  obtain rfl := Db.group_unique hg' hg hid
  split_ifs with hadmin
  · exact starts_pure rfl
  · refine starts_sql fun rows db₂ hexec => ?_
    cases rows with
    | error e => exact starts_fail
    | ok rows =>
      obtain ⟨rfl, hperm⟩ := exec_listPermissions hexec
      exact starts_pure hperm

theorem previews_iff {g : Group} (hg : g ∈ db.groups) {ps : List String} : Previews db g.id ps ↔
    if g.isAdminScope then ps = nonRootOnlyIds.mergeSort else ps.Perm (db.permissionsOf g.id) := by
  constructor
  · rintro ⟨h, hends, hdb⟩
    exact (starts_effectiveGroupPermissions hg).execAll hends hdb ps rfl
  · intro hps
    have hget : exec db ⟨.getGroup g.id, .ok (some g)⟩ = some db := by
      have hfind : db.findGroup g.id = some g := Db.findGroup_eq_some.mpr ⟨hg, rfl⟩
      simp [exec, reads, hfind]
    have hends : ∀ h, (if g.isAdminScope then pure nonRootOnlyIds.mergeSort
        else listGroupPermissions g.id : Repo _).Ends h (.ok ps) →
        (effectiveGroupPermissions g.id).Ends (⟨.getGroup g.id, .ok (some g)⟩ :: h) (.ok ps) :=
      fun h hrest => ends_ask hrest
    split_ifs at hps hends with hadmin
    · refine ⟨[⟨.getGroup g.id, .ok (some g)⟩], hends [] (by rw [hps]; rfl), ?_⟩
      exact Option.bind_eq_some_iff.mpr ⟨db, hget, rfl⟩
    · have hlist : exec db ⟨.listPermissions g.id, .ok ps⟩ = some db := by simp [exec, reads, hps]
      refine ⟨[⟨.getGroup g.id, .ok (some g)⟩, ⟨.listPermissions g.id, .ok ps⟩],
        hends _ (ends_ask rfl), ?_⟩
      exact Option.bind_eq_some_iff.mpr ⟨db, hget, Option.bind_eq_some_iff.mpr ⟨db, hlist, rfl⟩⟩

/-- A permission that some group of `user` shows. -/
theorem exists_preview_iff : (∃ g, db.IsIn user g ∧ ∃ ps, Previews db g.id ps ∧ permission ∈ ps) ↔
    (∃ g, db.IsIn user g ∧ g.isAdminScope = false ∧ ⟨g.id, permission⟩ ∈ db.permissions) ∨
      (∃ g, db.IsIn user g ∧ g.isAdminScope = true) ∧ permission ∈ nonRootOnlyIds := by
  constructor
  · rintro ⟨g, hin, ps, hprev, hmem⟩
    have hps := (previews_iff hin.1).mp hprev
    split_ifs at hps with hadmin
    · refine .inr ⟨⟨g, hin, hadmin⟩, ?_⟩
      rw [hps] at hmem
      exact List.mem_mergeSort.mp hmem
    · exact .inl ⟨g, hin, by simpa using hadmin, mem_permissionsOf.mp (hps.mem_iff.mp hmem)⟩
  · rintro (⟨g, hin, hadmin, hmem⟩ | ⟨⟨g, hin, hadmin⟩, hmem⟩)
    · refine ⟨g, hin, db.permissionsOf g.id, (previews_iff hin.1).mpr ?_, mem_permissionsOf.mpr hmem⟩
      simp [hadmin]
    · refine ⟨g, hin, nonRootOnlyIds.mergeSort, (previews_iff hin.1).mpr ?_, ?_⟩
      · simp [hadmin]
      · exact List.mem_mergeSort.mpr hmem

/-- **The preview agrees with enforcement** for a user if and only if every permission
    granted to an `admin_scope` group of his is mapped anyway or granted to another
    group of his that is not `admin_scope`. -/
theorem preview_eq_iff (db : Db) (user : Uuid) {rows : List UserGroupPermRow}
    (hrows : rows.Perm (db.groupRows user)) :
    (∀ permission, permission ∈ permissionsOfRows rows ↔
        ∃ g, db.IsIn user g ∧ ∃ ps, Previews db g.id ps ∧ permission ∈ ps) ↔
      ∀ g, db.IsIn user g → g.isAdminScope = true → ∀ p, ⟨g.id, p⟩ ∈ db.permissions →
        p ∈ nonRootOnlyIds ∨
          ∃ g', db.IsIn user g' ∧ g'.isAdminScope = false ∧ ⟨g'.id, p⟩ ∈ db.permissions := by
  simp only [mem_permissionsOfRows hrows, exists_preview_iff]
  constructor
  · intro h g hin hadmin p hp
    rcases (h p).mp (.inl ⟨g, hin, hp⟩) with hplain | hmapped
    · exact .inr hplain
    · exact .inl hmapped.2
  · intro h permission
    constructor
    · rintro (⟨g, hin, hp⟩ | hmapped)
      · cases hadmin : g.isAdminScope with
        | false => exact .inl ⟨g, hin, hadmin, hp⟩
        | true => exact (h g hin hadmin permission hp).elim (fun hm => .inr ⟨⟨g, hin, hadmin⟩, hm⟩) .inl
      · exact .inr hmapped
    · rintro (⟨g, hin, -, hp⟩ | hmapped)
      · exact .inl ⟨g, hin, hp⟩
      · exact .inr hmapped

/-- `Administrators` are granted `room:kick`, which is mapped anyway. -/
theorem preview_eq_iff_kick :
    ∃ p, Reachable (Pool.step exec Op.program) ⟨.fresh [1], []⟩ p ∧
      (⟨1, "room:kick"⟩ : GroupPermission) ∈ p.store.permissions ∧
      ∀ permission, permission ∈ permissionsOfRows (p.store.groupRows 1) ↔
        ∃ g, p.store.IsIn 1 g ∧ ∃ ps, Previews p.store g.id ps ∧ permission ∈ ps := by
  have hrun : (runFrom (Pool.step exec Op.program) ⟨.fresh [1], []⟩ (grantTo ["room:kick"])).any
      (fun p => decide (p.store.permissions.rows = [⟨1, "room:kick"⟩])) = true := by decide +kernel
  obtain ⟨p, hp, hperms⟩ := exists_reachable_of_runFrom hrun
  have hrows := of_decide_eq_true hperms
  refine ⟨p, hp, by simp [Table.mem_def, hrows], ?_⟩
  refine (preview_eq_iff p.store 1 (.refl _)).mpr fun g _ _ permission hmem => .inl ?_
  obtain ⟨-, rfl⟩ : g.id = 1 ∧ permission = "room:kick" := by
    simpa [Table.mem_def, hrows] using hmem
  decide +kernel

/-- `Administrators` are granted `server:shutdown`: the user 1 has it, and no group of
    his shows it. -/
theorem not_preview_eq_shutdown :
    ∃ p, Reachable (Pool.step exec Op.program) ⟨.fresh [1], []⟩ p ∧
      "server:shutdown" ∈ permissionsOfRows (p.store.groupRows 1) ∧
      ¬ ∃ g, p.store.IsIn 1 g ∧ ∃ ps, Previews p.store g.id ps ∧ "server:shutdown" ∈ ps := by
  have hrun : (runFrom (Pool.step exec Op.program) ⟨.fresh [1], []⟩
      (grantTo ["server:shutdown"])).any (fun p => decide
        ("server:shutdown" ∈ permissionsOfRows (p.store.groupRows 1) ∧
          ∀ g ∈ p.store.groups, (⟨g.id, 1⟩ : GroupMember) ∈ p.store.members.rows →
            g.isAdminScope = true)) = true := by decide +kernel
  obtain ⟨p, hp, htest⟩ := exists_reachable_of_runFrom hrun
  obtain ⟨hmem, hadmin⟩ := of_decide_eq_true htest
  refine ⟨p, hp, hmem, fun hprev => ?_⟩
  rcases exists_preview_iff.mp hprev with ⟨g, hin, hplain, -⟩ | ⟨-, hmapped⟩
  · rw [hadmin g hin.1 hin.2] at hplain
    cases hplain
  · exact absurd hmapped (by decide +kernel)

end Ppb.Groups
