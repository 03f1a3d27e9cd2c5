import Ppb.Server.World

/-!
# Permissions (`permissions/manifest.rs`, `permissions/resolver.rs`)

A user has the permissions of his groups; a group of kind `admin_scope` stands
for every permission that is not Root's. Root has `*:*` and is not looked up.

`Permitted auth p h`: in the history `h`, the permission set last resolved for
`auth` has `p`. `wp_hasPermission` and `wp_require` say that this is what the
checks establish.
-/

namespace Ppb.Auth

open Prog

/-! ## Manifest -/

/-- `PermissionDef` (permissions/manifest.rs:20-28), without the texts shown to
    users. -/
structure PermissionDef where
  id : String
  rootOnly : Bool

/-- `permission_manifest` (permissions/manifest.rs:44-113). -/
def permissionManifest : List PermissionDef :=
  [⟨"room:view", false⟩, ⟨"room:kick", false⟩, ⟨"room:move", false⟩, ⟨"room:start", false⟩,
    ⟨"room:config", false⟩, ⟨"room:whitelist", false⟩, ⟨"room:blacklist", false⟩,
    ⟨"room:manage", false⟩,
    ⟨"user:view", false⟩, ⟨"user:kick", false⟩, ⟨"user:ban", false⟩, ⟨"user:ban_ip", false⟩,
    ⟨"user:view_ip_history", false⟩,
    ⟨"server:view", false⟩, ⟨"server:manage", false⟩, ⟨"server:update", true⟩,
    ⟨"server:shutdown", true⟩, ⟨"server:start", true⟩,
    ⟨"config:view", false⟩, ⟨"config:reload", false⟩, ⟨"config:rollback", true⟩,
    ⟨"plugin:view", false⟩, ⟨"plugin:manage", true⟩, ⟨"plugin:call", false⟩,
    ⟨"audit:view", false⟩, ⟨"audit:export", false⟩,
    ⟨"broadcast:all", false⟩, ⟨"broadcast:room", false⟩, ⟨"broadcast:user", false⟩,
    ⟨"pmp:cli", false⟩, ⟨"logs:view", false⟩, ⟨"notification:send_system", false⟩,
    ⟨"coupon:view", false⟩, ⟨"coupon:create", false⟩, ⟨"coupon:manage", true⟩,
    ⟨"coupon:revoke", true⟩,
    ⟨"group:view", false⟩, ⟨"group:create", false⟩, ⟨"group:edit", false⟩,
    ⟨"group:delete", false⟩, ⟨"group:assign_user", false⟩,
    ⟨"automation:view", false⟩, ⟨"automation:edit", false⟩, ⟨"automation:execute", false⟩,
    ⟨"dashboard:view", false⟩, ⟨"preference:manage", false⟩]

/-- `ROOT_WILDCARD` (permissions/manifest.rs:116). -/
def rootWildcard : String := "*:*"

/-- `PermissionDef::non_root_only_ids` (permissions/manifest.rs:128-134). -/
def nonRootOnlyIds : List String :=
  (permissionManifest.filter fun p => !p.rootOnly).map (·.id)

/-! ## Resolver -/

/-- The set `permissions_for_user` builds from the rows
    (permissions/resolver.rs:58-77). -/
def permissionsOfRows (rows : List UserGroupPermRow) : List String :=
  rows.filterMap (fun row => row.permission.filter fun p => p != rootWildcard) ++
    if rows.any fun row => row.systemKind == some "admin_scope" then nonRootOnlyIds else []

/-- `PermissionResolver::permissions_for_principal` (permissions/resolver.rs:82-102). -/
def permissionsForPrincipal (state : AppState) (auth : AuthPrincipal) : Server (List String) :=
  if auth.isRoot then pure [rootWildcard]
  else do
    state.requireDb
    let rows ← ask (.groupRows auth.sub)
    let rows ← orFail (fun _ => .internal) rows
    return permissionsOfRows rows

/-- The test of `has_permission` (permissions/resolver.rs:112). -/
def grants (perms : List String) (permission : String) : Bool :=
  perms.contains rootWildcard || perms.contains permission

/-- `PermissionResolver::has_permission` (permissions/resolver.rs:105-113). -/
def hasPermission (state : AppState) (auth : AuthPrincipal) (permission : String) :
    Server Bool := do
  let perms ← permissionsForPrincipal state auth
  return grants perms permission

/-- `PermissionResolver::require` (permissions/resolver.rs:116-127). -/
def require (state : AppState) (auth : AuthPrincipal) (permission : String) : Server Unit := do
  let granted ← hasPermission state auth permission
  if granted then pure () else .fail .permissionDenied

/-! ## What the checks establish -/

/-- `perms` is the permission set last resolved for `auth`. -/
def Resolved (auth : AuthPrincipal) (h : Asked) (perms : List String) : Prop :=
  if auth.isRoot then perms = [rootWildcard]
  else ∃ rows, Latest h (.groupRows auth.sub) (.ok rows) ∧ perms = permissionsOfRows rows

/-- The permission set last resolved for `auth` has `permission` or `*:*`. -/
def Permitted (auth : AuthPrincipal) (permission : String) (h : Asked) : Prop :=
  ∃ perms, Resolved auth h perms ∧ (rootWildcard ∈ perms ∨ permission ∈ perms)

theorem Permitted.extends {auth : AuthPrincipal} {permission : String} {h h' : Asked}
    {C : Query → Prop} (hp : Permitted auth permission h) (hx : Extends C h h')
    (hC : ¬ C (.groupRows auth.sub)) : Permitted auth permission h' := by
  obtain ⟨perms, hres, hmem⟩ := hp
  refine ⟨perms, ?_, hmem⟩
  unfold Resolved at hres ⊢
  split_ifs at hres ⊢ with hroot
  · exact hres
  · obtain ⟨rows, hl, hperms⟩ := hres
    exact ⟨rows, hl.extends hx hC, hperms⟩

variable {ok : Asked → Event Query Query.Answer → Prop} {h : Asked} {state : AppState}
  {auth : AuthPrincipal} {permission : String}

theorem wp_permissionsForPrincipal (hok : ∀ a, ok h ⟨.groupRows auth.sub, a⟩) :
    wp ok (permissionsForPrincipal state auth) h fun h' r =>
      Extends (· = .groupRows auth.sub) h h' ∧ ∀ perms, r = .ok perms → Resolved auth h' perms := by
  unfold permissionsForPrincipal Resolved
  split_ifs with hroot
  · refine ⟨.refl, fun perms hperms => ?_⟩
    exact (Except.ok.inj hperms).symm
  · refine wp_requireDb_bind ⟨.refl, nofun⟩ (wp_ask hok fun a => ?_)
    have hx : Extends (· = Query.groupRows auth.sub) h (h ++ [⟨.groupRows auth.sub, a⟩]) :=
      Extends.refl.snoc rfl
    cases a with
    | error e => exact ⟨hx, nofun⟩
    | ok rows =>
      refine ⟨hx, fun perms hperms => ⟨rows, .now _ _ _, ?_⟩⟩
      exact (Except.ok.inj hperms).symm

theorem wp_hasPermission (hok : ∀ a, ok h ⟨.groupRows auth.sub, a⟩) :
    wp ok (hasPermission state auth permission) h fun h' r =>
      Extends (· = .groupRows auth.sub) h h' ∧ (r = .ok true → Permitted auth permission h') := by
  refine wp_bind (wp_permissionsForPrincipal hok) ?_ ?_
  · rintro h' perms ⟨hx, hres⟩
    refine ⟨hx, fun hr => ⟨perms, hres perms rfl, ?_⟩⟩
    have hgrants : grants perms permission = true := Except.ok.inj hr
    simpa [grants] using hgrants
  · rintro h' e ⟨hx, -⟩
    exact ⟨hx, nofun⟩

theorem wp_require (hok : ∀ a, ok h ⟨.groupRows auth.sub, a⟩) :
    wp ok (require state auth permission) h fun h' r =>
      Extends (· = .groupRows auth.sub) h h' ∧ (r = .ok () → Permitted auth permission h') := by
  refine wp_bind (wp_hasPermission hok) ?_ ?_
  · rintro h' granted ⟨hx, hp⟩
    split_ifs with hg
    · exact ⟨hx, fun _ => hp (by rw [hg])⟩
    · exact ⟨hx, nofun⟩
  · rintro h' e ⟨hx, -⟩
    exact ⟨hx, nofun⟩

end Ppb.Auth
