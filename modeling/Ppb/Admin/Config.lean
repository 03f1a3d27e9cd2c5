import Ppb.Admin.Store
import Ppb.Admin.Descriptor

/-!
# The configuration endpoints (`config/routes.rs`)

`values` and `raw` read the configuration of PMP through the descriptor and hide its secrets;
`snapshots` lists the texts that were saved before. `save` merges what was submitted into the
file, and `rollback` puts a snapshot in its place; then PMP is told to reload.
-/

namespace Ppb.Admin

open Prog Auth

/-! ## The file -/

/-- The error of a server without `pmp.config_path`. -/
def notConfigured : ApiError := .new .pmpUnavailable "pmp.config_path not configured"

/-- `.map_err(|_| ApiError::internal())?` of a file operation. -/
def orInternal {ε α : Type} : Except ε α → Handler α
  | .ok a => pure a
  | .error _ => .fail .internal

/-- `.map_err(ApiError::from)?` of a command to PMP. -/
def fromPmp {α : Type} : Except OpenUdsError α → Handler α
  | .ok a => pure a
  | .error e => .fail e.toApiError

/-- `db_err` (config/repo.rs:164-171). -/
def configDbErr : DbError → ApiError := dbErr .resourceNotFound "not found"

/-- `PmpConfigManager::read_yaml` (config/pmp.rs:169-172). -/
def readYaml (state : AdminState) : Handler String := do
  failIf (state.configured = false) notConfigured
  let inode ← ask .openFile
  let inode ← orInternal inode
  let text ← ask (.readFile inode)
  orInternal text

/-- `PmpConfigManager::write_yaml_atomic` (config/pmp.rs:175-185): `fs::write` opens the temporary
    file and writes to it. A path without a parent is a file that cannot be opened. -/
def writeYamlAtomic (state : AdminState) (content : String) : Handler Unit := do
  failIf (state.configured = false) notConfigured
  let inode ← ask .createTmp
  let inode ← orInternal inode
  let written ← ask (.write inode content)
  orInternal written.1
  let renamed ← ask .rename
  orInternal renamed

/-! ## Reading -/

/-- `serde_yaml::from_value::<Value>(y).unwrap_or(Value::Null)`. -/
def toJson (x : Extern) (y : Yaml) : Json := (x.fromValue y).getD .null

def redacted : Json := .str "[REDACTED]"

/-- The value of one field in the response of `values` (config/routes.rs:83-96). -/
def shownValue (x : Extern) (yaml : String) (f : ConfigFieldDescriptor) : Json :=
  let v := fieldValue x yaml f
  if f.sensitive = true then if v.isSome = true then redacted else .null
  else (v.map (toJson x)).getD .null

/-- `values` (config/routes.rs:73-99). -/
def values (x : Extern) (state : AdminState) (auth : AuthPrincipal) :
    Handler (List (String × Json)) := do
  call (require state.app auth "config:view")
  failIf (state.configured = false) notConfigured
  let yaml ← readYaml state
  return pmpConfigDescriptor.map fun f => (f.path, shownValue x yaml f)

/-- One round of the loop of `raw` (config/routes.rs:511-521). -/
def projectField (x : Extern) (source : String) (projected : Yaml) (f : ConfigFieldDescriptor) :
    Except ApiError Yaml :=
  match fieldValue x source f with
  | none => .ok projected
  | some y =>
    setYamlPath (jsonToYaml x (if f.sensitive = true then redacted else toJson x y)) f.parts projected

/-- The first line of the projection. -/
def rawHeader : String :=
  "# Redacted canonical configuration projection; unknown fields are omitted.\n"

/-- The text that `raw` makes of the file (config/routes.rs:509-527). -/
def projectYaml (x : Extern) (source : String) : Except ApiError String := do
  let projected ← pmpConfigDescriptor.foldlM (projectField x source) (.map [])
  let yaml ← orInvalid "yaml projection failed" (x.render projected)
  return rawHeader ++ yaml

/-- `raw` (config/routes.rs:499-528). -/
def raw (x : Extern) (state : AdminState) (auth : AuthPrincipal) : Handler String := do
  call (require state.app auth "config:view")
  failIf (state.configured = false) notConfigured
  let source ← readYaml state
  ofExcept (projectYaml x source)

/-- `snapshots` (config/routes.rs:472-480). -/
def snapshots (state : AdminState) (auth : AuthPrincipal) : Handler (List ConfigSnapshot) := do
  call (require state.app auth "config:view")
  call state.app.requireDb
  let rows ← ask (.listSnapshots "pmp" 200)
  mapErr configDbErr rows

/-! ## Saving -/

/-- `ConfigValidationIssueCode` (config/routes.rs:128-131). -/
inductive ConfigValidationIssueCode where
  | valuesMustBeObject | expectedType
  deriving DecidableEq, Repr

/-- `ConfigValidationError` (config/routes.rs:134-141). -/
structure ConfigValidationError where
  path : String
  code : ConfigValidationIssueCode
  params : Json
  message : String
  deriving DecidableEq

/-- `v.is_boolean()`, `v.is_number()`. -/
def hasType : FieldType → Json → Bool
  | .boolean, .bool _ => true
  | .boolean, _ => false
  | .number, .num _ => true
  | .number, _ => false
  | .string, _ => true

/-- `validate_values` (config/routes.rs:266-307): the errors, none if the values are fine. -/
def validateValues (values : Json) : List ConfigValidationError :=
  match values.asObject with
  | none => [⟨"", .valuesMustBeObject, .emptyObject, "values must be an object"⟩]
  | some values =>
    pmpConfigDescriptor.filterMap fun f =>
      match f.submitted values with
      | none => none
      | some v =>
        if hasType f.type v then none
        else some ⟨f.path, .expectedType, .obj [("expected", .str f.type.toText)],
          "expected " ++ f.type.toText⟩

/-- The first check of `save` (config/routes.rs:397-410). -/
def checkValues (values : Json) : Except ApiError Unit :=
  match validateValues values with
  | [] => .ok ()
  | errors =>
    .error (configError ("invalid config values: " ++ "; ".intercalate (errors.map (·.message))))

/-- `ConfigValuesBody` (config/routes.rs:103-108). -/
structure ConfigValuesBody where
  values : Json
  note : String
  deriving DecidableEq

/-- `ip_from_headers` (config/routes.rs:701-710). -/
def ipFromHeaders (headers : Headers) : String :=
  let first := (headers.get "x-forwarded-for").map fun s =>
    Text.trim (String.ofList (s.toList.takeWhile fun c => c != ','))
  (first.filter (· ≠ "")).getD "unknown"

/-- `user_agent_from_headers` (config/routes.rs:712-718). -/
def userAgentFromHeaders (headers : Headers) : String := (headers.get "user-agent").getD "unknown"

/-- What `save` and `rollback` leave in the audit log. -/
def auditRecord (action : String) (parameters : Json) (headers : Headers) : AuditRecord where
  action := action
  resourceType := "config"
  resourceId := "pmp"
  parametersRedacted := parameters
  result := "succeeded"
  errorCode := ""
  commandId := ""
  ip := ipFromHeaders headers
  userAgent := userAgentFromHeaders headers

/-- What was changed, for the audit log. -/
def changedPaths (values : Json) : Json :=
  .arr (((values.asObject.getD []).map (·.1)).map Json.str)

/-- The end of `save`, once the file is replaced (config/routes.rs:431-458). -/
def saveReload (headers : Headers) (body : ConfigValuesBody) (snapshotId : Uuid) : Handler Uuid := do
  let reloaded ← ask .reload
  let _ ← fromPmp reloaded
  let _ ← ask (.server (.recordPrincipal (auditRecord "config.save"
    (.obj [("changed_paths", changedPaths body.values),
      ("snapshot_id", .str snapshotId.toText)]) headers)))
  return snapshotId

/-- `save` from the merge on (config/routes.rs:421-458): `prev` was read. -/
def saveOver (x : Extern) (state : AdminState) (auth : AuthPrincipal) (headers : Headers)
    (body : ConfigValuesBody) (prev : String) : Handler Uuid := do
  let yaml ← ofExcept (mergeYamlPatch x prev body.values)
  let _ ← ofExcept (orInvalid "merged YAML invalid" (x.parse yaml))
  call state.app.requireDb
  let row ← ask (.insertSnapshot "pmp" prev ("pre-save: " ++ body.note) (some auth.sub))
  let row ← mapErr configDbErr row
  writeYamlAtomic state yaml
  saveReload headers body row.1

/-- What `save` checks before it reads the file (config/routes.rs:390-414). -/
def saveGuard (state : AdminState) (auth : AuthPrincipal) (headers : Headers)
    (body : ConfigValuesBody) : Handler Unit := do
  call (require state.app auth "config:reload")
  call (checkReauthHeader auth headers .critical)
  ofExcept (checkValues body.values)
  failIf (state.configured = false) notConfigured

/-- `save` (config/routes.rs:384-459); the answer is the id of the snapshot. -/
def save (x : Extern) (state : AdminState) (auth : AuthPrincipal) (headers : Headers)
    (body : ConfigValuesBody) : Handler Uuid := do
  saveGuard state auth headers body
  let prev ← readYaml state
  saveOver x state auth headers body prev

/-- `health_check` (config/routes.rs:601-606). -/
def healthCheck : Handler Json := do
  match ← ask .ping with
  | .ok () => return .obj [("status", .str "ok")]
  | .error e => return .obj [("error", .str e.toText), ("status", .str "unreachable")]

/-- `rollback` from the write on (config/routes.rs:564-596). -/
def restore (state : AdminState) (headers : Headers) (snapshot : ConfigSnapshot) :
    Handler (Uuid × Json) := do
  writeYamlAtomic state snapshot.content
  let reloaded ← ask .reload
  let _ ← fromPmp reloaded
  let restored ← ask (.markRestored snapshot.id)
  let _ ← mapErr configDbErr restored
  let health ← healthCheck
  let _ ← ask (.server (.recordPrincipal (auditRecord "config.rollback"
    (.obj [("snapshot_id", .str snapshot.id.toText)]) headers)))
  return (snapshot.id, health)

/-- `rollback` (config/routes.rs:548-597). -/
def rollback (state : AdminState) (auth : AuthPrincipal) (headers : Headers) (id : Uuid) :
    Handler (Uuid × Json) := do
  call (require state.app auth "config:rollback")
  call (checkReauthHeader auth headers .critical)
  call state.app.requireDb
  let row ← ask (.getSnapshot id)
  let row ← mapErr configDbErr row
  let snapshot ← ofOption (.new .configSnapshotNotFound "config snapshot not found") row
  failIf (snapshot.scope ≠ "pmp") (.new .configScopeInvalid "snapshot scope must be pmp")
  restore state headers snapshot

/-! ## The build configuration of the front end -/

/-- The keys that `validate_ppf_build_config` allows. -/
def ppfKeys : List String :=
  ["site_name", "site_description", "canonical_url", "analytics_provider", "plausible_domain",
    "ga_id", "search_verification_google", "search_verification_bing"]

/-- The check of the URL (config/routes.rs:686-691). -/
def checkCanonicalUrl (x : Extern) (fields : List (String × Json)) : Except ApiError Unit :=
  let url := (((Fields.get? fields "canonical_url").bind Json.asStr).map Text.trim).filter (· ≠ "")
  match url with
  | none => .ok ()
  | some url =>
    match x.urlScheme url with
    | none => .error (configError "canonical_url must be an absolute URL")
    | some scheme =>
      if scheme = "http" ∨ scheme = "https" then .ok ()
      else .error (configError "canonical_url must use http or https")

/-- `validate_ppf_build_config` (config/routes.rs:679-698). -/
def validatePpfBuildConfig (x : Extern) (content : Json) : Except ApiError Unit :=
  match content.asObject with
  | none => .error (configError "PPF build config must be an object")
  | some fields => do
    if fields.all (fun f => ppfKeys.contains f.1) = false then
      .error (configError "unsupported PPF build config key")
    else
      checkCanonicalUrl x fields
      match (Fields.get? fields "analytics_provider").bind Json.asStr with
      | none => .ok ()
      | some provider =>
        if provider = "" ∨ provider = "plausible" ∨ provider = "ga4" then .ok ()
        else .error (configError "analytics_provider must be plausible or ga4")

/-- `ppf_config_update` (config/routes.rs:667-677). -/
def ppfConfigUpdate (x : Extern) (state : AdminState) (auth : AuthPrincipal) (content : Json) :
    Handler Int64 := do
  call (require state.app auth "config:reload")
  ofExcept (validatePpfBuildConfig x content)
  call state.app.requireDb
  let revision ← ask (.putPpfConfig content (some auth.sub))
  mapErr configDbErr revision

end Ppb.Admin
