import Ppb.Common.Yaml
import Ppb.Server.Error
import Ppb.Server.Types

/-!
# The form descriptor and the merge (`config/pmp.rs`, `config/routes.rs`)

PPB edits `server_config.yml` of PMP through a descriptor: a list of fields, each with its path
in the file, its type, whether it is a secret, and the permission that guards it. A save patches
the fields that were submitted into the file and leaves everything else.

* `getPath_setYamlPath_self`, `getPath_setYamlPath_of_apart`: what `set_yaml_path` changes.
* `getPath_mergeInto`: what a field is after the merge.

Deviation: the texts for the Panel (`label`, `description`, `risk`, `order` and the groups) are
left out; nothing here reads them.
-/

namespace Ppb.Admin

/-- What other packages compute: `serde_yaml::from_str`, `serde_yaml::to_string` (the errors are
    their texts), `serde_yaml::from_value::<serde_json::Value>`, the text of an unsigned number
    as `f64`, what `serde_json` reads of the text of a float (without its feature `float_roundtrip`
    that may be the float next to it, or an overflow), the scheme of an absolute URL
    (`reqwest::Url::parse`), and `Uuid::parse_str`, which reads more than the form that
    `to_string` writes. -/
structure Extern where
  parse : String → Except String Yaml
  render : Yaml → Except String String
  fromValue : Yaml → Option Json
  asF64 : UInt64 → String
  readFloat : String → Option String
  urlScheme : String → Option String
  parseUuid : String → Option Uuid

/-! ## Descriptor -/

/-- The wire type of a field; lists are edited as strings. -/
inductive FieldType where
  | boolean | number | string
  deriving DecidableEq, Repr

def FieldType.toText : FieldType → String
  | .boolean => "boolean"
  | .number => "number"
  | .string => "string"

inductive Widget where
  | switch | text | number
  deriving DecidableEq, Repr

/-- Whether PMP takes a change at a reload or only at a restart. -/
inductive ReloadSemantics where
  | hot | restart
  deriving DecidableEq, Repr

/-- `ConfigFieldDescriptor` (config/pmp.rs:17-36). -/
structure ConfigFieldDescriptor where
  path : String
  type : FieldType
  permission : String
  reloadSemantics : ReloadSemantics
  sensitive : Bool
  deriving DecidableEq, Repr

/-- `field!` (config/pmp.rs:46-68). -/
def field (path : String) (widget : Widget) (reload : ReloadSemantics) (sensitive : Bool) :
    ConfigFieldDescriptor where
  path := path
  type :=
    match widget with
    | .switch => .boolean
    | .number => .number
    | .text => .string
  permission := if reload = .hot then "config:reload" else "config:rollback"
  reloadSemantics := reload
  sensitive := sensitive

/-- `pmp_config_descriptor` (config/pmp.rs:71-94). -/
def pmpConfigDescriptor : List ConfigFieldDescriptor :=
  [field "server_name" .text .hot false,
    field "welcome" .text .hot false,
    field "chat_enabled" .switch .hot false,
    field "chat_history_limit" .number .hot false,
    field "port" .number .restart false,
    field "http_port" .number .restart false,
    field "max_rooms" .number .restart false,
    field "max_users_per_room" .number .restart false,
    field "room_creation_enabled" .switch .hot false,
    field "ready_countdown_secs" .number .hot false,
    field "max_sessions" .number .restart false,
    field "graceful_shutdown_timeout_secs" .number .restart false,
    field "log_retention_days" .number .restart false,
    field "phira_api_endpoint" .text .restart false,
    field "database_url" .text .restart true,
    field "admin_phira_ids" .text .hot false,
    field "filtered_player_ids" .text .hot false,
    field "openuds.enabled" .switch .restart false,
    field "openuds.socket_path" .text .restart false,
    field "openuds.auth_token" .text .restart true]

/-- `path.split('.')`. -/
def ConfigFieldDescriptor.parts (f : ConfigFieldDescriptor) : List String :=
  (f.path.toList.splitOn '.').map String.ofList

/-- Neither path goes through the other. -/
def Apart (p q : List String) : Prop := ¬ p <+: q ∧ ¬ q <+: p

instance (p q : List String) : Decidable (Apart p q) :=
  inferInstanceAs (Decidable (¬ p <+: q ∧ ¬ q <+: p))

theorem Apart.symm {p q : List String} (h : Apart p q) : Apart q p := ⟨h.2, h.1⟩

/-- No field lies inside another. -/
theorem descriptor_apart :
    pmpConfigDescriptor.Pairwise fun f g => Apart f.parts g.parts := by decide +kernel

theorem descriptor_permission {f : ConfigFieldDescriptor} (hf : f ∈ pmpConfigDescriptor) :
    f.permission = if f.reloadSemantics = .hot then "config:reload" else "config:rollback" := by
  revert f
  decide

/-! ## The merge -/

/-- The errors of a configuration that cannot be saved. -/
def configError (message : String) : ApiError := .new .configValidationFailed message

/-- The placeholder of a secret that is to stay as it is (config/routes.rs:205-211). -/
def isSentinel (f : ConfigFieldDescriptor) (v : Json) : Bool :=
  f.sensitive &&
    (v.asStr.map fun s => Text.toAsciiLowercase s == Text.toAsciiLowercase "[REDACTED]").getD false

variable (x : Extern)

mutual

/-- `json_to_yaml` (config/routes.rs:241-263). -/
def jsonToYaml : Json → Yaml
  | .null => .null
  | .bool b => .bool b
  | .num n =>
    match (Json.num n).asI64 with
    | some i => .num (if 0 ≤ i.toInt then .posInt i.toUInt64 else .negInt i)
    | none =>
      match n with
      | .posInt n => .num (.float (x.asF64 n))
      | n => .num n
  | .str s => .str s
  | .arr items => .seq (jsonToYamlItems items)
  | .obj fields => .map (jsonToYamlFields fields)

def jsonToYamlItems : List Json → List Yaml
  | [] => []
  | v :: vs => jsonToYaml v :: jsonToYamlItems vs

def jsonToYamlFields : List (String × Json) → List (Yaml × Yaml)
  | [] => []
  | (k, v) :: fs => (.str k, jsonToYaml v) :: jsonToYamlFields fs

end

/-- `set_yaml_path` (config/routes.rs:219-239), with the value as YAML. It does not look through
    tags. -/
def setYamlPath (value : Yaml) : List String → Yaml → Except ApiError Yaml
  | [], root => .ok root
  | key :: rest, .map fields =>
    match rest with
    | [] => .ok (.map (Yaml.Mapping.insert key value fields))
    | _ :: _ => do
      let child ← setYamlPath value rest ((Yaml.Mapping.get? fields key).getD (.map []))
      return .map (Yaml.Mapping.insert key child fields)
  | _ :: _, _ => .error (configError "existing config segment is not a mapping")

/-- What a field is set to: nothing if it was not submitted, or as the placeholder. -/
def ConfigFieldDescriptor.submitted (f : ConfigFieldDescriptor) (values : List (String × Json)) :
    Option Json :=
  (Fields.get? values f.path).filter fun v => !isSentinel f v

/-- One round of the loop of `merge_yaml_patch`. -/
def patchField (values : List (String × Json)) (root : Yaml) (f : ConfigFieldDescriptor) :
    Except ApiError Yaml :=
  match f.submitted values with
  | some v => setYamlPath (jsonToYaml x v) f.parts root
  | none => .ok root

/-- The loop of `merge_yaml_patch` (config/routes.rs:201-214). -/
def mergeInto (values : List (String × Json)) (root : Yaml) : Except ApiError Yaml :=
  pmpConfigDescriptor.foldlM (patchField x values) root

/-- `.map_err(..)?` of a text error. -/
def orInvalid {α : Type} (what : String) : Except String α → Except ApiError α
  | .ok a => .ok a
  | .error e => .error (configError (what ++ ": " ++ e))

/-- `merge_yaml_patch` (config/routes.rs:195-217). -/
def mergeYamlPatch (current : String) (values : Json) : Except ApiError String := do
  let root ← orInvalid "existing config is not valid YAML" (x.parse current)
  match values.asObject with
  | none => .error (configError "values must be an object")
  | some values =>
    let root ← mergeInto x values root
    orInvalid "yaml serialize failed" (x.render root)

/-- `PmpConfigManager::field_value` (config/pmp.rs:188-195). -/
def fieldValue (yaml : String) (f : ConfigFieldDescriptor) : Option Yaml :=
  match x.parse yaml with
  | .ok root => root.getPath f.parts
  | .error _ => none

/-! ## What the merge does -/

variable {x} {value root root' : Yaml} {path other : List String}

theorem getPath_map (fields : List (Yaml × Yaml)) (key : String) (rest : List String) :
    (Yaml.map fields).getPath (key :: rest) =
      (Yaml.Mapping.get? fields key).bind (·.getPath rest) := Yaml.getPath_cons _ _ _

theorem except_bind_eq_ok {ε α β : Type} {r : Except ε α} {k : α → Except ε β} {b : β} :
    (r >>= k) = .ok b ↔ ∃ a, r = .ok a ∧ k a = .ok b := by
  cases r with
  | ok a => exact ⟨fun h => ⟨a, rfl, h⟩, fun ⟨a', ha, h⟩ => Except.ok.inj ha ▸ h⟩
  | error e => exact ⟨nofun, fun ⟨_, ha, _⟩ => nomatch ha⟩

/-- `set_yaml_path` goes down through mappings. -/
theorem setYamlPath_cases {key : String} {rest : List String}
    (h : setYamlPath value (key :: rest) root = .ok root') :
    ∃ fields child, root = .map fields ∧ root' = .map (Yaml.Mapping.insert key child fields) ∧
      (rest = [] ∧ child = value ∨ rest ≠ [] ∧
        setYamlPath value rest ((Yaml.Mapping.get? fields key).getD (.map [])) = .ok child) := by
  cases root with
  | map fields =>
    cases rest with
    | nil => exact ⟨fields, value, rfl, (Except.ok.inj h).symm, .inl ⟨rfl, rfl⟩⟩
    | cons key' rest' =>
      simp only [setYamlPath] at h
      cases hchild : setYamlPath value (key' :: rest')
          ((Yaml.Mapping.get? fields key).getD (.map [])) with
      | error e => rw [hchild] at h; cases h
      | ok child =>
        rw [hchild] at h
        exact ⟨fields, child, rfl, (Except.ok.inj h).symm, .inr ⟨by simp, hchild⟩⟩
  | null | bool b | num n | str s | seq items | tagged tag value => cases h

/-- What was set is found. -/
theorem getPath_setYamlPath_self :
    ∀ {path : List String}, path ≠ [] → ∀ {root root' : Yaml},
      setYamlPath value path root = .ok root' → root'.getPath path = some value := by
  intro path
  induction path with
  | nil => exact fun hne => absurd rfl hne
  | cons key rest ih =>
    intro _ root root' h
    obtain ⟨fields, child, rfl, rfl, hchild⟩ := setYamlPath_cases h
    rw [getPath_map, Yaml.Mapping.get?_insert_self, Option.bind_some]
    rcases hchild with ⟨rfl, rfl⟩ | ⟨hrest, hchild⟩
    · exact Yaml.getPath_nil _
    · exact ih hrest hchild

/-- What lies elsewhere stays. -/
theorem getPath_setYamlPath_of_apart :
    ∀ {path other : List String}, Apart path other → ∀ {root root' : Yaml},
      setYamlPath value path root = .ok root' → root'.getPath other = root.getPath other := by
  intro path
  induction path with
  | nil => exact fun hapart => absurd List.nil_prefix hapart.1
  | cons key rest ih =>
    intro other hapart root root' h
    obtain ⟨fields, child, rfl, rfl, hchild⟩ := setYamlPath_cases h
    cases other with
    | nil => exact absurd List.nil_prefix hapart.2
    | cons key' rest' =>
      rw [getPath_map, getPath_map]
      by_cases hkey : key' = key
      · subst hkey
        rw [Apart, List.prefix_cons_inj, List.prefix_cons_inj] at hapart
        rw [Yaml.Mapping.get?_insert_self, Option.bind_some]
        rcases hchild with ⟨rfl, -⟩ | ⟨-, hchild⟩
        · exact absurd List.nil_prefix hapart.1
        · rw [ih hapart hchild]
          cases Yaml.Mapping.get? fields key' with
          | some v => rfl
          | none =>
            -- an empty mapping was inserted on the way
            cases rest' with
            | nil => exact absurd List.nil_prefix hapart.2
            | cons key rest => rfl
      · rw [Yaml.Mapping.get?_insert_of_ne hkey]

/-- Whatever the order of the fields is, each is set once. -/
theorem getPath_foldlM_patchField {values : List (String × Json)} :
    ∀ {fields : List ConfigFieldDescriptor},
      fields.Pairwise (fun f g => Apart f.parts g.parts) → (∀ f ∈ fields, f.parts ≠ []) →
      ∀ {root root' : Yaml}, fields.foldlM (patchField x values) root = .ok root' →
        (∀ f ∈ fields, root'.getPath f.parts =
          match f.submitted values with
          | some v => some (jsonToYaml x v)
          | none => root.getPath f.parts) ∧
        ∀ path, (∀ f ∈ fields, Apart f.parts path) → root'.getPath path = root.getPath path := by
  intro fields
  induction fields with
  | nil =>
    intro _ _ root root' h
    obtain rfl := Except.ok.inj h
    exact ⟨nofun, fun _ _ => rfl⟩
  | cons f rest ih =>
    intro hpair hne root root' h
    rw [List.pairwise_cons] at hpair
    rw [List.forall_mem_cons] at hne
    rw [List.foldlM_cons] at h
    cases hfirst : patchField x values root f with
    | error e => rw [hfirst] at h; cases h
    | ok root₁ =>
      rw [hfirst] at h
      obtain ⟨hfields, hothers⟩ := ih hpair.2 hne.2 h
      have hstays : ∀ path, Apart f.parts path → root₁.getPath path = root.getPath path := by
        intro path hpath
        unfold patchField at hfirst
        split at hfirst
        · exact getPath_setYamlPath_of_apart hpath hfirst
        · rw [Except.ok.inj hfirst]
      refine ⟨?_, fun path hpath => ?_⟩
      · intro g hg
        rcases List.mem_cons.mp hg with rfl | hg
        · rw [hothers g.parts fun k hk => (hpair.1 k hk).symm]
          unfold patchField at hfirst
          split at hfirst
          · exact getPath_setYamlPath_self hne.1 hfirst
          · rw [Except.ok.inj hfirst]
        · rw [hfields g hg, hstays g.parts (hpair.1 g hg)]
      · rw [List.forall_mem_cons] at hpath
        rw [hothers path hpath.2, hstays path hpath.1]

theorem descriptor_parts_ne {f : ConfigFieldDescriptor} (hf : f ∈ pmpConfigDescriptor) :
    f.parts ≠ [] := by
  revert f
  decide +kernel

/-- A field that was submitted has its new value after the merge, and any other has its own. -/
theorem getPath_mergeInto {values : List (String × Json)} (h : mergeInto x values root = .ok root')
    {f : ConfigFieldDescriptor} (hf : f ∈ pmpConfigDescriptor) :
    root'.getPath f.parts =
      match f.submitted values with
      | some v => some (jsonToYaml x v)
      | none => root.getPath f.parts :=
  (getPath_foldlM_patchField descriptor_apart (fun _ => descriptor_parts_ne) h).1 f hf

/-- What lies apart from the submitted fields is as it was, known to the descriptor or not. -/
theorem getPath_mergeInto_of_apart {values : List (String × Json)} {path : List String}
    (h : mergeInto x values root = .ok root')
    (hapart : ∀ f ∈ pmpConfigDescriptor, (f.submitted values).isSome = true → Apart f.parts path) :
    root'.getPath path = root.getPath path := by
  unfold mergeInto at h
  generalize pmpConfigDescriptor = fields at h hapart
  induction fields generalizing root with
  | nil => rw [Except.ok.inj h]
  | cons f rest ih =>
    rw [List.forall_mem_cons] at hapart
    rw [List.foldlM_cons] at h
    obtain ⟨root₁, hfirst, hrest⟩ := except_bind_eq_ok.mp h
    rw [ih hrest hapart.2]
    unfold patchField at hfirst
    split at hfirst
    · rename_i v hv
      exact getPath_setYamlPath_of_apart (hapart.1 (by rw [hv]; rfl)) hfirst
    · rw [Except.ok.inj hfirst]

end Ppb.Admin
