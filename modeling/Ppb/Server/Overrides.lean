import Ppb.Common.InPlace

/-!
# Overrides of the configuration (`config/mod.rs`)

At the start the configuration gets the overrides that are in the database. `merge_objects` goes
through the objects that are on both sides and puts the other values of the overrides in place;
keys that are not in the configuration are left out.

* `get?_mergeObjects`, `at?_mergeObjects`: what is where after the merge.
* `mergeValue_twice`: a second merge changes nothing.
* `overrides_merge`: both, and what overrides do that name nothing of the configuration.

Deviation: of the configuration only what `validate` reads has a field of its own.
-/

namespace Ppb.Config

/-! ## The code -/

/-- What `validate` reads of `CorsConfig`. -/
structure CorsConfig where
  credentials : Bool
  allowedOrigins : List String
  deriving DecidableEq, Repr

/-- What `validate` reads of `LegalConfig`. -/
structure LegalConfig where
  publicAuthEnabled : Bool
  termsVersion : String
  privacyVersion : String
  termsUrl : String
  privacyUrl : String
  deriving DecidableEq, Repr

/-- `RuntimeConfig` (config/mod.rs:18-34); `rest` is what `validate` does not read. -/
structure RuntimeConfig (Rest : Type) where
  cors : CorsConfig
  pmpAuthMode : String
  cookieSamesite : String
  legal : LegalConfig
  rest : Rest
  deriving DecidableEq, Repr

variable {Rest : Type}

/-- `anyhow::bail!` if a condition holds. -/
def bailIf (c : Bool) (message : String) : Except String Unit :=
  if c = true then .error message else .ok ()

/-- `value.starts_with(start)`. -/
def startsWith (value start : String) : Bool := start.toList.isPrefixOf value.toList

/-- A URL that the legal pages may have (config/mod.rs:380-386). -/
def isSafeUrl (value : String) : Bool :=
  startsWith value "/" && !startsWith value "//" && !value.toList.contains '\\' ||
    (startsWith value "https://" || startsWith value "http://localhost" ||
      startsWith value "http://127.0.0.1")

/-- The checks of the legal pages (config/mod.rs:365-388). -/
def LegalConfig.validate (legal : LegalConfig) : Except String Unit := do
  [("legal.terms_version", Text.trim legal.termsVersion),
    ("legal.privacy_version", Text.trim legal.privacyVersion),
    ("legal.terms_url", Text.trim legal.termsUrl),
    ("legal.privacy_url", Text.trim legal.privacyUrl)].forM fun (name, value) =>
      bailIf (value == "") (name ++ " is required when legal.public_auth_enabled=true")
  [("legal.terms_url", Text.trim legal.termsUrl),
    ("legal.privacy_url", Text.trim legal.privacyUrl)].forM fun (name, value) =>
      bailIf (!isSafeUrl value) (name ++ " must be HTTPS, localhost HTTP, or a safe relative path")

/-- `RuntimeConfig::validate` (config/mod.rs:354-390). -/
def RuntimeConfig.validate (config : RuntimeConfig Rest) : Except String Unit := do
  bailIf (config.cors.credentials && config.cors.allowedOrigins.any (· == "*"))
    "cors.credentials=true forbids '*' allowed_origins"
  bailIf (config.pmpAuthMode != "token" && config.pmpAuthMode != "approve")
    "pmp.auth_mode must be 'token' or 'approve'"
  bailIf (Text.toAsciiLowercase config.cookieSamesite ∉ ["lax", "strict", "none"])
    "session.cookie_samesite must be lax|strict|none"
  if config.legal.publicAuthEnabled = true then config.legal.validate

mutual

/-- One round of `merge_objects`, at a key that is in the base with the value `b`. -/
def mergeValue (b : Json) : Json → Json
  | .obj overrides =>
    match b with
    | .obj base => .obj (mergeObjects base overrides)
    | _ => .obj overrides
  | v => v

/-- `merge_objects` (config/mod.rs:407-419). -/
def mergeObjects (base : List (String × Json)) : List (String × Json) → List (String × Json)
  | [] => base
  | (k, v) :: overrides => mergeObjects (Fields.modify k (fun b => mergeValue b v) base) overrides

end

/-- `serde_json::to_value` and `serde_json::from_value` of the configuration; the errors are their
    texts. -/
structure ConfigSerde (Rest : Type) where
  toValue : RuntimeConfig Rest → Except String Json
  fromValue : Json → Except String (RuntimeConfig Rest)

/-- The `if let` of `apply_overrides` (config/mod.rs:398-400): only objects are merged. -/
def mergeOverrides : Json → Json → Json
  | .obj base, .obj overrides => .obj (mergeObjects base overrides)
  | cfg, _ => cfg

/-- `RuntimeConfig::apply_overrides` (config/mod.rs:396-404). -/
def applyOverrides (x : ConfigSerde Rest) (config : RuntimeConfig Rest) (overrides : Json) :
    Except String (RuntimeConfig Rest) := do
  let cfg ← x.toValue config
  let merged ← x.fromValue (mergeOverrides cfg overrides)
  merged.validate
  return merged

/-! ## The merge -/

variable {base overrides : List (String × Json)} {b v : Json} {key : String}

/-- Unless there is an object on both sides, the value of the overrides is put in place. -/
theorem mergeValue_of_not_obj (h : b.asObject = none ∨ v.asObject = none) : mergeValue b v = v := by
  cases v with
  | obj overrides =>
    cases b with
    | obj base => rcases h with h | h <;> cases h
    | null | bool b | num n | str s | arr items => rfl
  | null | bool b | num n | str s | arr items => rfl

theorem mergeValue_obj (base overrides : List (String × Json)) :
    mergeValue (.obj base) (.obj overrides) = .obj (mergeObjects base overrides) := rfl

/-- The keys are those of the base. -/
theorem keys_mergeObjects (base overrides : List (String × Json)) :
    (mergeObjects base overrides).map Prod.fst = base.map Prod.fst := by
  induction overrides generalizing base with
  | nil => rfl
  | cons head rest ih => rw [mergeObjects, ih, Fields.keys_modify]

/-- What is at a key after the merge. -/
theorem get?_mergeObjects (hnodup : (overrides.map Prod.fst).Nodup) (base : List (String × Json))
    (key : String) : Fields.get? (mergeObjects base overrides) key =
      match Fields.get? overrides key with
      | none => Fields.get? base key
      | some v => (Fields.get? base key).map fun b => mergeValue b v := by
  induction overrides generalizing base with
  | nil => rfl
  | cons head rest ih =>
    obtain ⟨k, v⟩ := head
    rw [List.map_cons, List.nodup_cons] at hnodup
    rw [mergeObjects, ih hnodup.2, Fields.get?_modify, Fields.get?_cons]
    by_cases hk : k = key
    · rw [if_pos hk, if_pos hk.symm, ← hk, Fields.get?_eq_none hnodup.1]
    · rw [if_neg hk, if_neg fun h => hk h.symm]

theorem get?_mergeObjects_of_none (hnodup : (overrides.map Prod.fst).Nodup)
    (h : Fields.get? overrides key = none) :
    Fields.get? (mergeObjects base overrides) key = Fields.get? base key := by
  rw [get?_mergeObjects hnodup, h]

theorem get?_mergeObjects_of_some (hnodup : (overrides.map Prod.fst).Nodup)
    (h : Fields.get? overrides key = some v) (hb : Fields.get? base key = some b) :
    Fields.get? (mergeObjects base overrides) key = some (mergeValue b v) := by
  rw [get?_mergeObjects hnodup, h, hb]
  rfl

/-! ### A second merge -/

mutual

/-- A value that is merged into itself stays. -/
theorem mergeValue_self : ∀ v : Json, v.Distinct → mergeValue v v = v
  | .obj fields, hv => by
    have hnodup := hv.nodup
    rw [mergeValue_obj]
    congr 1
    refine Fields.ext (keys_mergeObjects _ _) (by rwa [keys_mergeObjects]) fun key => ?_
    rw [get?_mergeObjects hnodup]
    cases hkey : Fields.get? fields key with
    | none => rfl
    | some v =>
      have hself := mergeFields_self fields hv.below _ (Fields.mem_of_get? hkey)
      exact congrArg some hself
  | .null, _ => rfl
  | .bool _, _ => rfl
  | .num _, _ => rfl
  | .str _, _ => rfl
  | .arr _, _ => rfl

theorem mergeFields_self : ∀ fields : List (String × Json), Json.DistinctFields fields →
    ∀ f ∈ fields, mergeValue f.2 f.2 = f.2
  | [], _ => nofun
  | (_, v) :: rest, hfields => by
    rw [Json.DistinctFields] at hfields
    rw [List.forall_mem_cons]
    exact ⟨mergeValue_self v hfields.1, mergeFields_self rest hfields.2⟩

end

/-- The second of two merges of the same fields changes nothing, if that is so at each key. -/
theorem mergeObjects_twice_of (hbase : (base.map Prod.fst).Nodup)
    (hnodup : (overrides.map Prod.fst).Nodup)
    (htwice : ∀ key b v, Fields.get? base key = some b → Fields.get? overrides key = some v →
      mergeValue (mergeValue b v) v = mergeValue b v) :
    mergeObjects (mergeObjects base overrides) overrides = mergeObjects base overrides := by
  refine Fields.ext (keys_mergeObjects _ _) ?_ fun key => ?_
  · rwa [keys_mergeObjects, keys_mergeObjects]
  · cases hv : Fields.get? overrides key with
    | none => rw [get?_mergeObjects_of_none hnodup hv]
    | some v =>
      rw [get?_mergeObjects hnodup, get?_mergeObjects hnodup, hv]
      cases hb : Fields.get? base key with
      | none => rfl
      | some b => exact congrArg some (htwice key b v hb hv)

mutual

/-- A second merge of a value changes nothing. -/
theorem mergeValue_twice : ∀ v : Json, v.Distinct → ∀ b : Json, b.Distinct →
    mergeValue (mergeValue b v) v = mergeValue b v
  | .obj overrides, hv, .obj base, hb => by
    rw [mergeValue_obj, mergeValue_obj]
    congr 1
    refine mergeObjects_twice_of hb.nodup hv.nodup fun key b v hbkey hvkey => ?_
    exact mergeFields_twice overrides hv.below _ (Fields.mem_of_get? hvkey) b (hb.field hbkey)
  -- the first merge has put an object in the place of another value
  | .obj overrides, hv, .null, _ => mergeValue_self _ hv
  | .obj overrides, hv, .bool _, _ => mergeValue_self _ hv
  | .obj overrides, hv, .num _, _ => mergeValue_self _ hv
  | .obj overrides, hv, .str _, _ => mergeValue_self _ hv
  | .obj overrides, hv, .arr _, _ => mergeValue_self _ hv
  | .null, _, _, _ => rfl
  | .bool _, _, _, _ => rfl
  | .num _, _, _, _ => rfl
  | .str _, _, _, _ => rfl
  | .arr _, _, _, _ => rfl

theorem mergeFields_twice : ∀ fields : List (String × Json), Json.DistinctFields fields →
    ∀ f ∈ fields, ∀ b : Json, b.Distinct → mergeValue (mergeValue b f.2) f.2 = mergeValue b f.2
  | [], _ => nofun
  | (_, v) :: rest, hfields => by
    rw [Json.DistinctFields] at hfields
    rw [List.forall_mem_cons]
    exact ⟨mergeValue_twice v hfields.1, mergeFields_twice rest hfields.2⟩

end

/-! ### Below the top -/

/-- Below objects on both sides the merge is that of the objects. -/
theorem at?_mergeObjects {path : List String} {base' overrides' : List (String × Json)}
    (hv : (Json.obj overrides).Distinct)
    (hbase : (Json.obj base).at? (Json.keys path) = some (.obj base'))
    (hoverrides : (Json.obj overrides).at? (Json.keys path) = some (.obj overrides')) :
    (Json.obj (mergeObjects base overrides)).at? (Json.keys path) =
      some (.obj (mergeObjects base' overrides')) ∧ (Json.obj overrides').Distinct := by
  induction path generalizing base overrides with
  | nil =>
    obtain rfl := Json.obj.inj (Option.some.inj hbase)
    obtain rfl := Json.obj.inj (Option.some.inj hoverrides)
    exact ⟨rfl, hv⟩
  | cons key rest ih =>
    rw [Json.at?_keys_cons] at hbase hoverrides
    obtain ⟨b, hb, hbrest⟩ := Option.bind_eq_some_iff.mp hbase
    obtain ⟨v, hvkey, hvrest⟩ := Option.bind_eq_some_iff.mp hoverrides
    obtain ⟨fields, rfl⟩ := Json.exists_obj_of_at?_keys hbrest
    obtain ⟨fields', rfl⟩ := Json.exists_obj_of_at?_keys hvrest
    obtain ⟨hmerged, hdistinct⟩ := ih (hv.field hvkey) hbrest hvrest
    refine ⟨?_, hdistinct⟩
    rw [Json.at?_keys_cons]
    show (Fields.get? (mergeObjects base overrides) key).bind _ = _
    rw [get?_mergeObjects_of_some hv.nodup hvkey hb, Option.bind_some, mergeValue_obj]
    exact hmerged

/-! ## What the merge does -/

/-- `result` has the keys of `base`, and at each of them the value of `overrides` if it has the key
    and there is not an object on both sides; without the key in `overrides`, the value of
    `base`. -/
structure Merged (base overrides result : List (String × Json)) : Prop where
  keys : result.map Prod.fst = base.map Prod.fst
  kept : ∀ key, Fields.get? overrides key = none → Fields.get? result key = Fields.get? base key
  replaced : ∀ key b v, Fields.get? base key = some b → Fields.get? overrides key = some v →
    b.asObject = none ∨ v.asObject = none → Fields.get? result key = some v

/-- `Merged`, at each path of keys that goes through objects on both sides. -/
def MergedAtPaths (base overrides result : List (String × Json)) : Prop :=
  ∀ path base' overrides', (Json.obj base).at? (Json.keys path) = some (.obj base') →
    (Json.obj overrides).at? (Json.keys path) = some (.obj overrides') →
    ∃ result', (Json.obj result).at? (Json.keys path) = some (.obj result') ∧
      Merged base' overrides' result'

mutual

/-- At a key with the value `b` there are only unknown keys in `v`. -/
def onlyUnknownValue (b : Json) : Json → Bool
  | .obj overrides =>
    match b with
    | .obj base => onlyUnknown base overrides
    | _ => false
  | _ => false

/-- No override has a place in `base`: its key is unknown there, or it is an object at the key of
    an object and has only such overrides itself. -/
def onlyUnknown (base : List (String × Json)) : List (String × Json) → Bool
  | [] => true
  | (k, v) :: overrides =>
    (match Fields.get? base k with
      | none => true
      | some b => onlyUnknownValue b v) && onlyUnknown base overrides

end

/-- `onlyUnknown`, of what `apply_overrides` has: it merges objects only. -/
def mentionsOnlyUnknown (cfg overrides : Json) : Bool :=
  match cfg, overrides with
  | .obj base, .obj overrides => onlyUnknown base overrides
  | _, _ => true

theorem merged_mergeObjects (hnodup : (overrides.map Prod.fst).Nodup) :
    Merged base overrides (mergeObjects base overrides) where
  keys := keys_mergeObjects base overrides
  kept _ h := get?_mergeObjects_of_none hnodup h
  replaced _ _ _ hb hv hobj := by
    rw [get?_mergeObjects_of_some hnodup hv hb, mergeValue_of_not_obj hobj]

theorem mergedAtPaths_mergeObjects (hv : (Json.obj overrides).Distinct) :
    MergedAtPaths base overrides (mergeObjects base overrides) := by
  intro path base' overrides' hbase hoverrides
  obtain ⟨hmerged, hdistinct⟩ := at?_mergeObjects hv hbase hoverrides
  exact ⟨_, hmerged, merged_mergeObjects hdistinct.nodup⟩

mutual

/-- Only unknown keys change no value. -/
theorem mergeValue_onlyUnknown : ∀ (v b : Json), onlyUnknownValue b v = true → mergeValue b v = b
  | .obj overrides, .obj base, h =>
    congrArg Json.obj (mergeObjects_onlyUnknown overrides base h)
  | .obj _, .null, h | .obj _, .bool _, h | .obj _, .num _, h | .obj _, .str _, h
  | .obj _, .arr _, h => nomatch h
  | .null, _, h | .bool _, _, h | .num _, _, h | .str _, _, h | .arr _, _, h => nomatch h

theorem mergeObjects_onlyUnknown : ∀ overrides base : List (String × Json),
    onlyUnknown base overrides = true → mergeObjects base overrides = base
  | [], _, _ => rfl
  | (k, v) :: rest, base, h => by
    rw [onlyUnknown, Bool.and_eq_true] at h
    have hhead : Fields.modify k (fun b => mergeValue b v) base = base := by
      refine Fields.modify_of_get? fun b hb => ?_
      have hvalue := h.1
      rw [hb] at hvalue
      exact mergeValue_onlyUnknown v b hvalue
    rw [mergeObjects, hhead]
    exact mergeObjects_onlyUnknown rest base h.2

end

theorem mergeOverrides_onlyUnknown {cfg overrides : Json}
    (h : mentionsOnlyUnknown cfg overrides = true) : mergeOverrides cfg overrides = cfg := by
  unfold mergeOverrides
  split
  · exact congrArg Json.obj (mergeObjects_onlyUnknown _ _ h)
  · rfl

/-- Overrides with only unknown keys leave a valid configuration as it is. -/
theorem applyOverrides_onlyUnknown {x : ConfigSerde Rest} {config : RuntimeConfig Rest}
    {cfg overrides : Json} (hto : x.toValue config = .ok cfg) (hof : x.fromValue cfg = .ok config)
    (hunknown : mentionsOnlyUnknown cfg overrides = true) (hvalid : config.validate = .ok ()) :
    applyOverrides x config overrides = .ok config := by
  unfold applyOverrides
  simp only [hto, bind, Except.bind]
  rw [mergeOverrides_onlyUnknown hunknown, hof]
  simp only [hvalid]
  rfl

/-- The merge keeps the keys of the base at each level and takes from the overrides what has a
    place there; a second merge changes nothing. So overrides with only unknown keys leave a valid
    configuration as it is, if it can be read back. -/
theorem overrides_merge :
    (∀ base overrides, (Json.obj overrides).Distinct →
      MergedAtPaths base overrides (mergeObjects base overrides)) ∧
    (∀ base overrides, (Json.obj base).Distinct → (Json.obj overrides).Distinct →
      mergeObjects (mergeObjects base overrides) overrides = mergeObjects base overrides) ∧
    ∀ (x : ConfigSerde Rest) (config : RuntimeConfig Rest) (cfg overrides : Json),
      x.toValue config = .ok cfg → x.fromValue cfg = .ok config →
      mentionsOnlyUnknown cfg overrides = true → config.validate = .ok () →
      applyOverrides x config overrides = .ok config := by
  refine ⟨fun _ _ hv => mergedAtPaths_mergeObjects hv, ?_, ?_⟩
  · intro base overrides hbase hoverrides
    have htwice := mergeValue_twice _ hoverrides _ hbase
    rw [mergeValue_obj, mergeValue_obj] at htwice
    exact Json.obj.inj htwice
  · intro x config cfg overrides hto hof hunknown hvalid
    exact applyOverrides_onlyUnknown hto hof hunknown hvalid

/-- `serde_json` for a configuration of the fields that `validate` reads; a value of another kind
    is an error. -/
def plainSerde : ConfigSerde Unit where
  toValue config := .ok (.obj [
    ("cors", .obj [("allowed_origins", .arr (config.cors.allowedOrigins.map .str)),
      ("credentials", .bool config.cors.credentials)]),
    ("legal", .obj [("privacy_url", .str config.legal.privacyUrl),
      ("privacy_version", .str config.legal.privacyVersion),
      ("public_auth_enabled", .bool config.legal.publicAuthEnabled),
      ("terms_url", .str config.legal.termsUrl),
      ("terms_version", .str config.legal.termsVersion)]),
    ("pmp", .obj [("auth_mode", .str config.pmpAuthMode)]),
    ("session", .obj [("cookie_samesite", .str config.cookieSamesite)])])
  fromValue v :=
    let field (table key : String) : Option Json := (v.get? table).bind fun t => t.get? key
    let config : Option (RuntimeConfig Unit) := do
      let credentials ← (field "cors" "credentials").bind Json.asBool
      let origins ← (field "cors" "allowed_origins").bind Json.asArray
      let allowedOrigins ← origins.mapM Json.asStr
      let pmpAuthMode ← (field "pmp" "auth_mode").bind Json.asStr
      let cookieSamesite ← (field "session" "cookie_samesite").bind Json.asStr
      let publicAuthEnabled ← (field "legal" "public_auth_enabled").bind Json.asBool
      let termsVersion ← (field "legal" "terms_version").bind Json.asStr
      let privacyVersion ← (field "legal" "privacy_version").bind Json.asStr
      let termsUrl ← (field "legal" "terms_url").bind Json.asStr
      let privacyUrl ← (field "legal" "privacy_url").bind Json.asStr
      return {
        cors := { credentials, allowedOrigins }
        pmpAuthMode, cookieSamesite
        legal := { publicAuthEnabled, termsVersion, privacyVersion, termsUrl, privacyUrl }
        rest := () }
    match config with
    | some config => .ok config
    | none => .error "invalid type"

def plainConfig : RuntimeConfig Unit where
  cors := { credentials := true, allowedOrigins := ["https://ppf.example"] }
  pmpAuthMode := "token"
  cookieSamesite := "Lax"
  legal := {
    publicAuthEnabled := true, termsVersion := "1", privacyVersion := "1"
    termsUrl := "/terms", privacyUrl := "/privacy" }
  rest := ()

/-- Two keys that the configuration lacks, one of them in a table of its own. -/
def unknownOverrides : Json :=
  .obj [("pmp", .obj [("mode", .str "approve")]), ("visits", .num (.posInt 3))]

def plainBase : List (String × Json) :=
  [("cors", .obj [("credentials", .bool true), ("mode", .null)]), ("pmp", .str "token")]

/-- An object for a text, a text for an unknown key, and a table of both. -/
def plainOverrides : List (String × Json) :=
  [("cors", .obj [("mode", .obj [("dev", .bool true)]), ("origins", .arr [])]),
    ("pmp", .obj [("auth_mode", .str "approve")]), ("site", .str "x")]

/-- `overrides_merge` at overrides that put objects where there were none, and at overrides with
    unknown keys only. -/
theorem overrides_merge_plain :
    mergeObjects plainBase plainOverrides =
      [("cors", .obj [("credentials", .bool true), ("mode", .obj [("dev", .bool true)])]),
        ("pmp", .obj [("auth_mode", .str "approve")])] ∧
    MergedAtPaths plainBase plainOverrides (mergeObjects plainBase plainOverrides) ∧
    mergeObjects (mergeObjects plainBase plainOverrides) plainOverrides =
      mergeObjects plainBase plainOverrides ∧
    applyOverrides plainSerde plainConfig unknownOverrides = .ok plainConfig := by
  have hbase : (Json.obj plainBase).Distinct := by
    simp [plainBase, Json.Distinct, Json.DistinctFields]
  have hoverrides : (Json.obj plainOverrides).Distinct := by
    simp [plainOverrides, Json.Distinct, Json.DistinctFields, Json.DistinctItems]
  obtain ⟨hmerged, htwice, happly⟩ := @overrides_merge Unit
  refine ⟨by decide +kernel, hmerged _ _ hoverrides, htwice _ _ hbase hoverrides, ?_⟩
  exact happly plainSerde plainConfig _ _ rfl (by decide +kernel) (by decide +kernel)
    (by decide +kernel)

end Ppb.Config
