import Ppb.Admin.MergeLaw
import Ppb.Admin.Secrets

/-!
# Saving a form that was not edited

`values` shows every field of the descriptor, a missing one as `null` and a secret as the
placeholder. The Panel submits what it was shown, and the server reads the text of it.

* `setYamlPath_self`: setting what is there changes nothing, if the way goes through mappings.
* `reread_toJson_iff`: which values come back from JSON.
* `saves_nothing_iff`: the files for which the form as it was shown changes nothing.
-/

namespace Ppb.Admin

open Prog Auth Shared

/-! ## The code -/

/-- `ConfigDiffChange` (config/routes.rs:153-157). -/
structure ConfigDiffChange where
  path : String
  old : Json
  new : Json
  deriving DecidableEq

/-- One round of the loop of `diff` (config/routes.rs:352-366). -/
def diffField (x : Extern) (current proposed : String) (f : ConfigFieldDescriptor) :
    Option ConfigDiffChange :=
  let a := (fieldValue x current f).map (toJson x)
  let b := (fieldValue x proposed f).map (toJson x)
  if a = b then none
  else if f.sensitive = true then some ⟨f.path, redacted, redacted⟩
  else some ⟨f.path, a.getD .null, b.getD .null⟩

/-- `diff` (config/routes.rs:341-368). -/
def diff (x : Extern) (state : AdminState) (auth : AuthPrincipal) (body : ConfigValuesBody) :
    Handler (List ConfigDiffChange) := do
  call (require state.app auth "config:view")
  let current ← readYaml state
  let proposed ← ofExcept (mergeYamlPatch x current body.values)
  return pmpConfigDescriptor.filterMap (diffField x current proposed)

variable (x : Extern)

mutual

/-- What `serde_json::from_str` makes of the text that `to_string` writes: every number but a float
    is written exactly and read exactly. The keys of an object differ, in whatever order they are
    written. -/
def reread : Json → Option Json
  | .num (.float text) => (x.readFloat text).map fun text => .num (.float text)
  | .arr items => (rereadItems items).map .arr
  | .obj fields => (rereadFields fields).map .obj
  | v => some v

def rereadItems : List Json → Option (List Json)
  | [] => some []
  | v :: vs => (reread v).bind fun v => (rereadItems vs).map (v :: ·)

def rereadFields : List (String × Json) → Option (List (String × Json))
  | [] => some []
  | (k, v) :: rest => (reread v).bind fun v => (rereadFields rest).map (Fields.insert k v)

end

/-! ## Values that come back -/

/-- The float is neither infinite nor a NaN. -/
def isFinite (text : String) : Bool := text ∉ [".nan", ".inf", "-.inf"]

/-- What `serde_json` takes of a number. -/
def numberToJson : Number → Json
  | .float text => if isFinite text = true then .num (.float text) else .null
  | n => .num n

def isScalar : Yaml → Bool
  | .bool _ | .num _ | .str _ => true
  | _ => false

/-- `serde_yaml::from_value::<Value>` of plain values. -/
structure Extern.ReadsPlain (x : Extern) : Prop where
  bool : ∀ b, x.fromValue (.bool b) = some (.bool b)
  str : ∀ s, x.fromValue (.str s) = some (.str s)
  num : ∀ n, x.fromValue (.num n) = some (numberToJson n)
  seq : ∀ items, (∀ y ∈ items, isScalar y = true) →
    x.fromValue (.seq items) = some (.arr (items.map (toJson x)))

/-- A value of the file has the type of a field; lists are edited as strings. -/
def hasYamlType : FieldType → Yaml → Bool
  | .boolean, .bool _ => true
  | .number, .num _ => true
  | .string, .str _ => true
  | .string, .seq items => items.all isScalar
  | _, _ => false

/-- An integer of 64 bits with a sign, or a finite float whose text is read back as it is. -/
def keptNumber : Number → Bool
  | .posInt n => decide (n.toNat < 2 ^ 63)
  | .negInt i => decide (i.toInt < 0)
  | .float text => isFinite text && x.readFloat text == some text

def keptScalar : Yaml → Bool
  | .num n => keptNumber x n
  | _ => true

/-- The numbers of the value are kept. -/
def kept : Yaml → Bool
  | .seq items => items.all (keptScalar x)
  | y => keptScalar x y

variable {x}

theorem toJson_num (hx : x.ReadsPlain) (n : Number) : toJson x (.num n) = numberToJson n := by
  rw [toJson, hx.num, Option.getD_some]

/-- A small unsigned number is the same with a sign. -/
theorem toInt_toInt64 {n : UInt64} (hn : n.toNat < 2 ^ 63) : n.toInt64.toInt = n.toNat := by
  show n.toBitVec.toInt = n.toNat
  exact BitVec.toInt_eq_toNat_of_lt (by show 2 * n.toNat < 2 ^ 64; omega)

theorem reread_numberToJson (n : Number) :
    (reread x (numberToJson n)).map (jsonToYaml x) = some (.num n) ↔ keptNumber x n = true := by
  cases n with
  | posInt n =>
    simp only [numberToJson, reread, Option.map_some, jsonToYaml, Json.asI64, keptNumber,
      decide_eq_true_eq]
    by_cases hn : n.toNat < 2 ^ 63
    · have hpos : 0 ≤ n.toInt64.toInt := by
        rw [toInt_toInt64 hn]
        omega
      rw [if_pos hn]
      simp [hpos]
      omega
    · rw [if_neg hn]
      simp
      omega
  | negInt i =>
    simp only [numberToJson, reread, Option.map_some, jsonToYaml, Json.asI64, keptNumber,
      decide_eq_true_eq]
    split_ifs with hi
    · simp
      omega
    · simp
      omega
  | float text =>
    simp only [numberToJson, keptNumber]
    split_ifs with h
    · simp [reread, jsonToYaml, Json.asI64, h]
    · simp [reread, jsonToYaml, h]

theorem reread_toJson_scalar (hx : x.ReadsPlain) {y : Yaml} (hy : isScalar y = true) :
    (reread x (toJson x y)).map (jsonToYaml x) = some y ↔ keptScalar x y = true := by
  cases y with
  | bool b => simp [toJson, hx.bool, reread, jsonToYaml, keptScalar]
  | num n => rw [toJson_num hx, reread_numberToJson, keptScalar]
  | str s => simp [toJson, hx.str, reread, jsonToYaml, keptScalar]
  | null | seq items | map fields | tagged tag value => cases hy

/-- A list comes back if each of its values does. -/
theorem rereadItems_toJson (hx : x.ReadsPlain) {items : List Yaml}
    (hitems : ∀ y ∈ items, isScalar y = true) :
    (rereadItems x (items.map (toJson x))).map (jsonToYamlItems x) = some items ↔
      items.all (keptScalar x) = true := by
  induction items with
  | nil => exact iff_of_true rfl rfl
  | cons y rest ih =>
    rw [List.forall_mem_cons] at hitems
    rw [List.map_cons, rereadItems, List.all_cons, Bool.and_eq_true, ← ih hitems.2,
      ← reread_toJson_scalar hx hitems.1]
    cases reread x (toJson x y) with
    | none => simp
    | some v =>
      cases rereadItems x (rest.map (toJson x)) with
      | none => simp
      | some vs => simp [jsonToYamlItems]

/-- Which values of the type of a field come back. -/
theorem reread_toJson_iff (hx : x.ReadsPlain) {type : FieldType} {y : Yaml}
    (hy : hasYamlType type y = true) :
    (reread x (toJson x y)).map (jsonToYaml x) = some y ↔ kept x y = true := by
  cases y with
  | bool b => exact reread_toJson_scalar hx rfl
  | num n => exact reread_toJson_scalar hx rfl
  | str s => exact reread_toJson_scalar hx rfl
  | seq items =>
    have hitems : ∀ y ∈ items, isScalar y = true := by
      cases type with
      | string => exact List.all_eq_true.mp hy
      | boolean | number => cases hy
    rw [toJson, hx.seq items hitems, Option.getD_some, kept, ← rereadItems_toJson hx hitems,
      reread]
    cases rereadItems x (items.map (toJson x)) with
    | none => simp
    | some vs => simp [jsonToYaml]
  | null | map fields | tagged tag value => cases type <;> cases hy

variable {v v' : Json} {submitted : List (String × Json)}

/-- A text is read as it is. -/
theorem asStr_reread (h : reread x v = some v') : v'.asStr = v.asStr := by
  cases v with
  | num n =>
    cases n with
    | float text =>
      obtain ⟨text', -, rfl⟩ := Option.map_eq_some_iff.mp h
      rfl
    | posInt n | negInt i => rw [← Option.some.inj h]
  | arr items =>
    obtain ⟨items', -, rfl⟩ := Option.map_eq_some_iff.mp h
    rfl
  | obj fields =>
    obtain ⟨fields', -, rfl⟩ := Option.map_eq_some_iff.mp h
    rfl
  | null | bool b | str s => rw [← Option.some.inj h]

theorem isSentinel_reread (f : ConfigFieldDescriptor) (h : reread x v = some v') :
    isSentinel f v' = isSentinel f v := by
  rw [isSentinel, asStr_reread h, isSentinel]

/-- Each field of the object is read on its own. -/
theorem get?_rereadFields {fields : List (String × Json)} {key : String}
    (hread : rereadFields x fields = some submitted) (hget : Fields.get? fields key = some v) :
    ∃ v', reread x v = some v' ∧ Fields.get? submitted key = some v' := by
  induction fields generalizing submitted with
  | nil => cases hget
  | cons field rest ih =>
    obtain ⟨k, w⟩ := field
    obtain ⟨w', hw, hrest⟩ := Option.bind_eq_some_iff.mp hread
    obtain ⟨rest', hrest', rfl⟩ := Option.map_eq_some_iff.mp hrest
    rw [Fields.get?_cons] at hget
    by_cases hkey : k = key
    · rw [if_pos hkey] at hget
      obtain rfl := Option.some.inj hget
      exact ⟨w', hw, hkey ▸ Fields.get?_insert_self k w' rest'⟩
    · rw [if_neg hkey] at hget
      obtain ⟨v', hv', hfound⟩ := ih hrest' hget
      exact ⟨v', hv', (Fields.get?_insert_of_ne (Ne.symm hkey) w' rest').trans hfound⟩

/-- An object is read if each of its fields is. -/
theorem exists_rereadFields {fields : List (String × Json)}
    (h : ∀ field ∈ fields, ∃ v', reread x field.2 = some v') :
    ∃ submitted, rereadFields x fields = some submitted := by
  induction fields with
  | nil => exact ⟨[], rfl⟩
  | cons field rest ih =>
    rw [List.forall_mem_cons] at h
    obtain ⟨v', hv'⟩ := h.1
    obtain ⟨rest', hrest'⟩ := ih h.2
    exact ⟨Fields.insert field.1 v' rest', by simp [rereadFields, hv', hrest']⟩

/-- What comes back has the wire type. -/
theorem hasType_reread_toJson (hx : x.ReadsPlain) {type : FieldType} {y : Yaml}
    (hy : hasYamlType type y = true) (hkept : kept x y = true)
    (hv : reread x (toJson x y) = some v) : hasType type v = true := by
  cases type with
  | string => rfl
  | boolean =>
    cases y with
    | bool b =>
      rw [toJson, hx.bool] at hv
      rw [← Option.some.inj hv]
      rfl
    | null | num n | str s | seq items | map fields | tagged tag value => cases hy
  | number =>
    cases y with
    | num n =>
      rw [toJson_num hx] at hv
      cases n with
      | posInt n | negInt i =>
        rw [← Option.some.inj hv]
        rfl
      | float text =>
        obtain ⟨hfinite, -⟩ := Bool.and_eq_true_iff.mp hkept
        rw [numberToJson, if_pos hfinite] at hv
        obtain ⟨text', -, rfl⟩ := Option.map_eq_some_iff.mp hv
        rfl
    | null | bool b | str s | seq items | map fields | tagged tag value => cases hy

/-! ## Setting what is there -/

/-- The value at a path through mappings without tags. -/
def plainAt : Yaml → List String → Option Yaml
  | y, [] => some y
  | .map fields, key :: rest =>
    (Yaml.Mapping.get? fields key).bind fun child => plainAt child rest
  | _, _ :: _ => none

variable {root root' value : Yaml} {path : List String}

theorem getPath_of_plainAt (h : plainAt root path = some value) :
    root.getPath path = some value := by
  induction path generalizing root with
  | nil =>
    rw [Yaml.getPath_nil]
    cases root <;> exact h
  | cons key rest ih =>
    cases root with
    | map fields =>
      obtain ⟨child, hchild, hrest⟩ := Option.bind_eq_some_iff.mp h
      rw [getPath_map, hchild]
      exact ih hrest
    | null | bool b | num n | str s | seq items | tagged tag value => cases h

/-- Setting what is there changes nothing. -/
theorem setYamlPath_self (hpath : path ≠ []) (h : plainAt root path = some value) :
    setYamlPath value path root = .ok root := by
  induction path generalizing root with
  | nil => exact absurd rfl hpath
  | cons key rest ih =>
    cases root with
    | map fields =>
      obtain ⟨child, hchild, hrest⟩ := Option.bind_eq_some_iff.mp h
      cases rest with
      | nil =>
        have hvalue : child = value := by cases child <;> exact Option.some.inj hrest
        rw [setYamlPath, Yaml.Mapping.insert_of_get? (hvalue ▸ hchild)]
      | cons key' rest' =>
        rw [setYamlPath, hchild, Option.getD_some, ih (by simp) hrest]
        show Except.ok (Yaml.map (Yaml.Mapping.insert key child fields)) = _
        rw [Yaml.Mapping.insert_of_get? hchild]
    | null | bool b | num n | str s | seq items | tagged tag value => cases h

/-- What could be set and was there, was there without tags. -/
theorem plainAt_of_setYamlPath (hset : setYamlPath value path root = .ok root')
    (h : root.getPath path = some value) : plainAt root path = some value := by
  induction path generalizing root root' with
  | nil =>
    rw [Yaml.getPath_nil] at h
    cases root <;> exact h
  | cons key rest ih =>
    obtain ⟨fields, child, rfl, rfl, hchild⟩ := setYamlPath_cases hset
    rw [getPath_map] at h
    obtain ⟨old, hold, hrest⟩ := Option.bind_eq_some_iff.mp h
    rw [plainAt, hold, Option.bind_some]
    rcases hchild with ⟨rfl, rfl⟩ | ⟨-, hset'⟩
    · rw [Yaml.getPath_nil] at hrest
      cases old <;> exact hrest
    · rw [hold, Option.getD_some] at hset'
      exact ih hset' hrest

/-! ## Submitting what is there -/

variable {patch : List (String × Json)} {fields : List ConfigFieldDescriptor}

/-- The loop of the merge leaves a document alone that has the submitted values. -/
theorem foldlM_patchField_self (hne : ∀ f ∈ fields, f.parts ≠ [])
    (h : ∀ f ∈ fields, ∀ v, f.submitted patch = some v →
      plainAt root f.parts = some (jsonToYaml x v)) :
    fields.foldlM (patchField x patch) root = .ok root := by
  induction fields with
  | nil => rfl
  | cons f rest ih =>
    rw [List.forall_mem_cons] at hne h
    have hfirst : patchField x patch root f = .ok root := by
      unfold patchField
      cases hv : f.submitted patch with
      | none => rfl
      | some v => exact setYamlPath_self hne.1 (h.1 v hv)
    rw [List.foldlM_cons, hfirst]
    exact ih hne.2 h.2

/-- And what the loop has gone through was there without tags. -/
theorem plainAt_of_foldlM (hne : ∀ f ∈ fields, f.parts ≠ [])
    (h : ∀ f ∈ fields, ∀ v, f.submitted patch = some v →
      root.getPath f.parts = some (jsonToYaml x v))
    (hfold : fields.foldlM (patchField x patch) root = .ok root') :
    ∀ f ∈ fields, ∀ v, f.submitted patch = some v →
      plainAt root f.parts = some (jsonToYaml x v) := by
  induction fields generalizing root' with
  | nil => exact nofun
  | cons f rest ih =>
    rw [List.forall_mem_cons] at hne h ⊢
    rw [List.foldlM_cons] at hfold
    obtain ⟨root₁, hfirst, hlast⟩ := except_bind_eq_ok.mp hfold
    cases hv : f.submitted patch with
    | none =>
      rw [patchField_of_none hv hfirst] at hlast
      exact ⟨nofun, ih hne.2 h.2 hlast⟩
    | some v =>
      have hset := patchField_of_some hv hfirst
      have hplain := plainAt_of_setYamlPath hset (h.1 v hv)
      obtain rfl : root₁ = root :=
        Except.ok.inj (hset.symm.trans (setYamlPath_self hne.1 hplain))
      refine ⟨fun v' hv' => ?_, ih hne.2 h.2 hlast⟩
      rw [← Option.some.inj hv']
      exact hplain

/-! ## The form as it was shown -/

/-- What `values` answers for a file. -/
def shownValues (x : Extern) (yaml : String) : List (String × Json) :=
  pmpConfigDescriptor.map fun f => (f.path, shownValue x yaml f)

variable {state : AdminState} {auth : AuthPrincipal} {s : Store} {body : ConfigValuesBody}
  {current : String} {f : ConfigFieldDescriptor} {h : History Query Query.Answer}

theorem runs_values : Runs exec (values x state auth) s h fun _ _ r => ∀ shown, r = .ok shown →
    (s.Holds auth "config:view" ∧ state.configured = true) ∧
      ∃ text, s.file = some text ∧ shown = shownValues x text := by
  refine runs_bind runs_require ?_ fun _ _ _ _ => nofun
  rintro s₁ h₁ ⟨⟩ ⟨⟨rfl, -⟩, hholds⟩
  refine runs_failIf_bind (fun _ => nofun) fun hconfigured => ?_
  refine runs_bind runs_readYaml ?_ fun _ _ _ _ => nofun
  rintro s₂ h₂ text ⟨rfl, -, hfile⟩
  intro shown hshown
  exact ⟨⟨hholds rfl, by simpa using hconfigured⟩, text, hfile text rfl,
    (Except.ok.inj hshown).symm⟩

theorem runs_diff : Runs exec (diff x state auth body) s h fun _ _ r => ∀ changes, r = .ok changes →
    ∃ text proposed, s.file = some text ∧ mergeYamlPatch x text body.values = .ok proposed ∧
      changes = pmpConfigDescriptor.filterMap (diffField x text proposed) := by
  refine runs_bind runs_require ?_ fun _ _ _ _ => nofun
  rintro s₁ h₁ ⟨⟩ ⟨⟨rfl, -⟩, -⟩
  refine runs_bind runs_readYaml ?_ fun _ _ _ _ => nofun
  rintro s₂ h₂ text ⟨rfl, -, hfile⟩
  refine runs_ofExcept_bind (fun _ _ => nofun) fun proposed hmerged => ?_
  intro changes hchanges
  exact ⟨text, proposed, hfile text rfl, hmerged, (Except.ok.inj hchanges).symm⟩

theorem responds_diff {proposed : String} (hdb : state.app.db = true)
    (hholds : s.Holds auth "config:view") (hconfigured : state.configured = true)
    (hfile : s.file = some current)
    (hmerged : mergeYamlPatch x current body.values = .ok proposed) :
    Responds s (diff x state auth body)
      (.ok (pmpConfigDescriptor.filterMap (diffField x current proposed))) := by
  refine can_bind (can_call auth _) ?_
  rintro _ _ ⟨rfl, rfl⟩
  refine ⟨(), eval_require hdb hholds, can_bind (can_readYaml hconfigured hfile) ?_⟩
  rintro _ _ ⟨rfl, rfl⟩
  refine ⟨current, rfl, ?_⟩
  rw [hmerged]
  exact rfl

theorem responds_values (hdb : state.app.db = true) (hholds : s.Holds auth "config:view")
    (hconfigured : state.configured = true) (hfile : s.file = some current) :
    Responds s (values x state auth) (.ok (shownValues x current)) := by
  refine can_bind (can_call auth _) ?_
  rintro _ _ ⟨rfl, rfl⟩
  refine ⟨(), eval_require hdb hholds, ?_⟩
  unfold failIf
  rw [if_neg (by simp [hconfigured])]
  show Can exec (readYaml state >>= _) _ _
  refine can_bind (can_readYaml hconfigured hfile) ?_
  rintro _ _ ⟨rfl, rfl⟩
  exact ⟨current, rfl, rfl⟩

theorem descriptor_paths_nodup : (pmpConfigDescriptor.map (·.path)).Nodup := by decide +kernel

theorem get?_map_path {fields : List ConfigFieldDescriptor} (hnodup : (fields.map (·.path)).Nodup)
    (g : ConfigFieldDescriptor → Json) (hf : f ∈ fields) :
    Fields.get? (fields.map fun f => (f.path, g f)) f.path = some (g f) := by
  induction fields with
  | nil => cases hf
  | cons f' rest ih =>
    rw [List.map_cons, List.nodup_cons] at hnodup
    rw [List.map_cons, Fields.get?_cons]
    rcases List.mem_cons.mp hf with rfl | hf
    · rw [if_pos rfl]
    · have hne : f'.path ≠ f.path := fun heq => hnodup.1 (heq ▸ List.mem_map_of_mem hf)
      rw [if_neg hne]
      exact ih hnodup.2 hf

/-- The placeholder stands for a secret that is there, and for nothing else. -/
theorem isSentinel_shownValue (x : Extern) (current : String) (f : ConfigFieldDescriptor) :
    isSentinel f (shownValue x current f) =
      (f.sensitive && (fieldValue x current f).isSome) := by
  have hplaceholder : (redacted.asStr.map fun s =>
      Text.toAsciiLowercase s == Text.toAsciiLowercase "[REDACTED]") = some true := by
    decide +kernel
  rw [isSentinel, shownValue]
  cases f.sensitive with
  | false => rfl
  | true =>
    cases fieldValue x current f with
    | none => rfl
    | some y => simp [hplaceholder]

/-- A secret that is there is not submitted; everything else is, as it is read. -/
theorem submitted_shown (hread : rereadFields x (shownValues x current) = some submitted)
    (hf : f ∈ pmpConfigDescriptor) :
    ∃ v, reread x (shownValue x current f) = some v ∧
      f.submitted submitted =
        if f.sensitive = true ∧ (fieldValue x current f).isSome = true then none else some v := by
  obtain ⟨v, hv, hget⟩ := get?_rereadFields hread (get?_map_path descriptor_paths_nodup _ hf)
  refine ⟨v, hv, ?_⟩
  rw [submitted_of_some hget, isSentinel_reread f hv, isSentinel_shownValue]
  simp only [Bool.and_eq_true]

/-- Saving `body` changes nothing. -/
structure SavesNothing (x : Extern) (state : AdminState) (auth : AuthPrincipal) (s : Store)
    (current : String) (body : ConfigValuesBody) : Prop where
  accepted : validateValues body.values = []
  merged : ∃ result, mergeYamlPatch x current body.values = .ok result ∧
    ∀ f ∈ pmpConfigDescriptor, fieldValue x result f = fieldValue x current f
  answered : state.app.db = true → Responds s (diff x state auth body) (.ok [])
  unchanged : ∀ changes, Responds s (diff x state auth body) (.ok changes) → changes = []

/-- The values `shown`, submitted as they are, change nothing once their text is read. -/
def UneditedSavesNothing (x : Extern) (state : AdminState) (auth : AuthPrincipal) (s : Store)
    (current : String) (shown : List (String × Json)) (note : String) : Prop :=
  ∃ values, reread x (.obj shown) = some values ∧
    SavesNothing x state auth s current ⟨values, note⟩

/-- Every field is there, with numbers that are kept; those that are no secrets are in mappings
    without tags. -/
structure Complete (x : Extern) (root : Yaml) : Prop where
  shown : ∀ f ∈ pmpConfigDescriptor, f.sensitive = false →
    ∃ y, plainAt root f.parts = some y ∧ kept x y = true
  secret : ∀ f ∈ pmpConfigDescriptor, f.sensitive = true → root.getPath f.parts ≠ none

/-- What was parsed can be written. -/
def Extern.RendersParsed (x : Extern) : Prop :=
  ∀ text y, x.parse text = .ok y → ∃ text', x.render y = .ok text'

/-- The value that a merge leaves of what was shown. -/
theorem fieldValue_merge_shown {result : String} (hround : x.RoundTrips)
    (hread : rereadFields x (shownValues x current) = some submitted)
    (hbody : body.values = .obj submitted)
    (hmerged : mergeYamlPatch x current body.values = .ok result) (hf : f ∈ pmpConfigDescriptor) :
    ∃ v, reread x (shownValue x current f) = some v ∧ fieldValue x result f =
      if f.sensitive = true ∧ (fieldValue x current f).isSome = true then fieldValue x current f
      else some (jsonToYaml x v) := by
  obtain ⟨v, hv, hsubmitted⟩ := submitted_shown hread hf
  refine ⟨v, hv, ?_⟩
  rw [fieldValue_merge hround hmerged (by rw [hbody]; rfl) hf, hsubmitted]
  split_ifs
  · rfl
  · rfl

theorem shownValue_some {y : Yaml} (hpublic : f.sensitive = false)
    (h : fieldValue x current f = some y) : shownValue x current f = toJson x y := by
  simp [shownValue, hpublic, h]

/-- The form changes nothing only if it is complete. -/
theorem complete_of_merged {result : String} (hx : x.ReadsPlain) (hround : x.RoundTrips)
    (hparse : x.parse current = .ok root)
    (htyped : ∀ f ∈ pmpConfigDescriptor, ∀ y, fieldValue x current f = some y →
      hasYamlType f.type y = true)
    (hread : rereadFields x (shownValues x current) = some submitted)
    (hbody : body.values = .obj submitted)
    (hmerged : mergeYamlPatch x current body.values = .ok result)
    (hsame : ∀ f ∈ pmpConfigDescriptor, fieldValue x result f = fieldValue x current f) :
    Complete x root := by
  have hvalue (f : ConfigFieldDescriptor) : fieldValue x current f = root.getPath f.parts := by
    rw [fieldValue, hparse]
  -- a missing field is set to `null`
  have hpresent : ∀ f ∈ pmpConfigDescriptor, ∃ y, fieldValue x current f = some y := by
    intro f hf
    cases hnone : fieldValue x current f with
    | some y => exact ⟨y, rfl⟩
    | none =>
      obtain ⟨v, -, hnull⟩ := fieldValue_merge_shown hround hread hbody hmerged hf
      rw [hsame f hf, hnone] at hnull
      simp at hnull
  have hsubmitted : ∀ f ∈ pmpConfigDescriptor, ∀ v,
      f.submitted submitted = some v → root.getPath f.parts = some (jsonToYaml x v) := by
    intro f hf v hv
    rw [← hvalue f, ← hsame f hf, fieldValue_merge hround hmerged (by rw [hbody]; rfl) hf, hv]
  obtain ⟨root₁, values, root', hparse₁, hvalues, hmerge, -⟩ := mergeYamlPatch_cases hmerged
  obtain rfl : root = root₁ := Except.ok.inj (hparse.symm.trans hparse₁)
  obtain rfl : submitted = values := by
    rw [hbody] at hvalues
    exact Option.some.inj hvalues
  have hplain := plainAt_of_foldlM (fun _ => descriptor_parts_ne) hsubmitted hmerge
  refine ⟨fun f hf hpublic => ?_, fun f hf _ hnone => ?_⟩
  · obtain ⟨y, hy⟩ := hpresent f hf
    obtain ⟨v, hv, hgiven⟩ := submitted_shown hread hf
    rw [if_neg (by simp [hpublic])] at hgiven
    have hback := hsubmitted f hf v hgiven
    rw [← hvalue f, hy] at hback
    refine ⟨y, (hplain f hf v hgiven).trans hback.symm, ?_⟩
    rw [← reread_toJson_iff hx (htyped f hf y hy), ← shownValue_some hpublic hy, hv]
    exact hback.symm
  · obtain ⟨y, hy⟩ := hpresent f hf
    rw [hvalue f, hnone] at hy
    cases hy

/-- A field of a complete form that is no secret is shown as a value that is kept. -/
theorem Complete.field_of_public (hcomplete : Complete x root) (hparse : x.parse current = .ok root)
    (hf : f ∈ pmpConfigDescriptor) (hpublic : f.sensitive = false) :
    ∃ y, plainAt root f.parts = some y ∧ kept x y = true ∧ fieldValue x current f = some y ∧
      shownValue x current f = toJson x y := by
  obtain ⟨y, hplain, hkept⟩ := hcomplete.shown f hf hpublic
  have hy : fieldValue x current f = some y := by
    rw [fieldValue, hparse]
    exact getPath_of_plainAt hplain
  exact ⟨y, hplain, hkept, hy, shownValue_some hpublic hy⟩

/-- The text of a complete form is read. -/
theorem Complete.read (hcomplete : Complete x root) (hx : x.ReadsPlain)
    (hparse : x.parse current = .ok root)
    (htyped : ∀ f ∈ pmpConfigDescriptor, ∀ y, fieldValue x current f = some y →
      hasYamlType f.type y = true) :
    ∃ submitted, rereadFields x (shownValues x current) = some submitted := by
  refine exists_rereadFields (List.forall_mem_map.mpr fun f hf => ?_)
  cases hsensitive : f.sensitive with
  | true =>
    show ∃ v', reread x (shownValue x current f) = some v'
    unfold shownValue
    rw [if_pos hsensitive]
    split_ifs
    · exact ⟨redacted, rfl⟩
    · exact ⟨.null, rfl⟩
  | false =>
    obtain ⟨y, -, hkept, hy, hshown⟩ := hcomplete.field_of_public hparse hf hsensitive
    have hback := (reread_toJson_iff hx (htyped f hf y hy)).mpr hkept
    obtain ⟨v, hv, -⟩ := Option.map_eq_some_iff.mp hback
    exact ⟨v, hshown ▸ hv⟩

/-- A complete form is accepted, and the merge is the document itself. -/
theorem Complete.unchanged (hcomplete : Complete x root) (hx : x.ReadsPlain)
    (hparse : x.parse current = .ok root)
    (htyped : ∀ f ∈ pmpConfigDescriptor, ∀ y, fieldValue x current f = some y →
      hasYamlType f.type y = true)
    (hread : rereadFields x (shownValues x current) = some submitted) :
    validateValues (.obj submitted) = [] ∧ mergeInto x submitted root = .ok root := by
  -- what is submitted is a value of the file that comes back
  have hsubmitted : ∀ f ∈ pmpConfigDescriptor, ∀ v, f.submitted submitted = some v →
      plainAt root f.parts = some (jsonToYaml x v) ∧ hasType f.type v = true := by
    intro f hf v hgiven
    obtain ⟨v', hv, hshown⟩ := submitted_shown hread hf
    rw [hshown] at hgiven
    split_ifs at hgiven with hhidden
    obtain rfl : v' = v := Option.some.inj hgiven
    have hpublic : f.sensitive = false := by
      by_contra hsecret
      rw [Bool.not_eq_false] at hsecret
      have hthere := hcomplete.secret f hf hsecret
      refine hhidden ⟨hsecret, Option.isSome_iff_ne_none.mpr ?_⟩
      rwa [fieldValue, hparse]
    obtain ⟨y, hplain, hkept, hy, hjson⟩ := hcomplete.field_of_public hparse hf hpublic
    have htype := htyped f hf y hy
    rw [hjson] at hv
    have hback := (reread_toJson_iff hx htype).mpr hkept
    rw [hv] at hback
    rw [hplain]
    exact ⟨hback.symm, hasType_reread_toJson hx htype hkept hv⟩
  constructor
  · refine List.filterMap_eq_nil_iff.mpr fun f hf => ?_
    cases hv : f.submitted submitted with
    | none => rfl
    | some v => simp [(hsubmitted f hf v hv).2]
  · exact foldlM_patchField_self (fun _ => descriptor_parts_ne) fun f hf v hv =>
      (hsubmitted f hf v hv).1

theorem diffField_eq_none {proposed : String}
    (h : fieldValue x proposed f = fieldValue x current f) :
    diffField x current proposed f = none := by
  simp [diffField, h]

/-- The files for which the form that is submitted as it was shown changes nothing. -/
theorem saves_nothing_iff (x : Extern) (hx : x.ReadsPlain) (hround : x.RoundTrips)
    (hrender : x.RendersParsed) (state : AdminState) (auth : AuthPrincipal) (s : Store)
    (current : String) (root : Yaml) (hfile : s.file = some current)
    (hparse : x.parse current = .ok root)
    (htyped : ∀ f ∈ pmpConfigDescriptor, ∀ y, fieldValue x current f = some y →
      hasYamlType f.type y = true)
    (shown : List (String × Json)) (hshown : Responds s (values x state auth) (.ok shown))
    (note : String) :
    UneditedSavesNothing x state auth s current shown note ↔ Complete x root := by
  obtain ⟨h, s', r, hends, hexec, rfl⟩ := hshown.ends
  obtain ⟨⟨hholds, hconfigured⟩, text, htext, rfl⟩ :=
    (runs_values (h := [])).ends hends hexec shown rfl
  obtain rfl : current = text := Option.some.inj (hfile.symm.trans htext)
  constructor
  · rintro ⟨values, hvalues, -, ⟨result, hmerged, hsame⟩, -, -⟩
    obtain ⟨submitted, hread, rfl⟩ := Option.map_eq_some_iff.mp hvalues
    exact complete_of_merged hx hround hparse htyped hread rfl hmerged hsame
  · intro hcomplete
    obtain ⟨submitted, hread⟩ := hcomplete.read hx hparse htyped
    obtain ⟨hvalid, hmerge⟩ := hcomplete.unchanged hx hparse htyped hread
    obtain ⟨result, hresult⟩ := hrender current root hparse
    have hmerged : mergeYamlPatch x current (.obj submitted) = .ok result := by
      rw [mergeYamlPatch, hparse]
      show (mergeInto x submitted root >>= fun root => _) = _
      rw [hmerge]
      show orInvalid _ (x.render root) = _
      rw [hresult]
      rfl
    have hsame : ∀ f ∈ pmpConfigDescriptor, fieldValue x result f = fieldValue x current f := by
      intro f _
      rw [fieldValue, fieldValue, hround root result hresult, hparse]
    have hnothing : pmpConfigDescriptor.filterMap (diffField x current result) = [] :=
      List.filterMap_eq_nil_iff.mpr fun f hf => diffField_eq_none (hsame f hf)
    refine ⟨.obj submitted, Option.map_eq_some_iff.mpr ⟨submitted, hread, rfl⟩, hvalid,
      ⟨result, hmerged, hsame⟩, fun hdb => ?_, fun changes hdiff => ?_⟩
    · rw [← hnothing]
      exact responds_diff hdb hholds hconfigured hfile hmerged
    · obtain ⟨h', s'', r', hends', hexec', rfl⟩ := hdiff.ends
      obtain ⟨text, proposed, htext, hproposed, hchanges⟩ :=
        (runs_diff (h := [])).ends hends' hexec' changes rfl
      obtain rfl : current = text := Option.some.inj (hfile.symm.trans htext)
      obtain rfl : result = proposed := Except.ok.inj (hmerged.symm.trans hproposed)
      rw [hchanges, hnothing]

/-! ### A complete file, and one without most fields -/

def scalarJson : Yaml → Json
  | .bool b => .bool b
  | .num n => numberToJson n
  | .str s => .str s
  | _ => .null

/-- `serde_yaml::from_value::<Value>` of lists of scalars and of scalars. -/
def plainJson : Yaml → Option Json
  | .seq items => if items.all isScalar = true then some (.arr (items.map scalarJson)) else none
  | y => if isScalar y = true then some (scalarJson y) else none

theorem plainJson_scalar {y : Yaml} (hy : isScalar y = true) :
    plainJson y = some (scalarJson y) := by
  cases y with
  | bool b | num n | str s => rfl
  | null | seq items | map fields | tagged tag value => cases hy

/-- Texts with their values, which are read as plain values. -/
def plainExtern (table : List (String × Yaml)) : Extern :=
  { Extern.ofTable table with fromValue := plainJson }

theorem plainExtern_readsPlain (table : List (String × Yaml)) : (plainExtern table).ReadsPlain := by
  refine ⟨fun b => rfl, fun s => rfl, fun n => rfl, fun items hitems => ?_⟩
  show plainJson (.seq items) = _
  rw [plainJson, if_pos (List.all_eq_true.mpr hitems)]
  congr 2
  refine List.map_congr_left fun y hy => ?_
  show _ = (plainJson y).getD .null
  rw [plainJson_scalar (hitems y hy), Option.getD_some]

theorem plainExtern_rendersParsed (table : List (String × Yaml)) :
    (plainExtern table).RendersParsed := by
  intro text y hparse
  simp only [plainExtern, Extern.ofTable] at hparse ⊢
  cases hfind : table.find? (·.1 == text) with
  | none => rw [hfind] at hparse; cases hparse
  | some row =>
    rw [hfind] at hparse
    have hrow : row.2 = y := Except.ok.inj hparse
    cases hrendered : table.find? (·.2 == y) with
    | some row' => exact ⟨row'.1, rfl⟩
    | none =>
      have hnone := List.find?_eq_none.mp hrendered row (List.mem_of_find?_eq_some hfind)
      exact absurd (by simp [hrow]) hnone

/-- A configuration with every field. -/
def fullText : String :=
  "server_name: a\nwelcome: hi\nchat_enabled: true\nchat_history_limit: 10\nport: 1\n" ++
  "http_port: 2\nmax_rooms: 3\nmax_users_per_room: 4\nroom_creation_enabled: false\n" ++
  "ready_countdown_secs: 2.5\nmax_sessions: 5\ngraceful_shutdown_timeout_secs: 6\n" ++
  "log_retention_days: 7\nphira_api_endpoint: https://phira.example\ndatabase_url: u\n" ++
  "admin_phira_ids:\n- 8\nfiltered_player_ids: []\n" ++
  "openuds:\n  enabled: true\n  socket_path: /s\n  auth_token: t\n"

def fullYaml : Yaml :=
  .map [(.str "server_name", .str "a"), (.str "welcome", .str "hi"),
    (.str "chat_enabled", .bool true), (.str "chat_history_limit", .num (.posInt 10)),
    (.str "port", .num (.posInt 1)), (.str "http_port", .num (.posInt 2)),
    (.str "max_rooms", .num (.posInt 3)), (.str "max_users_per_room", .num (.posInt 4)),
    (.str "room_creation_enabled", .bool false),
    (.str "ready_countdown_secs", .num (.float "2.5")), (.str "max_sessions", .num (.posInt 5)),
    (.str "graceful_shutdown_timeout_secs", .num (.posInt 6)),
    (.str "log_retention_days", .num (.posInt 7)),
    (.str "phira_api_endpoint", .str "https://phira.example"), (.str "database_url", .str "u"),
    (.str "admin_phira_ids", .seq [.num (.posInt 8)]), (.str "filtered_player_ids", .seq []),
    (.str "openuds", .map [(.str "enabled", .bool true), (.str "socket_path", .str "/s"),
      (.str "auth_token", .str "t")])]

def fullExtern : Extern := plainExtern [(fullText, fullYaml)]

theorem fullYaml_complete : Complete fullExtern fullYaml := by
  have hshown : ∀ f ∈ pmpConfigDescriptor, f.sensitive = false →
      (plainAt fullYaml f.parts).any (kept fullExtern) = true := by
    decide +kernel
  refine ⟨fun f hf hpublic => ?_, by decide +kernel⟩
  have hany := hshown f hf hpublic
  cases hy : plainAt fullYaml f.parts with
  | none => rw [hy] at hany; cases hany
  | some y =>
    rw [hy] at hany
    exact ⟨y, rfl, hany⟩

/-- The complete file stays as it is. -/
theorem saves_nothing_full : UneditedSavesNothing fullExtern sampleState sampleAuth
    (secretStore fullText fullText) fullText (shownValues fullExtern fullText) "" := by
  have htyped : ∀ f ∈ pmpConfigDescriptor,
      (fieldValue fullExtern fullText f).all (hasYamlType f.type) = true := by
    decide +kernel
  have hround : (Extern.ofTable [(fullText, fullYaml)]).RoundTrips :=
    Extern.roundTrips_ofTable (by decide)
  refine (saves_nothing_iff fullExtern (plainExtern_readsPlain _) hround
    (plainExtern_rendersParsed _) sampleState sampleAuth (secretStore fullText fullText) fullText
    fullYaml rfl (by decide +kernel) (fun f hf y hy => ?_) (shownValues fullExtern fullText)
    (responds_values rfl (by decide +kernel) rfl rfl) "").mpr fullYaml_complete
  have hall := htyped f hf
  rw [hy] at hall
  exact hall

/-- The fields that are missing are submitted as `null`, and refused. -/
theorem not_saves_nothing : ∃ shown,
    Responds (secretStore "server_name: a\ndatabase_url: u\n" "server_name: a\ndatabase_url: u\n")
      (values secretExtern sampleState sampleAuth) (.ok shown) ∧
    ¬ UneditedSavesNothing secretExtern sampleState sampleAuth
      (secretStore "server_name: a\ndatabase_url: u\n" "server_name: a\ndatabase_url: u\n")
      "server_name: a\ndatabase_url: u\n" shown "" := by
  refine ⟨shownValues secretExtern "server_name: a\ndatabase_url: u\n",
    responds_values rfl (by decide +kernel) rfl rfl, ?_⟩
  rintro ⟨submitted, hread, hnothing⟩
  have hrefused : ((reread secretExtern (.obj (shownValues secretExtern
      "server_name: a\ndatabase_url: u\n"))).all fun values =>
        validateValues values != []) = true := by
    decide +kernel
  rw [hread] at hrefused
  exact absurd hnothing.accepted (by simpa using hrefused)

end Ppb.Admin
