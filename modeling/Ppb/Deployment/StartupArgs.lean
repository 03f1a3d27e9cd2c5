import Ppb.Common.Json

/-!
# The arguments PMP is started with (`deployment.rs`)

The operator configures a command and a schema of arguments; a client that starts PMP may give
values for them. `validate_arg_specs` checks the schema when the server starts, and
`validate_startup_args` turns the client's object into arguments of the command.

* `argOf_eq_ok`: what an argument is turned into, and when.
* `startup_args_confined`: the object is accepted exactly when it keeps to the schema, and every
  argument is a flag of the schema or a value behind its flag.
* `not_limit_as_given`: a `max_len` is not taken as it is, but brought between 1 and 4096.
-/

namespace Ppb.Deployment

/-! ## The code -/

/-- `StartupArgSpec` (deployment.rs:23-39). -/
structure StartupArgSpec where
  key : String
  flag : String
  kind : String := "string"
  required : Bool := false
  min : Option Int64 := none
  max : Option Int64 := none
  maxLen : Option ℕ := none
  allowedValues : List String := []
  deriving DecidableEq, Repr

/-- `DeploymentAdapter` (deployment.rs:52-61), of its commands only that which starts PMP. -/
structure DeploymentAdapter where
  supervisorStart : Option (List String)
  startupArgs : List StartupArgSpec

/-- A text has a NUL in it. -/
def hasNul (s : String) : Bool := s.toList.contains '\x00'

/-- `validate_arg_specs` (deployment.rs:213-222), behind the keys `seen`. -/
def validateArgSpecsFrom (seen : List String) : List StartupArgSpec → Except String Unit
  | [] => .ok ()
  | spec :: rest =>
    if spec.key = "" ∨ spec.flag = "" ∨ hasNul spec.flag = true then
      .error "startup arg schema key/flag must be non-empty and NUL-free"
    else if spec.key ∈ seen then .error ("duplicate startup arg schema key: " ++ spec.key)
    else if spec.kind ∉ ["string", "integer", "boolean"] then
      .error ("unsupported startup arg kind: " ++ spec.kind)
    else if (spec.min.any fun min => spec.max.any fun max => max < min) = true then
      .error ("startup arg " ++ spec.key ++ " has min > max")
    else validateArgSpecsFrom (spec.key :: seen) rest

def validateArgSpecs (specs : List StartupArgSpec) : Except String Unit :=
  validateArgSpecsFrom [] specs

/-- An error about an argument. -/
def argError {α : Type} (spec : StartupArgSpec) (text : String) : Except String α :=
  .error ("startup arg `" ++ spec.key ++ "` " ++ text)

/-- `spec.max_len.unwrap_or(256).clamp(1,4096)`. -/
def lengthLimit (spec : StartupArgSpec) : ℕ := min (max (spec.maxLen.getD 256) 1) 4096

/-- The arguments for a value that is there (deployment.rs:145-162). -/
def argOf (spec : StartupArgSpec) (value : Json) : Except String (List String) :=
  if spec.kind = "boolean" then
    match value.asBool with
    | some b => .ok (if b = true then [spec.flag] else [])
    | none => argError spec "must be boolean"
  else if spec.kind = "integer" then
    match value.asI64 with
    | some n =>
      if (spec.min.any fun min => n < min) = true ∨ (spec.max.any fun max => max < n) = true then
        argError spec "is outside its allowed range"
      else .ok [spec.flag, toString n.toInt]
    | none => argError spec "must be integer"
  else if spec.kind = "string" then
    match value.asStr with
    | some text =>
      if text = "" ∨ lengthLimit spec < text.utf8ByteSize ∨ hasNul text = true then
        argError spec "has invalid length/content"
      else if spec.allowedValues ≠ [] ∧ text ∉ spec.allowedValues then
        argError spec "is not an allowed value"
      else .ok [spec.flag, text]
    | none => argError spec "must be string"
  else argError spec ("has unsupported kind `" ++ spec.kind ++ "`")

/-- The loop over the schema (deployment.rs:138-163). -/
def argsOf (fields : List (String × Json)) : List StartupArgSpec → Except String (List String)
  | [] => .ok []
  | spec :: rest =>
    match Fields.get? fields spec.key with
    | none => if spec.required = true then argError spec "is required" else argsOf fields rest
    | some value =>
      match argOf spec value with
      | .ok words => (argsOf fields rest).map (words ++ ·)
      | .error e => .error e

/-- `validate_startup_args` (deployment.rs:131-165). -/
def validateStartupArgs (specs : List StartupArgSpec) (args : Json) :
    Except String (List String) :=
  match args.asObject with
  | none => .error "server.start args must be an object"
  | some fields =>
    match (fields.map (·.1)).find? (fun key => !(specs.map (·.key)).contains key) with
    | some key => .error ("startup arg `" ++ key ++ "` is not allowlisted")
    | none => argsOf fields specs

/-- The command that `start_pmp` runs (deployment.rs:111-116, 167-169). -/
def startCommand (d : DeploymentAdapter) (args : Json) : Except String (List String) :=
  match d.supervisorStart with
  | none => .error "CAPABILITY_NOT_SUPPORTED: PMP supervisor start is not configured"
  | some argv =>
    match validateStartupArgs d.startupArgs args with
    | .error e => .error e
    | .ok extra =>
      if argv = [] then .error "deployment command has no executable" else .ok (argv ++ extra)

/-! ## What a schema allows -/

/-- The value keeps to its spec, where `limit` says how long a text may be. -/
def Satisfies (limit : StartupArgSpec → ℕ) (spec : StartupArgSpec) (v : Json) : Prop :=
  if spec.kind = "boolean" then ∃ b, v = .bool b
  else if spec.kind = "integer" then
    ∃ n, v.asI64 = some n ∧ (∀ m ∈ spec.min, m ≤ n) ∧ ∀ m ∈ spec.max, n ≤ m
  else
    ∃ text, v = .str text ∧ '\x00' ∉ text.toList ∧ 1 ≤ text.utf8ByteSize ∧
      text.utf8ByteSize ≤ limit spec ∧ (spec.allowedValues = [] ∨ text ∈ spec.allowedValues)

/-- The arguments for a value: the flag if it is true, or the flag and the value. -/
def written (spec : StartupArgSpec) : Option Json → List String
  | none => []
  | some v =>
    if spec.kind = "boolean" then if v = .bool true then [spec.flag] else []
    else if spec.kind = "integer" then
      (v.asI64.map fun n => [spec.flag, toString n.toInt]).getD []
    else (v.asStr.map fun text => [spec.flag, text]).getD []

/-- The object keeps to the schema. -/
structure Confined (limit : StartupArgSpec → ℕ) (specs : List StartupArgSpec)
    (fields : List (String × Json)) : Prop where
  known : ∀ f ∈ fields, ∃ spec ∈ specs, spec.key = f.1
  required : ∀ spec ∈ specs, spec.required = true → (Fields.get? fields spec.key).isSome = true
  valid : ∀ spec ∈ specs, ∀ v, Fields.get? fields spec.key = some v → Satisfies limit spec v

/-- The arguments that the schema makes of the object. -/
def argvOf (specs : List StartupArgSpec) (fields : List (String × Json)) : List String :=
  specs.flatMap fun spec => written spec (Fields.get? fields spec.key)

variable {specs : List StartupArgSpec} {spec : StartupArgSpec} {fields : List (String × Json)}
  {argv : List String}

theorem kind_of_validateArgSpecsFrom {seen : List String}
    (h : validateArgSpecsFrom seen specs = .ok ()) :
    ∀ spec ∈ specs, spec.kind = "string" ∨ spec.kind = "integer" ∨ spec.kind = "boolean" := by
  induction specs generalizing seen with
  | nil => simp
  | cons spec rest ih =>
    simp only [validateArgSpecsFrom] at h
    split_ifs at h with hempty hseen hkind hrange
    rw [List.forall_mem_cons]
    refine ⟨?_, ih h⟩
    simpa using hkind

theorem argError_ne_ok {text : String} {a : List String} : argError spec text ≠ .ok a := by
  simp [argError]

theorem argOf_boolean (hkind : spec.kind = "boolean") {v : Json} : argOf spec v = .ok argv ↔
    (∃ b, v = .bool b) ∧ argv = if v = .bool true then [spec.flag] else [] := by
  rw [argOf, if_pos hkind]
  cases v with
  | bool b => cases b <;> simp [Json.asBool, eq_comm]
  | _ => simp [Json.asBool, argError_ne_ok]

theorem argOf_integer (hkind : spec.kind = "integer") {v : Json} : argOf spec v = .ok argv ↔
    (∃ n, v.asI64 = some n ∧ (∀ m ∈ spec.min, m ≤ n) ∧ ∀ m ∈ spec.max, n ≤ m) ∧
      argv = (v.asI64.map fun n => [spec.flag, toString n.toInt]).getD [] := by
  rw [argOf, if_neg (by rw [hkind]; decide), if_pos hkind]
  cases v.asI64 with
  | none => simp [argError_ne_ok]
  | some n =>
    have hrange : ((spec.min.any fun min => n < min) = true ∨
        (spec.max.any fun max => max < n) = true) ↔
          ¬ ((∀ m ∈ spec.min, m ≤ n) ∧ ∀ m ∈ spec.max, n ≤ m) := by
      rw [Option.any_eq_true, Option.any_eq_true, not_and_or]
      simp
    by_cases hbad : (spec.min.any fun min => n < min) = true ∨
        (spec.max.any fun max => max < n) = true
    · simp only [if_pos hbad, argError_ne_ok, false_iff, not_and, Option.some.injEq]
      rintro ⟨m, rfl, hm⟩
      exact absurd hm (hrange.mp hbad)
    · have hgood := not_not.mp (mt hrange.mpr hbad)
      simp only [if_neg hbad, Except.ok.injEq, Option.some.injEq, exists_eq_left',
        Option.map_some, Option.getD_some]
      constructor
      · rintro rfl
        exact ⟨hgood, rfl⟩
      · rintro ⟨-, rfl⟩
        rfl

theorem argOf_string (hkind : spec.kind = "string") {v : Json} : argOf spec v = .ok argv ↔
    (∃ text, v = .str text ∧ '\x00' ∉ text.toList ∧ 1 ≤ text.utf8ByteSize ∧
      text.utf8ByteSize ≤ lengthLimit spec ∧
        (spec.allowedValues = [] ∨ text ∈ spec.allowedValues)) ∧
      argv = (v.asStr.map fun text => [spec.flag, text]).getD [] := by
  rw [argOf, if_neg (by rw [hkind]; decide), if_neg (by rw [hkind]; decide), if_pos hkind]
  cases v with
  | str text =>
    have hempty : text = "" ↔ ¬ 1 ≤ text.utf8ByteSize := by
      rw [← String.utf8ByteSize_eq_zero_iff]
      omega
    have hnul : hasNul text = true ↔ '\x00' ∈ text.toList := List.contains_iff_mem
    simp only [Json.asStr, Json.str.injEq, exists_eq_left', Option.map_some, Option.getD_some]
    split_ifs with hbad hvalue
    · refine iff_of_false argError_ne_ok fun h => ?_
      rw [hempty, hnul] at hbad
      obtain ⟨⟨hnul', hlow, hhigh, -⟩, -⟩ := h
      rcases hbad with hbad | hbad | hbad
      · exact hbad hlow
      · omega
      · exact hnul' hbad
    · refine iff_of_false argError_ne_ok fun h => ?_
      obtain ⟨⟨-, -, -, hallowed⟩, -⟩ := h
      exact hallowed.elim hvalue.1 hvalue.2
    · rw [hempty, hnul, not_or, not_or, not_not, not_lt] at hbad
      have hallowed : spec.allowedValues = [] ∨ text ∈ spec.allowedValues := by
        by_contra hnot
        exact hvalue (not_or.mp hnot)
      constructor
      · intro h
        exact ⟨⟨hbad.2.2, hbad.1, hbad.2.1, hallowed⟩, (Except.ok.inj h).symm⟩
      · rintro ⟨-, rfl⟩
        rfl
  | _ => simp [Json.asStr, argError_ne_ok]

/-- A value is accepted exactly when it keeps to its spec. -/
theorem argOf_eq_ok
    (hkind : spec.kind = "string" ∨ spec.kind = "integer" ∨ spec.kind = "boolean") {v : Json} :
    argOf spec v = .ok argv ↔ Satisfies lengthLimit spec v ∧ argv = written spec (some v) := by
  rcases hkind with hkind | hkind | hkind
  · have hb : spec.kind ≠ "boolean" := by rw [hkind]; decide
    have hi : spec.kind ≠ "integer" := by rw [hkind]; decide
    rw [argOf_string hkind, Satisfies, if_neg hb, if_neg hi, written, if_neg hb, if_neg hi]
  · have hb : spec.kind ≠ "boolean" := by rw [hkind]; decide
    rw [argOf_integer hkind, Satisfies, if_neg hb, if_pos hkind, written, if_neg hb, if_pos hkind]
  · rw [argOf_boolean hkind, Satisfies, if_pos hkind, written, if_pos hkind]

/-- The arguments for a spec, whether there is a value or not. -/
def argAt (fields : List (String × Json)) (spec : StartupArgSpec) : Except String (List String) :=
  match Fields.get? fields spec.key with
  | none => if spec.required = true then argError spec "is required" else .ok []
  | some value => argOf spec value

theorem argAt_eq_ok
    (hkind : spec.kind = "string" ∨ spec.kind = "integer" ∨ spec.kind = "boolean") :
    argAt fields spec = .ok argv ↔
      (spec.required = true → (Fields.get? fields spec.key).isSome = true) ∧
      (∀ v, Fields.get? fields spec.key = some v → Satisfies lengthLimit spec v) ∧
      argv = written spec (Fields.get? fields spec.key) := by
  unfold argAt
  cases Fields.get? fields spec.key with
  | none =>
    by_cases hrequired : spec.required = true
    · simp [hrequired, argError_ne_ok]
    · rw [if_neg hrequired]
      constructor
      · rintro ⟨⟩
        exact ⟨fun h => absurd h hrequired, by simp, rfl⟩
      · rintro ⟨-, -, rfl⟩
        rfl
  | some v => simp [argOf_eq_ok hkind]

theorem argsOf_cons (spec : StartupArgSpec) (rest : List StartupArgSpec) :
    argsOf fields (spec :: rest) = .ok argv ↔ ∃ words others, argAt fields spec = .ok words ∧
      argsOf fields rest = .ok others ∧ argv = words ++ others := by
  have hmap (words : List String) : (argsOf fields rest).map (words ++ ·) = .ok argv ↔
      ∃ others, argsOf fields rest = .ok others ∧ argv = words ++ others := by
    cases argsOf fields rest with
    | error e => simp [Except.map]
    | ok others => simp [Except.map, eq_comm]
  rw [argsOf, argAt]
  cases Fields.get? fields spec.key with
  | none =>
    by_cases hrequired : spec.required = true
    · simp [hrequired, argError_ne_ok]
    · simp [hrequired]
  | some v =>
    cases harg : argOf spec v with
    | error e => simp [harg]
    | ok words => simp [harg, hmap]

theorem argsOf_eq_ok
    (hkind : ∀ spec ∈ specs, spec.kind = "string" ∨ spec.kind = "integer" ∨ spec.kind = "boolean") :
    argsOf fields specs = .ok argv ↔
      (∀ spec ∈ specs, spec.required = true → (Fields.get? fields spec.key).isSome = true) ∧
      (∀ spec ∈ specs, ∀ v, Fields.get? fields spec.key = some v →
        Satisfies lengthLimit spec v) ∧ argv = argvOf specs fields := by
  induction specs generalizing argv with
  | nil =>
    rw [argsOf, argvOf, List.flatMap_nil]
    constructor
    · rintro ⟨⟩
      simp
    · rintro ⟨-, -, rfl⟩
      rfl
  | cons spec rest ih =>
    rw [List.forall_mem_cons] at hkind
    rw [argsOf_cons, List.forall_mem_cons, List.forall_mem_cons, argvOf, List.flatMap_cons, ← argvOf]
    constructor
    · rintro ⟨words, others, hwords, hothers, rfl⟩
      obtain ⟨hreq, hsat, rfl⟩ := (argAt_eq_ok hkind.1).mp hwords
      obtain ⟨hreqs, hsats, rfl⟩ := (ih hkind.2).mp hothers
      exact ⟨⟨hreq, hreqs⟩, ⟨hsat, hsats⟩, rfl⟩
    · rintro ⟨⟨hreq, hreqs⟩, ⟨hsat, hsats⟩, rfl⟩
      exact ⟨_, _, (argAt_eq_ok hkind.1).mpr ⟨hreq, hsat, rfl⟩,
        (ih hkind.2).mpr ⟨hreqs, hsats, rfl⟩, rfl⟩

/-! ## The whole object -/

/-- The check of the keys (deployment.rs:134-136). -/
theorem find?_unknown_eq_none :
    (fields.map (·.1)).find? (fun key => !(specs.map (·.key)).contains key) = none ↔
      ∀ f ∈ fields, ∃ spec ∈ specs, spec.key = f.1 := by
  simp [List.find?_eq_none]

theorem validateStartupArgs_eq_ok (hspecs : validateArgSpecs specs = .ok ()) {args : Json} :
    validateStartupArgs specs args = .ok argv ↔ ∃ fields, args = .obj fields ∧
      Confined lengthLimit specs fields ∧ argv = argvOf specs fields := by
  have hkind := kind_of_validateArgSpecsFrom hspecs
  unfold validateStartupArgs
  cases args with
  | obj fields =>
    simp only [Json.asObject, Json.obj.injEq, exists_eq_left']
    split
    · rename_i key hfind
      have hunknown := mt find?_unknown_eq_none.mpr (by rw [hfind]; simp)
      exact iff_of_false (by simp) fun h => hunknown h.1.known
    · rename_i hfind
      rw [argsOf_eq_ok hkind]
      have hknown := find?_unknown_eq_none.mp hfind
      exact ⟨fun h => ⟨⟨hknown, h.1, h.2.1⟩, h.2.2⟩, fun h => ⟨h.1.required, h.1.valid, h.2⟩⟩
  | _ => simp [Json.asObject]

theorem isSome_get? {key : String} :
    (Fields.get? fields key).isSome = true ↔ ∃ f ∈ fields, f.1 = key := by
  induction fields with
  | nil => simp
  | cons f rest ih =>
    rw [Fields.get?_cons f.1 f.2, List.exists_mem_cons_iff]
    split_ifs with hkey
    · simp [hkey]
    · simp [hkey, ih]

/-- Only what stands at each key counts. -/
theorem Confined.congr {limit : StartupArgSpec → ℕ} {fields' : List (String × Json)}
    (hsame : ∀ key, Fields.get? fields key = Fields.get? fields' key)
    (h : Confined limit specs fields) : Confined limit specs fields' := by
  refine ⟨fun f hf => ?_, fun spec hspec hreq => ?_, fun spec hspec v hv => ?_⟩
  · have hget := isSome_get?.mpr ⟨f, hf, rfl⟩
    rw [← hsame] at hget
    obtain ⟨f', hf', hkey⟩ := isSome_get?.mp hget
    rw [← hkey]
    exact h.known f' hf'
  · rw [← hsame]
    exact h.required spec hspec hreq
  · rw [← hsame] at hv
    exact h.valid spec hspec v hv

/-- The arguments of a client are accepted exactly when they keep to the schema; what they become
    is read off the schema, and the order of the keys does not count. -/
theorem startup_args_confined (specs : List StartupArgSpec)
    (hspecs : validateArgSpecs specs = .ok ()) (args : Json) :
    (∀ argv, validateStartupArgs specs args = .ok argv ↔ ∃ fields, args = .obj fields ∧
      Confined lengthLimit specs fields ∧ argv = argvOf specs fields) ∧
    (∀ fields fields', args = .obj fields →
      (∀ key, Fields.get? fields key = Fields.get? fields' key) →
      ∀ argv, validateStartupArgs specs args = .ok argv →
        validateStartupArgs specs (.obj fields') = .ok argv) ∧
    ∀ (start : Option (List String)) (command : List String),
      startCommand ⟨start, specs⟩ args = .ok command ↔ ∃ fixed fields, start = some fixed ∧
        fixed ≠ [] ∧ args = .obj fields ∧ Confined lengthLimit specs fields ∧
        command = fixed ++ argvOf specs fields := by
  refine ⟨fun argv => validateStartupArgs_eq_ok hspecs, fun fields fields' hargs hsame argv h => ?_,
    fun start command => ?_⟩
  · obtain ⟨_, hobj, hconfined, rfl⟩ := (validateStartupArgs_eq_ok hspecs).mp h
    obtain rfl := Json.obj.inj (hargs.symm.trans hobj)
    refine (validateStartupArgs_eq_ok hspecs).mpr ⟨fields', rfl, hconfined.congr hsame, ?_⟩
    simp only [argvOf, hsame]
  · unfold startCommand
    cases start with
    | none => simp
    | some fixed =>
      cases hvalidate : validateStartupArgs specs args with
      | error e =>
        refine iff_of_false (by simp) ?_
        rintro ⟨_, fields, -, -, hobj, hconfined, -⟩
        have hok := (validateStartupArgs_eq_ok hspecs).mpr ⟨fields, hobj, hconfined, rfl⟩
        rw [hvalidate] at hok
        cases hok
      | ok extra =>
        obtain ⟨fields, hobj, hconfined, rfl⟩ := (validateStartupArgs_eq_ok hspecs).mp hvalidate
        by_cases hempty : fixed = []
        · simp [hempty]
        · simp only [if_neg hempty, Except.ok.injEq]
          constructor
          · rintro rfl
            exact ⟨fixed, fields, rfl, hempty, hobj, hconfined, rfl⟩
          · rintro ⟨_, fields', ⟨⟩, -, hobj', -, rfl⟩
            rw [Json.obj.inj (hobj.symm.trans hobj')]

/-! ## Where the limit differs from `max_len` -/

/-- A text that may have no length. -/
def noLength : StartupArgSpec := { key := "k", flag := "--k", maxLen := some 0 }

theorem startup_args_confined_length :
    validateStartupArgs [noLength] (.obj [("k", .str "x")]) = .ok ["--k", "x"] :=
  ((startup_args_confined [noLength] (by decide +kernel) (.obj [("k", .str "x")])).1 _).mpr
    ⟨_, rfl, ⟨by simp [noLength], by simp [noLength], by
      simp [Satisfies, noLength, lengthLimit, Fields.get?_cons]
      decide⟩, by decide +kernel⟩

/-- A schema is accepted whose texts have no length, and a text of one octet with it. -/
theorem not_limit_as_given : ¬ ∀ (specs : List StartupArgSpec) (args : Json) (argv : List String),
    validateArgSpecs specs = .ok () → (validateStartupArgs specs args = .ok argv ↔
      ∃ fields, args = .obj fields ∧ Confined (fun spec => spec.maxLen.getD 256) specs fields ∧
        argv = argvOf specs fields) := by
  intro h
  have hok : validateStartupArgs [noLength] (.obj [("k", .str "x")]) = .ok ["--k", "x"] := by
    decide +kernel
  obtain ⟨fields, hobj, hconfined, -⟩ := (h [noLength] _ _ (by decide +kernel)).mp hok
  obtain rfl := Json.obj.inj hobj
  have hvalid := hconfined.valid noLength (by simp) (.str "x") rfl
  simp only [Satisfies, noLength] at hvalid
  obtain ⟨text, -, -, hlow, hhigh, -⟩ := hvalid
  have : text.utf8ByteSize ≤ 0 := hhigh
  omega

end Ppb.Deployment
