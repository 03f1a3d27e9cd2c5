import Ppb.Common.Text
import Ppb.Deployment.StartupArgs

/-!
# What a command of the operator gets to see (`deployment.rs`)

The operator configures commands that start and stop PMP, build the frontend and make backups
(`from_env`), and names of environment variables that they may see. A command starts with an
empty environment, into which `run_with_env` copies a few variables of the server and, for a
build, what an administrator has configured for the frontend (`ppf_build_environment`).

* `boundaryBelow_spec`: where `truncate_utf8` cuts.
* `environment_confined`: a command is the operator's with validated arguments; a variable it
  sees is an allowed one of the server, or one of the frontend's, and never one of the
  server's own; and its output is cut to size.
-/

namespace Ppb.Deployment

/-! ## The adapter -/

/-- `env::var(name).ok()`. -/
abbrev Env := String → Option String

/-- What `serde_json::from_str` and `str::parse` make of a text. -/
structure Extern where
  argv : String → Except String (List String)
  specs : String → Except String (List StartupArgSpec)
  u64 : String → Option ℕ

/-- `FixedCommand` (deployment.rs:17-21). -/
structure FixedCommand where
  argv : List String
  cwd : Option String
  deriving DecidableEq

/-- `DeploymentAdapter` (deployment.rs:52-61); the timeout in seconds. -/
structure Adapter where
  supervisorStart : Option FixedCommand
  supervisorStop : Option FixedCommand
  startupArgs : List StartupArgSpec
  ppfBuild : Option FixedCommand
  backup : Option FixedCommand
  envAllowlist : List String
  timeoutSecs : ℕ

def startsWith (s start : String) : Bool := start.toList.isPrefixOf s.toList

/-- `non_empty_env` (deployment.rs:223). -/
def nonEmptyEnv (env : Env) (name : String) : Option String :=
  ((env name).map Text.trim).filter (· ≠ "")

/-- `is_safe_env_name` (deployment.rs:224). -/
def isSafeEnvName (name : String) : Bool :=
  !startsWith name "PPB_" && name.toList.all fun ch => ch.isAlphanum || ch == '_'

/-- `command_from_env` (deployment.rs:207-212). -/
def commandFromEnv (x : Extern) (env : Env) (commandName cwdName : String) :
    Except String (Option FixedCommand) :=
  match nonEmptyEnv env commandName with
  | none => .ok none
  | some raw => match x.argv raw with
    | .error e => .error (commandName ++ " must be a JSON string array: " ++ e)
    | .ok argv =>
      if (argv.head?.all fun program => Text.trim program = "") = true ∨ argv.any hasNul = true then
        .error (commandName ++ " must contain a valid executable and NUL-free argv")
      else .ok (some ⟨argv, nonEmptyEnv env cwdName⟩)

def startupArgsFromEnv (x : Extern) (env : Env) : Except String (List StartupArgSpec) :=
  match nonEmptyEnv env "PPB_PMP_SUPERVISOR_ARG_SCHEMA_JSON" with
  | none => .ok []
  | some raw => match x.specs raw with
    | .error e => .error ("PPB_PMP_SUPERVISOR_ARG_SCHEMA_JSON invalid JSON: " ++ e)
    | .ok specs => (validateArgSpecs specs).map fun _ => specs

def allowlistFromEnv (env : Env) : List String :=
  match nonEmptyEnv env "PPB_DEPLOYMENT_ENV_ALLOWLIST" with
  | none => []
  | some raw => ((raw.toList.splitOn ',').map fun name => Text.trim (String.ofList name)).filter
      fun name => name ≠ "" ∧ isSafeEnvName name = true

/-- `from_env` (deployment.rs:64-90). -/
def fromEnv (x : Extern) (env : Env) : Except String Adapter := do
  let timeoutSecs := ((env "PPB_DEPLOYMENT_COMMAND_TIMEOUT_SECS").bind x.u64).getD 120
  let startupArgs ← startupArgsFromEnv x env
  let supervisorStart ←
    commandFromEnv x env "PPB_PMP_SUPERVISOR_START_JSON" "PPB_PMP_SUPERVISOR_WORKDIR"
  let supervisorStop ←
    commandFromEnv x env "PPB_PMP_SUPERVISOR_STOP_JSON" "PPB_PMP_SUPERVISOR_WORKDIR"
  let ppfBuild ← commandFromEnv x env "PPB_PPF_BUILD_COMMAND_JSON" "PPB_PPF_BUILD_WORKDIR"
  let backup ← commandFromEnv x env "PPB_BACKUP_COMMAND_JSON" "PPB_BACKUP_WORKDIR"
  return ⟨supervisorStart, supervisorStop, startupArgs, ppfBuild, backup, allowlistFromEnv env,
    min (max timeoutSecs 5) 3600⟩

/-! ## A command that is run -/

/-- `mappings` of `ppf_build_environment` (deployment.rs:189-198). -/
def mappings : List (String × String) :=
  [("site_name", "NUXT_PUBLIC_SITE_NAME"),
    ("site_description", "NUXT_PUBLIC_SITE_DESCRIPTION"),
    ("canonical_url", "NUXT_PUBLIC_SITE_URL"),
    ("analytics_provider", "NUXT_PUBLIC_ANALYTICS_PROVIDER"),
    ("plausible_domain", "NUXT_PUBLIC_PLAUSIBLE_DOMAIN"),
    ("ga_id", "NUXT_PUBLIC_GA_ID"),
    ("search_verification_google", "NUXT_PUBLIC_SEARCH_VERIFICATION_GOOGLE"),
    ("search_verification_bing", "NUXT_PUBLIC_SEARCH_VERIFICATION_BING")]

/-- What the configuration has for a key. -/
def configured (config : Json) (key : String) : Option String :=
  (((config.get? key).bind Json.asStr).map Text.trim).filter (· ≠ "")

/-- `ppf_build_environment` (deployment.rs:186-205). -/
def ppfBuildEnvironment (config : Option Json) : List (String × String) :=
  match config with
  | none => []
  | some config => mappings.filterMap fun m => (configured config m.1).map fun value => (m.2, value)

/-- What `Command::output` is called with. -/
structure Spawn where
  program : String
  args : List String
  cwd : Option String
  env : Env

/-- `BASE` (deployment.rs:226). -/
def base : List String :=
  ["PATH", "HOME", "USERPROFILE", "SYSTEMROOT", "WINDIR", "TEMP", "TMP", "TMPDIR", "PNPM_HOME",
    "XDG_CACHE_HOME"]

/-- `Command::env`, for each of the variables. -/
def setAll (vars : List (String × String)) (env : Env) : Env :=
  vars.foldl (fun env v => Function.update env v.1 (some v.2)) env

/-- `copy_safe_environment` (deployment.rs:225-228). -/
def copySafeEnvironment (env : Env) (extra : List String) : List (String × String) :=
  (base ++ extra).filterMap fun name => (env name).map fun value => (name, value)

/-- `run_with_env` (deployment.rs:167-178), up to the process. -/
def spawnOf (d : Adapter) (env : Env) (spec : FixedCommand) (extra : List String)
    (injected : List (String × String)) : Except String Spawn :=
  match spec.argv with
  | [] => .error "deployment command has no executable"
  | program :: fixedArgs =>
    .ok ⟨program, fixedArgs ++ extra, spec.cwd,
      setAll (injected.filter fun v => startsWith v.1 "NUXT_" && isSafeEnvName v.1)
        (setAll (copySafeEnvironment env d.envAllowlist) fun _ => none)⟩

inductive Request where
  /-- `start_pmp` (deployment.rs:111-116) -/
  | start (args : Json)
  /-- `stop_pmp` (deployment.rs:118-122) -/
  | stop
  /-- `run_job` (deployment.rs:124-129) -/
  | job (jobType : String) (ppfConfig : Option Json)

/-- The command of a request. -/
def Adapter.commandOf (d : Adapter) : Request → Option FixedCommand
  | .start _ => d.supervisorStart
  | .stop => d.supervisorStop
  | .job jobType _ =>
    if jobType = "ppf.build" then d.ppfBuild else if jobType = "backup" then d.backup else none

def notConfigured : Request → String
  | .start _ => "CAPABILITY_NOT_SUPPORTED: PMP supervisor start is not configured"
  | .stop => "CAPABILITY_NOT_SUPPORTED: PMP supervisor stop is not configured"
  | .job jobType _ =>
    "CAPABILITY_NOT_SUPPORTED: " ++ jobType ++ " deployment command is not configured"

/-- The arguments behind those of the operator. -/
def Adapter.extraOf (d : Adapter) : Request → Except String (List String)
  | .start args => validateStartupArgs d.startupArgs args
  | _ => .ok []

/-- The variables that are set. -/
def injectedOf : Request → List (String × String)
  | .job "ppf.build" ppfConfig => ppfBuildEnvironment ppfConfig
  | _ => []

def Adapter.spawn (d : Adapter) (env : Env) (request : Request) : Except String Spawn :=
  match d.commandOf request with
  | none => .error (notConfigured request)
  | some spec => match d.extraOf request with
    | .error e => .error e
    | .ok extra => spawnOf d env spec extra (injectedOf request)

/-! ## Its output -/

/-- `while end>0 && !text.is_char_boundary(end){end-=1}`. -/
def boundaryBelow (text : List Char) : ℕ → ℕ
  | 0 => 0
  | n + 1 => if Text.IsCharBoundary text (n + 1) then n + 1 else boundaryBelow text n

/-- `truncate_utf8` (deployment.rs:229-233), of a text that is UTF-8 already. -/
def truncateUtf8 (text : List Char) (max : ℕ) : List Char :=
  if Text.byteLen text ≤ max then text
  else ((Text.sliceTo text (boundaryBelow text max)).getD []) ++ ['…']

/-- How a command has ended. -/
inductive Ran where
  | timedOut
  | failed (error : String)
  | exited (success : Bool) (code : Option Int64) (statusText : String) (stdout stderr : String)

/-- The end of `run_with_env` (deployment.rs:178-182). -/
def resultOf : Ran → Except String Json
  | .timedOut => .error "deployment command timed out"
  | .failed error => .error ("deployment command failed to start: " ++ error)
  | .exited success code statusText stdout stderr =>
    let out := String.ofList (truncateUtf8 stdout.toList 4096)
    let err := String.ofList (truncateUtf8 stderr.toList 4096)
    if success = true then
      .ok (.obj [("exit_code", (code.map Json.ofInt64).getD .null), ("stderr", .str err),
        ("stdout", .str out)])
    else .error ("deployment command exited with " ++ statusText ++ ": " ++
      if err = "" then out else err)

/-- A text as it is, or cut at a character and marked. -/
def Cut (max : ℕ) (text cut : List Char) : Prop :=
  Text.byteLen text ≤ max ∧ cut = text ∨
    ∃ front, front <+: text ∧ Text.byteLen front ≤ max ∧ cut = front ++ ['…'] ∧
      ∀ front', front' <+: text → Text.byteLen front' ≤ max →
        Text.byteLen front' ≤ Text.byteLen front

/-- The last boundary up to `n`. -/
theorem boundaryBelow_spec (text : List Char) (n : ℕ) :
    boundaryBelow text n ≤ n ∧ Text.IsCharBoundary text (boundaryBelow text n) ∧
      ∀ m ≤ n, Text.IsCharBoundary text m → m ≤ boundaryBelow text n := by
  induction n with
  | zero => exact ⟨le_rfl, ⟨0, Nat.zero_le _, rfl⟩, fun m hm _ => hm⟩
  | succ n ih =>
    unfold boundaryBelow
    split_ifs with hb
    · exact ⟨le_rfl, hb, fun m hm _ => hm⟩
    · refine ⟨ih.1.trans (Nat.le_succ n), ih.2.1, fun m hm hbm => ?_⟩
      have hne : m ≠ n + 1 := fun heq => hb (heq ▸ hbm)
      exact ih.2.2 m (by omega) hbm

theorem truncateUtf8_cut (text : List Char) (max : ℕ) : Cut max text (truncateUtf8 text max) := by
  unfold truncateUtf8
  split_ifs with hshort
  · exact .inl ⟨hshort, rfl⟩
  · obtain ⟨hle, hb, hlast⟩ := boundaryBelow_spec text max
    obtain ⟨front, hfront⟩ := Option.isSome_iff_exists.mp ((Text.sliceTo_isSome _ _).mpr hb)
    obtain ⟨hpre, hlen⟩ := (Text.sliceTo_spec _ _ _).mp hfront
    refine .inr ⟨front, hpre, hlen ▸ hle, by rw [hfront]; rfl, fun front' hpre' hle' => ?_⟩
    rw [hlen]
    refine hlast _ hle' ⟨front'.length, hpre'.length_le, ?_⟩
    rw [← List.prefix_iff_eq_take.mp hpre']

/-! ## The environment of a command -/

variable {x : Extern} {env env' : Env} {d : Adapter} {request : Request} {cmd : Spawn}
  {name value : String}

/-- A variable is as it was or one of those that were set. -/
theorem setAll_cases (vars : List (String × String)) (env : Env) (name : String) :
    setAll vars env name = env name ∨ ∃ v ∈ vars, v.1 = name ∧ setAll vars env name = some v.2 := by
  induction vars generalizing env with
  | nil => exact .inl rfl
  | cons v vars ih =>
    show setAll vars (Function.update env v.1 (some v.2)) name = env name ∨ _
    rcases ih (Function.update env v.1 (some v.2)) with hsame | ⟨w, hw, hname, hset⟩
    · by_cases hv : v.1 = name
      · refine .inr ⟨v, List.mem_cons_self, hv, ?_⟩
        show setAll vars (Function.update env v.1 (some v.2)) name = _
        rw [hsame, hv, Function.update_self]
      · rw [Function.update_of_ne (Ne.symm hv)] at hsame
        exact .inl hsame
    · exact .inr ⟨w, List.mem_cons_of_mem _ hw, hname, hset⟩

theorem mem_copySafeEnvironment {extra : List String}
    (h : (name, value) ∈ copySafeEnvironment env extra) :
    (name ∈ base ∨ name ∈ extra) ∧ env name = some value := by
  obtain ⟨name', hname, hvalue⟩ := List.mem_filterMap.mp h
  obtain ⟨value', henv, heq⟩ := Option.map_eq_some_iff.mp hvalue
  obtain ⟨rfl, rfl⟩ := Prod.mk.inj heq
  exact ⟨List.mem_append.mp hname, henv⟩

/-- A name that is copied is none of the server's own. -/
theorem not_own_of_base : ∀ name ∈ base, startsWith name "PPB_" = false := by decide

theorem not_own_of_safe (h : isSafeEnvName name = true) : startsWith name "PPB_" = false := by
  unfold isSafeEnvName at h
  simpa using (Bool.and_eq_true_iff.mp h).1

theorem safe_of_allowlist (h : name ∈ allowlistFromEnv env) : isSafeEnvName name = true := by
  unfold allowlistFromEnv at h
  split at h
  · cases h
  · have hfilter := (List.mem_filter.mp h).2
    exact (of_decide_eq_true hfilter).2

theorem copySafeEnvironment_congr {extra : List String}
    (hextra : ∀ name ∈ extra, startsWith name "PPB_" = false)
    (h : ∀ name, startsWith name "PPB_" = false → env' name = env name) :
    copySafeEnvironment env' extra = copySafeEnvironment env extra := by
  unfold copySafeEnvironment
  refine List.filterMap_congr fun name hname => ?_
  rcases List.mem_append.mp hname with hbase | hin
  · rw [h name (not_own_of_base name hbase)]
  · rw [h name (hextra name hin)]

/-! ## What is configured -/

theorem commandFromEnv_ok {commandName cwdName : String} {spec : FixedCommand}
    (h : commandFromEnv x env commandName cwdName = .ok (some spec)) :
    spec.argv ≠ [] ∧ spec.argv.any hasNul = false := by
  unfold commandFromEnv at h
  split at h
  · cases Except.ok.inj h
  · split at h
    · cases h
    · rename_i argv _
      split_ifs at h with hbad
      obtain rfl := Option.some.inj (Except.ok.inj h)
      refine ⟨?_, Bool.eq_false_iff.mpr fun hnul => hbad (.inr hnul)⟩
      rintro (rfl : argv = [])
      exact hbad (.inl rfl)

/-- The allowlist and the commands of an adapter. -/
theorem fromEnv_ok (h : fromEnv x env = .ok d) : d.envAllowlist = allowlistFromEnv env ∧
    ∀ request spec, d.commandOf request = some spec →
      spec.argv ≠ [] ∧ spec.argv.any hasNul = false := by
  unfold fromEnv at h
  cases hargs : startupArgsFromEnv x env with
  | error e => rw [hargs] at h; cases h
  | ok startupArgs =>
  cases hstart : commandFromEnv x env "PPB_PMP_SUPERVISOR_START_JSON" "PPB_PMP_SUPERVISOR_WORKDIR" with
  | error e => rw [hargs, hstart] at h; cases h
  | ok supervisorStart =>
  cases hstop : commandFromEnv x env "PPB_PMP_SUPERVISOR_STOP_JSON" "PPB_PMP_SUPERVISOR_WORKDIR" with
  | error e => rw [hargs, hstart, hstop] at h; cases h
  | ok supervisorStop =>
  cases hbuild : commandFromEnv x env "PPB_PPF_BUILD_COMMAND_JSON" "PPB_PPF_BUILD_WORKDIR" with
  | error e => rw [hargs, hstart, hstop, hbuild] at h; cases h
  | ok ppfBuild =>
  cases hbackup : commandFromEnv x env "PPB_BACKUP_COMMAND_JSON" "PPB_BACKUP_WORKDIR" with
  | error e => rw [hargs, hstart, hstop, hbuild, hbackup] at h; cases h
  | ok backup =>
    rw [hargs, hstart, hstop, hbuild, hbackup] at h
    obtain rfl := Except.ok.inj h
    refine ⟨rfl, fun request spec hspec => ?_⟩
    cases request with
    | start args =>
      obtain rfl : supervisorStart = some spec := hspec
      exact commandFromEnv_ok hstart
    | stop =>
      obtain rfl : supervisorStop = some spec := hspec
      exact commandFromEnv_ok hstop
    | job jobType ppfConfig =>
      have hjob : (if jobType = "ppf.build" then ppfBuild
          else if jobType = "backup" then backup else none) = some spec := hspec
      split_ifs at hjob
      · obtain rfl : ppfBuild = some spec := hjob
        exact commandFromEnv_ok hbuild
      · obtain rfl : backup = some spec := hjob
        exact commandFromEnv_ok hbackup

/-- What is run, and what it sees. -/
theorem spawn_ok (h : d.spawn env request = .ok cmd) : ∃ spec extra,
    d.commandOf request = some spec ∧ d.extraOf request = .ok extra ∧
      cmd.program :: cmd.args = spec.argv ++ extra ∧ cmd.cwd = spec.cwd ∧
      cmd.env = setAll ((injectedOf request).filter fun v =>
          startsWith v.1 "NUXT_" && isSafeEnvName v.1)
        (setAll (copySafeEnvironment env d.envAllowlist) fun _ => none) := by
  unfold Adapter.spawn at h
  split at h
  · cases h
  · rename_i spec hspec
    split at h
    · cases h
    · rename_i extra hextra
      unfold spawnOf at h
      split at h
      · cases h
      · rename_i program fixedArgs hargv
        obtain rfl := Except.ok.inj h
        exact ⟨spec, extra, hspec, hextra, by rw [hargv]; rfl, rfl, rfl⟩

/-- Where a variable of a command comes from. -/
theorem env_cases (h : d.spawn env request = .ok cmd) (hvalue : cmd.env name = some value) :
    ((name ∈ base ∨ name ∈ d.envAllowlist) ∧ env name = some value) ∨
      ((name, value) ∈ injectedOf request ∧ startsWith name "NUXT_" = true ∧
        isSafeEnvName name = true) := by
  obtain ⟨spec, extra, -, -, -, -, henv⟩ := spawn_ok h
  rw [henv] at hvalue
  rcases setAll_cases ((injectedOf request).filter fun v =>
      startsWith v.1 "NUXT_" && isSafeEnvName v.1)
      (setAll (copySafeEnvironment env d.envAllowlist) fun _ => none) name with hsame | hinjected
  · rw [hsame] at hvalue
    rcases setAll_cases (copySafeEnvironment env d.envAllowlist) (fun _ => none) name with
      hnone | ⟨v, hv, rfl, hset⟩
    · rw [hnone] at hvalue
      cases hvalue
    · rw [hset] at hvalue
      obtain rfl := Option.some.inj hvalue
      exact .inl (mem_copySafeEnvironment hv)
  · obtain ⟨v, hv, rfl, hset⟩ := hinjected
    rw [hset] at hvalue
    obtain rfl := Option.some.inj hvalue
    obtain ⟨hv, hsafe⟩ := List.mem_filter.mp hv
    exact .inr ⟨hv, Bool.and_eq_true_iff.mp hsafe⟩

/-- Whatever the server's environment is and whatever is asked for: a command is the operator's,
    without a NUL, and the validated arguments behind it. A variable it sees is none of the server's
    own; it is an allowed one of the server with its value, or one of the frontend's for a build. The
    server's own variables make no difference to it. And its output is cut to size. -/
theorem environment_confined (x : Extern) (env : Env) (d : Adapter) (hd : fromEnv x env = .ok d)
    (request : Request) (cmd : Spawn) (h : d.spawn env request = .ok cmd) :
    (∃ spec extra, d.commandOf request = some spec ∧ d.extraOf request = .ok extra ∧
      cmd.program :: cmd.args = spec.argv ++ extra ∧ cmd.cwd = spec.cwd ∧
      spec.argv.any hasNul = false) ∧
    (∀ name value, cmd.env name = some value → startsWith name "PPB_" = false ∧
      (((name ∈ base ∨ name ∈ d.envAllowlist) ∧ env name = some value) ∨
        (name, value) ∈ injectedOf request ∧ startsWith name "NUXT_" = true)) ∧
    (∀ env', (∀ name, startsWith name "PPB_" = false → env' name = env name) →
      d.spawn env' request = .ok cmd) ∧
    ∀ success code statusText stdout stderr result,
      resultOf (.exited success code statusText stdout stderr) = .ok result →
        ∃ out err, result.get? "stdout" = some (.str (String.ofList out)) ∧
          result.get? "stderr" = some (.str (String.ofList err)) ∧
          Cut 4096 stdout.toList out ∧ Cut 4096 stderr.toList err := by
  obtain ⟨hallow, hcommands⟩ := fromEnv_ok hd
  have hextra : ∀ name ∈ d.envAllowlist, startsWith name "PPB_" = false := by
    intro name hname
    rw [hallow] at hname
    exact not_own_of_safe (safe_of_allowlist hname)
  refine ⟨?_, fun name value hvalue => ?_, fun env' hsame => ?_, ?_⟩
  · obtain ⟨spec, extra, hspec, hargs, hargv, hcwd, -⟩ := spawn_ok h
    exact ⟨spec, extra, hspec, hargs, hargv, hcwd, (hcommands request spec hspec).2⟩
  · rcases env_cases h hvalue with ⟨hname, henv⟩ | ⟨hinjected, hnuxt, hsafe⟩
    · exact ⟨hname.elim (not_own_of_base name) (hextra name), .inl ⟨hname, henv⟩⟩
    · exact ⟨not_own_of_safe hsafe, .inr ⟨hinjected, hnuxt⟩⟩
  · rw [← h]
    unfold Adapter.spawn spawnOf
    rw [copySafeEnvironment_congr hextra hsame]
  · intro success code statusText stdout stderr result hresult
    have hok : (if success = true then Except.ok (Json.obj
        [("exit_code", (code.map Json.ofInt64).getD .null),
          ("stderr", .str (String.ofList (truncateUtf8 stderr.toList 4096))),
          ("stdout", .str (String.ofList (truncateUtf8 stdout.toList 4096)))])
        else .error _) = .ok result := hresult
    split_ifs at hok
    obtain rfl := Except.ok.inj hok
    exact ⟨_, _, rfl, rfl, truncateUtf8_cut _ _, truncateUtf8_cut _ _⟩

/-- A server with a secret and a command that stops PMP. -/
def sampleEnv : Env := fun name =>
  if name = "PATH" then some "/bin"
  else if name = "PPB_DATABASE_URL" then some "postgres://secret"
  else if name = "PPB_PMP_SUPERVISOR_STOP_JSON" then some "stop"
  else none

def sampleAdapter : Adapter := ⟨none, some ⟨["stop"], none⟩, [], none, none, [], 120⟩

theorem environment_confined_stop :
    fromEnv ⟨fun text => .ok [text], fun _ => .ok [], fun _ => none⟩ sampleEnv =
      .ok sampleAdapter ∧
    ∃ cmd, sampleAdapter.spawn sampleEnv .stop = .ok cmd ∧ cmd.program = "stop" ∧
      cmd.env "PATH" = some "/bin" ∧ ∀ value, cmd.env "PPB_DATABASE_URL" ≠ some value := by
  have hd : fromEnv ⟨fun text => .ok [text], fun _ => .ok [], fun _ => none⟩ sampleEnv =
      .ok sampleAdapter := by rfl
  have hconfined := environment_confined _ sampleEnv sampleAdapter hd .stop _ rfl
  refine ⟨hd, _, rfl, rfl, by rfl, fun value hvalue => ?_⟩
  exact absurd (hconfined.2.1 _ value hvalue).1 (by decide)

end Ppb.Deployment
