import Ppb.Actions.Routes

/-!
# The action executor (`actions/executor.rs`)

A worker of the broker calls `execute` for each task: the action is run against
PMP, the outcome is written to `command_runs` and to the audit log, and the
completion channel is fired. Before that, an error text is cut to 120 bytes, and
`truncate` cuts at a byte position: if this is inside a character the slice
panics, and with it the worker.

* `truncate_isSome`: when `truncate` does not panic.
* `execute_completes_iff`: an execution ends well exactly if the result of its run
  can be written down.
-/

namespace Ppb.Actions

open Prog Commands

/-! ## Running an action -/

/-- The executor asks the same questions and fails with a text. -/
abbrev Runner (α : Type) := Prog Query Query.Answer String α

/-- `fixed_cli_command` (actions/executor.rs:156-166). -/
def fixedCliCommand (action : String) (args : Json) : Option String :=
  if action = "server.connections" then
    match (args.get? "enabled").bind Json.asBool with
    | some true => some "connections on"
    | some false => some "connections off"
    | none => some "connections"
  else none

/-- The actions whose target player may be given as `phira_id`. -/
def playerTarget : List String :=
  ["room.kick", "room.force_move", "room.ban", "room.unban", "room.whitelist_add",
    "room.whitelist_remove"]

/-- `normalize_openuds_args` (actions/executor.rs:178-198). -/
def normalizeOpenudsArgs (action : String) (args : Json) : Json :=
  if !playerTarget.contains action then args
  else
    match args, (args.get? "phira_id").bind Json.asI64 with
    | .obj fields, some phiraId =>
      if (Fields.get? fields "user_id").isNone then
        .obj (Fields.remove "phira_id" (Fields.insert "user_id" (Json.ofInt64 phiraId) fields))
      else args
    | _, _ => args

/-- `PmpActionExecutor::run_internal` (actions/executor.rs:84-105). -/
def runInternal (db : Bool) (task : CommandTask) : Runner Json :=
  if task.action = "server.start" then do
    let answer ← ask (.startPmp task.args)
    ofExcept answer
  else if task.action = "server.supervisor_stop" then do
    let answer ← ask .stopPmp
    ofExcept answer
  else if task.action = "user.revoke_sessions" then do
    let phiraId ← ofOption "user.revoke_sessions requires args.user_id"
      ((task.args.get? "user_id").bind Json.asI64)
    failIf (db = false) "database not configured"
    let row ← ask (.findUserIdByPhiraId phiraId)
    let row ← ofExcept row
    let userId ← ofOption "user not found" row
    let revoked ← ask (.revokeAllForUser userId)
    ofExcept revoked
    return .obj [("revoked", .bool true)]
  else .fail ("unsupported internal action: " ++ task.action)

/-- `map_err(|e| e.to_string())?` for an answer of PMP. -/
def pmpAnswer (answer : Except OpenUdsError Json) : Runner Json :=
  match answer with
  | .ok v => pure v
  | .error e => .fail e.toText

/-- `PmpActionExecutor::run` (actions/executor.rs:39-82). -/
def run (db : Bool) (task : CommandTask) : Runner Json := do
  let action ← ofOption ("unknown action: " ++ task.action) (getAction task.action)
  match action.executor with
  | .openUds =>
    let answer ← ask (.openuds task.action (normalizeOpenudsArgs task.action task.args) none)
    pmpAnswer answer
  | .cliExecute =>
    let cmd ← ofOption ("no fixed CLI mapping for action " ++ task.action)
      (fixedCliCommand task.action task.args)
    let answer ← ask (cliExecute cmd)
    pmpAnswer answer
  | .cliRaw =>
    let cmd := ((task.args.get? "command").bind Json.asStr).getD ""
    failIf (cmd = "") "cli.execute requires args.command"
    let answer ← ask (cliExecute cmd)
    pmpAnswer answer
  | .internal => runInternal db task

/-! ## Executing a task -/

/-- `truncate` (actions/executor.rs:168-174); `none` is the panic of the slice. -/
def truncate (s : String) (max : ℕ) : Option String :=
  if Text.byteLen s.toList ≤ max then some s
  else (Text.sliceTo s.toList max).map fun p => String.ofList p ++ "…"

/-- The text of `e` that fits in `max` bytes can be cut off. -/
def CanTruncate (s : String) (max : ℕ) : Prop :=
  Text.byteLen s.toList ≤ max ∨ Text.IsCharBoundary s.toList max

instance (s : String) (max : ℕ) : Decidable (CanTruncate s max) :=
  inferInstanceAs (Decidable (_ ∨ _))

/-- `truncate` does not panic exactly if the text is short enough or `max` falls
    between two of its characters. -/
theorem truncate_isSome (s : String) (max : ℕ) :
    (truncate s max).isSome = true ↔ CanTruncate s max := by
  unfold truncate CanTruncate
  split_ifs with h
  · simp [h]
  · rw [Option.isSome_map, Text.sliceTo_isSome]
    simp [h]

/-- The end of an execution that panicked. -/
inductive Panic where
  | slice
  deriving DecidableEq, Repr

/-- What `execute` writes: status, summary and error code
    (actions/executor.rs:114-117). -/
def outcome : Except String Json → Option (String × String × String)
  | .ok v => some ("succeeded", v.render, "")
  | .error e => (truncate e 120).map fun code => ("failed", "", code)

/-- The result can be written down. -/
def Writable (r : Except String Json) : Prop := ∀ e, r = .error e → CanTruncate e 120

theorem outcome_isSome {r : Except String Json} : (outcome r).isSome = true ↔ Writable r := by
  cases r with
  | ok v => simp [outcome, Writable]
  | error e => simp [outcome, Writable, Option.isSome_map, truncate_isSome]

/-- The writes of a finished execution (actions/executor.rs:118-142). -/
def record (db : Bool) (task : CommandTask) (status summary errorCode : String) :
    Prog Query Query.Answer Panic Unit :=
  if db then do
    let _ ← ask (.markFinished task.commandId status summary errorCode)
    match task.audit with
    | some audit =>
      let _ ← ask (.recordCompletedCommand audit task.argsRedacted status errorCode
        task.commandId.toText)
    | none => pure ()
  else pure ()

/-- What `execute` does with the result of the run (actions/executor.rs:112-145). -/
def finishWith (db : Bool) (task : CommandTask) (result : Except String Json) :
    Prog Query Query.Answer Panic (Except String Json) := do
  let (status, summary, errorCode) ← ofOption .slice (outcome result)
  record db task status summary errorCode
  if task.completion then
    let _ ← ask (.complete task.commandId result)
    return result
  else
    return result

/-- `PmpActionExecutor::execute` (actions/executor.rs:110-146). -/
def execute (db : Bool) (task : CommandTask) :
    Prog Query Query.Answer Panic (Except String Json) := do
  let result ← (run db task).attempt
  finishWith db task result

/-! ## What an execution does -/

/-- The execution has returned `result`, after it marked the command finished and
    fired its completion channel. -/
def Completed (db : Bool) (task : CommandTask) (result : Except String Json) (h : Asked)
    (r : Except Panic (Except String Json)) : Prop :=
  r = .ok result ∧
    (db = true → ∃ status summary errorCode marked, (status = "succeeded" ∨ status = "failed") ∧
      ⟨.markFinished task.commandId status summary errorCode, marked⟩ ∈ h) ∧
    (task.completion = true → ⟨.complete task.commandId result, ()⟩ ∈ h)

variable {db : Bool} {task : CommandTask} {h : Asked} {result : Except String Json}

theorem status_of_outcome {status summary errorCode : String}
    (ho : outcome result = some (status, summary, errorCode)) :
    status = "succeeded" ∨ status = "failed" := by
  cases result with
  | ok v =>
    simp only [outcome, Option.some.injEq, Prod.mk.injEq] at ho
    exact .inl ho.1.symm
  | error e =>
    simp only [outcome, Option.map_eq_some_iff, Prod.mk.injEq] at ho
    obtain ⟨code, -, hstatus, -⟩ := ho
    exact .inr hstatus.symm

theorem wp_record_marks {ok : Asked → Event Query Query.Answer → Prop}
    {status summary errorCode : String} (hok : ∀ h e, ok h e) :
    wp ok (record db task status summary errorCode) h fun h' r => r = .ok () ∧ (db = true →
      ∃ marked, ⟨.markFinished task.commandId status summary errorCode, marked⟩ ∈ h') := by
  unfold record
  split_ifs with hdb
  · refine wp_ask (fun _ => hok _ _) fun marked => ?_
    cases task.audit with
    | none => exact ⟨rfl, fun _ => ⟨marked, by simp⟩⟩
    | some audit => exact wp_ask (fun _ => hok _ _) fun _ => ⟨rfl, fun _ => ⟨marked, by simp⟩⟩
  · exact ⟨rfl, fun h => absurd h hdb⟩

/-- A result that can be written down is recorded and handed on. -/
theorem wp_finishWith {ok : Asked → Event Query Query.Answer → Prop} (hok : ∀ h e, ok h e)
    (hw : Writable result) : wp ok (finishWith db task result) h (Completed db task result) := by
  refine wp_ofOption_bind (fun hnone => ?_) fun out hout => ?_
  · rw [← outcome_isSome, hnone] at hw
    cases hw
  · obtain ⟨status, summary, errorCode⟩ := out
    refine wp_bind (wp_record_marks hok) ?_ ?_
    · rintro h₁ u ⟨-, hmark⟩
      have hmarked : db = true → ∃ status summary errorCode marked,
          (status = "succeeded" ∨ status = "failed") ∧
            ⟨.markFinished task.commandId status summary errorCode, marked⟩ ∈ h₁ := by
        intro hdb
        obtain ⟨marked, hmem⟩ := hmark hdb
        exact ⟨status, summary, errorCode, marked, status_of_outcome hout, hmem⟩
      split_ifs with hc
      · refine wp_ask (fun _ => hok _ _) fun _ => ⟨rfl, fun hdb => ?_, fun _ => by simp⟩
        obtain ⟨s, t, c, marked, hs, hmem⟩ := hmarked hdb
        exact ⟨s, t, c, marked, hs, List.mem_append_left _ hmem⟩
      · exact ⟨rfl, hmarked, fun h => absurd h hc⟩
    · rintro h₁ e ⟨he, -⟩
      cases he

/-- Any other result panics before anything is recorded. -/
theorem finishWith_of_not_writable (hw : ¬ Writable result) :
    finishWith db task result = .fail .slice := by
  rw [← outcome_isSome, Bool.not_eq_true, Option.isSome_eq_false_iff, Option.isNone_iff_eq_none]
    at hw
  rw [finishWith, hw]
  rfl

/-- The questions of an internal action. -/
def IsInternalQuery : Query → Prop
  | .startPmp _ | .stopPmp | .findUserIdByPhiraId _ | .revokeAllForUser _ => True
  | _ => False

theorem wp_runInternal {ok : Asked → Event Query Query.Answer → Prop}
    (hok : ∀ h e, IsInternalQuery e.1 → ok h e) :
    wp ok (runInternal db task) h fun _ _ => True := by
  unfold runInternal
  split_ifs
  · exact wp_ask (fun _ => hok _ _ trivial) fun _ => trivial
  · exact wp_ask (fun _ => hok _ _ trivial) fun _ => trivial
  · refine wp_ofOption_bind (fun _ => trivial) fun phiraId _ => ?_
    refine wp_failIf_bind (fun _ => trivial) fun _ => ?_
    refine wp_ask (fun _ => hok _ _ trivial) fun row => ?_
    refine wp_bind (R := fun _ _ => True) (wp_ofExcept.mpr trivial) ?_ fun _ _ _ => trivial
    intro h₁ found _
    refine wp_ofOption_bind (fun _ => trivial) fun userId _ => ?_
    refine wp_ask (fun _ => hok _ _ trivial) fun revoked => ?_
    refine wp_bind (R := fun _ _ => True) (wp_ofExcept.mpr trivial) ?_ fun _ _ _ => trivial
    exact fun _ _ _ => trivial
  · trivial

theorem wp_pmpAnswer {ok : Asked → Event Query Query.Answer → Prop}
    {answer : Except OpenUdsError Json} : wp ok (pmpAnswer answer) h fun _ _ => True := by
  cases answer <;> trivial

/-- The questions of a run. -/
def IsRunQuery : Query → Prop
  | .openuds _ _ _ => True
  | q => IsInternalQuery q

theorem wp_run_queries {ok : Asked → Event Query Query.Answer → Prop}
    (hok : ∀ h e, IsRunQuery e.1 → ok h e) : wp ok (run db task) h fun _ _ => True := by
  refine wp_ofOption_bind (fun _ => trivial) fun action _ => ?_
  cases action.executor with
  | openUds => exact wp_ask (fun _ => hok _ _ trivial) fun _ => wp_pmpAnswer
  | cliExecute =>
    refine wp_ofOption_bind (fun _ => trivial) fun text _ => ?_
    exact wp_ask (fun _ => hok _ _ trivial) fun _ => wp_pmpAnswer
  | cliRaw =>
    refine wp_failIf_bind (fun _ => trivial) fun _ => ?_
    exact wp_ask (fun _ => hok _ _ trivial) fun _ => wp_pmpAnswer
  | internal =>
    refine wp_runInternal fun h e he => hok h e ?_
    obtain ⟨q, a⟩ := e
    cases q <;> first | exact he | exact he.elim

/-- The questions of an execution: those of its run, and what it records about its
    own command. -/
def IsExecuteQuery (task : CommandTask) : Query → Prop
  | .markFinished id status _ _ =>
    id = task.commandId ∧ (status = "succeeded" ∨ status = "failed")
  | .recordCompletedCommand audit _ status _ commandId =>
    task.audit = some audit ∧ commandId = task.commandId.toText ∧
      (status = "succeeded" ∨ status = "failed")
  | .complete id _ => id = task.commandId
  | q => IsRunQuery q

theorem wp_execute_queries (db : Bool) (task : CommandTask) :
    wp (fun _ e => IsExecuteQuery task e.1) (execute db task) [] fun _ _ => True := by
  refine wp_bind (R := fun _ _ => True) (wp_attempt (wp_run_queries fun h e he => ?_)) ?_
    fun _ _ _ => trivial
  · obtain ⟨q, a⟩ := e
    cases q <;> first | exact he | exact he.elim
  · intro h₁ result _
    refine wp_ofOption_bind (fun _ => trivial) fun out hout => ?_
    obtain ⟨status, summary, errorCode⟩ := out
    have hstatus := status_of_outcome hout
    refine wp_bind (R := fun _ _ => True) ?_ ?_ fun _ _ _ => trivial
    · unfold record
      split_ifs
      · refine wp_ask (fun _ => ⟨rfl, hstatus⟩) fun _ => ?_
        cases haudit : task.audit with
        | none => trivial
        | some audit => exact wp_ask (fun _ => ⟨haudit, rfl, hstatus⟩) fun _ => trivial
      · trivial
    · intro h₂ u _
      split_ifs
      · exact wp_ask (fun _ => rfl) fun _ => trivial
      · trivial

/-- How an execution ends, in terms of how its run ended. -/
def Concluded (db : Bool) (task : CommandTask) (h : Asked)
    (r : Except Panic (Except String Json)) : Prop :=
  ∃ es result, es <+: h ∧ (run db task).Ends es result ∧
    (Writable result → Completed db task result h r) ∧ (¬ Writable result → r = .error .slice)

theorem wp_execute_concluded (db : Bool) (task : CommandTask) :
    wp (fun _ _ => True) (execute db task) [] (Concluded db task) := by
  refine wp_bind (R := fun h r => ∃ result, r = .ok result ∧ (run db task).Ends h result)
    (wp_attempt ?_) ?_ ?_
  · exact wp_mono (wp_ends (run db task)) fun h r hr => ⟨r, rfl, hr⟩
  · rintro h₁ result ⟨_, ⟨⟩, hends⟩
    by_cases hw : Writable result
    · refine wp_mono (wp_grows (wp_finishWith (fun _ _ => trivial) hw)) ?_
      rintro h₂ r ⟨hpre, hc⟩
      exact ⟨h₁, result, hpre, hends, fun _ => hc, fun hn => absurd hw hn⟩
    · rw [finishWith_of_not_writable hw]
      exact ⟨h₁, result, List.prefix_rfl, hends, fun h => absurd h hw, fun _ => rfl⟩
  · rintro h₁ e ⟨_, ⟨⟩, -⟩

/-- **An execution ends well exactly if the result of its run can be written down.** -/
theorem execute_completes_iff {es : Asked} (hends : (run db task).Ends es result) :
    (∀ es' r, (execute db task).Ends (es ++ es') r → Completed db task result (es ++ es') r) ↔
      Writable result := by
  have hrest : (execute db task).follow es = some (finishWith db task result) :=
    follow_attempt_bind hends
  constructor
  · intro hall
    by_contra hw
    rw [finishWith_of_not_writable hw] at hrest
    have hend : (execute db task).Ends (es ++ []) (.error .slice) := by
      rw [List.append_nil, Ends, hrest]
      rfl
    cases (hall [] _ hend).1
  · intro hw es' r hend
    have hwp : wp (fun _ _ => True) (finishWith db task result) es (Completed db task result) :=
      wp_finishWith (fun _ _ => trivial) hw
    refine of_ends hwp ?_
    rw [Ends, follow_append, hrest] at hend
    exact hend

end Ppb.Actions
