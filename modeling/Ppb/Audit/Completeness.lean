import Ppb.Commands.Liveness

/-!
# Audit of finished commands (`audit/service.rs`, `audit/repo.rs`)

An audited command is to leave one row in `audit_events`, written by the executor
with the final outcome. The executor's word for the outcome is the status it also
writes to `command_runs`, `succeeded` or `failed`, and `record_completed_command`
hands it on as it is. The table allows `success`, `denied` and `error`: every one of
these inserts violates the check constraint, and the executor drops the error.

`AuditEvents` carries the constraints, so a row that violates them cannot be stored.
The other writers of the table (`record_principal`) leave `command_id` empty; they
are one step with any record.

* `recorded_invalid`: what an execution records is never stored.
* `audit_complete_iff`: the table is complete exactly as long as no audited command has
  finished.
-/

namespace Ppb.Audit

open Trace KeyedQueue Actions Commands Prog

/-! ## The table -/

/-- `NewAuditEvent` (audit/model.rs:30-44). -/
structure NewAuditEvent where
  principalType : String
  actorUserId : Option Uuid
  actorSessionId : Option Uuid
  action : String
  resourceType : String
  resourceId : String
  parametersRedacted : Json
  result : String
  errorCode : String
  requestId : String
  commandId : String
  ip : String
  userAgent : String
  deriving DecidableEq

/-- The check constraints of `audit_events` (migrations/0001_init.sql:238 and 245). -/
def NewAuditEvent.Valid (e : NewAuditEvent) : Prop :=
  (e.principalType = "user" ∨ e.principalType = "root") ∧
    (e.result = "success" ∨ e.result = "denied" ∨ e.result = "error")

instance (e : NewAuditEvent) : Decidable e.Valid := inferInstanceAs (Decidable (_ ∧ _))

/-- `audit_events`; a row that violates a constraint cannot be stored. -/
structure AuditEvents where
  rows : List NewAuditEvent
  valid : ∀ e ∈ rows, e.Valid

def AuditEvents.empty : AuditEvents := ⟨[], nofun⟩

/-- `INSERT INTO audit_events` (audit/repo.rs:6-31); `none` if it violates a constraint. -/
def AuditEvents.insert (t : AuditEvents) (e : NewAuditEvent) : Option AuditEvents :=
  if he : e.Valid then
    some ⟨t.rows ++ [e], by
      intro e' he'
      rcases List.mem_append.mp he' with h | h
      · exact t.valid e' h
      · rw [List.mem_singleton.mp h]
        exact he⟩
  else none

theorem AuditEvents.insert_eq_some {t t' : AuditEvents} {e : NewAuditEvent}
    (h : t.insert e = some t') : e.Valid ∧ t'.rows = t.rows ++ [e] := by
  unfold AuditEvents.insert at h
  split_ifs at h with he
  obtain rfl := Option.some.inj h
  exact ⟨he, rfl⟩

/-- The event of `record_completed_command` (audit/service.rs:49-81). -/
def completedCommand (audit : CommandAudit) (argsRedacted : Json)
    (status errorCode commandId : String) : NewAuditEvent :=
  { principalType := audit.principalType
    actorUserId := audit.actorUserId
    actorSessionId := some audit.actorSessionId
    action := audit.action
    resourceType := audit.resourceType
    resourceId := audit.resourceId
    parametersRedacted := argsRedacted
    result := status
    errorCode := errorCode
    requestId := audit.requestId
    commandId := commandId
    ip := audit.ip
    userAgent := audit.userAgent }

/-- The event of `record_principal` (audit/service.rs:11-40); all its callers leave
    `command_id` empty. -/
def principalEvent (auth : AuthPrincipal) (record : AuditRecord) : NewAuditEvent :=
  { principalType := auth.principalType.toText
    actorUserId := if auth.isRoot then none else some auth.sub
    actorSessionId := some auth.sid
    action := record.action
    resourceType := record.resourceType
    resourceId := record.resourceId
    parametersRedacted := record.parametersRedacted
    result := record.result
    errorCode := record.errorCode
    requestId := auth.requestId
    commandId := ""
    ip := record.ip
    userAgent := record.userAgent }

/-! ## Steps -/

/-- The process and its audit table. -/
structure Audited where
  sys : System
  events : AuditEvents

inductive AuditLabel where
  | sys (l : Label)
  /-- another endpoint records something -/
  | principal (auth : AuthPrincipal) (record : AuditRecord)

def Audited.init : Audited := ⟨System.init, .empty⟩

/-- What an answered question of an execution writes. -/
def writeAudit (events : AuditEvents) : Label → Option AuditEvents
  | .work _ _ ⟨.recordCompletedCommand audit argsRedacted status errorCode commandId, .ok ()⟩ =>
    events.insert (completedCommand audit argsRedacted status errorCode commandId)
  | _ => some events

def auditStep (state : AppState) (s : Audited) : AuditLabel → Option Audited
  | .sys l => do
    let sys ← step state s.sys l
    let events ← writeAudit s.events l
    return ⟨sys, events⟩
  | .principal auth record => do
    let events ← s.events.insert (principalEvent auth record)
    return ⟨s.sys, events⟩

/-! ## Completeness -/

/-- The rows of a command. -/
def Audited.rowsOf (s : Audited) (commandId : Uuid) : List NewAuditEvent :=
  s.events.rows.filter fun e => decide (e.commandId = commandId.toText)

/-- Every audited command that has finished has exactly one row, which says how it
    ended, and no other audited command has one. -/
structure AuditComplete (s : Audited) : Prop where
  finished : ∀ x ∈ s.sys.ended, ∀ result, x.rest.result = some (.ok result) →
    x.item.task.audit ≠ none → ∃ e, s.rowsOf x.item.task.commandId = [e] ∧
      (e.result = "success" ↔ ∃ v, result = .ok v)
  unfinished : ∀ i ∈ s.sys.broker.held, i.task.audit ≠ none → s.rowsOf i.task.commandId = []

variable {state : AppState} {s s' : Audited}

/-- The system's part of a run is a run of the system. -/
theorem sys_reachable (h : Reachable (auditStep state) Audited.init s) :
    Reachable (step state) System.init s.sys := by
  induction h with
  | start => exact .start
  | @next s s' l _ _ hstep ih =>
    cases l with
    | sys l =>
      simp only [auditStep, Option.bind_eq_bind, Option.bind_eq_some_iff, Option.pure_def,
        Option.some.injEq] at hstep
      obtain ⟨sys, hsys, events, -, rfl⟩ := hstep
      exact ih.next trivial hsys
    | principal auth record =>
      simp only [auditStep, Option.bind_eq_bind, Option.bind_eq_some_iff, Option.pure_def,
        Option.some.injEq] at hstep
      obtain ⟨events, -, rfl⟩ := hstep
      exact ih

/-- The constraint has no room for the executor's statuses. -/
theorem recorded_invalid {audit : CommandAudit} {argsRedacted : Json}
    {status errorCode commandId : String} (h : status = "succeeded" ∨ status = "failed") :
    ¬ (completedCommand audit argsRedacted status errorCode commandId).Valid := by
  rintro ⟨-, hresult⟩
  have hstatus : status = "success" ∨ status = "denied" ∨ status = "error" := hresult
  rcases h with rfl | rfl
  · exact absurd hstatus (by decide)
  · exact absurd hstatus (by decide)

/-- Only the other endpoints have rows. -/
theorem commandId_of_row (h : Reachable (auditStep state) Audited.init s) :
    ∀ e ∈ s.events.rows, e.commandId = "" := by
  induction h with
  | start => exact nofun
  | @next s s' l hreach _ hstep ih =>
    cases l with
    | sys l =>
      simp only [auditStep, Option.bind_eq_bind, Option.bind_eq_some_iff, Option.pure_def,
        Option.some.injEq] at hstep
      obtain ⟨sys, hsys, events, hevents, rfl⟩ := hstep
      unfold writeAudit at hevents
      split at hevents
      · next key worker audit argsRedacted status errorCode commandId =>
        -- an execution got this answer, so the row would have been valid
        exfalso
        cases step_effect hsys with
        | work _ _ _ x rest rows hx hrest hrows =>
          have hpath := executions_onPath (R := fun _ _ _ => True) (wp_execute_queries state.db)
            (sys_reachable hreach) x (.inl ⟨_, _, hx⟩)
          have hok := ok_of_follow hpath.future hrest
          exact recorded_invalid hok.2.2 (AuditEvents.insert_eq_some hevents).1
      · obtain rfl := Option.some.inj hevents
        exact ih
    | principal auth record =>
      simp only [auditStep, Option.bind_eq_bind, Option.bind_eq_some_iff, Option.pure_def,
        Option.some.injEq] at hstep
      obtain ⟨events, hevents, rfl⟩ := hstep
      intro e he
      rw [(AuditEvents.insert_eq_some hevents).2] at he
      rcases List.mem_append.mp he with he | he
      · exact ih e he
      · rw [List.mem_singleton.mp he]
        rfl

theorem toText_ne_empty (u : Uuid) : u.toText ≠ "" := by
  intro h
  have hlist := congrArg String.toList h
  simp [Uuid.toText] at hlist

/-- No command has a row. -/
theorem rowsOf_eq_nil (h : Reachable (auditStep state) Audited.init s) (commandId : Uuid) :
    s.rowsOf commandId = [] := by
  refine List.filter_eq_nil_iff.mpr fun e he => ?_
  rw [commandId_of_row h e he]
  simpa using (toText_ne_empty commandId).symm

/-- **The audit is complete exactly as long as there is nothing to record**: in every
    state of every run, finished audited commands and their rows agree if and only if no
    audited command has finished. -/
theorem audit_complete_iff (state : AppState) (s : Audited)
    (h : Reachable (auditStep state) Audited.init s) :
    AuditComplete s ↔
      ∀ x ∈ s.sys.ended, ∀ result, x.rest.result = some (.ok result) → x.item.task.audit = none := by
  constructor
  · intro hcomplete x hx result hr
    by_contra haudit
    obtain ⟨e, hrow, -⟩ := hcomplete.finished x hx result hr haudit
    rw [rowsOf_eq_nil h] at hrow
    cases hrow
  · intro hnone
    refine ⟨fun x hx result hr haudit => absurd (hnone x hx result hr) haudit, fun i _ _ => ?_⟩
    exact rowsOf_eq_nil h _

/-- The first command of a process, before it has finished. -/
theorem audit_complete_waiting :
    ∃ s, Reachable (auditStep ⟨true, 10⟩) Audited.init s ∧ s.sys.broker.held = [⟨0, gateTask 1⟩] ∧
      AuditComplete s := by
  have hrun : (runFrom (auditStep ⟨true, 10⟩) Audited.init
      ((gateRequest 0 1 true).map AuditLabel.sys)).any (fun s =>
        decide (s.sys.broker.held = [⟨0, gateTask 1⟩]) && s.sys.ended.isEmpty) = true := by
    decide +kernel
  obtain ⟨s, hreach, hs⟩ := exists_reachable_of_runFrom hrun
  simp only [Bool.and_eq_true, decide_eq_true_eq, List.isEmpty_iff] at hs
  refine ⟨s, hreach, hs.1, (audit_complete_iff ⟨true, 10⟩ s hreach).mpr ?_⟩
  rw [hs.2]
  nofun

/-- The command is executed; the insert of its audit row fails. -/
def auditedRun : List AuditLabel :=
  List.map AuditLabel.sys (gateRequest 0 1 true ++ gateAnswer (.ok .emptyObject) ++
    [.work "server" 0 ⟨.markFinished 1 "succeeded" (Json.render .emptyObject) "", .ok ()⟩,
      .work "server" 0 ⟨.recordCompletedCommand
        ⟨"root", none, 1, "server.roomcreation", "action", "server", "", "", ""⟩
        (.obj [("enabled", .bool false)]) "succeeded" "" (Uuid.toText 1), .error .other⟩,
      .work "server" 0 ⟨.complete 1 (.ok .emptyObject), ()⟩,
      .finish "server" 0])

/-- The execution of `gateTask` has ended with an empty object. -/
def endedEmpty (x : Execution) : Bool :=
  decide (x.item.task = gateTask 1) &&
    match x.rest.result with
    | some (.ok (.ok v)) => decide (v = .emptyObject)
    | _ => false

theorem not_audit_complete_success :
    ∃ s, Reachable (auditStep ⟨true, 10⟩) Audited.init s ∧
      (∃ x ∈ s.sys.ended, x.item.task = gateTask 1 ∧ x.rest.result = some (.ok (.ok .emptyObject))) ∧
      s.rowsOf 1 = [] ∧ ¬ AuditComplete s := by
  have hrun : (runFrom (auditStep ⟨true, 10⟩) Audited.init auditedRun).any (fun s =>
      s.sys.ended.any endedEmpty) = true := by
    decide +kernel
  obtain ⟨s, hreach, hs⟩ := exists_reachable_of_runFrom hrun
  obtain ⟨x, hx, hs⟩ := List.any_eq_true.mp hs
  obtain ⟨htask, hr⟩ := Bool.and_eq_true_iff.mp hs
  have htask : x.item.task = gateTask 1 := of_decide_eq_true htask
  have hresult : x.rest.result = some (.ok (.ok .emptyObject)) := by
    split at hr
    · next v hv => rw [hv, of_decide_eq_true hr]
    · cases hr
  refine ⟨s, hreach, ⟨x, hx, htask, hresult⟩, rowsOf_eq_nil hreach 1, fun hcomplete => ?_⟩
  obtain ⟨e, hrow, -⟩ := hcomplete.finished x hx _ hresult (by rw [htask]; simp [gateTask])
  rw [rowsOf_eq_nil hreach] at hrow
  cases hrow

end Ppb.Audit
