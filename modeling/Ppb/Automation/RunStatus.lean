import Ppb.Automation.Store
import Ppb.Common.Alone

/-!
# Does every run of a runbook end?

`run` writes the final status of its row at its end. It has several earlier exits: the lookup of
the permissions, the reauth check, the insert of a command and its submission each leave the
handler with an error, and the row stays `running`.

* `RunEnded`: the row has a final status, which tells how the steps went; and the steps were
  executed in order, up to the first that failed.
* `run_ended_iff`: this is so just when none of the earlier exits is taken and the last `UPDATE`
  succeeds (`Trouble`).
-/

namespace Ppb.Automation

open Prog Auth Commands Actions

variable {state : AppState} {auth : AuthPrincipal} {headers : Headers} {h h' : Asked}
  {e : Event Query Query.Answer} {steps done rest : List RunbookStep} {step : RunbookStep}

/-! ## What was executed -/

/-- The steps that are not only waits. -/
def actionSteps (steps : List RunbookStep) : List RunbookStep :=
  steps.filter fun step => decide (step.action ≠ "")

def submittedAction : Event Query Query.Answer → Option String
  | ⟨.submit task, true⟩ => some task.action
  | _ => none

/-- The actions that the broker has accepted, in order. -/
def submitted (h : Asked) : List String := h.filterMap submittedAction

def outcomeOf : Event Query Query.Answer → Option Bool
  | ⟨.completion _ _, .result (.ok _)⟩ => some true
  | ⟨.completion _ _, _⟩ => some false
  | _ => none

/-- Whether each of them succeeded. -/
def outcomes (h : Asked) : List Bool := h.filterMap outcomeOf

/-- The run's row has a final status: `succeeded` just when every action step was executed and
    succeeded. The steps were executed in order, and only the last one may have failed. -/
structure RunEnded (steps : List RunbookStep) (h : Asked) (status : Option String) : Prop where
  terminal : status = some "succeeded" ∨ status = some "failed" ∨ status = some "cancelled"
  succeeded : status = some "succeeded" ↔
    submitted h = (actionSteps steps).map RunbookStep.action ∧ ∀ o ∈ outcomes h, o = true
  inOrder : submitted h <+: (actionSteps steps).map RunbookStep.action
  stops : (outcomes h).length = (submitted h).length ∧ ∀ o ∈ (outcomes h).dropLast, o = true

/-! ## The early exits -/

/-- The step that is next if all those before have succeeded. -/
def nextStep (steps : List RunbookStep) (h : Asked) : Option RunbookStep :=
  if (outcomes h).all id = true then (actionSteps steps)[(outcomes h).length]? else none

/-- An answer that makes the handler give up. -/
def fails (auth : AuthPrincipal) : Event Query Query.Answer → Bool
  | ⟨.groupRows user, .error _⟩ => user == auth.sub
  | ⟨.insertQueued .., .error _⟩ => true
  | ⟨.submit _, false⟩ => true
  | ⟨.finishRunbookRun .., .error _⟩ => true
  | _ => false

/-- The reauth check of the next step is made and refuses the token. -/
def ReauthRefused (auth : AuthPrincipal) (headers : Headers) (steps : List RunbookStep) (h : Asked) :
    Prop :=
  ∃ step action, nextStep steps h = some step ∧ getAction step.action = some action ∧
    action.longRunning = false ∧ isJobOnlyAction action.id = false ∧
    Permitted auth action.permission h ∧ action.reauth = true ∧
    ¬ Reauthed auth headers (reauthRisk action) h

/-- A lookup of permissions, the insert of a command, its submission or the final `UPDATE` has
    failed, or a reauth check has refused the token. -/
def Trouble (auth : AuthPrincipal) (headers : Headers) (steps : List RunbookStep) (h : Asked) : Prop :=
  (∃ e ∈ h, fails auth e = true) ∨ ReauthRefused auth headers steps h

/-! ## Histories -/

theorem actionSteps_append (a b : List RunbookStep) :
    actionSteps (a ++ b) = actionSteps a ++ actionSteps b := List.filter_append ..

theorem actionSteps_cons_of_ne (hstep : step.action ≠ "") (rest : List RunbookStep) :
    actionSteps (step :: rest) = step :: actionSteps rest :=
  List.filter_cons_of_pos (by simp [hstep])

theorem actionSteps_cons_of_eq (hstep : step.action = "") (rest : List RunbookStep) :
    actionSteps (step :: rest) = actionSteps rest :=
  List.filter_cons_of_neg (by simp [hstep])

theorem submitted_append (h es : Asked) : submitted (h ++ es) = submitted h ++ submitted es :=
  List.filterMap_append

theorem outcomes_append (h es : Asked) : outcomes (h ++ es) = outcomes h ++ outcomes es :=
  List.filterMap_append

theorem submitted_singleton (e : Event Query Query.Answer) :
    submitted [e] = (submittedAction e).toList := by
  rw [submitted]
  cases hsub : submittedAction e <;> simp [hsub]

theorem outcomes_singleton (e : Event Query Query.Answer) : outcomes [e] = (outcomeOf e).toList := by
  rw [outcomes]
  cases hout : outcomeOf e <;> simp [hout]

/-- An event that changes nothing of what was executed. -/
structure Plain (auth : AuthPrincipal) (e : Event Query Query.Answer) : Prop where
  submitted : submittedAction e = none
  outcome : outcomeOf e = none
  calm : fails auth e = false

/-- The steps `done` were executed, all with success, and nothing has failed. -/
structure Carried (auth : AuthPrincipal) (done : List RunbookStep) (h : Asked) : Prop where
  submitted : submitted h = (actionSteps done).map RunbookStep.action
  outcomes : outcomes h = List.replicate (actionSteps done).length true
  calm : ∀ e ∈ h, fails auth e = false

theorem Carried.append {es : Asked} (hc : Carried auth done h) (hes : ∀ e ∈ es, Plain auth e) :
    Carried auth done (h ++ es) where
  submitted := by
    have hnone : Automation.submitted es = [] :=
      List.filterMap_eq_nil_iff.mpr fun e he => (hes e he).submitted
    rw [submitted_append, hnone, List.append_nil, hc.submitted]
  outcomes := by
    have hnone : Automation.outcomes es = [] :=
      List.filterMap_eq_nil_iff.mpr fun e he => (hes e he).outcome
    rw [outcomes_append, hnone, List.append_nil, hc.outcomes]
  calm := by
    intro e he
    rcases List.mem_append.mp he with he | he
    · exact hc.calm e he
    · exact (hes e he).calm

theorem Carried.snoc (hc : Carried auth done h) (e : Event Query Query.Answer) (he : Plain auth e) :
    Carried auth done (h ++ [e]) :=
  hc.append (by simpa using he)

theorem Carried.nextStep (hc : Carried auth done h) (hstep : step.action ≠ "") (rest : List RunbookStep) :
    nextStep (done ++ step :: rest) h = some step := by
  unfold Automation.nextStep
  rw [if_pos (by simp [hc.outcomes]), hc.outcomes, List.length_replicate, actionSteps_append,
    List.getElem?_append_right le_rfl, Nat.sub_self, actionSteps_cons_of_ne hstep]
  rfl

/-- One more step has succeeded. -/
theorem Carried.succeed (hc : Carried auth done h) (hstep : step.action ≠ "") {task : CommandTask}
    (htask : task.action = step.action) {id : Uuid} {timeout : Option ℕ} {v : Json} :
    Carried auth (done ++ [step])
      (h ++ [⟨.submit task, true⟩] ++ [⟨.completion id timeout, .result (.ok v)⟩]) where
  submitted := by
    rw [submitted_append, submitted_append, hc.submitted, actionSteps_append,
      actionSteps_cons_of_ne hstep, List.map_append]
    show _ ++ [task.action] ++ [] = _ ++ [step.action]
    rw [htask, List.append_nil]
  outcomes := by
    rw [outcomes_append, outcomes_append, hc.outcomes, actionSteps_append,
      actionSteps_cons_of_ne hstep, List.length_append, List.replicate_add]
    show _ ++ [] ++ [true] = _ ++ [true]
    rw [List.append_nil]
  calm := by
    intro e he
    rcases List.mem_append.mp he with he | he
    · rcases List.mem_append.mp he with he | he
      · exact hc.calm e he
      · rw [List.mem_singleton.mp he]
        rfl
    · rw [List.mem_singleton.mp he]
      rfl

/-! ## The checks -/

/-- What the loop asks. -/
def IsStep : Query → Prop
  | .findRunbook _ | .insertRunbookRun .. | .finishRunbookRun .. => False
  | _ => True

theorem Latest.snoc {q : Query} {a : q.Answer} (hl : Latest h q a) (e : Event Query Query.Answer)
    (he : e.1 ≠ q) : Latest (h ++ [e]) q a :=
  hl.append (by simpa using he)

theorem Latest.unique {q : Query} {a b : q.Answer} (ha : Latest h q a) (hb : Latest h q b) : a = b := by
  obtain ⟨h₁, h₂, rfl, hne⟩ := ha
  obtain ⟨h₃, h₄, heq, hne'⟩ := hb
  rcases List.append_eq_append_iff.mp heq with ⟨as, rfl, has⟩ | ⟨as, rfl, has⟩
  · cases as with
    | nil =>
      obtain ⟨hab, -⟩ := List.cons.inj has
      exact eq_of_heq (Sigma.mk.inj hab).2
    | cons x as =>
      obtain ⟨rfl, rfl⟩ := List.cons.inj has
      exact absurd rfl (hne ⟨q, b⟩ (by simp))
  · cases as with
    | nil =>
      obtain ⟨hab, -⟩ := List.cons.inj has
      exact (eq_of_heq (Sigma.mk.inj hab).2).symm
    | cons x as =>
      obtain ⟨rfl, rfl⟩ := List.cons.inj has
      exact absurd rfl (hne' ⟨q, a⟩ (by simp))

theorem Resolved.unique {perms perms' : List String} (hp : Resolved auth h perms)
    (hp' : Resolved auth h perms') : perms = perms' := by
  unfold Resolved at hp hp'
  split_ifs at hp hp'
  · rw [hp, hp']
  · obtain ⟨rows, hl, rfl⟩ := hp
    obtain ⟨rows', hl', rfl⟩ := hp'
    rw [Except.ok.inj (Latest.unique hl hl')]

theorem wp_lookup {permission : String} :
    wp (fun _ e => IsStep e.1) (hasPermission state auth permission) h fun h' r =>
      match r with
      | .ok granted => (∃ es, h' = h ++ es ∧ ∀ e ∈ es, Plain auth e) ∧
        ∃ perms, Resolved auth h' perms ∧ granted = grants perms permission
      | .error _ => state.db = false ∨ ∃ e ∈ h', fails auth e = true := by
  unfold hasPermission permissionsForPrincipal
  split_ifs with hroot
  · exact ⟨⟨[], by simp, List.forall_mem_nil _⟩, [rootWildcard], by simp [Resolved, hroot], rfl⟩
  · unfold AppState.requireDb failIf
    split_ifs with hdb
    · exact .inl hdb
    · refine fun rows => ⟨trivial, ?_⟩
      cases rows with
      | error err => exact .inr ⟨⟨.groupRows auth.sub, .error err⟩, by simp, by simp [fails]⟩
      | ok rows =>
        refine ⟨⟨[⟨.groupRows auth.sub, .ok rows⟩], rfl, ?_⟩, permissionsOfRows rows, ?_, rfl⟩
        · intro e he
          rw [List.mem_singleton.mp he]
          exact ⟨rfl, rfl, rfl⟩
        · rw [Resolved, if_neg hroot]
          exact ⟨rows, .now _ _ _, rfl⟩

/-- `decode_reauth` refuses a token that is not what `Decoded` says. -/
theorem wp_decode {token : String} {sid : Uuid} :
    wp (fun _ e => IsStep e.1) (decodeReauth token sid) h fun h' r =>
      Extends IsReauthQuery h h' ∧ match r with
      | .ok claims => Decoded token sid claims h'
      | .error _ => ∀ claims, ¬ Decoded token sid claims h' := by
  refine wp_ask (fun _ => trivial) fun decoded => ?_
  have hx : Extends IsReauthQuery h (h ++ [⟨.decodeReauthToken token, decoded⟩]) :=
    Extends.refl.snoc trivial
  have hl : Latest (h ++ [⟨.decodeReauthToken token, decoded⟩]) (.decodeReauthToken token) decoded :=
    .now _ _ _
  cases decoded with
  | none =>
    refine ⟨hx, fun claims hdecoded => ?_⟩
    obtain ⟨now, hl', -⟩ := hdecoded
    cases Latest.unique hl hl'
  | some claims =>
    refine wp_failIf_bind (fun hpurpose => ⟨hx, ?_⟩) fun hpurpose => ?_
    · rintro claims' ⟨now, hl', hpurpose', -⟩
      obtain rfl := Option.some.inj (Latest.unique hl hl')
      exact hpurpose hpurpose'
    · refine wp_failIf_bind (fun hsid => ⟨hx, ?_⟩) fun hsid => ?_
      · rintro claims' ⟨now, hl', -, hsid', -⟩
        obtain rfl := Option.some.inj (Latest.unique hl hl')
        exact hsid hsid'
      · refine wp_ask (fun _ => trivial) fun now => ?_
        have hx' := hx.snoc (e := ⟨.now, now⟩) (C := IsReauthQuery) trivial
        have hl' := Latest.snoc hl ⟨.now, now⟩ nofun
        refine wp_failIf_bind (fun hexp => ⟨hx', ?_⟩) fun hexp => ⟨hx', ?_⟩
        · rintro claims' ⟨now', hl'', -, -, hnow', hexp'⟩
          obtain rfl := Option.some.inj (Latest.unique hl' hl'')
          obtain rfl := Latest.unique (.now _ _ _) hnow'
          exact absurd hexp (Int64.not_le.mpr hexp')
        · exact ⟨now, hl', not_not.mp hpurpose, not_not.mp hsid, .now _ _ _, Int64.not_le.mp hexp⟩

/-- The reauth check refuses who has presented no such token. -/
theorem wp_reauth {risk : ReauthRisk} :
    wp (fun _ e => IsStep e.1) (checkReauthHeader auth headers risk) h fun h' r =>
      Extends IsReauthQuery h h' ∧ ∀ err, r = .error err → ¬ Reauthed auth headers risk h' := by
  refine wp_ofOption_bind (fun hnone => ⟨.refl, ?_⟩) fun token htoken => ?_
  · rintro _ - ⟨token, claims, now, htoken, -⟩
    rw [hnone] at htoken
    cases htoken
  · have hdecoded : ∀ {h' : Asked}, Reauthed auth headers risk h' →
        ∃ claims, Decoded token auth.sid claims h' ∧ risk.adequate claims.risk = true := by
      rintro h' ⟨token', claims, now, htoken', hl, hpurpose, hsid, hnow, hexp, hrisk⟩
      obtain rfl := Option.some.inj (htoken.symm.trans htoken')
      exact ⟨claims, ⟨now, hl, hpurpose, hsid, hnow, hexp⟩, hrisk⟩
    refine wp_bind wp_decode ?_ ?_
    · rintro h₁ claims ⟨hx, hclaims⟩
      refine wp_failIf (fun hrisk => ⟨hx, ?_⟩) fun _ => ⟨hx, nofun⟩
      intro _ _ hreauthed
      obtain ⟨claims', hclaims', hrisk'⟩ := hdecoded hreauthed
      obtain ⟨_, hl, -⟩ := hclaims
      obtain ⟨_, hl', -⟩ := hclaims'
      obtain rfl := Option.some.inj (Latest.unique hl hl')
      rw [hrisk] at hrisk'
      cases hrisk'
    · rintro h₁ err ⟨hx, hno⟩
      refine ⟨hx, fun _ _ hreauthed => ?_⟩
      obtain ⟨claims, hclaims, -⟩ := hdecoded hreauthed
      exact hno claims hclaims

theorem plain_of_reauth (he : IsReauthQuery e.1) : Plain auth e := by
  obtain ⟨q, a⟩ := e
  cases q with
  | decodeReauthToken token => exact ⟨rfl, rfl, rfl⟩
  | now => exact ⟨rfl, rfl, rfl⟩
  | _ => exact he.elim

/-- The reauth check of a step. -/
theorem wp_reauthGate {action : ActionDescriptor} (hc : Carried auth done h) :
    wp (fun _ e => IsStep e.1) (reauthGate auth headers action) h fun h' r =>
      Carried auth done h' ∧ ∀ err, r = .error err → Extends IsReauthQuery h h' ∧
        action.reauth = true ∧ ¬ Reauthed auth headers (reauthRisk action) h' := by
  unfold reauthGate
  split_ifs with hreauth
  · refine wp_mono wp_reauth ?_
    rintro h' r ⟨hx, hrefused⟩
    refine ⟨?_, fun err herr => ⟨hx, hreauth, hrefused err herr⟩⟩
    obtain ⟨es, rfl, hes⟩ := hx
    exact hc.append fun e he => plain_of_reauth (hes e he)
  · exact ⟨hc, nofun⟩

/-! ## The step loop -/

/-- The loop has stopped at a step, and nothing has failed. -/
structure Stopped (auth : AuthPrincipal) (steps : List RunbookStep) (h : Asked) : Prop where
  calm : ∀ e ∈ h, fails auth e = false
  inOrder : submitted h <+: (actionSteps steps).map RunbookStep.action
  stops : (outcomes h).length = (submitted h).length ∧ ∀ o ∈ (outcomes h).dropLast, o = true
  /-- the step could not be executed, or it has failed -/
  failed : (∃ step action, nextStep steps h = some step ∧ getAction step.action = some action ∧
    (action.longRunning = true ∨ isJobOnlyAction action.id = true ∨
      ∃ perms, Resolved auth h perms ∧ grants perms action.permission = false)) ∨
    ∃ o ∈ outcomes h, o = false

/-- How the step loop ends. -/
def LoopEnd (auth : AuthPrincipal) (headers : Headers) (steps : List RunbookStep) (h : Asked) :
    Except ApiError (Bool × List AutomationStepResult) → Prop
  | .ok (true, _) => Carried auth steps h
  | .ok (false, _) => Stopped auth steps h
  | .error _ => Trouble auth headers steps h

theorem Carried.inOrder (hc : Carried auth done h) (rest : List RunbookStep) :
    Automation.submitted h <+: (actionSteps (done ++ rest)).map RunbookStep.action := by
  rw [hc.submitted, actionSteps_append, List.map_append]
  exact List.prefix_append _ _

theorem Carried.stops (hc : Carried auth done h) :
    (Automation.outcomes h).length = (Automation.submitted h).length ∧
      ∀ o ∈ (Automation.outcomes h).dropLast, o = true := by
  refine ⟨by rw [hc.submitted, hc.outcomes, List.length_replicate, List.length_map], fun o ho => ?_⟩
  rw [hc.outcomes] at ho
  exact List.eq_of_mem_replicate (List.mem_of_mem_dropLast ho)

/-- The loop stops at a step that is not executed. -/
theorem Carried.stop (hc : Carried auth done h) (hstep : step.action ≠ "") {action : ActionDescriptor}
    (haction : getAction step.action = some action)
    (hwhy : action.longRunning = true ∨ isJobOnlyAction action.id = true ∨
      ∃ perms, Resolved auth h perms ∧ grants perms action.permission = false) :
    Stopped auth (done ++ step :: rest) h where
  calm := hc.calm
  inOrder := hc.inOrder _
  stops := hc.stops
  failed := .inl ⟨step, action, hc.nextStep hstep rest, haction, hwhy⟩

/-- The loop stops at a step that has failed. -/
theorem Carried.fail (hc : Carried auth done h) (hstep : step.action ≠ "") {task : CommandTask}
    (htask : task.action = step.action) {e : Event Query Query.Answer} (hsubmitted : submittedAction e = none)
    (houtcome : outcomeOf e = some false) (hcalm : fails auth e = false) :
    Stopped auth (done ++ step :: rest) (h ++ [⟨.submit task, true⟩] ++ [e]) := by
  have hsub : Automation.submitted (h ++ [⟨.submit task, true⟩] ++ [e]) =
      (actionSteps done).map RunbookStep.action ++ [step.action] := by
    rw [submitted_append, submitted_append, hc.submitted, submitted_singleton, submitted_singleton,
      hsubmitted, ← htask]
    exact List.append_nil _
  have hout : Automation.outcomes (h ++ [⟨.submit task, true⟩] ++ [e]) =
      List.replicate (actionSteps done).length true ++ [false] := by
    rw [outcomes_append, outcomes_append, hc.outcomes, outcomes_singleton, outcomes_singleton,
      houtcome]
    show _ ++ [] ++ [false] = _
    rw [List.append_nil]
  have hmem : false ∈ Automation.outcomes (h ++ [⟨.submit task, true⟩] ++ [e]) := by
    rw [hout]
    exact List.mem_append_right _ (List.mem_singleton_self _)
  refine ⟨?_, ?_, ⟨?_, ?_⟩, .inr ⟨false, hmem, rfl⟩⟩
  · intro e' he'
    rcases List.mem_append.mp he' with he' | he'
    · rcases List.mem_append.mp he' with he' | he'
      · exact hc.calm e' he'
      · rw [List.mem_singleton.mp he']
        rfl
    · rwa [List.mem_singleton.mp he']
  · rw [hsub, actionSteps_append, actionSteps_cons_of_ne hstep, List.map_append, List.map_cons]
    exact List.prefix_append_right_inj _ |>.mpr (List.prefix_append [step.action] _)
  · rw [hsub, hout]
    simp
  · intro o ho
    rw [hout, List.dropLast_concat] at ho
    exact List.eq_of_mem_replicate ho

/-- The command of a step, up to its submission. -/
theorem wp_enqueue {action : ActionDescriptor} {args : Json} {resource : String → String × String}
    (hc : Carried auth done h) :
    wp (fun _ e => IsStep e.1) (enqueue auth headers action args resource true) h fun h' r =>
      match r with
      | .ok _ => ∃ h₁ task, Carried auth done h₁ ∧ h' = h₁ ++ [⟨.submit task, true⟩] ∧
        task.action = action.id
      | .error _ => ∃ e ∈ h', fails auth e = true := by
  refine fun commandId => ⟨trivial, fun inserted => ⟨trivial, ?_⟩⟩
  cases inserted with
  | error err =>
    exact ⟨_, List.mem_append_right _ (List.mem_singleton_self _), rfl⟩
  | ok u =>
    refine fun accepted => ⟨trivial, ?_⟩
    cases accepted with
    | false =>
      exact ⟨_, List.mem_append_right _ (List.mem_singleton_self _), rfl⟩
    | true =>
      refine ⟨_, _, ?_, rfl, rfl⟩
      rw [List.append_assoc]
      refine hc.append fun e he => ?_
      rcases List.mem_append.mp he with he | he
      · rw [List.mem_singleton.mp he]
        exact ⟨rfl, rfl, rfl⟩
      · rw [List.mem_singleton.mp he]
        exact ⟨rfl, rfl, rfl⟩

theorem wp_sleep {wait : Option ℕ} (hc : Carried auth done h) :
    wp (fun _ e => IsStep e.1) (sleepAfter wait) h fun h' r => Carried auth done h' ∧ r = .ok () := by
  cases wait with
  | none => exact ⟨hc, rfl⟩
  | some secs =>
    refine fun a => ⟨trivial, hc.append fun e he => ?_, rfl⟩
    rw [List.mem_singleton.mp he]
    exact ⟨rfl, rfl, rfl⟩

/-- A step that was checked knows its action. -/
theorem getAction_of_validateSteps (hvalid : validateSteps steps = .ok ()) (hmem : step ∈ steps)
    (hstep : step.action ≠ "") : ∃ action, getAction step.action = some action := by
  induction steps with
  | nil => cases hmem
  | cons first rest ih =>
    rw [validateSteps] at hvalid
    cases hfirst : validateStep first with
    | error err => rw [hfirst] at hvalid; cases hvalid
    | ok u =>
      rw [hfirst] at hvalid
      rcases List.mem_cons.mp hmem with rfl | hmem
      · unfold validateStep at hfirst
        split_ifs at hfirst with _ hunknown
        rw [not_and, ← ne_eq, Option.ne_none_iff_exists'] at hunknown
        exact hunknown hstep
      · exact ih hvalid hmem

/-- The step loop, by induction on the steps that are left: those before have succeeded. -/
theorem wp_runSteps {runbook : Uuid} {runArgs : Json} (hdb : state.db = true)
    (hvalid : validateSteps steps = .ok ()) :
    ∀ {rest done : List RunbookStep} {results : List AutomationStepResult} {h : Asked},
      steps = done ++ rest → Carried auth done h →
      wp (fun _ e => IsStep e.1) (runSteps state auth headers runbook runArgs rest results) h
        (LoopEnd auth headers steps) := by
  intro rest
  induction rest with
  | nil =>
    intro done results h hsteps hc
    rw [List.append_nil] at hsteps
    rw [hsteps]
    exact hc
  | cons step rest ih =>
    intro done results h hsteps hc
    have hnext : steps = (done ++ [step]) ++ rest := by rw [hsteps]; simp
    rw [runSteps]
    split_ifs with hwait
    · refine wp_bind (wp_sleep hc) ?_ ?_
      · rintro h₁ _ ⟨hc₁, -⟩
        refine ih hnext ⟨?_, ?_, hc₁.calm⟩
        · rw [hc₁.submitted, actionSteps_append, actionSteps_cons_of_eq hwait]
          exact congrArg _ (List.append_nil _).symm
        · rw [hc₁.outcomes, actionSteps_append, actionSteps_cons_of_eq hwait]
          exact congrArg (fun l => List.replicate (List.length l) true) (List.append_nil _).symm
      · rintro h₁ err ⟨-, herr⟩
        cases herr
    · obtain ⟨action, haction⟩ := getAction_of_validateSteps hvalid
        (hsteps ▸ List.mem_append_right _ List.mem_cons_self) hwait
      rw [haction]
      show wp _ (if _ then _ else _) _ _
      split_ifs with hlong
      · rw [Bool.or_eq_true] at hlong
        rw [hsteps]
        exact hc.stop hwait haction (hlong.imp_right .inl)
      · simp only [Bool.or_eq_true, not_or, Bool.not_eq_true] at hlong
        refine wp_bind wp_lookup ?_ ?_
        · rintro h₁ granted ⟨⟨es, rfl, hes⟩, perms, hperms, rfl⟩
          have hc₁ := hc.append hes
          split_ifs with hgranted
          · rw [hsteps]
            exact hc₁.stop hwait haction (.inr (.inr ⟨perms, hperms, hgranted⟩))
          · have hpermitted : Permitted auth action.permission (h ++ es) :=
              ⟨perms, hperms, by simpa [grants, or_iff_not_imp_left] using hgranted⟩
            refine wp_bind (wp_reauthGate hc₁) ?_ ?_
            · rintro h₂ _ ⟨hc₂, -⟩
              refine wp_bind (wp_enqueue hc₂) ?_ fun h₃ err hfails => .inl hfails
              rintro h₃ commandId ⟨h₃, task, hc₃, rfl, htask⟩
              rw [getAction_id haction] at htask
              refine wp_ask (fun _ => trivial) fun completion => ?_
              have hfail : ∀ c, outcomeOf ⟨.completion commandId none, c⟩ = some false →
                  Stopped auth steps (h₃ ++ [⟨.submit task, true⟩] ++ [⟨.completion commandId none, c⟩]) := by
                intro c houtcome
                rw [hsteps]
                exact hc₃.fail hwait htask rfl houtcome rfl
              cases completion with
              | result r =>
                cases r with
                | error err => exact hfail _ rfl
                | ok v =>
                refine wp_bind (wp_sleep (hc₃.succeed hwait htask)) ?_ ?_
                · rintro h₅ _ ⟨hc₅, -⟩
                  exact ih hnext hc₅
                · rintro h₅ err ⟨-, herr⟩
                  cases herr
              | dropped => exact hfail _ rfl
              | timedOut => exact hfail _ rfl
            · rintro h₂ err ⟨hc₂, hrefused⟩
              obtain ⟨hx, hreauth, hno⟩ := hrefused err rfl
              refine .inr ⟨step, action, ?_, haction, hlong.1, hlong.2, ?_, hreauth, hno⟩
              · rw [hsteps]
                exact hc₂.nextStep hwait rest
              · exact hpermitted.extends hx not_false
        · rintro h₁ err (hno | hfails)
          · rw [hdb] at hno
            cases hno
          · exact .inl hfails

/-! ## The run -/

def insertedId : Event Query Query.Answer → Option Uuid
  | ⟨.insertRunbookRun .., .ok id⟩ => some id
  | _ => none

/-- The rows that the handler has inserted. -/
def insertedIds (h : Asked) : List Uuid := h.filterMap insertedId

/-- The definition that the handler has read. -/
def ReadDefinition (h : Asked) (id : Uuid) (definition : RunbookDefinition) : Prop :=
  ∃ row, Latest h (.findRunbook id) (.ok (some row)) ∧ row.parsed = .ok definition

/-- If the row was inserted, the run has ended as it should just if there was no trouble. -/
def EndsWell (auth : AuthPrincipal) (headers : Headers) (id : Uuid) (s' : RunRows) (h : Asked) : Prop :=
  ∀ runId ∈ insertedIds h, ∀ definition, ReadDefinition h id definition →
    (RunEnded definition.steps h (statusOf s' runId) ↔ ¬ Trouble auth headers definition.steps h)

theorem insertedIds_extends (hx : Extends IsStep h h') : insertedIds h' = insertedIds h := by
  obtain ⟨es, rfl, hes⟩ := hx
  have hnone : es.filterMap insertedId = [] := by
    refine List.filterMap_eq_nil_iff.mpr fun e he => ?_
    have hstep := hes e he
    obtain ⟨q, a⟩ := e
    cases q <;> first | rfl | exact hstep.elim
  rw [insertedIds, List.filterMap_append, hnone, List.append_nil, insertedIds]

theorem serve_step {s s' : RunRows} (he : IsStep e.1) (hserve : serve s e = some s') : s' = s := by
  obtain ⟨q, a⟩ := e
  cases q <;> first | exact (Option.some.inj hserve).symm | exact he.elim

/-- Nothing was inserted. -/
theorem endsWell_of_nil {id : Uuid} {s' : RunRows} (hnil : insertedIds h = []) :
    EndsWell auth headers id s' h := by
  intro runId hmem
  rw [hnil] at hmem
  cases hmem

/-- The end of a run without trouble. -/
theorem RunEnded.of_carried (hc : Carried auth steps h) : RunEnded steps h (some "succeeded") where
  terminal := .inl rfl
  succeeded := by
    refine ⟨fun _ => ⟨hc.submitted, fun o ho => ?_⟩, fun _ => rfl⟩
    rw [hc.outcomes] at ho
    exact List.eq_of_mem_replicate ho
  inOrder := by
    have hprefix := hc.inOrder []
    rwa [List.append_nil] at hprefix
  stops := hc.stops

theorem Carried.no_trouble (hc : Carried auth steps h) : ¬ Trouble auth headers steps h := by
  rintro (⟨e, he, hfails⟩ | ⟨step, action, hnext, -⟩)
  · rw [hc.calm e he] at hfails
    cases hfails
  · unfold Automation.nextStep at hnext
    rw [if_pos (by simp [hc.outcomes]), hc.outcomes, List.length_replicate,
      List.getElem?_eq_none le_rfl] at hnext
    cases hnext

theorem RunEnded.of_stopped (hs : Stopped auth steps h) : RunEnded steps h (some "failed") where
  terminal := .inr (.inl rfl)
  succeeded := by
    refine ⟨nofun, fun ⟨hall, htrue⟩ => ?_⟩
    rcases hs.failed with ⟨step, action, hnext, -⟩ | ⟨o, ho, hfalse⟩
    · -- all steps were executed, and so none is next
      unfold Automation.nextStep at hnext
      have hlength : (actionSteps steps).length ≤ (outcomes h).length := by
        rw [hs.stops.1, hall, List.length_map]
      have hsucceeded : (outcomes h).all id = true := List.all_eq_true.mpr htrue
      rw [if_pos hsucceeded, List.getElem?_eq_none hlength] at hnext
      cases hnext
    · rw [htrue o ho] at hfalse
      cases hfalse
  inOrder := hs.inOrder
  stops := hs.stops

theorem Stopped.no_trouble (hs : Stopped auth steps h) : ¬ Trouble auth headers steps h := by
  rintro (⟨e, he, hfails⟩ | ⟨step, action, hnext, haction, hlong, hjob, hpermitted, -⟩)
  · rw [hs.calm e he] at hfails
    cases hfails
  · rcases hs.failed with ⟨step', action', hnext', haction', hwhy⟩ | ⟨o, ho, hfalse⟩
    · obtain rfl := Option.some.inj (hnext.symm.trans hnext')
      obtain rfl := Option.some.inj (haction.symm.trans haction')
      rcases hwhy with hlong' | hjob' | ⟨perms, hperms, hdenied⟩
      · rw [hlong] at hlong'
        cases hlong'
      · rw [hjob] at hjob'
        cases hjob'
      · obtain ⟨perms', hperms', hmem⟩ := hpermitted
        obtain rfl := Resolved.unique hperms hperms'
        have hgranted : grants perms action.permission = true := by simpa [grants] using hmem
        rw [hdenied] at hgranted
        cases hgranted
    · unfold Automation.nextStep at hnext
      split_ifs at hnext with hall
      have htrue := List.all_eq_true.mp hall o ho
      rw [hfalse] at htrue
      cases htrue

theorem Stopped.finish (hs : Stopped auth steps h) (runId : Uuid) (status : String) :
    Stopped auth steps (h ++ [⟨.finishRunbookRun runId status, .ok ()⟩]) := by
  have hsub : submitted (h ++ [⟨.finishRunbookRun runId status, .ok ()⟩]) = submitted h := by
    rw [submitted_append, submitted_singleton]
    exact List.append_nil _
  have hout : outcomes (h ++ [⟨.finishRunbookRun runId status, .ok ()⟩]) = outcomes h := by
    rw [outcomes_append, outcomes_singleton]
    exact List.append_nil _
  refine ⟨?_, hsub ▸ hs.inOrder, by rw [hsub, hout]; exact hs.stops, ?_⟩
  · intro e he
    rcases List.mem_append.mp he with he | he
    · exact hs.calm e he
    · rw [List.mem_singleton.mp he]
      rfl
  · unfold nextStep
    rw [hout]
    rcases hs.failed with ⟨step, action, hnext, haction, hwhy⟩ | hfalse
    · refine .inl ⟨step, action, hnext, haction, hwhy.imp_right fun hwhy => hwhy.imp_right ?_⟩
      rintro ⟨perms, hperms, hdenied⟩
      refine ⟨perms, ?_, hdenied⟩
      unfold Resolved at hperms ⊢
      split_ifs at hperms ⊢
      · exact hperms
      · obtain ⟨rows, hl, hrows⟩ := hperms
        exact ⟨rows, hl.append (by simp), hrows⟩
    · exact .inr hfalse

/-- The one row, and the one definition. -/
theorem endsWell_of_iff {id runId : Uuid} {row : RunbookRow} {definition : RunbookDefinition}
    {s' : RunRows} (hids : insertedIds h = [runId])
    (hread : Latest h (.findRunbook id) (.ok (some row))) (hparsed : row.parsed = .ok definition)
    (hiff : RunEnded definition.steps h (statusOf s' runId) ↔
      ¬ Trouble auth headers definition.steps h) : EndsWell auth headers id s' h := by
  intro runId' hmem definition' hread'
  obtain ⟨row', hlatest, hparsed'⟩ := hread'
  have hrow : row = row' := Option.some.inj (Except.ok.inj (Latest.unique hread hlatest))
  rw [← hrow, hparsed] at hparsed'
  rw [hids] at hmem
  rw [List.mem_singleton.mp hmem, ← Except.ok.inj hparsed']
  exact hiff

/-- `running` is no final status. -/
theorem not_runEnded_running : ¬ RunEnded steps h (some "running") := by
  rintro ⟨hterminal, -⟩
  revert hterminal
  decide

/-- The end of `run`, once the loop has ended. -/
theorem runs_finish {id runId : Uuid} {row : RunbookRow} {definition : RunbookDefinition} {s : RunRows}
    {ok : Bool} {results : List AutomationStepResult} (hids : insertedIds h = [runId])
    (hread : Latest h (.findRunbook id) (.ok (some row))) (hparsed : row.parsed = .ok definition)
    (hrow : ⟨runId, "running"⟩ ∈ s)
    (hend : LoopEnd auth headers definition.steps h (.ok (ok, results))) :
    Runs serve (do
      let finished ← ask (.finishRunbookRun runId (if ok then "succeeded" else "failed"))
      orFail automationDbErr finished
      return ({ runId := runId, status := if ok then "succeeded" else "failed", results := results } :
        RunbookExecutionResponse)) s h
      fun s' h' _ => EndsWell auth headers id s' h' := by
  intro finished s' hserve
  have hids' : insertedIds (h ++ [⟨.finishRunbookRun runId (if ok then "succeeded" else "failed"),
      finished⟩]) = [runId] := by
    rw [insertedIds, List.filterMap_append, ← insertedIds, hids]
    rfl
  have hread' := Latest.snoc hread ⟨.finishRunbookRun runId (if ok then "succeeded" else "failed"), finished⟩
    nofun
  cases finished with
  | error err =>
    have hsame : s' = s := (orUnchanged_cases hserve).resolve_right (by simp)
    rw [hsame]
    refine endsWell_of_iff hids' hread' hparsed ?_
    rw [statusOf_eq_some.mpr hrow]
    refine ⟨fun hended => absurd hended not_runEnded_running, fun hno => absurd ?_ hno⟩
    exact .inl ⟨_, List.mem_append_right _ (List.mem_singleton_self _), rfl⟩
  | ok u =>
    have hupdate : s.update (·.id == runId) (fun row =>
        { row with status := if ok then "succeeded" else "failed" }) = some s' := hserve
    have hstatus : statusOf s' runId = some (if ok then "succeeded" else "failed") := by
      rw [statusOf_eq_some]
      refine (Table.mem_update hupdate).mpr ⟨_, hrow, ?_⟩
      rw [if_pos (beq_self_eq_true _)]
    refine endsWell_of_iff hids' hread' hparsed ?_
    rw [hstatus]
    cases ok with
    | true =>
      have hc := Carried.snoc (hend : Carried auth definition.steps h)
        ⟨.finishRunbookRun runId "succeeded", .ok ()⟩ ⟨rfl, rfl, rfl⟩
      exact iff_of_true (RunEnded.of_carried hc) hc.no_trouble
    | false =>
      have hs := (hend : Stopped auth definition.steps h).finish runId "failed"
      exact iff_of_true (RunEnded.of_stopped hs) hs.no_trouble

theorem wp_requireExecute :
    wp (fun _ e => IsStep e.1) (require state auth "automation:execute") [] fun h' r =>
      r = .ok () → Carried auth [] h' := by
  refine wp_bind wp_lookup ?_ fun _ _ _ => nofun
  rintro h₁ granted ⟨⟨es, hh₁, hes⟩, -⟩
  have hstart : Carried auth [] [] := ⟨rfl, rfl, List.forall_mem_nil _⟩
  cases granted with
  | false => exact nofun
  | true => exact fun _ => hh₁ ▸ hstart.append hes

/-- `run` from the insert of its row on. -/
theorem runs_insert {id : Uuid} {row : RunbookRow} {definition : RunbookDefinition} {runArgs : Json}
    {s : RunRows} (hdb : state.db = true) (hnil : insertedIds h = [])
    (hread : Latest h (.findRunbook id) (.ok (some row))) (hparsed : row.parsed = .ok definition)
    (hvalid : validateSteps definition.steps = .ok ()) (hc : Carried auth [] h) :
    Runs serve (do
      let runId ← ask (.insertRunbookRun id row.definition runArgs auth.sub.toText)
      let runId ← orFail automationDbErr runId
      let (ok, results) ← runSteps state auth headers id runArgs definition.steps []
      let status := if ok then "succeeded" else "failed"
      let finished ← ask (.finishRunbookRun runId status)
      orFail automationDbErr finished
      return ({ runId := runId, status := status, results := results } : RunbookExecutionResponse)) s h
      fun s' h' _ => EndsWell auth headers id s' h' := by
  intro inserted s₁ hserve
  have hread₁ := Latest.snoc hread ⟨.insertRunbookRun id row.definition runArgs auth.sub.toText, inserted⟩ nofun
  cases inserted with
  | error err =>
    refine endsWell_of_nil ?_
    rw [insertedIds, List.filterMap_append, ← insertedIds, hnil]
    rfl
  | ok runId =>
    have hinsert : s.insert ⟨runId, "running"⟩ = some s₁ := hserve
    have hrow : ⟨runId, "running"⟩ ∈ s₁ := (Table.mem_insert hinsert).mpr (.inr rfl)
    have hids : insertedIds (h ++ [⟨.insertRunbookRun id row.definition runArgs auth.sub.toText,
        .ok runId⟩]) = [runId] := by
      rw [insertedIds, List.filterMap_append, ← insertedIds, hnil]
      rfl
    have hc₁ := hc.snoc ⟨.insertRunbookRun id row.definition runArgs auth.sub.toText, .ok runId⟩ ⟨rfl, rfl, rfl⟩
    show Runs serve (runSteps state auth headers id runArgs definition.steps [] >>= _) _ _ _
    refine runs_bind (runs_of_wp (wp_runSteps hdb hvalid rfl hc₁) fun _ _ _ => serve_step) ?_ ?_
    · rintro s₂ h₂ ⟨ok, results⟩ ⟨rfl, hx, hend⟩
      exact runs_finish ((insertedIds_extends hx).trans hids) (hread₁.extends hx not_false) hparsed hrow hend
    · rintro s₂ h₂ err ⟨rfl, hx, htrouble⟩
      refine endsWell_of_iff ((insertedIds_extends hx).trans hids) (hread₁.extends hx not_false) hparsed ?_
      rw [statusOf_eq_some.mpr hrow]
      exact iff_of_false not_runEnded_running fun hno => hno htrouble

/-- Every run that is left to itself. -/
theorem run_runs {id : Uuid} {body : Option (Except Unit Json)} {s : RunRows} :
    Runs serve (run state auth headers id body) s [] fun s' h' _ => EndsWell auth headers id s' h' := by
  refine runs_bind (runs_of_wp wp_requireExecute fun _ _ _ => serve_step) ?_ ?_
  · rintro s₁ h₁ ⟨⟩ ⟨rfl, hx, hcarried⟩
    have hc := hcarried rfl
    have hnil : insertedIds h₁ = [] := insertedIds_extends hx
    refine runs_failIf_bind (fun _ => endsWell_of_nil hnil) fun hdb => ?_
    have hdb' : state.db = true := by simpa using hdb
    intro found s₂ hserve
    obtain rfl := Option.some.inj hserve
    have hread := Latest.now h₁ (.findRunbook id) found
    have hnil₁ : insertedIds (h₁ ++ [⟨.findRunbook id, found⟩]) = [] := by
      rw [insertedIds, List.filterMap_append, ← insertedIds, hnil]
      rfl
    have hc₁ := hc.snoc ⟨.findRunbook id, found⟩ ⟨rfl, rfl, rfl⟩
    match found with
    | .error err => exact endsWell_of_nil hnil₁
    | .ok none => exact endsWell_of_nil hnil₁
    | .ok (some row) =>
      show Runs serve (orFail _ row.parsed >>= _) _ _ _
      cases hparsed : row.parsed with
      | error err => exact endsWell_of_nil hnil₁
      | ok definition =>
        show Runs serve (orFail _ (validateSteps definition.steps) >>= _) _ _ _
        cases hvalid : validateSteps definition.steps with
        | error err => exact endsWell_of_nil hnil₁
        | ok u =>
          show Runs serve (ofExcept (runArgsOf body) >>= _) _ _ _
          cases runArgsOf body with
          | error err => exact endsWell_of_nil hnil₁
          | ok runArgs => exact runs_insert hdb' hnil₁ hread hparsed hvalid hc₁
  · rintro s₁ h₁ err ⟨rfl, hx, -⟩
    exact endsWell_of_nil (insertedIds_extends hx)

/-- A run that has inserted its row leaves it with a final status that tells how the steps went,
    and executes the steps in order up to the first that fails, just when no lookup of permissions,
    insert, submission or final `UPDATE` fails and no reauth check refuses its token. -/
theorem run_ended_iff (state : AppState) (auth : AuthPrincipal) (headers : Headers) (id : Uuid)
    (body : Option (Except Unit Json)) (s s' : RunRows) (h : Asked)
    (r : Except ApiError RunbookExecutionResponse) (hends : (run state auth headers id body).Ends h r)
    (hexec : Shared.execAll serve s h = some s') (runId : Uuid) (hinserted : runId ∈ insertedIds h)
    (definition : RunbookDefinition) (hread : ReadDefinition h id definition) :
    RunEnded definition.steps h (statusOf s' runId) ↔ ¬ Trouble auth headers definition.steps h :=
  run_runs.ends hends hexec runId hinserted definition hread

/-! ### Root runs two runbooks -/

def runRoot : AuthPrincipal := ⟨Uuid.nil, 22, .root, .panel, "r-2"⟩

/-- A stored runbook with one step. -/
def oneStep (action : String) : RunbookRow := .ofSteps "x" [(action, .obj [])]

/-- The task of the step `server.roomcreation`. -/
def creationTask : CommandTask :=
  { commandId := 1, action := "server.roomcreation", actor := Uuid.toText Uuid.nil,
    resourceKey := "server", args := .obj [], argsRedacted := .obj [], completion := true,
    audit := some { principalType := "root", actorUserId := none, actorSessionId := 22,
                    action := "server.roomcreation", resourceType := "runbook",
                    resourceId := Uuid.toText 9, requestId := "r-2", ip := "", userAgent := "" } }

/-- Root runs the runbook, and its step succeeds. -/
def creationRun : Asked :=
  [⟨.findRunbook 9, .ok (some (oneStep "server.roomcreation"))⟩,
    ⟨.insertRunbookRun 9 (oneStep "server.roomcreation").definition .null (Uuid.toText Uuid.nil),
      .ok 71⟩,
    ⟨.newUuid, (1 : Uuid)⟩,
    ⟨.insertQueued 1 "server.roomcreation" (Uuid.toText Uuid.nil) "server" (.obj []), .ok ()⟩,
    ⟨.submit creationTask, true⟩, ⟨.completion 1 none, .result (.ok .emptyObject)⟩,
    ⟨.finishRunbookRun 71 "succeeded", .ok ()⟩]

/-- Root runs a runbook whose step needs a reauth token, and has none. -/
def shutdownRun : Asked :=
  [⟨.findRunbook 9, .ok (some (oneStep "server.shutdown"))⟩,
    ⟨.insertRunbookRun 9 (oneStep "server.shutdown").definition .null (Uuid.toText Uuid.nil), .ok 71⟩]

/-- No rows. -/
def noRuns : RunRows := .empty

/-- A run that can be computed. -/
theorem exists_run (h : Asked) (test : Except ApiError RunbookExecutionResponse → Bool)
    (status : Option String)
    (hends : ((((run ⟨true, 10⟩ runRoot [] 9 none).follow h).bind result).any test) = true)
    (hexec : (((Shared.execAll serve noRuns h).map fun s' => statusOf s' 71) == some status) = true) :
    ∃ r s', (run ⟨true, 10⟩ runRoot [] 9 none).Ends h r ∧ test r = true ∧
      Shared.execAll serve noRuns h = some s' ∧ statusOf s' 71 = status := by
  obtain ⟨r, hr, htest⟩ := (Option.any_eq_true _ _).mp hends
  obtain ⟨s', hs', hstatus⟩ := Option.map_eq_some_iff.mp (beq_iff_eq.mp hexec)
  exact ⟨r, s', hr, htest, hs', hstatus⟩

/-- The step of the first one succeeds, and so does the run. -/
theorem run_ended_creation : ∃ r s', (run ⟨true, 10⟩ runRoot [] 9 none).Ends creationRun r ∧
    Shared.execAll serve noRuns creationRun = some s' ∧ statusOf s' 71 = some "succeeded" ∧
    RunEnded [⟨"server.roomcreation", .obj [], none⟩] creationRun (statusOf s' 71) := by
  obtain ⟨r, s', hends, -, hexec, hstatus⟩ := exists_run creationRun (fun _ => true)
    (some "succeeded") (by decide +kernel) (by decide +kernel)
  have hread : ReadDefinition creationRun 9 ⟨[⟨"server.roomcreation", .obj [], none⟩]⟩ :=
    ⟨oneStep "server.roomcreation", ⟨[], creationRun.tail, rfl, by simp [creationRun]⟩, rfl⟩
  refine ⟨r, s', hends, hexec, hstatus, ?_⟩
  refine (run_ended_iff _ _ _ _ _ _ _ _ _ hends hexec 71 (by decide +kernel) _ hread).mpr ?_
  rintro (⟨e, he, hfails⟩ | ⟨step, action, hnext, -⟩)
  · have hcalm : creationRun.all (fun e => !fails runRoot e) = true := by decide +kernel
    simpa [hfails] using List.all_eq_true.mp hcalm e he
  · revert hnext
    rw [show nextStep [⟨"server.roomcreation", .obj [], none⟩] creationRun = none by decide +kernel]
    exact nofun

/-- The second one fails, and its row stays `running`. -/
theorem not_run_ended_shutdown : ∃ r s', (run ⟨true, 10⟩ runRoot [] 9 none).Ends shutdownRun r ∧
    (∃ err, r = .error err) ∧ Shared.execAll serve noRuns shutdownRun = some s' ∧
    71 ∈ insertedIds shutdownRun ∧
    ReadDefinition shutdownRun 9 ⟨[⟨"server.shutdown", .obj [], none⟩]⟩ ∧
    statusOf s' 71 = some "running" ∧
    ¬ RunEnded [⟨"server.shutdown", .obj [], none⟩] shutdownRun (statusOf s' 71) := by
  obtain ⟨r, s', hends, hfailed, hexec, hstatus⟩ := exists_run shutdownRun
    (fun r => !r.isOk) (some "running") (by decide +kernel) (by decide +kernel)
  refine ⟨r, s', hends, ?_, hexec, by decide +kernel, ?_, hstatus, ?_⟩
  · cases r with
    | ok v => cases hfailed
    | error err => exact ⟨err, rfl⟩
  · exact ⟨oneStep "server.shutdown", ⟨[], shutdownRun.tail, rfl, by simp [shutdownRun]⟩, rfl⟩
  · rw [hstatus]
    exact not_runEnded_running

end Ppb.Automation
