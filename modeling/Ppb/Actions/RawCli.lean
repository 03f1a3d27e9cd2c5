import Ppb.Actions.Gate
import Ppb.Commands.System

/-!
# The plane of the raw PMP console

Free text for the PMP console is meant to go through the console endpoints, which
check the permission `pmp:cli`, a rate limit and a reauth token. The generic and
scoped endpoints reject the action `pmp.cli.execute`, and the batch endpoint does
not list it. The step loop of a runbook does not: a stored runbook with such a step
submits it to the broker, and the executor sends its text to PMP without a rate
limit check.

* `ConsoleChecked`: the three checks. `wp_request`: no other request sends text to
  the console.
* `wp_execute_of_not_raw`: an execution of any other action sends one of three fixed
  texts.
* `raw_cli_plane`: the plane is kept in every run in which no such runbook is run by a
  caller who passes its checks.
* `not_raw_cli_plane_runbook`: Root sends text to the console through a runbook.

The endpoints of `admin/server.rs` send texts of the server's own and do not go
through `cli_execute`; they are left out, as are the jobs, whose texts are constants.
-/

namespace Ppb.Actions

open Prog Auth Commands Trace KeyedQueue

/-! ## Console requests -/

/-- The checks of a console endpoint have been passed. -/
def ConsoleChecked (state : AppState) (auth : AuthPrincipal) (headers : Headers) (h : Asked) : Prop :=
  Permitted auth "pmp:cli" h ∧
    Latest h (.rateLimit ("raw-cli:" ++ auth.sub.toText) state.rawCliPerMinute) (.ok ()) ∧
    Reauthed auth headers .high h

/-- Text sent to the console comes from a console request, is the text of that
    request and was checked; a `pmp.cli.execute` task comes from a runbook, and its
    submitter holds `pmp:cli` and presented a reauth token. -/
structure PlaneOk (state : AppState) (request : Request) (auth : AuthPrincipal) (headers : Headers)
    (h : Asked) (e : Event Query Query.Answer) : Prop where
  console : ∀ params timeout, e.1 = .openuds "cli.execute" params timeout →
    ∃ command, (request = .executeCommand command ∨ request = .submitInput command) ∧
      params = .obj [("command", .str command)] ∧ ConsoleChecked state auth headers h
  submit : ∀ task, e.1 = .submit task → task.action = "pmp.cli.execute" →
    ReadsRaw h ∧ Permitted auth "pmp:cli" h ∧ Reauthed auth headers .high h

variable {state : AppState} {request : Request} {auth : AuthPrincipal} {headers : Headers}
  {h h' : Asked} {command : String}

theorem PlaneOk.plain {e : Event Query Query.Answer} (hsubmit : ∀ task, e.1 ≠ .submit task)
    (hcli : ∀ params timeout, e.1 ≠ .openuds "cli.execute" params timeout) :
    PlaneOk state request auth headers h e where
  console _ _ he := absurd he (hcli _ _)
  submit _ he := absurd he (hsubmit _)

theorem PlaneOk.cliExecute (hreq : request = .executeCommand command ∨ request = .submitInput command)
    (hc : ConsoleChecked state auth headers h) (a : (Actions.cliExecute command).Answer) :
    PlaneOk state request auth headers h ⟨Actions.cliExecute command, a⟩ where
  console _ _ he := ⟨command, hreq, (Query.openuds.inj he).2.1.symm, hc⟩
  submit _ he := nomatch he

theorem wp_consoleGate :
    wp (PlaneOk state request auth headers) (consoleGate state auth headers) h fun h' r =>
      ∀ a, r = .ok a → ConsoleChecked state auth headers h' := by
  refine wp_bind (wp_require fun _ => .plain nofun nofun) ?_ fun _ _ _ => nofun
  rintro h₁ u ⟨-, hp⟩
  refine wp_ask (fun _ => .plain nofun nofun) fun allowed => ?_
  have hx₁ : Extends (fun q => ∃ key limit, q = .rateLimit key limit) h₁ (h₁ ++ [⟨.rateLimit
    ("raw-cli:" ++ auth.sub.toText) state.rawCliPerMinute, allowed⟩]) :=
    Extends.refl.snoc ⟨_, _, rfl⟩
  cases allowed with
  | error e => exact nofun
  | ok u =>
    refine wp_mono (wp_checkReauthHeader fun h' e _ he => ?_) ?_
    · refine .plain (fun task htask => ?_) fun params timeout hcli => ?_
      · rw [htask] at he
        exact he
      · rw [hcli] at he
        exact he
    · rintro h₂ r ⟨hx₂, hr⟩ a rfl
      exact ⟨((hp rfl).extends hx₁ (by simp)).extends hx₂ nofun,
        (Latest.now _ _ _).extends hx₂ nofun, hr rfl⟩

/-- What a console endpoint asks after its checks and before its text. -/
theorem ConsoleChecked.extends {C : Query → Prop} (hc : ConsoleChecked state auth headers h)
    (hx : Extends C h h') (hC : ∀ q, C q → q = .newUuid ∨ ∃ id actor command scope,
      q = .insertConsoleRun id actor command scope) : ConsoleChecked state auth headers h' := by
  obtain ⟨hp, hl, hr⟩ := hc
  refine ⟨hp.extends hx fun h => ?_, hl.extends hx fun h => ?_,
    hr.extends hx (fun token h => ?_) fun h => ?_⟩
  all_goals simpa using hC _ h

theorem wp_executeCommand (hreq : request = .executeCommand command) :
    wp (PlaneOk state request auth headers) (executeCommand state auth headers command) h
      fun _ _ => True := by
  refine wp_bind wp_consoleGate ?_ fun _ _ _ => trivial
  intro h₁ u hc
  refine wp_requireDb_bind trivial (wp_ask (fun _ => .plain nofun nofun) fun commandId => ?_)
  refine wp_ask (fun _ => .plain nofun nofun) fun inserted => ?_
  refine wp_orFail_bind (fun _ _ => trivial) fun _ _ => ?_
  refine wp_ask (PlaneOk.cliExecute (.inl hreq) ?_) fun answer => ?_
  · refine ((hc u rfl).extends (Extends.refl.snoc (C := (· = .newUuid)) rfl) ?_).extends
      (Extends.refl.snoc (C := fun q => ∃ id actor command scope,
        q = .insertConsoleRun id actor command scope) ⟨_, _, _, _, rfl⟩) ?_
    · exact fun q hq => .inl hq
    · exact fun q hq => .inr hq
  · refine wp_ask (fun _ => .plain nofun nofun) fun marked => ?_
    refine wp_orFail_bind (fun _ _ => trivial) fun _ _ => ?_
    exact wp_ask (fun _ => .plain nofun nofun) fun _ => trivial

theorem wp_submitInput (hreq : request = .submitInput command) :
    wp (PlaneOk state request auth headers) (submitInput state auth headers command) h
      fun _ _ => True := by
  refine wp_bind wp_consoleGate ?_ fun _ _ _ => trivial
  intro h₁ u hc
  refine wp_ask (PlaneOk.cliExecute (.inr hreq) (hc u rfl)) fun answer => ?_
  have hend : ∀ h', wp (PlaneOk state request auth headers) (orFail OpenUdsError.toApiError answer)
      h' fun _ _ => True := by
    intro h'
    cases answer <;> trivial
  dsimp only
  split_ifs
  · exact wp_ask (fun _ => .plain nofun nofun) fun _ => hend _
  · exact hend _

/-- The descriptor of `pmp.cli.execute` (actions/registry.rs:64). -/
def pmpCliExecute : ActionDescriptor :=
  ⟨"pmp.cli.execute", "pmp:cli", .cliRaw, .high, true, true, false, "server", false⟩

theorem getAction_pmpCliExecute : getAction "pmp.cli.execute" = some pmpCliExecute := by decide

/-- The gate of a `pmp.cli.execute` task: its action allows no hosts. -/
theorem rawGate {task : CommandTask} (hgate : Gate auth headers h task)
    (hraw : task.action = "pmp.cli.execute") :
    Permitted auth "pmp:cli" h ∧ Reauthed auth headers .high h := by
  obtain ⟨action, hget, ha, hr, -⟩ := hgate
  rw [hraw] at hget
  obtain rfl : pmpCliExecute = action :=
    Option.some.inj (getAction_pmpCliExecute.symm.trans hget)
  refine ⟨?_, hr rfl⟩
  rcases ha with hp | ⟨hallowed, -⟩
  · exact hp
  · cases hallowed

/-- Every request keeps to its plane. -/
theorem wp_request (request : Request) (auth : AuthPrincipal) (headers : Headers) :
    wp (PlaneOk state request auth headers) (request.handler state auth headers) []
      fun _ _ => True := by
  cases request with
  | entry e =>
    refine wp_weaken (wp_entry e) fun h e hok => ⟨?_, fun task htask hraw => ?_⟩
    · intro params timeout he
      exact absurd (he ▸ rfl : OffLimits e.1) hok.limits
    · exact ⟨hok.plane task htask hraw, rawGate (hok.gate task htask) hraw⟩
  | executeCommand command =>
    exact wp_bind (wp_executeCommand rfl) (fun _ _ _ => trivial) fun _ _ _ => trivial
  | submitInput command =>
    exact wp_bind (wp_submitInput rfl) (fun _ _ _ => trivial) fun _ _ _ => trivial

/-! ## Executions -/

/-- The texts the server itself sends to the console (actions/executor.rs:156-166). -/
def fixedCliTexts : List String := ["connections on", "connections off", "connections"]

/-- Text sent to the console is one of the server's own. -/
def SendsFixed (e : Event Query Query.Answer) : Prop :=
  ∀ params timeout, e.1 = .openuds "cli.execute" params timeout →
    ∃ text ∈ fixedCliTexts, params = .obj [("command", .str text)]

theorem SendsFixed.plain {e : Event Query Query.Answer}
    (he : ∀ params timeout, e.1 ≠ .openuds "cli.execute" params timeout) : SendsFixed e :=
  fun params timeout heq => absurd heq (he params timeout)

theorem fixedCliCommand_mem {action text : String} {args : Json}
    (h : fixedCliCommand action args = some text) : text ∈ fixedCliTexts := by
  unfold fixedCliCommand at h
  split_ifs at h
  split at h <;>
  · obtain rfl := Option.some.inj h
    decide

/-- Only `pmp.cli.execute` has the executor `CliRaw`. -/
theorem id_of_cliRaw : ∀ action ∈ seedActions, action.executor = .cliRaw →
    action.id = "pmp.cli.execute" := by decide

/-- No action has the name of the console command. -/
theorem id_ne_cliExecute : ∀ action ∈ seedActions, action.id ≠ "cli.execute" := by decide

/-- An execution of any other action sends the server's own texts only. -/
theorem wp_run_of_not_raw {db : Bool} {task : CommandTask} (hraw : task.action ≠ "pmp.cli.execute") :
    wp (fun _ e => SendsFixed e) (Actions.run db task) h fun _ _ => True := by
  refine wp_ofOption_bind (fun _ => trivial) fun action hget => ?_
  have hmem : action ∈ seedActions := getAction_mem hget
  have hid : action.id = task.action := getAction_id hget
  cases hexec : action.executor with
  | openUds =>
    refine wp_ask (fun _ => .plain fun params timeout heq => ?_) fun _ => wp_pmpAnswer
    exact id_ne_cliExecute action hmem (hid.trans (Query.openuds.inj heq).1)
  | cliExecute =>
    refine wp_ofOption_bind (fun _ => trivial) fun text htext => ?_
    refine wp_ask (fun _ params timeout heq => ?_) fun _ => wp_pmpAnswer
    exact ⟨text, fixedCliCommand_mem htext, (Query.openuds.inj heq).2.1.symm⟩
  | cliRaw => exact absurd (hid.symm.trans (id_of_cliRaw action hmem hexec)) hraw
  | internal =>
    refine wp_runInternal fun h e he => .plain fun params timeout heq => ?_
    rw [heq] at he
    exact he

theorem wp_record {db : Bool} {task : CommandTask} {status summary errorCode : String} :
    wp (fun _ e => SendsFixed e) (record db task status summary errorCode) h fun _ _ => True := by
  unfold record
  split_ifs
  · refine wp_ask (fun _ => .plain nofun) fun _ => ?_
    cases task.audit with
    | none => trivial
    | some audit => exact wp_ask (fun _ => .plain nofun) fun _ => trivial
  · trivial

theorem wp_execute_of_not_raw {db : Bool} {task : CommandTask}
    (hraw : task.action ≠ "pmp.cli.execute") :
    wp (fun _ e => SendsFixed e) (execute db task) h fun _ _ => True := by
  refine wp_bind (R := fun _ _ => True) (wp_attempt (wp_run_of_not_raw hraw)) ?_ fun _ _ _ => trivial
  intro h₁ result _
  refine wp_ofOption_bind (fun _ => trivial) fun out _ => ?_
  refine wp_bind wp_record ?_ fun _ _ _ => trivial
  intro h₂ u _
  split_ifs
  · exact wp_ask (fun _ => .plain nofun) fun _ => trivial
  · trivial

/-! ## Runs -/

/-- The action of a task has the executor `CliRaw`. -/
def IsRaw (task : CommandTask) : Prop :=
  ∃ action, getAction task.action = some action ∧ action.executor = .cliRaw

theorem action_of_isRaw {task : CommandTask} (h : IsRaw task) : task.action = "pmp.cli.execute" := by
  obtain ⟨action, hget, hexec⟩ := h
  rw [← getAction_id hget]
  exact id_of_cliRaw action (getAction_mem hget) hexec

/-- The plane of the raw console is kept: free text comes from a console request
    that passed its checks, no request submits a raw task, and the executions send
    the server's own texts. -/
structure RawCliPlane (state : AppState) (s : System) : Prop where
  requests : ∀ f ∈ s.flights, ∀ h e, h ++ [e] <+: f.asked → ∀ params timeout,
    e.1 = .openuds "cli.execute" params timeout →
      ∃ command, (f.request = .executeCommand command ∨ f.request = .submitInput command) ∧
        params = .obj [("command", .str command)] ∧ ConsoleChecked state f.auth f.headers h
  submits : ∀ f ∈ s.flights, ∀ task accepted, ⟨.submit task, accepted⟩ ∈ f.asked → ¬ IsRaw task
  executions : ∀ x, s.Executed x → ∀ e ∈ x.asked, SendsFixed e

/-- A caller who holds `pmp:cli` and presented a reauth token is running a valid
    runbook with a `pmp.cli.execute` step its loop can come to. -/
def RawRun (auth : AuthPrincipal) (headers : Headers) (h : Asked) : Prop :=
  ReadsRaw h ∧ Permitted auth "pmp:cli" h ∧ Reauthed auth headers .high h

/-- The step does not bring a request there. -/
def NoRawRun (s : System) (l : Label) : Prop :=
  ∀ i e f, l = .answer i e → s.flights[i]? = some f → ¬ RawRun f.auth f.headers (f.asked ++ [e])

theorem not_rawRun_nil : ¬ RawRun auth headers [] := by
  rintro ⟨⟨id, row, definition, hmem, -⟩, -⟩
  cases hmem

variable {s : System}

theorem flights_not_rawRun (hreach : Reaches (step state) NoRawRun System.init s) :
    ∀ f ∈ s.flights, ∀ h, h <+: f.asked → ¬ RawRun f.auth f.headers h := by
  refine hreach.invariant (I := fun s => ∀ f ∈ s.flights, ∀ h, h <+: f.asked →
    ¬ RawRun f.auth f.headers h) (by simp [System.init]) ?_
  intro s l s' hs hcond hstep
  have hset : ∀ {i : ℕ} {e : Event Query Query.Answer} {f : Flight} {rest : Server ℕ},
      l = .answer i e → s.flights[i]? = some f →
      ∀ g ∈ s.flights.set i { f with rest := rest, asked := f.asked ++ [e] },
        ∀ h, h <+: g.asked → ¬ RawRun g.auth g.headers h := by
    intro i e f rest hl hf g hg h hpre
    rcases List.mem_or_eq_of_mem_set hg with hg | rfl
    · exact hs g hg h hpre
    · rcases List.prefix_concat_iff.mp hpre with rfl | hpre
      · exact hcond i e f hl hf
      · exact hs f (List.mem_of_getElem? hf) h hpre
  cases step_effect hstep with
  | arrive request auth headers =>
    intro f hf h hpre
    rcases List.mem_append.mp hf with hf | hf
    · exact hs f hf h hpre
    · rw [List.mem_singleton.mp hf] at hpre ⊢
      rw [List.prefix_nil.mp hpre]
      exact not_rawRun_nil
  | answer i e f rest rows hf hrest hrows hne => exact hset rfl hf
  | submit i task accepted f rest broker hf hrest hsubmit => exact hset rfl hf
  | recv key worker broker item hb hitem => exact hs
  | work key worker e x rest rows hx hrest hrows => exact hs
  | finish key worker x r broker hx hr hb => exact hs

/-- A submit after a history that is no raw run is of another action. -/
theorem not_raw_of_planeOk {f : Flight} {h : Asked} {task : CommandTask} {accepted : Bool}
    (hok : PlaneOk state f.request f.auth f.headers h ⟨.submit task, accepted⟩)
    (hno : ¬ RawRun f.auth f.headers h) : task.action ≠ "pmp.cli.execute" :=
  fun hraw => hno (hok.submit task rfl hraw)

/-- The broker holds no raw task and none is executed. -/
theorem tasks_not_raw (hreach : Reaches (step state) NoRawRun System.init s) :
    (∀ i ∈ s.broker.held, i.task.action ≠ "pmp.cli.execute") ∧
      ∀ x, s.Executed x → x.item.task.action ≠ "pmp.cli.execute" := by
  induction hreach with
  | start =>
    refine ⟨nofun, ?_⟩
    rintro x (⟨k, w, hx⟩ | hx) <;> cases hx
  | @next s s' l hreach hcond hstep ih =>
    have hbroker := broker_reachable hreach
    have hheld : ∀ i ∈ s'.broker.held, i.task.action ≠ "pmp.cli.execute" := by
      intro i hi
      cases step_effect hstep with
      | submit j task accepted f rest broker hf hrest hsubmit =>
        rcases mem_held_submit hbroker (coherent_of_reaches hreach).pending hsubmit hi with hi | rfl
        · exact ih.1 i hi
        · have hmem := List.mem_of_getElem? hf
          have hpath := flights_onPath (R := fun _ _ _ _ _ => True) wp_request hreach f hmem
          refine not_raw_of_planeOk (Prog.ok_of_follow hpath.future hrest) ?_
          exact flights_not_rawRun hreach f hmem f.asked List.prefix_rfl
      | recv key worker broker item hb hitem =>
        exact ih.1 i ((held_recv (lane_of_reachable hbroker key) hb).mem_iff.mp hi)
      | finish key worker x r broker hx hr hb => exact ih.1 i (mem_held_end hbroker hb hi)
      | _ => exact ih.1 i hi
    refine ⟨hheld, fun x hx => ?_⟩
    rcases (step_effect hstep).executed hx with hx | ⟨key, worker, hbusy, -, -⟩ | ⟨y, -, hy, hi, -, -⟩
    · exact ih.2 x hx
    · exact hheld x.item (mem_held_of_busy hbusy)
    · rw [← hi]
      exact ih.2 y hy

/-- **The raw CLI plane**: in every run in which no request becomes a raw run, free
    text reaches the console through the console endpoints only, and no task with
    the executor `CliRaw` is submitted to the broker. -/
theorem raw_cli_plane (state : AppState) (s : System)
    (hreach : Reaches (step state) NoRawRun System.init s) : RawCliPlane state s where
  requests f hf h e hpre params timeout he :=
    ((flights_onPath (R := fun _ _ _ _ _ => True) wp_request hreach f hf).past h e hpre).console
      params timeout he
  submits f hf task accepted hmem hraw := by
    obtain ⟨h, t, hsplit⟩ := List.append_of_mem hmem
    have hpre : h ++ [⟨.submit task, accepted⟩] <+: f.asked := ⟨t, by simp [hsplit]⟩
    have hpath := flights_onPath (R := fun _ _ _ _ _ => True) wp_request hreach f hf
    refine not_raw_of_planeOk (hpath.past h _ hpre) ?_ (action_of_isRaw hraw)
    exact flights_not_rawRun hreach f hf h ((List.prefix_append h _).trans hpre)
  executions x hx e he := by
    have hexec : ∀ task, wp (fun _ e => task.action ≠ "pmp.cli.execute" → SendsFixed e)
        (execute state.db task) [] fun _ _ => True := by
      intro task
      by_cases hraw : task.action = "pmp.cli.execute"
      · exact wp_of_forall (fun _ _ hne => absurd hraw hne) fun _ _ => trivial
      · exact wp_weaken (wp_execute_of_not_raw hraw) fun _ _ hsends _ => hsends
    obtain ⟨h, t, hsplit⟩ := List.append_of_mem he
    have hpath := executions_onPath (R := fun _ _ _ => True) hexec hreach x hx
    exact hpath.past h e ⟨t, by simp [hsplit]⟩ ((tasks_not_raw hreach).2 x hx)

/-- Root, whose requests carry a reauth token. -/
def rootAtConsole : AuthPrincipal :=
  { sub := Uuid.nil, sid := 1, principalType := .root, clientType := .panel, requestId := "" }

def tokenHeader : Headers := [("x-reauth-token", "token")]

/-- The answers of a passed reauth check. -/
def reauthAnswers : List (Event Query Query.Answer) :=
  [⟨.decodeReauthToken "token", some ⟨"reauth", Uuid.nil, 1, .root, .panel, "high", 0, 300⟩⟩,
    ⟨.now, 5⟩]

/-- Root sends `list` to the console. -/
def consoleRun : List Label :=
  [.arrive (.executeCommand "list") rootAtConsole tokenHeader,
    .answer 0 ⟨.rateLimit ("raw-cli:" ++ Uuid.toText Uuid.nil) 10, .ok ()⟩] ++
  reauthAnswers.map (.answer 0) ++
  [.answer 0 ⟨.newUuid, 1⟩,
    .answer 0 ⟨.insertConsoleRun 1 (Uuid.toText Uuid.nil) "list" "server", .ok ()⟩,
    .answer 0 ⟨cliExecute "list", .ok .emptyObject⟩]

/-- The question is not for a runbook. -/
def asksOther : Query → Bool
  | .findRunbook _ => false
  | _ => true

/-- No runbook was read before the step, and none is read by it. -/
def readsNoRunbook (s : System) (l : Label) : Bool :=
  (s.flights.all fun f => f.asked.all fun e => asksOther e.1) &&
    match l with
    | .answer _ e => asksOther e.1
    | _ => true

theorem noRawRun_of_readsNoRunbook (s : System) (l : Label) (h : readsNoRunbook s l = true) :
    NoRawRun s l := by
  rintro i e f rfl hf ⟨⟨id, row, definition, hmem, -⟩, -⟩
  simp only [readsNoRunbook, Bool.and_eq_true, List.all_eq_true] at h
  rcases List.mem_append.mp hmem with hmem | hmem
  · exact absurd (h.1 f (List.mem_of_getElem? hf) _ hmem) (by simp [asksOther])
  · rw [← List.mem_singleton.mp hmem] at h
    exact absurd h.2 (by simp [asksOther])

theorem raw_cli_plane_console :
    ∃ s, Reaches (step ⟨true, 10⟩) NoRawRun System.init s ∧
      (∃ f ∈ s.flights, ∃ e ∈ f.asked, e.1 = cliExecute "list") ∧ RawCliPlane ⟨true, 10⟩ s := by
  have hrun : (runWhile (step ⟨true, 10⟩) readsNoRunbook System.init consoleRun).any (fun s =>
      s.flights.any fun f => f.asked.any fun e => decide (e.1 = cliExecute "list")) = true := by
    decide +kernel
  obtain ⟨s, hreach, hsent⟩ := exists_reaches_of_runWhile noRawRun_of_readsNoRunbook hrun
  exact ⟨s, hreach, by simpa using hsent, raw_cli_plane ⟨true, 10⟩ s hreach⟩

/-- A stored runbook with one step, which sends `shutdown` to the console. -/
def rawRunbook : RunbookRow :=
  .ofSteps "x" [("pmp.cli.execute", .obj [("command", .str "shutdown")])]

/-- The task of its step, when Root runs it. -/
def rawTask : CommandTask :=
  { commandId := 1, action := "pmp.cli.execute", actor := Uuid.toText Uuid.nil,
    resourceKey := "server", args := .obj [("command", .str "shutdown")],
    argsRedacted := .obj [("command", .str "shutdown")], completion := true,
    audit := some { principalType := "root", actorUserId := none, actorSessionId := 1,
                    action := "pmp.cli.execute", resourceType := "runbook",
                    resourceId := Uuid.toText 9, requestId := "", ip := "", userAgent := "" } }

/-- Root runs it, and a worker executes the task. -/
def rawRunbookRun : List Label :=
  [.arrive (.entry (.runbookRun 9 none)) rootAtConsole tokenHeader,
    .answer 0 ⟨.findRunbook 9, .ok (some rawRunbook)⟩,
    .answer 0 ⟨.insertRunbookRun 9 rawRunbook.definition .null (Uuid.toText Uuid.nil), .ok 10⟩] ++
  reauthAnswers.map (.answer 0) ++
  [.answer 0 ⟨.newUuid, 1⟩,
    .answer 0 ⟨.insertQueued 1 "pmp.cli.execute" (Uuid.toText Uuid.nil) "server"
      rawTask.argsRedacted, .ok ()⟩,
    .answer 0 ⟨.submit rawTask, true⟩, .recv "server" 0,
    .work "server" 0 ⟨cliExecute "shutdown", .ok .emptyObject⟩]

/-- The text of the runbook reaches PMP although nothing was asked of the rate
    limiter and no console request was made. -/
def shutdownSent (s : System) : Bool :=
  (s.flights.all fun f => f.asked.all fun e => match e.1 with
    | .rateLimit _ _ => false
    | _ => true) &&
  (s.flights.any fun f => f.asked.any fun e => decide (e.1 = .submit rawTask)) &&
  (s.running "server" 0).any fun x => x.asked.any fun e => decide (e.1 = cliExecute "shutdown")

theorem not_raw_cli_plane_runbook :
    IsRaw rawTask ∧ ∃ s, Reachable (step ⟨true, 10⟩) System.init s ∧ shutdownSent s = true ∧
      ¬ RawCliPlane ⟨true, 10⟩ s := by
  have hrun : (runFrom (step ⟨true, 10⟩) System.init rawRunbookRun).any shutdownSent = true := by
    decide +kernel
  obtain ⟨s, hreach, hsent⟩ := exists_reachable_of_runFrom hrun
  refine ⟨⟨pmpCliExecute, getAction_pmpCliExecute, rfl⟩, s, hreach, hsent, fun hplane => ?_⟩
  simp only [shutdownSent, Bool.and_eq_true, Option.any_eq_true, List.any_eq_true,
    decide_eq_true_eq] at hsent
  obtain ⟨-, x, hx, e, he, htext⟩ := hsent
  obtain ⟨text, htext', hparams⟩ := hplane.executions x (.inl ⟨_, _, hx⟩) e he _ _ htext
  have hfixed : text = "shutdown" := by simpa using hparams.symm
  rw [hfixed] at htext'
  exact absurd htext' (by decide)

end Ppb.Actions
