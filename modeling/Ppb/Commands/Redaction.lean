import Ppb.Actions.Questions
import Ppb.Commands.System
import Ppb.Common.Histories
import Ppb.Common.JsonPath

/-!
# What is stored of the arguments

Three tables have a column of redacted arguments. `command_runs` and `audit_events` get what
`redact_args` makes of the arguments of a command, which hides the values of the sensitive fields
of the object and looks no deeper; of a value that is no object it keeps nothing. `runbook_runs`
gets the arguments of the run as they are.

* `Redacted args stored`: below a sensitive key nothing but the mark is stored, and everything
  else as it was.
* `redacted_redactArgs_iff`: for which arguments `redact_args` does this.
* `given_of_request`, `recorded_of_execution`: what requests and executions store.
* `stored_redacted_iff`: the same for every value that is stored in a run of the system.
-/

namespace Ppb.Commands

open Trace KeyedQueue Actions Prog Rooms

/-! ## Redaction -/

/-- What stands in the place of a hidden value. -/
def redactMark : String := "[REDACTED]"

/-- The position is below a sensitive key. -/
def Secret (path : JsonPath) : Prop := ∃ k, PathStep.key k ∈ path ∧ isSensitiveKey k = true

/-- `stored` hides what is secret in `args`, and nothing else. -/
structure Redacted (args stored : Json) : Prop where
  hidden : ∀ path s, Secret path → stored.at? path = some (.str s) → s = redactMark
  unchanged : ∀ path, ¬ Secret path →
    (stored.at? path).map Json.shape = (args.at? path).map Json.shape

/-- No string but the mark stands below a sensitive key. -/
def NoSecret (v : Json) : Prop :=
  ∀ path s, Secret path → v.at? path = some (.str s) → s = redactMark

/-- An object without secrets below the fields that are not sensitive. -/
def OnlyTopSecrets (args : Json) : Prop :=
  (∃ fields, args = .obj fields) ∧
    ∀ k v, args.get? k = some v → isSensitiveKey k = false → NoSecret v

variable {args stored : Json} {path : JsonPath} {k : String}

theorem not_secret_nil : ¬ Secret [] := by
  rintro ⟨k, hk, -⟩
  cases hk

theorem secret_key_cons : Secret (.key k :: path) ↔ isSensitiveKey k = true ∨ Secret path := by
  constructor
  · rintro ⟨k', hk', hs⟩
    rcases List.mem_cons.mp hk' with heq | hmem
    · rw [PathStep.key.inj heq] at hs
      exact .inl hs
    · exact .inr ⟨k', hmem, hs⟩
  · rintro (hs | ⟨k', hmem, hs⟩)
    · exact ⟨k, List.mem_cons_self, hs⟩
    · exact ⟨k', List.mem_cons_of_mem _ hmem, hs⟩

/-- What `redact_args` makes of a field. -/
def redactField (f : String × Json) : String × Json :=
  if isSensitiveKey f.1 then (f.1, .str redactMark) else f

theorem redactArgs_obj (fields : List (String × Json)) :
    redactArgs (.obj fields) = .obj (fields.map redactField) := rfl

theorem redactField_fst (f : String × Json) : (redactField f).1 = f.1 := by
  unfold redactField
  split_ifs <;> rfl

theorem redactField_redactField (f : String × Json) : redactField (redactField f) = redactField f := by
  by_cases hs : isSensitiveKey f.1 = true
  · rw [redactField, redactField_fst, if_pos hs, redactField, if_pos hs]
  · rw [redactField, redactField_fst, if_neg hs]

theorem get?_redacted (fields : List (String × Json)) (k : String) :
    Fields.get? (fields.map redactField) k =
      if isSensitiveKey k then (Fields.get? fields k).map fun _ => .str redactMark
      else Fields.get? fields k := by
  induction fields with
  | nil => simp
  | cons f rest ih =>
    obtain ⟨key, v⟩ := f
    rw [List.map_cons, redactField]
    by_cases hkey : isSensitiveKey key = true
    · rw [if_pos hkey, Fields.get?_cons, Fields.get?_cons, ih]
      split_ifs with heq hs hs
      · rfl
      · exact absurd (heq ▸ hkey) hs
      · rfl
      · rfl
    · rw [if_neg hkey, Fields.get?_cons, Fields.get?_cons, ih]
      split_ifs with heq hs hs
      · exact absurd (heq ▸ hs) hkey
      · rfl
      · rfl
      · rfl

/-- `redact_args` makes no difference to what it has redacted. -/
theorem redactArgs_redactArgs (args : Json) : redactArgs (redactArgs args) = redactArgs args := by
  cases args with
  | obj fields =>
    have hcomp : redactField ∘ redactField = redactField := by
      funext f
      rw [Function.comp_apply, redactField_redactField]
    rw [redactArgs_obj, redactArgs_obj, List.map_map, hcomp]
  | _ => rfl

/-- What `redact_args` leaves below a field that is not sensitive. -/
theorem at?_redactArgs_of_not_sensitive {fields : List (String × Json)}
    (hk : isSensitiveKey k = false) :
    (redactArgs (.obj fields)).at? (.key k :: path) = (Json.obj fields).at? (.key k :: path) := by
  rw [redactArgs_obj, Json.at?_cons, Json.at?_cons]
  show (Fields.get? (fields.map redactField) k).bind _ = (Fields.get? fields k).bind _
  rw [get?_redacted, if_neg (by simp [hk])]

/-- And below one that is. -/
theorem at?_redactArgs_of_sensitive {fields : List (String × Json)} {s : String}
    (hk : isSensitiveKey k = true)
    (hat : (redactArgs (.obj fields)).at? (.key k :: path) = some (.str s)) : s = redactMark := by
  have hbind : (Fields.get? (fields.map redactField) k).bind (fun child => Json.at? child path) =
      some (.str s) := hat
  rw [get?_redacted, if_pos hk] at hbind
  obtain ⟨child, hchild, hstr⟩ := Option.bind_eq_some_iff.mp hbind
  obtain ⟨v, -, rfl⟩ := Option.map_eq_some_iff.mp hchild
  exact Json.str.inj (Json.at?_str hstr).2

/-- `redact_args` redacts just the objects without secrets further down. -/
theorem redacted_redactArgs_iff (args : Json) :
    Redacted args (redactArgs args) ↔ OnlyTopSecrets args := by
  constructor
  · intro hr
    have hshape : (redactArgs args).shape = args.shape :=
      Option.some.inj (hr.unchanged [] not_secret_nil)
    obtain ⟨fields, rfl⟩ : ∃ fields, args = .obj fields := by
      cases args with
      | obj fields => exact ⟨fields, rfl⟩
      | _ => cases hshape
    refine ⟨⟨fields, rfl⟩, fun k v hv hk path s hsecret hat => ?_⟩
    refine hr.hidden (.key k :: path) s (secret_key_cons.mpr (.inr hsecret)) ?_
    rw [at?_redactArgs_of_not_sensitive hk, Json.at?_cons]
    show (Fields.get? fields k).bind _ = _
    rw [show Fields.get? fields k = some v from hv]
    exact hat
  · rintro ⟨⟨fields, rfl⟩, hdeep⟩
    constructor
    · intro path s hsecret hat
      match path, hsecret, hat with
      | [], hsecret, _ => exact absurd hsecret not_secret_nil
      | .index i :: rest, _, hat => cases hat
      | .key k :: rest, hsecret, hat =>
        cases hk : isSensitiveKey k with
        | true => exact at?_redactArgs_of_sensitive hk hat
        | false =>
          rw [at?_redactArgs_of_not_sensitive hk, Json.at?_cons] at hat
          obtain ⟨v, hv, hrest⟩ := Option.bind_eq_some_iff.mp hat
          have hsecret' : Secret rest := (secret_key_cons.mp hsecret).resolve_left (by simp [hk])
          exact hdeep k v hv hk rest s hsecret' hrest
    · intro path hno
      match path, hno with
      | [], _ =>
        have hkeys : (fields.map redactField).map Prod.fst = fields.map Prod.fst := by
          rw [List.map_map]
          exact List.map_congr_left fun f _ => redactField_fst f
        show some (JsonShape.obj ((fields.map redactField).map Prod.fst)) = _
        rw [hkeys]
        rfl
      | .index i :: rest, _ => rfl
      | .key k :: rest, hno =>
        have hk : isSensitiveKey k = false := by
          rw [secret_key_cons, not_or] at hno
          simpa using hno.1
        rw [at?_redactArgs_of_not_sensitive hk]

/-- A value that is stored as it is. -/
theorem redacted_self_iff (args : Json) : Redacted args args ↔ NoSecret args :=
  ⟨fun hr => hr.hidden, fun hno => ⟨hno, fun _ _ => rfl⟩⟩

/-! ## Who stores arguments -/

/-- The columns of redacted arguments. -/
inductive ArgsTable where
  /-- `command_runs.arguments_redacted` -/
  | commandRuns
  /-- `audit_events.parameters_redacted` -/
  | auditEvents
  /-- `runbook_runs.arguments_redacted` -/
  | runbookRuns
  deriving DecidableEq

/-- The arguments that a statement stores. `record_principal` is left out: what it stores are texts
    of its callers, not arguments of a command. -/
def storedArgs : Query → Option (ArgsTable × Json)
  | .insertQueued _ _ _ _ stored => some (.commandRuns, stored)
  | .recordCompletedCommand _ stored _ _ _ => some (.auditEvents, stored)
  | .insertRunbookRun _ _ stored _ => some (.runbookRuns, stored)
  | _ => none

/-- The arguments of a command that the endpoint makes, after it has asked `h`. -/
def CommandArgs (h : Asked) (args : Json) : EntryPoint → Prop
  | .executeAction _ given => args = given
  | .executeRoomAction roomId _ given => args = mergeArg "room_id" (.str roomId) given
  | .adminRoomAction roomId _ given => args = mergeArg "room_id" (.str roomId) given
  | .adminRoomActionsBatch body => ∃ phiraId, batchTarget body.args = some phiraId ∧
    ∃ roomId ∈ body.roomIds, args = batchArgs body.args roomId phiraId
  | .userActions userId _ given => args = mergeArg "user_id" (Json.ofInt64 userId) given
  | .runbookRun id body => ∃ row definition runArgs, ⟨.findRunbook id, .ok (some row)⟩ ∈ h ∧
    row.parsed = .ok definition ∧ Automation.runArgsOf body = .ok runArgs ∧
    ∃ step ∈ definition.steps, args = Automation.mergeRunArgs step.args runArgs

/-- The arguments that the endpoint stores in a table are made of `args`. -/
def Gives (h : Asked) (args : Json) : ArgsTable → Request → Prop
  | .runbookRuns, .entry (.runbookRun _ body) => Automation.runArgsOf body = .ok args
  | .runbookRuns, _ => False
  | _, .entry e => CommandArgs h args e
  | _, _ => False

variable {state : AppState} {request : Request} {h h' : Asked} {s s' : System} {l : Label}

theorem CommandArgs.mono {e : EntryPoint} (hargs : CommandArgs h args e) (hh : h <+: h') :
    CommandArgs h' args e := by
  cases e with
  | runbookRun id body =>
    obtain ⟨row, definition, runArgs, hmem, hrest⟩ := hargs
    exact ⟨row, definition, runArgs, hh.subset hmem, hrest⟩
  | _ => exact hargs

/-! ## Requests -/

/-- What a request asks about arguments, after it has asked `h`. -/
def Given (request : Request) (h : Asked) : Query → Prop
  | .insertQueued _ _ _ _ stored => ∃ args, Gives h args .commandRuns request ∧ stored = redactArgs args
  | .submit task => Gives h task.args .commandRuns request ∧ task.argsRedacted = redactArgs task.args
  | .recordCompletedCommand _ _ _ _ _ => False
  | .insertRunbookRun _ _ stored _ => Gives h stored .runbookRuns request
  | _ => True

/-- The same from now on. -/
def GivenFrom (request : Request) (h : Asked) (q : Query) : Prop := ∀ h', h <+: h' → Given request h' q

theorem allowsChecks_given (request : Request) (h : Asked) : AllowsChecks (GivenFrom request h) :=
  ⟨fun _ _ _ => trivial, fun _ _ _ => trivial, fun _ _ _ => trivial, fun _ _ _ => trivial,
    fun _ _ => trivial, fun _ _ => trivial, fun _ _ _ _ => trivial, fun _ _ _ => trivial⟩

theorem allowsCommand_given {e : EntryPoint} (hargs : CommandArgs h args e) :
    AllowsCommand (GivenFrom (.entry e) h) args where
  insert _ _ _ _ h' hh := ⟨args, hargs.mono hh, rfl⟩
  submit task htask hredacted h' hh := by
    refine ⟨?_, ?_⟩
    · rw [htask]
      exact hargs.mono hh
    · rw [hredacted, htask]

theorem wp_given {ε α : Type} {p : Prog Query Query.Answer ε α} (hp : p.Only (GivenFrom request h)) :
    wp (fun h e => Given request h e.1) p h fun h' _ => h <+: h' := by
  refine wp_mono (hp.wp_extends fun h' e hx he => he h' ?_) fun h' _ hx => ?_
  · obtain ⟨es, rfl, -⟩ := hx
    exact List.prefix_append _ _
  · obtain ⟨es, rfl, -⟩ := hx
    exact List.prefix_append _ _

/-- An endpoint whose questions are all of the kind. -/
theorem wp_given_bind {ε α β : Type} {p : Prog Query Query.Answer ε α}
    {k : α → Prog Query Query.Answer ε β} {h : Asked} (hp : p.Only (GivenFrom request h))
    (hk : ∀ h' a, h <+: h' → wp (fun h e => Given request h e.1) (k a) h' fun _ _ => True) :
    wp (fun h e => Given request h e.1) (p >>= k) h fun _ _ => True :=
  wp_bind (wp_given hp) (fun h' a hh => hk h' a hh) fun _ _ _ => trivial

theorem given_run {auth : AuthPrincipal} {headers : Headers} {id : Uuid}
    {body : Option (Except Unit Json)} :
    wp (fun h e => Given (.entry (.runbookRun id body)) h e.1)
      (Automation.run state auth headers id body) [] fun _ _ => True := by
  refine wp_given_bind (only_require (allowsChecks_given _ _)) fun h₁ _ _ => ?_
  refine wp_failIf_bind (fun _ => trivial) fun _ => wp_ask (fun _ => trivial) fun found => ?_
  refine wp_orFail_bind (fun _ _ => trivial) fun row hrow => ?_
  refine wp_ofOption_bind (fun _ => trivial) fun runbook hrunbook => ?_
  refine wp_orFail_bind (fun _ _ => trivial) fun definition hparsed => ?_
  refine wp_orFail_bind (fun _ _ => trivial) fun _ _ => ?_
  show wp _ (ofExcept (Automation.runArgsOf body) >>= _) _ _
  cases hbody : Automation.runArgsOf body with
  | error err => trivial
  | ok runArgs =>
    refine wp_ask (fun _ => hbody) fun inserted => wp_orFail_bind (fun _ _ => trivial) fun runId _ => ?_
    refine wp_given_bind (only_runSteps (allowsChecks_given _ _) fun step hstep => ?_) ?_
    · refine allowsCommand_given ⟨runbook, definition, runArgs, ?_, hparsed, hbody, step, hstep, rfl⟩
      rw [hrow, hrunbook]
      simp
    · rintro h₂ ⟨ok, results⟩ -
      refine wp_ask (fun _ => trivial) fun finished => ?_
      exact wp_orFail_bind (fun _ _ => trivial) fun _ _ => trivial

theorem only_given_consoleGate {auth : AuthPrincipal} {headers : Headers} :
    (consoleGate state auth headers).Only (GivenFrom request h) := by
  refine only_bind (only_require (allowsChecks_given _ _)) fun _ => ?_
  refine only_bind (only_query fun _ _ => trivial) fun allowed => only_bind ?_ fun _ => ?_
  · cases allowed <;> exact only_done
  · exact only_checkReauthHeader (allowsChecks_given _ _)

/-- What a request stores. -/
theorem given_of_request (request : Request) (auth : AuthPrincipal) (headers : Headers) :
    wp (fun h e => Given request h e.1) (request.handler state auth headers) [] fun _ _ => True := by
  cases request with
  | entry e =>
    cases e with
    | executeAction actionId args =>
      refine wp_given_bind (only_executeAction (allowsChecks_given _ _) ?_) fun _ _ _ => trivial
      exact allowsCommand_given rfl
    | executeRoomAction roomId actionId args =>
      refine wp_given_bind (only_roomAction (allowsChecks_given _ _) ?_) fun _ _ _ => trivial
      exact allowsCommand_given rfl
    | adminRoomAction roomId actionId args =>
      refine wp_given_bind (only_roomAction (allowsChecks_given _ _) ?_) fun _ _ _ => trivial
      exact allowsCommand_given rfl
    | adminRoomActionsBatch body =>
      refine wp_given_bind (only_adminRoomActionsBatch (allowsChecks_given _ _) ?_) fun _ _ _ => trivial
      exact fun phiraId htarget roomId hroom =>
        allowsCommand_given ⟨phiraId, htarget, roomId, hroom, rfl⟩
    | userActions userId actionId args =>
      refine wp_given_bind (only_userActions (allowsChecks_given _ _) ?_) fun _ _ _ => trivial
      exact allowsCommand_given rfl
    | runbookRun id body => exact wp_bind given_run (fun _ _ _ => trivial) fun _ _ _ => trivial
  | executeCommand command =>
    refine wp_bind (R := fun _ _ => True) ?_ (fun _ _ _ => trivial) fun _ _ _ => trivial
    refine wp_given_bind only_given_consoleGate fun _ _ _ => ?_
    refine wp_requireDb_bind trivial (wp_ask (fun _ => trivial) fun commandId => ?_)
    refine wp_ask (fun _ => trivial) fun inserted => wp_orFail_bind (fun _ _ => trivial) fun _ _ => ?_
    refine wp_ask (fun _ => trivial) fun answer => wp_ask (fun _ => trivial) fun marked => ?_
    refine wp_orFail_bind (fun _ _ => trivial) fun _ _ => ?_
    exact wp_ask (fun _ => trivial) fun _ => trivial
  | submitInput command =>
    refine wp_bind (R := fun _ _ => True) ?_ (fun _ _ _ => trivial) fun _ _ _ => trivial
    refine wp_given_bind only_given_consoleGate fun _ _ _ => ?_
    refine wp_ask (fun _ => trivial) fun answer => ?_
    dsimp only
    split_ifs
    · exact wp_ask (fun _ => trivial) fun _ => by cases answer <;> trivial
    · cases answer <;> trivial

/-! ## Executions -/

/-- What the execution of a task stores. -/
def Recorded (task : CommandTask) : Query → Prop
  | .recordCompletedCommand _ stored _ _ _ => stored = task.argsRedacted
  | .insertQueued _ _ _ _ _ | .insertRunbookRun _ _ _ _ => False
  | _ => True

theorem recorded_of_execution (db : Bool) (task : CommandTask) :
    wp (fun _ e => Recorded task e.1) (execute db task) [] fun _ _ => True := by
  refine wp_bind (R := fun _ _ => True) (wp_attempt (wp_run_queries fun h e he => ?_)) ?_
    fun _ _ _ => trivial
  · obtain ⟨q, a⟩ := e
    cases q <;> trivial
  · intro h₁ result _
    refine wp_ofOption_bind (fun _ => trivial) fun out _ => ?_
    refine wp_bind (R := fun _ _ => True) ?_ ?_ fun _ _ _ => trivial
    · unfold record
      split_ifs
      · refine wp_ask (fun _ => trivial) fun _ => ?_
        cases task.audit with
        | none => trivial
        | some audit => exact wp_ask (fun _ => rfl) fun _ => trivial
      · trivial
    · intro h₂ _ _
      split_ifs
      · exact wp_ask (fun _ => trivial) fun _ => trivial
      · trivial

/-! ## Runs of the system -/

/-- Some request has submitted the task. -/
def System.Submitted (s : System) (task : CommandTask) : Prop :=
  ∃ f ∈ s.flights, ∃ accepted, ⟨.submit task, accepted⟩ ∈ f.asked

/-- A step forgets no submission. -/
theorem Effect.submitted {task : CommandTask} (heffect : Effect state s l s') (hs : s.Submitted task) :
    s'.Submitted task := by
  obtain ⟨f, hf, accepted, hmem⟩ := hs
  have hset : ∀ {i : ℕ} {g : Flight} {rest : Server ℕ} {e : Event Query Query.Answer},
      s.flights[i]? = some g → ∃ f ∈ s.flights.set i { g with rest := rest, asked := g.asked ++ [e] },
        ∃ accepted, ⟨.submit task, accepted⟩ ∈ f.asked := by
    intro i g rest e hg
    obtain ⟨j, hj, rfl⟩ := List.getElem_of_mem hf
    by_cases hij : i = j
    · subst hij
      obtain ⟨_, rfl⟩ := List.getElem?_eq_some_iff.mp hg
      exact ⟨_, List.mem_set hj _, accepted, List.mem_append_left _ hmem⟩
    · refine ⟨s.flights[j], ?_, accepted, hmem⟩
      rw [List.mem_iff_getElem?]
      exact ⟨j, by rw [List.getElem?_set_ne hij, List.getElem?_eq_getElem hj]⟩
  cases heffect with
  | arrive request auth headers => exact ⟨f, List.mem_append_left _ hf, accepted, hmem⟩
  | answer i e g rest rows hg hrest hrows hne => exact hset hg
  | submit i task' accepted' g rest broker hg hrest hsubmit => exact hset hg
  | recv key worker broker item hb hitem => exact ⟨f, hf, accepted, hmem⟩
  | work key worker e x rest rows hx hrest hrows => exact ⟨f, hf, accepted, hmem⟩
  | finish key worker x r broker hx hr hb => exact ⟨f, hf, accepted, hmem⟩

/-- Every task that the broker holds was submitted by a request. -/
theorem submitted_of_held (hreach : Reachable (step state) System.init s) :
    ∀ i ∈ s.broker.held, s.Submitted i.task := by
  induction hreach with
  | start => exact nofun
  | @next s s' l hreach _ hstep ih =>
    intro j hj
    have heffect := step_effect hstep
    have hbroker := broker_reachable hreach
    have hold : j ∈ s.broker.held → s'.Submitted j.task := fun hj => heffect.submitted (ih j hj)
    cases heffect with
    | submit i task accepted f rest broker hf hrest hsubmit =>
      rcases mem_held_submit hbroker (coherent_of_reaches hreach).pending hsubmit hj with hj | rfl
      · exact hold hj
      · refine ⟨_, List.mem_set (List.getElem?_eq_some_iff.mp hf).1 _, accepted, ?_⟩
        exact List.mem_append_right _ (List.mem_singleton_self _)
    | recv key worker broker item hb hitem =>
      exact hold ((held_recv (lane_of_reachable hbroker key) hb).mem_iff.mp hj)
    | finish key worker x r broker hx hr hb => exact hold (mem_held_end hbroker hb hj)
    | arrive request auth headers => exact hold hj
    | answer i e f rest rows hf hrest hrows hne => exact hold hj
    | work key worker e x rest rows hx hrest hrows => exact hold hj

/-- The statement of a step. -/
def Label.asks : Label → Option Query
  | .answer _ e => some e.1
  | .work _ _ e => some e.1
  | _ => none

/-- `args` are the arguments, given by a request, that the step stores: its own ones, or those of the
    task that is executed. -/
def StoredFor (s : System) (table : ArgsTable) (args : Json) : Label → Prop
  | .answer i _ => ∃ f, s.flights[i]? = some f ∧ Gives f.asked args table f.request
  | .work key worker _ => ∃ x f, s.running key worker = some x ∧ x.item.task.args = args ∧
    f ∈ s.flights ∧ (∃ accepted, ⟨.submit x.item.task, accepted⟩ ∈ f.asked) ∧
    Gives f.asked args table f.request
  | _ => False

/-- The arguments that are stored as they should be. -/
def StoredWell : ArgsTable → Json → Prop
  | .runbookRuns, args => NoSecret args
  | _, args => OnlyTopSecrets args

/-- What a request stores. -/
theorem stored_of_given {q : Query} {table : ArgsTable} (hgiven : Given request h q)
    (hstored : storedArgs q = some (table, stored)) :
    ∃ args, Gives h args table request ∧ (Redacted args stored ↔ StoredWell table args) := by
  cases q with
  | insertQueued id action actor key value =>
    obtain ⟨rfl, rfl⟩ := Prod.mk.inj (Option.some.inj hstored)
    obtain ⟨args, hgives, rfl⟩ := hgiven
    exact ⟨args, hgives, redacted_redactArgs_iff args⟩
  | insertRunbookRun runbook definition value actor =>
    obtain ⟨rfl, rfl⟩ := Prod.mk.inj (Option.some.inj hstored)
    exact ⟨value, hgiven, redacted_self_iff value⟩
  | recordCompletedCommand _ _ _ _ _ => exact hgiven.elim
  | _ => cases hstored

/-- What the execution of a task of a request stores. -/
theorem stored_of_recorded {task : CommandTask} {q : Query} {table : ArgsTable}
    (hrecorded : Recorded task q) (hgives : Gives h task.args .commandRuns request)
    (hredacted : task.argsRedacted = redactArgs task.args)
    (hstored : storedArgs q = some (table, stored)) :
    Gives h task.args table request ∧ (Redacted task.args stored ↔ StoredWell table task.args) := by
  cases q with
  | recordCompletedCommand audit value status errorCode commandId =>
    obtain ⟨rfl, rfl⟩ := Prod.mk.inj (Option.some.inj hstored)
    obtain rfl : value = task.argsRedacted := hrecorded
    refine ⟨?_, ?_⟩
    · cases request <;> exact hgives
    · rw [hredacted]
      exact redacted_redactArgs_iff task.args
  | insertQueued _ _ _ _ _ => exact hrecorded.elim
  | insertRunbookRun _ _ _ _ => exact hrecorded.elim
  | _ => cases hstored

/-- `redact_args` is idempotent, and a value that is stored in one of the three columns in a run hides
    the secrets of the arguments it is made of, and nothing else, just if these are, for a command, an
    object without secrets below its harmless fields and, for a runbook, a value without secrets. -/
theorem stored_redacted_iff (state : AppState) (s s' : System) (l : Label)
    (hreach : Reachable (step state) System.init s) (hstep : step state s l = some s') (q : Query)
    (hasks : l.asks = some q) (table : ArgsTable) (stored : Json)
    (hstored : storedArgs q = some (table, stored)) :
    (∀ args, redactArgs (redactArgs args) = redactArgs args) ∧
      ∃ args, StoredFor s table args l ∧ (Redacted args stored ↔ StoredWell table args) := by
  refine ⟨redactArgs_redactArgs, ?_⟩
  cases step_effect hstep with
  | arrive request auth headers => cases hasks
  | recv key worker broker item hb hitem => cases hasks
  | finish key worker x r broker hx hr hb => cases hasks
  | submit i task accepted f rest broker hf hrest hsubmit =>
    obtain rfl := Option.some.inj hasks
    cases hstored
  | answer i e f rest rows hf hrest hrows hne =>
    obtain rfl := Option.some.inj hasks
    have hpath := flights_onPath (R := fun _ _ _ _ _ => True) given_of_request hreach f
      (List.mem_of_getElem? hf)
    obtain ⟨args, hgives, hiff⟩ := stored_of_given (ok_of_follow hpath.future hrest) hstored
    exact ⟨args, ⟨f, hf, hgives⟩, hiff⟩
  | work key worker e x rest rows hx hrest hrows =>
    obtain rfl := Option.some.inj hasks
    have hpath := executions_onPath (R := fun _ _ _ => True) (recorded_of_execution state.db) hreach x
      (.inl ⟨_, _, hx⟩)
    have hbusy : s.broker.busy key worker = some x.item := by
      rw [← (coherent_of_reaches hreach).running, hx]
      rfl
    obtain ⟨f, hf, accepted, hmem⟩ := submitted_of_held hreach x.item (mem_held_of_busy hbusy)
    obtain ⟨h₁, h₂, hasked⟩ := List.append_of_mem hmem
    have hprefix : h₁ ++ [⟨.submit x.item.task, accepted⟩] <+: f.asked := ⟨h₂, by rw [hasked]; simp⟩
    have hgiven : Given f.request h₁ (.submit x.item.task) :=
      (flights_onPath (R := fun _ _ _ _ _ => True) given_of_request hreach f hf).past _ _ hprefix
    have hgives : Gives f.asked x.item.task.args .commandRuns f.request := by
      revert hgiven
      cases f.request with
      | entry entry =>
        exact fun hgiven => CommandArgs.mono hgiven.1 ((List.prefix_append _ _).trans hprefix)
      | _ => exact fun hgiven => hgiven.1
    obtain ⟨hgives', hiff⟩ := stored_of_recorded (ok_of_follow hpath.future hrest) hgives hgiven.2 hstored
    exact ⟨x.item.task.args, ⟨x, f, hx, rfl, hf, ⟨accepted, hmem⟩, hgives'⟩, hiff⟩

/-! ### Passwords of Root -/

deriving instance DecidableEq for RoomBatchBody, EntryPoint, Request

def redactionRoot : AuthPrincipal :=
  { sub := Uuid.nil, sid := 1, principalType := .root, clientType := .panel, requestId := "" }

/-- Root runs the action `server.roomcreation`. -/
def actionRequest (args : Json) : Request := .entry (.executeAction "server.roomcreation" args)

/-- The insert of its row. -/
def actionInsert (stored : Json) : Event Query Query.Answer :=
  ⟨.insertQueued 1 "server.roomcreation" (Uuid.toText Uuid.nil) "server" stored, .ok ()⟩

/-- Root runs a runbook. -/
def runbookRequest (args : Json) : Request := .entry (.runbookRun 9 (some (.ok args)))

/-- A stored runbook without steps. -/
def emptyRunbook : RunbookRow := .ofSteps "x" []

/-- The insert of the run. -/
def runbookInsert (stored : Json) : Event Query Query.Answer :=
  ⟨.insertRunbookRun 9 emptyRunbook.definition stored (Uuid.toText Uuid.nil), .ok 71⟩

/-- A request of Root comes to a statement. -/
theorem exists_statement (request : Request) (es : Asked) (e : Event Query Query.Answer)
    (hrun : ((runFrom (step ⟨true, 10⟩) System.init
      (.arrive request redactionRoot [] :: es.map (Label.answer 0))).any fun s =>
        s.flights[0]?.any (fun f => decide (f.request = request)) &&
          (step ⟨true, 10⟩ s (.answer 0 e)).isSome) = true) :
    ∃ s s' f, Reachable (step ⟨true, 10⟩) System.init s ∧ step ⟨true, 10⟩ s (.answer 0 e) = some s' ∧
      s.flights[0]? = some f ∧ f.request = request := by
  obtain ⟨s, hreach, hs⟩ := exists_reachable_of_runFrom hrun
  rw [Bool.and_eq_true] at hs
  obtain ⟨s', hs'⟩ := Option.isSome_iff_exists.mp hs.2
  obtain ⟨f, hf, hrequest⟩ := (Option.any_eq_true _ _).mp hs.1
  exact ⟨s, s', f, hreach, hs', hf, of_decide_eq_true hrequest⟩

/-- A password on the top level, -/
def topPassword : Json := .obj [("enabled", .bool true), ("password", .str "hunter2")]

/-- and one further down. -/
def deepPassword : Json := .obj [("options", .obj [("password", .str "hunter2")])]

theorem onlyTopSecrets_topPassword : OnlyTopSecrets topPassword := by
  refine ⟨⟨_, rfl⟩, fun k v hv hk path s _ hat => ?_⟩
  have hget : Fields.get? [("enabled", Json.bool true), ("password", Json.str "hunter2")] k = some v := hv
  rw [Fields.get?_cons, Fields.get?_cons] at hget
  split_ifs at hget with henabled hpassword
  · obtain rfl := Option.some.inj hget
    cases path with
    | nil => cases hat
    | cons step rest => cases hat
  · rw [← hpassword] at hk
    exact absurd hk (by decide +kernel)
  · cases hget

/-- The password on the top level is hidden. -/
theorem stored_redacted_topPassword : ∃ s s' : System, Reachable (step ⟨true, 10⟩) System.init s ∧
    step ⟨true, 10⟩ s (.answer 0 (actionInsert
      (.obj [("enabled", .bool true), ("password", .str "[REDACTED]")]))) = some s' ∧
    Redacted topPassword (.obj [("enabled", .bool true), ("password", .str "[REDACTED]")]) := by
  obtain ⟨s, s', f, hreach, hstep, hf, hrequest⟩ := exists_statement (actionRequest topPassword)
    [⟨.newUuid, (1 : Uuid)⟩]
    (actionInsert (.obj [("enabled", .bool true), ("password", .str "[REDACTED]")])) (by decide +kernel)
  obtain ⟨-, args, hargs, hiff⟩ := stored_redacted_iff _ s s' _ hreach hstep _ rfl .commandRuns _ rfl
  obtain ⟨g, hg, hgives⟩ := hargs
  obtain rfl := Option.some.inj (hf.symm.trans hg)
  rw [hrequest] at hgives
  obtain rfl : args = topPassword := hgives
  exact ⟨s, s', hreach, hstep, hiff.mpr onlyTopSecrets_topPassword⟩

theorem not_redacted (path : JsonPath) {stored : Json} (hsecret : Secret path) (hat : stored.at? path = some (.str "hunter2")) :
    ¬ Redacted args stored :=
  fun hr => absurd (hr.hidden path "hunter2" hsecret hat) (by decide)

/-- The one further down is not, and a run of a runbook stores even the first. -/
theorem not_stored_redacted_deepPassword :
    (∃ s s' : System, Reachable (step ⟨true, 10⟩) System.init s ∧
      step ⟨true, 10⟩ s (.answer 0 (actionInsert deepPassword)) = some s' ∧
      StoredFor s .commandRuns deepPassword (.answer 0 (actionInsert deepPassword)) ∧
      ¬ Redacted deepPassword deepPassword) ∧
    ∃ s s' : System, Reachable (step ⟨true, 10⟩) System.init s ∧
      step ⟨true, 10⟩ s (.answer 0 (runbookInsert topPassword)) = some s' ∧
      StoredFor s .runbookRuns topPassword (.answer 0 (runbookInsert topPassword)) ∧
      ¬ Redacted topPassword topPassword := by
  have hpassword : isSensitiveKey "password" = true := by decide +kernel
  constructor
  · obtain ⟨s, s', f, hreach, hstep, hf, hrequest⟩ :=
      exists_statement (actionRequest deepPassword) [⟨.newUuid, (1 : Uuid)⟩] (actionInsert deepPassword)
        (by decide +kernel)
    refine ⟨s, s', hreach, hstep, ⟨f, hf, ?_⟩, ?_⟩
    · rw [hrequest]
      exact rfl
    · exact not_redacted [.key "options", .key "password"]
        ⟨"password", by simp, hpassword⟩ (by decide +kernel)
  · obtain ⟨s, s', f, hreach, hstep, hf, hrequest⟩ :=
      exists_statement (runbookRequest topPassword) [⟨.findRunbook 9, .ok (some emptyRunbook)⟩]
        (runbookInsert topPassword) (by decide +kernel)
    refine ⟨s, s', hreach, hstep, ⟨f, hf, ?_⟩, ?_⟩
    · rw [hrequest]
      exact rfl
    · exact not_redacted [.key "password"] ⟨"password", by simp, hpassword⟩ (by decide +kernel)

end Ppb.Commands
