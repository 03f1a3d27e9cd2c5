import Ppb.Actions.Entry

/-!
# The authorization gate of the broker

Every task that one of the six entry points hands to the command broker has
passed the same gate, whatever the request, the database and PMP answer: the
submitter holds the action's permission or is the host of the very room the task
names, presented a reauth token if the action asks for one, and the action is
not one of the Job API's.

* `Gate auth headers h task`: the gate, as a fact about what the request has
  asked and been told before the submit.
* `EntryOk`: everything the later modules need of the events of an entry point;
  `wp_entry` proves it of all six.
* `wp_verifyRealHostOr`, `wp_authorizeAction`, `wp_authorizeRoomAction`,
  `wp_reauthGate`, `wp_enqueue`: what each stage establishes.
* `submit_gated`: every submit of every entry point passes the gate.
-/

namespace Ppb.Actions

open Prog Auth Commands Rooms Automation

/-! ## The gate -/

/-- PMP's last answer for the room `roomId` names the caller as its host. Both
    numbers are compared as `i32`. -/
def RealHost (auth : AuthPrincipal) (roomId : String) (h : Asked) : Prop :=
  ∃ user info, Latest h (.findUserById auth.sub) (.ok (some user)) ∧
    Latest h (roomInfo roomId) (.ok info) ∧ hostIdOf info = some user.phiraId.toInt32

/-- The permission of the action, or the host of the room in its arguments. -/
def Authorized (auth : AuthPrincipal) (action : ActionDescriptor) (args : Json) (h : Asked) : Prop :=
  Permitted auth action.permission h ∨
    action.hostAllowed = true ∧
      ∃ roomId, args.get? "room_id" = some (.str roomId) ∧ RealHost auth roomId h

/-- What must hold of a task when it is submitted. -/
def Gate (auth : AuthPrincipal) (headers : Headers) (h : Asked) (task : CommandTask) : Prop :=
  ∃ action, getAction task.action = some action ∧ Authorized auth action task.args h ∧
    (action.reauth = true → Reauthed auth headers (reauthRisk action) h) ∧
    isJobOnlyAction action.id = false

/-! ## Events of an entry point -/

/-- A step at which the step loop of a runbook ends (automation/routes.rs:392). -/
def stopsRun (step : RunbookStep) : Bool :=
  match getAction step.action with
  | some action => action.longRunning || isJobOnlyAction action.id
  | none => false

/-- The step loop can come to a `pmp.cli.execute` step. -/
def rawAhead : List RunbookStep → Bool
  | [] => false
  | step :: rest =>
    if step.action = "pmp.cli.execute" then true
    else if stopsRun step then false
    else rawAhead rest

/-- A runbook was read that is valid and has a `pmp.cli.execute` step its loop can
    come to. -/
def ReadsRaw (h : Asked) : Prop :=
  ∃ id row definition, ⟨.findRunbook id, .ok (some row)⟩ ∈ h ∧ row.parsed = .ok definition ∧
    validateSteps definition.steps = .ok () ∧ rawAhead definition.steps = true

/-- The last thing the request did was not to insert a row for a command. -/
def Settled (h : Asked) : Prop :=
  ∀ id action actor key args, h.getLast? ≠ some ⟨.insertQueued id action actor key args, .ok ()⟩

/-- What no entry point asks: text for the console, and the end of a command. -/
def OffLimits : Query → Prop
  | .openuds command _ _ => command = "cli.execute"
  | .markFinished _ _ _ _ => True
  | _ => False

/-- What is true of every event `e` of an entry point, at the history `h`. -/
structure EntryOk (auth : AuthPrincipal) (headers : Headers) (h : Asked)
    (e : Event Query Query.Answer) : Prop where
  /-- a submitted task passes the gate -/
  gate : ∀ task, e.1 = .submit task → Gate auth headers h task
  /-- only a runbook can submit free text for the console -/
  plane : ∀ task, e.1 = .submit task → task.action = "pmp.cli.execute" → ReadsRaw h
  /-- and nothing is sent to the console directly -/
  limits : ¬ OffLimits e.1
  /-- a submit follows the insert of its row at once -/
  submit : ∀ task, e.1 = .submit task → h.getLast? = some ⟨.insertQueued task.commandId task.action
    task.actor task.resourceKey task.argsRedacted, .ok ()⟩
  /-- and a successful insert is followed by a submit at once -/
  insert : (∀ task, e.1 ≠ .submit task) → Settled h

variable {state : AppState} {auth : AuthPrincipal} {headers : Headers} {action : ActionDescriptor}
  {args : Json} {h h' : Asked} {C : Query → Prop}

theorem settled_nil : Settled [] := nofun

theorem Settled.snoc {e : Event Query Query.Answer}
    (he : ∀ id action actor key args, e.1 ≠ .insertQueued id action actor key args) :
    Settled (h ++ [e]) := by
  intro id action actor key args hlast
  rw [List.getLast?_concat, Option.some.injEq] at hlast
  subst hlast
  exact he id action actor key args rfl

theorem Settled.extends (hs : Settled h) (hx : Extends C h h')
    (hC : ∀ id action actor key args, ¬ C (.insertQueued id action actor key args)) :
    Settled h' := by
  obtain ⟨es, rfl, hes⟩ := hx
  rcases List.eq_nil_or_concat es with rfl | ⟨init, e, rfl⟩
  · rwa [List.append_nil]
  · rw [List.concat_eq_append, ← List.append_assoc]
    refine Settled.snoc fun id action actor key args he => hC id action actor key args ?_
    rw [← he]
    exact hes e (by simp)

/-- A question that is neither a submit nor off limits. -/
theorem EntryOk.plain {e : Event Query Query.Answer} (hs : Settled h)
    (hsubmit : ∀ task, e.1 ≠ .submit task) (hlimits : ¬ OffLimits e.1) :
    EntryOk auth headers h e where
  gate task htask := absurd htask (hsubmit task)
  plane task htask := absurd htask (hsubmit task)
  limits := hlimits
  submit task htask := absurd htask (hsubmit task)
  insert _ := hs

theorem ReadsRaw.extends (hr : ReadsRaw h) (hx : Extends C h h') : ReadsRaw h' := by
  obtain ⟨es, rfl, -⟩ := hx
  obtain ⟨id, row, definition, hmem, hraw⟩ := hr
  exact ⟨id, row, definition, List.mem_append_left _ hmem, hraw⟩

/-! ## Stages -/

/-- The questions of `verify_real_host`. -/
def IsHostQuery : Query → Prop
  | .findUserById _ => True
  | .openuds command _ _ => command = "room.info"
  | _ => False

theorem RealHost.extends {roomId : String} (hh : RealHost auth roomId h) (hx : Extends C h h')
    (huser : ¬ C (.findUserById auth.sub)) (hroom : ¬ C (roomInfo roomId)) :
    RealHost auth roomId h' := by
  obtain ⟨user, info, hu, hi, hhost⟩ := hh
  exact ⟨user, info, hu.extends hx huser, hi.extends hx hroom, hhost⟩

theorem Authorized.extends (ha : Authorized auth action args h) (hx : Extends C h h')
    (hgroup : ¬ C (.groupRows auth.sub)) (huser : ¬ C (.findUserById auth.sub))
    (hroom : ∀ roomId, ¬ C (roomInfo roomId)) : Authorized auth action args h' := by
  rcases ha with hp | ⟨hallowed, roomId, hroomId, hh⟩
  · exact .inl (hp.extends hx hgroup)
  · exact .inr ⟨hallowed, roomId, hroomId, hh.extends hx huser (hroom roomId)⟩

theorem entryOk_groupRows (hs : Settled h) (a : (Query.groupRows auth.sub).Answer) :
    EntryOk auth headers h ⟨.groupRows auth.sub, a⟩ := .plain hs nofun nofun

theorem entryOk_roomInfo (hs : Settled h) (roomId : String) (a : (roomInfo roomId).Answer) :
    EntryOk auth headers h ⟨roomInfo roomId, a⟩ := by
  refine .plain hs nofun fun (hname : "room.info" = "cli.execute") => ?_
  exact absurd hname (by decide)

theorem wp_verifyRealHostOr {noUser : ApiError} (hs : Settled h) :
    wp (EntryOk auth headers) (verifyRealHostOr noUser state auth args) h fun h' r =>
      Extends IsHostQuery h h' ∧ (r = .ok true →
        ∃ roomId, args.get? "room_id" = some (.str roomId) ∧ RealHost auth roomId h') := by
  refine wp_ofOption_bind (fun _ => ⟨.refl, nofun⟩) fun roomId hroomId => ?_
  refine wp_requireDb_bind ⟨.refl, nofun⟩ (wp_ask (fun _ => .plain hs nofun nofun) fun row => ?_)
  have hx : Extends IsHostQuery h (h ++ [⟨.findUserById auth.sub, row⟩]) :=
    Extends.refl.snoc trivial
  cases row with
  | error e => exact ⟨hx, nofun⟩
  | ok found =>
    cases found with
    | none => exact ⟨hx, nofun⟩
    | some user =>
      have hs₁ : Settled (h ++ [⟨.findUserById auth.sub, .ok (some user)⟩]) := .snoc nofun
      refine wp_ask (entryOk_roomInfo hs₁ roomId) fun info => ?_
      have hx' := hx.snoc (e := ⟨roomInfo roomId, info⟩) (C := IsHostQuery) rfl
      cases info with
      | error e => exact ⟨hx', nofun⟩
      | ok info =>
        refine ⟨hx', fun hr =>
          ⟨roomId, Json.bind_asStr_eq_some.mp hroomId, user, info, ?_, .now _ _ _, ?_⟩⟩
        · exact (Latest.now h _ _).append (by simp [roomInfo])
        · have heq : (hostIdOf info == some user.phiraId.toInt32) = true := Except.ok.inj hr
          exact beq_iff_eq.mp heq

/-- Both authorization stages: the permission is resolved, the host is looked up
    if the action allows hosts, and one of them is needed. -/
theorem authorized_of_stage {granted isHost : Bool} {h₁ h₂ : Asked}
    (hgranted : granted = true → Permitted auth action.permission h₁)
    (hx : Extends IsHostQuery h₁ h₂)
    (hhost : isHost = true → action.hostAllowed = true ∧
      ∃ roomId, args.get? "room_id" = some (.str roomId) ∧ RealHost auth roomId h₂)
    (hone : ¬ (granted = false ∧ isHost = false)) : Authorized auth action args h₂ := by
  cases granted with
  | true => exact .inl ((hgranted rfl).extends hx nofun)
  | false =>
    cases isHost with
    | true => exact .inr (hhost rfl)
    | false => exact absurd ⟨rfl, rfl⟩ hone

/-- What an authorization stage establishes. -/
def StageOk (auth : AuthPrincipal) (action : ActionDescriptor) (args : Json) (h' : Asked)
    (r : Except ApiError Unit) : Prop :=
  ∀ a, r = .ok a → Settled h' ∧ Authorized auth action args h'

theorem wp_authorizeAction (hs : Settled h) :
    wp (EntryOk auth headers) (authorizeAction state auth action args) h
      (StageOk auth action args) := by
  refine wp_bind (wp_hasPermission (entryOk_groupRows hs)) ?_ fun _ _ _ => nofun
  rintro h₁ granted ⟨hx₁, hp⟩
  have hs₁ : Settled h₁ := hs.extends hx₁ nofun
  have hgranted : granted = true → Permitted auth action.permission h₁ := by
    rintro rfl
    exact hp rfl
  split_ifs with hallowed
  · refine wp_bind (wp_verifyRealHostOr hs₁) ?_ fun _ _ _ => nofun
    rintro h₂ isHost ⟨hx, hh⟩
    refine wp_failIf (fun _ => nofun) fun hone _ _ => ⟨hs₁.extends hx nofun, ?_⟩
    refine authorized_of_stage hgranted hx ?_ hone
    rintro rfl
    exact ⟨hallowed, hh rfl⟩
  · refine wp_failIf (fun _ => nofun) fun hone _ _ => ⟨hs₁, ?_⟩
    exact .inl (hgranted (by simpa using hone))

theorem wp_authorizeRoomAction (hs : Settled h) :
    wp (EntryOk auth headers) (authorizeRoomAction state auth action args) h
      (StageOk auth action args) := by
  refine wp_bind (wp_hasPermission (entryOk_groupRows hs)) ?_ fun _ _ _ => nofun
  rintro h₁ granted ⟨hx₁, hp⟩
  have hs₁ : Settled h₁ := hs.extends hx₁ nofun
  have hgranted : granted = true → Permitted auth action.permission h₁ := by
    rintro rfl
    exact hp rfl
  refine wp_bind (R := fun h₂ r => Extends IsHostQuery h₁ h₂ ∧ (r = .ok true →
    action.hostAllowed = true ∧
      ∃ roomId, args.get? "room_id" = some (.str roomId) ∧ RealHost auth roomId h₂)) ?_ ?_
    fun _ _ _ => nofun
  · split_ifs with hallowed
    · refine wp_mono (wp_verifyRealHostOr hs₁) ?_
      rintro h₂ r ⟨hx, hh⟩
      exact ⟨hx, fun hr => ⟨hallowed, hh hr⟩⟩
    · exact ⟨.refl, nofun⟩
  · rintro h₂ isHost ⟨hx, hh⟩
    refine wp_failIf (fun _ => nofun) fun hone _ _ => ⟨hs₁.extends hx nofun, ?_⟩
    refine authorized_of_stage hgranted hx ?_ hone
    rintro rfl
    exact hh rfl

theorem entryOk_reauth {e : Event Query Query.Answer} (hs : Settled h) (he : IsReauthQuery e.1) :
    EntryOk auth headers h e := by
  refine .plain hs (fun task htask => ?_) fun hlimits => ?_
  · rw [htask] at he
    exact he
  · obtain ⟨q, a⟩ := e
    cases q <;> first | exact hlimits | exact he

theorem wp_reauthGate (hs : Settled h) :
    wp (EntryOk auth headers) (reauthGate auth headers action) h fun h' r =>
      Extends IsReauthQuery h h' ∧ (r = .ok () → action.reauth = true →
        Reauthed auth headers (reauthRisk action) h') := by
  unfold reauthGate
  split_ifs with hreauth
  · refine wp_mono (wp_checkReauthHeader fun h' e hx he =>
      entryOk_reauth (hs.extends hx nofun) he) ?_
    rintro h' r ⟨hx, hr⟩
    exact ⟨hx, fun hok _ => hr hok⟩
  · exact ⟨.refl, fun _ h => absurd h hreauth⟩

/-- A descriptor of the registry that is not the Job API's. -/
def Eligible (action : ActionDescriptor) : Prop :=
  getAction action.id = some action ∧ isJobOnlyAction action.id = false

/-- Everything the gate asks for an action and its arguments. -/
structure Cleared (auth : AuthPrincipal) (headers : Headers) (action : ActionDescriptor) (args : Json)
    (h : Asked) : Prop where
  settled : Settled h
  eligible : Eligible action
  plane : action.id = "pmp.cli.execute" → ReadsRaw h
  authorized : Authorized auth action args h
  reauthed : action.reauth = true → Reauthed auth headers (reauthRisk action) h

/-- The questions from the row of a command to its result. -/
def IsCommandQuery : Query → Prop
  | .newUuid => True
  | .insertQueued _ _ _ _ _ => True
  | .submit _ => True
  | .completion _ _ => True
  | _ => False

/-- A cleared action goes through `enqueue`: its task carries the arguments that
    were checked. -/
theorem wp_enqueue {resource : String → String × String} {completion : Bool}
    (hc : Cleared auth headers action args h) :
    wp (EntryOk auth headers) (enqueue auth headers action args resource completion) h
      fun h' r => Extends IsCommandQuery h h' ∧ ∀ id, r = .ok id → Settled h' := by
  refine wp_ask (fun _ => .plain hc.settled nofun nofun) fun commandId => ?_
  have hx₁ : Extends IsCommandQuery h (h ++ [⟨.newUuid, commandId⟩]) := Extends.refl.snoc trivial
  refine wp_ask (fun _ => .plain (.snoc nofun) nofun nofun) fun inserted => ?_
  have hx₂ := hx₁.snoc (e := ⟨.insertQueued commandId action.id auth.sub.toText
    (resolveQueueKey action args) (redactArgs args), inserted⟩) (C := IsCommandQuery) trivial
  cases inserted with
  | error e => exact ⟨hx₂, nofun⟩
  | ok u =>
    refine wp_ask (fun accepted => ?_) fun accepted => ?_
    · constructor
      · rintro task ⟨⟩
        exact ⟨action, hc.eligible.1, hc.authorized.extends hx₂ nofun nofun fun _ => nofun,
          fun hreauth => (hc.reauthed hreauth).extends hx₂ (fun _ => nofun) nofun, hc.eligible.2⟩
      · rintro task ⟨⟩ hraw
        exact (hc.plane hraw).extends hx₂
      · exact nofun
      · rintro task ⟨⟩
        rw [List.getLast?_concat]
      · exact fun hne => absurd rfl (hne _)
    · have hx₃ := hx₂.snoc (e := ⟨_, accepted⟩) (C := IsCommandQuery) trivial
      exact wp_failIf_bind (fun _ => ⟨hx₃, nofun⟩) fun _ => ⟨hx₃, fun _ _ => .snoc nofun⟩

theorem wp_rejectOtherPlanes {actionId : String} (hget : getAction actionId = some action) :
    wp (EntryOk auth headers) (rejectOtherPlanes action) h fun h' r =>
      h' = h ∧ ∀ a, r = .ok a → Eligible action ∧ action.id ≠ "pmp.cli.execute" := by
  refine wp_failIf_bind (fun _ => ⟨rfl, nofun⟩) fun hjob => ?_
  refine wp_failIf (fun _ => ⟨rfl, nofun⟩) fun hraw => ⟨rfl, fun _ _ => ⟨⟨?_, ?_⟩, hraw⟩⟩
  · exact getAction_self hget
  · simpa using hjob

theorem wp_awaitResult {commandId : Uuid} {accepted : Json} (hs : Settled h) :
    wp (EntryOk auth headers) (awaitResult action commandId accepted) h fun _ _ => True := by
  unfold awaitResult
  split_ifs
  · trivial
  · refine wp_ask (fun _ => .plain hs nofun nofun) fun completion => ?_
    cases completion with
    | result r => cases r <;> trivial
    | dropped => trivial
    | timedOut => trivial

/-- The stages after the authorization of a single action. -/
theorem wp_authorized {resource : String → String × String} {completion : Bool}
    {accepted : Uuid → Json} (hs : Settled h) (helig : Eligible action)
    (hraw : action.id ≠ "pmp.cli.execute") (ha : Authorized auth action args h) :
    wp (EntryOk auth headers) (do
      reauthGate auth headers action
      state.requireDb
      let id ← enqueue auth headers action args resource completion
      awaitResult action id (accepted id)) h fun _ _ => True := by
  refine wp_bind (wp_reauthGate hs) ?_ fun _ _ _ => trivial
  rintro h' u ⟨hx, hr⟩
  have hc : Cleared auth headers action args h' :=
    ⟨hs.extends hx nofun, helig, fun h => absurd h hraw, ha.extends hx nofun nofun fun _ => nofun, hr rfl⟩
  refine wp_requireDb_bind trivial (wp_bind (wp_enqueue hc) ?_ fun _ _ _ => trivial)
  rintro h'' id ⟨-, hs''⟩
  exact wp_awaitResult (hs'' id rfl)

/-! ## Endpoints -/

theorem wp_executeAction {actionId : String} (hs : Settled h) :
    wp (EntryOk auth headers) (executeAction state auth headers actionId args) h
      fun _ _ => True := by
  refine wp_ofOption_bind (fun _ => trivial) fun action hget => ?_
  refine wp_bind (wp_rejectOtherPlanes hget) ?_ fun _ _ _ => trivial
  rintro h₁ u ⟨rfl, helig⟩
  refine wp_bind (wp_authorizeAction hs) ?_ fun _ _ _ => trivial
  intro h₂ u' ha
  obtain ⟨hs₂, ha⟩ := ha u' rfl
  exact wp_authorized hs₂ (helig u rfl).1 (helig u rfl).2 ha

theorem wp_roomAction {resource : String → String × String} {roomId actionId : String}
    (hs : Settled h) :
    wp (EntryOk auth headers) (roomAction resource state auth headers roomId actionId args) h
      fun _ _ => True := by
  refine wp_ofOption_bind (fun _ => trivial) fun action hget => ?_
  refine wp_bind (wp_rejectOtherPlanes hget) ?_ fun _ _ _ => trivial
  rintro h₁ u ⟨rfl, helig⟩
  refine wp_bind (wp_authorizeRoomAction hs) ?_ fun _ _ _ => trivial
  intro h₂ u' ha
  obtain ⟨hs₂, ha⟩ := ha u' rfl
  exact wp_authorized hs₂ (helig u rfl).1 (helig u rfl).2 ha

theorem wp_userActions {userId : Int64} {actionId : String} (hs : Settled h) :
    wp (EntryOk auth headers) (userActions state auth headers userId actionId args) h
      fun _ _ => True := by
  refine wp_ofOption_bind (fun _ => trivial) fun action hget => ?_
  refine wp_bind (wp_rejectOtherPlanes hget) ?_ fun _ _ _ => trivial
  rintro h₁ u ⟨rfl, helig⟩
  refine wp_bind (wp_require (entryOk_groupRows hs)) ?_ fun _ _ _ => trivial
  rintro h₂ u' ⟨hx, hp⟩
  exact wp_authorized (hs.extends hx nofun) (helig u rfl).1 (helig u rfl).2 (.inl (hp rfl))

/-- The questions of a batch item. -/
def IsBatchQuery (q : Query) : Prop := IsCommandQuery q ∨ IsHostQuery q

/-- The checks made before a batch. -/
def BatchChecked (auth : AuthPrincipal) (headers : Headers) (action : ActionDescriptor)
    (h : Asked) : Prop :=
  Permitted auth action.permission h ∧
    (action.reauth = true → Reauthed auth headers (reauthRisk action) h)

theorem BatchChecked.extends (hb : BatchChecked auth headers action h)
    (hx : Extends IsBatchQuery h h') : BatchChecked auth headers action h' := by
  obtain ⟨hp, hr⟩ := hb
  refine ⟨hp.extends hx ?_, fun hreauth => (hr hreauth).extends hx (fun token => ?_) ?_⟩
  all_goals simp [IsBatchQuery, IsCommandQuery, IsHostQuery]

theorem wp_batchItem {phiraId : Int64} {dryRun : Bool} {roomId : String} (hs : Settled h)
    (helig : Eligible action) (hraw : action.id ≠ "pmp.cli.execute")
    (hb : BatchChecked auth headers action h) :
    wp (EntryOk auth headers) (batchItem state auth headers action args phiraId dryRun roomId) h
      fun h' r => Extends IsBatchQuery h h' ∧ ∀ item, r = .ok item → Settled h' := by
  refine wp_ask (entryOk_roomInfo hs roomId) fun info => ?_
  have hx : Extends IsBatchQuery h (h ++ [⟨roomInfo roomId, info⟩]) := Extends.refl.snoc (.inr rfl)
  have hs₁ : Settled (h ++ [⟨roomInfo roomId, info⟩]) := .snoc nofun
  cases info with
  | error e => exact ⟨hx, fun _ _ => hs₁⟩
  | ok room =>
    dsimp only
    split_ifs
    · exact ⟨hx, fun _ _ => hs₁⟩
    · exact ⟨hx, fun _ _ => hs₁⟩
    · obtain ⟨hp, hr⟩ := hb.extends hx
      have hc : Cleared auth headers action (batchArgs args roomId phiraId)
          (h ++ [⟨roomInfo roomId, .ok room⟩]) := ⟨hs₁, helig, fun h => absurd h hraw, .inl hp, hr⟩
      have herr {h' : Asked} {e : ApiError} :
          ∀ item, (.error e : Except ApiError RoomBatchItemResult) = .ok item → Settled h' := by
        intro item he
        cases he
      refine wp_requireDb_bind ⟨hx, herr⟩ (wp_bind (wp_enqueue hc) ?_ ?_)
      · rintro h' commandId ⟨hx', hs'⟩
        have hx₁ := hx.trans (hx'.mono fun _ => .inl)
        refine wp_ask (fun _ => .plain (hs' commandId rfl) nofun nofun) fun completion => ?_
        have hx₂ := hx₁.snoc (e := ⟨.completion commandId (some 30), completion⟩)
          (C := IsBatchQuery) (.inl trivial)
        have hs₂ : Settled (h' ++ [⟨.completion commandId (some 30), completion⟩]) := .snoc nofun
        cases completion with
        | result r => cases r <;> exact ⟨hx₂, fun _ _ => hs₂⟩
        | dropped => exact ⟨hx₂, fun _ _ => hs₂⟩
        | timedOut => exact ⟨hx₂, fun _ _ => hs₂⟩
      · rintro h' e ⟨hx', -⟩
        exact ⟨hx.trans (hx'.mono fun _ => .inl), herr⟩

/-- The loop, by induction on the rooms: the checks made before it still stand at
    every room. -/
theorem wp_batchLoop {phiraId : Int64} {dryRun : Bool} {roomIds : List String}
    {response : RoomBatchResponse} (hs : Settled h) (helig : Eligible action)
    (hraw : action.id ≠ "pmp.cli.execute") (hb : BatchChecked auth headers action h) :
    wp (EntryOk auth headers)
      (batchLoop state auth headers action args phiraId dryRun roomIds response) h
      fun _ _ => True := by
  induction roomIds generalizing h response with
  | nil => trivial
  | cons roomId rest ih =>
    refine wp_bind (wp_batchItem hs helig hraw hb) ?_ fun _ _ _ => trivial
    rintro h' item ⟨hx, hs'⟩
    exact ih (hs' item rfl) (hb.extends hx)

/-- None of the batch actions belongs to another plane. -/
theorem planes_of_batch {id : String} (h : isBatchAction id = true) :
    isJobOnlyAction id = false ∧ id ≠ "pmp.cli.execute" := by
  simp only [isBatchAction, Bool.or_eq_true, beq_iff_eq] at h
  rcases h with ((rfl | rfl) | rfl) | rfl <;> decide

theorem wp_adminRoomActionsBatch {body : RoomBatchBody} (hs : Settled h) :
    wp (EntryOk auth headers) (adminRoomActionsBatch state auth headers body) h
      fun _ _ => True := by
  refine wp_ofOption_bind (fun _ => trivial) fun action hget => ?_
  refine wp_failIf_bind (fun _ => trivial) fun hbatch => ?_
  obtain ⟨hjob, hraw⟩ := planes_of_batch (Bool.not_eq_false _ ▸ hbatch)
  have helig : Eligible action := ⟨getAction_self hget, hjob⟩
  refine wp_failIf_bind (fun _ => trivial) fun _ => ?_
  refine wp_ofOption_bind (fun _ => trivial) fun phiraId _ => ?_
  refine wp_bind (wp_require (entryOk_groupRows hs)) ?_ fun _ _ _ => trivial
  rintro h₁ u ⟨hx₁, hp⟩
  have hs₁ : Settled h₁ := hs.extends hx₁ nofun
  refine wp_bind (wp_reauthGate hs₁) ?_ fun _ _ _ => trivial
  rintro h₂ u' ⟨hx₂, hr⟩
  exact wp_batchLoop (hs₁.extends hx₂ nofun) helig hraw ⟨(hp rfl).extends hx₂ nofun, hr rfl⟩

theorem wp_sleepAfter {wait : Option ℕ} (hs : Settled h) :
    wp (EntryOk auth headers) (sleepAfter wait) h fun h' _ =>
      Extends (fun q => ∃ secs, q = .sleep secs) h h' := by
  cases wait with
  | none => exact wp_pure.mpr .refl
  | some secs =>
    refine wp_ask (fun _ => .plain hs nofun nofun) fun _ => wp_pure.mpr ?_
    exact Extends.refl.snoc ⟨_, rfl⟩

/-- The step loop, by induction on the steps. Each step makes its own checks; what
    is carried along is where a `pmp.cli.execute` step ahead comes from. -/
theorem wp_runSteps {runbook : Uuid} {runArgs : Json} {steps : List RunbookStep}
    {results : List AutomationStepResult} (hs : Settled h)
    (hraw : rawAhead steps = true → ReadsRaw h) :
    wp (EntryOk auth headers) (runSteps state auth headers runbook runArgs steps results) h
      fun h' r => ∀ x, r = .ok x → Settled h' := by
  induction steps generalizing h results with
  | nil => exact fun _ _ => hs
  | cons step rest ih =>
    have hahead : stopsRun step = false → rawAhead rest = true → ReadsRaw h := by
      intro hstop hrest
      refine hraw ?_
      simp [rawAhead, hstop, hrest]
    rw [runSteps]
    split_ifs with hwait
    · have hstop : stopsRun step = false := by
        rw [stopsRun, hwait]
        decide
      refine wp_bind (wp_sleepAfter hs) ?_ fun _ _ _ => nofun
      intro h' u hx
      exact ih (hs.extends hx (by simp)) fun hrest => (hahead hstop hrest).extends hx
    · refine wp_ofOption_bind (fun _ => nofun) fun action hget => ?_
      split_ifs with hjob
      · exact fun _ _ => hs
      · simp only [Bool.or_eq_true, not_or, Bool.not_eq_true] at hjob
        have hid : action.id = step.action := getAction_id hget
        have hstop : stopsRun step = false := by simp [stopsRun, hget, hjob]
        have hplane : action.id = "pmp.cli.execute" → ReadsRaw h := by
          intro hcli
          refine hraw ?_
          rw [rawAhead, if_pos (hid ▸ hcli)]
        refine wp_bind (wp_hasPermission (entryOk_groupRows hs)) ?_ fun _ _ _ => nofun
        rintro h₁ granted ⟨hx₁, hp⟩
        have hs₁ : Settled h₁ := hs.extends hx₁ nofun
        split_ifs with hgranted
        · exact fun _ _ => hs₁
        · have hp' : Permitted auth action.permission h₁ := hp (by simpa using hgranted)
          refine wp_bind (wp_reauthGate hs₁) ?_ fun _ _ _ => nofun
          rintro h₂ u ⟨hx₂, hr⟩
          have hx : Extends (fun _ => True) h h₂ :=
            (hx₁.mono fun _ _ => trivial).trans (hx₂.mono fun _ _ => trivial)
          have hc : Cleared auth headers action (mergeRunArgs step.args runArgs) h₂ :=
            ⟨hs₁.extends hx₂ nofun, ⟨getAction_self hget, hjob.2⟩,
              fun hcli => (hplane hcli).extends hx, .inl (hp'.extends hx₂ nofun), hr rfl⟩
          refine wp_bind (wp_enqueue hc) ?_ fun _ _ _ => nofun
          rintro h₃ commandId ⟨hx₃, hs₃⟩
          refine wp_ask (fun _ => .plain (hs₃ commandId rfl) nofun nofun) fun completion => ?_
          have hs₄ : Settled (h₃ ++ [⟨.completion commandId none, completion⟩]) := .snoc nofun
          have hx₄ : Extends (fun _ => True) h (h₃ ++ [⟨.completion commandId none, completion⟩]) :=
            (hx.trans (hx₃.mono fun _ _ => trivial)).snoc trivial
          cases completion with
          | result r =>
            cases r with
            | ok v =>
              refine wp_bind (wp_sleepAfter hs₄) ?_ fun _ _ _ => nofun
              intro h₅ u' hx₅
              refine ih (hs₄.extends hx₅ (by simp)) fun hrest => ?_
              exact ((hahead hstop hrest).extends hx₄).extends hx₅
            | error e => exact fun _ _ => hs₄
          | dropped => exact fun _ _ => hs₄
          | timedOut => exact fun _ _ => hs₄

theorem wp_run {id : Uuid} {body : Option (Except Unit Json)} (hs : Settled h) :
    wp (EntryOk auth headers) (Automation.run state auth headers id body) h fun _ _ => True := by
  refine wp_bind (wp_require (entryOk_groupRows hs)) ?_ fun _ _ _ => trivial
  rintro h₁ u ⟨hx₁, -⟩
  refine wp_requireDb_bind trivial (wp_ask (fun _ => ?_) fun found => ?_)
  · exact .plain (hs.extends hx₁ nofun) nofun nofun
  refine wp_orFail_bind (fun _ _ => trivial) fun row hrow => ?_
  refine wp_ofOption_bind (fun _ => trivial) fun runbook hrunbook => ?_
  refine wp_orFail_bind (fun _ _ => trivial) fun definition hparsed => ?_
  refine wp_orFail_bind (fun _ _ => trivial) fun _ hvalid => ?_
  refine wp_bind (R := fun h' _ => h' = _) (wp_ofExcept.mpr rfl) ?_ fun _ _ _ => trivial
  rintro h₂ runArgs rfl
  refine wp_ask (fun _ => .plain (.snoc nofun) nofun nofun) fun inserted => ?_
  refine wp_orFail_bind (fun _ _ => trivial) fun runId _ => ?_
  refine wp_bind (wp_runSteps (.snoc nofun) fun hraw => ?_) ?_ fun _ _ _ => trivial
  · refine ⟨id, runbook, definition, ?_, hparsed, hvalid, hraw⟩
    rw [hrow, hrunbook]
    simp
  · intro h₃ result hs₃
    refine wp_ask (fun _ => .plain (hs₃ result rfl) nofun nofun) fun finished => ?_
    exact wp_orFail_bind (fun _ _ => trivial) fun _ _ => trivial

/-- The events of all six entry points. -/
theorem wp_entry (entry : EntryPoint) :
    wp (EntryOk auth headers) (entry.handler state auth headers) [] fun _ _ => True := by
  cases entry with
  | executeAction actionId args =>
    exact wp_bind (wp_executeAction settled_nil) (fun _ _ _ => trivial) fun _ _ _ => trivial
  | executeRoomAction roomId actionId args =>
    exact wp_bind (wp_roomAction settled_nil) (fun _ _ _ => trivial) fun _ _ _ => trivial
  | adminRoomAction roomId actionId args =>
    exact wp_bind (wp_roomAction settled_nil) (fun _ _ _ => trivial) fun _ _ _ => trivial
  | adminRoomActionsBatch body =>
    exact wp_bind (wp_adminRoomActionsBatch settled_nil) (fun _ _ _ => trivial)
      fun _ _ _ => trivial
  | userActions userId actionId args =>
    exact wp_bind (wp_userActions settled_nil) (fun _ _ _ => trivial) fun _ _ _ => trivial
  | runbookRun id body =>
    exact wp_bind (wp_run settled_nil) (fun _ _ _ => trivial) fun _ _ _ => trivial

/-- **The gate is uniform**: whenever one of the entry points submits a task, for
    any principal, request and answers, the task passes the gate. -/
theorem submit_gated (state : AppState) (auth : AuthPrincipal) (headers : Headers)
    (entry : EntryPoint) (h : Asked) (task : CommandTask)
    (hsubmit : (entry.handler state auth headers).Asks h (.submit task)) :
    Gate auth headers h task :=
  (ok_of_asks (wp_entry entry) hsubmit true).gate task rfl

/-- A user without any group. -/
def plainUser : AuthPrincipal :=
  { sub := 5, sid := 6, principalType := .user, clientType := .panel, requestId := "" }

/-- `plainUser` kicks player 42 from the room `ABC`, of which he is the host. -/
def hostKick : EntryPoint :=
  .executeRoomAction "ABC" "room.kick" (.obj [("phira_id", .num (.posInt 42))])

/-- What `hostKick` asks before its submit, and is told. -/
def hostKickAsked : Asked :=
  [⟨.groupRows 5, .ok []⟩,
    ⟨.findUserById 5, .ok (some ⟨5, 7⟩)⟩,
    ⟨roomInfo "ABC", .ok (.obj [("host_id", .num (.posInt 7))])⟩,
    ⟨.newUuid, 1⟩,
    ⟨.insertQueued 1 "room.kick" (Uuid.toText 5) "room:ABC"
      (.obj [("phira_id", .num (.posInt 42)), ("room_id", .str "ABC")]), .ok ()⟩]

/-- The task of `hostKick`. -/
def hostKickTask : CommandTask :=
  { commandId := 1, action := "room.kick", actor := Uuid.toText 5, resourceKey := "room:ABC",
    args := .obj [("phira_id", .num (.posInt 42)), ("room_id", .str "ABC")],
    argsRedacted := .obj [("phira_id", .num (.posInt 42)), ("room_id", .str "ABC")],
    completion := true,
    audit := some { principalType := "user", actorUserId := some 5, actorSessionId := 6,
                    action := "room.kick", resourceType := "action", resourceId := "room:ABC",
                    requestId := "", ip := "", userAgent := "" } }

theorem submit_gated_host_kick :
    (hostKick.handler ⟨true, 10⟩ plainUser []).Asks hostKickAsked (.submit hostKickTask) ∧
      Gate plainUser [] hostKickAsked hostKickTask := by
  have hasks : (hostKick.handler ⟨true, 10⟩ plainUser []).Asks hostKickAsked
      (.submit hostKickTask) := by decide
  exact ⟨hasks, submit_gated ⟨true, 10⟩ plainUser [] hostKick hostKickAsked hostKickTask hasks⟩

end Ppb.Actions
