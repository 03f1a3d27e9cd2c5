import Ppb.Actions.Entry
import Ppb.Actions.Executor

/-!
# The target of a scoped action

Three endpoints name the target of a command in their path: `execute_room_action`
and `admin_room_action` a room, `user_actions` a player. The path's id is added to
the arguments only if these are an object without that key, and the audit row of
the last two names the path's id. So a body that brings the key itself moves the
command to another target while the URL and the audit row keep the old one.

* `names_mergeArg`, `names_normalizeOpenudsArgs`: the target in the arguments
  before and after they are rewritten.
* `wp_scoped`: what the three endpoints submit.
* `audited_target_iff`: the command acts on the target of the path exactly if the
  body leaves it to the path.
-/

namespace Ppb.Actions

open Prog Auth Commands Rooms

/-! ## Paths -/

/-- A path that names a target. -/
inductive TargetPath where
  | executeRoomAction (roomId : String)
  | adminRoomAction (roomId : String)
  | userActions (userId : Int64)

namespace TargetPath

/-- The request to the path. -/
def entry (actionId : String) (args : Json) : TargetPath → EntryPoint
  | .executeRoomAction roomId => .executeRoomAction roomId actionId args
  | .adminRoomAction roomId => .adminRoomAction roomId actionId args
  | .userActions userId => .userActions userId actionId args

/-- The path's id, as it stands in an audit row. -/
def id : TargetPath → String
  | .executeRoomAction roomId => roomId
  | .adminRoomAction roomId => roomId
  | .userActions userId => toString userId.toInt

/-- The argument that carries the target. -/
def key : TargetPath → String
  | .executeRoomAction _ => "room_id"
  | .adminRoomAction _ => "room_id"
  | .userActions _ => "user_id"

/-- The path's id, as it is added to the arguments. -/
def value : TargetPath → Json
  | .executeRoomAction roomId => .str roomId
  | .adminRoomAction roomId => .str roomId
  | .userActions userId => .ofInt64 userId

/-- The argument `v` is the path's id; a player is compared as a number. -/
def Matches : TargetPath → Json → Prop
  | .executeRoomAction roomId, v => v = .str roomId
  | .adminRoomAction roomId, v => v = .str roomId
  | .userActions userId, v => v.asI64 = some userId

/-- The target in `params` is the one of the path. -/
def Names (path : TargetPath) (params : Json) : Prop :=
  ∃ v, params.get? path.key = some v ∧ path.Matches v

/-- The body leaves the target to the path: `args` is an object, and if it has the
    path's key at all then with the path's id. -/
def LeavesTarget (path : TargetPath) (args : Json) : Prop :=
  ∃ fields, args = .obj fields ∧ ∀ v, Fields.get? fields path.key = some v → path.Matches v

/-- The audit row of the task names the path's id. The row of `execute_room_action`
    names the queue instead. -/
def Audited (path : TargetPath) (task : CommandTask) : Prop :=
  match path with
  | .executeRoomAction _ => True
  | .adminRoomAction _ => ∀ audit, task.audit = some audit → audit.resourceId = path.id
  | .userActions _ => ∀ audit, task.audit = some audit → audit.resourceId = path.id

end TargetPath

/-! ## Arguments -/

variable {path : TargetPath} {args : Json}

theorem matches_value : path.Matches path.value := by
  cases path with
  | executeRoomAction roomId => rfl
  | adminRoomAction roomId => rfl
  | userActions userId => exact Json.asI64_ofInt64 userId

theorem names_mergeArg : path.Names (mergeArg path.key path.value args) ↔ path.LeavesTarget args := by
  cases args with
  | obj fields =>
    cases hget : Fields.get? fields path.key with
    | none =>
      have hmerge : mergeArg path.key path.value (.obj fields) =
          .obj (Fields.insert path.key path.value fields) := by simp [mergeArg, hget]
      rw [hmerge]
      refine iff_of_true ⟨path.value, Fields.get?_insert_self _ _ _, matches_value⟩ ?_
      exact ⟨fields, rfl, by simp [hget]⟩
    | some v =>
      have hmerge : mergeArg path.key path.value (.obj fields) = .obj fields := by
        simp [mergeArg, hget]
      rw [hmerge]
      simp [TargetPath.Names, TargetPath.LeavesTarget, Json.get?, hget]
  | _ => simp [mergeArg, TargetPath.Names, TargetPath.LeavesTarget, Json.get?]

/-- The executor's rewriting leaves all but the player keys alone. -/
theorem get?_normalizeOpenudsArgs_of_ne {key : String} (huser : key ≠ "user_id")
    (hphira : key ≠ "phira_id") (action : String) (args : Json) :
    (normalizeOpenudsArgs action args).get? key = args.get? key := by
  unfold normalizeOpenudsArgs
  split_ifs
  · rfl
  · split
    · split_ifs
      · show Fields.get? _ key = Fields.get? _ key
        rw [Fields.get?_remove_of_ne hphira, Fields.get?_insert_of_ne huser]
      · rfl
    · rfl

/-- And it keeps a `user_id` that is there. -/
theorem normalizeOpenudsArgs_of_user {v : Json} (huser : args.get? "user_id" = some v)
    (action : String) : normalizeOpenudsArgs action args = args := by
  unfold normalizeOpenudsArgs
  split_ifs
  · rfl
  · split
    · rename_i fields phiraId _
      have hsome : Fields.get? fields "user_id" = some v := huser
      rw [if_neg (by simp [hsome])]
    · rfl

theorem normalizeOpenudsArgs_of_not_obj (hobj : ∀ fields, args ≠ .obj fields) (action : String) :
    normalizeOpenudsArgs action args = args := by
  unfold normalizeOpenudsArgs
  split_ifs
  · rfl
  · split
    · exact absurd rfl (hobj _)
    · rfl

/-- Merged arguments that are an object have the path's key. -/
theorem exists_get?_mergeArg (fields : List (String × Json)) (key : String) (value : Json) :
    ∃ v, (mergeArg key value (.obj fields)).get? key = some v := by
  rw [mergeArg]
  split_ifs with hnone
  · exact ⟨value, Fields.get?_insert_self _ _ _⟩
  · rw [Option.isNone_iff_eq_none, ← ne_eq, Option.ne_none_iff_exists'] at hnone
    exact hnone

theorem names_normalizeOpenudsArgs (action : String) :
    path.Names (normalizeOpenudsArgs action (mergeArg path.key path.value args)) ↔
      path.LeavesTarget args := by
  have hroom : ∀ args : Json, (normalizeOpenudsArgs action args).get? "room_id" =
      args.get? "room_id" := get?_normalizeOpenudsArgs_of_ne (by decide) (by decide) action
  rw [← names_mergeArg]
  cases path with
  | executeRoomAction roomId => simp [TargetPath.Names, TargetPath.key, hroom]
  | adminRoomAction roomId => simp [TargetPath.Names, TargetPath.key, hroom]
  | userActions userId =>
    cases args with
    | obj fields =>
      obtain ⟨v, hv⟩ := exists_get?_mergeArg fields "user_id" (.ofInt64 userId)
      rw [TargetPath.key, TargetPath.value, normalizeOpenudsArgs_of_user hv]
    | _ => simp [mergeArg, normalizeOpenudsArgs_of_not_obj]

/-! ## Submitted tasks -/

/-- Every submitted task meets `P`. -/
def Submits (P : CommandTask → Prop) (_ : Asked) (e : Event Query Query.Answer) : Prop :=
  ∀ task, e.1 = .submit task → P task

variable {state : AppState} {auth : AuthPrincipal} {headers : Headers} {action : ActionDescriptor}
  {h : Asked} {P : CommandTask → Prop}

theorem submits_of_reauth {e : Event Query Query.Answer} (he : IsReauthQuery e.1) :
    Submits P h e := by
  intro task htask
  rw [htask] at he
  exact he.elim

theorem submits_verifyRealHostOr {noUser : ApiError} :
    wp (Submits P) (verifyRealHostOr noUser state auth args) h fun _ _ => True := by
  refine wp_ofOption_bind (fun _ => trivial) fun roomId _ => ?_
  refine wp_requireDb_bind trivial (wp_ask (fun _ => nofun) fun row => ?_)
  refine wp_orFail_bind (fun _ _ => trivial) fun found _ => ?_
  refine wp_ofOption_bind (fun _ => trivial) fun user _ => ?_
  refine wp_ask (fun _ => nofun) fun info => ?_
  exact wp_orFail_bind (fun _ _ => trivial) fun _ _ => trivial

theorem submits_authorizeRoomAction :
    wp (Submits P) (authorizeRoomAction state auth action args) h fun _ _ => True := by
  refine wp_bind (wp_hasPermission fun _ => nofun) ?_ fun _ _ _ => trivial
  intro h₁ granted _
  refine wp_bind (R := fun _ _ => True) ?_ ?_ fun _ _ _ => trivial
  · split_ifs
    · exact submits_verifyRealHostOr
    · trivial
  · intro h₂ isHost _
    exact wp_failIf (fun _ => trivial) fun _ => trivial

theorem submits_reauthGate :
    wp (Submits P) (reauthGate auth headers action) h fun _ _ => True := by
  unfold reauthGate
  split_ifs
  · refine wp_mono (wp_checkReauthHeader fun _ _ _ he => submits_of_reauth he) ?_
    exact fun _ _ _ => trivial
  · trivial

/-- The questions between the checks of a command and its submit. -/
def IsRowQuery : Query → Prop
  | .newUuid => True
  | .insertQueued _ _ _ _ _ => True
  | _ => False

/-- `enqueue` submits the arguments it was given, with the audit's resource. -/
theorem wp_enqueue_submit {ok : Asked → Event Query Query.Answer → Prop}
    {resource : String → String × String} {completion : Bool}
    (hplain : ∀ h e, (∀ task, e.1 ≠ .submit task) → ok h e)
    (hsubmit : ∀ h' task accepted, Extends IsRowQuery h h' → task.action = action.id →
      task.args = args → task.audit =
        commandAudit auth headers action (resource (resolveQueueKey action args)) →
      ok h' ⟨.submit task, accepted⟩) :
    wp ok (enqueue auth headers action args resource completion) h fun _ _ => True := by
  refine wp_ask (fun _ => hplain _ _ nofun) fun commandId => ?_
  refine wp_ask (fun _ => hplain _ _ nofun) fun inserted => ?_
  refine wp_orFail_bind (fun _ _ => trivial) fun _ _ => ?_
  refine wp_bind (R := fun _ _ => True) (wp_ask (fun _ => ?_) fun _ => ?_) (fun _ _ _ => trivial)
    fun _ _ _ => trivial
  · exact hsubmit _ _ _ ((Extends.refl.snoc trivial).snoc trivial) rfl rfl rfl
  · exact wp_failIf (fun _ => trivial) fun _ => trivial

theorem submits_enqueue {resource : String → String × String} {completion : Bool}
    (hP : ∀ task, task.action = action.id → task.args = args → task.audit =
      commandAudit auth headers action (resource (resolveQueueKey action args)) → P task) :
    wp (Submits P) (enqueue auth headers action args resource completion) h fun _ _ => True := by
  refine wp_enqueue_submit (fun _ _ hne task htask => absurd htask (hne task)) ?_
  rintro h' task accepted - haction hargs haudit task' ⟨⟩
  exact hP task haction hargs haudit

theorem submits_awaitResult {commandId : Uuid} {accepted : Json} :
    wp (Submits P) (awaitResult action commandId accepted) h fun _ _ => True := by
  unfold awaitResult
  split_ifs
  · trivial
  · refine wp_ask (fun _ => nofun) fun completion => ?_
    cases completion with
    | result r => cases r <;> trivial
    | dropped => trivial
    | timedOut => trivial

/-- The stages after the authorization. -/
theorem submits_authorized {resource : String → String × String} {completion : Bool}
    {accepted : Uuid → Json}
    (hP : ∀ task, task.action = action.id → task.args = args → task.audit =
      commandAudit auth headers action (resource (resolveQueueKey action args)) → P task) :
    wp (Submits P) (do
      reauthGate auth headers action
      state.requireDb
      let id ← enqueue auth headers action args resource completion
      awaitResult action id (accepted id)) h fun _ _ => True := by
  refine wp_bind submits_reauthGate ?_ fun _ _ _ => trivial
  intro h₁ _ _
  refine wp_requireDb_bind trivial (wp_bind (submits_enqueue hP) ?_ fun _ _ _ => trivial)
  exact fun _ _ _ => submits_awaitResult

theorem submits_rejectOtherPlanes :
    wp (Submits P) (rejectOtherPlanes action) h fun _ _ => True :=
  wp_failIf_bind (fun _ => trivial) fun _ => wp_failIf (fun _ => trivial) fun _ => trivial

theorem submits_roomAction {resource : String → String × String} {roomId actionId : String}
    (hP : ∀ task (action : ActionDescriptor), task.args = mergeArg "room_id" (.str roomId) args →
      task.audit = commandAudit auth headers action
        (resource (resolveQueueKey action (mergeArg "room_id" (.str roomId) args))) → P task) :
    wp (Submits P) (roomAction resource state auth headers roomId actionId args) h
      fun _ _ => True := by
  refine wp_ofOption_bind (fun _ => trivial) fun action _ => ?_
  refine wp_bind submits_rejectOtherPlanes ?_ fun _ _ _ => trivial
  intro h₁ _ _
  refine wp_bind submits_authorizeRoomAction ?_ fun _ _ _ => trivial
  exact fun _ _ _ => submits_authorized fun task _ hargs haudit => hP task action hargs haudit

theorem submits_userActions {userId : Int64} {actionId : String}
    (hP : ∀ task (action : ActionDescriptor),
      task.args = mergeArg "user_id" (.ofInt64 userId) args →
      task.audit = commandAudit auth headers action ("user", toString userId.toInt) → P task) :
    wp (Submits P) (userActions state auth headers userId actionId args) h fun _ _ => True := by
  refine wp_ofOption_bind (fun _ => trivial) fun action _ => ?_
  refine wp_bind submits_rejectOtherPlanes ?_ fun _ _ _ => trivial
  intro h₁ _ _
  refine wp_bind (wp_require fun _ => nofun) ?_ fun _ _ _ => trivial
  exact fun _ _ _ => submits_authorized fun task _ hargs haudit => hP task action hargs haudit

theorem resourceId_of_commandAudit {resource : String × String} {audit : CommandAudit}
    (haudit : commandAudit auth headers action resource = some audit) :
    audit.resourceId = resource.2 := by
  unfold commandAudit at haudit
  split at haudit
  · obtain rfl := Option.some.inj haudit
    rfl
  · cases haudit

/-- What the three endpoints submit: the arguments with the path's id merged in, and
    an audit row for the path's id. -/
theorem wp_scoped (path : TargetPath) (actionId : String) (args : Json) :
    wp (Submits fun task => task.args = mergeArg path.key path.value args ∧ path.Audited task)
      ((path.entry actionId args).handler state auth headers) [] fun _ _ => True := by
  cases path with
  | executeRoomAction roomId =>
    refine wp_bind (submits_roomAction ?_) (fun _ _ _ => trivial) fun _ _ _ => trivial
    exact fun task action hargs _ => ⟨hargs, trivial⟩
  | adminRoomAction roomId =>
    refine wp_bind (submits_roomAction ?_) (fun _ _ _ => trivial) fun _ _ _ => trivial
    refine fun task action hargs haudit => ⟨hargs, fun audit hsome => ?_⟩
    exact resourceId_of_commandAudit (haudit.symm.trans hsome)
  | userActions userId =>
    refine wp_bind (submits_userActions ?_) (fun _ _ _ => trivial) fun _ _ _ => trivial
    refine fun task action hargs haudit => ⟨hargs, fun audit hsome => ?_⟩
    exact resourceId_of_commandAudit (haudit.symm.trans hsome)

/-! ## Executed tasks -/

/-- What a run acts on: the normalized arguments are sent to PMP, and the sessions
    that are revoked are those of the player in the arguments. -/
structure ActsOnArgs (task : CommandTask) (e : Event Query Query.Answer) : Prop where
  pmp : ∀ params, e.1 = .openuds task.action params none →
    params = normalizeOpenudsArgs task.action task.args
  sessions : ∀ phiraId, e.1 = .findUserIdByPhiraId phiraId →
    (task.args.get? "user_id").bind Json.asI64 = some phiraId

variable {db : Bool} {task : CommandTask}

theorem wp_runInternal_acts :
    wp (fun _ => ActsOnArgs task) (runInternal db task) h fun _ _ => True := by
  unfold runInternal
  split_ifs
  · exact wp_ask (fun _ => ⟨by simp, by simp⟩) fun _ => trivial
  · exact wp_ask (fun _ => ⟨by simp, by simp⟩) fun _ => trivial
  · refine wp_ofOption_bind (fun _ => trivial) fun phiraId hphira => ?_
    refine wp_failIf_bind (fun _ => trivial) fun _ => ?_
    refine wp_ask (fun _ => ⟨by simp, ?_⟩) fun row => ?_
    · rintro p ⟨⟩
      exact hphira
    · refine wp_bind (R := fun _ _ => True) (wp_ofExcept.mpr trivial) ?_ fun _ _ _ => trivial
      intro h₁ found _
      refine wp_ofOption_bind (fun _ => trivial) fun userId _ => ?_
      refine wp_ask (fun _ => ⟨by simp, by simp⟩) fun revoked => ?_
      refine wp_bind (R := fun _ _ => True) (wp_ofExcept.mpr trivial) ?_ fun _ _ _ => trivial
      exact fun _ _ _ => trivial
  · trivial

theorem wp_run_acts : wp (fun _ => ActsOnArgs task) (run db task) h fun _ _ => True := by
  refine wp_ofOption_bind (fun _ => trivial) fun action _ => ?_
  cases action.executor with
  | openUds =>
    refine wp_ask (fun _ => ⟨?_, nofun⟩) fun _ => wp_pmpAnswer
    rintro params ⟨⟩
    rfl
  | cliExecute =>
    refine wp_ofOption_bind (fun _ => trivial) fun text _ => ?_
    exact wp_ask (fun _ => ⟨by simp [cliExecute], nofun⟩) fun _ => wp_pmpAnswer
  | cliRaw =>
    refine wp_failIf_bind (fun _ => trivial) fun _ => ?_
    exact wp_ask (fun _ => ⟨by simp [cliExecute], nofun⟩) fun _ => wp_pmpAnswer
  | internal => exact wp_runInternal_acts

/-- **The executed target is the audited one exactly if the body leaves it to the
    path**: whatever task one of the three endpoints submits and whoever executes it,
    the target sent to PMP, and the player whose sessions are revoked, is the path's,
    as in the audit row, exactly if the arguments do not bring another. -/
theorem audited_target_iff (state : AppState) (auth : AuthPrincipal) (headers : Headers)
    (path : TargetPath) (actionId : String) (args : Json) (h : Asked) (task : CommandTask)
    (hsubmit : ((path.entry actionId args).handler state auth headers).Asks h (.submit task))
    (db : Bool) (es : Asked) :
    (∀ params, (run db task).Asks es (.openuds task.action params none) →
      (path.Names params ∧ path.Audited task ↔ path.LeavesTarget args)) ∧
    ∀ userId phiraId, path = .userActions userId →
      (run db task).Asks es (.findUserIdByPhiraId phiraId) →
        (phiraId = userId ∧ path.Audited task ↔ path.LeavesTarget args) := by
  obtain ⟨hargs, haudited⟩ := ok_of_asks (wp_scoped path actionId args) hsubmit true task rfl
  constructor
  · intro params hasks
    have hparams := (ok_of_asks wp_run_acts hasks (.ok .null)).pmp params rfl
    rw [and_iff_left haudited, hparams, hargs, names_normalizeOpenudsArgs]
  · rintro userId phiraId rfl hasks
    have hphira := (ok_of_asks wp_run_acts hasks (.ok none)).sessions phiraId rfl
    rw [and_iff_left haudited, ← names_mergeArg, ← hargs]
    obtain ⟨v, hv, hi64⟩ := Option.bind_eq_some_iff.mp hphira
    constructor
    · rintro rfl
      exact ⟨v, hv, hi64⟩
    · rintro ⟨v', hv', hi64'⟩
      obtain rfl : v = v' := Option.some.inj (hv.symm.trans hv')
      exact Option.some.inj (hi64.symm.trans hi64')

/-- Root, as the panel signs it in. -/
def panelRoot : AuthPrincipal :=
  { sub := Uuid.nil, sid := 1, principalType := .root, clientType := .panel, requestId := "" }

/-- The row of a command of Root that closes the room `roomId`. -/
def closeAsked (roomId : String) : Asked :=
  [⟨.newUuid, 1⟩, ⟨.insertQueued 1 "room.close" (Uuid.toText Uuid.nil) ("room:" ++ roomId)
    (.obj [("room_id", .str roomId)]), .ok ()⟩]

/-- The task that closes the room `roomId`, audited for the room `ABC`. -/
def closeTask (roomId : String) : CommandTask :=
  { commandId := 1, action := "room.close", actor := Uuid.toText Uuid.nil,
    resourceKey := "room:" ++ roomId, args := .obj [("room_id", .str roomId)],
    argsRedacted := .obj [("room_id", .str roomId)], completion := true,
    audit := some { principalType := "root", actorUserId := none, actorSessionId := 1,
                    action := "room.close", resourceType := "room", resourceId := "ABC",
                    requestId := "", ip := "", userAgent := "" } }

/-- An empty body closes the room of the path. -/
theorem audited_target_iff_close :
    (((TargetPath.adminRoomAction "ABC").entry "room.close" .emptyObject).handler ⟨true, 10⟩
        panelRoot []).Asks (closeAsked "ABC") (.submit (closeTask "ABC")) ∧
      (run true (closeTask "ABC")).Asks [] (.openuds "room.close" (.obj [("room_id", .str "ABC")]) none) ∧
      (TargetPath.adminRoomAction "ABC").Names (.obj [("room_id", .str "ABC")]) := by
  have hasks : (((TargetPath.adminRoomAction "ABC").entry "room.close" .emptyObject).handler
      ⟨true, 10⟩ panelRoot []).Asks (closeAsked "ABC") (.submit (closeTask "ABC")) := by decide
  have hrun : (run true (closeTask "ABC")).Asks []
      (.openuds "room.close" (.obj [("room_id", .str "ABC")]) none) := by decide
  have hiff := (audited_target_iff ⟨true, 10⟩ panelRoot [] (.adminRoomAction "ABC") "room.close"
    .emptyObject (closeAsked "ABC") (closeTask "ABC") hasks true []).1 _ hrun
  exact ⟨hasks, hrun, (hiff.mpr ⟨[], rfl, nofun⟩).1⟩

/-- A body that names the room `XYZ` closes that room, and the audit row names `ABC`. -/
theorem not_audited_target_other_room :
    ∃ task, (((TargetPath.adminRoomAction "ABC").entry "room.close"
        (.obj [("room_id", .str "XYZ")])).handler ⟨true, 10⟩ panelRoot []).Asks (closeAsked "XYZ")
          (.submit task) ∧
      (run true task).Asks [] (.openuds "room.close" (.obj [("room_id", .str "XYZ")]) none) ∧
      task.audit.map (·.resourceId) = some "ABC" ∧
      ¬ (TargetPath.adminRoomAction "ABC").Names (.obj [("room_id", .str "XYZ")]) := by
  refine ⟨closeTask "XYZ", by decide, by decide, rfl, ?_⟩
  rintro ⟨v, hv, rfl⟩
  revert hv
  decide

end Ppb.Actions
