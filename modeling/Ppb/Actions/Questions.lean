import Ppb.Actions.Entry

/-!
# What the entry points ask

All of them make the same checks, insert the row of a command and submit its task. A set `C` of
questions that has those of the checks (`AllowsChecks`) and those about the command with the
arguments `args` (`AllowsCommand`) has all that an endpoint asks.
-/

namespace Ppb.Actions

open Prog Auth Commands Rooms

/-- `C` has the questions of the checks and of the wait for a command. -/
structure AllowsChecks (C : Query → Prop) : Prop where
  groupRows : ∀ user, C (.groupRows user)
  findUserById : ∀ user, C (.findUserById user)
  roomInfo : ∀ roomId, C (Actions.roomInfo roomId)
  decodeReauthToken : ∀ token, C (.decodeReauthToken token)
  now : C .now
  newUuid : C .newUuid
  completion : ∀ commandId timeoutSecs, C (.completion commandId timeoutSecs)
  sleep : ∀ secs, C (.sleep secs)

/-- `C` has the insert of a command with the arguments `args`, and the submission of its task. -/
structure AllowsCommand (C : Query → Prop) (args : Json) : Prop where
  insert : ∀ id action actor key, C (.insertQueued id action actor key (redactArgs args))
  submit : ∀ task : CommandTask, task.args = args → task.argsRedacted = redactArgs args →
    C (.submit task)

variable {C : Query → Prop} {state : AppState} {auth : AuthPrincipal} {headers : Headers}
  {action : ActionDescriptor} {args : Json}

theorem only_orFail {ε α : Type} {toApi : ε → ApiError} {r : Except ε α} : (orFail toApi r).Only C := by
  cases r <;> exact only_done

/-! ## The checks -/

theorem only_hasPermission (hC : AllowsChecks C) {permission : String} :
    (hasPermission state auth permission).Only C := by
  unfold hasPermission permissionsForPrincipal
  split_ifs
  · exact only_done
  · refine only_bind (only_bind only_failIf fun _ => ?_) fun _ => only_done
    exact only_bind (only_query (hC.groupRows _)) fun rows => by cases rows <;> exact only_done

theorem only_require (hC : AllowsChecks C) {permission : String} :
    (require state auth permission).Only C := by
  refine only_bind (only_hasPermission hC) fun granted => ?_
  split_ifs
  · exact only_done
  · exact only_done

theorem only_checkReauthHeader (hC : AllowsChecks C) {risk : ReauthRisk} :
    (checkReauthHeader auth headers risk).Only C := by
  refine only_bind only_ofOption fun token => only_bind ?_ fun _ => only_failIf
  refine only_bind (only_query (hC.decodeReauthToken _)) fun claims => ?_
  refine only_bind only_ofOption fun _ => only_failIf_bind fun _ => only_failIf_bind fun _ => ?_
  exact only_bind (only_query hC.now) fun _ => only_failIf_bind fun _ => only_done

theorem only_reauthGate (hC : AllowsChecks C) : (reauthGate auth headers action).Only C := by
  unfold reauthGate
  split_ifs
  · exact only_checkReauthHeader hC
  · exact only_done

theorem only_rejectOtherPlanes : (rejectOtherPlanes action).Only C :=
  only_failIf_bind fun _ => only_failIf

theorem only_verifyRealHostOr (hC : AllowsChecks C) {noUser : ApiError} :
    (verifyRealHostOr noUser state auth args).Only C := by
  refine only_bind only_ofOption fun roomId => only_bind only_failIf fun _ => ?_
  refine only_bind (only_query (hC.findUserById _)) fun row => only_bind only_orFail fun _ => ?_
  refine only_bind only_ofOption fun user => only_bind (only_query (hC.roomInfo _)) fun info => ?_
  exact only_bind only_orFail fun _ => only_done

theorem only_authorizeAction (hC : AllowsChecks C) :
    (authorizeAction state auth action args).Only C := by
  refine only_bind (only_hasPermission hC) fun granted => ?_
  split_ifs
  · exact only_bind (only_verifyRealHostOr hC) fun _ => only_failIf
  · exact only_failIf

theorem only_authorizeRoomAction (hC : AllowsChecks C) :
    (authorizeRoomAction state auth action args).Only C := by
  refine only_bind (only_hasPermission hC) fun granted => only_bind ?_ fun _ => only_failIf
  split_ifs
  · exact only_verifyRealHostOr hC
  · exact only_done

/-! ## The command -/

theorem only_enqueue (hC : AllowsChecks C) (hargs : AllowsCommand C args)
    {resource : String → String × String} {completion : Bool} :
    (enqueue auth headers action args resource completion).Only C := by
  refine only_bind (only_query hC.newUuid) fun commandId => ?_
  refine only_bind (only_query (hargs.insert _ _ _ _)) fun inserted => only_bind only_orFail fun _ => ?_
  refine only_bind (only_bind (only_query (hargs.submit _ rfl rfl)) fun _ => only_failIf) fun _ => ?_
  exact only_done

theorem only_awaitResult (hC : AllowsChecks C) {commandId : Uuid} {accepted : Json} :
    (awaitResult action commandId accepted).Only C := by
  unfold awaitResult
  split_ifs
  · exact only_done
  · refine only_bind (only_query (hC.completion _ _)) fun completion => ?_
    split
    all_goals exact only_done

theorem only_executeAction (hC : AllowsChecks C) (hargs : AllowsCommand C args) {actionId : String} :
    (executeAction state auth headers actionId args).Only C := by
  refine only_bind only_ofOption fun action => only_bind only_rejectOtherPlanes fun _ => ?_
  refine only_bind (only_authorizeAction hC) fun _ => only_bind (only_reauthGate hC) fun _ => ?_
  refine only_bind only_failIf fun _ => only_bind (only_enqueue hC hargs) fun _ => ?_
  exact only_awaitResult hC

theorem only_userActions (hC : AllowsChecks C) {userId : Int64} {actionId : String}
    (hargs : AllowsCommand C (mergeArg "user_id" (Json.ofInt64 userId) args)) :
    (userActions state auth headers userId actionId args).Only C := by
  refine only_bind only_ofOption fun action => only_bind only_rejectOtherPlanes fun _ => ?_
  refine only_bind (only_require hC) fun _ => only_bind (only_reauthGate hC) fun _ => ?_
  refine only_bind only_failIf fun _ => only_bind (only_enqueue hC hargs) fun _ => ?_
  exact only_awaitResult hC

theorem only_roomAction (hC : AllowsChecks C) {resource : String → String × String}
    {roomId actionId : String} (hargs : AllowsCommand C (mergeArg "room_id" (.str roomId) args)) :
    (roomAction resource state auth headers roomId actionId args).Only C := by
  refine only_bind only_ofOption fun action => only_bind only_rejectOtherPlanes fun _ => ?_
  refine only_bind (only_authorizeRoomAction hC) fun _ => only_bind (only_reauthGate hC) fun _ => ?_
  refine only_bind only_failIf fun _ => only_bind (only_enqueue hC hargs) fun _ => ?_
  exact only_awaitResult hC

/-! ## The batch and the runbook -/

theorem only_batchItem (hC : AllowsChecks C) {phiraId : Int64} {dryRun : Bool} {roomId : String}
    (hargs : AllowsCommand C (batchArgs args roomId phiraId)) :
    (batchItem state auth headers action args phiraId dryRun roomId).Only C := by
  refine only_bind (only_query (hC.roomInfo _)) fun info => ?_
  split
  · exact only_done
  · split_ifs
    · exact only_done
    · exact only_done
    · refine only_bind only_failIf fun _ => only_bind (only_enqueue hC hargs) fun _ => ?_
      refine only_bind (only_query (hC.completion _ _)) fun completion => ?_
      split
      all_goals exact only_done

theorem only_batchLoop (hC : AllowsChecks C) {phiraId : Int64} {dryRun : Bool} {roomIds : List String}
    (hargs : ∀ roomId ∈ roomIds, AllowsCommand C (batchArgs args roomId phiraId)) :
    ∀ {response : RoomBatchResponse},
      (batchLoop state auth headers action args phiraId dryRun roomIds response).Only C := by
  induction roomIds with
  | nil => exact only_done
  | cons roomId rest ih =>
    intro response
    rw [List.forall_mem_cons] at hargs
    exact only_bind (only_batchItem hC hargs.1) fun _ => ih hargs.2

theorem only_adminRoomActionsBatch (hC : AllowsChecks C) {body : RoomBatchBody}
    (hargs : ∀ phiraId, batchTarget body.args = some phiraId → ∀ roomId ∈ body.roomIds,
      AllowsCommand C (batchArgs body.args roomId phiraId)) :
    (adminRoomActionsBatch state auth headers body).Only C := by
  refine only_bind only_ofOption fun action => ?_
  refine only_failIf_bind fun _ => only_failIf_bind fun _ => ?_
  cases htarget : batchTarget body.args with
  | none => exact only_done
  | some phiraId =>
    show (require state auth action.permission >>= _).Only C
    refine only_bind (only_require hC) fun _ => only_bind (only_reauthGate hC) fun _ => ?_
    exact only_batchLoop hC (hargs phiraId htarget)

theorem only_sleepAfter (hC : AllowsChecks C) (wait : Option ℕ) : (Automation.sleepAfter wait).Only C := by
  cases wait with
  | none => exact only_done
  | some wait => exact only_bind (only_query (hC.sleep _)) fun _ => only_done

/-- The step loop of a runbook. -/
theorem only_runSteps (hC : AllowsChecks C) {runbook : Uuid} {runArgs : Json} {steps : List RunbookStep}
    (hargs : ∀ step ∈ steps, AllowsCommand C (Automation.mergeRunArgs step.args runArgs)) :
    ∀ {results : List Automation.AutomationStepResult},
      (Automation.runSteps state auth headers runbook runArgs steps results).Only C := by
  induction steps with
  | nil => exact only_done
  | cons step rest ih =>
    intro results
    rw [List.forall_mem_cons] at hargs
    rw [Automation.runSteps]
    split_ifs
    · exact only_bind (only_sleepAfter hC _) fun _ => ih hargs.2
    · refine only_bind only_ofOption fun action => ?_
      split_ifs
      · exact only_done
      · refine only_bind (only_hasPermission hC) fun granted => ?_
        split_ifs
        · exact only_done
        · refine only_bind (only_reauthGate hC) fun _ => ?_
          refine only_bind (only_enqueue hC hargs.1) fun commandId => ?_
          refine only_bind (only_query (hC.completion _ _)) fun completion => ?_
          split
          · exact only_bind (only_sleepAfter hC _) fun _ => ih hargs.2
          · exact only_done

end Ppb.Actions
