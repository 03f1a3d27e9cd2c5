import Ppb.Actions.Target

/-!
# The target of a room batch

`admin_room_actions_batch` takes its target from `args.phira_id`, or else from
`args.user_id`. The target is validated, looked for in the room and shown in a dry
run. The executor reads the same two keys in the other order: it keeps a `user_id`
that is there and turns `phira_id` into one only if there is none. With both keys
and different values the player PMP acts on is not the one that was validated.

* `user_normalize_batchArgs`: the player that reaches PMP, for one room.
* `wp_batchLoop_items`: the loop accounts for each room once, in order.
* `batch_target_iff`: the player PMP receives is the validated one exactly if the
  arguments do not bring two.
-/

namespace Ppb.Rooms

open Prog Auth Commands Actions

/-! ## Arguments -/

/-- The arguments do not bring two players: if both keys are there, they agree. -/
def OneTarget (args : Json) : Prop :=
  ∀ phira user, args.get? "phira_id" = some phira → args.get? "user_id" = some user →
    user.asI64 = phira.asI64

variable {args : Json} {phiraId : Int64} {roomId : String}

theorem batchTarget_eq_some : batchTarget args = some phiraId ↔
    (((args.get? "phira_id").or (args.get? "user_id")).bind Json.asI64) = some phiraId ∧
      0 < phiraId := by
  rw [batchTarget, Option.filter_eq_some_iff, decide_eq_true_eq]

theorem playerTarget_of_batch {id : String} (hbatch : isBatchAction id = true) :
    playerTarget.contains id = true := by
  simp only [isBatchAction, Bool.or_eq_true, beq_iff_eq] at hbatch
  rcases hbatch with ((rfl | rfl) | rfl) | rfl <;> decide

/-- A player target without `user_id` reaches PMP as its `phira_id`. -/
theorem user_normalize_of_none {action : String} {fields : List (String × Json)} {phira : Json}
    (haction : playerTarget.contains action = true)
    (huser : Fields.get? fields "user_id" = none)
    (hphira : Fields.get? fields "phira_id" = some phira) (hi64 : phira.asI64 = some phiraId) :
    (normalizeOpenudsArgs action (.obj fields)).get? "user_id" = some (.ofInt64 phiraId) := by
  have hbind : (Json.get? (.obj fields) "phira_id").bind Json.asI64 = some phiraId := by
    rw [show Json.get? (.obj fields) "phira_id" = some phira from hphira]
    exact hi64
  have heq : normalizeOpenudsArgs action (.obj fields) =
      .obj (Fields.remove "phira_id" (Fields.insert "user_id" (.ofInt64 phiraId) fields)) := by
    simp only [normalizeOpenudsArgs, haction, hbind, huser, Bool.not_true, Bool.false_eq_true,
      if_false, Option.isNone_none, if_true]
  rw [heq]
  show Fields.get? _ "user_id" = _
  rw [Fields.get?_remove_of_ne (by decide), Fields.get?_insert_self]

/-- The player that reaches PMP for one room. -/
theorem user_normalize_batchArgs {action : String} (hbatch : isBatchAction action = true)
    (htarget : batchTarget args = some phiraId) :
    ((normalizeOpenudsArgs action (batchArgs args roomId phiraId)).get? "user_id").bind Json.asI64 =
      some phiraId ↔ OneTarget args := by
  obtain ⟨hi64, -⟩ := batchTarget_eq_some.mp htarget
  cases args with
  | obj fields =>
    simp only [Json.get?] at hi64
    cases huser : Fields.get? fields "user_id" with
    | none =>
      have hargs : batchArgs (.obj fields) roomId phiraId = .obj (Fields.insert "phira_id"
          (.ofInt64 phiraId) (Fields.insert "room_id" (.str roomId) fields)) := by
        simp [batchArgs, Fields.get?_insert_of_ne, huser]
      rw [hargs, user_normalize_of_none (playerTarget_of_batch hbatch) ?_
        (Fields.get?_insert_self _ _ _) (Json.asI64_ofInt64 phiraId)]
      · refine iff_of_true (Json.asI64_ofInt64 phiraId) fun phira user _ hsome => ?_
        cases huser.symm.trans hsome
      · rw [Fields.get?_insert_of_ne (by decide), Fields.get?_insert_of_ne (by decide), huser]
    | some user =>
      have hroom : Fields.get? (Fields.insert "room_id" (.str roomId) fields) "user_id" =
          some user := by rw [Fields.get?_insert_of_ne (by decide), huser]
      have hargs : batchArgs (.obj fields) roomId phiraId =
          .obj (Fields.insert "room_id" (.str roomId) fields) := by simp [batchArgs, hroom]
      have hkeep : normalizeOpenudsArgs action (.obj (Fields.insert "room_id" (.str roomId) fields)) =
          .obj (Fields.insert "room_id" (.str roomId) fields) :=
        normalizeOpenudsArgs_of_user (show Json.get? (.obj _) "user_id" = some user from hroom) action
      rw [hargs, hkeep]
      show (Fields.get? _ "user_id").bind Json.asI64 = some phiraId ↔ _
      rw [hroom, Option.bind_some]
      cases hphira : Fields.get? fields "phira_id" with
      | none =>
        rw [hphira, Option.none_or, huser, Option.bind_some] at hi64
        refine iff_of_true hi64 fun phira user' hsome _ => ?_
        cases hphira.symm.trans hsome
      | some phira =>
        rw [hphira, Option.some_or, Option.bind_some] at hi64
        simp [OneTarget, Json.get?, hphira, huser, hi64]
  | _ => simp [Json.get?] at hi64

/-- The room that reaches PMP. -/
theorem room_normalize_batchArgs {action : String} (htarget : batchTarget args = some phiraId) :
    (normalizeOpenudsArgs action (batchArgs args roomId phiraId)).get? "room_id" =
      some (.str roomId) := by
  obtain ⟨hi64, -⟩ := batchTarget_eq_some.mp htarget
  rw [get?_normalizeOpenudsArgs_of_ne (by decide) (by decide)]
  cases args with
  | obj fields =>
    rw [batchArgs]
    split_ifs
    · show Fields.get? _ "room_id" = _
      rw [Fields.get?_insert_of_ne (by decide), Fields.get?_insert_self]
    · exact Fields.get?_insert_self _ _ _
  | _ => simp [Json.get?] at hi64

/-! ## Submitted tasks -/

/-- What was checked of a batch task when it is submitted: its arguments are those
    of one of the rooms, and a player to be kicked was there. -/
structure BatchTask (body : RoomBatchBody) (phiraId : Int64) (h : Asked) (task : CommandTask) :
    Prop where
  action : isBatchAction task.action = true
  room : ∃ roomId ∈ body.roomIds, task.args = batchArgs body.args roomId phiraId ∧
    (task.action = "room.kick" → ∃ room, Latest h (roomInfo roomId) (.ok room) ∧
      roomContainsPlayer room phiraId = true)

/-- Every task the batch submits is a `BatchTask` for its target. -/
def BatchOk (body : RoomBatchBody) (phiraId : Int64) (h : Asked)
    (e : Event Query Query.Answer) : Prop :=
  ∀ task, e.1 = .submit task → BatchTask body phiraId h task

/-- The result of a dry run for one room (rooms/routes.rs:784-788). -/
def preview (actionId : String) (phiraId : Int64) : Json :=
  .obj [("action", .str actionId), ("dry_run", .bool true), ("phira_id", .ofInt64 phiraId)]

/-- An item of a dry run that succeeded shows the target. -/
def Previews (actionId : String) (phiraId : Int64) (dryRun : Bool) (item : RoomBatchItemResult) :
    Prop :=
  dryRun = true → item.ok = true → item.result = some (preview actionId phiraId)

variable {state : AppState} {auth : AuthPrincipal} {headers : Headers} {action : ActionDescriptor}
  {h : Asked} {body : RoomBatchBody} {dryRun : Bool}

theorem wp_batchItem_target (hbatch : isBatchAction action.id = true) (hroom : roomId ∈ body.roomIds) :
    wp (BatchOk body phiraId)
      (batchItem state auth headers action body.args phiraId dryRun roomId) h fun _ r =>
        ∀ item, r = .ok item →
          item.roomUuid = roomId ∧ Previews action.id phiraId dryRun item := by
  refine wp_ask (fun _ => nofun) fun info => ?_
  cases info with
  | error e =>
    rintro item ⟨⟩
    exact ⟨rfl, nofun⟩
  | ok room =>
    dsimp only
    split_ifs with habsent hdry
    · rintro item ⟨⟩
      exact ⟨rfl, nofun⟩
    · rintro item ⟨⟩
      exact ⟨rfl, fun _ _ => rfl⟩
    · have herr {e : ApiError} : ∀ item, (.error e : Except ApiError RoomBatchItemResult) = .ok item →
          item.roomUuid = roomId ∧ Previews action.id phiraId dryRun item := by
        intro item he
        cases he
      refine wp_requireDb_bind herr (wp_bind (wp_enqueue_submit ?_ ?_) ?_ fun _ _ _ => herr)
      · exact fun _ _ hne task htask => absurd htask (hne task)
      · rintro h' task accepted hx haction hargs - task' ⟨⟩
        refine ⟨haction ▸ hbatch, roomId, hroom, hargs, fun hkick => ⟨room, ?_, ?_⟩⟩
        · exact (Latest.now h _ _).extends hx nofun
        · rw [haction] at hkick
          simpa [hkick] using habsent
      · intro h' commandId _
        refine wp_ask (fun _ => nofun) fun completion => ?_
        cases completion with
        | result r =>
          cases r with
          | ok v =>
            rintro item ⟨⟩
            exact ⟨rfl, fun hd => absurd hd hdry⟩
          | error e =>
            rintro item ⟨⟩
            exact ⟨rfl, nofun⟩
        | dropped =>
          rintro item ⟨⟩
          exact ⟨rfl, nofun⟩
        | timedOut =>
          rintro item ⟨⟩
          exact ⟨rfl, nofun⟩

/-- `response'` is `response` with one item for each of `rooms`, in order. -/
structure Accounts (response : RoomBatchResponse) (rooms : List String)
    (P : RoomBatchItemResult → Prop) (response' : RoomBatchResponse) : Prop where
  order : response'.items.map (·.roomUuid) = response.items.map (·.roomUuid) ++ rooms
  counts : response'.succeeded + response'.failed =
    response.succeeded + response.failed + rooms.length
  items : (∀ item ∈ response.items, P item) → ∀ item ∈ response'.items, P item

theorem accounts_push {P : RoomBatchItemResult → Prop} {response response' : RoomBatchResponse}
    {item : RoomBatchItemResult} {rooms : List String} (hitem : P item)
    (hrest : Accounts (response.push item) rooms P response') :
    Accounts response (item.roomUuid :: rooms) P response' := by
  obtain ⟨hrooms, hcounts, hitems⟩ := hrest
  constructor
  · simp [hrooms, RoomBatchResponse.push]
  · have hpush : (response.push item).succeeded + (response.push item).failed =
        response.succeeded + response.failed + 1 := by
      simp only [RoomBatchResponse.push]
      split_ifs <;> omega
    rw [hcounts, hpush, List.length_cons]
    omega
  · intro hall
    refine hitems fun item' hmem => ?_
    rcases List.mem_append.mp hmem with hmem | hmem
    · exact hall item' hmem
    · exact List.mem_singleton.mp hmem ▸ hitem

/-- The loop, by induction on the rooms: each of its exits pushes one item. -/
theorem wp_batchLoop_items {rooms : List String} {response : RoomBatchResponse}
    (hbatch : isBatchAction action.id = true) (hrooms : ∀ roomId ∈ rooms, roomId ∈ body.roomIds) :
    wp (BatchOk body phiraId)
      (batchLoop state auth headers action body.args phiraId dryRun rooms response) h fun _ r =>
        ∀ response', r = .ok response' →
          Accounts response rooms (Previews action.id phiraId dryRun) response' := by
  induction rooms generalizing h response with
  | nil =>
    rintro response' ⟨⟩
    exact ⟨by simp, by simp, fun hall => hall⟩
  | cons roomId rest ih =>
    have hhead : roomId ∈ body.roomIds := hrooms roomId (by simp)
    refine wp_bind (wp_batchItem_target hbatch hhead) ?_ fun _ _ _ => nofun
    intro h' item hitem
    obtain ⟨rfl, hpreview⟩ := hitem item rfl
    refine wp_mono (ih fun roomId' hmem => hrooms roomId' (by simp [hmem])) ?_
    exact fun _ _ hr response' hok => accounts_push hpreview (hr response' hok)

/-- The whole endpoint. -/
theorem wp_batch_target (body : RoomBatchBody) :
    wp (fun h e => ∀ task, e.1 = .submit task → ∃ phiraId, batchTarget body.args = some phiraId ∧
        BatchTask body phiraId h task)
      (adminRoomActionsBatch state auth headers body) [] fun _ r => ∀ response, r = .ok response →
        ∃ phiraId, batchTarget body.args = some phiraId ∧ Accounts ⟨[], 0, 0⟩ body.roomIds
          (Previews body.action phiraId body.dryRun) response := by
  refine wp_ofOption_bind (fun _ => nofun) fun action hget => ?_
  refine wp_failIf_bind (fun _ => nofun) fun hbatch => ?_
  have hbatch : isBatchAction action.id = true := by simpa using hbatch
  refine wp_failIf_bind (fun _ => nofun) fun _ => ?_
  refine wp_ofOption_bind (fun _ => nofun) fun phiraId htarget => ?_
  refine wp_bind (wp_require fun _ => nofun) ?_ fun _ _ _ => nofun
  intro h₁ _ _
  refine wp_bind (R := fun _ _ => True) (wp_weaken (submits_reauthGate (P := fun _ => False)) ?_) ?_
    fun _ _ _ => nofun
  · exact fun _ _ hsubmits task htask => (hsubmits task htask).elim
  · intro h₂ _ _
    refine wp_mono (wp_weaken (wp_batchLoop_items hbatch fun _ hmem => hmem) ?_) ?_
    · exact fun _ _ hok task htask => ⟨phiraId, htarget, hok task htask⟩
    · intro h₃ r hr response hok
      rw [← getAction_id hget]
      exact ⟨phiraId, htarget, hr response hok⟩

/-! ## Main theorem -/

/-- What is true of a submitted batch task besides its player: the target was
    validated, the room is one of the request's, and a player to be kicked is in it. -/
structure Validated (body : RoomBatchBody) (phiraId : Int64) (roomId : String) (h : Asked)
    (task : CommandTask) : Prop where
  target : batchTarget body.args = some phiraId
  positive : 0 < phiraId
  requested : roomId ∈ body.roomIds
  present : task.action = "room.kick" → ∃ room, Latest h (roomInfo roomId) (.ok room) ∧
    roomContainsPlayer room phiraId = true

/-- **A batch acts on the validated player exactly if the arguments do not bring two**:
    for each task it submits PMP receives the room that was looked at, and the player
    that was validated, looked for and previewed if and only if `phira_id` and `user_id`
    do not disagree. A batch that returns `Ok` has one item for each room, in order,
    each counted once. -/
theorem batch_target_iff (state : AppState) (auth : AuthPrincipal) (headers : Headers)
    (body : RoomBatchBody) :
    (∀ h task, (adminRoomActionsBatch state auth headers body).Asks h (.submit task) →
      ∃ phiraId roomId, Validated body phiraId roomId h task ∧
        ∀ db es params, (run db task).Asks es (.openuds task.action params none) →
          params.get? "room_id" = some (.str roomId) ∧
            ((params.get? "user_id").bind Json.asI64 = some phiraId ↔ OneTarget body.args)) ∧
    ∀ h response, (adminRoomActionsBatch state auth headers body).Ends h (.ok response) →
      response.items.map (·.roomUuid) = body.roomIds ∧
        response.succeeded + response.failed = body.roomIds.length ∧
          ∃ phiraId, batchTarget body.args = some phiraId ∧
            ∀ item ∈ response.items, Previews body.action phiraId body.dryRun item := by
  constructor
  · intro h task hsubmit
    obtain ⟨phiraId, htarget, hbatch, roomId, hroom, hargs, hpresent⟩ :=
      ok_of_asks (wp_batch_target body) hsubmit true task rfl
    have hpos : 0 < phiraId := (batchTarget_eq_some.mp htarget).2
    refine ⟨phiraId, roomId, ⟨htarget, hpos, hroom, hpresent⟩, fun db es params hasks => ?_⟩
    have hparams := (ok_of_asks wp_run_acts hasks (.ok .null)).pmp params rfl
    rw [hparams, hargs]
    exact ⟨room_normalize_batchArgs htarget, user_normalize_batchArgs hbatch htarget⟩
  · intro h response hends
    obtain ⟨phiraId, htarget, hacc⟩ := of_ends (wp_batch_target body) hends response rfl
    refine ⟨by simpa using hacc.order, by simpa using hacc.counts, phiraId, htarget, ?_⟩
    exact hacc.items (by simp)

/-- A kick of player 42 from the room `ABC`, with more arguments. -/
def batchKick (more : List (String × Json)) : RoomBatchBody :=
  { action := "room.kick", roomIds := ["ABC"], dryRun := false,
    args := .obj (("phira_id", .num (.posInt 42)) :: more) }

/-- The arguments of `batchKick` for the room. -/
def batchKickArgs (more : List (String × Json)) : Json :=
  .obj (("phira_id", .num (.posInt 42)) :: ("room_id", .str "ABC") :: more)

/-- What the batch asks before its submit: player 42 is in the room. -/
def batchKickAsked (more : List (String × Json)) : Asked :=
  [⟨roomInfo "ABC", .ok (.obj [("players", .arr [.obj [("id", .num (.posInt 42))]])])⟩,
    ⟨.newUuid, 1⟩,
    ⟨.insertQueued 1 "room.kick" (Uuid.toText Uuid.nil) "room:ABC" (batchKickArgs more), .ok ()⟩]

/-- The task of `batchKick`, submitted by Root. -/
def batchKickTask (more : List (String × Json)) : CommandTask :=
  { commandId := 1, action := "room.kick", actor := Uuid.toText Uuid.nil, resourceKey := "room:ABC",
    args := batchKickArgs more, argsRedacted := batchKickArgs more, completion := true,
    audit := some { principalType := "root", actorUserId := none, actorSessionId := 1,
                    action := "room.kick", resourceType := "room", resourceId := "ABC",
                    requestId := "", ip := "", userAgent := "" } }

/-- Without a `user_id` the player that is kicked is the one that was validated. -/
theorem batch_target_iff_kick :
    (adminRoomActionsBatch ⟨true, 10⟩ panelRoot [] (batchKick [])).Asks (batchKickAsked [])
        (.submit (batchKickTask [])) ∧
      ∃ phiraId roomId, Validated (batchKick []) phiraId roomId (batchKickAsked [])
        (batchKickTask []) := by
  have hasks : (adminRoomActionsBatch ⟨true, 10⟩ panelRoot [] (batchKick [])).Asks
      (batchKickAsked []) (.submit (batchKickTask [])) := by decide
  obtain ⟨phiraId, roomId, hvalid, -⟩ :=
    (batch_target_iff ⟨true, 10⟩ panelRoot [] (batchKick [])).1 _ _ hasks
  exact ⟨hasks, phiraId, roomId, hvalid⟩

/-- Player 42 is validated and found in the room, and player 7 is kicked. -/
theorem not_batch_target_two_players :
    batchTarget (batchKick [("user_id", .num (.posInt 7))]).args = some 42 ∧
      (adminRoomActionsBatch ⟨true, 10⟩ panelRoot [] (batchKick [("user_id", .num (.posInt 7))])).Asks
        (batchKickAsked [("user_id", .num (.posInt 7))])
        (.submit (batchKickTask [("user_id", .num (.posInt 7))])) ∧
      ∃ params, (run true (batchKickTask [("user_id", .num (.posInt 7))])).Asks []
          (.openuds "room.kick" params none) ∧
        (params.get? "user_id").bind Json.asI64 = some 7 :=
  ⟨by decide, by decide, batchKickArgs [("user_id", .num (.posInt 7))], by decide, by decide⟩

end Ppb.Rooms
