import Ppb.Rooms.Routes

/-!
# The host branch of the authorization

Three endpoints let a caller through who holds the action's permission or, for
some actions, is the host of the room. All three look the host up with `?`, and
before they look at the permission: a lookup that fails refuses a caller who
holds the permission. Root, who holds every permission and has no `users` row, is
refused every host-allowed action.

* `HostStage.authorize`: the authorization stage of the three endpoints.
* `HostLookup`: the lookup can be completed; `eval_verifyRealHostOr` says what it
  then returns.
* `authorize_iff_hostLookup`: the documented rule holds exactly if a permission
  holder's lookup does not fail.
-/

namespace Ppb.Actions

open Prog Auth

/-- The endpoints with a host branch; two of them have a room in their path. -/
inductive HostStage where
  | executeAction
  | executeRoomAction (roomId : String)
  | adminRoomAction (roomId : String)

/-- The arguments an endpoint authorizes, from those of the request. -/
def HostStage.args : HostStage → Json → Json
  | .executeAction, args => args
  | .executeRoomAction roomId, args => mergeArg "room_id" (.str roomId) args
  | .adminRoomAction roomId, args => mergeArg "room_id" (.str roomId) args

/-- The authorization stage of an endpoint. -/
def HostStage.authorize (stage : HostStage) (state : AppState) (auth : AuthPrincipal)
    (action : ActionDescriptor) (args : Json) : Server Unit :=
  match stage with
  | .executeAction => authorizeAction state auth action (stage.args args)
  | .executeRoomAction _ => Rooms.authorizeRoomAction state auth action (stage.args args)
  | .adminRoomAction _ => Rooms.authorizeRoomAction state auth action (stage.args args)

/-- The arguments name a room, the caller has the `users` row `user` and PMP
    answers `info` for that room. -/
def HostLookup (state : AppState) (auth : AuthPrincipal) (args : Json)
    (answer : (q : Query) → q.Answer) (user : User) (info : Json) : Prop :=
  ∃ roomId, args.get? "room_id" = some (.str roomId) ∧ state.db = true ∧
    answer (.findUserById auth.sub) = .ok (some user) ∧ answer (roomInfo roomId) = .ok info

/-- The host lookup does not get to an answer. -/
def LookupFails (state : AppState) (auth : AuthPrincipal) (args : Json)
    (answer : (q : Query) → q.Answer) : Prop :=
  ¬ ∃ user info, HostLookup state auth args answer user info

/-- PMP names the caller as the host of the room in the arguments. -/
def IsRealHost (state : AppState) (auth : AuthPrincipal) (args : Json)
    (answer : (q : Query) → q.Answer) : Prop :=
  ∃ user info, HostLookup state auth args answer user info ∧
    hostIdOf info = some user.phiraId.toInt32

variable {state : AppState} {auth : AuthPrincipal} {action : ActionDescriptor} {args : Json}
  {answer : (q : Query) → q.Answer} {noUser : ApiError}

theorem eval_verifyRealHostOr {user : User} {info : Json}
    (h : HostLookup state auth args answer user info) :
    (verifyRealHostOr noUser state auth args).eval answer =
      .ok (hostIdOf info == some user.phiraId.toInt32) := by
  obtain ⟨roomId, hroom, hdb, huser, hinfo⟩ := h
  simp [verifyRealHostOr, hroom, Json.asStr, hdb, huser, hinfo, Except.bind]

/-- Each way the lookup can stop is an error: no room in the arguments, no
    database, a failed statement, no row, no answer from PMP. -/
theorem eval_verifyRealHostOr_of_fails (noUser : ApiError)
    (h : LookupFails state auth args answer) :
    ∃ e, (verifyRealHostOr noUser state auth args).eval answer = .error e := by
  cases hroom : (args.get? "room_id").bind Json.asStr with
  | none => simp [verifyRealHostOr, hroom, Except.bind]
  | some roomId =>
    cases hdb : state.db with
    | false => simp [verifyRealHostOr, hroom, hdb, Except.bind]
    | true =>
      cases huser : answer (.findUserById auth.sub) with
      | error e => simp [verifyRealHostOr, hroom, hdb, huser, Except.bind]
      | ok row =>
        cases row with
        | none => simp [verifyRealHostOr, hroom, hdb, huser, Except.bind]
        | some user =>
          cases hinfo : answer (roomInfo roomId) with
          | error e => simp [verifyRealHostOr, hroom, hdb, huser, hinfo, Except.bind]
          | ok info =>
            exact absurd ⟨user, info, roomId, Json.bind_asStr_eq_some.mp hroom, hdb, huser, hinfo⟩ h

/-- The last check of a stage whose host lookup ended with `v`. -/
theorem bind_check_eq_ok {v : Except ApiError Bool} {granted : Bool} {e : ApiError} :
    (v.bind fun isHost => if granted = false ∧ isHost = false then .error e else .ok ()) = .ok () ↔
      ∃ isHost, v = .ok isHost ∧ (granted = true ∨ isHost = true) := by
  cases v with
  | error e' => simp [Except.bind]
  | ok isHost => cases granted <;> cases isHost <;> simp [Except.bind]

theorem eval_verifyRealHostOr_eq_ok {granted : Bool} :
    (∃ isHost, (verifyRealHostOr noUser state auth args).eval answer = .ok isHost ∧
        (granted = true ∨ isHost = true)) ↔
      ∃ user info, HostLookup state auth args answer user info ∧
        (granted = true ∨ hostIdOf info = some user.phiraId.toInt32) := by
  constructor
  · rintro ⟨isHost, hv, hone⟩
    by_cases hfails : LookupFails state auth args answer
    · obtain ⟨e, he⟩ := eval_verifyRealHostOr_of_fails noUser hfails
      rw [he] at hv
      cases hv
    · obtain ⟨user, info, hlookup⟩ := not_not.mp hfails
      rw [eval_verifyRealHostOr hlookup] at hv
      refine ⟨user, info, hlookup, hone.imp_right fun hh => ?_⟩
      rw [← Except.ok.inj hv] at hh
      exact beq_iff_eq.mp hh
  · rintro ⟨user, info, hlookup, hone⟩
    exact ⟨_, eval_verifyRealHostOr hlookup, hone.imp_right beq_iff_eq.mpr⟩

theorem eval_authorizeAction {granted : Bool}
    (hgranted : (hasPermission state auth action.permission).eval answer = .ok granted) :
    (authorizeAction state auth action args).eval answer = .ok () ↔
      if action.hostAllowed = true then
        ∃ user info, HostLookup state auth args answer user info ∧
          (granted = true ∨ hostIdOf info = some user.phiraId.toInt32)
      else granted = true := by
  rw [authorizeAction, eval_bind, hgranted]
  split_ifs with hallowed
  · simp only [Except.bind, verifyRealHost, eval_bind, eval_failIf]
    exact bind_check_eq_ok.trans eval_verifyRealHostOr_eq_ok
  · cases granted <;> simp [Except.bind]

theorem eval_authorizeRoomAction {granted : Bool}
    (hgranted : (hasPermission state auth action.permission).eval answer = .ok granted) :
    (Rooms.authorizeRoomAction state auth action args).eval answer = .ok () ↔
      if action.hostAllowed = true then
        ∃ user info, HostLookup state auth args answer user info ∧
          (granted = true ∨ hostIdOf info = some user.phiraId.toInt32)
      else granted = true := by
  rw [Rooms.authorizeRoomAction, eval_bind, hgranted]
  split_ifs with hallowed
  · simp only [Except.bind, Rooms.verifyRealHost, eval_bind, eval_failIf]
    exact bind_check_eq_ok.trans eval_verifyRealHostOr_eq_ok
  · cases granted <;> simp [Except.bind]

/-- What the authorization stage makes of the permission and of the lookup. -/
theorem HostStage.eval_authorize (stage : HostStage) {granted : Bool}
    (hgranted : (hasPermission state auth action.permission).eval answer = .ok granted) :
    (stage.authorize state auth action args).eval answer = .ok () ↔
      if action.hostAllowed = true then
        ∃ user info, HostLookup state auth (stage.args args) answer user info ∧
          (granted = true ∨ hostIdOf info = some user.phiraId.toInt32)
      else granted = true := by
  cases stage with
  | executeAction => exact eval_authorizeAction hgranted
  | executeRoomAction roomId => exact eval_authorizeRoomAction hgranted
  | adminRoomAction roomId => exact eval_authorizeRoomAction hgranted

/-- **When a permission holder is let through**: given the outcome of the permission
    check, the stage succeeds exactly for permission holders and real hosts if and
    only if it is not the case that the caller holds the permission, the action
    allows hosts and the host lookup fails. -/
theorem authorize_iff_hostLookup (stage : HostStage) (state : AppState) (auth : AuthPrincipal)
    (action : ActionDescriptor) (args : Json) (answer : (q : Query) → q.Answer) (granted : Bool)
    (hgranted : (hasPermission state auth action.permission).eval answer = .ok granted) :
    ((stage.authorize state auth action args).eval answer = .ok () ↔
      granted = true ∨
        action.hostAllowed = true ∧ IsRealHost state auth (stage.args args) answer) ↔
      ¬ (granted = true ∧ action.hostAllowed = true ∧
        LookupFails state auth (stage.args args) answer) := by
  rw [stage.eval_authorize hgranted]
  cases granted with
  | false =>
    split_ifs with hallowed
    · simp [hallowed, IsRealHost]
    · simp [hallowed]
  | true =>
    split_ifs with hallowed
    · simp [hallowed, LookupFails]
    · simp [hallowed]

/-- Root, whose `sub` is the nil UUID. -/
def root : AuthPrincipal :=
  { sub := Uuid.nil, sid := 1, principalType := .root, clientType := .panel, requestId := "" }

/-- The descriptor of `room.kick`. -/
def roomKick : ActionDescriptor :=
  ⟨"room.kick", "room:kick", .openUds, .medium, true, false, true, roomKey, false⟩

/-- A room in the arguments. -/
def inRoom (roomId : String) : Json := .obj [("room_id", .str roomId)]

/-- Root holds `room:kick` and is refused, since he has no `users` row. -/
theorem not_authorize_root :
    getAction "room.kick" = some roomKick ∧
      (hasPermission ⟨true, 10⟩ root roomKick.permission).eval emptyWorld = .ok true ∧
      (HostStage.executeAction.authorize ⟨true, 10⟩ root roomKick (inRoom "ABC")).eval emptyWorld =
        .error (.notFound "user") ∧
      ¬ ((HostStage.executeAction.authorize ⟨true, 10⟩ root roomKick (inRoom "ABC")).eval
          emptyWorld = .ok () ↔
        true = true ∨ roomKick.hostAllowed = true ∧
          IsRealHost ⟨true, 10⟩ root (inRoom "ABC") emptyWorld) := by
  have herr : (HostStage.executeAction.authorize ⟨true, 10⟩ root roomKick (inRoom "ABC")).eval
      emptyWorld = .error (.notFound "user") := rfl
  refine ⟨by decide, rfl, herr, fun hiff => ?_⟩
  rw [herr] at hiff
  cases hiff.mpr (.inl rfl)

/-- The same call by a user with the permission and a `users` row: he is not the
    host and is let through. -/
theorem authorize_iff_hostLookup_admin :
    let answer : (q : Query) → q.Answer := fun q => match q with
      | .groupRows _ => .ok [⟨none, some "room:kick"⟩]
      | .findUserById u => .ok (some ⟨u, 7⟩)
      | q => emptyWorld q
    let admin : AuthPrincipal := { root with sub := 5, principalType := .user }
    (hasPermission ⟨true, 10⟩ admin roomKick.permission).eval answer = .ok true ∧
      ((HostStage.executeAction.authorize ⟨true, 10⟩ admin roomKick (inRoom "ABC")).eval answer =
          .ok () ↔
        true = true ∨ roomKick.hostAllowed = true ∧
          IsRealHost ⟨true, 10⟩ admin (inRoom "ABC") answer) := by
  intro answer admin
  have hgranted : (hasPermission ⟨true, 10⟩ admin roomKick.permission).eval answer = .ok true := by
    rfl
  refine ⟨hgranted, (authorize_iff_hostLookup .executeAction ⟨true, 10⟩ admin roomKick
    (inRoom "ABC") answer true hgranted).mpr ?_⟩
  rintro ⟨-, -, hfails⟩
  exact hfails ⟨⟨5, 7⟩, .emptyObject, "ABC", by decide, rfl, rfl, rfl⟩

end Ppb.Actions
