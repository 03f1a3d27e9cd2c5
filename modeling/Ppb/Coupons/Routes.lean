import Ppb.Coupons.Store
import Ppb.Server.Types

/-!
# The handlers of the redemption codes (`admin/coupons.rs`)

`create` (lines 40-55), `revoke` (line 58), and `redeem` (lines 64-79) with
`validate_action` and `execute_action` (lines 81-87).

A transaction that is dropped before its commit is rolled back: `inTransaction` asks for
the rollback wherever `?` or `return Err` leaves its body.

`Uuid::parse_str` is a parameter, `parseUuid`: it takes more spellings than the one that
`Uuid.toText` prints.

Deviation: the server has a database: the error of `require_db` is left out.
-/

namespace Ppb.Coupons

open Prog Transactions

abbrev Handler (α : Type) := Prog Query Query.Answer ApiError α

abbrev ask (q : Query) : Handler q.Answer := query q

/-- `db_err` (admin/coupons.rs:90): every error is internal. -/
def couponErr (_ : DbError) : ApiError := .internal

/-- `str::to_ascii_uppercase`. -/
def toAsciiUppercase (s : String) : String := String.ofList (s.toList.map Char.toUpper)

/-- `normalize` (admin/coupons.rs:88). -/
def normalize (v : String) : String := toAsciiUppercase (Text.trim v)

/-- A text field of the arguments. -/
def textField (args : Json) (key : String) : Option String := (args.get? key).bind Json.asStr

/-- `validate_action` (admin/coupons.rs:81). -/
def validateAction (kind : String) (args : Json) : Except ApiError Unit :=
  if args.asObject.isNone then .error (.new .validationFailed "redemption args must be object")
  else if kind = "account_unlock" ∨ kind = "admin_alert" then .ok ()
  else if kind = "account_role" then
    if (textField args "group_id").isSome ∨ (textField args "group_name").isSome then .ok ()
    else .error (.new .validationFailed "group target required")
  else if kind = "custom_hook" then
    if textField args "hook_id" = some "notification.self" then .ok ()
    else .error (.new .redemptionActionUnsupported "unsupported redemption hook")
  else .error (.new .redemptionActionUnsupported "unsupported redemption action")

/-! ## Creating and revoking -/

/-- `CreateCouponBody` (admin/coupons.rs:23-33). -/
structure CreateCouponBody where
  code : String
  actionType : String
  args : Json
  holderMode : String
  holderPhiraId : Option Int64
  note : String
  maxUses : Option Int32
  expiresAt : Option ℕ
  deriving DecidableEq

/-- The answer of `create`. -/
structure CreatedCoupon where
  id : Uuid
  code : String
  actionType : String
  holderMode : String
  note : String
  createdAt : ℕ
  deriving DecidableEq

/-- Who may redeem the new coupon (admin/coupons.rs:46-48). -/
def holderOf (auth : AuthPrincipal) (body : CreateCouponBody) : Handler (Option Uuid) :=
  if body.holderMode = "creator" then do
    failIf (auth.isRoot = true) (.new .validationFailed "root cannot be redemption holder")
    return some auth.sub
  else
    match body.holderPhiraId with
    | some phiraId => do
      let found ← ask (.findByPhiraId phiraId)
      let found ← mapErr (dbErr .userNotFound "user not found") found
      let user ← ofOption (.new .userNotFound "user not found") found
      return some user.id
    | none => pure none

/-- The code of the new coupon before `normalize` (admin/coupons.rs:49). -/
def codeOf (body : CreateCouponBody) : Handler String :=
  if Text.trim body.code = "" then ask .generateCode else pure body.code

/-- The errors of the `INSERT`. -/
def insertErr : Groups.InsertError → ApiError
  | .uniqueViolation => .new .resourceConflict "redemption code already exists"
  | .db e => couponErr e

/-- `create` (admin/coupons.rs:40-55). -/
def create (auth : AuthPrincipal) (body : CreateCouponBody) : Handler CreatedCoupon := do
  let permitted ← ask (.require auth "coupon:create")
  ofExcept permitted
  ofExcept (validateAction body.actionType body.args)
  failIf (body.holderMode ≠ "creator" ∧ body.holderMode ≠ "manual")
    (.new .validationFailed "invalid holder mode")
  let maxUses := body.maxUses.getD 1
  failIf (maxUses ≤ 0) (.new .validationFailed "max uses must be positive")
  let now ← ask .now
  failIf (body.expiresAt.any (· ≤ now) = true) (.new .validationFailed "expiry must be in future")
  let holder ← holderOf auth body
  let code ← codeOf body
  let code := normalize code
  let args := if body.args = .null then Json.emptyObject else body.args
  let row ← ask (.insertCoupon code body.actionType args maxUses
    (if auth.isRoot then none else some auth.sub) body.holderMode holder (Text.trim body.note)
    body.expiresAt)
  let row ← ofExcept (row.mapError insertErr)
  return ⟨row.1, code, body.actionType, body.holderMode, Text.trim body.note, row.2⟩

/-- `revoke` (admin/coupons.rs:58). -/
def revoke (auth : AuthPrincipal) (id : Uuid) : Handler Unit := do
  let permitted ← ask (.require auth "coupon:revoke")
  ofExcept permitted
  let affected ← ask (.revoke id)
  let affected ← mapErr couponErr affected
  failIf (affected = none) (.new .redemptionCodeNotFound "redemption code not found")

/-! ## Redeeming -/

section Redeeming

variable (parseUuid : String → Option Uuid)

/-- The group of an `account_role` coupon, by its id or else by its name. -/
def findGroup (args : Json) : Handler (Option Groups.Group) :=
  match textField args "group_id" with
  | some raw => do
    let id ← ofOption (.new .validationFailed "invalid group id") (parseUuid raw)
    let found ← ask (.groupById id)
    mapErr couponErr found
  | none => do
    let found ← ask (.groupByName ((textField args "group_name").getD ""))
    mapErr couponErr found

/-- `account_role` of `execute_action`. -/
def accountRole (user : Uuid) (args : Json) : Handler Json := do
  let found ← findGroup parseUuid args
  let group ← ofOption (.new .groupNotFound "group not found") found
  failIf (group.isAdminScope = true ∨
    Text.toAsciiLowercase group.name = Text.toAsciiLowercase "Administrators") .permissionDenied
  let added ← ask (.addMember group.id user)
  mapErr couponErr added
  return .obj [("group_id", .str group.id.toText), ("group_name", .str group.name)]

/-- `admin_alert` of `execute_action`. -/
def adminAlert (user coupon : Uuid) (args : Json) : Handler Json := do
  let taskType := (textField args "task_type").getD "redemption_review"
  let id ← ask (.insertTask coupon taskType (.obj [("args", args), ("coupon_id", .str coupon.toText),
    ("redeemed_by", .str user.toText)]))
  let id ← mapErr couponErr id
  return .obj [("admin_task_id", .str id.toText), ("task_type", .str taskType)]

/-- `custom_hook` of `execute_action`. -/
def customHook (user : Uuid) (args : Json) : Handler Json := do
  let title := (textField args "title").getD "兑换成功"
  let body := (textField args "body").getD "兑换码奖励已发放。"
  let event ← ask (.insertEvent (.obj [("actions", .arr []), ("body", .str body),
    ("priority", .str "normal"), ("title", .str title), ("type", .str "redemption.completed")]))
  let event ← mapErr couponErr event
  let notified ← ask (.notify event user)
  mapErr couponErr notified
  return .obj [("notification_event_id", .str event.toText)]

/-- `execute_action` (admin/coupons.rs:82-87). -/
def executeAction (user coupon : Uuid) (kind : String) (args : Json) : Handler Json :=
  if kind = "account_unlock" then do
    let done ← ask (.activate user)
    mapErr couponErr done
    return .obj [("status", .str "active")]
  else if kind = "account_role" then accountRole parseUuid user args
  else if kind = "admin_alert" then adminAlert user coupon args
  else if kind = "custom_hook" then customHook user args
  else fail (.new .redemptionActionUnsupported "unsupported redemption action")

/-- `RedeemCodeResponse` (admin/coupons.rs:36). -/
structure RedeemCodeResponse where
  actionType : String
  result : Json
  redeemedAt : ℕ
  deriving DecidableEq

/-- What `redeem` checks of the coupon (admin/coupons.rs:69-73). -/
def checkCoupon (user : Uuid) (c : Coupon) (now : ℕ) : Except ApiError Unit :=
  if c.revokedAt.isSome then .error (.new .redemptionCodeRevoked "redemption code revoked")
  else if c.expiresAt.any (· ≤ now) then
    .error (.new .redemptionCodeExpired "redemption code expired")
  else if c.maxUses ≤ c.usedCount then
    .error (.new .redemptionCodeLimitReached "redemption code limit reached")
  else if c.holderUserId.isSome ∧ c.holderUserId ≠ some user then .error .permissionDenied
  else if c.holderMode = "creator" ∧ c.holderUserId ≠ some user then .error .permissionDenied
  else .ok ()

/-- A transaction and its body; it is rolled back unless the body has committed it. -/
def inTransaction {α : Type} (body : Handler α) : Handler α := do
  let begun ← ask .begin
  mapErr couponErr begun
  let r ← (body.attempt : Handler (Except ApiError α))
  match r with
  | .ok a => pure a
  | .error e => do
    ask .rollback
    fail e

/-- The transaction of `redeem` (admin/coupons.rs:67-78). -/
def redeemBody (user : Uuid) (code : String) : Handler RedeemCodeResponse := do
  let found ← ask (.couponForUpdate code)
  let found ← mapErr couponErr found
  let c ← ofOption (.new .redemptionCodeNotFound "redemption code not found") found
  let now ← ask .now
  ofExcept (checkCoupon user c now)
  let prior ← ask (.redeemedBefore c.id user)
  let prior ← mapErr couponErr prior
  failIf (prior = true) (.new .redemptionCodeAlreadyUsed "redemption code already used")
  ofExcept (validateAction c.actionType c.payload)
  let result ← executeAction parseUuid user c.id c.actionType c.payload
  let redeemedAt ← ask .now
  let counted ← ask (.countUse c.id)
  mapErr couponErr counted
  let inserted ← ask (.insertRedemption c.id user c.actionType result redeemedAt)
  mapErr couponErr inserted
  let committed ← ask .commit
  mapErr couponErr committed
  return ⟨c.actionType, result, redeemedAt⟩

/-- `redeem` (admin/coupons.rs:64-79). -/
def redeem (auth : AuthPrincipal) (bodyCode : String) : Handler RedeemCodeResponse := do
  failIf (auth.isRoot = true) .permissionDenied
  let code := normalize bodyCode
  failIf (code = "") (.new .validationFailed "code required")
  inTransaction (redeemBody parseUuid auth.sub code)

end Redeeming

/-! ## Requests -/

inductive Op where
  | create (auth : AuthPrincipal) (body : CreateCouponBody)
  | revoke (auth : AuthPrincipal) (id : Uuid)
  | redeem (auth : AuthPrincipal) (code : String)
  deriving DecidableEq

inductive Reply where
  | created (coupon : CreatedCoupon)
  | revoked
  | redeemed (response : RedeemCodeResponse)
  deriving DecidableEq

/-- The program of a request. -/
def program (parseUuid : String → Option Uuid) : Op → Handler Reply
  | .create auth body => do
    let coupon ← create auth body
    return .created coupon
  | .revoke auth id => do
    revoke auth id
    return .revoked
  | .redeem auth code => do
    let response ← redeem parseUuid auth code
    return .redeemed response

end Ppb.Coupons
