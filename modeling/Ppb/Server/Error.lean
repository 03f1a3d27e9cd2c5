import Ppb.Common.Json

/-!
# REST error codes and `ApiError` (`error/mod.rs`)

Every fallible function of the server returns `Result<_, ApiError>`. The HTTP
status of a response is a function of the error code alone (`ErrorCode.status`),
so which code a handler picks decides whether a client sees a failure.
-/

namespace Ppb

/-- `ErrorCode` (error/mod.rs:27-127). -/
inductive ErrorCode where
  -- Common / framework
  | invalidJson | invalidQuery | invalidPathParam | methodNotAllowed | requestBodyTooLarge
  | invalidContentType | validationFailed | rateLimited | authRequired | sessionExpired
  | permissionDenied | csrfInvalid | resourceNotFound | resourceConflict | capabilityNotSupported
  | internalError | longJobAccepted | longRunningActionRequiresJob
  -- Auth / identity
  | phiraAuthFailed | phiraReauthRequired | phiraApiUnavailable | githubOauthNotConfigured
  | githubIdentityNotBound | githubOauthFailed | githubApiUnavailable | githubOauthStateInvalid
  | authLegalConsentRequired | authLegalDocumentsUnavailable | rootPasswordInvalid
  | rootPasswordChangeRequired | currentSessionRevokeForbidden
  -- PMP / command
  | pmpUnavailable | pmpCommandFailed | pmpCommandTimeout | pmpCapabilityMissing
  | pmpConfigNotAvailable | pmpInvalidResponse
  -- Rooms / chat
  | roomNotFound | roomIdRequired | roomHostRequired | roomUserNotPresent
  | roomBatchTargetRequired | roomBatchActionUnsupported | roomMoveTargetRequired | roomChatEmpty
  | roomChatTooLong
  -- Social
  | userNotFound | alreadyFriends | friendRequestAlreadySent | friendRequestNotFound
  | friendRelationRequired | userBlocked
  -- Replay
  | replayNotFound | replayAccessDenied | replayVisibilityInvalid | replayPlayerRequired
  | replayShareInvalid | replayShareExpired | replayShareRevoked
  -- Notification
  | notificationNotFound | notificationActionNotAvailable | notificationActionTargetInvalid
  | notificationInputNotAllowed | notificationInputEmpty | notificationInputTooLong
  -- Config / jobs / redemption
  | configValidationFailed | configSnapshotNotFound | configScopeInvalid | jobNotFound
  | jobTypeUnknown | jobAlreadyRunning | jobNotRetryable | jobNotCancellable
  | redemptionCodeNotFound | redemptionCodeAlreadyUsed | redemptionCodeRevoked
  | redemptionCodeExpired | redemptionCodeLimitReached | redemptionActionUnsupported
  -- Admin / group
  | groupNotFound | groupNameRequired | userActionTargetInvalid
  deriving DecidableEq, Repr

namespace ErrorCode

/-- `ErrorCode::as_str` (error/mod.rs:130-217). -/
def asStr : ErrorCode → String
  | .invalidJson => "INVALID_JSON"
  | .invalidQuery => "INVALID_QUERY"
  | .invalidPathParam => "INVALID_PATH_PARAM"
  | .methodNotAllowed => "METHOD_NOT_ALLOWED"
  | .requestBodyTooLarge => "REQUEST_BODY_TOO_LARGE"
  | .invalidContentType => "INVALID_CONTENT_TYPE"
  | .validationFailed => "VALIDATION_FAILED"
  | .rateLimited => "RATE_LIMITED"
  | .authRequired => "AUTH_REQUIRED"
  | .sessionExpired => "SESSION_EXPIRED"
  | .permissionDenied => "PERMISSION_DENIED"
  | .csrfInvalid => "CSRF_INVALID"
  | .resourceNotFound => "RESOURCE_NOT_FOUND"
  | .resourceConflict => "RESOURCE_CONFLICT"
  | .capabilityNotSupported => "CAPABILITY_NOT_SUPPORTED"
  | .internalError => "INTERNAL_ERROR"
  | .longJobAccepted => "LONG_JOB_ACCEPTED"
  | .longRunningActionRequiresJob => "LONG_RUNNING_ACTION_REQUIRES_JOB"
  | .phiraAuthFailed => "PHIRA_AUTH_FAILED"
  | .phiraReauthRequired => "PHIRA_REAUTH_REQUIRED"
  | .phiraApiUnavailable => "PHIRA_API_UNAVAILABLE"
  | .githubOauthNotConfigured => "GITHUB_OAUTH_NOT_CONFIGURED"
  | .githubIdentityNotBound => "GITHUB_IDENTITY_NOT_BOUND"
  | .githubOauthFailed => "GITHUB_OAUTH_FAILED"
  | .githubApiUnavailable => "GITHUB_API_UNAVAILABLE"
  | .githubOauthStateInvalid => "GITHUB_OAUTH_STATE_INVALID"
  | .authLegalConsentRequired => "AUTH_LEGAL_CONSENT_REQUIRED"
  | .authLegalDocumentsUnavailable => "AUTH_LEGAL_DOCUMENTS_UNAVAILABLE"
  | .rootPasswordInvalid => "ROOT_PASSWORD_INVALID"
  | .rootPasswordChangeRequired => "ROOT_PASSWORD_CHANGE_REQUIRED"
  | .currentSessionRevokeForbidden => "CURRENT_SESSION_REVOKE_FORBIDDEN"
  | .pmpUnavailable => "PMP_UNAVAILABLE"
  | .pmpCommandFailed => "PMP_COMMAND_FAILED"
  | .pmpCommandTimeout => "PMP_COMMAND_TIMEOUT"
  | .pmpCapabilityMissing => "PMP_CAPABILITY_MISSING"
  | .pmpConfigNotAvailable => "PMP_CONFIG_NOT_AVAILABLE"
  | .pmpInvalidResponse => "PMP_INVALID_RESPONSE"
  | .roomNotFound => "ROOM_NOT_FOUND"
  | .roomIdRequired => "ROOM_ID_REQUIRED"
  | .roomHostRequired => "ROOM_HOST_REQUIRED"
  | .roomUserNotPresent => "ROOM_USER_NOT_PRESENT"
  | .roomBatchTargetRequired => "ROOM_BATCH_TARGET_REQUIRED"
  | .roomBatchActionUnsupported => "ROOM_BATCH_ACTION_UNSUPPORTED"
  | .roomMoveTargetRequired => "ROOM_MOVE_TARGET_REQUIRED"
  | .roomChatEmpty => "ROOM_CHAT_EMPTY"
  | .roomChatTooLong => "ROOM_CHAT_TOO_LONG"
  | .userNotFound => "USER_NOT_FOUND"
  | .alreadyFriends => "ALREADY_FRIENDS"
  | .friendRequestAlreadySent => "FRIEND_REQUEST_ALREADY_SENT"
  | .friendRequestNotFound => "FRIEND_REQUEST_NOT_FOUND"
  | .friendRelationRequired => "FRIEND_RELATION_REQUIRED"
  | .userBlocked => "USER_BLOCKED"
  | .replayNotFound => "REPLAY_NOT_FOUND"
  | .replayAccessDenied => "REPLAY_ACCESS_DENIED"
  | .replayVisibilityInvalid => "REPLAY_VISIBILITY_INVALID"
  | .replayPlayerRequired => "REPLAY_PLAYER_REQUIRED"
  | .replayShareInvalid => "REPLAY_SHARE_INVALID"
  | .replayShareExpired => "REPLAY_SHARE_EXPIRED"
  | .replayShareRevoked => "REPLAY_SHARE_REVOKED"
  | .notificationNotFound => "NOTIFICATION_NOT_FOUND"
  | .notificationActionNotAvailable => "NOTIFICATION_ACTION_NOT_AVAILABLE"
  | .notificationActionTargetInvalid => "NOTIFICATION_ACTION_TARGET_INVALID"
  | .notificationInputNotAllowed => "NOTIFICATION_INPUT_NOT_ALLOWED"
  | .notificationInputEmpty => "NOTIFICATION_INPUT_EMPTY"
  | .notificationInputTooLong => "NOTIFICATION_INPUT_TOO_LONG"
  | .configValidationFailed => "CONFIG_VALIDATION_FAILED"
  | .configSnapshotNotFound => "CONFIG_SNAPSHOT_NOT_FOUND"
  | .configScopeInvalid => "CONFIG_SCOPE_INVALID"
  | .jobNotFound => "JOB_NOT_FOUND"
  | .jobTypeUnknown => "JOB_TYPE_UNKNOWN"
  | .jobAlreadyRunning => "JOB_ALREADY_RUNNING"
  | .jobNotRetryable => "JOB_NOT_RETRYABLE"
  | .jobNotCancellable => "JOB_NOT_CANCELLABLE"
  | .redemptionCodeNotFound => "REDEMPTION_CODE_NOT_FOUND"
  | .redemptionCodeAlreadyUsed => "REDEMPTION_CODE_ALREADY_USED"
  | .redemptionCodeRevoked => "REDEMPTION_CODE_REVOKED"
  | .redemptionCodeExpired => "REDEMPTION_CODE_EXPIRED"
  | .redemptionCodeLimitReached => "REDEMPTION_CODE_LIMIT_REACHED"
  | .redemptionActionUnsupported => "REDEMPTION_ACTION_UNSUPPORTED"
  | .groupNotFound => "GROUP_NOT_FOUND"
  | .groupNameRequired => "GROUP_NAME_REQUIRED"
  | .userActionTargetInvalid => "USER_ACTION_TARGET_INVALID"

/-- `ErrorCode::status` (error/mod.rs:219-285), as the numeric HTTP status. -/
def status : ErrorCode → ℕ
  | .invalidJson | .invalidQuery | .invalidPathParam | .invalidContentType => 400
  | .validationFailed | .authLegalConsentRequired | .roomIdRequired
  | .roomBatchTargetRequired | .roomBatchActionUnsupported | .roomMoveTargetRequired
  | .roomChatEmpty | .roomChatTooLong | .replayVisibilityInvalid | .replayPlayerRequired
  | .notificationActionTargetInvalid | .notificationActionNotAvailable
  | .notificationInputNotAllowed | .notificationInputEmpty | .notificationInputTooLong
  | .configValidationFailed | .configScopeInvalid | .groupNameRequired
  | .userActionTargetInvalid => 422
  | .requestBodyTooLarge => 413
  | .methodNotAllowed => 405
  | .rateLimited => 429
  | .authRequired | .sessionExpired | .phiraAuthFailed | .phiraReauthRequired
  | .rootPasswordInvalid | .githubOauthStateInvalid => 401
  | .permissionDenied | .csrfInvalid | .friendRelationRequired | .userBlocked
  | .replayAccessDenied | .currentSessionRevokeForbidden | .rootPasswordChangeRequired => 403
  | .resourceNotFound | .userNotFound | .friendRequestNotFound | .roomNotFound
  | .replayNotFound | .notificationNotFound | .configSnapshotNotFound | .jobNotFound
  | .jobTypeUnknown | .redemptionCodeNotFound | .groupNotFound => 404
  | .resourceConflict | .alreadyFriends | .friendRequestAlreadySent | .jobAlreadyRunning
  | .jobNotRetryable | .jobNotCancellable | .redemptionCodeAlreadyUsed
  | .redemptionCodeRevoked | .redemptionCodeExpired | .redemptionCodeLimitReached
  | .replayShareExpired | .replayShareRevoked => 409
  | .capabilityNotSupported | .pmpCapabilityMissing | .pmpConfigNotAvailable
  | .redemptionActionUnsupported => 501
  | .pmpUnavailable | .pmpCommandFailed | .pmpCommandTimeout | .pmpInvalidResponse
  | .phiraApiUnavailable | .githubApiUnavailable | .githubOauthFailed => 502
  | .replayShareInvalid | .githubIdentityNotBound => 401
  | .githubOauthNotConfigured | .authLegalDocumentsUnavailable => 503
  | .internalError => 500
  | .longJobAccepted => 202
  | .longRunningActionRequiresJob => 409
  | .roomHostRequired | .roomUserNotPresent => 409

end ErrorCode

/-- An HTTP status of the success class. -/
def isSuccessStatus (status : ℕ) : Bool := 200 ≤ status && status < 300

/-- `ApiError` (error/mod.rs:313-320) without the request id. `params` is the
    `details.params` object, in key order. -/
structure ApiError where
  code : ErrorCode
  message : String
  params : List (String × Json) := []
  retryAfterSecs : Option ℕ := none
  deriving DecidableEq, Repr

namespace ApiError

/-- `ApiError::new` (error/mod.rs:323-340): the text of an internal error never
    leaves the server. -/
def new (code : ErrorCode) (message : String) : ApiError :=
  { code := code
    message := if code = .internalError then "internal server error" else message }

/-- `is_safe_scalar` (error/mod.rs:539-546). -/
def isSafeScalar : Json → Bool
  | .arr _ | .obj _ => false
  | .null | .bool _ | .num _ | .str _ => true

/-- `sanitize_details` (error/mod.rs:519-537): the scalars of the object `params` if there is one,
    and of the details themselves otherwise. -/
def sanitizeDetails (details : Json) : List (String × Json) :=
  match details.asObject with
  | some fields =>
    (((details.get? "params").bind Json.asObject).getD fields).filter fun f => isSafeScalar f.2
  | none => []

/-- `ApiError::with_details` (error/mod.rs:342-350). -/
def withDetails (code : ErrorCode) (message : String) (details : Json) : ApiError :=
  { new code message with params := sanitizeDetails details }

/-- `ApiError::with_param` (error/mod.rs:381-393): the value is a text. -/
def withParam (e : ApiError) (key value : String) : ApiError :=
  { e with params := Fields.insert key (.str value) (e.params.filter fun f => isSafeScalar f.2) }

/-- `not_found_code` (error/mod.rs:551-565). -/
def notFoundCode (resource : String) : ErrorCode :=
  let has (word : String) := Text.containsStr (Text.toAsciiLowercase resource) word
  if has "room" then .roomNotFound
  else if has "replay" || has "round" then .replayNotFound
  else if has "notification" then .notificationNotFound
  else if has "friend request" then .friendRequestNotFound
  else if has "user" || has "profile" then .userNotFound
  else if has "snapshot" then .configSnapshotNotFound
  else if has "job" then .jobNotFound
  else if has "redemption" || has "coupon" then .redemptionCodeNotFound
  else if has "group" then .groupNotFound
  else .resourceNotFound

/-- `ApiError::validation` (error/mod.rs:352-354). -/
def validation (message : String) : ApiError := new .validationFailed message

/-- `ApiError::not_found` (error/mod.rs:356-363). -/
def notFound (resource : String) : ApiError :=
  (new (notFoundCode resource) s!"resource not found: {resource}").withParam "resource" resource

/-- `ApiError::permission_denied` (error/mod.rs:369-371). -/
def permissionDenied : ApiError := new .permissionDenied "permission denied"

/-- `ApiError::internal` (error/mod.rs:377-379). -/
def internal : ApiError := new .internalError "internal server error"

/-- `IntoResponse for ApiError` (error/mod.rs:411-446): the status line. -/
def status (e : ApiError) : ℕ := e.code.status

@[simp] theorem new_code (code : ErrorCode) (message : String) : (new code message).code = code := rfl

@[simp] theorem withDetails_code (code : ErrorCode) (message : String) (details : Json) :
    (withDetails code message details).code = code := rfl

@[simp] theorem internal_code : internal.code = .internalError := rfl

end ApiError

end Ppb
