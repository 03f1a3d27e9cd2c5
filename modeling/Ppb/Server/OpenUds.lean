import Ppb.Server.Error

/-!
# OpenUDS errors (`pmp/openuds/client.rs`)

PMP is reached through the OpenUDS socket. A command sent there is answered by a
JSON value or by an `OpenUdsError`. The handlers see the error as an `ApiError`
(`toApiError`); the command executor sees its `Display` text (`toText`), which
for `Command` holds text of PMP's choosing.
-/

namespace Ppb

/-- `OpenUdsError` (pmp/openuds/client.rs:424-443). -/
inductive OpenUdsError where
  | unavailable (text : String)
  | command (name code message : String)
  | capabilityNotSupported (capability : String)
  | timeout (ms : ℕ)
  | authRequired (text : String)
  | protocol (text : String)
  | io (text : String)
  deriving DecidableEq, Repr

namespace OpenUdsError

/-- `Display for OpenUdsError`. -/
def toText : OpenUdsError → String
  | .unavailable text => "openuds unavailable: " ++ text
  | .command name code message => "command " ++ name ++ " failed: " ++ code ++ " " ++ message
  | .capabilityNotSupported capability => "capability not supported: " ++ capability
  | .timeout ms => "openuds request timed out after " ++ toString ms ++ "ms"
  | .authRequired text => "openuds authentication required: " ++ text
  | .protocol text => "openuds protocol error: " ++ text
  | .io text => "openuds io error: " ++ text

/-- `From<OpenUdsError> for ApiError` (pmp/openuds/client.rs:445-467). -/
def toApiError : OpenUdsError → ApiError
  | .capabilityNotSupported capability =>
    .withDetails .pmpCapabilityMissing ("capability not supported: " ++ capability)
      (.obj [("capability", .str capability)])
  | .command _ _ _ => .new .pmpCommandFailed "PMP command failed"
  | .unavailable text | .protocol text | .io text | .authRequired text =>
    .new .pmpUnavailable text
  | .timeout ms => .new .pmpUnavailable ("openuds request timed out after " ++ toString ms ++ "ms")

end OpenUdsError

end Ppb
