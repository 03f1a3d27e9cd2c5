import Ppb.Accounts.Store

/-!
# Login and GitHub endpoints (`auth/routes.rs`, `auth/consent.rs`, `auth/github.rs`)

A user logs in with his Phira password, or with a GitHub account that is bound to his
user. GitHub comes back to `github_callback` with a state token that one of the two
start endpoints has handed out; the record of that token says what the callback is for.

* `Op.program`: the endpoints as programs.
* `only_program`: an endpoint starts states for its caller only, consumes only the state
  it was given, creates sessions only if it is a login, and only a callback binds.

Deviation: the server has a database: the error of `require_db`, which `phira_login` and
`github_unbind` answer with and `github_callback` redirects with, is left out.
-/

namespace Ppb.Accounts

open Middleware

/-! ## Consent (`auth/consent.rs`) -/

open Prog

abbrev Handler (α : Type) := Prog Query Query.Answer ApiError α

abbrev ask (q : Query) : Handler q.Answer := query q

/-- `.map_err(..)?`. -/
def mapErr {α : Type} (f : DbError → ApiError) : Except DbError α → Handler α
  | .ok a => pure a
  | .error e => .fail (f e)

/-- `db_err` of users/repo.rs:70-77. -/
def userErr : DbError → ApiError := dbErr .userNotFound "user not found"

/-- `db_err` of identities/repo.rs:187-194. -/
def identityErr : DbError → ApiError := dbErr .resourceNotFound "not found"

/-- `LegalConfig` (config/mod.rs:295-302). -/
structure LegalConfig where
  publicAuthEnabled : Bool
  termsVersion : String
  privacyVersion : String
  termsUrl : String
  privacyUrl : String

/-- `LegalAcceptance` (auth/consent.rs:11-15). -/
structure LegalAcceptance where
  termsVersion : String
  privacyVersion : String
  deriving DecidableEq

/-- `current_versions` (auth/consent.rs:19-36). -/
def currentVersions (legal : LegalConfig) : Except ApiError LegalAcceptance :=
  if legal.publicAuthEnabled = false ∨ Text.trim legal.termsVersion = "" ∨
      Text.trim legal.privacyVersion = "" ∨ Text.trim legal.termsUrl = "" ∨
      Text.trim legal.privacyUrl = "" then
    .error (.new .authLegalDocumentsUnavailable "approved legal documents are not configured")
  else .ok ⟨legal.termsVersion, legal.privacyVersion⟩

/-- `validate_acceptance` (auth/consent.rs:38-56). -/
def validateAcceptance (legal : LegalConfig) (accepted : Bool)
    (termsVersion privacyVersion : Option String) : Except ApiError LegalAcceptance := do
  let current ← currentVersions legal
  if accepted = false ∨ termsVersion.getD "" ≠ current.termsVersion ∨
      privacyVersion.getD "" ≠ current.privacyVersion then
    .error (((ApiError.new .authLegalConsentRequired
      "current legal document versions must be explicitly accepted").withParam
        "terms_version" current.termsVersion).withParam "privacy_version" current.privacyVersion)
  else .ok current

/-- `has_current_acceptance` (auth/consent.rs:59-77). -/
def hasCurrentAcceptance (user : Uuid) (legal : LegalConfig) : Handler Bool := do
  let current ← ofExcept (currentVersions legal)
  let found ← ask (.hasAcceptance user current.termsVersion current.privacyVersion)
  mapErr (fun _ => .internal) found

/-- Does the existing user, if there is one, have a current acceptance? -/
def alreadyAccepted (existing : Option Uuid) (legal : LegalConfig) : Handler Bool :=
  match existing with
  | some user => hasCurrentAcceptance user legal
  | none => return false

/-- `acceptance_for_login` (auth/consent.rs:83-105). -/
def acceptanceForLogin (existing : Option Uuid) (legal : LegalConfig) (accepted : Bool)
    (termsVersion privacyVersion : Option String) : Handler (Option LegalAcceptance) := do
  let _ ← ofExcept (currentVersions legal)
  let already ← alreadyAccepted existing legal
  if already then return none
  else
    let acceptance ← ofExcept (validateAcceptance legal accepted termsVersion privacyVersion)
    return some acceptance

/-- `record_acceptance` (auth/consent.rs:107-129), if there is one to record. -/
def recordAcceptance (user : Uuid) (clientType : ClientType) (source : String) :
    Option LegalAcceptance → Handler Unit
  | none => pure ()
  | some acceptance => do
    let recorded ← ask (.recordAcceptance user clientType acceptance.termsVersion
      acceptance.privacyVersion source)
    mapErr (fun _ => .internal) recorded

/-! ## Phira login (`auth/routes.rs`, `auth/phira.rs`) -/

/-- The configuration, as far as it matters here. -/
structure Config where
  /-- `github_configured` (config/deployment.rs:58-60) -/
  githubConfigured : Bool
  legal : LegalConfig
  returnToAllowlist : List String
  ppfUrl : String
  panelUrl : String

/-- A relative path with nothing that a browser could take for another site. -/
def isRelative (path : String) : Bool :=
  path.startsWith "/" && !path.startsWith "//" && !path.contains '\\' && !path.contains '@' &&
    !Text.containsStr path "://"

/-- `validate_return_to` (auth/routes.rs:137-158). -/
def validateReturnTo (allowlist : List String) (returnTo : String) : Except ApiError Unit :=
  if returnTo = "" ∨ returnTo ∈ allowlist ∨ isRelative returnTo = true then .ok ()
  else .error (.validation "return_to 不在白名单内")

/-- `ip_from_headers` (auth/routes.rs:127-135). -/
def ipFromHeaders (headers : HeaderMap) : String :=
  match headers.getStr "x-forwarded-for" with
  | some value => Text.trim (String.ofList (value.toList.takeWhile (· ≠ ',')))
  | none => ""

/-- `PhiraLoginRequest` (auth/routes.rs:51-67), without the name of the device. -/
structure PhiraLoginRequest where
  email : String
  password : String
  clientType : Option String
  returnTo : Option String
  accepted : Option Bool
  termsVersion : Option String
  privacyVersion : Option String
  deriving DecidableEq

/-- How a request ends, other than with an error. -/
inductive Reply where
  /-- cookies for a session of this user -/
  | loggedIn (user : Uuid)
  /-- the authorize URL with this state token -/
  | started (token : String)
  /-- the redirect `github=bound`, for this user and GitHub id -/
  | bound (user : Uuid) (gid : String)
  /-- `github_gateway_error_redirect` (auth/routes.rs:598-621), without the request id -/
  | gatewayError (clientType returnTo : String) (code : ErrorCode)
  | noContent
  deriving DecidableEq

variable (config : Config)

/-- `commit_login` (auth/phira.rs:38-56). -/
def commitLogin (phiraId : Int64) : Handler User := do
  let upserted ← ask (.upsertUser phiraId)
  let user ← mapErr userErr upserted
  let upserted ← ask (.upsertPhiraIdentity user.id phiraId)
  mapErr identityErr upserted
  let stored ← ask (.storePhiraCredential user.id)
  ofExcept stored
  let ensured ← ask (.ensureUserInDefaultGroup user.id)
  ofExcept ensured
  return user

/-- The checks of `phira_login` before it asks Phira (auth/routes.rs:269-279). -/
def checkLogin (headers : HeaderMap) (body : PhiraLoginRequest) : Handler ClientType := do
  let limited ← ask (.rateLimit ("login:" ++ ipFromHeaders headers))
  ofExcept limited
  let clientType ← ofOption (.validation "invalid client_type")
    (ClientType.parse (body.clientType.getD "ppf"))
  ofExcept ((body.returnTo.map (validateReturnTo config.returnToAllowlist)).getD (.ok ()))
  let _ ← ofExcept (currentVersions config.legal)
  return clientType

/-- `phira_login` (auth/routes.rs:264-312). -/
def phiraLogin (headers : HeaderMap) (body : PhiraLoginRequest) : Handler Reply := do
  let clientType ← checkLogin config headers body
  let authenticated ← ask (.authenticatePhira body.email body.password)
  let phiraId ← ofExcept authenticated
  let found ← ask (.findUserByPhiraId phiraId)
  let existing ← mapErr userErr found
  let acceptance ← acceptanceForLogin (existing.map (·.id)) config.legal
    (body.accepted == some true) body.termsVersion body.privacyVersion
  let user ← commitLogin phiraId
  recordAcceptance user.id clientType "phira_login" acceptance
  let issued ← ask (.issueSession user.id clientType)
  ofExcept issued
  return .loggedIn user.id

/-! ## GitHub (`auth/routes.rs`, `auth/github.rs`, `auth/gateway.rs`) -/

def notConfigured : ApiError := .new .githubOauthNotConfigured "GitHub OAuth not configured"

/-- `authorize_url` (auth/github.rs:70-103): the state token in the URL. -/
def authorizeUrl : Handler String := do
  failIf (config.githubConfigured = false) notConfigured
  let answer ← ask .authorizeUrl
  ofOption (.new .rateLimited "too many pending OAuth states") answer.2

/-- `github_start` (auth/routes.rs:513-538). -/
def githubStart (auth : AuthPrincipal) (headers : HeaderMap) : Handler Reply := do
  failIf (auth.isRoot = true) .permissionDenied
  failIf (config.githubConfigured = false) notConfigured
  let limited ← ask (.rateLimit
    ("github-bind-start:" ++ Uuid.toText auth.sub ++ ":" ++ ipFromHeaders headers))
  ofExcept limited
  let limited ← ask (.rateLimit "github-provider:start")
  ofExcept limited
  let token ← authorizeUrl config
  let () ← ask (.bindStateToUser token auth.sub auth.clientType.toText)
  return .started token

/-- `GithubLoginStartParams` (auth/routes.rs:101-113). -/
structure GithubLoginStartParams where
  returnTo : Option String
  clientType : Option String
  accepted : Option Bool
  termsVersion : Option String
  privacyVersion : Option String
  deriving DecidableEq

/-- The versions a login state remembers (auth/routes.rs:574-585). -/
def legalVersions (params : GithubLoginStartParams) : Except ApiError LegalAcceptance := do
  let current ← currentVersions config.legal
  if params.accepted = some true then
    validateAcceptance config.legal true params.termsVersion params.privacyVersion
  else .ok current

/-- `github_login_start` (auth/routes.rs:548-596). -/
def githubLoginStart (headers : HeaderMap) (params : GithubLoginStartParams) : Handler Reply := do
  failIf (config.githubConfigured = false) notConfigured
  let clientType ← ofOption (.validation "invalid client_type")
    (ClientType.parse (params.clientType.getD "ppf"))
  failIf (clientType ≠ .ppf ∧ clientType ≠ .panel)
    (.validation "GitHub web login supports ppf/panel clients only")
  let limited ← ask (.rateLimit
    ("github-login-start:" ++ clientType.toText ++ ":" ++ ipFromHeaders headers))
  ofExcept limited
  let limited ← ask (.rateLimit "github-provider:start")
  ofExcept limited
  let returnTo := params.returnTo.getD (if clientType = .panel then "/" else "/profile")
  ofExcept (validateReturnTo config.returnToAllowlist returnTo)
  let versions ← ofExcept (legalVersions config params)
  let token ← authorizeUrl config
  let () ← ask (.markLoginState token returnTo clientType.toText (params.accepted == some true)
    versions.termsVersion versions.privacyVersion)
  return .started token

/-- `GithubCallbackParams` (auth/routes.rs:115-121). -/
structure GithubCallbackParams where
  code : Option String
  state : Option String
  error : Option String
  deriving DecidableEq

/-- `github_gateway_error_redirect` (auth/routes.rs:598-621). -/
def gatewayError (clientType returnTo : String) (code : ErrorCode) : Reply :=
  .gatewayError (if clientType = "panel" then "panel" else "ppf") returnTo code

/-- The redirect to where a state came from. -/
def OAuthState.fails (s : OAuthState) (code : ErrorCode) : Reply :=
  gatewayError s.clientType s.returnTo code

/-- `safe_return_to` (auth/gateway.rs:114-126). -/
def safeReturnTo (value : String) : String :=
  if isRelative value = true ∧ value.utf8ByteSize ≤ 2048 then value else "/"

/-- `s.trim_end_matches('/')`. -/
def trimEndSlashes (s : String) : String :=
  String.ofList (s.toList.reverse.dropWhile (· = '/')).reverse

/-- `resolve_redirect_target` (auth/gateway.rs:129-141). -/
def resolveRedirectTarget (clientType returnTo : String) : String :=
  let origin := trimEndSlashes (if clientType = "panel" then config.panelUrl else config.ppfUrl)
  if returnTo ∈ config.returnToAllowlist then returnTo
  else if returnTo = safeReturnTo returnTo then origin ++ returnTo
  else origin

/-- `HeaderValue::from_str` accepts it. -/
def isHeaderValue (s : String) : Bool :=
  s.toList.all fun c => (32 ≤ c.toNat && c.toNat ≠ 127) || c == '\t'

/-- The last step: a redirect whose target may not fit into a header. -/
def redirectTo (target : String) (reply other : Reply) : Handler Reply :=
  if isHeaderValue target then return reply else return other

/-- `p`, or on an error the redirect for its code. -/
def orRedirect {α : Type} (s : OAuthState) (p : Handler α) (k : α → Handler Reply) : Handler Reply :=
  p.attempt >>= fun
    | .ok a => k a
    | .error e => pure (s.fails e.code)

/-- `github_callback` for a login (auth/routes.rs:703-781). -/
def callbackLogin (s : OAuthState) (existing : Option Identity) : Handler Reply :=
  match existing with
  | none => return s.fails .githubIdentityNotBound
  | some identity =>
    match ClientType.parse s.clientType with
    | none | some .windows | some .android =>
      return gatewayError "ppf" "/profile" .githubOauthStateInvalid
    | some clientType =>
      orRedirect s (acceptanceForLogin (some identity.userId) config.legal s.acceptedLegal
        (some s.termsVersion) (some s.privacyVersion)) fun acceptance =>
      orRedirect s (recordAcceptance identity.userId clientType "github_login" acceptance) fun _ =>
      orRedirect s (ask (.issueSession identity.userId clientType) >>= ofExcept) fun _ =>
        redirectTo (resolveRedirectTarget config s.clientType s.returnTo)
          (.loggedIn identity.userId) (s.fails .internalError)

/-- `github_callback` for a bind (auth/routes.rs:783-817). -/
def callbackBind (s : OAuthState) (gid : String) (existing : Option Identity) : Handler Reply :=
  match s.userId with
  | none => return s.fails .githubOauthStateInvalid
  | some user =>
    if existing.any (·.userId != user) then return s.fails .resourceConflict
    else
      orRedirect s (ask (.bindGithub user gid) >>= mapErr identityErr) fun _ =>
        redirectTo (trimEndSlashes config.ppfUrl ++ "/profile?github=bound") (.bound user gid)
          (gatewayError "ppf" "/profile" .internalError)

/-- `github_callback` behind `consume_state` (auth/routes.rs:657-817). -/
def callbackWith (params : GithubCallbackParams) (s : OAuthState) : Handler Reply :=
  if params.error.isSome then return s.fails .githubOauthFailed
  else
    match params.code.filter (Text.trim · ≠ "") with
    | none => return s.fails .githubOauthFailed
    | some code =>
      orRedirect s (ask (.exchangeCode code) >>= ofExcept) fun github =>
      let gid := toString github.id.toInt
      orRedirect s (ask (.findGithub gid) >>= mapErr identityErr) fun existing =>
        if s.mode = .login then callbackLogin config s existing
        else callbackBind config s gid existing

/-- `github_callback` (auth/routes.rs:623-817). -/
def githubCallback (headers : HeaderMap) (params : GithubCallbackParams) : Handler Reply := do
  let limited ← ask (.rateLimit ("github-callback:" ++ ipFromHeaders headers))
  match limited with
  | .error e => return gatewayError "ppf" "/profile" e.code
  | .ok () =>
    let limited ← ask (.rateLimit "github-provider:callback")
    match limited with
    | .error e => return gatewayError "ppf" "/profile" e.code
    | .ok () =>
      match params.state.filter (Text.trim · ≠ "") with
      | none => return gatewayError "ppf" "/profile" .githubOauthStateInvalid
      | some token =>
        let answer ← ask (.consumeState token)
        match answer.2 with
        | none => return gatewayError "ppf" "/profile" .githubOauthStateInvalid
        | some s => callbackWith config params s

/-- The loop of `github_unbind` (auth/routes.rs:836-840). -/
def unbindAll (user : Uuid) : List Identity → Handler Unit
  | [] => pure ()
  | i :: rest => do
    if i.provider = .github then
      let unbound ← ask (.unbindGithub user i.providerId)
      mapErr identityErr unbound
      unbindAll user rest
    else unbindAll user rest

/-- `github_unbind` (auth/routes.rs:827-842). -/
def githubUnbind (auth : AuthPrincipal) : Handler Reply := do
  failIf (auth.isRoot = true) .permissionDenied
  let listed ← ask (.listForUser auth.sub)
  let identities ← mapErr identityErr listed
  unbindAll auth.sub identities
  return .noContent

/-- The login and GitHub endpoints. -/
inductive Op where
  | phiraLogin (headers : HeaderMap) (body : PhiraLoginRequest)
  | githubStart (auth : AuthPrincipal) (headers : HeaderMap)
  | githubLoginStart (headers : HeaderMap) (params : GithubLoginStartParams)
  | githubCallback (headers : HeaderMap) (params : GithubCallbackParams)
  | githubUnbind (auth : AuthPrincipal)
  deriving DecidableEq

def Op.program : Op → Handler Reply
  | .phiraLogin headers body => Accounts.phiraLogin config headers body
  | .githubStart auth headers => Accounts.githubStart config auth headers
  | .githubLoginStart headers params => Accounts.githubLoginStart config headers params
  | .githubCallback headers params => Accounts.githubCallback config headers params
  | .githubUnbind auth => Accounts.githubUnbind auth

/-! ## Who asks what -/

/-- Who starts a state with this endpoint. -/
def Op.starter : Op → Option Starter
  | .githubStart auth _ => some (.user auth.sub)
  | .githubLoginStart .. => some .login
  | _ => none

/-- The state token a callback brings. -/
def Op.state : Op → Option String
  | .githubCallback _ params => params.state
  | _ => none

/-- The endpoints that log a user in. -/
def Op.logsIn : Op → Bool
  | .phiraLogin .. | .githubCallback .. => true
  | _ => false

def Op.isCallback : Op → Bool
  | .githubCallback .. => true
  | _ => false

/-- An endpoint starts states for its caller only, consumes only the one it was given,
    creates sessions only if it is a login, and only a callback binds. -/
structure Op.MayAsk (op : Op) (q : Query) : Prop where
  starter : ∀ starter ∈ q.starter, starter ∈ op.starter
  consumes : ∀ token ∈ q.consumes, token ∈ op.state
  issues : ∀ user ∈ q.issues, op.logsIn = true
  binds : ∀ user ∈ q.binds, op.isCallback = true

/-- A question of any endpoint. -/
theorem mayAsk_other {op : Op} {q : Query} (hs : q.starter = none) (hc : q.consumes = none)
    (hi : q.issues = none) (hb : q.binds = none) : op.MayAsk q :=
  ⟨by simp [hs], by simp [hc], by simp [hi], by simp [hb]⟩

/-- An endpoint that may neither start a state nor create a session. -/
def asksNothing : Op := .githubUnbind ⟨0, 0, .user, .ppf, ""⟩

/-! Parts of programs that start, consume and create nothing. -/

section Parts

variable {config} {op : Op}

theorem only_mapErr {α : Type} {C : Query → Prop} {f : DbError → ApiError} {r : Except DbError α} :
    (mapErr f r).Only C := by
  cases r <;> trivial

/-- A question of no special kind. -/
theorem only_ask {q : Query} (hs : q.starter = none) (hc : q.consumes = none)
    (hi : q.issues = none) (hb : q.binds = none) : (ask q).Only op.MayAsk :=
  only_query (mayAsk_other hs hc hi hb)

theorem only_acceptanceForLogin {existing : Option Uuid} {legal : LegalConfig} {accepted : Bool}
    {termsVersion privacyVersion : Option String} :
    (acceptanceForLogin existing legal accepted termsVersion privacyVersion).Only op.MayAsk := by
  refine only_bind only_done fun _ => only_bind ?_ fun already => ?_
  · cases existing with
    | none => exact only_done
    | some user =>
      exact only_bind only_done fun _ => only_bind (only_ask rfl rfl rfl rfl) fun _ => only_mapErr
  · cases already
    · exact only_bind only_done fun _ => only_done
    · exact only_done

theorem only_recordAcceptance {user : Uuid} {clientType : ClientType} {source : String}
    {acceptance : Option LegalAcceptance} :
    (recordAcceptance user clientType source acceptance).Only op.MayAsk := by
  cases acceptance with
  | none => exact only_done
  | some acceptance => exact only_bind (only_ask rfl rfl rfl rfl) fun _ => only_mapErr

theorem only_checkLogin {headers : HeaderMap} {body : PhiraLoginRequest} :
    (checkLogin config headers body).Only op.MayAsk :=
  only_bind (only_ask rfl rfl rfl rfl) fun _ => only_bind only_done fun _ => only_bind only_ofOption
    fun _ => only_bind only_done fun _ => only_bind only_done fun _ => only_done

theorem only_commitLogin {phiraId : Int64} : (commitLogin phiraId).Only op.MayAsk :=
  only_bind (only_ask rfl rfl rfl rfl) fun _ => only_bind only_mapErr fun _ =>
    only_bind (only_ask rfl rfl rfl rfl) fun _ => only_bind only_mapErr fun _ =>
      only_bind (only_ask rfl rfl rfl rfl) fun _ => only_bind only_done fun _ =>
        only_bind (only_ask rfl rfl rfl rfl) fun _ => only_bind only_done fun _ => only_done

theorem only_authorizeUrl : (authorizeUrl config).Only op.MayAsk :=
  only_bind only_failIf fun _ => only_bind (only_ask rfl rfl rfl rfl) fun _ => only_ofOption

theorem only_orRedirect {α : Type} {C : Query → Prop} {s : OAuthState} {p : Handler α}
    {k : α → Handler Reply} (hp : p.Only C) (hk : ∀ a, (k a).Only C) : (orRedirect s p k).Only C := by
  refine only_bind (only_attempt hp) fun r => ?_
  cases r with
  | ok a => exact hk a
  | error e => exact only_done

theorem only_redirectTo {C : Query → Prop} {target : String} {reply other : Reply} :
    (redirectTo target reply other).Only C := by
  unfold redirectTo
  split
  · exact only_done
  · exact only_done

-- The check of the header value is long to evaluate.
attribute [irreducible] redirectTo

theorem only_issueSession (hop : op.logsIn = true) {user : Uuid} {clientType : ClientType} :
    (ask (.issueSession user clientType)).Only op.MayAsk :=
  only_query ⟨by simp [Query.starter], by simp [Query.consumes], fun _ _ => hop, by simp [Query.binds]⟩

theorem only_callbackLogin (hop : op.logsIn = true) {s : OAuthState} {existing : Option Identity} :
    (callbackLogin config s existing).Only op.MayAsk := by
  unfold callbackLogin
  split
  · exact only_done
  · split
    · exact only_done
    · exact only_done
    · exact only_done
    · exact only_orRedirect only_acceptanceForLogin fun _ =>
        only_orRedirect only_recordAcceptance fun _ =>
          only_orRedirect (only_bind (only_issueSession hop) fun _ => only_done) fun _ =>
            only_redirectTo

theorem only_callbackBind (hop : op.isCallback = true) {s : OAuthState} {gid : String} {existing : Option Identity} :
    (callbackBind config s gid existing).Only op.MayAsk := by
  unfold callbackBind
  split
  · exact only_done
  · split
    · exact only_done
    · refine only_orRedirect (only_bind (only_query ?_) fun _ => only_mapErr) fun _ =>
        only_redirectTo
      exact ⟨by simp [Query.starter], by simp [Query.consumes], by simp [Query.issues],
        fun _ _ => hop⟩

theorem only_callbackWith (hop : op.isCallback = true) (hlogs : op.logsIn = true) {params : GithubCallbackParams} {s : OAuthState} :
    (callbackWith config params s).Only op.MayAsk := by
  unfold callbackWith
  split
  · exact only_done
  · split
    · exact only_done
    · refine only_orRedirect (only_bind (only_ask rfl rfl rfl rfl) fun _ => only_done) fun github =>
        only_orRedirect (only_bind (only_ask rfl rfl rfl rfl) fun _ => only_mapErr) fun existing => ?_
      split_ifs
      · exact only_callbackLogin hlogs
      · exact only_callbackBind hop

theorem only_githubCallback {headers : HeaderMap} {params : GithubCallbackParams} :
    (githubCallback config headers params).Only (Op.githubCallback headers params).MayAsk := by
  refine only_bind (only_ask rfl rfl rfl rfl) fun limited => ?_
  cases limited with
  | error e => exact only_done
  | ok _ =>
    refine only_bind (only_ask rfl rfl rfl rfl) fun limited => ?_
    cases limited with
    | error e => exact only_done
    | ok _ =>
      dsimp only
      split
      · exact only_done
      · rename_i token htoken
        have hstate : params.state = some token := (Option.filter_eq_some_iff.mp htoken).1
        refine only_bind (only_query ⟨by simp [Query.starter], ?_, by simp [Query.issues],
          by simp [Query.binds]⟩)
          fun answer => ?_
        · simpa [Query.consumes, Op.state] using hstate
        · split
          · exact only_done
          · exact only_callbackWith rfl rfl

theorem only_unbindAll {user : Uuid} {identities : List Identity} :
    (unbindAll user identities).Only op.MayAsk := by
  induction identities with
  | nil => exact only_done
  | cons i rest ih =>
    unfold unbindAll
    split_ifs
    · exact only_bind (only_ask rfl rfl rfl rfl) fun _ => only_bind only_mapErr fun _ => ih
    · exact ih

end Parts

theorem only_program (op : Op) : (op.program config).Only op.MayAsk := by
  cases op with
  | phiraLogin headers body =>
    exact only_bind only_checkLogin fun _ => only_bind (only_ask rfl rfl rfl rfl) fun _ =>
      only_bind only_done fun _ => only_bind (only_ask rfl rfl rfl rfl) fun _ => only_bind only_mapErr
        fun _ => only_bind only_acceptanceForLogin fun _ => only_bind only_commitLogin fun _ =>
          only_bind only_recordAcceptance fun _ => only_bind (only_issueSession rfl) fun _ =>
            only_bind only_done fun _ => only_done
  | githubStart auth headers =>
    refine only_bind only_failIf fun _ => only_bind only_failIf fun _ =>
      only_bind (only_ask rfl rfl rfl rfl) fun _ => only_bind only_done fun _ =>
        only_bind (only_ask rfl rfl rfl rfl) fun _ => only_bind only_done fun _ =>
          only_bind only_authorizeUrl fun token => only_bind (only_query ?_) fun _ => only_done
    exact ⟨by simp [Query.starter, Op.starter], by simp [Query.consumes],
      by simp [Query.issues], by simp [Query.binds]⟩
  | githubLoginStart headers params =>
    refine only_bind only_failIf fun _ => only_bind only_ofOption fun _ => only_bind only_failIf
      fun _ => only_bind (only_ask rfl rfl rfl rfl) fun _ => only_bind only_done fun _ =>
        only_bind (only_ask rfl rfl rfl rfl) fun _ => only_bind only_done fun _ =>
          only_bind only_done fun _ => only_bind only_done fun _ =>
            only_bind only_authorizeUrl fun token => only_bind (only_query ?_) fun _ => only_done
    exact ⟨by simp [Query.starter, Op.starter], by simp [Query.consumes],
      by simp [Query.issues], by simp [Query.binds]⟩
  | githubCallback headers params => exact only_githubCallback
  | githubUnbind auth =>
    exact only_bind only_failIf fun _ => only_bind (only_ask rfl rfl rfl rfl) fun _ =>
      only_bind only_mapErr fun _ => only_bind only_unbindAll fun _ => only_done

/-- The system: the store and the requests in progress. -/
abbrev System := Shared.Pool Query Query.Answer Db Op ApiError Reply

/-- A configuration, for concrete runs. -/
def sampleConfig : Config :=
  { githubConfigured := true
    legal := ⟨true, "2024-01", "2024-02", "https://ppf/terms", "https://ppf/privacy"⟩
    returnToAllowlist := [], ppfUrl := "https://ppf", panelUrl := "https://panel" }

end Ppb.Accounts
