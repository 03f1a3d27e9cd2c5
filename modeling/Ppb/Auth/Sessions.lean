import Ppb.Common.SharedStore
import Ppb.Common.Table
import Ppb.Middleware.Headers
import Ppb.Server.World

/-!
# Sessions (`auth/session.rs`, refresh and logout of `auth/routes.rs`)

A session is a row of `sessions`; the refresh token that belongs to it is stored as a
hash only. `refresh` looks a session up by the hash of the token in the cookie and
then replaces that hash by the one of a new token: two statements, with other
statements of the same request in between, and other requests too.

`exec hash db e`: the tables after the question and answer `e`. The database has a
clock that only moves forward; a statement is answered at a time of that clock, which
is part of the answer. New tokens are 256 random bits, so a statement never stores a
hash that was stored before.

* `Effect`, `exec_effect`: what a statement can do to the sessions.
* `Op.program`: the requests and the action that read or write them.

Deviation: the server has a database: the error of `require_db` is left out.
-/

namespace Ppb.Sessions

open Middleware

/-! ## Tables -/

/-- `Session` (auth/session.rs:11-23), without the device and the times it was created
    and last seen. The `CHECK`s of the schema make its two types enumerations. -/
structure Session where
  id : Uuid
  principalType : PrincipalType
  userId : Option Uuid
  clientType : ClientType
  refreshHash : String
  expiresAt : ℕ
  revokedAt : Option ℕ
  deriving DecidableEq, Repr

/-- `Session::is_active` (auth/session.rs:26-28), and the condition
    `revoked_at IS NULL AND expires_at > now()` of the statements. -/
def Session.isActive (s : Session) (now : ℕ) : Bool := s.revokedAt.isNone && now < s.expiresAt

/-- `PRIMARY KEY (id)`. -/
def SessionKeys (a b : Session) : Prop := a.id ≠ b.id

instance : DecidableRel SessionKeys := fun a b => inferInstanceAs (Decidable (a.id ≠ b.id))

structure Db where
  sessions : Table Session SessionKeys
  /-- every refresh token that was stored, with its session, the latest first -/
  tokens : List (Uuid × String)
  clock : ℕ

namespace Db

/-- The tables of a new installation. -/
def empty : Db := ⟨.empty, [], 0⟩

/-- Two sessions with the same id are the same. -/
theorem session_unique {db : Db} {s s' : Session} (hs : s ∈ db.sessions) (hs' : s' ∈ db.sessions)
    (hid : s.id = s'.id) : s = s' := by
  rcases Table.eq_or_compat hs hs' with heq | hne | hne
  · exact heq
  · exact absurd hid hne
  · exact absurd hid.symm hne

/-- The refresh token of the last login or rotation of a session. -/
def latest (db : Db) (id : Uuid) : Option String :=
  (db.tokens.find? fun t => t.1 == id).map (·.2)

/-- `SELECT EXISTS(SELECT 1 FROM sessions WHERE id = $1 AND …)` (middleware/auth.rs:33-36). -/
def isLive (db : Db) (id : Uuid) : Bool :=
  db.sessions.rows.any fun s => s.id == id && s.isActive db.clock

end Db

/-! ## Statements -/

inductive Stmt where
  /-- `INSERT INTO sessions`, with the hash of a new token (auth/session.rs:60-77) -/
  | insertSession (principalType : PrincipalType) (userId : Option Uuid) (clientType : ClientType)
      (token : String) (expiresAt : ℕ)
  /-- `find_active_by_refresh_hash` (auth/session.rs:80-94) -/
  | findActiveByRefreshHash (refreshHash : String)
  /-- `find_by_id` (auth/session.rs:96-106) -/
  | findById (id : Uuid)
  /-- the liveness check (middleware/auth.rs:32-41) -/
  | isLive (id : Uuid)
  /-- `SET refresh_hash = $1 WHERE id = $2`, with the hash of a new token
      (auth/routes.rs:434) -/
  | rotate (id : Uuid) (token : String)
  /-- `revoke` (auth/session.rs:108-115) -/
  | revoke (id : Uuid)
  /-- `revoke_all_for_user` (auth/session.rs:117-124) -/
  | revokeAllForUser (user : Uuid)
  /-- `SELECT id FROM users WHERE phira_id = $1` (actions/executor.rs:92) -/
  | findUser (phiraId : Int64)
  /-- `load_phira_credential` (identities/repo.rs:120-134) -/
  | loadPhiraCredential (user : Uuid)
  /-- `mark_reauth_required` (identities/repo.rs:136-145) -/
  | markReauthRequired (user : Uuid)
  deriving DecidableEq

/-- What a statement returns. -/
@[reducible]
def Stmt.Row : Stmt → Type
  | .insertSession .. => Session
  | .findActiveByRefreshHash _ | .findById _ => Option Session
  | .isLive _ => Bool
  | .findUser _ => Option Uuid
  /- `refresh_expires_at` and `state` -/
  | .loadPhiraCredential _ => Option (ℕ × String)
  | .rotate .. | .revoke _ | .revokeAllForUser _ | .markReauthRequired _ => Unit

/-- What a program asks for. -/
inductive Query where
  | now
  | newUuid
  /-- `generate_refresh_token` (auth/session.rs:32-36) -/
  | generateRefreshToken
  | sql (stmt : Stmt)
  deriving DecidableEq

/-- A statement is answered at a time of the database. -/
@[reducible]
def Query.Answer : Query → Type
  | .now => ℕ
  | .newUuid => Uuid
  | .generateRefreshToken => String
  | .sql stmt => ℕ × Except DbError stmt.Row

variable (hash : String → String)

/-- No token with this hash was stored so far. -/
def Fresh (db : Db) (token : String) : Prop := ∀ t ∈ db.tokens, hash t.2 ≠ hash token

instance (db : Db) (token : String) : Decidable (Fresh hash db token) :=
  inferInstanceAs (Decidable (∀ t ∈ db.tokens, _))

/-- The row of a new session (auth/session.rs:60-77). -/
def newSession (id : Uuid) (principalType : PrincipalType) (userId : Option Uuid)
    (clientType : ClientType) (token : String) (expiresAt : ℕ) : Session :=
  ⟨id, principalType, userId, clientType, hash token, expiresAt, none⟩

/-- `SET refresh_hash`. -/
def Session.setHash (refreshHash : String) (s : Session) : Session :=
  { s with refreshHash := refreshHash }

/-- `SET revoked_at`. -/
def Session.setRevoked (now : ℕ) (s : Session) : Session := { s with revokedAt := some now }

/-- The tables after a statement that succeeds with `row`; `none` if it does not
    return that. Users and credentials are written elsewhere, so any answer about them
    is possible. -/
def Db.run (db : Db) : (stmt : Stmt) → stmt.Row → Option Db
  | .insertSession principalType userId clientType token expiresAt, s =>
    if s = newSession hash s.id principalType userId clientType token expiresAt ∧
        Fresh hash db token then
      (db.sessions.insert s).map fun sessions =>
        { db with sessions := sessions, tokens := (s.id, token) :: db.tokens }
    else none
  | .findActiveByRefreshHash refreshHash, row =>
    match row with
    | some s => if s ∈ db.sessions.rows ∧ s.refreshHash = refreshHash ∧ s.isActive db.clock = true
        then some db else none
    | none => if ∀ s ∈ db.sessions.rows, ¬ (s.refreshHash = refreshHash ∧ s.isActive db.clock = true)
        then some db else none
  | .findById id, row => if row = db.sessions.rows.find? (·.id == id) then some db else none
  | .isLive id, live => if live = db.isLive id then some db else none
  | .rotate id token, () =>
    if Fresh hash db token then
      (db.sessions.update (·.id == id) (Session.setHash (hash token))).map fun sessions =>
        { db with sessions := sessions, tokens := (id, token) :: db.tokens }
    else none
  | .revoke id, () =>
    (db.sessions.update (·.id == id) (Session.setRevoked db.clock)).map fun sessions =>
      { db with sessions := sessions }
  | .revokeAllForUser user, () =>
    (db.sessions.update (fun s => s.userId == some user && s.revokedAt.isNone)
      (Session.setRevoked db.clock)).map fun sessions => { db with sessions := sessions }
  | .findUser _, _ => some db
  | .loadPhiraCredential _, _ => some db
  | .markReauthRequired _, _ => some db

/-- The tables after a statement, which may fail and then changes nothing. -/
def Db.answer (db : Db) (stmt : Stmt) : Except DbError stmt.Row → Option Db
  | .ok row => db.run hash stmt row
  | .error .other => some db
  | .error .rowNotFound => none

/-- The tables after a question and its answer; `none` if it is not answered so. The
    server has a clock of its own. -/
def exec (db : Db) (e : Event Query Query.Answer) : Option Db :=
  match e with
  | ⟨.now, _⟩ => some db
  | ⟨.newUuid, _⟩ => some db
  | ⟨.generateRefreshToken, _⟩ => some db
  | ⟨.sql stmt, a⟩ =>
    if db.clock ≤ a.1 then { db with clock := a.1 }.answer hash stmt a.2 else none

/-! ## What a statement does -/

variable {hash} {db db' : Db}

/-- What a statement can do to the sessions and the tokens. -/
inductive Effect (hash : String → String) (db db' : Db) : Prop
  | unchanged (hsessions : db'.sessions = db.sessions) (htokens : db'.tokens = db.tokens)
  | inserted (s : Session) (token : String) (hhash : s.refreshHash = hash token)
      (hfresh : Fresh hash db token) (hnew : ∀ x ∈ db.sessions, x.id ≠ s.id)
      (hsessions : ∀ x, x ∈ db'.sessions ↔ x ∈ db.sessions ∨ x = s)
      (htokens : db'.tokens = (s.id, token) :: db.tokens)
  | rotated (id : Uuid) (token : String) (hfresh : Fresh hash db token)
      (hsessions : ∀ x, x ∈ db'.sessions ↔
        ∃ s ∈ db.sessions, (if s.id == id then s.setHash (hash token) else s) = x)
      (htokens : db'.tokens = (id, token) :: db.tokens)
  | revoked (p : Session → Bool)
      (hsessions : ∀ x, x ∈ db'.sessions ↔
        ∃ s ∈ db.sessions, (if p s then s.setRevoked db'.clock else s) = x)
      (htokens : db'.tokens = db.tokens)

theorem run_rotate {id : Uuid} {token : String} (h : db.run hash (.rotate id token) () = some db') :
    Fresh hash db token ∧ db'.clock = db.clock ∧ db'.tokens = (id, token) :: db.tokens ∧
      ∀ x, x ∈ db'.sessions ↔
        ∃ s ∈ db.sessions, (if s.id == id then s.setHash (hash token) else s) = x := by
  simp only [Db.run] at h
  split_ifs at h with hfresh
  obtain ⟨sessions, hupdate, rfl⟩ := Option.map_eq_some_iff.mp h
  exact ⟨hfresh, rfl, rfl, fun x => Table.mem_update hupdate⟩

theorem run_effect {stmt : Stmt} {row : stmt.Row} (h : db.run hash stmt row = some db') :
    db'.clock = db.clock ∧ Effect hash db db' := by
  cases stmt with
  | insertSession principalType userId clientType token expiresAt =>
    simp only [Db.run] at h
    split_ifs at h with hs
    obtain ⟨sessions, hinsert, rfl⟩ := Option.map_eq_some_iff.mp h
    refine ⟨rfl, .inserted row token ?_ hs.2 ?_ (fun x => Table.mem_insert hinsert) rfl⟩
    · rw [hs.1]
      rfl
    · intro x hx
      have hkeys : SessionKeys x row := Table.compat_of_insert hinsert hx
      exact hkeys
  | findActiveByRefreshHash refreshHash =>
    cases row with
    | none =>
      simp only [Db.run] at h
      split_ifs at h
      obtain rfl := Option.some.inj h
      exact ⟨rfl, .unchanged rfl rfl⟩
    | some s =>
      simp only [Db.run] at h
      split_ifs at h
      obtain rfl := Option.some.inj h
      exact ⟨rfl, .unchanged rfl rfl⟩
  | findById id =>
    simp only [Db.run] at h
    split_ifs at h
    obtain rfl := Option.some.inj h
    exact ⟨rfl, .unchanged rfl rfl⟩
  | isLive id =>
    simp only [Db.run] at h
    split_ifs at h
    obtain rfl := Option.some.inj h
    exact ⟨rfl, .unchanged rfl rfl⟩
  | rotate id token =>
    obtain ⟨hfresh, hclock, htokens, hsessions⟩ := run_rotate h
    exact ⟨hclock, .rotated id token hfresh hsessions htokens⟩
  | revoke id =>
    obtain ⟨sessions, hupdate, rfl⟩ := Option.map_eq_some_iff.mp h
    exact ⟨rfl, .revoked _ (fun x => Table.mem_update hupdate) rfl⟩
  | revokeAllForUser user =>
    obtain ⟨sessions, hupdate, rfl⟩ := Option.map_eq_some_iff.mp h
    exact ⟨rfl, .revoked _ (fun x => Table.mem_update hupdate) rfl⟩
  | findUser phiraId =>
    obtain rfl := Option.some.inj h
    exact ⟨rfl, .unchanged rfl rfl⟩
  | loadPhiraCredential user =>
    obtain rfl := Option.some.inj h
    exact ⟨rfl, .unchanged rfl rfl⟩
  | markReauthRequired user =>
    obtain rfl := Option.some.inj h
    exact ⟨rfl, .unchanged rfl rfl⟩

/-- A statement that succeeds is answered at a time that is not past. -/
theorem exec_ok {stmt : Stmt} {t : ℕ} {row : stmt.Row}
    (h : exec hash db ⟨.sql stmt, (t, .ok row)⟩ = some db') :
    db.clock ≤ t ∧ { db with clock := t }.run hash stmt row = some db' := by
  simp only [exec] at h
  split_ifs at h with ht
  exact ⟨ht, h⟩

/-- The effect does not depend on the time before. -/
theorem Effect.of_clock {t : ℕ} (h : Effect hash { db with clock := t } db') :
    Effect hash db db' := by
  cases h with
  | unchanged hsessions htokens => exact .unchanged hsessions htokens
  | inserted s token hhash hfresh hnew hsessions htokens =>
    exact .inserted s token hhash hfresh hnew hsessions htokens
  | rotated id token hfresh hsessions htokens => exact .rotated id token hfresh hsessions htokens
  | revoked p hsessions htokens => exact .revoked p hsessions htokens

theorem exec_effect {e : Event Query Query.Answer} (h : exec hash db e = some db') :
    db.clock ≤ db'.clock ∧ Effect hash db db' := by
  obtain ⟨q, a⟩ := e
  cases q with
  | now | newUuid | generateRefreshToken =>
    obtain rfl := Option.some.inj h
    exact ⟨le_rfl, .unchanged rfl rfl⟩
  | sql stmt =>
    obtain ⟨t, r⟩ := a
    match r with
    | .ok row =>
      obtain ⟨ht, hrun⟩ := exec_ok h
      obtain ⟨hclock, heffect⟩ := run_effect hrun
      exact ⟨by rw [hclock]; exact ht, heffect.of_clock⟩
    | .error .other =>
      simp only [exec, Db.answer] at h
      split_ifs at h with ht
      obtain rfl := Option.some.inj h
      exact ⟨ht, .unchanged rfl rfl⟩
    | .error .rowNotFound =>
      simp [exec, Db.answer] at h

/-- What a new token and a revocation leave as it is stays true of a session. -/
theorem Effect.keeps {K : Session → Prop} (heffect : Effect hash db db')
    (hhash : ∀ s h, K s → K (s.setHash h)) (hrevoked : ∀ s t, K s → K (s.setRevoked t))
    (hK : ∃ s ∈ db.sessions, K s) : ∃ s ∈ db'.sessions, K s := by
  obtain ⟨s, hs, hK⟩ := hK
  cases heffect with
  | unchanged hsessions _ => exact ⟨s, hsessions ▸ hs, hK⟩
  | inserted _ _ _ _ _ hsessions _ => exact ⟨s, (hsessions s).mpr (.inl hs), hK⟩
  | rotated id token _ hsessions _ =>
    refine ⟨_, (hsessions _).mpr ⟨s, hs, rfl⟩, ?_⟩
    split_ifs
    · exact hhash s _ hK
    · exact hK
  | revoked p hsessions _ =>
    refine ⟨_, (hsessions _).mpr ⟨s, hs, rfl⟩, ?_⟩
    split_ifs
    · exact hrevoked s _ hK
    · exact hK

/-! ## Programs -/

open Prog

abbrev Handler (ε α : Type) := Prog Query Query.Answer ε α

/-- Run a statement. -/
def sql {ε : Type} (stmt : Stmt) : Handler ε (Except DbError stmt.Row) :=
  query (.sql stmt) >>= fun answer : ℕ × Except DbError stmt.Row => pure answer.2

/-- How a request fails. The errors of an action are texts, that of a statement among
    them. -/
inductive Failure where
  | api (e : ApiError)
  | db (e : DbError)
  | text (message : String)
  deriving DecidableEq

def apiError (code : ErrorCode) (message : String) : Failure := .api (.new code message)

/-- `.map_err(..)?`. -/
def mapErr {α ε : Type} (f : DbError → ε) : Except DbError α → Handler ε α
  | .ok a => pure a
  | .error e => .fail (f e)

/-- `db_err` of auth/session.rs:135-142. -/
def sessionErr (e : DbError) : Failure := .api (dbErr .resourceNotFound "session not found" e)

/-- `db_err` of identities/repo.rs. -/
def identityErr (e : DbError) : Failure := .api (dbErr .resourceNotFound "not found" e)

/-- The secrets and the configuration, as far as they matter here. -/
structure Env where
  /-- `hash_refresh_token`: SHA-256 in hexadecimal (auth/session.rs:39-42) -/
  hash : String → String
  /-- `encode_access` of claims that are issued at a time (auth/jwt.rs:32-63) -/
  encode : ℕ → AccessClaims → Option String
  /-- `decode_access` at a time -/
  decode : ℕ → String → Option AccessClaims
  refreshTtlSecs : ℕ

/-- The tokens a response carries in its cookies. -/
structure Tokens where
  sid : Uuid
  access : String
  refresh : String
  deriving DecidableEq

/-- How a request or an action ends well. -/
inductive Reply where
  | issued (tokens : Tokens)
  | done
  deriving DecidableEq

variable (env : Env)

/-- Sign the access token of a session (auth/routes.rs:213-222, 445-453). The `sub` of
    Root is nil. -/
def issueAccess (sess : Session) (refresh : String) : Handler Failure Reply := do
  let now ← query .now
  let access ← ofOption (.api .internal) (env.encode now
    ⟨sess.userId.getD Uuid.nil, sess.id, sess.principalType, sess.clientType⟩)
  return .issued ⟨sess.id, access, refresh⟩

/-- `issue_session_and_jwt` (auth/routes.rs:192-224), the end of every login. -/
def issueSessionAndJwt (principalType : PrincipalType) (userId : Option Uuid)
    (clientType : ClientType) : Handler Failure Reply := do
  let refreshToken ← query .generateRefreshToken
  let now ← query .now
  let inserted ← sql (.insertSession principalType userId clientType refreshToken
    (now + env.refreshTtlSecs))
  let sess ← mapErr sessionErr inserted
  issueAccess env sess refreshToken

/-- The gate of `refresh` for ordinary users: their Phira credential must be active and
    not expired (auth/routes.rs:411-428). -/
def credentialGate (sess : Session) : Handler Failure Unit :=
  match sess.principalType, sess.userId with
  | .user, some user => do
    let credential ← sql (.loadPhiraCredential user)
    let credential ← mapErr identityErr credential
    match credential with
    | none => pure ()
    | some (refreshExpiresAt, state) =>
      let now ← query .now
      if refreshExpiresAt ≤ now ∨ state ≠ "active" then
        let marked ← sql (.markReauthRequired user)
        mapErr identityErr marked
        .fail (apiError .phiraReauthRequired "需要重新验证 Phira 身份")
      else pure ()
  | _, _ => pure ()

/-- `refresh` (auth/routes.rs:397-456), for the value of the refresh cookie. -/
def refresh (cookie : Option String) : Handler Failure Reply := do
  let refreshToken ← ofOption (apiError .sessionExpired "missing refresh cookie") cookie
  let found ← sql (.findActiveByRefreshHash (env.hash refreshToken))
  let found ← mapErr sessionErr found
  let sess ← ofOption (apiError .sessionExpired "refresh token invalid or expired") found
  credentialGate sess
  let newRefresh ← query .generateRefreshToken
  let rotated ← sql (.rotate sess.id newRefresh)
  mapErr (fun _ => .api .internal) rotated
  issueAccess env sess newRefresh

/-- `revoke` (auth/session.rs:108-115). -/
def revoke (id : Uuid) : Handler Failure Reply := do
  let revoked ← sql (.revoke id)
  mapErr sessionErr revoked
  return .done

/-- `logout` (auth/routes.rs:470-499), for the values of the two cookies. -/
def logout (refreshToken accessToken : Option String) : Handler Failure Reply :=
  match refreshToken, accessToken with
  | some token, _ => do
    let found ← sql (.findActiveByRefreshHash (env.hash token))
    let found ← mapErr sessionErr found
    match found with
    | some sess => revoke sess.id
    | none => return .done
  | none, some token => do
    let now ← query .now
    match env.decode now token with
    | some claims => revoke claims.sid
    | none => return .done
  | none, none => return .done

/-- `me_session_revoke` (app.rs:634-653). -/
def meSessionRevoke (auth : AuthPrincipal) (id : Uuid) : Handler Failure Reply := do
  failIf (auth.isRoot = true) (.api .permissionDenied)
  failIf (id = auth.sid)
    (apiError .currentSessionRevokeForbidden "current session must use logout")
  let found ← sql (.findById id)
  let found ← mapErr sessionErr found
  let target ← ofOption (apiError .resourceNotFound "session not found") found
  let now ← query .now
  failIf (target.userId ≠ some auth.sub ∨ target.isActive now = false)
    (apiError .resourceNotFound "session not found")
  revoke id

/-- The action `user.revoke_sessions` (actions/executor.rs:88-101), for `args.user_id`. -/
def userRevokeSessions (phiraId : Option Int64) : Handler Failure Reply := do
  let phiraId ← ofOption (.text "user.revoke_sessions requires args.user_id") phiraId
  let row ← sql (.findUser phiraId)
  let row ← mapErr .db row
  let user ← ofOption (.text "user not found") row
  let revoked ← sql (.revokeAllForUser user)
  mapErr sessionErr revoked
  return .done

/-- The requests, and the action, that read or write sessions. -/
inductive Op where
  | login (principalType : PrincipalType) (userId : Option Uuid) (clientType : ClientType)
  | refresh (cookie : Option String)
  | logout (refreshToken accessToken : Option String)
  | meSessionRevoke (auth : AuthPrincipal) (id : Uuid)
  | userRevokeSessions (phiraId : Option Int64)
  deriving DecidableEq

def Op.program : Op → Handler Failure Reply
  | .login principalType userId clientType => issueSessionAndJwt env principalType userId clientType
  | .refresh cookie => Sessions.refresh env cookie
  | .logout refreshToken accessToken => Sessions.logout env refreshToken accessToken
  | .meSessionRevoke auth id => Sessions.meSessionRevoke auth id
  | .userRevokeSessions phiraId => Sessions.userRevokeSessions phiraId

/-- The system: the tables and the requests in progress. -/
abbrev System := Shared.Pool Query Query.Answer Db Op Failure Reply

end Ppb.Sessions
