import Ppb.Common.SharedStore
import Ppb.Common.Table
import Ppb.Middleware.Headers
import Ppb.Server.Sql

/-!
# Users, identities, acceptances and OAuth states

The tables that a login reads and writes, and the state tokens of GitHub logins, which
the server keeps in memory (`auth/github.rs`).

`exec db e`: the store after the question and answer `e`. State tokens are 192 random
bits, so a new one was never handed out before.

`Effect`, `exec_effect`: what a question can do to the store.

Deviation: `authorize_url` looks at the number of states and inserts its own in one event. In the
source others may insert theirs in between, so a few more states than the maximum can be pending.
-/

namespace Ppb.Accounts

open Middleware

/-! ## Tables -/

inductive Provider where
  | phira | github
  deriving DecidableEq, Repr

/-- `UserIdentity`: the columns that are looked at. -/
structure Identity where
  userId : Uuid
  provider : Provider
  providerId : String
  deriving DecidableEq, Repr

/-- A row of `account_legal_acceptances`, without its client and source. -/
structure Acceptance where
  userId : Uuid
  termsVersion : String
  privacyVersion : String
  deriving DecidableEq, Repr

/-- `OAuthState::mode`. -/
inductive Mode where
  | pending | bind | login
  deriving DecidableEq, Repr

/-- `OAuthState` (auth/github.rs:34-43). -/
structure OAuthState where
  userId : Option Uuid
  clientType : String
  mode : Mode
  returnTo : String
  acceptedLegal : Bool
  termsVersion : String
  privacyVersion : String
  createdAt : ℕ
  deriving DecidableEq, Repr

/-- `STATE_TTL_SECS` (auth/github.rs:28). -/
def stateTtlSecs : ℕ := 600

/-- `MAX_PENDING_STATES` (auth/github.rs:29). -/
def maxPendingStates : ℕ := 2048

/-- `PRIMARY KEY (id)` and `UNIQUE (phira_id)` of `users`. -/
def UserKeys (a b : User) : Prop := a.id ≠ b.id ∧ a.phiraId ≠ b.phiraId

instance : DecidableRel UserKeys := fun a b =>
  inferInstanceAs (Decidable (a.id ≠ b.id ∧ a.phiraId ≠ b.phiraId))

/-- `UNIQUE (provider, provider_id)` of `user_identities`. -/
def IdentityKeys (a b : Identity) : Prop :=
  (a.provider, a.providerId) ≠ (b.provider, b.providerId)

instance : DecidableRel IdentityKeys := fun a b =>
  inferInstanceAs (Decidable ((a.provider, a.providerId) ≠ (b.provider, b.providerId)))

/-- A state token and its record: the keys of a map. -/
def StateKeys (a b : String × OAuthState) : Prop := a.1 ≠ b.1

instance : DecidableRel StateKeys := fun a b => inferInstanceAs (Decidable (a.1 ≠ b.1))

/-- Who has started a state: a user who binds, or somebody who logs in. -/
inductive Starter where
  | user (id : Uuid)
  | login
  deriving DecidableEq, Repr

/-- A state that a callback has consumed, and when. -/
structure Consumed where
  token : String
  state : OAuthState
  time : ℕ
  deriving DecidableEq

structure Db where
  users : Table User UserKeys
  identities : Table Identity IdentityKeys
  acceptances : List Acceptance
  /-- the users for whom `issue_session_and_jwt` was called, the latest first -/
  issued : List Uuid
  states : Table (String × OAuthState) StateKeys
  /-- the state tokens handed out so far, and when -/
  drawn : List (String × ℕ)
  /-- who has started which state -/
  starts : List (String × Starter)
  consumed : List Consumed

/-- The tables when the server starts: no states yet. -/
def Db.boot (users : Table User UserKeys) (identities : Table Identity IdentityKeys)
    (acceptances : List Acceptance) : Db :=
  ⟨users, identities, acceptances, [], .empty, [], [], []⟩

namespace Db

/-- `prune_states` (auth/github.rs:212-217). -/
def prune (db : Db) (now : ℕ) : Db :=
  { db with states := db.states.delete fun s =>
      !(s.2.createdAt ≤ now && now - s.2.createdAt < stateTtlSecs) }

/-- The row of a GitHub id. -/
def githubRow (db : Db) (gid : String) : Option Identity :=
  db.identities.rows.find? fun i => i.provider == .github && i.providerId == gid

end Db

/-! ## Questions -/

/-- `GithubUser` (auth/github.rs:46-50). -/
structure GithubUser where
  id : Int64
  login : String
  deriving DecidableEq

inductive Query where
  | rateLimit (key : String)
  /-- `authenticate_phira`: the id of the Phira account -/
  | authenticatePhira (email password : String)
  /-- `exchange_code` (auth/github.rs:150-210) -/
  | exchangeCode (code : String)
  /-- the part of `authorize_url` behind its check (auth/github.rs:75-96) -/
  | authorizeUrl
  /-- `bind_state_to_user` (auth/github.rs:107-114) -/
  | bindStateToUser (token : String) (user : Uuid) (clientType : String)
  /-- `mark_login_state` (auth/github.rs:118-137) -/
  | markLoginState (token returnTo clientType : String) (acceptedLegal : Bool)
      (termsVersion privacyVersion : String)
  /-- `consume_state` (auth/github.rs:140-147) -/
  | consumeState (token : String)
  | findUserByPhiraId (phiraId : Int64)
  /-- `upsert_by_phira_id` (users/repo.rs:33-58) -/
  | upsertUser (phiraId : Int64)
  /-- `upsert_phira_identity` (identities/repo.rs:39-57) -/
  | upsertPhiraIdentity (user : Uuid) (phiraId : Int64)
  /-- encryption and `store_phira_credential` (auth/phira.rs:49-52) -/
  | storePhiraCredential (user : Uuid)
  | ensureUserInDefaultGroup (user : Uuid)
  /-- the statement of `has_current_acceptance` (auth/consent.rs:64-76) -/
  | hasAcceptance (user : Uuid) (termsVersion privacyVersion : String)
  /-- `record_acceptance` (auth/consent.rs:107-129) -/
  | recordAcceptance (user : Uuid) (clientType : ClientType) (termsVersion privacyVersion source : String)
  /-- `find_by_provider(db, "github", ..)` (identities/repo.rs:11-25) -/
  | findGithub (gid : String)
  /-- `bind_github` (identities/repo.rs:60-79) -/
  | bindGithub (user : Uuid) (gid : String)
  /-- `list_for_user` (identities/repo.rs:27-36) -/
  | listForUser (user : Uuid)
  /-- `unbind_github` (identities/repo.rs:81-92) -/
  | unbindGithub (user : Uuid) (gid : String)
  /-- `issue_session_and_jwt` for a user -/
  | issueSession (user : Uuid) (clientType : ClientType)
  deriving DecidableEq

@[reducible]
def Query.Answer : Query → Type
  | .rateLimit _ | .storePhiraCredential _ | .ensureUserInDefaultGroup _ | .issueSession .. =>
    Except ApiError Unit
  | .authenticatePhira .. => Except ApiError Int64
  | .exchangeCode _ => Except ApiError GithubUser
  /- the time, and the new token unless too many are pending -/
  | .authorizeUrl => ℕ × Option String
  | .bindStateToUser .. | .markLoginState .. => Unit
  | .consumeState _ => ℕ × Option OAuthState
  | .findUserByPhiraId _ => Except DbError (Option User)
  | .upsertUser _ => Except DbError User
  | .hasAcceptance .. => Except DbError Bool
  | .findGithub _ => Except DbError (Option Identity)
  | .listForUser _ => Except DbError (List Identity)
  | .upsertPhiraIdentity .. | .recordAcceptance .. | .bindGithub .. | .unbindGithub .. =>
    Except DbError Unit

/-- The record of a new state token (auth/github.rs:84-95). -/
def pendingState (now : ℕ) : OAuthState :=
  { userId := none, clientType := "", mode := .pending, returnTo := "/", acceptedLegal := false,
    termsVersion := "", privacyVersion := "", createdAt := now }

namespace Db

/-- `authorize_url`, which prunes first (auth/github.rs:76-97), in one event. -/
def drawState (db : Db) (now : ℕ) : Option String → Option Db
  | none => if maxPendingStates ≤ (db.prune now).states.rows.length then some (db.prune now) else none
  | some token =>
    if (db.prune now).states.rows.length < maxPendingStates ∧
        ∀ d ∈ db.drawn, d.1 ≠ token then
      ((db.prune now).states.insert (token, pendingState now)).map fun states =>
        { db with states := states, drawn := (token, now) :: db.drawn }
    else none

/-- `states.get_mut(token)`. -/
def setState (db : Db) (token : String) (starter : Starter) (f : OAuthState → OAuthState) :
    Option Db :=
  (db.states.update (·.1 == token) fun s => (s.1, f s.2)).map fun states =>
    { db with
      states := states
      starts := if db.states.rows.any (·.1 == token) then (token, starter) :: db.starts
        else db.starts }

/-- `consume_state`, which prunes first. -/
def consumeState (db : Db) (token : String) (now : ℕ) : Option OAuthState → Option Db
  | none => if ∀ s ∈ (db.prune now).states.rows, s.1 ≠ token then some (db.prune now) else none
  | some state =>
    if (token, state) ∈ (db.prune now).states.rows then
      some { db with
        states := (db.prune now).states.delete (·.1 == token)
        consumed := ⟨token, state, now⟩ :: db.consumed }
    else none

/-- `INSERT … ON CONFLICT (phira_id) DO UPDATE … RETURNING`. -/
def upsertUser (db : Db) (phiraId : Int64) (user : User) : Option Db :=
  if user.phiraId = phiraId then
    if user ∈ db.users.rows then some db
    else (db.users.insert user).map fun users => { db with users := users }
  else none

/-- `INSERT INTO user_identities … ON CONFLICT`, which leaves an existing row. -/
def insertIdentity (db : Db) (identity : Identity) : Option Db :=
  if ∃ i ∈ db.identities.rows, ¬ IdentityKeys i identity then some db
  else (db.identities.insert identity).map fun identities => { db with identities := identities }

end Db

/-- The store after a question and its answer; `none` if it is not answered so. -/
def exec (db : Db) (e : Event Query Query.Answer) : Option Db :=
  match e with
  | ⟨.rateLimit _, _⟩ | ⟨.authenticatePhira _ _, _⟩ | ⟨.exchangeCode _, _⟩ => some db
  | ⟨.storePhiraCredential _, _⟩ | ⟨.ensureUserInDefaultGroup _, _⟩ => some db
  | ⟨.authorizeUrl, a⟩ => db.drawState a.1 a.2
  | ⟨.bindStateToUser token user clientType, _⟩ => db.setState token (.user user) fun s =>
      { s with userId := some user, clientType := clientType, mode := .bind, returnTo := "/profile" }
  | ⟨.markLoginState token returnTo clientType acceptedLegal termsVersion privacyVersion, _⟩ =>
    db.setState token .login fun s =>
      { s with
        userId := none, clientType := clientType, mode := .login, returnTo := returnTo
        acceptedLegal := acceptedLegal, termsVersion := termsVersion
        privacyVersion := privacyVersion }
  | ⟨.consumeState token, a⟩ => db.consumeState token a.1 a.2
  | ⟨.findUserByPhiraId phiraId, a⟩ => reads db (db.users.rows.find? (·.phiraId == phiraId)) a
  | ⟨.upsertUser phiraId, a⟩ => orUnchanged db (db.upsertUser phiraId) a
  | ⟨.upsertPhiraIdentity user phiraId, a⟩ =>
    orUnchanged db (fun _ => db.insertIdentity ⟨user, .phira, toString phiraId.toInt⟩) a
  | ⟨.hasAcceptance user termsVersion privacyVersion, a⟩ =>
    reads db (decide (⟨user, termsVersion, privacyVersion⟩ ∈ db.acceptances)) a
  | ⟨.recordAcceptance user _ termsVersion privacyVersion _, a⟩ => orUnchanged db (fun _ => some
      { db with acceptances := db.acceptances.insert ⟨user, termsVersion, privacyVersion⟩ }) a
  | ⟨.findGithub gid, a⟩ => reads db (db.githubRow gid) a
  | ⟨.bindGithub user gid, a⟩ =>
    orUnchanged db (fun _ => db.insertIdentity ⟨user, .github, gid⟩) a
  | ⟨.listForUser user, a⟩ => orUnchanged db (fun identities =>
      if identities.Perm (db.identities.rows.filter (·.userId == user)) then some db else none) a
  | ⟨.unbindGithub user gid, a⟩ => orUnchanged db (fun _ => some
      { db with identities := db.identities.delete fun i => i == ⟨user, .github, gid⟩ }) a
  | ⟨.issueSession user _, _⟩ => some { db with issued := user :: db.issued }

/-! ## What a question does -/

variable {db db' : Db}

/-- The record of a state after its start. -/
def Starter.Marks : Starter → OAuthState → Prop
  | .user id, s => s.mode = .bind ∧ s.userId = some id
  | .login, s => s.mode = .login ∧ s.userId = none

/-- The question starts a state. -/
def Query.starter : Query → Option Starter
  | .bindStateToUser _ user _ => some (.user user)
  | .markLoginState .. => some .login
  | _ => none

/-- The token of the state it starts. -/
def Query.starts : Query → Option String
  | .bindStateToUser token _ _ => some token
  | .markLoginState token _ _ _ _ _ => some token
  | _ => none

/-- The question consumes a state. -/
def Query.consumes : Query → Option String
  | .consumeState token => some token
  | _ => none

/-- The question creates a session. -/
def Query.issues : Query → Option Uuid
  | .issueSession user _ => some user
  | _ => none

/-- The question binds a GitHub account. -/
def Query.binds : Query → Option Uuid
  | .bindGithub user _ => some user
  | _ => none

/-- What a question can do to the store. -/
inductive Effect (q : Query) (db db' : Db) : Prop
  | unchanged (h : db' = db)
  | upserted (user : User) (h : db.upsertUser user.phiraId user = some db')
  | accepted (a : Acceptance) (h : db' = { db with acceptances := db.acceptances.insert a })
  | issued (user : Uuid) (hq : q.issues = some user)
      (h : db' = { db with issued := user :: db.issued })
  | phira (user : Uuid) (id : String) (h : db.insertIdentity ⟨user, .phira, id⟩ = some db')
  | bound (user : Uuid) (gid : String) (hq : q = .bindGithub user gid)
      (h : db.insertIdentity ⟨user, .github, gid⟩ = some db')
  | unbound (i : Identity) (h : db' = { db with identities := db.identities.delete (· == i) })
  | pruned (now : ℕ) (h : db' = db.prune now)
  | drawn (now : ℕ) (token : String) (h : db.drawState now (some token) = some db')
  | marked (token : String) (starter : Starter) (f : OAuthState → OAuthState)
      (hq : q.starter = some starter) (htoken : q.starts = some token)
      (hf : ∀ s, (f s).createdAt = s.createdAt ∧ starter.Marks (f s))
      (h : db.setState token starter f = some db')
  | consumed (token : String) (state : OAuthState) (now : ℕ) (hq : q.consumes = some token)
      (h : db.consumeState token now (some state) = some db')

theorem upsertUser_cases {phiraId : Int64} {user : User} (h : db.upsertUser phiraId user = some db') :
    db' = db ∨ ∃ users, db.users.insert user = some users ∧ db' = { db with users := users } := by
  unfold Db.upsertUser at h
  split_ifs at h
  · exact .inl (Option.some.inj h).symm
  · obtain ⟨users, hinsert, heq⟩ := Option.map_eq_some_iff.mp h
    exact .inr ⟨users, hinsert, heq.symm⟩

theorem insertIdentity_cases {i : Identity} (h : db.insertIdentity i = some db') :
    (∃ i' ∈ db.identities, ¬ IdentityKeys i' i) ∧ db' = db ∨
      ∃ identities, db.identities.insert i = some identities ∧
        db' = { db with identities := identities } := by
  unfold Db.insertIdentity at h
  split_ifs at h with hconflict
  · exact .inl ⟨hconflict, (Option.some.inj h).symm⟩
  · obtain ⟨identities, hinsert, heq⟩ := Option.map_eq_some_iff.mp h
    exact .inr ⟨identities, hinsert, heq.symm⟩

theorem exec_effect {e : Event Query Query.Answer} (h : exec db e = some db') :
    Effect e.1 db db' := by
  obtain ⟨q, a⟩ := e
  cases q with
  | rateLimit _ | authenticatePhira _ _ | exchangeCode _ | storePhiraCredential _
  | ensureUserInDefaultGroup _ => exact .unchanged (Option.some.inj h).symm
  | authorizeUrl =>
    obtain ⟨now, token⟩ := a
    cases token with
    | none =>
      simp only [exec, Db.drawState] at h
      split_ifs at h
      exact .pruned now (Option.some.inj h).symm
    | some token => exact .drawn now token h
  | bindStateToUser token user clientType =>
    simp only [exec] at h
    refine .marked token (.user user) _ rfl rfl (fun s => ?_) h
    exact ⟨rfl, rfl, rfl⟩
  | markLoginState token returnTo clientType acceptedLegal termsVersion privacyVersion =>
    simp only [exec] at h
    refine .marked token .login _ rfl rfl (fun s => ?_) h
    exact ⟨rfl, rfl, rfl⟩
  | consumeState token =>
    obtain ⟨now, state⟩ := a
    cases state with
    | none =>
      simp only [exec, Db.consumeState] at h
      split_ifs at h
      exact .pruned now (Option.some.inj h).symm
    | some state => exact .consumed token state now rfl h
  | findUserByPhiraId _ | hasAcceptance _ _ _ | findGithub _ =>
    exact .unchanged (reads_cases h).1
  | upsertUser phiraId =>
    rcases orUnchanged_cases h with h | ⟨user, -, h⟩
    · exact .unchanged h
    · have hid : user.phiraId = phiraId := by
        unfold Db.upsertUser at h
        split_ifs at h with hid
        all_goals exact hid
      exact .upserted user (hid ▸ h)
  | upsertPhiraIdentity user phiraId =>
    rcases orUnchanged_cases h with h | ⟨-, -, h⟩
    · exact .unchanged h
    · exact .phira user _ h
  | recordAcceptance user clientType termsVersion privacyVersion source =>
    rcases orUnchanged_cases h with h | ⟨-, -, h⟩
    · exact .unchanged h
    · exact .accepted _ (Option.some.inj h).symm
  | bindGithub user gid =>
    rcases orUnchanged_cases h with h | ⟨-, -, h⟩
    · exact .unchanged h
    · exact .bound user gid rfl h
  | listForUser user =>
    rcases orUnchanged_cases h with h | ⟨identities, -, h⟩
    · exact .unchanged h
    · split_ifs at h
      exact .unchanged (Option.some.inj h).symm
  | unbindGithub user gid =>
    rcases orUnchanged_cases h with h | ⟨-, -, h⟩
    · exact .unchanged h
    · exact .unbound ⟨user, .github, gid⟩ (Option.some.inj h).symm
  | issueSession user clientType => exact .issued user rfl (Option.some.inj h).symm

end Ppb.Accounts
