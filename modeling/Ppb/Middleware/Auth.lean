import Ppb.Auth.Refresh

/-!
# Who is calling (`middleware/auth.rs`)

Two extractors turn a request into a principal. `AuthPrincipal` decodes the access
token and asks the database whether its session is still live. `OptionalAuthPrincipal`,
which the public endpoints and the replays use, decodes the token only: until the
token itself expires, it names a principal whose session is revoked or gone.

* `Closed db sid`: the session is revoked or expired. It stays so (`Closed.exec`).
* `no_principal_iff`: for a session that is not live, no extractor yields a principal if
  and only if the token does not decode any more.
-/

namespace Ppb.Middleware

open Prog Shared Trace Sessions

variable (vendor : Vendor)

/-! ## The extractors -/

section Extractors

variable {ε : Type}

/-- A byte that `is_ascii_graphic` accepts. -/
def isGraphic (c : Char) : Bool := 33 ≤ c.toNat && c.toNat ≤ 126

/-- `read_request_id` (middleware/request_id.rs:25-33). -/
def readRequestId (headers : HeaderMap) : Handler ε String :=
  match ((headers.getStr "x-request-id").map Text.trim).filter fun v =>
      v != "" && v.utf8ByteSize ≤ 128 && v.toList.all isGraphic with
  | some id => pure id
  | none => do
    let id ← query .newUuid
    return Uuid.toText id

/-- The principal of the claims (middleware/auth.rs:50-56, 80-86). -/
def principal (headers : HeaderMap) (claims : AccessClaims) : Handler ε AuthPrincipal := do
  let requestId ← readRequestId headers
  return ⟨claims.sub, claims.sid, claims.principalType, claims.clientType, requestId⟩

/-- The liveness check, when a database is configured (middleware/auth.rs:30-48). -/
def checkLive (hasDb : Bool) (sid : Uuid) : Handler ApiError Unit :=
  if hasDb then do
    let active ← sql (.isLive sid)
    let active ← mapErr (fun _ => .internal) active
    failIf (active = false) (.new .sessionExpired "session inactive")
  else pure ()

/-- `AuthPrincipal::from_request_parts` (middleware/auth.rs:21-57). -/
def authPrincipal (now : ℕ) (hasDb : Bool) (headers : HeaderMap) : Handler ApiError AuthPrincipal := do
  let token ← ofOption (.new .sessionExpired "missing credentials")
    (extractBearerOrCookie vendor headers accessCookie)
  let claims ← ofExcept (decodeAccess vendor now token)
  checkLive hasDb claims.sid
  principal headers claims

/-- `OptionalAuthPrincipal::from_request_parts` (middleware/auth.rs:68-87), which cannot
    fail. -/
def optionalAuthPrincipal (now : ℕ) (headers : HeaderMap) : Handler Empty (Option AuthPrincipal) :=
  match extractBearerOrCookie vendor headers accessCookie with
  | none => return none
  | some token =>
    match decodeAccess vendor now token with
    | .error _ => return none
    | .ok claims => do
      let auth ← principal headers claims
      return some auth

end Extractors

/-! ## Sessions that have ended -/

variable {hash : String → String} {db db' : Db} {sid : Uuid}

/-- No live session has this id: it is revoked, expired or absent. -/
def Dead (db : Db) (sid : Uuid) : Prop := ∀ s ∈ db.sessions, s.id = sid → s.isActive db.clock = false

/-- The session is revoked or expired. -/
def Closed (db : Db) (sid : Uuid) : Prop :=
  ∃ s ∈ db.sessions, s.id = sid ∧ s.isActive db.clock = false

theorem isActive_later {s : Session} {now later : ℕ} (h : s.isActive now = false)
    (hle : now ≤ later) : s.isActive later = false := by
  simp only [Session.isActive, Bool.and_eq_false_iff, decide_eq_false_iff_not] at h ⊢
  rcases h with h | h
  · exact .inl h
  · exact .inr (by omega)

@[simp] theorem isActive_setRevoked (s : Session) (t now : ℕ) :
    (s.setRevoked t).isActive now = false := rfl

@[simp] theorem isActive_setHash (s : Session) (h : String) (now : ℕ) :
    (s.setHash h).isActive now = s.isActive now := rfl

theorem Closed.dead (h : Closed db sid) : Dead db sid := by
  obtain ⟨s, hs, hid, hclosed⟩ := h
  intro s' hs' hid'
  rwa [← Db.session_unique hs hs' (hid.trans hid'.symm)]

/-- A session that has ended stays so. -/
theorem Closed.exec {e : Event Sessions.Query Sessions.Query.Answer} (h : Closed db sid)
    (hexec : Sessions.exec hash db e = some db') : Closed db' sid := by
  obtain ⟨s, hs, hid, hclosed⟩ := h
  obtain ⟨hclock, heffect⟩ := exec_effect hexec
  refine heffect.keeps (K := fun s => s.id = sid ∧ s.isActive db'.clock = false) ?_ ?_
    ⟨s, hs, hid, isActive_later hclosed hclock⟩
  · intro s h hs
    exact ⟨hs.1, by rw [isActive_setHash]; exact hs.2⟩
  · intro s t hs
    exact ⟨hs.1, rfl⟩

/-- A session that `revoke` has found has ended. -/
theorem closed_of_revoke {s : Session} {t : ℕ} (hs : s ∈ db.sessions)
    (hexec : Sessions.exec hash db ⟨.sql (.revoke s.id), (t, .ok ())⟩ = some db') :
    Closed db' s.id := by
  obtain ⟨sessions, hupdate, rfl⟩ := Option.map_eq_some_iff.mp (exec_ok hexec).2
  refine ⟨s.setRevoked t, (Table.mem_update hupdate).mpr ⟨s, hs, ?_⟩, rfl, rfl⟩
  exact if_pos (by simp)

/-- After `revoke_all_for_user` no session of the user is live. -/
theorem closed_of_revokeAllForUser {s : Session} {user : Uuid} {t : ℕ} (hs : s ∈ db.sessions)
    (huser : s.userId = some user)
    (hexec : Sessions.exec hash db ⟨.sql (.revokeAllForUser user), (t, .ok ())⟩ = some db') :
    Closed db' s.id := by
  obtain ⟨sessions, hupdate, rfl⟩ := Option.map_eq_some_iff.mp (exec_ok hexec).2
  refine ⟨_, (Table.mem_update hupdate).mpr ⟨s, hs, rfl⟩, ?_, ?_⟩
  · split_ifs
    · rfl
    · rfl
  · split_ifs with hactive
    · rfl
    · -- it was revoked before
      have hrevoked : s.revokedAt ≠ none := by simpa [huser] using hactive
      simp [Session.isActive, hrevoked]

theorem Closed.reaches {env : Env} {p₀ p : System}
    (h : Closed p₀.store sid)
    (hrun : Reachable (Pool.step (Sessions.exec env.hash) (Op.program env)) p₀ p) :
    Closed p.store sid := by
  refine hrun.invariant (I := fun p : System => Closed p.store sid) h ?_
  intro p l p' hclosed _ hstep
  cases l with
  | spawn op => rwa [← Option.some.inj hstep]
  | answer i e =>
    obtain ⟨-, -, -, -, -, hexec, -⟩ := Pool.step_answer hstep
    exact hclosed.exec hexec

/-! ## What the extractors yield -/

/-- With the database in the state `db`, the program returns `a`. -/
def Yields {ε α : Type} (hash : String → String) (db : Db) (p : Handler ε α) (a : α) : Prop :=
  ∃ h db', p.Ends h (.ok a) ∧ execAll (Sessions.exec hash) db h = some db'

/-- Neither extractor yields a principal. -/
def NoPrincipal (hash : String → String) (db : Db) (now : ℕ) (headers : HeaderMap) : Prop :=
  (∀ auth, ¬ Yields hash db (authPrincipal vendor now true headers) auth) ∧
    ∀ auth, ¬ Yields hash db (optionalAuthPrincipal vendor now headers) (some auth)

variable {vendor} {headers : HeaderMap} {token : String} {claims : AccessClaims} {now : ℕ}

/-- The check of a session that is not live fails. -/
theorem not_yields_of_dead (hextract : extractBearerOrCookie vendor headers accessCookie = some token)
    (hdecode : vendor.decode now token = some claims) (hdead : Dead db claims.sid)
    (auth : AuthPrincipal) : ¬ Yields hash db (authPrincipal vendor now true headers) auth := by
  rintro ⟨h, db', hends, hexec⟩
  have hsafe : Safe (fun db e db' => Sessions.exec hash db e = some db' ∧ True) (fun _ => True) Eq
      (fun _ _ => True) (authPrincipal vendor now true headers) db fun _ r => ∀ auth, r ≠ .ok auth := by
    rw [authPrincipal, hextract]
    show Safe _ _ _ _ (ofExcept (decodeAccess vendor now token) >>= _) _ _
    rw [(decodeAccess_eq_ok vendor).mpr hdecode]
    rintro _ rfl - a db₁ ⟨hdoes, -⟩
    refine ⟨⟨trivial, trivial⟩, ?_⟩
    match a with
    | (t, .error e) => exact safe_fail (by simp)
    | (t, .ok active) =>
      obtain ⟨ht, hrun⟩ := exec_ok hdoes
      have hinactive : active = false := by
        simp only [Db.run] at hrun
        split_ifs at hrun with hactive
        rw [hactive, Db.isLive, List.any_eq_false]
        intro s hs
        by_cases hid : s.id = claims.sid
        · simp [isActive_later (hdead s hs hid) ht]
        · simp [hid]
      subst hinactive
      exact safe_fail (by simp)
  obtain ⟨p', hfollow, hresult⟩ := Option.bind_eq_some_iff.mp hends
  cases p' with
  | ask q next => cases hresult
  | done r =>
    obtain rfl := Option.some.inj hresult
    exact hsafe.execAll trivial hfollow (okAll_of_forall (fun _ _ => trivial) _ _) hexec auth rfl

/-- A token that decodes is enough for the other extractor. -/
theorem yields_optional (hextract : extractBearerOrCookie vendor headers accessCookie = some token)
    (hdecode : vendor.decode now token = some claims) :
    ∃ requestId, Yields hash db (optionalAuthPrincipal vendor now headers)
      (some ⟨claims.sub, claims.sid, claims.principalType, claims.clientType, requestId⟩) := by
  have hprogram : optionalAuthPrincipal vendor now headers =
      (principal headers claims >>= fun auth => pure (some auth)) := by
    rw [optionalAuthPrincipal, hextract]
    show (match decodeAccess vendor now token with | .error _ => _ | .ok claims => _) = _
    rw [(decodeAccess_eq_ok vendor).mpr hdecode]
  rw [hprogram]
  unfold principal readRequestId
  split
  · exact ⟨_, [], db, rfl, rfl⟩
  · exact ⟨_, [⟨.newUuid, (0 : Uuid)⟩], db, rfl, rfl⟩

theorem noPrincipal_of_decode (hextract : extractBearerOrCookie vendor headers accessCookie = some token)
    (hdecode : vendor.decode now token = none) : NoPrincipal vendor hash db now headers := by
  have herror : decodeAccess vendor now token =
      .error (.new .sessionExpired "invalid or expired access token") := by
    rw [decodeAccess, hdecode]
  have hauth : authPrincipal vendor now true headers =
      .fail (.new .sessionExpired "invalid or expired access token") := by
    rw [authPrincipal, hextract]
    show (ofExcept (decodeAccess vendor now token) >>= _) = _
    rw [herror]
    rfl
  have hoptional : optionalAuthPrincipal vendor now headers = pure none := by
    rw [optionalAuthPrincipal, hextract]
    show (match decodeAccess vendor now token with | .error _ => _ | .ok claims => _) = _
    rw [herror]
  constructor
  · rintro auth ⟨h, db', hends, -⟩
    rw [hauth] at hends
    cases of_ends (wp_fail.mpr rfl : wp (fun _ _ => True) _ [] fun _ r => r = _) hends
  · rintro auth ⟨h, db', hends, -⟩
    rw [hoptional] at hends
    cases of_ends (wp_pure.mpr rfl : wp (fun _ _ => True) _ [] fun _ r => r = _) hends

/-- The outcome for a session that is not live: `AuthPrincipal` never yields a
    principal, and both yield none if and only if the token no longer decodes. -/
def Outcome (vendor : Vendor) (hash : String → String) (db : Db) (now : ℕ) (headers : HeaderMap)
    (token : String) : Prop :=
  (∀ auth, ¬ Yields hash db (authPrincipal vendor now true headers) auth) ∧
    (NoPrincipal vendor hash db now headers ↔ vendor.decode now token = none)

theorem outcome_of_dead {issued : ℕ}
    (hextract : extractBearerOrCookie vendor headers accessCookie = some token)
    (hissued : vendor.decode issued token = some claims) (hle : issued ≤ now)
    (hdead : Dead db claims.sid) : Outcome vendor hash db now headers token := by
  cases hdecode : vendor.decode now token with
  | none =>
    have hnone : NoPrincipal vendor hash db now headers := noPrincipal_of_decode hextract hdecode
    exact ⟨hnone.1, iff_of_true hnone hdecode⟩
  | some claims' =>
    have hclaims : claims' = claims :=
      Option.some.inj ((vendor.decode_earlier hle hdecode).symm.trans hissued)
    subst hclaims
    refine ⟨not_yields_of_dead hextract hdecode hdead, iff_of_false ?_ (by simp [hdecode])⟩
    intro hnone
    obtain ⟨requestId, hyields⟩ := yields_optional hextract hdecode
    exact hnone.2 _ hyields

/-- For every access token of a session that is revoked, expired or absent: neither
    extractor yields a principal if and only if the token itself no longer decodes. The
    same holds in every state that follows one in which the session has ended, and a
    session has ended once it is revoked. -/
theorem no_principal_iff (vendor : Vendor) (hash : String → String) {headers : HeaderMap}
    {token : String} {claims : AccessClaims} {issued now : ℕ}
    (hextract : extractBearerOrCookie vendor headers accessCookie = some token)
    (hissued : vendor.decode issued token = some claims) (hle : issued ≤ now) :
    (∀ db, Dead db claims.sid → Outcome vendor hash db now headers token) ∧
    (∀ env p₀ p, Closed p₀.store claims.sid →
      Reachable (Pool.step (Sessions.exec env.hash) (Op.program env)) p₀ p →
      Outcome vendor env.hash p.store now headers token) ∧
    ∀ db db' t, ∀ s ∈ db.sessions,
      (Sessions.exec hash db ⟨.sql (.revoke s.id), (t, .ok ())⟩ = some db' ∨
        ∃ user, s.userId = some user ∧
          Sessions.exec hash db ⟨.sql (.revokeAllForUser user), (t, .ok ())⟩ = some db') →
      Closed db' s.id := by
  refine ⟨fun db hdead => ?_, fun env p₀ p hclosed hrun => ?_, fun db db' t s hs hrevoked => ?_⟩
  · exact outcome_of_dead hextract hissued hle hdead
  · exact outcome_of_dead hextract hissued hle (hclosed.reaches hrun).dead
  · rcases hrevoked with hexec | ⟨user, huser, hexec⟩
    · exact closed_of_revoke hs hexec
    · exact closed_of_revokeAllForUser hs huser hexec

/-! ## A session that was revoked -/

/-- The session 7 of the user 1, revoked at 1700000000. -/
def revokedDb : Db :=
  ⟨⟨[sampleSession.setRevoked 1700000000], List.pairwise_singleton _ _⟩, [(7, sampleRefresh 0)],
    1700000000⟩

/-- A request that carries the access token of that session. -/
def sampleHeaders : HeaderMap := [("cookie", sampleCookie)]

theorem extract_sample : extractBearerOrCookie sampleVendor sampleHeaders accessCookie =
    some sampleToken := by
  have hcookie : sampleHeaders.get "cookie" = some sampleCookie := rfl
  exact FromCookie.extract ⟨rfl, getCookie_sample hcookie⟩

theorem dead_sample : Dead revokedDb sampleClaims.sid := by
  intro s hs _
  rw [List.mem_singleton.mp hs]
  rfl

/-- An hour later the token has expired. -/
theorem no_principal_iff_expired :
    NoPrincipal sampleVendor sampleEnv.hash revokedDb 1700003661 sampleHeaders := by
  have hdecode : sampleVendor.decode 1700003661 sampleToken = none := if_neg (by omega)
  have hle : 1700000000 ≤ 1700003661 := by omega
  have houtcome := (no_principal_iff sampleVendor sampleEnv.hash extract_sample
    (decode_sample 1700000000 (by omega)) hle).1 revokedDb dead_sample
  exact houtcome.2.mpr hdecode

/-- A minute after it was revoked, the session still yields a principal. -/
theorem not_no_principal_revoked :
    Dead revokedDb 7 ∧ ∃ requestId, Yields sampleEnv.hash revokedDb
      (optionalAuthPrincipal sampleVendor 1700000060 sampleHeaders)
        (some ⟨1, 7, .user, .panel, requestId⟩) :=
  ⟨dead_sample, yields_optional extract_sample (decode_sample 1700000060 (by omega))⟩

end Ppb.Middleware
