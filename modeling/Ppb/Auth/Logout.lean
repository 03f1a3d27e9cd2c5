import Ppb.Middleware.Auth

/-!
# Logout (`logout` of `auth/routes.rs`)

A browser sends up to two cookies with a logout: the refresh token, which names a session by
its hash, and the access token, which names one by its `sid`. `logout` goes by the refresh
token whenever there is one, and looks at the access token only if there is none. So a refresh
token that was rotated away by another tab hides an access token that is still good.

* `Presented`: one of the cookies identifies the session.
* `LogoutEnds`: however the statements of others come between those of a logout, once it has
  answered 204 no session that was presented is live, and its own statements leave all other
  sessions alone.
* `Agree`: the refresh token is the right one for every live session that is presented.
* `logout_ends_iff`: `LogoutEnds` holds exactly then.
-/

namespace Ppb.Sessions

open Middleware Prog Shared Trace

variable (env : Env) (now : ℕ) (db : Db) (refreshToken accessToken : Option String)

/-! ## What logout is for -/

/-- The session `id` has the hash of the refresh token, or it is the `sid` of the access token,
    if that decodes. -/
def Presented (id : Uuid) : Prop :=
  (∃ token ∈ refreshToken, ∃ s ∈ db.sessions, s.id = id ∧ s.refreshHash = env.hash token) ∨
    ∃ token ∈ accessToken, ∃ claims ∈ env.decode now token, claims.sid = id

/-- A statement, or a look at the clock of the server, which reads `now`. -/
def Does (db : Db) (e : Event Query Query.Answer) (db' : Db) : Prop :=
  exec env.hash db e = some db' ∧ ∀ t : ℕ, e = ⟨.now, t⟩ → t = now

/-- The statements of other requests. -/
def Others (hash : String → String) (db db' : Db) : Prop :=
  ∃ h, execAll (exec hash) db h = some db'

/-- The sessions outside `P` are the same. -/
def Spares (P : Uuid → Prop) (db db' : Db) : Prop :=
  ∀ s : Session, ¬ P s.id → (s ∈ db.sessions ↔ s ∈ db'.sessions)

/-- A logout whose first statement finds the tables `db` ends the sessions it presents, and
    changes no other. -/
def LogoutEnds : Prop :=
  SafeNow (Does env now) (fun _ => True) (Others env.hash)
    (Spares (Presented env now db refreshToken accessToken)) (logout env refreshToken accessToken) db
    fun db' r => ∀ reply, r = .ok reply →
      ∀ s ∈ db.sessions, Presented env now db refreshToken accessToken s.id → Dead db' s.id

/-- If there is a refresh token, every live session that is presented has its hash, and there
    is only one that has. -/
def Agree : Prop :=
  ∀ token ∈ refreshToken,
    (∀ s ∈ db.sessions, s.isActive db.clock = true →
      Presented env now db refreshToken accessToken s.id → s.refreshHash = env.hash token) ∧
    ∀ s ∈ db.sessions, ∀ s' ∈ db.sessions, s.isActive db.clock = true →
      s'.isActive db.clock = true → s.refreshHash = env.hash token →
        s'.refreshHash = env.hash token → s = s'

variable {env now db refreshToken accessToken} {hash : String → String} {db' : Db} {id : Uuid}
  {P : Uuid → Prop}

/-! ## Others -/

theorem Others.refl (db : Db) : Others hash db db := ⟨[], rfl⟩

/-- What every statement keeps. -/
theorem Others.keeps {I : Db → Prop} (h : Others hash db db')
    (hstep : ∀ db e db', I db → exec hash db e = some db' → I db') (hI : I db) : I db' := by
  obtain ⟨es, hexec⟩ := h
  induction es generalizing db with
  | nil =>
    obtain rfl := Option.some.inj hexec
    exact hI
  | cons e es ih =>
    obtain ⟨db₁, h₁, h₂⟩ := Option.bind_eq_some_iff.mp hexec
    exact ih (hstep db e db₁ hI h₁) h₂

theorem Others.closed (h : Others hash db db') (hid : Closed db id) : Closed db' id :=
  h.keeps (I := fun db => Closed db id) (fun _ _ _ hclosed hexec => hclosed.exec hexec) hid

/-- There is a session `id`. -/
def Known (db : Db) (id : Uuid) : Prop := ∃ s ∈ db.sessions, s.id = id

theorem Known.exec {e : Event Query Query.Answer} (h : Known db id)
    (hexec : Sessions.exec hash db e = some db') : Known db' id :=
  (exec_effect hexec).2.keeps (fun _ _ hid => hid) (fun _ _ hid => hid) h

theorem Others.known (h : Others hash db db') (hid : Known db id) : Known db' id :=
  h.keeps (I := fun db => Known db id) (fun _ _ _ hknown hexec => hknown.exec hexec) hid

theorem Spares.of_eq (h : db'.sessions = db.sessions) : Spares P db db' := by
  intro s _
  rw [h]

/-! ## One revocation -/

/-- A statement that fails changes nothing. -/
theorem exec_error {stmt : Stmt} {t : ℕ} {e : DbError}
    (hexec : exec hash db ⟨.sql stmt, (t, .error e)⟩ = some db') : db' = { db with clock := t } := by
  simp only [exec] at hexec
  split_ifs at hexec
  cases e with
  | other => exact (Option.some.inj hexec).symm
  | rowNotFound => cases hexec

/-- `UPDATE sessions SET revoked_at = now() WHERE id = $1`. -/
theorem spares_revoke {t : ℕ} {r : Except DbError Unit} (hid : P id)
    (hexec : exec hash db ⟨.sql (.revoke id), (t, r)⟩ = some db') : Spares P db db' := by
  cases r with
  | error e =>
    obtain rfl := exec_error hexec
    exact .of_eq rfl
  | ok u =>
    obtain ⟨sessions, hupdate, rfl⟩ := Option.map_eq_some_iff.mp (exec_ok hexec).2
    intro s hs
    rw [Table.mem_update hupdate]
    constructor
    · intro hmem
      refine ⟨s, hmem, if_neg ?_⟩
      intro heq
      exact hs (by rwa [beq_iff_eq.mp heq])
    · rintro ⟨s', hmem, rfl⟩
      by_cases heq : (s'.id == id) = true
      · rw [if_pos heq] at hs
        have hsame : s'.id = id := beq_iff_eq.mp heq
        exact absurd (show P s'.id by rwa [hsame]) hs
      · rwa [if_neg heq]

/-- `revoke` ends its session, if there is one, and revives none. -/
theorem safe_revoke (hid : P id) :
    Safe (Does env now) (fun _ => True) (Others env.hash) (Spares P) (revoke id) db fun db' r =>
      (∀ reply, r = .ok reply → Known db id → Closed db' id) ∧
        ∀ id', Closed db id' → Closed db' id' := by
  refine safe_ask fun db₁ hothers _ a db₂ hdoes => ?_
  obtain ⟨t, r⟩ := a
  refine ⟨⟨trivial, spares_revoke hid hdoes.1⟩, ?_⟩
  have hclosed : ∀ id', Closed db id' → Closed db₂ id' := fun id' h =>
    (hothers.closed h).exec hdoes.1
  cases r with
  | error e =>
    refine safe_fail fun db₃ hothers' _ => ⟨nofun, fun id' h => ?_⟩
    exact hothers'.closed (hclosed id' h)
  | ok u =>
    refine safe_pure fun db₃ hothers' _ => ⟨fun _ _ hknown => ?_, fun id' h => ?_⟩
    · obtain ⟨s, hs, rfl⟩ := hothers.known hknown
      exact hothers'.closed (closed_of_revoke hs hdoes.1)
    · exact hothers'.closed (hclosed id' h)

/-! ## Tokens that agree -/

/-- What `find_active_by_refresh_hash` returns. -/
theorem exec_find {refreshHash : String} {t : ℕ} {found : Option Session}
    (hexec : exec hash db ⟨.sql (.findActiveByRefreshHash refreshHash), (t, .ok found)⟩ =
      some db') :
    db.clock ≤ t ∧ db' = { db with clock := t } ∧
      match found with
      | some s => s ∈ db.sessions ∧ s.refreshHash = refreshHash ∧ s.isActive t = true
      | none => ∀ s ∈ db.sessions, ¬ (s.refreshHash = refreshHash ∧ s.isActive t = true) := by
  obtain ⟨ht, hrun⟩ := exec_ok hexec
  cases found with
  | none =>
    simp only [Db.run] at hrun
    split_ifs at hrun with hnone
    exact ⟨ht, (Option.some.inj hrun).symm, hnone⟩
  | some s =>
    simp only [Db.run] at hrun
    split_ifs at hrun with hs
    exact ⟨ht, (Option.some.inj hrun).symm, hs⟩

theorem isActive_earlier {s : Session} {t : ℕ} (h : s.isActive t = true) (ht : db.clock ≤ t) :
    s.isActive db.clock = true := by
  by_contra hinactive
  rw [isActive_later (eq_false_of_ne_true hinactive) ht] at h
  cases h

theorem ends_of_agree (hagree : Agree env now db refreshToken accessToken) :
    LogoutEnds env now db refreshToken accessToken := by
  match refreshToken, accessToken with
  | none, none =>
    intro db₁ _ _ reply _ s _ hpresented
    rcases hpresented with ⟨token, htoken, -⟩ | ⟨token, htoken, -⟩
    · cases htoken
    · cases htoken
  | none, some token =>
    refine safeNow_ask fun t db₁ hdoes => ?_
    obtain rfl := hdoes.2 t rfl
    obtain rfl := Option.some.inj hdoes.1
    refine ⟨⟨trivial, .of_eq rfl⟩, ?_⟩
    cases hdecode : env.decode t token with
    | none =>
      refine safe_pure fun db₂ _ _ reply _ s _ hpresented => ?_
      rcases hpresented with ⟨token', htoken, -⟩ | ⟨token', htoken, claims, hclaims, -⟩
      · cases htoken
      · obtain rfl := Option.some.inj htoken
        rw [hdecode] at hclaims
        cases hclaims
    | some claims =>
      have hpresented : Presented env t db none (some token) claims.sid :=
        .inr ⟨token, rfl, claims, hdecode, rfl⟩
      refine safe_mono (safe_revoke hpresented) fun db₂ r hrevoked reply hreply s hs hid => ?_
      rcases hid with ⟨token', htoken, -⟩ | ⟨token', htoken, claims', hclaims, hid⟩
      · cases htoken
      · obtain rfl := Option.some.inj htoken
        obtain rfl := Option.some.inj (hdecode.symm.trans hclaims)
        exact hid ▸ (hrevoked.1 reply hreply ⟨s, hs, hid.symm⟩).dead
  | some token, accessToken =>
    obtain ⟨hright, hone⟩ := hagree token rfl
    refine safeNow_ask fun a db₁ hdoes => ?_
    obtain ⟨t, r⟩ := a
    cases r with
    | error e =>
      obtain rfl := exec_error hdoes.1
      exact ⟨⟨trivial, .of_eq rfl⟩, safe_fail fun _ _ _ => nofun⟩
    | ok found =>
      obtain ⟨ht, rfl, hfound⟩ := exec_find hdoes.1
      refine ⟨⟨trivial, .of_eq rfl⟩, ?_⟩
      -- a presented session that is live by now has the hash that was looked up
      have hlive : ∀ s ∈ db.sessions, Presented env now db (some token) accessToken s.id →
          s.isActive t = true → s.refreshHash = env.hash token := fun s hs hpresented hactive =>
        hright s hs (isActive_earlier hactive ht) hpresented
      cases found with
      | none =>
        refine safe_pure fun db₂ hothers _ reply _ s hs hpresented => ?_
        have hinactive : s.isActive t = false := by
          by_contra hactive
          have hactive : s.isActive t = true := eq_true_of_ne_false hactive
          exact hfound s hs ⟨hlive s hs hpresented hactive, hactive⟩
        exact (hothers.closed ⟨s, hs, rfl, hinactive⟩).dead
      | some sess =>
        obtain ⟨hsess, hhash, hactive⟩ := hfound
        have hpresented : Presented env now db (some token) accessToken sess.id :=
          .inl ⟨token, rfl, sess, hsess, rfl, hhash⟩
        refine safe_mono (safe_revoke hpresented) fun db₂ r hrevoked reply hreply s hs hid => ?_
        by_cases hs' : s.isActive t = true
        · have hsame : s = sess := hone s hs sess hsess (isActive_earlier hs' ht)
            (isActive_earlier hactive ht) (hlive s hs hid hs') hhash
          rw [hsame]
          exact (hrevoked.1 reply hreply ⟨sess, hsess, rfl⟩).dead
        · exact (hrevoked.2 s.id ⟨s, hs, rfl, eq_false_of_ne_true hs'⟩).dead

/-! ## Tokens that do not -/

/-- A live session that the lookup need not find is left alone. -/
theorem not_ends_of_missed {token : String} {found : Option Session} {s : Session}
    (hrun : db.run env.hash (.findActiveByRefreshHash (env.hash token)) found = some db)
    (hs : s ∈ db.sessions) (hactive : s.isActive db.clock = true)
    (hpresented : Presented env now db (some token) accessToken s.id)
    (hmissed : ∀ sess ∈ found, sess.id ≠ s.id) :
    ¬ LogoutEnds env now db (some token) accessToken := by
  intro hends
  have hlookup : exec env.hash db ⟨.sql (.findActiveByRefreshHash (env.hash token)),
      (db.clock, .ok found)⟩ = some db := by
    rw [exec, if_pos le_rfl]
    exact hrun
  have hrest := (hends (db.clock, .ok found) db ⟨hlookup, by simp⟩).2
  cases found with
  | none =>
    have hdead := hrest db (.refl db) trivial .done rfl s hs hpresented s hs rfl
    rw [hactive] at hdead
    cases hdead
  | some sess =>
    obtain ⟨sessions, hupdate⟩ := Table.exists_update (t := db.sessions)
      (p := fun x => x.id == sess.id) (f := Session.setRevoked db.clock) (by
        intro a b hne
        split_ifs
        all_goals exact hne)
    have hrevoke : exec env.hash db ⟨.sql (.revoke sess.id), (db.clock, .ok ())⟩ =
        some { db with sessions := sessions } := by
      rw [exec, if_pos le_rfl]
      show (Table.update _ _ _).map _ = _
      rw [hupdate]
      rfl
    have hkept : s ∈ sessions :=
      (Table.mem_update hupdate).mpr
        ⟨s, hs, if_neg fun heq => hmissed sess rfl (beq_iff_eq.mp heq).symm⟩
    have hdead := (hrest db (.refl db) trivial (db.clock, .ok ()) _ ⟨hrevoke, by simp⟩).2 _ (.refl _)
      trivial .done rfl s hs hpresented s hkept rfl
    have hactive' : s.isActive db.clock = false := hdead
    rw [hactive] at hactive'
    cases hactive'

/-- Some live session is found by its hash. -/
theorem run_find {sess : Session} {refreshHash : String} (hsess : sess ∈ db.sessions)
    (hhash : sess.refreshHash = refreshHash) (hactive : sess.isActive db.clock = true) :
    db.run hash (.findActiveByRefreshHash refreshHash) (some sess) = some db :=
  if_pos ⟨hsess, hhash, hactive⟩

theorem agree_of_ends (hends : LogoutEnds env now db refreshToken accessToken) :
    Agree env now db refreshToken accessToken := by
  intro token htoken
  obtain rfl := htoken
  constructor
  · intro s hs hactive hpresented
    by_contra hne
    by_cases hfound : ∃ sess ∈ db.sessions,
        sess.refreshHash = env.hash token ∧ sess.isActive db.clock = true
    · obtain ⟨sess, hsess, hhash, hlive⟩ := hfound
      refine not_ends_of_missed (run_find hsess hhash hlive) hs hactive hpresented ?_ hends
      rintro _ ⟨⟩ hid
      rw [Db.session_unique hsess hs hid] at hhash
      exact hne hhash
    · have hnone : db.run env.hash (.findActiveByRefreshHash (env.hash token)) none = some db :=
        if_pos fun sess hsess hlive => hfound ⟨sess, hsess, hlive⟩
      exact not_ends_of_missed hnone hs hactive hpresented nofun hends
  · intro s hs s' hs' hactive hactive' hhash hhash'
    by_contra hne
    have hpresented : Presented env now db (some token) accessToken s'.id :=
      .inl ⟨token, rfl, s', hs', rfl, hhash'⟩
    refine not_ends_of_missed (run_find hs hhash hactive) hs' hactive' hpresented ?_ hends
    rintro _ ⟨⟩ hid
    exact hne (Db.session_unique hs hs' hid)

/-- A logout ends what it was shown exactly if its refresh token, when there is one, is that of
    every live session it was shown. -/
theorem logout_ends_iff (env : Env) (now : ℕ) (db : Db) (refreshToken accessToken : Option String) :
    LogoutEnds env now db refreshToken accessToken ↔ Agree env now db refreshToken accessToken :=
  ⟨agree_of_ends, ends_of_agree⟩

/-- Among sessions that were opened by logins no two have one hash: all that can go wrong is
    that the access token names another live session than the refresh token. -/
theorem agree_iff_of_sound (hsound : Sound env.hash db) :
    Agree env now db refreshToken accessToken ↔
      ∀ token ∈ refreshToken, ∀ access ∈ accessToken, ∀ claims ∈ env.decode now access,
        ∀ s ∈ db.sessions, s.isActive db.clock = true → s.id = claims.sid →
          s.refreshHash = env.hash token := by
  constructor
  · intro hagree token htoken access haccess claims hclaims s hs hactive hid
    exact (hagree token htoken).1 s hs hactive (.inr ⟨access, haccess, claims, hclaims, hid.symm⟩)
  · intro hright token htoken
    refine ⟨fun s hs hactive hpresented => ?_, fun s hs s' hs' _ _ hhash hhash' => ?_⟩
    · rcases hpresented with ⟨token', htoken', s', hs', hid, hhash⟩ |
        ⟨access, haccess, claims, hclaims, hid⟩
      · obtain rfl := Option.some.inj (htoken.symm.trans htoken')
        rwa [← Db.session_unique hs' hs hid]
      · exact hright token htoken access haccess claims hclaims s hs hactive hid.symm
    · exact hsound.session_unique hs hs' (hhash.trans hhash'.symm)

/-! ## A stale refresh token -/

/-- The session 7 after a refresh. -/
def rotatedSession : Session := sampleSession.setHash (sampleEnv.hash (sampleRefresh 1))

/-- While a refresh of another tab replaces the refresh token, a logout comes with the old one
    and a good access token. It answers 204, and the session stays live. -/
theorem not_logout_ends_stale :
    ∃ p, Reachable (Pool.step (exec sampleEnv.hash) (Op.program sampleEnv)) ⟨.empty, []⟩ p ∧
      ¬ LogoutEnds sampleEnv 1700000000 p.store (some (sampleRefresh 0)) (some sampleToken) := by
  have hrun : ((runFrom (Pool.step (exec sampleEnv.hash) (Op.program sampleEnv)) ⟨.empty, []⟩
      (loginTrace ++ lookupTrace 1 ++ rotateTrace 1 (sampleRefresh 1))).any
        fun p => decide (p.store.sessions.rows = [rotatedSession] ∧ p.store.clock = 1700000000)) =
          true := by decide +kernel
  obtain ⟨p, hp, hstore⟩ := exists_reachable_of_runFrom hrun
  obtain ⟨hrows, hclock⟩ := of_decide_eq_true hstore
  have hmem : rotatedSession ∈ p.store.sessions := by
    rw [Table.mem_def, hrows]
    exact List.mem_singleton_self _
  have hactive : rotatedSession.isActive p.store.clock = true := by
    rw [hclock]
    rfl
  have hdecode : sampleEnv.decode 1700000000 sampleToken = some sampleClaims :=
    decode_sample 1700000000 (by omega)
  have hstale : p.store.run sampleEnv.hash
      (.findActiveByRefreshHash (sampleEnv.hash (sampleRefresh 0))) none = some p.store := by
    refine if_pos fun s hs hfound => ?_
    rw [hrows, List.mem_singleton] at hs
    rw [hs] at hfound
    have hne : rotatedSession.refreshHash ≠ sampleEnv.hash (sampleRefresh 0) := by decide +kernel
    exact hne hfound.1
  exact ⟨p, hp, not_ends_of_missed hstale hmem hactive
    (.inr ⟨sampleToken, rfl, sampleClaims, hdecode, rfl⟩) nofun⟩

end Ppb.Sessions
