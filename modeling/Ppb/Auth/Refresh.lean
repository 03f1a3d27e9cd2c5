import Ppb.Auth.Sessions

/-!
# Refresh tokens are used once

The hash of a token that was rotated away is in no row of `sessions` any more, and it
never comes back. So a token is spent by its rotation, as long as the rotation finds
the row as the lookup has left it. The `UPDATE` of `refresh` does not check that: it
goes by the id of the session, so two requests that have both looked up the same token
both rotate it and both succeed.

* `Sound db`: each session holds the hash of its latest token, no hash was stored twice.
* `Retired hash db h`: the hash `h` was stored and is in no row any more.
* `Unraced env op db e`: a rotation finds the hash of the token it was asked for.
* `refresh_single_use`: in every run of unraced events, every token is redeemed at most
  once, and a session can be refreshed with its latest token only.
-/

namespace Ppb.Sessions

open Prog Shared Trace

/-! ## The tables -/

variable {hash : String → String} {db db' : Db}

theorem latest_cons {id : Uuid} {token : String} (h : db'.tokens = (id, token) :: db.tokens)
    (id' : Uuid) : db'.latest id' = if id = id' then some token else db.latest id' := by
  rw [Db.latest, h, List.find?_cons]
  by_cases hid : id = id'
  · simp [hid]
  · have hne : (id == id') = false := by simpa using hid
    simp [hne, hid, Db.latest]

theorem mem_of_latest {id : Uuid} {token : String} (h : db.latest id = some token) :
    (id, token) ∈ db.tokens := by
  obtain ⟨t, hfind, rfl⟩ := Option.map_eq_some_iff.mp h
  have hid : t.1 = id := by simpa using List.find?_some hfind
  rw [← hid]
  exact List.mem_of_find?_eq_some hfind

structure Sound (hash : String → String) (db : Db) : Prop where
  latest : ∀ s ∈ db.sessions, ∃ token, db.latest s.id = some token ∧ s.refreshHash = hash token
  distinct : db.tokens.Pairwise fun t t' => hash t.2 ≠ hash t'.2

theorem Sound.empty : Sound hash .empty := ⟨nofun, .nil⟩

/-- A token is known by its hash. -/
theorem Sound.token_unique (h : Sound hash db) {t t' : Uuid × String} (ht : t ∈ db.tokens)
    (ht' : t' ∈ db.tokens) (heq : hash t.2 = hash t'.2) : t = t' := by
  rcases Table.eq_or_compat (t := ⟨db.tokens, h.distinct⟩) ht ht' with h | hne | hne
  · exact h
  · exact absurd heq hne
  · exact absurd heq.symm hne

/-- A session is known by its hash. -/
theorem Sound.session_unique (h : Sound hash db) {s s' : Session} (hs : s ∈ db.sessions)
    (hs' : s' ∈ db.sessions) (heq : s.refreshHash = s'.refreshHash) : s = s' := by
  obtain ⟨token, hlatest, hhash⟩ := h.latest s hs
  obtain ⟨token', hlatest', hhash'⟩ := h.latest s' hs'
  have htokens : (s.id, token) = (s'.id, token') :=
    h.token_unique (mem_of_latest hlatest) (mem_of_latest hlatest') (by rw [← hhash, heq, hhash'])
  exact Db.session_unique hs hs' (Prod.mk.inj htokens).1

theorem Fresh.pairwise {id : Uuid} {token : String} (hfresh : Fresh hash db token)
    (h : Sound hash db) (htokens : db'.tokens = (id, token) :: db.tokens) :
    db'.tokens.Pairwise fun t t' => hash t.2 ≠ hash t'.2 := by
  rw [htokens]
  exact .cons (fun t ht => (hfresh t ht).symm) h.distinct

theorem Sound.effect (h : Sound hash db) (heffect : Effect hash db db') : Sound hash db' := by
  cases heffect with
  | unchanged hsessions htokens =>
    refine ⟨fun s hs => ?_, htokens ▸ h.distinct⟩
    rw [hsessions] at hs
    simpa [Db.latest, htokens] using h.latest s hs
  | inserted s token hhash hfresh hnew hsessions htokens =>
    refine ⟨fun x hx => ?_, hfresh.pairwise h htokens⟩
    rw [latest_cons htokens]
    rcases (hsessions x).mp hx with hx | rfl
    · rw [if_neg (hnew x hx).symm]
      exact h.latest x hx
    · exact ⟨token, if_pos rfl, hhash⟩
  | rotated id token hfresh hsessions htokens =>
    refine ⟨fun x hx => ?_, hfresh.pairwise h htokens⟩
    rw [latest_cons htokens]
    obtain ⟨s, hs, rfl⟩ := (hsessions x).mp hx
    by_cases hid : s.id = id
    · have hset : (if (s.id == id) = true then s.setHash (hash token) else s) =
          s.setHash (hash token) := if_pos (by simpa using hid)
      rw [hset]
      exact ⟨token, if_pos hid.symm, rfl⟩
    · have hkept : (if (s.id == id) = true then s.setHash (hash token) else s) = s :=
        if_neg (by simpa using hid)
      rw [hkept, if_neg (Ne.symm hid)]
      exact h.latest s hs
  | revoked p hsessions htokens =>
    refine ⟨fun x hx => ?_, htokens ▸ h.distinct⟩
    obtain ⟨s, hs, rfl⟩ := (hsessions x).mp hx
    have hrow := h.latest s hs
    split_ifs
    · simpa [Db.latest, htokens, Session.setRevoked] using hrow
    · simpa [Db.latest, htokens] using hrow

/-! ## Spent tokens -/

/-- A token with this hash was stored, and no session has it any more. -/
structure Retired (hash : String → String) (db : Db) (h : String) : Prop where
  stored : ∃ t ∈ db.tokens, hash t.2 = h
  gone : ∀ s ∈ db.sessions, s.refreshHash ≠ h

theorem Fresh.ne_stored {token h : String} (hfresh : Fresh hash db token)
    (hstored : ∃ t ∈ db.tokens, hash t.2 = h) : hash token ≠ h := by
  obtain ⟨t, ht, rfl⟩ := hstored
  exact (hfresh t ht).symm

theorem Effect.tokens_subset (heffect : Effect hash db db') : db.tokens ⊆ db'.tokens := by
  cases heffect with
  | unchanged _ htokens => exact htokens ▸ List.Subset.refl _
  | inserted _ _ _ _ _ _ htokens => exact htokens ▸ List.subset_cons_self _ _
  | rotated _ _ _ _ htokens => exact htokens ▸ List.subset_cons_self _ _
  | revoked _ _ htokens => exact htokens ▸ List.Subset.refl _

/-- What is spent stays spent: a new token has a new hash. -/
theorem Retired.effect {h : String} (hr : Retired hash db h) (heffect : Effect hash db db') :
    Retired hash db' h := by
  obtain ⟨t, ht, hhash⟩ := hr.stored
  refine ⟨⟨t, heffect.tokens_subset ht, hhash⟩, ?_⟩
  cases heffect with
  | unchanged hsessions _ => exact hsessions ▸ hr.gone
  | inserted s token hs hfresh _ hsessions _ =>
    intro x hx
    rcases (hsessions x).mp hx with hx | rfl
    · exact hr.gone x hx
    · rw [hs]
      exact hfresh.ne_stored hr.stored
  | rotated id token hfresh hsessions _ =>
    intro x hx
    obtain ⟨s, hs, rfl⟩ := (hsessions x).mp hx
    split_ifs
    · exact hfresh.ne_stored hr.stored
    · exact hr.gone s hs
  | revoked p hsessions _ =>
    intro x hx
    obtain ⟨s, hs, rfl⟩ := (hsessions x).mp hx
    split_ifs
    · exact hr.gone s hs
    · exact hr.gone s hs

/-- A rotation that finds a hash spends it. -/
theorem rotate_retires (h : Sound hash db) {id : Uuid} {token : String} {t : ℕ}
    (hexec : exec hash db ⟨.sql (.rotate id token), (t, .ok ())⟩ = some db') {s : Session}
    (hs : s ∈ db.sessions) (hid : s.id = id) : Retired hash db' s.refreshHash := by
  obtain ⟨hfresh, -, htokens, hsessions⟩ := run_rotate (exec_ok hexec).2
  obtain ⟨old, hlatest, hold⟩ := h.latest s hs
  have hstored : (s.id, old) ∈ db.tokens := mem_of_latest hlatest
  refine ⟨⟨(s.id, old), ?_, hold.symm⟩, fun x hx => ?_⟩
  · rw [htokens]
    exact List.mem_cons_of_mem _ hstored
  · obtain ⟨y, hy, rfl⟩ := (hsessions x).mp hx
    split_ifs with hy'
    · exact Fresh.ne_stored hfresh ⟨(s.id, old), hstored, hold.symm⟩
    · -- another session has another hash
      intro heq
      rw [h.session_unique hy hs heq] at hy'
      exact hy' (by simpa using hid)

/-! ## The decisive event -/

/-- The session of a rotation. -/
def rotation (e : Event Query Query.Answer) : Option Uuid :=
  match e with
  | ⟨.sql (.rotate id _), (_, .ok _)⟩ => some id
  | _ => none

def Rotates (e : Event Query Query.Answer) : Prop := ∃ id, rotation e = some id

/-- The token a request presents to be refreshed with. -/
def Op.presents : Op → Option String
  | .refresh cookie => cookie
  | _ => none

theorem owes_refresh (env : Env) (token : String) : (refresh env (some token)).Owes Rotates := by
  refine owes_bind fun _ => owes_bind fun _ => owes_bind fun _ => owes_bind fun sess =>
    owes_bind fun _ => owes_bind fun newRefresh => ?_
  refine owes_ask fun a => ?_
  match a with
  | (t, .ok ()) => exact .inl ⟨sess.id, rfl⟩
  | (t, .error e) => exact .inr owes_fail

theorem owes_program {env : Env} {op : Op} {token : String} (hop : op.presents = some token) :
    (op.program env).Owes Rotates := by
  cases op with
  | refresh cookie =>
    obtain rfl : cookie = some token := hop
    exact owes_refresh env token
  | login _ _ _ | logout _ _ | meSessionRevoke _ _ | userRevokeSessions _ => cases hop

/-- A rotation finds the hash of the token it was asked for. -/
def Unraced (env : Env) (op : Op) (db : Db) (e : Event Query Query.Answer) : Prop :=
  ∀ token ∈ op.presents, ∀ id ∈ rotation e,
    ∃ s ∈ db.sessions, s.id = id ∧ s.refreshHash = env.hash token

instance (env : Env) (op : Op) (db : Db) (e : Event Query Query.Answer) :
    Decidable (Unraced env op db e) :=
  @Option.decidableForallMem _ _ (fun _ => Option.decidableForallMem _) _

theorem unraced_spends {env : Env} {op : Op} {e : Event Query Query.Answer} {token : String}
    (h : Sound env.hash db) (hunraced : Unraced env op db e) (hexec : exec env.hash db e = some db')
    (hrotates : Rotates e) (hop : op.presents = some token) :
    ¬ Retired env.hash db (env.hash token) ∧ Retired env.hash db' (env.hash token) := by
  obtain ⟨id, hid⟩ := hrotates
  obtain ⟨s, hs, hsid, hhash⟩ := hunraced token hop id hid
  unfold rotation at hid
  split at hid
  · obtain rfl := Option.some.inj hid
    rw [← hhash]
    exact ⟨fun hr => hr.gone s hs rfl, rotate_retires h hexec hs hsid⟩
  · cases hid

/-! ## Issued tokens -/

/-- The tokens of a response are stored. -/
def Stored (db : Db) (r : Except Failure Reply) : Prop :=
  ∀ tokens, r = .ok (.issued tokens) → (tokens.sid, tokens.refresh) ∈ db.tokens

theorem stored_error {db : Db} {e : Failure} : Stored db (.error e) := by simp [Stored]

/-- Others may store further tokens. -/
def Grows (db db' : Db) : Prop := db.tokens ⊆ db'.tokens

section Runs

variable {env : Env} {E : Db → Event Query Query.Answer → Prop} {α β : Type}

/-- Whatever the others do, `p` ends in `P`. -/
abbrev Runs (env : Env) (E : Db → Event Query Query.Answer → Prop) {α : Type} (p : Handler Failure α)
    (db : Db) (P : Db → Except Failure α → Prop) : Prop :=
  Safe (fun db e db' => exec env.hash db e = some db' ∧ E db e) (fun _ => True) Grows Grows p db P

theorem runs_any {p : Handler Failure α} {db : Db} : Runs env E p db fun _ _ => True := by
  induction p generalizing db with
  | done r => exact fun _ _ _ => trivial
  | ask q next ih =>
    intro db₁ _ _ a db₂ hdoes
    exact ⟨⟨trivial, (exec_effect hdoes.1).2.tokens_subset⟩, ih a⟩

/-- Only what comes last issues tokens. -/
theorem runs_bind {p : Handler Failure β} {k : β → Handler Failure Reply} {db : Db}
    (hk : ∀ a db', Runs env E (k a) db' Stored) : Runs env E (p >>= k) db Stored :=
  safe_bind (fun _ => List.Subset.refl _) trivial runs_any (fun db' a _ _ => hk a db')
    fun _ _ _ _ => stored_error

theorem runs_sql {stmt : Stmt} {k : Except DbError stmt.Row → Handler Failure Reply} {db : Db}
    (hk : ∀ t r db₁ db₂, exec env.hash db₁ ⟨.sql stmt, (t, r)⟩ = some db₂ →
      Runs env E (k r) db₂ Stored) : Runs env E (sql stmt >>= k) db Stored := by
  intro db₁ _ _ a db₂ hdoes
  exact ⟨⟨trivial, (exec_effect hdoes.1).2.tokens_subset⟩, hk a.1 a.2 db₁ db₂ hdoes.1⟩

theorem runs_issueAccess {sess : Session} {token : String} {db : Db}
    (h : (sess.id, token) ∈ db.tokens) : Runs env E (issueAccess env sess token) db Stored := by
  refine safe_ask fun db₁ hgrows _ now db₂ hdoes => ?_
  have hsubset := (exec_effect hdoes.1).2.tokens_subset
  refine ⟨⟨trivial, hsubset⟩, safe_ofOption_bind ?_ ?_⟩
  · intro _ db₃ _ _
    exact nofun
  · intro access _ db₃ hgrows' _ tokens heq
    cases heq
    exact hgrows' (hsubset (hgrows h))

theorem runs_revoke {id : Uuid} {db : Db} : Runs env E (revoke id) db Stored :=
  runs_bind fun _ _ => runs_bind fun _ _ => safe_pure nofun

theorem runs_program (op : Op) : Runs env E (op.program env) db Stored := by
  cases op with
  | login principalType userId clientType =>
    refine runs_bind fun token _ => runs_bind fun now _ => runs_sql fun t r db₁ db₂ hexec => ?_
    cases r with
    | error e => exact safe_fail fun _ _ _ => stored_error
    | ok sess =>
      have hrun := (exec_ok hexec).2
      simp only [Db.run] at hrun
      split_ifs at hrun
      obtain ⟨sessions, -, rfl⟩ := Option.map_eq_some_iff.mp hrun
      exact runs_issueAccess List.mem_cons_self
  | refresh cookie =>
    refine runs_bind fun _ _ => runs_bind fun _ _ => runs_bind fun _ _ => runs_bind fun sess _ =>
      runs_bind fun _ _ => runs_bind fun token _ => runs_sql fun t r db₁ db₂ hexec => ?_
    cases r with
    | error e => exact safe_fail fun _ _ _ => stored_error
    | ok u =>
      obtain ⟨-, -, htokens, -⟩ := run_rotate (exec_ok hexec).2
      exact runs_issueAccess (htokens ▸ List.mem_cons_self)
  | logout refreshToken accessToken =>
    cases refreshToken with
    | some token =>
      refine runs_bind fun _ _ => runs_bind fun found _ => ?_
      cases found with
      | none => exact safe_pure (by simp [Stored])
      | some sess => exact runs_revoke
    | none =>
      cases accessToken with
      | some token =>
        refine runs_bind fun now _ => ?_
        cases env.decode now token with
        | none => exact safe_pure (by simp [Stored])
        | some claims => exact runs_revoke
      | none => exact safe_pure (by simp [Stored])
  | meSessionRevoke auth id =>
    exact runs_bind fun _ _ => runs_bind fun _ _ => runs_bind fun _ _ => runs_bind fun _ _ =>
      runs_bind fun _ _ => runs_bind fun _ _ => runs_bind fun _ _ => runs_revoke
  | userRevokeSessions phiraId =>
    exact runs_bind fun _ _ => runs_bind fun _ _ => runs_bind fun _ _ => runs_bind fun _ _ =>
      runs_bind fun _ _ => runs_bind fun _ _ => safe_pure (by simp [Stored])

end Runs

/-! ## Single use -/

/-- The request number `i` has redeemed the refresh token `token`. -/
def Redeemed (p : System) (token : String) (i : ℕ) : Prop :=
  ∃ reply, p.threads[i]? = some (.refresh (some token), .done (.ok reply))

/-- Some request has returned these tokens. -/
def Returned (p : System) (tokens : Tokens) : Prop :=
  ∃ op, (op, .done (.ok (.issued tokens))) ∈ p.threads

/-- The session would be found by this token. -/
def Redeemable (hash : String → String) (db : Db) (s : Session) (token : String) : Prop :=
  s.refreshHash = hash token ∧ s.isActive db.clock = true

/-- A run of requests from an empty table, in any interleaving, all of whose rotations
    are unraced. -/
abbrev UnracedRun (env : Env) (p : System) : Prop :=
  Reaches (Pool.step (exec env.hash) (Op.program env)) (Pool.Ok (fun _ _ => True) (Unraced env))
    ⟨.empty, []⟩ p

theorem redeemed_once {env : Env} {p : System} (hrun : UnracedRun env p) {token : String} {i j : ℕ}
    (hi : Redeemed p token i) (hj : Redeemed p token j) : i = j := by
  have hpast : ∀ n, Redeemed p token n → p.Past Op.presents (fun _ => Rotates) token n := by
    rintro n ⟨reply, hn⟩
    exact ⟨_, hn, rfl, fun howes => howes.elim⟩
  refine Pool.at_most_once (I := Sound env.hash)
    (U := fun db token => Retired env.hash db (env.hash token)) ?_ ?_ ?_ Sound.empty rfl hrun
    (hpast i hi) (hpast j hj)
  · intro db op e db' h _ hexec
    have heffect := (exec_effect hexec).2
    exact ⟨h.effect heffect, fun token hr => hr.effect heffect⟩
  · exact fun db op e db' token h hunraced hexec => unraced_spends h hunraced hexec
  · exact fun op token => owes_program

theorem sound_and_stored {env : Env} {p : System} (hrun : UnracedRun env p) :
    Sound env.hash p.store ∧
      ∀ tokens, Returned p tokens → (tokens.sid, tokens.refresh) ∈ p.store.tokens := by
  constructor
  · refine hrun.invariant (I := fun p : System => Sound env.hash p.store) Sound.empty ?_
    intro p l p' h _ hstep
    cases l with
    | spawn op => rwa [← Option.some.inj hstep]
    | answer i e =>
      obtain ⟨-, -, -, -, -, hexec, -⟩ := Pool.step_answer hstep
      exact h.effect (exec_effect hexec).2
  · rintro tokens ⟨op, hmem⟩
    have hsafe := Pool.safe (I := fun _ => True) (R := Grows) (W := fun _ => Stored)
      (G := fun _ => Grows) (fun _ => List.Subset.refl _) List.Subset.trans (fun _ _ _ h => h)
      (fun db op _ _ => runs_program op) trivial rfl hrun
    exact hsafe.2 _ hmem p.store (List.Subset.refl _) trivial tokens rfl

/-- In every interleaving in which no rotation is raced, a refresh token is redeemed at
    most once. A session is found by tokens with the hash of its latest one only; among
    those that were ever returned this is the latest one itself. -/
theorem refresh_single_use (env : Env) {p : System} (hrun : UnracedRun env p) :
    (∀ token i j, Redeemed p token i → Redeemed p token j → i = j) ∧
      ∀ s ∈ p.store.sessions,
        (∀ token, Redeemable env.hash p.store s token →
          ∃ last, p.store.latest s.id = some last ∧ env.hash token = env.hash last) ∧
        ∀ tokens, Returned p tokens → Redeemable env.hash p.store s tokens.refresh →
          p.store.latest s.id = some tokens.refresh := by
  obtain ⟨hsound, hstored⟩ := sound_and_stored hrun
  refine ⟨fun token i j => redeemed_once hrun, fun s hs => ⟨fun token hredeem => ?_,
    fun tokens hreturned hredeem => ?_⟩⟩
  · obtain ⟨last, hlast, hhash⟩ := hsound.latest s hs
    exact ⟨last, hlast, hredeem.1.symm.trans hhash⟩
  · obtain ⟨last, hlast, hhash⟩ := hsound.latest s hs
    have heq : (tokens.sid, tokens.refresh) = (s.id, last) :=
      hsound.token_unique (hstored tokens hreturned) (mem_of_latest hlast)
        (hredeem.1.symm.trans hhash)
    rw [hlast, (Prod.mk.inj heq).2]

/-! ## Two requests with one token -/

instance neZero_three : NeZero 3 := ⟨by decide⟩

/-- Three refresh tokens. -/
def sampleRefresh : Fin 3 → String
  | 0 => "cc7bd1821f1978a77acfe12b298a80b3f294b1d8cbf77c6d3dbf42abab1574d8"
  | 1 => "9ead5e956734cc9576b70eefc94ed21f91c064316675af56f5d7e89571e7037d"
  | 2 => "285b7d36c62735f19a810dc4d2ac123d0152dbf871f517cfa69ffdb1481b31d6"

/-- The hashes of these tokens, and the access token of the user 1 in the session 7. -/
def sampleEnv : Env where
  hash token :=
    if token = sampleRefresh 0 then "b34d5e19c076c91373447a6f482dfe9665eb4fa3c059d8cda906a28d64860044"
    else if token = sampleRefresh 1 then
      "71e879bb4b002f8a4a8935e9cc90b3adf777a3ea1bd31577ba465dd966ca77fc"
    else if token = sampleRefresh 2 then
      "9450be806a060f5f88fcd4216b4cf8c7500ad30c7e90dff1e7e01aa75bce08b3"
    else ""
  encode now claims :=
    if now = 1700000000 ∧ claims = Middleware.sampleClaims then some Middleware.sampleToken else none
  decode := Middleware.sampleVendor.decode
  refreshTtlSecs := 2592000

/-- The session 7 as the login has left it. -/
def sampleSession : Session :=
  newSession sampleEnv.hash 7 .user (some 1) .panel (sampleRefresh 0) 1702592000

/-- The user 1 logs in. -/
def loginTrace : List (Label Query Query.Answer Op) :=
  [.spawn (.login .user (some 1) .panel), .answer 0 ⟨.generateRefreshToken, sampleRefresh 0⟩,
    .answer 0 ⟨.now, (1700000000 : ℕ)⟩,
    .answer 0 ⟨.sql (.insertSession .user (some 1) .panel (sampleRefresh 0) 1702592000),
      (1700000000, .ok sampleSession)⟩,
    .answer 0 ⟨.now, (1700000000 : ℕ)⟩]

/-- The request `i` looks his token up. -/
def lookupTrace (i : ℕ) : List (Label Query Query.Answer Op) :=
  [.spawn (.refresh (some (sampleRefresh 0))),
    .answer i ⟨.sql (.findActiveByRefreshHash (sampleEnv.hash (sampleRefresh 0))),
      (1700000000, .ok (some sampleSession))⟩,
    .answer i ⟨.sql (.loadPhiraCredential 1), (1700000000, .ok none)⟩]

/-- The request `i` rotates his token. -/
def rotateTrace (i : ℕ) (token : String) : List (Label Query Query.Answer Op) :=
  [.answer i ⟨.generateRefreshToken, token⟩,
    .answer i ⟨.sql (.rotate 7 token), (1700000000, .ok ())⟩, .answer i ⟨.now, (1700000000 : ℕ)⟩]

/-- `Redeemed`, as a test. -/
def redeemed (p : System) (token : String) (i : ℕ) : Bool :=
  match p.threads[i]? with
  | some (.refresh (some token'), .done (.ok _)) => token' == token
  | _ => false

theorem redeemed_iff {p : System} {token : String} {i : ℕ} :
    redeemed p token i = true ↔ Redeemed p token i := by
  unfold redeemed Redeemed
  split
  · rename_i token' reply hi
    simp [hi]
  · rename_i hi
    constructor
    · nofun
    · rintro ⟨reply, heq⟩
      exact absurd heq (hi token reply)

theorem refresh_single_use_rotated :
    ∃ p, UnracedRun sampleEnv p ∧ Redeemed p (sampleRefresh 0) 1 ∧
      ∀ i, Redeemed p (sampleRefresh 0) i → i = 1 := by
  have hrun : ((runWhile (Pool.step (exec sampleEnv.hash) (Op.program sampleEnv))
      (fun p l => decide (p.Ok (fun _ _ => True) (Unraced sampleEnv) l)) ⟨.empty, []⟩
      (loginTrace ++ lookupTrace 1 ++ rotateTrace 1 (sampleRefresh 1))).any
        fun p => redeemed p (sampleRefresh 0) 1) = true := by decide +kernel
  obtain ⟨p, hp, hone⟩ := exists_reaches_of_runWhile (fun _ _ h => of_decide_eq_true h) hrun
  rw [redeemed_iff] at hone
  exact ⟨p, hp, hone, fun i hi => (refresh_single_use sampleEnv hp).1 _ i 1 hi hone⟩

/-- Two requests look the same token up before either rotates it; both succeed. -/
theorem not_refresh_single_use_raced :
    ∃ p, Reachable (Pool.step (exec sampleEnv.hash) (Op.program sampleEnv)) ⟨.empty, []⟩ p ∧
      Redeemed p (sampleRefresh 0) 1 ∧ Redeemed p (sampleRefresh 0) 2 := by
  have hrun : ((runFrom (Pool.step (exec sampleEnv.hash) (Op.program sampleEnv)) ⟨.empty, []⟩
      (loginTrace ++ lookupTrace 1 ++ lookupTrace 2 ++ rotateTrace 1 (sampleRefresh 1) ++
        rotateTrace 2 (sampleRefresh 2))).any
          fun p => redeemed p (sampleRefresh 0) 1 && redeemed p (sampleRefresh 0) 2) = true := by
    decide +kernel
  obtain ⟨p, hp, hboth⟩ := exists_reachable_of_runFrom hrun
  rw [Bool.and_eq_true, redeemed_iff, redeemed_iff] at hboth
  exact ⟨p, hp, hboth⟩

end Ppb.Sessions
