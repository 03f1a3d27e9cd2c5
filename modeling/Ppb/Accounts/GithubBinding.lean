import Ppb.Accounts.Routes

/-!
# Is a reported GitHub binding real?

`github_callback` looks the GitHub id up, refuses it if it belongs to somebody else, and
binds it with a statement that leaves an existing row alone (`ON CONFLICT … DO NOTHING`
in `bind_github`, identities/repo.rs:60-79). It does not look at the row again, so a
callback that was overtaken by another one says `github=bound` all the same.

* `github_unique`: a GitHub id has one user.
* `bound_is_real`: if no bind statement finds the row of another user, then every
  callback that reports a binding has left the row with its user.
* `not_bound_is_real_raced`: two callbacks that both look before either binds.
-/

namespace Ppb.Accounts

open Prog Shared Trace Middleware

variable {config : Config} {db db' : Db} {op : Op} {user : Uuid} {gid : String}

/-- A GitHub id has one user. -/
theorem github_unique {a b : Identity} (ha : a ∈ db.identities) (hb : b ∈ db.identities)
    (hpa : a.provider = .github) (hpb : b.provider = .github) (hid : a.providerId = b.providerId) :
    a = b := by
  have hkey : (a.provider, a.providerId) = (b.provider, b.providerId) := by rw [hpa, hpb, hid]
  rcases db.identities.eq_or_compat ha hb with h | h | h
  · exact h
  · exact absurd hkey h
  · exact absurd hkey.symm h

/-- The row of the GitHub id, if there is one, is the user's. -/
def Unclaimed (db : Db) (user : Uuid) (gid : String) : Prop :=
  ∀ i ∈ db.identities.rows, i.provider = .github → i.providerId = gid → i.userId = user

instance : Decidable (Unclaimed db user gid) :=
  inferInstanceAs (Decidable (∀ i ∈ db.identities.rows,
    i.provider = .github → i.providerId = gid → i.userId = user))

/-- The user and the GitHub id of a bind statement. -/
def Query.bindsTo : Query → Option (Uuid × String)
  | .bindGithub user gid => some (user, gid)
  | _ => none

/-- No bind statement finds the row of another user. -/
def BindsUnclaimed (db : Db) (e : Event Query Query.Answer) : Prop :=
  ∀ x ∈ e.1.bindsTo, Unclaimed db x.1 x.2

instance (e : Event Query Query.Answer) : Decidable (BindsUnclaimed db e) :=
  Option.decidableForallMem _

/-- After a bind statement that finds no other user's row, the row is the user's. -/
theorem mem_of_bind (h : exec db ⟨.bindGithub user gid, .ok ()⟩ = some db')
    (hfree : Unclaimed db user gid) : ⟨user, .github, gid⟩ ∈ db'.identities := by
  rcases insertIdentity_cases h with ⟨⟨i, hi, hconflict⟩, rfl⟩ | ⟨identities, hinsert, rfl⟩
  · have hkey : (i.provider, i.providerId) = (Provider.github, gid) := not_not.mp hconflict
    obtain ⟨hprovider, hid⟩ := Prod.mk.inj hkey
    have huser : i.userId = user := hfree i hi hprovider hid
    rwa [show (⟨user, .github, gid⟩ : Identity) = i by rw [← huser, ← hprovider, ← hid]]
  · exact (Table.mem_insert hinsert).mpr (.inr rfl)

/-! ## A callback reports what its statement has bound -/

/-- The report of a binding, and the statement it is about. -/
def Reports (user : Uuid) (gid : String) (r : Except ApiError Reply) : Prop := r = .ok (.bound user gid)

def Binds (user : Uuid) (gid : String) (e : Event Query Query.Answer) : Prop :=
  e = ⟨.bindGithub user gid, .ok ()⟩

theorem needs_gatewayError {clientType returnTo : String} {code : ErrorCode} :
    (pure (gatewayError clientType returnTo code) : Handler Reply).Needs (Reports user gid)
      (Binds user gid) := nofun

theorem needs_orRedirect {α : Type} {s : OAuthState} {p : Handler α} {k : α → Handler Reply}
    (hk : ∀ a, (k a).Needs (Reports user gid) (Binds user gid)) :
    (orRedirect s p k).Needs (Reports user gid) (Binds user gid) := by
  refine needs_bind (fun r => ?_) nofun
  cases r with
  | ok a => exact hk a
  | error e => exact needs_gatewayError

theorem needs_redirectTo {target clientType returnTo : String} {code : ErrorCode} {reply : Reply}
    (hreply : reply ≠ .bound user gid) :
    (redirectTo target reply (gatewayError clientType returnTo code)).Needs (Reports user gid)
      (Binds user gid) := by
  unfold redirectTo
  split
  · exact fun hreports => hreply (Except.ok.inj hreports)
  · exact needs_gatewayError

theorem needs_callbackLogin {s : OAuthState} {existing : Option Identity} :
    (callbackLogin config s existing).Needs (Reports user gid) (Binds user gid) := by
  unfold callbackLogin
  split
  · exact needs_gatewayError
  · split
    · exact needs_gatewayError
    · exact needs_gatewayError
    · exact needs_gatewayError
    · refine needs_orRedirect fun _ => needs_orRedirect fun _ => needs_orRedirect fun _ => ?_
      exact needs_redirectTo nofun

/-- The statement that binds, at the front of what reports it. -/
theorem needs_bindGithub {s : OAuthState} {user' : Uuid} {gid' : String} {k : Unit → Handler Reply}
    (hk : (user' = user ∧ gid' = gid) ∨ (k ()).Needs (Reports user gid) (Binds user gid)) :
    (orRedirect s (ask (.bindGithub user' gid') >>= mapErr identityErr) k).Needs (Reports user gid)
      (Binds user gid) := by
  intro bound
  cases bound with
  | error e => exact .inr needs_gatewayError
  | ok _ =>
    rcases hk with ⟨rfl, rfl⟩ | hk
    · exact .inl rfl
    · exact .inr hk

theorem needs_callbackBind {s : OAuthState} {gid' : String} {existing : Option Identity} :
    (callbackBind config s gid' existing).Needs (Reports user gid) (Binds user gid) := by
  unfold callbackBind
  generalize trimEndSlashes config.ppfUrl ++ "/profile?github=bound" = target
  split
  · exact needs_gatewayError
  · rename_i user' _
    split
    · exact needs_gatewayError
    · refine needs_bindGithub ?_
      by_cases hsame : user' = user ∧ gid' = gid
      · exact .inl hsame
      · refine .inr (needs_redirectTo fun heq => hsame ?_)
        obtain ⟨rfl, rfl⟩ := Reply.bound.inj heq
        exact ⟨rfl, rfl⟩

theorem needs_githubCallback {headers : HeaderMap} {params : GithubCallbackParams} :
    (githubCallback config headers params).Needs (Reports user gid) (Binds user gid) := by
  refine needs_ask fun limited => .inr ?_
  cases limited with
  | error e => exact needs_gatewayError
  | ok _ =>
    refine needs_ask fun limited => .inr ?_
    cases limited with
    | error e => exact needs_gatewayError
    | ok _ =>
      dsimp only
      split
      · exact needs_gatewayError
      · refine needs_ask fun answer => .inr ?_
        split
        · exact needs_gatewayError
        · rename_i s _
          unfold callbackWith
          split
          · exact needs_gatewayError
          · split
            · exact needs_gatewayError
            · refine needs_orRedirect fun github => needs_orRedirect fun existing => ?_
              split
              · exact needs_callbackLogin
              · exact needs_callbackBind

/-- The run leads to `p`, and no bind statement in it finds the row of another user. -/
abbrev UnclaimedRun (config : Config) (p₀ p : System) : Prop :=
  Reaches (Pool.step exec (Op.program config)) (Pool.Ok (fun _ _ => True) fun _ => BindsUnclaimed) p₀ p

/-- A callback that reports a binding has asked for it; if no bind statement of the run
    found the row of another user, the row was the user's after that statement. At any
    time, in any run, a GitHub id has at most one user. -/
theorem bound_is_real (config : Config) (users : Table User UserKeys)
    (identities : Table Identity IdentityKeys) (acceptances : List Acceptance) (p : System)
    (hrun : UnclaimedRun config ⟨.boot users identities acceptances, []⟩ p) :
    (∀ i headers params user gid,
      p.threads[i]? = some (.githubCallback headers params, .done (.ok (.bound user gid))) →
      ∃ p₁ p₂, UnclaimedRun config ⟨.boot users identities acceptances, []⟩ p₁ ∧
        p₁.step exec (Op.program config) (.answer i ⟨.bindGithub user gid, .ok ()⟩) = some p₂ ∧
        UnclaimedRun config p₂ p ∧ ⟨user, .github, gid⟩ ∈ p₂.store.identities) ∧
    ∀ p, Reachable (Pool.step exec (Op.program config)) ⟨.boot users identities acceptances, []⟩ p →
      ∀ a ∈ p.store.identities, ∀ b ∈ p.store.identities, a.provider = .github →
        b.provider = .github → a.providerId = b.providerId → a.userId = b.userId := by
  constructor
  · intro i headers params user gid hi
    have hpassed : p.Passed (fun op => if op.isCallback then some () else none)
        (fun _ rest => rest.Needs (Reports user gid) (Binds user gid)) () i :=
      ⟨_, hi, rfl, fun hneeds => hneeds rfl⟩
    have hneeds : ∀ (op : Op) k, (if op.isCallback then some () else none) = some k →
        (op.program config).Needs (Reports user gid) (Binds user gid) := by
      intro op k hk
      cases op with
      | githubCallback headers params => exact needs_githubCallback
      | phiraLogin _ _ | githubStart _ _ | githubLoginStart _ _ | githubUnbind _ => cases hk
    obtain ⟨p₁, e, p₂, t, h₁, ht, -, rfl, hok, hstep, h₂⟩ :=
      Pool.happened (C := fun _ => Binds user gid) hneeds (fun _ _ _ _ h hf => h.follow hf) rfl hrun
        hpassed
    refine ⟨p₁, p₂, h₁, hstep, h₂, ?_⟩
    obtain ⟨op, rest, rest', -, -, hexec, -⟩ := Pool.step_answer hstep
    exact mem_of_bind hexec (hok t ht (user, gid) rfl)
  · intro p _ a ha b hb hpa hpb hid
    rw [github_unique ha hb hpa hpb hid]

/-! ### Two callbacks at once -/

/-- The state of a bind that the user has started. -/
def bindState (user : Uuid) : OAuthState :=
  { userId := some user, clientType := "ppf", mode := .bind, returnTo := "/profile"
    acceptedLegal := false, termsVersion := "", privacyVersion := "", createdAt := 1700000000 }

/-- The user starts a bind with the request `i` and is given the token. -/
def startBind (i : ℕ) (user : Uuid) (key token : String) : List (Label Query Query.Answer Op) :=
  [.spawn (.githubStart ⟨user, 7, .user, .ppf, "r"⟩ []), .answer i ⟨.rateLimit key, .ok ()⟩,
    .answer i ⟨.rateLimit "github-provider:start", .ok ()⟩,
    .answer i ⟨.authorizeUrl, (1700000000, some token)⟩,
    .answer i ⟨.bindStateToUser token user "ppf", ()⟩]

/-- The callback `i` with the token finds the GitHub id 77 free. -/
def lookUp (i : ℕ) (user : Uuid) (token : String) : List (Label Query Query.Answer Op) :=
  [.spawn (.githubCallback [] ⟨some "code", some token, none⟩),
    .answer i ⟨.rateLimit "github-callback:", .ok ()⟩,
    .answer i ⟨.rateLimit "github-provider:callback", .ok ()⟩,
    .answer i ⟨.consumeState token, (1700000030, some (bindState user))⟩,
    .answer i ⟨.exchangeCode "code", .ok ⟨77, "hub"⟩⟩, .answer i ⟨.findGithub "77", .ok none⟩]

/-- The user 1 starts a bind, and so does the user 2. -/
def startBoth : List (Label Query Query.Answer Op) :=
  startBind 0 1 "github-bind-start:00000000-0000-0000-0000-000000000001:" "a" ++
    startBind 1 2 "github-bind-start:00000000-0000-0000-0000-000000000002:" "b"

/-- The request `i` was answered with the report of this binding. -/
def reported (p : System) (i : ℕ) (user : Uuid) (gid : String) : Bool :=
  match p.threads[i]? with
  | some (.githubCallback _ _, .done (.ok reply)) => reply == .bound user gid
  | _ => false

theorem reported_iff {p : System} {i : ℕ} {user : Uuid} {gid : String} :
    reported p i user gid = true ↔
      ∃ headers params,
        p.threads[i]? = some (.githubCallback headers params, .done (.ok (.bound user gid))) := by
  unfold reported
  split
  · rename_i headers params reply hi
    rw [beq_iff_eq]
    constructor
    · rintro rfl
      exact ⟨headers, params, hi⟩
    · rintro ⟨headers', params', hi'⟩
      rw [hi] at hi'
      exact Except.ok.inj (Prog.done.inj (Prod.mk.inj (Option.some.inj hi')).2)
  · rename_i hother
    constructor
    · nofun
    · rintro ⟨headers, params, hi⟩
      exact absurd hi (hother headers params _)

theorem bound_is_real_alone :
    ∃ p p₂, UnclaimedRun sampleConfig ⟨.boot .empty .empty [], []⟩ p ∧
      reported p 2 1 "77" = true ∧ UnclaimedRun sampleConfig p₂ p ∧
      ⟨1, .github, "77"⟩ ∈ p₂.store.identities := by
  have hrun : ((runWhile (Pool.step exec (Op.program sampleConfig))
      (fun p l => decide (p.Ok (fun _ _ => True) (fun _ => BindsUnclaimed) l))
      ⟨.boot .empty .empty [], []⟩
      (startBoth ++ lookUp 2 1 "a" ++ [.answer 2 ⟨.bindGithub 1 "77", .ok ()⟩])).any
        fun p => reported p 2 1 "77") = true := by decide +kernel
  obtain ⟨p, hp, hreport⟩ := exists_reaches_of_runWhile (fun _ _ h => of_decide_eq_true h) hrun
  obtain ⟨headers, params, hi⟩ := reported_iff.mp hreport
  obtain ⟨p₁, p₂, -, -, h₂, hmem⟩ :=
    (bound_is_real sampleConfig .empty .empty [] p hp).1 2 headers params 1 "77" hi
  exact ⟨p, p₂, hp, hreport, h₂, hmem⟩

/-- Both callbacks find the GitHub id free, then both bind it: the second is told so
    by its last question, and the row is the first one's. -/
theorem not_bound_is_real_raced :
    ∃ p p', Reachable (Pool.step exec (Op.program sampleConfig)) ⟨.boot .empty .empty [], []⟩ p ∧
      p.step exec (Op.program sampleConfig) (.answer 3 ⟨.bindGithub 2 "77", .ok ()⟩) = some p' ∧
      (∃ headers params,
        p'.threads[3]? = some (.githubCallback headers params, .done (.ok (.bound 2 "77")))) ∧
      ⟨2, .github, "77"⟩ ∉ p'.store.identities.rows ∧
      ⟨1, .github, "77"⟩ ∈ p'.store.identities.rows := by
  have hrun : ((runFrom (Pool.step exec (Op.program sampleConfig)) ⟨.boot .empty .empty [], []⟩
      (startBoth ++ lookUp 2 1 "a" ++ lookUp 3 2 "b" ++
        [.answer 2 ⟨.bindGithub 1 "77", .ok ()⟩])).any fun p =>
          (p.step exec (Op.program sampleConfig) (.answer 3 ⟨.bindGithub 2 "77", .ok ()⟩)).any
            fun p' => reported p' 3 2 "77" && decide (⟨2, .github, "77"⟩ ∉ p'.store.identities.rows ∧
              ⟨1, .github, "77"⟩ ∈ p'.store.identities.rows)) = true := by decide +kernel
  obtain ⟨p, hp, hnext⟩ := exists_reachable_of_runFrom hrun
  obtain ⟨p', hstep, htest⟩ := (Option.any_eq_true _ _).mp hnext
  obtain ⟨hreport, hrows⟩ := Bool.and_eq_true_iff.mp htest
  exact ⟨p, p', hp, hstep, reported_iff.mp hreport, of_decide_eq_true hrows⟩

end Ppb.Accounts
