import Ppb.Accounts.Routes

/-!
# No session without consent

Before a login creates a session it looks for a row with the current versions of the
legal documents, or takes the consent of the request, or the one the OAuth state
remembers, if that is for the current versions, and records it. Rows are never deleted
and a Phira id keeps its user, so what was found earlier in a request still holds when
the session is created.

* `Accepted legal db user`: the documents are configured and the user has accepted the
  current versions.
* `Logs legal p db P`: the program creates sessions only with consent; its parts are
  `logs_acceptanceForLogin`, `logs_commitLogin`, `logs_recordAcceptance`.
* `session_has_consent`: whenever a session is created for a user, he has accepted.
-/

namespace Ppb.Accounts

open Prog Shared Trace Middleware

variable {config : Config} {legal : LegalConfig} {db db' : Db} {user : Uuid}

/-- The user has accepted the versions that are configured now. -/
def Accepted (legal : LegalConfig) (db : Db) (user : Uuid) : Prop :=
  ∃ v, currentVersions legal = .ok v ∧ ⟨user, v.termsVersion, v.privacyVersion⟩ ∈ db.acceptances

/-- What no endpoint undoes. -/
structure Keeps (db db' : Db) : Prop where
  acceptances : db.acceptances ⊆ db'.acceptances
  users : ∀ u ∈ db.users, u ∈ db'.users

/-- A session is created only for a user who has accepted. -/
structure Consents (legal : LegalConfig) (db db' : Db) : Prop extends Keeps db db' where
  accepted : ∀ user, db'.issued = user :: db.issued → Accepted legal db user

theorem Keeps.refl (db : Db) : Keeps db db := ⟨List.Subset.refl _, fun _ h => h⟩

theorem Keeps.trans {a b c : Db} (hab : Keeps a b) (hbc : Keeps b c) : Keeps a c :=
  ⟨List.Subset.trans hab.acceptances hbc.acceptances, fun u hu => hbc.users u (hab.users u hu)⟩

theorem Accepted.keeps (h : Accepted legal db user) (hk : Keeps db db') : Accepted legal db' user := by
  obtain ⟨v, hv, hmem⟩ := h
  exact ⟨v, hv, hk.acceptances hmem⟩

/-! ## What a question does -/

/-- The parts of the store that consent is about. -/
theorem Effect.consent {q : Query} (h : Effect q db db') :
    Keeps db db' ∧ (db'.issued = db.issued ∨
      ∃ user, q.issues = some user ∧ db'.issued = user :: db.issued) := by
  cases h with
  | unchanged h =>
    subst h
    exact ⟨.refl _, .inl rfl⟩
  | upserted user h =>
    rcases upsertUser_cases h with rfl | ⟨users, hinsert, rfl⟩
    · exact ⟨.refl _, .inl rfl⟩
    · refine ⟨⟨List.Subset.refl _, fun u hu => ?_⟩, .inl rfl⟩
      exact (Table.mem_insert hinsert).mpr (.inl hu)
  | accepted a h =>
    subst h
    exact ⟨⟨fun b hb => List.mem_insert_of_mem hb, fun _ hu => hu⟩, .inl rfl⟩
  | issued user hq h =>
    subst h
    exact ⟨⟨List.Subset.refl _, fun _ hu => hu⟩, .inr ⟨user, hq, rfl⟩⟩
  | phira user id h | bound user gid hq h =>
    rcases insertIdentity_cases h with ⟨-, rfl⟩ | ⟨identities, -, rfl⟩
    · exact ⟨.refl _, .inl rfl⟩
    · exact ⟨⟨List.Subset.refl _, fun _ hu => hu⟩, .inl rfl⟩
  | unbound i h =>
    subst h
    exact ⟨⟨List.Subset.refl _, fun _ hu => hu⟩, .inl rfl⟩
  | pruned now h =>
    subst h
    exact ⟨⟨List.Subset.refl _, fun _ hu => hu⟩, .inl rfl⟩
  | drawn now token h =>
    simp only [Db.drawState] at h
    split_ifs at h
    obtain ⟨states, -, rfl⟩ := Option.map_eq_some_iff.mp h
    exact ⟨⟨List.Subset.refl _, fun _ hu => hu⟩, .inl rfl⟩
  | marked token starter f hq htoken hf h =>
    obtain ⟨states, -, rfl⟩ := Option.map_eq_some_iff.mp h
    exact ⟨⟨List.Subset.refl _, fun _ hu => hu⟩, .inl rfl⟩
  | consumed token state now hq h =>
    simp only [Db.consumeState] at h
    split_ifs at h
    obtain rfl := Option.some.inj h
    exact ⟨⟨List.Subset.refl _, fun _ hu => hu⟩, .inl rfl⟩

theorem consents_of_exec {e : Event Query Query.Answer} (h : exec db e = some db')
    (hissues : ∀ user, e.1.issues = some user → Accepted legal db user) :
    Consents legal db db' := by
  obtain ⟨hkeeps, hissued⟩ := (exec_effect h).consent
  refine ⟨hkeeps, fun user heq => ?_⟩
  rcases hissued with hsame | ⟨user', hq, hcons⟩
  · rw [hsame] at heq
    exact absurd (congrArg List.length heq) (by simp)
  · rw [hcons] at heq
    rw [← (List.cons.inj heq).1]
    exact hissues user' hq

/-! ## Parts of a login -/

/-- `p` creates sessions only with consent, and ends in `P`. -/
abbrev Logs (legal : LegalConfig) {α : Type} (p : Handler α) (db : Db)
    (P : Db → Except ApiError α → Prop) : Prop :=
  Safe (fun db e db' => exec db e = some db' ∧ True) (fun _ => True) Keeps (Consents legal) p db P

section Rules

variable {α β : Type} {p : Handler α} {k : α → Handler β} {P : Db → Except ApiError α → Prop}
  {W : Db → Except ApiError β → Prop}

/-- A part that creates no session. -/
theorem logs_only (hp : p.Only fun q => q.issues = none) : Logs legal p db fun _ _ => True := by
  refine safe_mono (safe_of_wp (C := fun q => q.issues = none) hp.wp (h := []) ?_) fun _ _ _ => trivial
  intro db e db' hnone _ hdoes
  refine ⟨trivial, consents_of_exec hdoes.1 fun user hissues => ?_⟩
  rw [hnone] at hissues
  cases hissues

/-- In sequence, with what is still true after the first part. -/
theorem logs_bind (hp : Logs legal p db P)
    (hok : ∀ db' a, Keeps db db' → P db' (.ok a) → Logs legal (k a) db' W)
    (herr : ∀ db' e, W db' (.error e)) : Logs legal (p >>= k) db W := by
  have hsince := safe_since Keeps.refl Keeps.trans Consents.toKeeps hp
  exact safe_bind Keeps.refl trivial hsince (fun db' a _ h => hok db' a h.1 h.2)
    fun db' e _ _ => herr db' e

theorem logs_skip (hp : p.Only fun q => q.issues = none)
    (hok : ∀ db' a, Keeps db db' → Logs legal (k a) db' W) (herr : ∀ db' e, W db' (.error e)) :
    Logs legal (p >>= k) db W :=
  logs_bind (logs_only hp) (fun db' a hk _ => hok db' a hk) herr

theorem logs_ask {q : Query} {k : q.Answer → Handler β} (hq : q.issues = none)
    (hk : ∀ a db₁ db₂, Keeps db db₂ → exec db₁ ⟨q, a⟩ = some db₂ → Logs legal (k a) db₂ W) :
    Logs legal (ask q >>= k) db W := by
  intro db₁ hkeeps _ a db₂ hdoes
  have hconsents : Consents legal db₁ db₂ := consents_of_exec hdoes.1 fun user hissues => by
    rw [hq] at hissues
    cases hissues
  exact ⟨⟨trivial, hconsents⟩, hk a db₁ db₂ (hkeeps.trans hconsents.toKeeps) hdoes.1⟩

theorem logs_ofExcept {r : Except ApiError α} (hok : ∀ a, r = .ok a → Logs legal (k a) db W)
    (herr : ∀ db' e, W db' (.error e)) : Logs legal (ofExcept r >>= k) db W := by
  cases r with
  | error e => exact fun db' _ _ => herr db' e
  | ok a => exact hok a rfl

theorem logs_mapErr {f : DbError → ApiError} {r : Except DbError α}
    (hok : ∀ a, r = .ok a → Logs legal (k a) db W) (herr : ∀ db' e, W db' (.error e)) :
    Logs legal (mapErr f r >>= k) db W := by
  cases r with
  | error e => exact fun db' _ _ => herr db' (f e)
  | ok a => exact hok a rfl

theorem logs_orRedirect {s : OAuthState} {k : α → Handler Reply} (hp : Logs legal p db P)
    (hok : ∀ db' a, Keeps db db' → P db' (.ok a) → Logs legal (k a) db' fun _ _ => True) :
    Logs legal (orRedirect s p k) db fun _ _ => True := by
  refine logs_bind (safe_attempt (P := fun db' r => ∀ a, r = .ok (.ok a) → P db' (.ok a)) ?_)
    (fun db' r hkeeps hr => ?_) fun _ _ => trivial
  · refine safe_mono hp fun db' r hr a heq => ?_
    rwa [Except.ok.inj heq] at hr
  · cases r with
    | ok a => exact hok db' a hkeeps (hr a rfl)
    | error e => exact fun _ _ _ => trivial

end Rules

theorem issues_none {op : Op} {q : Query} (hlogs : op.logsIn = false) (h : op.MayAsk q) :
    q.issues = none := by
  cases hissues : q.issues with
  | none => rfl
  | some user => exact absurd (h.issues user hissues) (by simp [hlogs])

/-- Only the current versions can be accepted. -/
theorem currentVersions_of_validate {accepted : Bool} {termsVersion privacyVersion : Option String}
    {v : LegalAcceptance}
    (h : validateAcceptance legal accepted termsVersion privacyVersion = .ok v) :
    currentVersions legal = .ok v := by
  unfold validateAcceptance at h
  cases hcurrent : currentVersions legal with
  | error e =>
    rw [hcurrent] at h
    cases h
  | ok current =>
    rw [hcurrent] at h
    simp only [Bind.bind, Except.bind] at h
    split_ifs at h
    rw [Except.ok.inj h]

/-- What `acceptance_for_login` leaves to record. -/
theorem logs_acceptanceForLogin {existing : Option Uuid} {accepted : Bool}
    {termsVersion privacyVersion : Option String} :
    Logs legal (acceptanceForLogin existing legal accepted termsVersion privacyVersion) db
      fun db' r => ∀ acceptance, r = .ok acceptance →
        match acceptance with
        | none => ∃ user, existing = some user ∧ Accepted legal db' user
        | some v => currentVersions legal = .ok v := by
  refine logs_ofExcept (fun v hv => ?_) fun _ _ _ => nofun
  refine logs_bind (P := fun db' r => r = .ok true → ∃ user, existing = some user ∧
    Accepted legal db' user) ?_ (fun db' already hkeeps halready => ?_) fun _ _ _ => nofun
  · cases existing with
    | none => exact fun db' _ _ hr => by cases hr
    | some user =>
      refine logs_ofExcept (fun v hv => ?_) fun _ _ => nofun
      refine logs_ask rfl fun found db₁ db₂ hkeeps hexec => ?_
      obtain ⟨rfl, hfound⟩ := reads_cases hexec
      cases found with
      | error e => exact fun _ _ _ hr => by cases hr
      | ok found =>
        intro db' hkeeps' _ hr
        obtain rfl : found = true := Except.ok.inj hr
        refine ⟨user, rfl, Accepted.keeps ⟨v, hv, ?_⟩ hkeeps'⟩
        exact of_decide_eq_true (hfound true rfl).symm
  · cases already with
    | true =>
      intro db'' hkeeps' _ acceptance heq
      obtain rfl := Except.ok.inj heq
      obtain ⟨user, huser, haccepted⟩ := halready rfl
      exact ⟨user, huser, haccepted.keeps hkeeps'⟩
    | false =>
      refine logs_ofExcept (fun v' hv' => ?_) fun _ _ _ => nofun
      intro db'' _ _ acceptance heq
      obtain rfl := Except.ok.inj heq
      exact currentVersions_of_validate hv'

/-- After `record_acceptance` there is a row. -/
theorem logs_recordAcceptance {clientType : ClientType} {source : String}
    {acceptance : Option LegalAcceptance} (hnone : acceptance = none → Accepted legal db user)
    (hsome : ∀ v ∈ acceptance, currentVersions legal = .ok v) :
    Logs legal (recordAcceptance user clientType source acceptance) db
      fun db' r => r = .ok () → Accepted legal db' user := by
  cases acceptance with
  | none => exact fun db' hkeeps _ _ => (hnone rfl).keeps hkeeps
  | some v =>
    refine logs_ask rfl fun recorded db₁ db₂ _ hexec => ?_
    cases recorded with
    | error e => exact fun _ _ _ hr => by cases hr
    | ok _ =>
      intro db' hkeeps _ _
      obtain rfl := Option.some.inj hexec
      exact Accepted.keeps ⟨v, hsome v rfl, List.mem_insert_self⟩ hkeeps

/-- The session itself. -/
theorem logs_issueSession {α : Type} {clientType : ClientType}
    {k : Except ApiError Unit → Handler α} {W : Db → Except ApiError α → Prop}
    (haccepted : Accepted legal db user) (hk : ∀ a db', Keeps db db' → Logs legal (k a) db' W) :
    Logs legal (ask (.issueSession user clientType) >>= k) db W := by
  intro db₁ hkeeps _ a db₂ hdoes
  have hconsents : Consents legal db₁ db₂ := consents_of_exec hdoes.1 fun user' hissues => by
    rw [← Option.some.inj hissues]
    exact haccepted.keeps hkeeps
  exact ⟨⟨trivial, hconsents⟩, hk a db₂ (hkeeps.trans hconsents.toKeeps)⟩

/-- `commit_login` ends with the user of the Phira id. -/
theorem logs_commitLogin {phiraId : Int64} :
    Logs legal (commitLogin phiraId) db
      fun db' r => ∀ u, r = .ok u → u ∈ db'.users ∧ u.phiraId = phiraId := by
  refine logs_ask rfl fun upserted db₁ db₂ _ hexec => ?_
  refine logs_mapErr (fun u hu => ?_) fun _ _ _ => nofun
  subst hu
  have hfound : u ∈ db₂.users ∧ u.phiraId = phiraId := by
    simp only [exec, orUnchanged, Db.upsertUser] at hexec
    split_ifs at hexec with hid hmem
    · obtain rfl := Option.some.inj hexec
      exact ⟨hmem, hid⟩
    · obtain ⟨users, hinsert, rfl⟩ := Option.map_eq_some_iff.mp hexec
      exact ⟨(Table.mem_insert hinsert).mpr (.inr rfl), hid⟩
  have hrest : ∀ {α : Type} {p : Handler α} {k : α → Handler User} {db' : Db},
      p.Only (fun q => q.issues = none) → (∀ a db'', Keeps db₂ db'' → Logs legal (k a) db''
        fun db' r => ∀ u, r = .ok u → u ∈ db'.users ∧ u.phiraId = phiraId) → Keeps db₂ db' →
      Logs legal (p >>= k) db' fun db' r => ∀ u, r = .ok u → u ∈ db'.users ∧ u.phiraId = phiraId :=
    fun hp hk hkeeps => logs_skip hp (fun db'' a h => hk a db'' (hkeeps.trans h)) fun _ _ _ => nofun
  refine hrest (only_query rfl) (fun _ _ h => ?_) (.refl _)
  refine hrest only_mapErr (fun _ _ h => ?_) h
  refine hrest (only_query rfl) (fun _ _ h => ?_) h
  refine hrest only_done (fun _ _ h => ?_) h
  refine hrest (only_query rfl) (fun _ _ h => ?_) h
  refine hrest only_done (fun _ _ h => ?_) h
  intro db' hkeeps _ u' hu'
  obtain rfl := Except.ok.inj hu'
  exact ⟨(h.trans hkeeps).users u hfound.1, hfound.2⟩

/-! ## Logins -/

/-- A Phira id has one user. -/
theorem eq_of_phiraId {a b : User} (ha : a ∈ db.users) (hb : b ∈ db.users)
    (hid : a.phiraId = b.phiraId) : a = b := by
  rcases db.users.eq_or_compat ha hb with h | h | h
  · exact h
  · exact absurd hid h.2
  · exact absurd hid.symm h.2

theorem logs_phiraLogin {headers : HeaderMap} {body : PhiraLoginRequest} :
    Logs config.legal (phiraLogin config headers body) db fun _ _ => True := by
  have hchecks : (checkLogin config headers body).Only asksNothing.MayAsk := only_checkLogin
  refine logs_skip (hchecks.mono fun q => issues_none rfl)
    (fun db clientType _ => ?_) fun _ _ => trivial
  refine logs_skip (only_query rfl) (fun db authenticated _ => ?_) fun _ _ => trivial
  refine logs_ofExcept (fun phiraId _ => ?_) fun _ _ => trivial
  refine logs_ask rfl fun found db₁ db₂ hkeeps hexec => ?_
  refine logs_mapErr (fun existing hexisting => ?_) fun _ _ => trivial
  -- the user that was found is the one `commit_login` ends with
  have hrow : ∀ u ∈ existing, u ∈ db₂.users ∧ u.phiraId = phiraId := by
    intro u hu
    obtain ⟨rfl, hfound⟩ := reads_cases hexec
    rw [hfound existing hexisting] at hu
    have hid := List.find?_some hu
    exact ⟨List.mem_of_find?_eq_some hu, by simpa using hid⟩
  refine logs_bind logs_acceptanceForLogin (fun db₃ acceptance hkeeps₃ hacceptance => ?_)
    fun _ _ => trivial
  refine logs_bind logs_commitLogin (fun db₄ user hkeeps₄ huser => ?_) fun _ _ => trivial
  obtain ⟨huser, hid⟩ := huser user rfl
  have hleft := hacceptance acceptance rfl
  refine logs_bind (logs_recordAcceptance ?_ ?_) (fun db₅ _ _ haccepted => ?_) fun _ _ => trivial
  · rintro rfl
    obtain ⟨user', hsome, haccepted⟩ := hleft
    obtain ⟨u, hu, rfl⟩ := Option.map_eq_some_iff.mp hsome
    have hmem := (hkeeps₃.trans hkeeps₄).users u (hrow u hu).1
    rw [← eq_of_phiraId hmem huser ((hrow u hu).2.trans hid.symm)]
    exact haccepted.keeps hkeeps₄
  · rintro v rfl
    exact hleft
  · refine logs_issueSession (haccepted rfl) fun _ db₆ _ => ?_
    exact logs_ofExcept (fun _ _ _ _ _ => trivial) fun _ _ => trivial

theorem logs_callbackLogin {s : OAuthState} {existing : Option Identity} :
    Logs config.legal (callbackLogin config s existing) db fun _ _ => True := by
  unfold callbackLogin
  split
  · exact fun _ _ _ => trivial
  · rename_i identity
    split
    · exact fun _ _ _ => trivial
    · exact fun _ _ _ => trivial
    · exact fun _ _ _ => trivial
    · refine logs_orRedirect logs_acceptanceForLogin fun db₁ acceptance _ hacceptance => ?_
      have hleft := hacceptance acceptance rfl
      refine logs_orRedirect (logs_recordAcceptance ?_ ?_) fun db₂ _ _ haccepted => ?_
      · rintro rfl
        obtain ⟨user, hsome, haccepted⟩ := hleft
        rw [Option.some.inj hsome]
        exact haccepted
      · rintro v rfl
        exact hleft
      · refine logs_orRedirect (P := fun _ _ => True)
          (logs_issueSession (haccepted rfl) fun answer db₃ _ => ?_)
          fun _ _ _ _ => logs_only only_redirectTo
        exact logs_only (only_done (r := answer))

/-- Binding creates no session. -/
theorem only_callbackBind_issues {s : OAuthState} {gid : String} {existing : Option Identity} :
    (callbackBind config s gid existing).Only fun q => q.issues = none := by
  unfold callbackBind
  split
  · exact only_done
  · split
    · exact only_done
    · exact only_orRedirect (only_bind (only_query rfl) fun _ => only_mapErr) fun _ =>
        only_redirectTo

theorem logs_callbackWith {params : GithubCallbackParams} {s : OAuthState} :
    Logs config.legal (callbackWith config params s) db fun _ _ => True := by
  unfold callbackWith
  split
  · exact fun _ _ _ => trivial
  · split
    · exact fun _ _ _ => trivial
    · refine logs_orRedirect (logs_only (only_bind (only_query rfl) fun _ => only_done))
        fun db₁ github _ _ => ?_
      refine logs_orRedirect (logs_only (only_bind (only_query rfl) fun _ => only_mapErr))
        fun db₂ existing _ _ => ?_
      split
      · exact logs_callbackLogin
      · exact logs_only only_callbackBind_issues

theorem logs_githubCallback {headers : HeaderMap} {params : GithubCallbackParams} :
    Logs config.legal (githubCallback config headers params) db fun _ _ => True := by
  refine logs_ask rfl fun limited _ db₁ _ _ => ?_
  cases limited with
  | error e => exact fun _ _ _ => trivial
  | ok _ =>
    refine logs_ask rfl fun limited _ db₂ _ _ => ?_
    cases limited with
    | error e => exact fun _ _ _ => trivial
    | ok _ =>
      dsimp only
      split
      · exact fun _ _ _ => trivial
      · refine logs_ask rfl fun answer _ db₃ _ _ => ?_
        split
        · exact fun _ _ _ => trivial
        · exact logs_callbackWith

theorem logs_program (op : Op) : Logs config.legal (op.program config) db fun _ _ => True := by
  cases op with
  | phiraLogin headers body => exact logs_phiraLogin
  | githubCallback headers params => exact logs_githubCallback
  | githubStart auth headers =>
    exact logs_only ((only_program config _).mono fun q => issues_none rfl)
  | githubLoginStart headers params =>
    exact logs_only ((only_program config _).mono fun q => issues_none rfl)
  | githubUnbind auth => exact logs_only ((only_program config _).mono fun q => issues_none rfl)

/-- Whatever acceptances and OAuth states there were before: when a session is created
    for a user, the legal documents are configured and there is a row with which he has
    accepted their current versions. -/
theorem session_has_consent (config : Config) (p₀ p p' : System) (hstart : p₀.threads = [])
    (hrun : Reachable (Pool.step exec (Op.program config)) p₀ p) (i : ℕ) (user : Uuid)
    (clientType : ClientType) (answer : Except ApiError Unit)
    (hstep : p.step exec (Op.program config) (.answer i ⟨.issueSession user clientType, answer⟩) =
      some p') :
    ∃ v, currentVersions config.legal = .ok v ∧
      ⟨user, v.termsVersion, v.privacyVersion⟩ ∈ p.store.acceptances := by
  have hsafe := Pool.safe (I := fun _ => True) (R := Keeps) (O := fun _ _ => True)
    (E := fun _ _ _ => True) (G := fun _ => Consents config.legal) (W := fun _ _ _ => True)
    Keeps.refl Keeps.trans (fun _ _ _ => Consents.toKeeps)
    (fun db op _ _ => logs_program op) trivial hstart
    (hrun.mono fun p l _ => by cases l <;> simp [Pool.Ok])
  obtain ⟨op, rest, rest', hi, -, hexec, -⟩ := Pool.step_answer hstep
  have hguar : Consents config.legal p.store p'.store :=
    Pool.guarantee (I := fun _ => True) (E := fun _ _ _ => True)
      (W := fun _ _ _ => True) (G := fun _ => Consents config.legal) Keeps.refl trivial hsafe.2 hi
      trivial hstep
  exact hguar.accepted user (by rw [← Option.some.inj hexec])

/-! ### A login -/

/-- The user 1 logs in for the first time; his session is the next step. -/
def firstLogin : List (Label Query Query.Answer Op) :=
  [.spawn (.phiraLogin [] ⟨"a@b", "secret", none, none, some true, some "2024-01", some "2024-02"⟩),
    .answer 0 ⟨.rateLimit "login:", .ok ()⟩,
    .answer 0 ⟨.authenticatePhira "a@b" "secret", .ok 5⟩,
    .answer 0 ⟨.findUserByPhiraId 5, .ok none⟩, .answer 0 ⟨.upsertUser 5, .ok ⟨1, 5⟩⟩,
    .answer 0 ⟨.upsertPhiraIdentity 1 5, .ok ()⟩, .answer 0 ⟨.storePhiraCredential 1, .ok ()⟩,
    .answer 0 ⟨.ensureUserInDefaultGroup 1, .ok ()⟩,
    .answer 0 ⟨.recordAcceptance 1 .ppf "2024-01" "2024-02" "phira_login", .ok ()⟩]

theorem session_has_consent_login :
    ∃ p p' : System, Reachable (Pool.step exec (Op.program sampleConfig))
        ⟨.boot .empty .empty [], []⟩ p ∧
      p.step exec (Op.program sampleConfig) (.answer 0 ⟨.issueSession 1 .ppf, .ok ()⟩) = some p' ∧
      ⟨1, "2024-01", "2024-02"⟩ ∈ p.store.acceptances := by
  have hrun : ((runFrom (Pool.step exec (Op.program sampleConfig)) ⟨.boot .empty .empty [], []⟩
      firstLogin).any fun p => (p.step exec (Op.program sampleConfig)
        (.answer 0 ⟨.issueSession 1 .ppf, .ok ()⟩)).isSome) = true := by decide +kernel
  obtain ⟨p, hp, hsome⟩ := exists_reachable_of_runFrom hrun
  obtain ⟨p', hstep⟩ := Option.isSome_iff_exists.mp hsome
  obtain ⟨v, hv, hmem⟩ := session_has_consent sampleConfig _ p p' rfl hp 0 1 .ppf (.ok ()) hstep
  have hversions : currentVersions sampleConfig.legal = .ok ⟨"2024-01", "2024-02"⟩ := by
    decide +kernel
  obtain rfl := Except.ok.inj (hversions.symm.trans hv)
  exact ⟨p, p', hp, hstep, hmem⟩

end Ppb.Accounts
