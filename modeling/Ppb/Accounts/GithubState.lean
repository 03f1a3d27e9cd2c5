import Ppb.Accounts.Routes

/-!
# The state tokens of GitHub logins

`github_start` and `github_login_start` hand out a state token; `github_callback`
consumes it. The record of a token says who has started it, and the callback acts for
him, whichever browser delivers it: of the request it reads the query and, for the rate
limit, the address.

* `StatesOk`: the invariant of the tokens; `StatesOk.effect` keeps it.
* `obtained_of_starts`: who has started a token has it in an answer.
* `oauth_state_once`: a token is consumed once and in time, by at most one callback that
  completes, and that one acts for whoever has obtained the token.
-/

namespace Ppb.Accounts

open Prog Shared Trace Middleware

variable {config : Config} {db db' : Db} {op : Op}

/-! ## The tokens -/

/-- A state is as it was drawn, or as its starter has left it. -/
def Started (db : Db) (token : String) (s : OAuthState) : Prop :=
  s.mode = .pending ∧ s.userId = none ∨ ∃ starter, (token, starter) ∈ db.starts ∧ starter.Marks s

/-- The record was consumed within the lifetime of its state. -/
def Consumed.InTime (c : Consumed) : Prop :=
  c.state.createdAt ≤ c.time ∧ c.time < c.state.createdAt + stateTtlSecs

structure StatesOk (db : Db) : Prop where
  drawn : ∀ s ∈ db.states, (s.1, s.2.createdAt) ∈ db.drawn
  started : ∀ s ∈ db.states, Started db s.1 s.2
  once : (db.consumed.map (·.token)).Nodup
  gone : ∀ c ∈ db.consumed, ∀ s ∈ db.states, s.1 ≠ c.token
  spent : ∀ c ∈ db.consumed, (c.token, c.state.createdAt) ∈ db.drawn ∧
    Started db c.token c.state ∧ c.InTime

theorem statesOk_boot {users : Table User UserKeys} {identities : Table Identity IdentityKeys}
    {acceptances : List Acceptance} : StatesOk (.boot users identities acceptances) where
  drawn := by simp [Db.boot, Table.empty, Table.mem_def]
  started := by simp [Db.boot, Table.empty, Table.mem_def]
  once := .nil
  gone := by simp [Db.boot]
  spent := by simp [Db.boot]

theorem Started.mono {token : String} {s : OAuthState} (h : Started db token s)
    (hstarts : db.starts ⊆ db'.starts) : Started db' token s := by
  rcases h with h | ⟨starter, hmem, hmarks⟩
  · exact .inl h
  · exact .inr ⟨starter, hstarts hmem, hmarks⟩

theorem mem_prune {now : ℕ} {s : String × OAuthState} :
    s ∈ (db.prune now).states ↔
      s ∈ db.states ∧ s.2.createdAt ≤ now ∧ now < s.2.createdAt + stateTtlSecs := by
  simp only [Db.prune, Table.mem_delete, Bool.not_eq_false', Bool.and_eq_true,
    decide_eq_true_eq]
  constructor
  · rintro ⟨hmem, hle, hlt⟩
    exact ⟨hmem, hle, by omega⟩
  · rintro ⟨hmem, hle, hlt⟩
    exact ⟨hmem, hle, by omega⟩

/-- States only go, and nothing else changes. -/
theorem StatesOk.subset (h : StatesOk db) (hstates : ∀ s ∈ db'.states, s ∈ db.states)
    (hdrawn : db'.drawn = db.drawn) (hstarts : db'.starts = db.starts)
    (hconsumed : db'.consumed = db.consumed) : StatesOk db' where
  drawn s hs := hdrawn ▸ h.drawn s (hstates s hs)
  started s hs := (h.started s (hstates s hs)).mono (hstarts ▸ List.Subset.refl _)
  once := hconsumed ▸ h.once
  gone c hc s hs := h.gone c (hconsumed ▸ hc) s (hstates s hs)
  spent c hc := by
    obtain ⟨hdraw, hstart, htime⟩ := h.spent c (hconsumed ▸ hc)
    exact ⟨hdrawn ▸ hdraw, hstart.mono (hstarts ▸ List.Subset.refl _), htime⟩

theorem StatesOk.draw {now : ℕ} {token : String} (h : StatesOk db)
    (hdraw : db.drawState now (some token) = some db') : StatesOk db' := by
  simp only [Db.drawState] at hdraw
  split_ifs at hdraw with hfresh
  obtain ⟨states, hinsert, rfl⟩ := Option.map_eq_some_iff.mp hdraw
  have hmem : ∀ s ∈ states, s ∈ db.states ∨ s = (token, pendingState now) := by
    intro s hs
    rcases (Table.mem_insert hinsert).mp hs with hs | hs
    · exact .inl (mem_prune.mp hs).1
    · exact .inr hs
  refine ⟨fun s hs => ?_, fun s hs => ?_, h.once, fun c hc s hs => ?_, fun c hc => ?_⟩
  · rcases hmem s hs with hs | rfl
    · exact List.mem_cons_of_mem _ (h.drawn s hs)
    · exact List.mem_cons_self
  · rcases hmem s hs with hs | rfl
    · exact (h.started s hs).mono (List.Subset.refl _)
    · exact .inl ⟨rfl, rfl⟩
  · rcases hmem s hs with hs | rfl
    · exact h.gone c hc s hs
    · exact fun heq => hfresh.2 _ (h.spent c hc).1 heq.symm
  · obtain ⟨hdraw, hstart, htime⟩ := h.spent c hc
    exact ⟨List.mem_cons_of_mem _ hdraw, hstart.mono (List.Subset.refl _), htime⟩

theorem StatesOk.mark {token : String} {starter : Starter} {f : OAuthState → OAuthState}
    (h : StatesOk db) (hf : ∀ s, (f s).createdAt = s.createdAt ∧ starter.Marks (f s))
    (hset : db.setState token starter f = some db') : StatesOk db' := by
  obtain ⟨states, hupdate, rfl⟩ := Option.map_eq_some_iff.mp hset
  have hstarts : db.starts ⊆ if db.states.rows.any (·.1 == token) then (token, starter) :: db.starts
      else db.starts := by
    split_ifs
    · exact List.subset_cons_self _ _
    · exact List.Subset.refl _
  -- a state of the new table is an old one, or the one that was marked
  have hmem : ∀ s ∈ states, ∃ r ∈ db.states, s.1 = r.1 ∧ s.2.createdAt = r.2.createdAt ∧
      (s = r ∨ r.1 = token ∧ starter.Marks s.2) := by
    intro s hs
    obtain ⟨r, hr, rfl⟩ := (Table.mem_update hupdate).mp hs
    split_ifs with htoken
    · exact ⟨r, hr, rfl, (hf r.2).1, .inr ⟨beq_iff_eq.mp htoken, (hf r.2).2⟩⟩
    · exact ⟨r, hr, rfl, rfl, .inl rfl⟩
  refine ⟨fun s hs => ?_, fun s hs => ?_, h.once, fun c hc s hs => ?_, fun c hc => ?_⟩
  · obtain ⟨r, hr, htoken, htime, -⟩ := hmem s hs
    rw [htoken, htime]
    exact h.drawn r hr
  · obtain ⟨r, hr, htoken, -, rfl | ⟨hmarked, hmarks⟩⟩ := hmem s hs
    · exact (h.started s hr).mono hstarts
    · refine .inr ⟨starter, ?_, hmarks⟩
      have hany : db.states.rows.any (·.1 == token) = true :=
        List.any_eq_true.mpr ⟨r, hr, beq_iff_eq.mpr hmarked⟩
      rw [if_pos hany, htoken, hmarked]
      exact List.mem_cons_self
  · obtain ⟨r, hr, htoken, -⟩ := hmem s hs
    rw [htoken]
    exact h.gone c hc r hr
  · obtain ⟨hdraw, hstart, htime⟩ := h.spent c hc
    exact ⟨hdraw, hstart.mono hstarts, htime⟩

theorem StatesOk.consume {token : String} {state : OAuthState} {now : ℕ} (h : StatesOk db)
    (hconsume : db.consumeState token now (some state) = some db') :
    StatesOk db' ∧ (token, state) ∈ db.states := by
  simp only [Db.consumeState] at hconsume
  split_ifs at hconsume with hfound
  obtain rfl := Option.some.inj hconsume
  obtain ⟨hstate, hle, hlt⟩ := mem_prune.mp hfound
  have hmem : ∀ s ∈ (db.prune now).states.delete (·.1 == token), s ∈ db.states ∧ s.1 ≠ token := by
    intro s hs
    obtain ⟨hs, hne⟩ := Table.mem_delete.mp hs
    exact ⟨(mem_prune.mp hs).1, by simpa using hne⟩
  refine ⟨⟨fun s hs => h.drawn s (hmem s hs).1, fun s hs => ?_, ?_, fun c hc s hs => ?_,
    fun c hc => ?_⟩, hstate⟩
  · exact (h.started s (hmem s hs).1).mono (List.Subset.refl _)
  · refine List.nodup_cons.mpr ⟨fun hdup => ?_, h.once⟩
    obtain ⟨c, hc, heq⟩ := List.mem_map.mp hdup
    exact h.gone c hc _ hstate heq.symm
  · rcases List.mem_cons.mp hc with rfl | hc
    · exact (hmem s hs).2
    · exact h.gone c hc s (hmem s hs).1
  · rcases List.mem_cons.mp hc with rfl | hc
    · exact ⟨h.drawn _ hstate, (h.started _ hstate).mono (List.Subset.refl _), hle, hlt⟩
    · obtain ⟨hdraw, hstart, htime⟩ := h.spent c hc
      exact ⟨hdraw, hstart.mono (List.Subset.refl _), htime⟩

theorem StatesOk.effect {q : Query} (h : StatesOk db) (heffect : Effect q db db') : StatesOk db' := by
  have hframe : db'.states = db.states → db'.drawn = db.drawn → db'.starts = db.starts →
      db'.consumed = db.consumed → StatesOk db' :=
    fun hstates => h.subset fun s hs => hstates ▸ hs
  cases heffect with
  | unchanged h' => exact h' ▸ h
  | accepted a h' | issued user hq h' | unbound i h' =>
    subst h'
    exact hframe rfl rfl rfl rfl
  | upserted user h' =>
    rcases upsertUser_cases h' with rfl | ⟨users, -, rfl⟩
    · exact h
    · exact hframe rfl rfl rfl rfl
  | phira user id h' | bound user gid hq h' =>
    rcases insertIdentity_cases h' with ⟨-, rfl⟩ | ⟨identities, -, rfl⟩
    · exact h
    · exact hframe rfl rfl rfl rfl
  | pruned now h' =>
    subst h'
    exact h.subset (fun s hs => (mem_prune.mp hs).1) rfl rfl rfl
  | drawn now token h' => exact h.draw h'
  | marked token starter f hq htoken hf h' => exact h.mark hf h'
  | consumed token state now hq h' => exact (h.consume h').1

/-! ## Who has a token -/

/-- The answer of the program that starts a state. -/
def startReply (q : Query) : Option (Except ApiError Reply) :=
  q.starts.map fun token => .ok (.started token)

/-- A request of the starter was answered with the token. -/
def Obtained (p : System) (starter : Starter) (token : String) : Prop :=
  ∃ t ∈ p.threads, t.1.starter = some starter ∧ t.2 = .done (.ok (.started token))

theorem startReply_none {q : Query} (hop : op.starter = none) (h : op.MayAsk q) :
    startReply q = none := by
  have hnone : q.starter = none := by
    cases hq : q.starter with
    | none => rfl
    | some starter => exact absurd (h.starter starter hq) (by simp [hop])
  cases q <;> first | rfl | cases hnone

/-- An endpoint that has started a state answers with its token. -/
theorem finally_program (op : Op) : (op.program config).Finally startReply := by
  have hnothing : (authorizeUrl config).Only asksNothing.MayAsk := only_authorizeUrl
  have hurl : (authorizeUrl config).Only fun q => startReply q = none :=
    hnothing.mono fun q => startReply_none rfl
  cases op with
  | phiraLogin _ _ | githubCallback _ _ | githubUnbind _ =>
    exact finally_of_only ((only_program config _).mono fun q => startReply_none rfl)
  | githubStart auth headers =>
    refine finally_bind only_failIf fun _ => finally_bind only_failIf fun _ =>
      finally_bind (only_query rfl) fun _ => finally_bind only_done fun _ =>
        finally_bind (only_query rfl) fun _ => finally_bind only_done fun _ =>
          finally_bind hurl fun token => ⟨fun r hr a => ?_, fun _ => trivial⟩
    rw [← Option.some.inj hr]
    rfl
  | githubLoginStart headers params =>
    refine finally_bind only_failIf fun _ => finally_bind only_ofOption fun _ =>
      finally_bind only_failIf fun _ => finally_bind (only_query rfl) fun _ =>
        finally_bind only_done fun _ => finally_bind (only_query rfl) fun _ =>
          finally_bind only_done fun _ => finally_bind only_done fun _ =>
            finally_bind only_done fun _ => finally_bind hurl fun token =>
              ⟨fun r hr a => ?_, fun _ => trivial⟩
    rw [← Option.some.inj hr]
    rfl

/-- A question starts at most the state it is for. -/
theorem Effect.starts {q : Query} (h : Effect q db db') :
    db'.starts = db.starts ∨ ∃ token starter, q.starter = some starter ∧ q.starts = some token ∧
      db'.starts = (token, starter) :: db.starts := by
  cases h with
  | unchanged h | accepted a h | issued user hq h | unbound i h | pruned now h =>
    subst h
    exact .inl rfl
  | upserted user h =>
    rcases upsertUser_cases h with rfl | ⟨users, -, rfl⟩
    · exact .inl rfl
    · exact .inl rfl
  | phira user id h | bound user gid hq h =>
    rcases insertIdentity_cases h with ⟨-, rfl⟩ | ⟨identities, -, rfl⟩
    · exact .inl rfl
    · exact .inl rfl
  | drawn now token h =>
    simp only [Db.drawState] at h
    split_ifs at h
    obtain ⟨states, -, rfl⟩ := Option.map_eq_some_iff.mp h
    exact .inl rfl
  | marked token starter f hq htoken hf h =>
    obtain ⟨states, -, rfl⟩ := Option.map_eq_some_iff.mp h
    dsimp only
    split_ifs
    · exact .inr ⟨token, starter, hq, htoken, rfl⟩
    · exact .inl rfl
  | consumed token state now hq h =>
    simp only [Db.consumeState] at h
    split_ifs at h
    exact .inl (by rw [← Option.some.inj h])

/-- The tokens are in order, what is in progress asks what it may, and who has started a
    token has it. -/
structure Tokens (p : System) : Prop where
  states : StatesOk p.store
  threads : ∀ t ∈ p.threads, t.2.Only t.1.MayAsk ∧ t.2.Finally startReply
  obtained : ∀ x ∈ p.store.starts, Obtained p x.2 x.1

theorem Tokens.step {p p' : System} {l : Label Query Query.Answer Op} (h : Tokens p)
    (hstep : p.step exec (Op.program config) l = some p') : Tokens p' := by
  cases l with
  | spawn op =>
    obtain rfl := Option.some.inj hstep
    refine ⟨h.states, fun t ht => ?_, fun x hx => ?_⟩
    · rcases List.mem_append.mp ht with ht | ht
      · exact h.threads t ht
      · rw [List.mem_singleton.mp ht]
        exact ⟨only_program config op, finally_program op⟩
    · obtain ⟨t, ht, hstarter, hdone⟩ := h.obtained x hx
      exact ⟨t, List.mem_append_left _ ht, hstarter, hdone⟩
  | answer i e =>
    obtain ⟨op, rest, rest', hi, hfollow, hexec, hset⟩ := Pool.step_answer hstep
    obtain ⟨honly, hfinally⟩ := h.threads _ (List.mem_of_getElem? hi)
    obtain ⟨hmay, honly'⟩ := honly.follow hfollow
    obtain ⟨hlast, hfinally'⟩ := hfinally.follow hfollow
    have hlt : i < p.threads.length := (List.getElem?_eq_some_iff.mp hi).1
    refine ⟨h.states.effect (exec_effect hexec), fun t ht => ?_, fun x hx => ?_⟩
    · rw [hset] at ht
      rcases List.mem_or_eq_of_mem_set ht with ht | rfl
      · exact h.threads t ht
      · exact ⟨honly', hfinally'⟩
    · -- an old token is in an answer that stays; a new one is in the answer of this program
      have hold : ∀ x ∈ p.store.starts, Obtained p' x.2 x.1 := by
        intro x hx
        obtain ⟨t, ht, hstarter, hdone⟩ := h.obtained x hx
        obtain ⟨j, hj⟩ := List.mem_iff_getElem?.mp ht
        have hne : i ≠ j := by
          rintro rfl
          obtain rfl := Option.some.inj (hi.symm.trans hj)
          rw [show rest = _ from hdone] at hfollow
          cases hfollow
        refine ⟨t, ?_, hstarter, hdone⟩
        rw [hset, List.mem_iff_getElem?]
        exact ⟨j, by rw [List.getElem?_set_ne hne, hj]⟩
      rcases (exec_effect hexec).starts with hsame | ⟨token, starter, hstarter, htoken, hcons⟩
      · exact hold x (hsame ▸ hx)
      · rw [hcons] at hx
        rcases List.mem_cons.mp hx with rfl | hx
        · refine ⟨(op, rest'), ?_, hmay.starter starter hstarter, hlast _ ?_⟩
          · rw [hset]
            exact List.mem_iff_getElem?.mpr ⟨i, List.getElem?_set_self hlt⟩
          · show startReply e.1 = some _
            rw [startReply, htoken]
            rfl
        · exact hold x hx

/-- The tokens of every run. -/
theorem tokens_of_reachable {users : Table User UserKeys} {identities : Table Identity IdentityKeys}
    {acceptances : List Acceptance} {p : System}
    (hrun : Reachable (Pool.step exec (Op.program config))
      ⟨.boot users identities acceptances, []⟩ p) : Tokens p := by
  refine hrun.invariant ⟨statesOk_boot, by simp, by simp [Db.boot]⟩ ?_
  exact fun p l p' h _ hstep => h.step hstep

/-! ## Completing a callback -/

/-- What a step of an endpoint completes, it completes with a state that was consumed. -/
structure Completes (op : Op) (db db' : Db) : Prop where
  grows : ∀ c ∈ db.consumed, c ∈ db'.consumed
  bound : ∀ user gid, ⟨user, .github, gid⟩ ∈ db'.identities → ⟨user, .github, gid⟩ ∈ db.identities ∨
    ∃ c ∈ db.consumed, op.state = some c.token ∧ c.state.userId = some user
  issued : op.isCallback = true → db'.issued = db.issued ∨
    ∃ c ∈ db.consumed, op.state = some c.token ∧ c.state.mode = .login

/-- A question changes GitHub bindings, sessions and consumed states as it says. -/
theorem Effect.completes {q : Query} (h : Effect q db db') :
    (∀ c ∈ db.consumed, c ∈ db'.consumed) ∧
    (∀ user gid, ⟨user, .github, gid⟩ ∈ db'.identities →
      ⟨user, .github, gid⟩ ∈ db.identities ∨ q.binds = some user) ∧
    (db'.issued = db.issued ∨ ∃ user, q.issues = some user) := by
  cases h with
  | unchanged h | accepted a h | pruned now h =>
    subst h
    exact ⟨fun _ hc => hc, fun _ _ hi => .inl hi, .inl rfl⟩
  | issued user hq h =>
    subst h
    exact ⟨fun _ hc => hc, fun _ _ hi => .inl hi, .inr ⟨user, hq⟩⟩
  | unbound i h =>
    subst h
    exact ⟨fun _ hc => hc, fun _ _ hi => .inl (Table.mem_delete.mp hi).1, .inl rfl⟩
  | upserted user h =>
    rcases upsertUser_cases h with rfl | ⟨users, -, rfl⟩
    · exact ⟨fun _ hc => hc, fun _ _ hi => .inl hi, .inl rfl⟩
    · exact ⟨fun _ hc => hc, fun _ _ hi => .inl hi, .inl rfl⟩
  | phira user id h =>
    rcases insertIdentity_cases h with ⟨-, rfl⟩ | ⟨identities, hinsert, rfl⟩
    · exact ⟨fun _ hc => hc, fun _ _ hi => .inl hi, .inl rfl⟩
    · refine ⟨fun _ hc => hc, fun user' gid hi => ?_, .inl rfl⟩
      rcases (Table.mem_insert hinsert).mp hi with hi | hi
      · exact .inl hi
      · cases congrArg Identity.provider hi
  | bound user gid hq h =>
    rcases insertIdentity_cases h with ⟨-, rfl⟩ | ⟨identities, hinsert, rfl⟩
    · exact ⟨fun _ hc => hc, fun _ _ hi => .inl hi, .inl rfl⟩
    · refine ⟨fun _ hc => hc, fun user' gid' hi => ?_, .inl rfl⟩
      rcases (Table.mem_insert hinsert).mp hi with hi | hi
      · exact .inl hi
      · rw [hq, show user' = user from congrArg Identity.userId hi]
        exact .inr rfl
  | drawn now token h =>
    simp only [Db.drawState] at h
    split_ifs at h
    obtain ⟨states, -, rfl⟩ := Option.map_eq_some_iff.mp h
    exact ⟨fun _ hc => hc, fun _ _ hi => .inl hi, .inl rfl⟩
  | marked token starter f hq htoken hf h =>
    obtain ⟨states, -, rfl⟩ := Option.map_eq_some_iff.mp h
    exact ⟨fun _ hc => hc, fun _ _ hi => .inl hi, .inl rfl⟩
  | consumed token state now hq h =>
    simp only [Db.consumeState] at h
    split_ifs at h
    obtain rfl := Option.some.inj h
    exact ⟨fun _ hc => List.mem_cons_of_mem _ hc, fun _ _ hi => .inl hi, .inl rfl⟩

theorem completes_of_exec {e : Event Query Query.Answer} (h : exec db e = some db')
    (hbinds : ∀ user ∈ e.1.binds,
      ∃ c ∈ db.consumed, op.state = some c.token ∧ c.state.userId = some user)
    (hissues : op.isCallback = true → ∀ user ∈ e.1.issues,
      ∃ c ∈ db.consumed, op.state = some c.token ∧ c.state.mode = .login) : Completes op db db' := by
  obtain ⟨hgrows, hbound, hissued⟩ := (exec_effect h).completes
  refine ⟨hgrows, fun user gid hi => ?_, fun hop => ?_⟩
  · exact (hbound user gid hi).imp_right (hbinds user)
  · rcases hissued with hsame | ⟨user, hq⟩
    · exact .inl hsame
    · exact .inr (hissues hop user hq)

/-- A question that a callback with the state `s` may ask. -/
structure OAuthState.Serves (s : OAuthState) (q : Query) : Prop where
  binds : ∀ user ∈ q.binds, s.userId = some user
  issues : ∀ user ∈ q.issues, s.mode = .login

theorem serves_other {s : OAuthState} {q : Query} (hb : q.binds = none) (hi : q.issues = none) :
    s.Serves q :=
  ⟨by simp [hb], by simp [hi]⟩

theorem only_callbackLogin_serves {s : OAuthState} {existing : Option Identity}
    (hs : s.mode = .login) : (callbackLogin config s existing).Only s.Serves := by
  have hquiet : ∀ q, asksNothing.MayAsk q → s.Serves q := by
    intro q hq
    refine ⟨fun user hb => ?_, fun user hi => hs⟩
    exact absurd (hq.binds user hb) (by simp [asksNothing, Op.isCallback])
  unfold callbackLogin
  split
  · exact only_done
  · split
    · exact only_done
    · exact only_done
    · exact only_done
    · refine only_orRedirect (only_acceptanceForLogin.mono hquiet) fun _ =>
        only_orRedirect (only_recordAcceptance.mono hquiet) fun _ =>
          only_orRedirect (only_bind (only_query ?_) fun _ => only_done) fun _ => only_redirectTo
      exact ⟨by simp [Query.binds], fun _ _ => hs⟩

theorem only_callbackBind_serves {s : OAuthState} {gid : String} {existing : Option Identity} :
    (callbackBind config s gid existing).Only s.Serves := by
  unfold callbackBind
  split
  · exact only_done
  · rename_i user huser
    split
    · exact only_done
    · apply only_orRedirect
      · refine only_bind (only_query ?_) fun _ => only_mapErr
        exact ⟨by simp [Query.binds, huser], by simp [Query.issues]⟩
      · intro _
        apply only_redirectTo

theorem only_callbackWith_serves {params : GithubCallbackParams} {s : OAuthState} :
    (callbackWith config params s).Only s.Serves := by
  unfold callbackWith
  split
  · exact only_done
  · split
    · exact only_done
    · refine only_orRedirect (only_bind (only_query (serves_other rfl rfl)) fun _ => only_done)
        fun github => ?_
      refine only_orRedirect (only_bind (only_query (serves_other rfl rfl)) fun _ => only_mapErr)
        fun existing => ?_
      split
      · exact only_callbackLogin_serves ‹_›
      · exact only_callbackBind_serves

/-- What was consumed stays so. -/
def Grows (db db' : Db) : Prop := ∀ c ∈ db.consumed, c ∈ db'.consumed

/-- The program completes only with a state that was consumed. -/
abbrev CompletesWith (op : Op) {α : Type} (p : Handler α) (db : Db) : Prop :=
  Safe (fun db e db' => exec db e = some db' ∧ True) (fun _ => True) Grows (Completes op) p db
    fun _ _ => True

theorem completesWith_ask {q : Query} {α : Type} {k : q.Answer → Handler α}
    (hb : q.binds = none) (hi : q.issues = none)
    (hk : ∀ a db' db'', exec db' ⟨q, a⟩ = some db'' → CompletesWith op (k a) db'') :
    CompletesWith op (ask q >>= k) db := by
  intro db₁ _ _ a db₂ hdoes
  refine ⟨⟨trivial, completes_of_exec hdoes.1 ?_ ?_⟩, hk a db₁ db₂ hdoes.1⟩
  · simp [hb]
  · simp [hi]

theorem completesWith_callbackWith {params : GithubCallbackParams} {c : Consumed}
    (hstate : op.state = some c.token) (hc : c ∈ db.consumed) :
    CompletesWith op (callbackWith config params c.state) db := by
  refine safe_mono (safe_of_only (K := fun db => c ∈ db.consumed) only_callbackWith_serves hc
    (fun h hgrows => hgrows c h) fun db e db' hserves hmem _ hdoes => ?_) fun _ _ _ => trivial
  have hcompletes : Completes op db db' := completes_of_exec hdoes.1
    (fun user hb => ⟨c, hmem, hstate, hserves.binds user hb⟩)
    (fun _ user hi => ⟨c, hmem, hstate, hserves.issues user hi⟩)
  exact ⟨⟨trivial, hcompletes⟩, hcompletes.grows c hmem⟩

theorem completesWith_githubCallback {headers : HeaderMap} {params : GithubCallbackParams} :
    CompletesWith (.githubCallback headers params) (githubCallback config headers params) db := by
  refine completesWith_ask rfl rfl fun limited _ _ _ => ?_
  cases limited with
  | error e => exact fun _ _ _ => trivial
  | ok _ =>
    refine completesWith_ask rfl rfl fun limited _ _ _ => ?_
    cases limited with
    | error e => exact fun _ _ _ => trivial
    | ok _ =>
      dsimp only
      split
      · exact fun _ _ _ => trivial
      · rename_i token htoken
        refine completesWith_ask rfl rfl fun answer db' db'' hexec => ?_
        obtain ⟨now, state⟩ := answer
        cases state with
        | none => exact fun _ _ _ => trivial
        | some s =>
          simp only [exec, Db.consumeState] at hexec
          split_ifs at hexec
          obtain rfl := Option.some.inj hexec
          refine completesWith_callbackWith (c := ⟨token, s, now⟩) ?_ List.mem_cons_self
          exact (Option.filter_eq_some_iff.mp htoken).1

theorem completesWith_program (op : Op) : CompletesWith op (op.program config) db := by
  have hother : op.isCallback = false → CompletesWith op (op.program config) db := by
    intro hop
    refine safe_mono (safe_of_only (K := fun _ => True) (only_program config op) trivial
      (fun _ _ => trivial) fun db e db' hmay _ _ hdoes => ?_) fun _ _ _ => trivial
    refine ⟨⟨trivial, completes_of_exec hdoes.1 (fun user hb => ?_) fun hcallback => ?_⟩, trivial⟩
    · exact absurd (hmay.binds user hb) (by simp [hop])
    · exact absurd hcallback (by simp [hop])
  cases op with
  | githubCallback headers params => exact completesWith_githubCallback
  | phiraLogin _ _ | githubStart _ _ | githubLoginStart _ _ | githubUnbind _ => exact hother rfl

/-! ## One callback for a token -/

/-- The callback has bound an account or logged somebody in. -/
def Reply.isDone : Reply → Bool
  | .bound .. | .loggedIn _ => true
  | _ => false

/-- The request `i` is a callback with the token, and was completed. -/
def Completed (p : System) (token : String) (i : ℕ) : Prop :=
  ∃ headers params reply, params.state = some token ∧ reply.isDone = true ∧
    p.threads[i]? = some (.githubCallback headers params, .done (.ok reply))

/-- An endpoint's own state is consumed. -/
def ConsumesOwn (op : Op) (e : Event Query Query.Answer) : Prop :=
  ∃ token now s, op.state = some token ∧ e = ⟨.consumeState token, (now, some s)⟩

/-- A callback is not completed without its state. -/
theorem needs_program {token : String} (hop : op.state = some token) :
    (op.program config).Needs (fun r => ∃ reply, r = .ok reply ∧ reply.isDone = true)
      (ConsumesOwn op) := by
  cases op with
  | phiraLogin _ _ | githubStart _ _ | githubLoginStart _ _ | githubUnbind _ => cases hop
  | githubCallback headers params =>
    have hgateway : ∀ clientType returnTo code, ((pure (gatewayError clientType returnTo code) :
        Handler Reply)).Needs (fun r => ∃ reply, r = .ok reply ∧ reply.isDone = true)
          (ConsumesOwn (.githubCallback headers params)) := by
      rintro clientType returnTo code ⟨reply, hr, hdone⟩
      obtain rfl := Except.ok.inj hr
      cases hdone
    refine needs_ask fun limited => .inr ?_
    cases limited with
    | error e => exact hgateway _ _ _
    | ok _ =>
      refine needs_ask fun limited => .inr ?_
      cases limited with
      | error e => exact hgateway _ _ _
      | ok _ =>
        dsimp only
        split
        · exact hgateway _ _ _
        · rename_i token' htoken
          refine needs_ask fun answer => ?_
          obtain ⟨now, state⟩ := answer
          cases state with
          | none => exact .inr (hgateway _ _ _)
          | some s => exact .inl ⟨token', now, s, (Option.filter_eq_some_iff.mp htoken).1, rfl⟩

theorem completed_once {users : Table User UserKeys} {identities : Table Identity IdentityKeys}
    {acceptances : List Acceptance} {p : System}
    (hrun : Reachable (Pool.step exec (Op.program config))
      ⟨.boot users identities acceptances, []⟩ p) {token : String} {i j : ℕ}
    (hi : Completed p token i) (hj : Completed p token j) : i = j := by
  have hpassed : ∀ n, Completed p token n → p.Passed Op.state (fun op rest =>
      rest.Needs (fun r => ∃ reply, r = .ok reply ∧ reply.isDone = true) (ConsumesOwn op)) token n := by
    rintro n ⟨headers, params, reply, hstate, hdone, hn⟩
    exact ⟨_, hn, hstate, fun hneeds => hneeds ⟨reply, rfl, hdone⟩⟩
  refine Pool.passed_once (I := StatesOk) (U := fun db token => ∃ c ∈ db.consumed, c.token = token)
    (O := fun _ _ => True) (E := fun _ _ _ => True) (C := ConsumesOwn) ?_ ?_
    (fun op k hk => needs_program hk) (fun _ _ _ _ h hf => h.follow hf) statesOk_boot rfl
    (hrun.mono fun p l _ => by cases l <;> simp [Pool.Ok]) (hpassed i hi) (hpassed j hj)
  · intro db op e db' hok _ hexec
    refine ⟨hok.effect (exec_effect hexec), ?_⟩
    rintro token ⟨c, hc, htoken⟩
    exact ⟨c, (exec_effect hexec).completes.1 c hc, htoken⟩
  · rintro db op e db' k hok - hexec ⟨token, now, s, hstate, rfl⟩ hk
    obtain rfl : token = k := Option.some.inj (hstate.symm.trans hk)
    have hmem := (hok.consume hexec).2
    refine ⟨?_, ⟨token, s, now⟩, ?_, rfl⟩
    · rintro ⟨c, hc, htoken⟩
      exact hok.gone c hc _ hmem htoken.symm
    · simp only [exec, Db.consumeState] at hexec
      split_ifs at hexec
      rw [← Option.some.inj hexec]
      exact List.mem_cons_self

/-- In every run: a state token is consumed at most once, within its lifetime; at most
    one callback with it is completed; and a callback binds a GitHub account only to the
    user whose `github_start` was answered with the token, and creates a session only if a
    `github_login_start` was, whichever browser delivers it. -/
theorem oauth_state_once (config : Config) (users : Table User UserKeys)
    (identities : Table Identity IdentityKeys) (acceptances : List Acceptance) (p : System)
    (hrun : Reachable (Pool.step exec (Op.program config))
      ⟨.boot users identities acceptances, []⟩ p) :
    (p.store.consumed.map (·.token)).Nodup ∧
    (∀ c ∈ p.store.consumed, (c.token, c.state.createdAt) ∈ p.store.drawn ∧
      c.state.createdAt ≤ c.time ∧ c.time < c.state.createdAt + stateTtlSecs) ∧
    (∀ token i j, Completed p token i → Completed p token j → i = j) ∧
    ∀ i headers params rest e p', p.threads[i]? = some (.githubCallback headers params, rest) →
      p.step exec (Op.program config) (.answer i e) = some p' →
      (∀ user gid, ⟨user, .github, gid⟩ ∈ p'.store.identities →
        ⟨user, .github, gid⟩ ∈ p.store.identities ∨
          ∃ c ∈ p.store.consumed, params.state = some c.token ∧ Obtained p (.user user) c.token) ∧
      (p'.store.issued = p.store.issued ∨
        ∃ c ∈ p.store.consumed, params.state = some c.token ∧ Obtained p .login c.token) := by
  have htokens := tokens_of_reachable hrun
  refine ⟨htokens.states.once, fun c hc => ?_, fun token i j => completed_once hrun, ?_⟩
  · obtain ⟨hdrawn, -, htime⟩ := htokens.states.spent c hc
    exact ⟨hdrawn, htime⟩
  · intro i headers params rest e p' hi hstep
    have hsafe := Pool.safe (I := fun _ => True) (R := Grows) (O := fun _ _ => True)
      (E := fun _ _ _ => True) (G := Completes) (W := fun _ _ _ => True) (fun db c hc => hc)
      (fun hab hbc c hc => hbc c (hab c hc)) (fun _ _ _ h => h.grows)
      (fun db op _ _ => completesWith_program op) trivial rfl
      (hrun.mono fun p l _ => by cases l <;> simp [Pool.Ok])
    have hcompletes : Completes (.githubCallback headers params) p.store p'.store :=
      Pool.guarantee (I := fun _ => True) (E := fun _ _ _ => True) (W := fun _ _ _ => True)
        (R := Grows) (G := Completes) (fun db c hc => hc) trivial hsafe.2 hi trivial hstep
    refine ⟨fun user gid hmem => ?_, ?_⟩
    · refine (hcompletes.bound user gid hmem).imp_right ?_
      rintro ⟨c, hc, hstate, huser⟩
      refine ⟨c, hc, hstate, ?_⟩
      -- the record names the user, so it is his start that has left it
      rcases (htokens.states.spent c hc).2.1 with ⟨-, hnone⟩ | ⟨starter, hstart, hmarks⟩
      · rw [hnone] at huser
        cases huser
      · cases starter with
        | login =>
          rw [hmarks.2] at huser
          cases huser
        | user id =>
          obtain rfl : id = user := Option.some.inj (hmarks.2.symm.trans huser)
          exact htokens.obtained _ hstart
    · refine (hcompletes.issued rfl).imp_right ?_
      rintro ⟨c, hc, hstate, hmode⟩
      refine ⟨c, hc, hstate, ?_⟩
      rcases (htokens.states.spent c hc).2.1 with ⟨hpending, -⟩ | ⟨starter, hstart, hmarks⟩
      · rw [hpending] at hmode
        cases hmode
      · cases starter with
        | login => exact htokens.obtained _ hstart
        | user id =>
          rw [hmarks.1] at hmode
          cases hmode

/-! ### A callback from another browser -/

/-- The user 1, in the browser with the cookies of his session. -/
def startOp : Op :=
  .githubStart ⟨1, 7, .user, .ppf, "r1"⟩
    [("cookie", ofAscii "ppb_access=token"), ("x-forwarded-for", ofAscii "10.0.0.1")]

/-- The callback of a browser that has no cookie and is elsewhere. -/
def callbackOp : Op :=
  .githubCallback [("x-forwarded-for", ofAscii "10.9.9.9")] ⟨some "code", some "state", none⟩

/-- The first starts a bind; the other one, with a GitHub account of its own, delivers the
    callback. -/
def otherBrowser : List (Label Query Query.Answer Op) :=
  [.spawn startOp,
    .answer 0 ⟨.rateLimit "github-bind-start:00000000-0000-0000-0000-000000000001:10.0.0.1", .ok ()⟩,
    .answer 0 ⟨.rateLimit "github-provider:start", .ok ()⟩,
    .answer 0 ⟨.authorizeUrl, (1700000000, some "state")⟩,
    .answer 0 ⟨.bindStateToUser "state" 1 "ppf", ()⟩, .spawn callbackOp,
    .answer 1 ⟨.rateLimit "github-callback:10.9.9.9", .ok ()⟩,
    .answer 1 ⟨.rateLimit "github-provider:callback", .ok ()⟩,
    .answer 1 ⟨.consumeState "state", (1700000030, some
      { userId := some 1, clientType := "ppf", mode := .bind, returnTo := "/profile"
        acceptedLegal := false, termsVersion := "", privacyVersion := ""
        createdAt := 1700000000 })⟩,
    .answer 1 ⟨.exchangeCode "code", .ok ⟨77, "other"⟩⟩, .answer 1 ⟨.findGithub "77", .ok none⟩,
    .answer 1 ⟨.bindGithub 1 "77", .ok ()⟩]

/-- `Completed`, as a test. -/
def completed (p : System) (token : String) (i : ℕ) : Bool :=
  match p.threads[i]? with
  | some (.githubCallback _ params, .done (.ok reply)) => params.state == some token && reply.isDone
  | _ => false

theorem completed_of_test {p : System} {token : String} {i : ℕ} (h : completed p token i = true) :
    Completed p token i := by
  unfold completed at h
  split at h
  · rename_i headers params reply hi
    rw [Bool.and_eq_true, beq_iff_eq] at h
    exact ⟨headers, params, reply, h.1, h.2, hi⟩
  · cases h

theorem oauth_state_once_bound :
    ∃ p, Reachable (Pool.step exec (Op.program sampleConfig)) ⟨.boot .empty .empty [], []⟩ p ∧
      Completed p "state" 1 ∧ ∀ i, Completed p "state" i → i = 1 := by
  have hrun : ((runFrom (Pool.step exec (Op.program sampleConfig)) ⟨.boot .empty .empty [], []⟩
      otherBrowser).any fun p => completed p "state" 1) = true := by decide +kernel
  obtain ⟨p, hp, hone⟩ := exists_reachable_of_runFrom hrun
  have honce := (oauth_state_once sampleConfig .empty .empty [] p hp).2.2.1
  exact ⟨p, hp, completed_of_test hone, fun i hi => honce _ i 1 hi (completed_of_test hone)⟩

/-- A callback from a browser that has not started the state, and has no cookie of the
    one that has, binds its GitHub account to the user 1. -/
theorem not_oauth_state_same_browser :
    ∃ p, Reachable (Pool.step exec (Op.program sampleConfig)) ⟨.boot .empty .empty [], []⟩ p ∧
      p.threads.map (·.1) = [startOp, callbackOp] ∧ Completed p "state" 1 ∧
      ⟨1, .github, "77"⟩ ∈ p.store.identities.rows := by
  have hrun : ((runFrom (Pool.step exec (Op.program sampleConfig)) ⟨.boot .empty .empty [], []⟩
      otherBrowser).any fun p => decide (p.threads.map (·.1) = [startOp, callbackOp] ∧
        ⟨1, .github, "77"⟩ ∈ p.store.identities.rows) && completed p "state" 1) = true := by
    decide +kernel
  obtain ⟨p, hp, htest⟩ := exists_reachable_of_runFrom hrun
  obtain ⟨hstate, hdone⟩ := Bool.and_eq_true_iff.mp htest
  obtain ⟨hthreads, hmem⟩ := of_decide_eq_true hstate
  exact ⟨p, hp, hthreads, completed_of_test hdone, hmem⟩

end Ppb.Accounts
