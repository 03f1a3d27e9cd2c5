import Ppb.Common.Told
import Ppb.Replay.Routes

/-!
# Is the player that was checked the player that is fetched?

`resolve_replay_access` decides about a 64-bit player number, and PMP is asked for the low 32
bits of it. A number that does not fit stands for another player there, for whom nobody was
asked.

* `Allowed x db req h r q`: what the claim of an access check for the pair `(r, q)` means.
* `eval_checkPairAccess`, `checkPairAccess_told`: `check_pair_access` computes `pairAccess`.
* `pinned_iff`: which requests fetch only what was checked.
-/

namespace Ppb.Replay

open Prog Shared

/-! ## Requests -/

/-- A request to one of the endpoints that fetch telemetry. -/
inductive Request where
  | detail (auth : Option AuthPrincipal) (round : String) (params : ReplayDetailParams)
  | manifest (auth : Option AuthPrincipal) (round : String) (params : ReplayDetailParams)
  | frames (auth : Option AuthPrincipal) (round : String) (params : ReplayDetailParams)
  | ws (auth : Option AuthPrincipal) (round : String) (params : ReplayWsParams)
      (messages : List Message)

namespace Request

def auth : Request → Option AuthPrincipal
  | .detail auth .. | .manifest auth .. | .frames auth .. | .ws auth .. => auth

def round : Request → String
  | .detail _ round _ | .manifest _ round _ | .frames _ round _ | .ws _ round _ _ => round

def token : Request → Option String
  | .detail _ _ params | .manifest _ _ params | .frames _ _ params => params.token
  | .ws _ _ params _ => params.token

/-- What the endpoint does; the response does not matter here. -/
def program (x : Extern) : Request → Handler Unit
  | .detail auth round params => Replay.detail x auth round params >>= fun _ => pure ()
  | .manifest auth round params => Replay.manifest x auth round params >>= fun _ => pure ()
  | .frames auth round params => Replay.frames x auth round params >>= fun _ => pure ()
  | .ws auth round params messages => replayWs x auth round params messages

end Request

/-! ## What is allowed -/

namespace Db

variable (db : Db)

/-- The end of `check_pair_access` on these tables. -/
def listed (auth : AuthPrincipal) (row : Option ReplayOverride) : Visibility → Bool
  | .friends => (db.friendsOf ((row.bind (·.ownerUserId)).getD Uuid.nil)).contains auth.sub
  | .custom => (row.bind fun row => db.aclOf row.id auth.sub) == some true
  | _ => false

/-- What `check_pair_access` answers on these tables. -/
def pairAccess (round : String) (player : Int64) (requester : Option AuthPrincipal) : Bool :=
  let row := db.overrideOf round player
  let visibility := visibilityOf (row.map (·.visibility))
  if visibility = .public then true
  else
    match requester with
    | none => false
    | some auth =>
      if auth.isRoot = true then true
      else if row.bind (·.ownerUserId) = some auth.sub then true
      else if (db.findUser auth.sub).map (·.phiraId) = some player then true
      else db.listed auth row visibility

/-- The link of a token that is not revoked and is for this round. -/
def linkFor (x : Extern) (token round : String) : Option ReplayShareLink :=
  (db.linkOf (x.hashToken token)).filter fun l => l.revokedAt.isNone && l.replayRound == round

end Db

/-- The token resolves to the pair, by a time that was read on the path `h`. -/
def TokenResolves (x : Extern) (db : Db) (h : History Query Query.Answer) (token round : String)
    (player : Int64) : Prop :=
  ∃ link, db.linkFor x token round = some link ∧ link.playerPhiraId = player ∧
    ∀ exp ∈ link.expiresAt, ∃ now : ℕ, ⟨.now, now⟩ ∈ h ∧ ¬ exp < now

/-- The access check has accepted the request for this pair. -/
def Allowed (x : Extern) (db : Db) (req : Request) (h : History Query Query.Answer) (round : String)
    (player : Int64) : Prop :=
  db.pairAccess round player req.auth = true ∨
    ∃ token ∈ req.token, TokenResolves x db h token round player

/-- Whatever is fetched from PMP, the request was accepted for that pair. -/
def Pinned (x : Extern) (db : Db) (req : Request) : Prop :=
  ∀ h db' stream since limit round player, execAll exec db h = some db' →
    (req.program x).Asks h (.persist stream since limit round player) →
    Allowed x db req h round player.toInt64

/-- The messages of a viewer get as far as a fetch. -/
def fetches : List Message → Bool
  | [] => false
  | .close :: _ => false
  | .other :: rest => fetches rest
  | .text none :: rest => fetches rest
  | .text (some parsed) :: rest =>
    let type := ((parsed.get? "type").bind Json.asStr).getD ""
    if type = "close" then false
    else if type ≠ "fetch" then fetches rest
    else (streamOf parsed).isSome || fetches rest

namespace Request

/-- The other endpoints fetch at once. -/
def fetches : Request → Bool
  | .ws _ _ _ messages => Replay.fetches messages
  | _ => true

/-- The player of a request without a token. -/
def asked (db : Db) : Request → Option Int64
  | .detail _ _ params | .manifest _ _ params | .frames _ _ params => some params.playerId
  | .ws auth _ params _ =>
    match params.playerId, auth with
    | some player, _ => some player
    | none, some principal => some (((db.findUser principal.sub).map (·.phiraId)).getD 0)
    | none, none => none

/-- The player of the token's link, or the one that is asked for if he may be seen. -/
def admitted (x : Extern) (db : Db) (req : Request) : Option Int64 :=
  match req.token with
  | some token => (db.linkFor x token req.round).map (·.playerPhiraId)
  | none => (req.asked db).filter fun p => db.pairAccess req.round p req.auth

end Request

/-! ## What is asked -/

variable {x : Extern} {db : Db} {req : Request} {round : String} {player : Int64} {p : Int32}
  {auth : Option AuthPrincipal} {h : History Query Query.Answer}

/-- PMP is asked for this pair only, and nothing is written. -/
def OfPair (round : String) (p : Int32) : Query → Prop
  | .persist _ _ _ r q => r = round ∧ q = p
  | .revokeLink _ => False
  | _ => True

/-- PMP is not asked, and nothing is written. -/
def NoFetch : Query → Prop
  | .persist .. => False
  | .revokeLink _ => False
  | _ => True

theorem only_fromPmp {α : Type} {C : Query → Prop} {r : Except OpenUdsError α} :
    (fromPmp r : Handler α).Only C := by
  cases r <;> trivial

theorem only_effectiveVisibility : (effectiveVisibility round player).Only NoFetch :=
  only_bind (only_query trivial) fun _ => only_bind only_mapErr fun _ => only_done

theorem only_fetchBatches {stream : Stream} {since limit : Int64} :
    (fetchBatches stream since limit round p).Only (OfPair round p) :=
  only_query ⟨rfl, rfl⟩

/-- Every page is a page of the same player. -/
theorem only_fetchAllFrom {stream : Stream} {all : List Json} {since : Int64} :
    (fetchAllFrom stream round p all since).Only (OfPair round p) := by
  induction all, since using fetchAllFrom.induct with
  | case1 all since ih =>
    rw [fetchAllFrom]
    refine only_bind only_fetchBatches fun page => only_bind only_fromPmp fun value => ?_
    split
    · exact only_done
    · split
      · exact only_done
      · rename_i hlast
        split
        · exact only_done
        · exact ih value hlast

theorem only_roundMeta : (roundMeta x round p).Only (OfPair round p) :=
  only_bind (only_query ⟨rfl, rfl⟩) fun _ => only_bind only_fromPmp fun _ => only_ofOption

/-- The viewer is answered for the pinned player whatever it sends. -/
theorem only_replayWsTask {messages : List Message} : ∀ {since : Int64},
    (replayWsTask round p since messages).Only (OfPair round p) := by
  induction messages with
  | nil => exact only_done
  | cons message rest ih =>
    intro since
    have hsend : ∀ text, (ask (.send text) >>= fun _ =>
        replayWsTask round p since rest).Only (OfPair round p) := fun text =>
      only_bind (only_query trivial) fun _ => ih
    match message with
    | .close => exact only_done
    | .other => exact ih
    | .text none => exact hsend _
    | .text (some parsed) =>
      unfold replayWsTask
      dsimp only
      split
      · exact only_done
      · split
        · exact hsend _
        · cases streamOf parsed with
          | none => exact hsend _
          | some stream =>
            refine only_bind only_fetchBatches fun page => ?_
            cases page with
            | error e => exact only_bind (only_query trivial) fun _ => only_done
            | ok value =>
              refine only_bind (only_query trivial) fun _ => ?_
              split
              · exact only_done
              · exact ih

/-! ## What the check computes -/

/-- Nothing is written. -/
def Reading (q : Query) : Prop := ∀ id, q ≠ .revokeLink id

theorem exec_reading {db' : Db} {e : Event Query Query.Answer} (he : Reading e.1)
    (hexec : exec db e = some db') : db' = db := by
  rcases exec_cases hexec with h | ⟨id, time, rfl, -⟩
  · exact h
  · exact absurd rfl (he id)

/-- An answer from these tables. -/
abbrev Truth (db : Db) (e : Event Query Query.Answer) : Prop := exec db e = some db

/-- What is fetched, when it is asked for, is allowed. -/
def Fetched (x : Extern) (db : Db) (req : Request) (h : History Query Query.Answer) (q : Query) :
    Prop :=
  Reading q ∧ ∀ stream since limit round player, q = .persist stream since limit round player →
    Allowed x db req h round player.toInt64

theorem fetched_of_noFetch {q : Query} (hq : NoFetch q) : Fetched x db req h q :=
  ⟨by rintro id rfl; exact hq, by rintro stream since limit round player rfl; exact hq.elim⟩

theorem told_mapErr_bind {α β : Type} {f : DbError → ApiError} {r : Except DbError α}
    {k : α → Handler β} {C : History Query Query.Answer → Query → Prop}
    {S : History Query Query.Answer → Except ApiError β → Prop}
    (hok : ∀ a, r = .ok a → Told (Truth db) C (k a) h S) (herr : ∀ e, S h (.error e)) :
    Told (Truth db) C (mapErr f r >>= k) h S := by
  cases r with
  | ok a => exact hok a rfl
  | error e => exact herr (f e)

theorem effectiveVisibility_told :
    Told (Truth db) (Fetched x db req) (effectiveVisibility round player) h fun _ r =>
      ∀ v, r = .ok v → v = visibilityOf ((db.overrideOf round player).map (·.visibility)) := by
  refine told_ask (fetched_of_noFetch trivial) fun row hrow => told_mapErr_bind (fun found heq => ?_) (fun _ => nofun)
  obtain rfl := (reads_cases hrow).2 found heq
  exact fun v hv => (Except.ok.inj hv).symm

theorem checkListed_told {principal : AuthPrincipal} {row : Option ReplayOverride} {v : Visibility} :
    Told (Truth db) (Fetched x db req) (checkListed principal row v) h fun _ r =>
      ∀ b, r = .ok b → b = db.listed principal row v := by
  cases v with
  | friends =>
    refine told_ask (fetched_of_noFetch trivial) fun a ha => told_mapErr_bind (fun found heq => ?_) (fun _ => nofun)
    obtain rfl := (reads_cases ha).2 found heq
    exact fun b hb => (Except.ok.inj hb).symm
  | custom =>
    cases row with
    | none => exact fun b hb => (Except.ok.inj hb).symm
    | some row =>
      refine told_ask (fetched_of_noFetch trivial) fun a ha => told_mapErr_bind (fun found heq => ?_) (fun _ => nofun)
      obtain rfl := (reads_cases ha).2 found heq
      exact fun b hb => (Except.ok.inj hb).symm
  | inherit | «public» | «private» | unlisted => exact fun b hb => (Except.ok.inj hb).symm

/-- `check_pair_access` computes `pairAccess`, or fails. -/
theorem checkPairAccess_told :
    Told (Truth db) (Fetched x db req) (checkPairAccess round player auth) h fun _ r =>
      ∀ b, r = .ok b → b = db.pairAccess round player auth := by
  refine told_bind effectiveVisibility_told (fun h' v hv => ?_) (fun _ _ _ => nofun)
  obtain rfl := hv v rfl
  unfold Db.pairAccess
  dsimp only
  by_cases hpublic : visibilityOf ((db.overrideOf round player).map (·.visibility)) = .public
  · rw [if_pos hpublic, if_pos hpublic]
    exact fun b hb => (Except.ok.inj hb).symm
  rw [if_neg hpublic, if_neg hpublic]
  cases auth with
  | none => exact fun b hb => (Except.ok.inj hb).symm
  | some principal =>
    dsimp only
    by_cases hroot : principal.isRoot = true
    · rw [if_pos hroot, if_pos hroot]
      exact fun b hb => (Except.ok.inj hb).symm
    rw [if_neg hroot, if_neg hroot]
    refine told_ask (fetched_of_noFetch trivial) fun row hrow => told_mapErr_bind (fun found heq => ?_) (fun _ => nofun)
    obtain rfl := (reads_cases hrow).2 found heq
    by_cases howner : (db.overrideOf round player).bind (·.ownerUserId) = some principal.sub
    · rw [if_pos howner, if_pos howner]
      exact fun b hb => (Except.ok.inj hb).symm
    rw [if_neg howner, if_neg howner, requesterPhiraId, if_neg hroot]
    refine told_ask (fetched_of_noFetch trivial) fun user huser => ?_
    cases user with
    | error e => exact nofun
    | ok user =>
      obtain rfl := (reads_cases huser).2 user rfl
      show Told _ _ (if (db.findUser principal.sub).map (·.phiraId) = some player then pure true
        else checkListed principal _ _) _ _
      split_ifs with hown
      · exact fun b hb => (Except.ok.inj hb).symm
      · exact checkListed_told

theorem resolveShareToken_told {token : String} :
    Told (Truth db) (Fetched x db req) (resolveShareToken x token) h fun h' r =>
      ∀ round p, r = .ok (round, p) → TokenResolves x db h' token round p := by
  refine told_ask (fetched_of_noFetch trivial) fun row hrow => told_mapErr_bind (fun found heq => ?_) (fun _ => nofun)
  obtain rfl := (reads_cases hrow).2 found heq
  cases hlink : db.linkOf (x.hashToken token) with
  | none => exact nofun
  | some link =>
    refine told_failIf_bind (fun _ => nofun) fun hrevoked => ?_
    have hfor : db.linkFor x token link.replayRound = some link := by
      simp only [Bool.not_eq_true, Option.isSome_eq_false_iff] at hrevoked
      simp [Db.linkFor, hlink, hrevoked]
    cases hexp : link.expiresAt with
    | none =>
      dsimp only
      rintro _ _ ⟨⟩
      exact ⟨link, hfor, rfl, by simp [hexp]⟩
    | some exp =>
      refine told_ask (fetched_of_noFetch trivial) fun now _ => told_failIf_bind (fun _ => nofun) fun hlate => ?_
      rintro _ _ ⟨⟩
      refine ⟨link, hfor, rfl, fun exp' hexp' => ⟨now, ?_, ?_⟩⟩
      · simp
      · rw [hexp, Option.mem_some_iff] at hexp'
        rwa [← hexp']

/-- What the check lets through. -/
theorem pinPlayer_told {requested : Int64} {token : Option String} :
    Told (Truth db) (Fetched x db req) (pinPlayer x auth round requested token) h fun h' r =>
      ∀ p, r = .ok p → (token = none ∧ p = requested ∧ db.pairAccess round p auth = true) ∨
        ∃ t ∈ token, TokenResolves x db h' t round p := by
  cases token with
  | none =>
    refine told_bind (R := fun _ r => ∀ o, r = .ok o →
      o = if db.pairAccess round requested auth then some requested else none) ?_ ?_ (fun _ _ _ => nofun)
    · refine told_bind checkPairAccess_told (fun _ b hb => ?_) (fun _ _ _ => nofun)
      rw [hb b rfl]
      exact fun o ho => (Except.ok.inj ho).symm
    · intro _ o ho
      obtain rfl := ho o rfl
      split_ifs with haccess
      · rintro _ ⟨⟩
        exact .inl ⟨rfl, rfl, haccess⟩
      · exact nofun
  | some t =>
    refine told_bind (R := fun h' r => ∀ p, r = .ok (some p) → TokenResolves x db h' t round p)
      ?_ ?_ (fun _ _ _ => nofun)
    · refine told_bind resolveShareToken_told (fun _ link hlink => ?_) (fun _ _ _ => nofun)
      obtain ⟨shared, player⟩ := link
      have hresolves := hlink shared player rfl
      show ∀ p, Except.ok (if shared = round then some player else none) = .ok (some p) → _
      split_ifs with hround
      · rintro _ ⟨⟩
        exact hround ▸ hresolves
      · exact nofun
    · intro _ o ho
      cases o with
      | none => exact nofun
      | some player =>
        rintro _ ⟨⟩
        exact .inr ⟨t, rfl, ho player rfl⟩

/-! ## One path of each request -/

/-- The answers of these tables at the time `now`, to whoever only reads. -/
def Db.answer (db : Db) (now : ℕ) : (q : Query) → q.Answer
  | .visibility round player => .ok ((db.overrideOf round player).map (·.visibility))
  | .override round player => .ok (db.overrideOf round player)
  | .findUser id => .ok (db.findUser id)
  | .listFriends user => .ok (db.friendsOf user)
  | .acl replayId userId => .ok (db.aclOf replayId userId)
  | .linkByHash tokenHash => .ok (db.linkOf tokenHash)
  | .now => now
  | .revokeLink _ => .error .other
  | .persist .. => .ok .null
  | .send _ => ()

theorem truth_answer {now : ℕ} (q : Query) : Truth db ⟨q, db.answer now q⟩ := by
  cases q with
  | revokeLink id | now | persist stream since limit round player | send message => rfl
  | visibility round player | override round player | findUser id | listFriends user
  | acl replayId userId | linkByHash tokenHash =>
    simp [Truth, exec, Db.answer, reads, orUnchanged]

section Eval

variable {now : ℕ}

theorem eval_effectiveVisibility : eval (db.answer now) (effectiveVisibility round player) =
    .ok (visibilityOf ((db.overrideOf round player).map (·.visibility))) := rfl

theorem eval_checkListed {principal : AuthPrincipal} {row : Option ReplayOverride} {v : Visibility} :
    eval (db.answer now) (checkListed principal row v) = .ok (db.listed principal row v) := by
  cases v with
  | custom => cases row <;> rfl
  | inherit | «public» | friends | «private» | unlisted => rfl

theorem eval_checkPairAccess :
    eval (db.answer now) (checkPairAccess round player auth) =
      .ok (db.pairAccess round player auth) := by
  rw [checkPairAccess, eval_bind, eval_effectiveVisibility]
  unfold Db.pairAccess
  dsimp only [Except.bind]
  by_cases hpublic : visibilityOf ((db.overrideOf round player).map (·.visibility)) = .public
  · rw [if_pos hpublic, if_pos hpublic]
    rfl
  rw [if_neg hpublic, if_neg hpublic]
  cases auth with
  | none => rfl
  | some principal =>
    dsimp only
    by_cases hroot : principal.isRoot = true
    · rw [if_pos hroot, if_pos hroot]
      rfl
    rw [if_neg hroot, if_neg hroot]
    show eval (db.answer now) (if (db.overrideOf round player).bind (·.ownerUserId) = some principal.sub then _
      else _) = _
    by_cases howner : (db.overrideOf round player).bind (·.ownerUserId) = some principal.sub
    · rw [if_pos howner, if_pos howner]
      rfl
    rw [if_neg howner, if_neg howner, requesterPhiraId, if_neg hroot]
    show eval (db.answer now) (if (db.findUser principal.sub).map (·.phiraId) = some player then _
      else _) = _
    split_ifs with hown
    · rfl
    · exact eval_checkListed

/-- At the time 0 no link has expired. -/
theorem eval_pinPlayer {requested p : Int64} (hp : req.admitted x db = some p)
    (hasked : req.token = none → req.asked db = some requested) :
    eval (db.answer 0) (pinPlayer x req.auth req.round requested req.token) = .ok p := by
  unfold Request.admitted at hp
  cases htoken : req.token with
  | none =>
    rw [htoken, hasked htoken] at hp
    obtain ⟨hrequested, haccess⟩ := Option.filter_eq_some_iff.mp hp
    obtain rfl := Option.some.inj hrequested
    show eval (db.answer 0) (checkPairAccess req.round requested req.auth >>= _ >>= _) = _
    rw [eval_bind, eval_bind, eval_checkPairAccess]
    simp [Except.bind, haccess]
  | some t =>
    rw [htoken] at hp
    obtain ⟨link, hlink, rfl⟩ := Option.map_eq_some_iff.mp hp
    obtain ⟨hrow, hfor⟩ := Option.filter_eq_some_iff.mp hlink
    simp only [Bool.and_eq_true, beq_iff_eq, Option.isNone_iff_eq_none] at hfor
    have hshared : eval (db.answer 0) (resolveShareToken x t) =
        .ok (link.replayRound, link.playerPhiraId) := by
      show eval (db.answer 0) (ofOption _ (db.linkOf (x.hashToken t)) >>= _) = _
      rw [hrow, eval_bind, eval_ofOption_some]
      show eval (db.answer 0) (failIf _ _ >>= _) = _
      rw [eval_bind, eval_failIf, if_neg (by simp [hfor.1])]
      simp only [Except.bind]
      cases link.expiresAt with
      | none => rfl
      | some exp => rfl
    show eval (db.answer 0) (resolveShareToken x t >>= _ >>= _) = _
    rw [eval_bind, eval_bind, hshared]
    simp [Except.bind, hfor.2]

end Eval

/-! ## The requests -/

/-- The check has let `p` through. -/
structure Accepted (x : Extern) (db : Db) (req : Request) (h : History Query Query.Answer)
    (p : Int64) : Prop where
  admitted : req.admitted x db = some p
  allowed : Allowed x db req h req.round p

theorem TokenResolves.mono {h' : History Query Query.Answer} {token : String} {p : Int64}
    (hr : TokenResolves x db h token round p) (hpre : h <+: h') :
    TokenResolves x db h' token round p := by
  obtain ⟨link, hlink, hp, htime⟩ := hr
  refine ⟨link, hlink, hp, fun exp hexp => ?_⟩
  obtain ⟨now, hnow, hlate⟩ := htime exp hexp
  exact ⟨now, hpre.subset hnow, hlate⟩

theorem Allowed.mono {h' : History Query Query.Answer} {p : Int64}
    (ha : Allowed x db req h round p) (hpre : h <+: h') : Allowed x db req h' round p :=
  ha.imp_right fun ⟨token, htoken, hr⟩ => ⟨token, htoken, hr.mono hpre⟩

/-- The check, and then what it is for. -/
theorem told_pinned {β : Type} {requested : Int64} {k : Int64 → Handler β}
    (hasked : req.token = none → req.asked db = some requested)
    (hk : ∀ h' p, Accepted x db req h' p →
      Told (Truth db) (Fetched x db req) (k p) h' fun _ _ => True) :
    Told (Truth db) (Fetched x db req) (pinPlayer x req.auth req.round requested req.token >>= k) h
      fun _ _ => True := by
  refine told_bind pinPlayer_told (fun h' p hp => hk h' p ?_) (fun _ _ _ => trivial)
  rcases hp p rfl with ⟨htoken, rfl, haccess⟩ | ⟨t, ht, hresolves⟩
  · refine ⟨?_, .inl haccess⟩
    simp [Request.admitted, htoken, hasked htoken, haccess]
  · refine ⟨?_, .inr ⟨t, ht, hresolves⟩⟩
    obtain ⟨link, hlink, rfl, -⟩ := hresolves
    simp [Request.admitted, Option.mem_def.mp ht, hlink]

/-- The number fits into 32 bits, or its low bits name a player who may be seen as well. -/
def Narrows (db : Db) (req : Request) (p : Int64) : Prop :=
  p.toInt32.toInt64 = p ∨ db.pairAccess req.round p.toInt32.toInt64 req.auth = true

theorem told_fetches {β : Type} {k : Handler β} {p : Int64} (hacc : Accepted x db req h p)
    (hp : Narrows db req p) (hk : k.Only (OfPair req.round p.toInt32)) :
    Told (Truth db) (Fetched x db req) k h fun _ _ => True := by
  refine told_mono (told_of_only hk fun h' q hpre hq => ?_) fun _ _ _ => trivial
  refine ⟨by rintro id rfl; exact hq, ?_⟩
  rintro stream since limit r player rfl
  obtain ⟨rfl, rfl⟩ := hq
  rcases hp with hfits | haccess
  · rw [hfits]
    exact hacc.allowed.mono hpre
  · exact .inl haccess

theorem only_of_noFetch {α : Type} {k : Handler α} (hk : k.Only NoFetch) : k.Only (OfPair round p) := by
  refine hk.mono fun q hq => ?_
  cases q with
  | persist stream since limit r player => exact hq.elim
  | revokeLink id => exact hq.elim
  | visibility | override | findUser | listFriends | acl | linkByHash | now | send => trivial

theorem told_noFetch {β : Type} {k : Handler β} (hk : k.Only NoFetch) :
    Told (Truth db) (Fetched x db req) k h fun _ _ => True := by
  exact told_mono (told_of_only hk fun h' q _ hq => fetched_of_noFetch hq) fun _ _ _ => trivial

/-- A viewer that does not get as far as a fetch. -/
theorem only_replayWsTask_of_not_fetches {messages : List Message} (hno : fetches messages = false) :
    ∀ {since : Int64}, (replayWsTask round p since messages).Only NoFetch := by
  induction messages with
  | nil => exact only_done
  | cons message rest ih =>
    intro since
    have hsend : ∀ text, fetches rest = false → (ask (.send text) >>= fun _ =>
        replayWsTask round p since rest).Only NoFetch := fun text hrest =>
      only_bind (only_query trivial) fun _ => ih hrest
    match message with
    | .close => exact only_done
    | .other => exact ih hno
    | .text none => exact hsend _ hno
    | .text (some parsed) =>
      unfold fetches at hno
      unfold replayWsTask
      dsimp only at hno ⊢
      split
      · exact only_done
      · rename_i hclose
        rw [if_neg hclose] at hno
        split
        · rename_i htype
          rw [if_pos htype] at hno
          exact hsend _ hno
        · rename_i htype
          rw [if_neg htype, Bool.or_eq_false_iff] at hno
          cases hstream : streamOf parsed with
          | none => exact hsend _ hno.2
          | some stream => simp [hstream] at hno

/-- The player a viewer asks for. -/
theorem requestedPlayer_told (round : String) (params : ReplayWsParams) (messages : List Message) :
    Told (Truth db) (Fetched x db req) (requestedPlayer auth params) h fun _ r =>
      ∀ p, r = .ok p → params.token = none →
        (Request.ws auth round params messages).asked db = some p := by
  unfold requestedPlayer
  split_ifs with htoken
  · exact fun p _ hnone => by simp [hnone] at htoken
  · cases hplayer : params.playerId with
    | some player => exact fun p hp _ => by simp [Request.asked, hplayer, ← Except.ok.inj hp]
    | none =>
      cases auth with
      | none => exact nofun
      | some principal =>
        refine told_ask (fetched_of_noFetch trivial) fun user huser => told_mapErr_bind (fun found heq => ?_) (fun _ => nofun)
        obtain rfl := (reads_cases huser).2 found heq
        exact fun p hp _ => by simp [Request.asked, hplayer, ← Except.ok.inj hp]

theorem eval_requestedPlayer {params : ReplayWsParams} {messages : List Message}
    {p : Int64} (hp : (Request.ws auth round params messages).admitted x db = some p) :
    ∃ requested, eval (db.answer 0) (requestedPlayer auth params) = .ok requested ∧
      (params.token = none → (Request.ws auth round params messages).asked db = some requested) := by
  unfold requestedPlayer
  split_ifs with htoken
  · exact ⟨_, rfl, fun hnone => by simp [hnone] at htoken⟩
  · cases hplayer : params.playerId with
    | some player => exact ⟨player, rfl, fun _ => by simp [Request.asked, hplayer]⟩
    | none =>
      cases auth with
      | none =>
        have hnone : params.token = none := by simpa using htoken
        simp [Request.admitted, Request.token, Request.asked, hnone, hplayer] at hp
      | some principal => exact ⟨_, rfl, fun _ => by simp [Request.asked, hplayer]⟩

/-- What a request asks is allowed, if the number of its player can be narrowed. -/
theorem program_told (hp : req.fetches = true → ∀ p, req.admitted x db = some p → Narrows db req p) :
    Told (Truth db) (Fetched x db req) (req.program x) [] fun _ _ => True := by
  have hwhole : ∀ {β : Type} {q : Handler β}, Told (Truth db) (Fetched x db req) q [] (fun _ _ => True) →
      Told (Truth db) (Fetched x db req) (q >>= fun _ => pure ()) [] fun _ _ => True := fun hq =>
    told_bind hq (fun _ _ _ => trivial) (fun _ _ _ => trivial)
  cases req with
  | detail auth round params =>
    refine hwhole (told_pinned (fun _ => rfl) fun h' p hacc =>
      told_fetches hacc (hp rfl p hacc.admitted) ?_)
    refine only_bind (only_of_noFetch only_effectiveVisibility) fun _ => only_bind only_roundMeta
      fun _ => only_bind only_fetchBatches fun _ => only_bind only_fromPmp fun _ => ?_
    exact only_bind only_fetchBatches fun _ => only_bind only_fromPmp fun _ => only_done
  | manifest auth round params =>
    refine hwhole (told_pinned (fun _ => rfl) fun h' p hacc =>
      told_fetches hacc (hp rfl p hacc.admitted) ?_)
    exact only_bind only_roundMeta fun _ => only_bind only_fetchAllFrom fun _ =>
      only_bind only_fetchAllFrom fun _ => only_done
  | frames auth round params =>
    refine hwhole (told_pinned (fun _ => rfl) fun h' p hacc =>
      told_fetches hacc (hp rfl p hacc.admitted) ?_)
    exact only_bind only_roundMeta fun _ => only_bind only_fetchAllFrom fun _ =>
      only_bind only_fetchAllFrom fun _ => only_done
  | ws auth round params messages =>
    refine told_bind (requestedPlayer_told round params messages) (fun h requested hasked => ?_) (fun _ _ _ => trivial)
    refine told_pinned (hasked requested rfl) fun h' p hacc => ?_
    cases hfetches : fetches messages with
    | true => exact told_fetches hacc (hp hfetches p hacc.admitted) only_replayWsTask
    | false => exact told_noFetch (only_replayWsTask_of_not_fetches hfetches)

/-- A viewer that gets as far as a fetch. -/
theorem mem_trace_replayWsTask (db : Db) (round : String) (p : Int32) {messages : List Message}
    (hfetches : fetches messages = true) : ∀ since : Int64, ∃ stream since' limit,
      ∃ e ∈ (replayWsTask round p since messages).trace (db.answer 0),
        e.1 = .persist stream since' limit round p := by
  induction messages with
  | nil => cases hfetches
  | cons message rest ih =>
    intro since
    have hsend : ∀ text, fetches rest = true → ∃ stream since' limit,
        ∃ e ∈ (ask (.send text) >>= fun _ => replayWsTask round p since rest).trace (db.answer 0),
          e.1 = .persist stream since' limit round p := fun text hrest => by
      obtain ⟨stream, since', limit, e, he, heq⟩ := ih hrest since
      exact ⟨stream, since', limit, e, mem_trace_bind rfl he, heq⟩
    match message with
    | .close => cases hfetches
    | .other => exact ih hfetches since
    | .text none => exact hsend _ hfetches
    | .text (some parsed) =>
      unfold fetches at hfetches
      unfold replayWsTask
      dsimp only at hfetches ⊢
      split
      · rename_i hclose
        simp [hclose] at hfetches
      · rename_i hclose
        rw [if_neg hclose] at hfetches
        split
        · rename_i htype
          rw [if_pos htype] at hfetches
          exact hsend _ hfetches
        · rename_i htype
          rw [if_neg htype] at hfetches
          cases hstream : streamOf parsed with
          | none => exact hsend _ (by simpa [hstream] using hfetches)
          | some stream => exact ⟨_, _, _, _, mem_trace_bind_left List.mem_cons_self, rfl⟩

/-- Whom a request may be accepted for is fetched. -/
theorem mem_trace_program {p : Int64} (hfetches : req.fetches = true)
    (hp : req.admitted x db = some p) :
    ∃ stream since limit, ∃ e ∈ (req.program x).trace (db.answer 0),
      e.1 = .persist stream since limit req.round p.toInt32 := by
  have hmeta : ∀ round, ∃ e ∈ (roundMeta x round p.toInt32).trace (db.answer 0),
      e.1 = .persist .rounds 0 1 round p.toInt32 := fun round => ⟨_, List.mem_cons_self, rfl⟩
  cases req with
  | detail auth round params =>
    obtain ⟨e, he, heq⟩ := hmeta round
    refine ⟨_, _, _, e, mem_trace_bind_left (mem_trace_bind (eval_pinPlayer hp fun _ => rfl) ?_), heq⟩
    exact mem_trace_bind eval_effectiveVisibility (mem_trace_bind_left he)
  | manifest auth round params =>
    obtain ⟨e, he, heq⟩ := hmeta round
    refine ⟨_, _, _, e, mem_trace_bind_left (mem_trace_bind (eval_pinPlayer hp fun _ => rfl) ?_), heq⟩
    exact mem_trace_bind_left he
  | frames auth round params =>
    obtain ⟨e, he, heq⟩ := hmeta round
    refine ⟨_, _, _, e, mem_trace_bind_left (mem_trace_bind (eval_pinPlayer hp fun _ => rfl) ?_), heq⟩
    exact mem_trace_bind_left he
  | ws auth round params messages =>
    obtain ⟨requested, heval, hasked⟩ := eval_requestedPlayer hp
    obtain ⟨stream, since, limit, e, he, heq⟩ := mem_trace_replayWsTask db round p.toInt32
      hfetches 0
    refine ⟨stream, since, limit, e, mem_trace_bind heval (mem_trace_bind ?_ he), heq⟩
    exact eval_pinPlayer hp hasked

/-- What is fetched for the player of the request is allowed only if he can be narrowed. -/
theorem Pinned.narrows (hpinned : Pinned x db req) (hfetches : req.fetches = true) {p : Int64}
    (hp : req.admitted x db = some p) : Narrows db req p := by
  obtain ⟨stream, since, limit, e, he, heq⟩ := mem_trace_program hfetches hp
  obtain ⟨h, hasks, htrue⟩ := asks_of_mem_trace he
  rw [heq] at hasks
  have hexec : execAll exec db h = some db := execAll_of_truths fun e' he' => by
    rw [htrue e' he']
    exact truth_answer e'.1
  rcases hpinned h db stream since limit req.round p.toInt32 hexec hasks with
    haccess | ⟨t, ht, link, hlink, hplayer, -⟩
  · exact .inr haccess
  · left
    rw [Request.admitted, Option.mem_def.mp ht] at hp
    have hown : link.playerPhiraId = p := by simpa [hlink] using hp
    rw [← hplayer, hown]

/-- The request is pinned just when the number of the player it may be accepted for fits into
    32 bits, or its low 32 bits name a player whom the caller may see as well; or when nothing
    is fetched. -/
theorem pinned_iff (x : Extern) (db : Db) (req : Request) :
    Pinned x db req ↔ (req.fetches = true → ∀ p, req.admitted x db = some p → Narrows db req p) := by
  constructor
  · intro hpinned hfetches p hp
    exact hpinned.narrows hfetches hp
  · intro hp h db' stream since limit round player hexec hasks
    refine ((program_told hp).asks_execAll (fun _ q a db' hq hexec => ?_) hasks hexec).2 _ _ _ _ _ rfl
    exact exec_reading hq.1 hexec

/-- Player 5 of the round `r` keeps his replay to himself. -/
def samplePrivate : Db where
  users := [⟨1, 5⟩]
  overrides := ⟨[⟨41, "r", 5, some 1, .private⟩], by decide⟩
  acl := []
  friendships := []
  links := .empty

/-- What the packages compute does not matter here. -/
def sampleExtern : Extern := ⟨id, fun _ => none, fun _ => none, fun _ => none⟩

/-- Nobody has said anything about player 2^32 + 5, so an anonymous caller may see him; and what
    is fetched is the replay of player 5. -/
theorem not_pinned_wrapped :
    samplePrivate.pairAccess "r" 5 none = false ∧
      ¬ Pinned sampleExtern samplePrivate (.frames none "r" ⟨4294967301, none⟩) := by
  refine ⟨by decide, fun hpinned => ?_⟩
  have hnarrows := hpinned.narrows rfl (p := 4294967301) (by decide)
  rcases hnarrows with hfits | haccess
  · exact absurd hfits (by decide)
  · exact absurd haccess (by decide)

end Ppb.Replay
