import Ppb.Replay.Routes

/-!
# Whose share links can be revoked?

`revoke_share` asks `ensure_owner` for the pair of the URL, and then revokes the link by
its id alone. Who owns one replay can revoke every link whose id he knows.

* `revokeShare_post`: what `revoke_share` does to the tables.
* `revoke_confined_iff`: for which links that is what it should do.
-/

namespace Ppb.Replay

open Prog Shared

variable {db db' : Db} {auth : AuthPrincipal} {round : String} {linkId : Uuid} {player : Int64}

/-- Whom `ensure_owner` accepts. -/
def Db.Owns (db : Db) (round : String) (player : Int64) (user : Uuid) : Prop :=
  match db.overrideOf round player with
  | some o => o.ownerUserId = some user
  | none => (db.findUser user).map (·.phiraId) = some player

instance (db : Db) (round : String) (player : Int64) (user : Uuid) :
    Decidable (db.Owns round player user) :=
  match h : db.overrideOf round player with
  | some o => decidable_of_iff (o.ownerUserId = some user) (by rw [Db.Owns, h])
  | none => decidable_of_iff ((db.findUser user).map (·.phiraId) = some player)
      (by rw [Db.Owns, h])

/-- The row of a link, and whose it is. -/
def ReplayShareLink.OfPair (l : ReplayShareLink) (round : String) (player : Int64) : Prop :=
  l.replayRound = round ∧ l.playerPhiraId = player

/-- Nothing has changed but the row `linkId`, and that one only if `allowed`. -/
structure Confined (db db' : Db) (linkId : Uuid) (allowed : ReplayShareLink → Prop) : Prop where
  users : db'.users = db.users
  overrides : db'.overrides = db.overrides
  acl : db'.acl = db.acl
  friendships : db'.friendships = db.friendships
  others : ∀ l, l.id ≠ linkId → (l ∈ db'.links ↔ l ∈ db.links)
  changed : ∀ l ∈ db.links, l ∉ db'.links → allowed l

theorem Confined.refl {allowed : ReplayShareLink → Prop} : Confined db db linkId allowed :=
  ⟨rfl, rfl, rfl, rfl, fun _ _ => Iff.rfl, fun _ h hnot => absurd h hnot⟩

/-- `revoke_share` runs alone: it changes at most the link of its URL, and only if that is a
    link of the pair for which `ensure_owner` accepts the caller. -/
def RevokeConfined (db : Db) (auth : AuthPrincipal) (round : String) (linkId : Uuid)
    (params : ReplayDetailParams) : Prop :=
  ∀ h r db', (revokeShare auth round linkId params).follow h = some (.done r) →
    execAll exec db h = some db' → Confined db db' linkId fun l =>
      db.Owns round params.playerId auth.sub ∧ l.OfPair round params.playerId

/-! ## What `revoke_share` does -/

theorem mem_revokeLink {time : ℕ} (h : db.revokeLink linkId time = some db') {l : ReplayShareLink} :
    l ∈ db'.links ↔
      ∃ k ∈ db.links, (if k.id == linkId then { k with revokedAt := some time } else k) = l := by
  obtain ⟨links, hupdate, rfl⟩ := Option.map_eq_some_iff.mp h
  exact Table.mem_update hupdate

/-- The `UPDATE` leaves the other rows. -/
theorem confined_revokeLink {time : ℕ} {allowed : ReplayShareLink → Prop}
    (h : db.revokeLink linkId time = some db')
    (hallowed : ∀ l ∈ db.links, l.id = linkId → allowed l) : Confined db db' linkId allowed := by
  obtain ⟨links, -, heq⟩ := Option.map_eq_some_iff.mp h
  refine ⟨by rw [← heq], by rw [← heq], by rw [← heq], by rw [← heq], fun l hne => ?_,
    fun l hl hgone => ?_⟩
  · rw [mem_revokeLink h]
    constructor
    · rintro ⟨k, hk, rfl⟩
      by_cases hid : k.id = linkId
      · simp [hid] at hne
      · simpa [hid] using hk
    · intro hl
      exact ⟨l, hl, by simp [hne]⟩
  · refine hallowed l hl ?_
    by_contra hne
    exact hgone ((mem_revokeLink h).mpr ⟨l, hl, by simp [hne]⟩)

/-- What a program that runs alone does: nobody else changes the tables. -/
abbrev SafeAlone {α : Type} (p : Handler α) (db : Db) (P : Db → Except ApiError α → Prop) : Prop :=
  Safe (fun s e s' => exec s e = some s' ∧ True) (fun _ => True) Eq (fun _ _ => True) p db P

/-- `ensure_owner` changes nothing, and accepts owners only. -/
theorem ensureOwner_safe : SafeAlone (ensureOwner round player auth.sub) db fun db' r =>
    db' = db ∧ (r = .ok () → db.Owns round player auth.sub) := by
  rintro _ rfl - row db₁ ⟨hexec, -⟩
  obtain ⟨rfl, hrow⟩ := reads_cases hexec
  refine ⟨⟨trivial, trivial⟩, ?_⟩
  cases row with
  | error e => exact fun _ heq _ => ⟨heq.symm, nofun⟩
  | ok row =>
    have hfound := hrow row rfl
    cases row with
    | some o =>
      show SafeAlone (failIf (o.ownerUserId ≠ some auth.sub) .permissionDenied) db₁ _
      unfold failIf
      split_ifs with howner
      · exact fun _ heq _ => ⟨heq.symm, nofun⟩
      · refine fun _ heq _ => ⟨heq.symm, fun _ => ?_⟩
        rw [Db.Owns, ← hfound]
        exact not_not.mp howner
    | none =>
      rintro _ rfl - user db₂ ⟨hexec, -⟩
      obtain ⟨rfl, huser⟩ := reads_cases hexec
      refine ⟨⟨trivial, trivial⟩, ?_⟩
      cases user with
      | error e => exact fun _ heq _ => ⟨heq.symm, nofun⟩
      | ok user =>
        show SafeAlone (failIf (user.map (·.phiraId) ≠ some player) .permissionDenied) db₂ _
        unfold failIf
        split_ifs with hplayer
        · exact fun _ heq _ => ⟨heq.symm, nofun⟩
        · refine fun _ heq _ => ⟨heq.symm, fun _ => ?_⟩
          rw [Db.Owns, ← hfound]
          show (db₂.findUser auth.sub).map (·.phiraId) = some player
          rw [← huser user rfl]
          exact not_not.mp hplayer

/-- Whoever owns the pair may get past `ensure_owner`. -/
theorem ensureOwner_accepts (howns : db.Owns round player auth.sub) :
    ∃ h, (ensureOwner round player auth.sub).Ends h (.ok ()) ∧ execAll exec db h = some db := by
  cases hrow : db.overrideOf round player with
  | some o =>
    rw [Db.Owns, hrow] at howns
    refine ⟨[⟨.override round player, .ok (some o)⟩], ends_ask ?_, ?_⟩
    · show (failIf (o.ownerUserId ≠ some auth.sub) _).Ends [] (.ok ())
      simp only [failIf, howns, ne_eq, not_true_eq_false, if_false]
      rfl
    · simp [execAll, exec, reads, orUnchanged, hrow]
  | none =>
    rw [Db.Owns, hrow] at howns
    refine ⟨[⟨.override round player, .ok none⟩, ⟨.findUser auth.sub, .ok (db.findUser auth.sub)⟩],
      ends_ask (ends_ask ?_), ?_⟩
    · show (failIf ((db.findUser auth.sub).map (·.phiraId) ≠ some player) _).Ends [] (.ok ())
      simp only [failIf, howns, ne_eq, not_true_eq_false, if_false]
      rfl
    · simp [execAll, exec, reads, orUnchanged, hrow]

/-- What `revoke_share` does when it runs alone. -/
theorem revokeShare_post {params : ReplayDetailParams} {allowed : ReplayShareLink → Prop}
    (hallowed : db.Owns round params.playerId auth.sub → ∀ l ∈ db.links, l.id = linkId → allowed l)
    {h : History Query Query.Answer} {r : Except ApiError Unit}
    (hf : (revokeShare auth round linkId params).follow h = some (.done r))
    (hexec : execAll exec db h = some db') : Confined db db' linkId allowed := by
  have hsafe : SafeAlone (revokeShare auth round linkId params) db
      fun db' _ => Confined db db' linkId allowed := by
    refine safe_bind (fun _ => rfl) trivial ensureOwner_safe ?_ ?_
    · rintro db₁ ⟨⟩ - ⟨rfl, howns⟩ _ rfl - revoked db₂ ⟨hexec, -⟩
      refine ⟨⟨trivial, trivial⟩, ?_⟩
      have hpost : Confined db₁ db₂ linkId allowed := by
        rcases exec_cases hexec with rfl | ⟨id, time, heq, hrevoke⟩
        · exact .refl
        · obtain ⟨rfl, -⟩ : linkId = id ∧ _ := by simpa using heq
          exact confined_revokeLink hrevoke (hallowed (howns rfl))
      cases revoked with
      | ok time => exact fun _ heq _ => heq ▸ hpost
      | error e => exact fun _ heq _ => heq ▸ hpost
    · rintro db₁ e - ⟨rfl, -⟩
      exact .refl
  exact hsafe.execAll trivial hf (okAll_of_forall (fun _ _ => trivial) _ _) hexec

/-! ## Which links are safe -/

/-- The `UPDATE` finds its row whatever the keys are: it changes neither of them. -/
theorem exists_revokeLink (db : Db) (linkId : Uuid) (time : ℕ) :
    ∃ db', db.revokeLink linkId time = some db' := by
  obtain ⟨links, hlinks⟩ := Table.exists_update (t := db.links) (p := (·.id == linkId))
    (f := fun l => { l with revokedAt := some time }) fun a b h => by split_ifs <;> exact h
  exact ⟨_, by rw [Db.revokeLink, hlinks]; rfl⟩

/-- The owner of a pair may revoke any link. -/
theorem revokeShare_reaches {params : ReplayDetailParams}
    (howns : db.Owns round params.playerId auth.sub) (linkId : Uuid) (time : ℕ) :
    ∃ h db', (revokeShare auth round linkId params).follow h = some (.done (.ok ())) ∧
      execAll exec db h = some db' ∧ db.revokeLink linkId time = some db' := by
  obtain ⟨h, hends, hexec⟩ := ensureOwner_accepts howns
  obtain ⟨db', hrevoke⟩ := exists_revokeLink db linkId time
  refine ⟨h ++ [⟨.revokeLink linkId, .ok time⟩], db', ?_, ?_, hrevoke⟩
  · rw [follow_append]
    show ((ensureOwner round params.playerId auth.sub >>= _).follow h).bind _ = _
    rw [follow_bind hends, Option.bind_some]
    exact follow_ask
  · rw [execAll_append, hexec]
    simp [execAll, exec, orUnchanged, hrevoke]

/-- A link that the owner of a pair may revoke has to be a link of that pair. -/
theorem RevokeConfined.ofPair {params : ReplayDetailParams}
    (hconfined : RevokeConfined db auth round linkId params)
    (howns : db.Owns round params.playerId auth.sub) {l : ReplayShareLink} (hl : l ∈ db.links)
    (hid : l.id = linkId) : l.OfPair round params.playerId := by
  -- a time that the row does not have yet
  let time := l.revokedAt.elim 0 (· + 1)
  have htime : l.revokedAt ≠ some time := by
    cases hrevoked : l.revokedAt with
    | none => simp
    | some t => simp [time, hrevoked]
  obtain ⟨h, db', hf, hexec, hrevoke⟩ := revokeShare_reaches howns linkId time
  refine ((hconfined h _ db' hf hexec).changed l hl fun hstays => ?_).2
  obtain ⟨k, -, hk⟩ := (mem_revokeLink hrevoke).mp hstays
  split_ifs at hk with hid'
  · exact htime (by rw [← hk])
  · exact hid' (by rw [hk, hid]; exact BEq.rfl)

/-- `revoke_share` is confined to the links of the caller's own pair just when the caller does
    not own the pair of the URL, or the link of the URL is a link of that pair, or there is no
    such link. -/
theorem revoke_confined_iff (db : Db) (auth : AuthPrincipal) (round : String) (linkId : Uuid)
    (params : ReplayDetailParams) :
    RevokeConfined db auth round linkId params ↔ (db.Owns round params.playerId auth.sub →
      ∀ l ∈ db.links, l.id = linkId → l.OfPair round params.playerId) := by
  constructor
  · intro hconfined howns l hl hid
    exact hconfined.ofPair howns hl hid
  · intro hpair h r db' hf hexec
    exact revokeShare_post (fun howns l hl hid => ⟨howns, hpair howns l hl hid⟩) hf hexec

/-- Player 5 of the round `r` has shared his replay, and player 6 his own. -/
def sampleShared : Db where
  users := [⟨1, 5⟩, ⟨2, 6⟩]
  overrides := .empty
  acl := []
  friendships := []
  links := ⟨[⟨31, "r", 5, "hash-31", 1, none, none⟩, ⟨32, "r", 6, "hash-32", 2, none, none⟩],
    by decide⟩

/-- Player 5 revokes the link of player 6, with a request for his own replay. -/
theorem not_revoke_confined_foreign :
    ¬ RevokeConfined sampleShared ⟨1, 21, .user, .ppf, "r-1"⟩ "r" 32 ⟨5, none⟩ := by
  intro hconfined
  have howns : sampleShared.Owns "r" 5 1 := by decide
  have hpair := hconfined.ofPair howns (l := ⟨32, "r", 6, "hash-32", 2, none, none⟩)
    (List.mem_cons_of_mem _ List.mem_cons_self) rfl
  exact absurd hpair.2 (by decide)

end Ppb.Replay
