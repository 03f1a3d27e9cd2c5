import Ppb.Common.Lift
import Ppb.Replay.Pinning
import Ppb.Replay.Share

/-!
# Who can change and share a replay?

`ensure_owner` accepts the owner of the override of a pair, and while there is none the player
himself. Both writers ask it first and write afterwards; `set_visibility` keeps the owner of a
row that is there already.

* `ensureOwner_player`: whom `ensure_owner` accepts while others write.
* `replay_owners`: in every run that starts without overrides, each override and each new link
  belongs to the player of its pair, and only his requests change them.

Deviation: `register` stands for the first login of a player, which adds a row to `users` and
changes no other.
-/

namespace Ppb.Replay

open Prog Shared Trace

/-! ## The two writers -/

/-- The statements of the writers, and those of the readers. -/
inductive OwnerQuery where
  | replay (q : Query)
  /-- `set_visibility` (replay/mod.rs:55-77) -/
  | setVisibility (round : String) (player : Int64) (owner : Uuid) (visibility : Visibility)
  /-- the random bytes of `new_share_token` (replay/mod.rs:40-46), encoded -/
  | newShareToken
  /-- the statement of `create_share_link` (replay/mod.rs:87-100) -/
  | insertLink (round : String) (player : Int64) (tokenHash : String) (createdBy : Uuid)
      (expiresAt : Option ℕ)
  /-- a player logs in for the first time -/
  | register (user : User)
  deriving DecidableEq

@[reducible]
def OwnerQuery.Answer : OwnerQuery → Type
  | .replay q => q.Answer
  | .setVisibility .. => Except DbError ReplayOverride
  | .newShareToken => String
  | .insertLink .. => Except DbError ReplayShareLink
  | .register _ => Unit

abbrev OwnerHandler (α : Type) := Prog OwnerQuery OwnerQuery.Answer ApiError α

/-- A program that only reads, among the writers. -/
def reading {α : Type} (p : Handler α) : OwnerHandler α := p.lift .replay fun _ a => a

namespace Db

variable (db : Db)

/-- `INSERT … ON CONFLICT (pmp_replay_id, player_phira_id) DO UPDATE SET visibility`: the row of a
    pair that is there keeps its owner. `row` is what is returned. -/
def setVisibility (round : String) (player : Int64) (owner : Uuid) (visibility : Visibility)
    (row : ReplayOverride) : Option Db :=
  match db.overrideOf round player with
  | some o =>
    if row = { o with visibility := visibility } then
      (db.overrides.update (fun o => o.pmpReplayId == round && o.playerPhiraId == player)
        fun o => { o with visibility := visibility }).map fun overrides =>
          { db with overrides := overrides }
    else none
  | none =>
    if row = ⟨row.id, round, player, some owner, visibility⟩ then
      (db.overrides.insert row).map fun overrides => { db with overrides := overrides }
    else none

/-- `INSERT INTO replay_share_links … RETURNING …`. -/
def insertLink (round : String) (player : Int64) (tokenHash : String) (createdBy : Uuid)
    (expiresAt : Option ℕ) (row : ReplayShareLink) : Option Db :=
  if row = ⟨row.id, round, player, tokenHash, createdBy, expiresAt, none⟩ then
    (db.links.insert row).map fun links => { db with links := links }
  else none

/-- `PRIMARY KEY (id)` and `UNIQUE (phira_id)` of `users`. -/
def register (user : User) : Option Db :=
  if db.users.any (fun u => u.id == user.id || u.phiraId == user.phiraId) then none
  else some { db with users := db.users ++ [user] }

end Db

/-- The tables after a statement and its answer. -/
def execOwner (db : Db) (e : Event OwnerQuery OwnerQuery.Answer) : Option Db :=
  match e with
  | ⟨.replay q, a⟩ => exec db ⟨q, a⟩
  | ⟨.setVisibility round player owner visibility, a⟩ =>
    orUnchanged db (db.setVisibility round player owner visibility) a
  | ⟨.newShareToken, _⟩ => some db
  | ⟨.insertLink round player tokenHash createdBy expiresAt, a⟩ =>
    orUnchanged db (db.insertLink round player tokenHash createdBy expiresAt) a
  | ⟨.register user, _⟩ => db.register user

/-- `VISIBILITIES` (replay/routes.rs:459). -/
def Visibility.ofText? : String → Option Visibility
  | "inherit" => some .inherit
  | "public" => some .public
  | "friends" => some .friends
  | "private" => some .private
  | "unlisted" => some .unlisted
  | "custom" => some .custom
  | _ => none

/-- `set_replay_visibility` (replay/routes.rs:481-496). -/
def setReplayVisibility (auth : AuthPrincipal) (round : String) (params : ReplayDetailParams)
    (visibility : String) : OwnerHandler ReplayOverride := do
  let visibility ← ofOption (.new .replayVisibilityInvalid "invalid replay visibility")
    (Visibility.ofText? visibility)
  reading (ensureOwner round params.playerId auth.sub)
  let row ← query (.setVisibility round params.playerId auth.sub visibility)
  mapErr replayErr row

/-- `create_share` (replay/routes.rs:513-523); the answer is the link and its token. -/
def createShare (x : Extern) (auth : AuthPrincipal) (round : String) (params : ReplayDetailParams)
    (expiresAt : Option ℕ) : OwnerHandler (ReplayShareLink × String) := do
  reading (ensureOwner round params.playerId auth.sub)
  let token ← query .newShareToken
  let link ← query (.insertLink round params.playerId (x.hashToken token) auth.sub expiresAt)
  let link ← mapErr replayErr link
  return (link, token)

/-- A request, or the first login of a player. -/
inductive OwnerOp where
  | setReplayVisibility (auth : AuthPrincipal) (round : String) (params : ReplayDetailParams)
      (visibility : String)
  | createShare (auth : AuthPrincipal) (round : String) (params : ReplayDetailParams)
      (expiresAt : Option ℕ)
  | register (user : User)

namespace OwnerOp

def program (x : Extern) : OwnerOp → OwnerHandler Unit
  | .setReplayVisibility auth round params visibility =>
    Replay.setReplayVisibility auth round params visibility >>= fun _ => pure ()
  | .createShare auth round params expiresAt =>
    Replay.createShare x auth round params expiresAt >>= fun _ => pure ()
  | .register user => query (OwnerQuery.register user)

/-- Who makes the request. -/
def sub : OwnerOp → Option Uuid
  | .setReplayVisibility auth .. => some auth.sub
  | .createShare auth .. => some auth.sub
  | .register _ => none

end OwnerOp

/-- Any number of requests in progress. -/
abbrev Owners := Pool OwnerQuery OwnerQuery.Answer Db OwnerOp ApiError Unit

abbrev OwnerLabel := Label OwnerQuery OwnerQuery.Answer OwnerOp

abbrev Owners.next (x : Extern) (p : Owners) (l : OwnerLabel) : Option Owners :=
  p.step execOwner (OwnerOp.program x) l

/-- No request is in progress. -/
def Owners.idle (db : Db) : Owners := ⟨db, []⟩

/-! ## Whose a replay is -/

namespace Db

variable (db : Db)

/-- The user whose `phira_id` is `player`. -/
def playerOf (player : Int64) : Option User := db.users.find? (·.phiraId == player)

/-- `user` is the player. -/
def IsPlayer (player : Int64) (user : Uuid) : Prop := ∃ u, db.playerOf player = some u ∧ u.id = user

/-- Nobody has set a visibility yet, and the users have their own ids and numbers. -/
structure Fresh : Prop where
  overrides : db.overrides.rows = []
  ids : (db.users.map (·.id)).Nodup
  players : (db.users.map (·.phiraId)).Nodup

end Db

/-- The visibility of a pair has changed, or it has a new link. -/
def Touches (db db' : Db) (round : String) (player : Int64) : Prop :=
  db'.overrideOf round player ≠ db.overrideOf round player ∨
    ∃ l ∈ db'.links, l ∉ db.links ∧ l.OfPair round player

variable {x : Extern} {db db₀ db' : Db} {round : String} {player : Int64} {user : Uuid}

/-! ## Users -/

theorem mem_of_playerOf {u : User} (h : db.playerOf player = some u) :
    u ∈ db.users ∧ u.phiraId = player :=
  ⟨List.mem_of_find?_eq_some h, by simpa using List.find?_some h⟩

theorem mem_of_findUser {u : User} (h : db.findUser user = some u) : u ∈ db.users ∧ u.id = user :=
  ⟨List.mem_of_find?_eq_some h, by simpa using List.find?_some h⟩

/-- Where the numbers are unique, a user is found by his own. -/
theorem playerOf_of_mem (hplayers : (db.users.map (·.phiraId)).Nodup) {u : User}
    (hu : u ∈ db.users) : db.playerOf u.phiraId = some u := by
  cases hfound : db.playerOf u.phiraId with
  | none =>
    have hnone := List.find?_eq_none.mp hfound u hu
    simp at hnone
  | some u' =>
    obtain ⟨hu', hplayer⟩ := mem_of_playerOf hfound
    rw [List.inj_on_of_nodup_map hplayers hu' hu hplayer]

/-- Users stay, and keep their numbers. -/
def Keeps (db db' : Db) : Prop := ∀ u ∈ db.users, u ∈ db'.users

theorem Db.IsPlayer.keeps (h : db.IsPlayer player user) (hkeeps : Keeps db db')
    (hplayers : (db'.users.map (·.phiraId)).Nodup) : db'.IsPlayer player user := by
  obtain ⟨u, hfound, hid⟩ := h
  obtain ⟨hu, rfl⟩ := mem_of_playerOf hfound
  exact ⟨u, playerOf_of_mem hplayers (hkeeps u hu), hid⟩

theorem isPlayer_congr (husers : db'.users = db.users) :
    db'.IsPlayer player user ↔ db.IsPlayer player user := by
  unfold Db.IsPlayer Db.playerOf
  rw [husers]

/-! ## What the statements do -/

/-- The override of another pair does not change. -/
theorem overrideOf_setVisibility {owner : Uuid} {v : Visibility} {row : ReplayOverride}
    (h : db.setVisibility round player owner v row = some db') {r : String} {q : Int64}
    (hother : ¬ (r = round ∧ q = player)) : db'.overrideOf r q = db.overrideOf r q := by
  unfold Db.setVisibility at h
  split at h
  · split_ifs at h
    obtain ⟨overrides, hupdate, rfl⟩ := Option.map_eq_some_iff.mp h
    rw [Table.update, Table.commit_eq_some] at hupdate
    simp only [Db.overrideOf, hupdate, List.find?_map]
    have hkeys : ((fun o : ReplayOverride => o.pmpReplayId == r && o.playerPhiraId == q) ∘
        fun o => if (o.pmpReplayId == round && o.playerPhiraId == player) = true
          then { o with visibility := v } else o) =
        fun o => o.pmpReplayId == r && o.playerPhiraId == q := by
      funext o
      rw [Function.comp_apply]
      split_ifs <;> rfl
    rw [hkeys]
    cases hfound : db.overrides.rows.find? fun o => o.pmpReplayId == r && o.playerPhiraId == q with
    | none => rfl
    | some o =>
      have hpair := List.find?_some hfound
      simp only [Bool.and_eq_true, beq_iff_eq] at hpair
      have hno : ¬ ((o.pmpReplayId == round && o.playerPhiraId == player) = true) := by
        simp only [Bool.and_eq_true, beq_iff_eq, hpair.1, hpair.2]
        exact hother
      rw [Option.map_some, if_neg hno]
  · split_ifs at h with hrow
    obtain ⟨overrides, hinsert, rfl⟩ := Option.map_eq_some_iff.mp h
    rw [Table.insert, Table.commit_eq_some] at hinsert
    have hno : ¬ ((row.pmpReplayId == r && row.playerPhiraId == q) = true) := by
      rw [hrow]
      simp only [Bool.and_eq_true, beq_iff_eq]
      exact fun hsame => hother ⟨hsame.1.symm, hsame.2.symm⟩
    simp [Db.overrideOf, hinsert, List.find?_append, hno]

/-- The owner of a row is the one it had, or the one who inserts it. -/
theorem mem_setVisibility {owner : Uuid} {v : Visibility} {row o : ReplayOverride}
    (h : db.setVisibility round player owner v row = some db') (ho : o ∈ db'.overrides) :
    (∃ k ∈ db.overrides, k.playerPhiraId = o.playerPhiraId ∧ k.ownerUserId = o.ownerUserId) ∨
      o.playerPhiraId = player ∧ o.ownerUserId = some owner := by
  unfold Db.setVisibility at h
  split at h
  · split_ifs at h
    obtain ⟨overrides, hupdate, rfl⟩ := Option.map_eq_some_iff.mp h
    obtain ⟨k, hk, rfl⟩ := (Table.mem_update hupdate).mp ho
    refine .inl ⟨k, hk, ?_⟩
    split_ifs <;> exact ⟨rfl, rfl⟩
  · split_ifs at h with hrow
    obtain ⟨overrides, hinsert, rfl⟩ := Option.map_eq_some_iff.mp h
    rcases (Table.mem_insert hinsert).mp ho with ho | rfl
    · exact .inl ⟨o, ho, rfl, rfl⟩
    · rw [hrow]
      exact .inr ⟨rfl, rfl⟩

theorem setVisibility_frame {owner : Uuid} {v : Visibility} {row : ReplayOverride}
    (h : db.setVisibility round player owner v row = some db') :
    db'.users = db.users ∧ db'.links = db.links := by
  unfold Db.setVisibility at h
  split at h <;> split_ifs at h <;> obtain ⟨overrides, -, rfl⟩ := Option.map_eq_some_iff.mp h <;>
    exact ⟨rfl, rfl⟩

theorem insertLink_frame {tokenHash : String} {createdBy : Uuid} {expiresAt : Option ℕ}
    {row : ReplayShareLink}
    (h : db.insertLink round player tokenHash createdBy expiresAt row = some db') :
    db'.users = db.users ∧ db'.overrides = db.overrides := by
  unfold Db.insertLink at h
  split_ifs at h
  obtain ⟨links, -, rfl⟩ := Option.map_eq_some_iff.mp h
  exact ⟨rfl, rfl⟩

theorem mem_insertLink {tokenHash : String} {createdBy : Uuid} {expiresAt : Option ℕ}
    {row l : ReplayShareLink}
    (h : db.insertLink round player tokenHash createdBy expiresAt row = some db')
    (hl : l ∈ db'.links) :
    l ∈ db.links ∨ l.OfPair round player ∧ l.createdBy = createdBy := by
  unfold Db.insertLink at h
  split_ifs at h with hrow
  obtain ⟨links, hinsert, rfl⟩ := Option.map_eq_some_iff.mp h
  rcases (Table.mem_insert hinsert).mp hl with hl | rfl
  · exact .inl hl
  · rw [hrow]
    exact .inr ⟨⟨rfl, rfl⟩, rfl⟩

/-! ## The invariant -/

/-- Every override belongs to the player of its pair, and every link that was not there at the
    start. -/
structure Owned (db₀ db : Db) : Prop where
  ids : (db.users.map (·.id)).Nodup
  players : (db.users.map (·.phiraId)).Nodup
  overrides : ∀ o ∈ db.overrides, ∃ user, o.ownerUserId = some user ∧ db.IsPlayer o.playerPhiraId user
  links : ∀ l ∈ db.links, l ∈ db₀.links ∨ db.IsPlayer l.playerPhiraId l.createdBy

theorem Owned.start (h : db.Fresh) : Owned db db := by
  refine ⟨h.ids, h.players, fun o ho => ?_, fun l hl => .inl hl⟩
  rw [Table.mem_def, h.overrides] at ho
  cases ho

/-- The player writes. -/
theorem Owned.setVisibility {v : Visibility} {row : ReplayOverride} (hI : Owned db₀ db)
    (hplayer : db.IsPlayer player user) (h : db.setVisibility round player user v row = some db') :
    Owned db₀ db' := by
  obtain ⟨husers, hlinks⟩ := setVisibility_frame h
  refine ⟨husers ▸ hI.ids, husers ▸ hI.players, fun o ho => ?_, fun l hl => ?_⟩
  · rcases mem_setVisibility h ho with ⟨k, hk, hq, howner⟩ | ⟨hq, howner⟩
    · obtain ⟨u, hu, hk'⟩ := hI.overrides k hk
      exact ⟨u, howner ▸ hu, (isPlayer_congr husers).mpr (hq ▸ hk')⟩
    · exact ⟨user, howner, (isPlayer_congr husers).mpr (hq ▸ hplayer)⟩
  · rw [hlinks] at hl
    exact (hI.links l hl).imp_right (isPlayer_congr husers).mpr

theorem Owned.insertLink {tokenHash : String} {expiresAt : Option ℕ} {row : ReplayShareLink}
    (hI : Owned db₀ db) (hplayer : db.IsPlayer player user)
    (h : db.insertLink round player tokenHash user expiresAt row = some db') : Owned db₀ db' := by
  obtain ⟨husers, hoverrides⟩ := insertLink_frame h
  refine ⟨husers ▸ hI.ids, husers ▸ hI.players, fun o ho => ?_, fun l hl => ?_⟩
  · rw [hoverrides] at ho
    obtain ⟨u, hu, ho'⟩ := hI.overrides o ho
    exact ⟨u, hu, (isPlayer_congr husers).mpr ho'⟩
  · rcases mem_insertLink h hl with hl | ⟨hpair, hcreated⟩
    · exact (hI.links l hl).imp_right (isPlayer_congr husers).mpr
    · rw [hpair.2, hcreated]
      exact .inr ((isPlayer_congr husers).mpr hplayer)

theorem Owned.register {u : User} (hI : Owned db₀ db) (h : db.register u = some db') :
    Owned db₀ db' ∧ Keeps db db' := by
  unfold Db.register at h
  split_ifs at h with htaken
  obtain rfl := Option.some.inj h
  simp only [List.any_eq_true, Bool.or_eq_true, beq_iff_eq, not_exists, not_and, not_or] at htaken
  have hkeeps : Keeps db { db with users := db.users ++ [u] } := fun v hv =>
    List.mem_append_left _ hv
  have hids : ((db.users ++ [u]).map (·.id)).Nodup := by
    rw [List.map_append, List.nodup_append]
    refine ⟨hI.ids, List.nodup_singleton _, fun a ha b hb => ?_⟩
    obtain ⟨v, hv, rfl⟩ := List.mem_map.mp ha
    rw [List.map_singleton, List.mem_singleton] at hb
    exact hb ▸ (htaken v hv).1
  have hplayers : ((db.users ++ [u]).map (·.phiraId)).Nodup := by
    rw [List.map_append, List.nodup_append]
    refine ⟨hI.players, List.nodup_singleton _, fun a ha b hb => ?_⟩
    obtain ⟨v, hv, rfl⟩ := List.mem_map.mp ha
    rw [List.map_singleton, List.mem_singleton] at hb
    exact hb ▸ (htaken v hv).2
  refine ⟨⟨hids, hplayers, fun o ho => ?_, fun l hl => ?_⟩, hkeeps⟩
  · obtain ⟨user, howner, hplayer⟩ := hI.overrides o ho
    exact ⟨user, howner, hplayer.keeps hkeeps hplayers⟩
  · exact (hI.links l hl).imp_right fun hplayer => hplayer.keeps hkeeps hplayers

/-! ## The requests -/

/-- What a request may do: it keeps the users, and it touches only the replays of the caller. -/
def Mine (sub : Option Uuid) (db db' : Db) : Prop :=
  Keeps db db' ∧ ∀ round player, Touches db db' round player →
    ∃ user, sub = some user ∧ db.IsPlayer player user

theorem Keeps.refl (db : Db) : Keeps db db := fun _ hu => hu

theorem Keeps.trans {db'' : Db} (h : Keeps db db') (h' : Keeps db' db'') : Keeps db db'' :=
  fun u hu => h' u (h u hu)

theorem Mine.refl (sub : Option Uuid) (db : Db) : Mine sub db db := by
  refine ⟨.refl db, fun round player htouches => ?_⟩
  rcases htouches with hne | ⟨l, hl, hnew, -⟩
  · exact absurd rfl hne
  · exact absurd hl hnew

/-- A request among others that keep the users. -/
abbrev SafeAmong {α : Type} (db₀ : Db) (sub : Option Uuid) (p : OwnerHandler α) (db : Db)
    (P : Db → Except ApiError α → Prop) : Prop :=
  Safe (fun s e s' => execOwner s e = some s' ∧ True) (Owned db₀) Keeps (Mine sub) p db P

/-- Whom `ensure_owner` accepts, while others write. -/
theorem ensureOwner_player : SafeAmong db₀ (some user) (reading (ensureOwner round player user)) db
    fun db' r => r = .ok () → db'.IsPlayer player user := by
  rintro db₁ - hI row db₂ ⟨hexec, -⟩
  obtain ⟨rfl, hrow⟩ := reads_cases hexec
  refine ⟨⟨hI, .refl _ _⟩, ?_⟩
  cases row with
  | error e => exact fun _ _ _ => nofun
  | ok row =>
    have hfound := hrow row rfl
    cases row with
    | some o =>
      show SafeAmong db₀ (some user) (reading (failIf (o.ownerUserId ≠ some user) .permissionDenied))
        db₂ _
      unfold failIf
      split_ifs with howner
      · exact fun _ _ _ => nofun
      · intro db₃ hkeeps hI₃ _
        have ho : o ∈ db₂.overrides := List.mem_of_find?_eq_some hfound.symm
        have hpair : o.playerPhiraId = player := by
          have := List.find?_some hfound.symm
          simp only [Bool.and_eq_true, beq_iff_eq] at this
          exact this.2
        obtain ⟨u, hu, hplayer⟩ := hI.overrides o ho
        rw [not_not.mp howner] at hu
        rw [hpair, ← Option.some.inj hu] at hplayer
        exact hplayer.keeps hkeeps hI₃.players
    | none =>
      rintro db₃ - hI₃ found db₄ ⟨hexec, -⟩
      obtain ⟨rfl, huser⟩ := reads_cases hexec
      refine ⟨⟨hI₃, .refl _ _⟩, ?_⟩
      cases found with
      | error e => exact fun _ _ _ => nofun
      | ok found =>
        show SafeAmong db₀ (some user)
          (reading (failIf (found.map (·.phiraId) ≠ some player) .permissionDenied)) db₄ _
        unfold failIf
        split_ifs with hplayer
        · exact fun _ _ _ => nofun
        · intro db₅ hkeeps hI₅ _
          obtain ⟨u, hfound', rfl⟩ := Option.map_eq_some_iff.mp (not_not.mp hplayer)
          obtain ⟨hu, hid⟩ := mem_of_findUser ((huser found rfl).symm.trans hfound')
          exact ⟨u, playerOf_of_mem hI₅.players (hkeeps u hu), hid⟩

/-- The upsert of the player. -/
theorem mine_setVisibility {v : Visibility} {row : ReplayOverride}
    (hplayer : db.IsPlayer player user) (h : db.setVisibility round player user v row = some db') :
    Mine (some user) db db' := by
  obtain ⟨husers, hlinks⟩ := setVisibility_frame h
  refine ⟨fun u hu => husers ▸ hu, fun r q htouches => ?_⟩
  rcases htouches with hne | ⟨l, hl, hnew, -⟩
  · by_cases hpair : r = round ∧ q = player
    · exact ⟨user, rfl, hpair.2 ▸ hplayer⟩
    · exact absurd (overrideOf_setVisibility h hpair) hne
  · exact absurd (hlinks ▸ hl) hnew

/-- The link of the player. -/
theorem mine_insertLink {tokenHash : String} {expiresAt : Option ℕ} {row : ReplayShareLink}
    (hplayer : db.IsPlayer player user)
    (h : db.insertLink round player tokenHash user expiresAt row = some db') :
    Mine (some user) db db' := by
  obtain ⟨husers, hoverrides⟩ := insertLink_frame h
  refine ⟨fun u hu => husers ▸ hu, fun r q htouches => ?_⟩
  rcases htouches with hne | ⟨l, hl, hnew, hpair⟩
  · refine absurd ?_ hne
    rw [Db.overrideOf, Db.overrideOf, hoverrides]
  · have hown := ((mem_insertLink h hl).resolve_left hnew).1
    refine ⟨user, rfl, ?_⟩
    rw [← hpair.2, hown.2]
    exact hplayer

theorem mine_register {u : User} (hI : Owned db₀ db) (h : db.register u = some db') :
    Mine none db db' := by
  refine ⟨(hI.register h).2, fun r q htouches => ?_⟩
  unfold Db.register at h
  split_ifs at h
  obtain rfl := Option.some.inj h
  rcases htouches with hne | ⟨l, hl, hnew, -⟩
  · exact absurd rfl hne
  · exact absurd hl hnew

theorem setReplayVisibility_safe {auth : AuthPrincipal} {params : ReplayDetailParams} {text : String}
    (hI : Owned db₀ db) :
    SafeAmong db₀ (some auth.sub) (setReplayVisibility auth round params text) db
      fun _ _ => True := by
  refine safe_ofOption_bind (fun _ _ _ _ => trivial) fun v _ => ?_
  refine safe_bind Keeps.refl hI ensureOwner_player (fun db₁ _ hI₁ haccepted => ?_)
    (fun _ _ _ _ => trivial)
  have hplayer := haccepted rfl
  rintro db₂ hkeeps hI₂ row db₃ ⟨hexec, -⟩
  have hplayer₂ := hplayer.keeps hkeeps hI₂.players
  have hdone : Safe (fun s e s' => execOwner s e = some s' ∧ True) (Owned db₀) Keeps
      (Mine (some auth.sub)) (mapErr replayErr row : OwnerHandler ReplayOverride) db₃
      fun _ _ => True := by
    cases row <;> exact fun _ _ _ => trivial
  rcases orUnchanged_cases hexec with rfl | ⟨o, rfl, hset⟩
  · exact ⟨⟨hI₂, .refl _ _⟩, hdone⟩
  · exact ⟨⟨hI₂.setVisibility hplayer₂ hset, mine_setVisibility hplayer₂ hset⟩, hdone⟩

theorem createShare_safe {auth : AuthPrincipal} {params : ReplayDetailParams}
    {expiresAt : Option ℕ} (hI : Owned db₀ db) :
    SafeAmong db₀ (some auth.sub) (createShare x auth round params expiresAt) db
      fun _ _ => True := by
  refine safe_bind Keeps.refl hI ensureOwner_player (fun db₁ _ hI₁ haccepted => ?_)
    (fun _ _ _ _ => trivial)
  have hplayer := haccepted rfl
  rintro db₂ hkeeps hI₂ token db₃ ⟨hexec, -⟩
  obtain rfl := Option.some.inj hexec
  have hplayer₂ := hplayer.keeps hkeeps hI₂.players
  refine ⟨⟨hI₂, .refl _ _⟩, ?_⟩
  rintro db₄ hkeeps hI₄ link db₅ ⟨hexec, -⟩
  have hplayer₄ := hplayer₂.keeps hkeeps hI₄.players
  have hdone : SafeAmong db₀ (some auth.sub) (mapErr replayErr link >>= fun link => pure (link, token))
      db₅ fun _ _ => True := by
    cases link <;> exact fun _ _ _ => trivial
  rcases orUnchanged_cases hexec with rfl | ⟨l, rfl, hinsert⟩
  · exact ⟨⟨hI₄, .refl _ _⟩, hdone⟩
  · exact ⟨⟨hI₄.insertLink hplayer₄ hinsert, mine_insertLink hplayer₄ hinsert⟩, hdone⟩

theorem program_safe (op : OwnerOp) (hI : Owned db₀ db) :
    SafeAmong db₀ op.sub (op.program x) db fun _ _ => True := by
  cases op with
  | setReplayVisibility auth round params visibility =>
    exact safe_bind Keeps.refl hI (setReplayVisibility_safe hI) (fun _ _ _ _ _ _ _ => trivial)
      (fun _ _ _ _ => trivial)
  | createShare auth round params expiresAt =>
    exact safe_bind Keeps.refl hI (createShare_safe hI) (fun _ _ _ _ _ _ _ => trivial)
      (fun _ _ _ _ => trivial)
  | register u =>
    rintro db₁ - hI₁ _ db₂ ⟨hexec, -⟩
    exact ⟨⟨(hI₁.register hexec).1, mine_register hI₁ hexec⟩, fun _ _ _ => trivial⟩

/-! ## Runs -/

/-- What a run keeps. -/
theorem owners_safe (hfresh : db₀.Fresh) {p : Owners}
    (hrun : Reachable (Owners.next x) (.idle db₀) p) :
    Owned db₀ p.store ∧ ∀ t ∈ p.threads, SafeAmong db₀ t.1.sub t.2 p.store fun _ _ => True := by
  refine Pool.safe (I := Owned db₀) (O := fun _ _ => True) (E := fun _ _ _ => True)
    (G := fun op => Mine op.sub) (W := fun _ _ _ => True) Keeps.refl Keeps.trans (fun op _ _ h => h.1)
    (fun s op hI _ => program_safe op hI) (.start hfresh) rfl (hrun.mono fun p l _ => ?_)
  cases l with
  | spawn op => trivial
  | answer i e => exact fun _ _ => trivial

/-- However the requests are interleaved: the owner of every override is the user whose number is
    that of its player, every new link was created by that user, and a step that changes the
    visibility of a replay or shares it is a step of a request of its player. -/
theorem replay_owners (x : Extern) (db : Db) (hfresh : db.Fresh) (p : Owners)
    (hrun : Reachable (Owners.next x) (.idle db) p) :
    (∀ o ∈ p.store.overrides, ∃ u, p.store.playerOf o.playerPhiraId = some u ∧
        o.ownerUserId = some u.id) ∧
      (∀ l ∈ p.store.links, l ∈ db.links ∨
        ∃ u, p.store.playerOf l.playerPhiraId = some u ∧ l.createdBy = u.id) ∧
      ∀ l p' round player, p.next x l = some p' → Touches p.store p'.store round player →
        ∃ i e t u, l = .answer i e ∧ p.threads[i]? = some t ∧
          p.store.playerOf player = some u ∧ t.1.sub = some u.id := by
  obtain ⟨hI, hthreads⟩ := owners_safe hfresh hrun
  refine ⟨fun o ho => ?_, fun l hl => ?_, fun l p' round player hstep htouches => ?_⟩
  · obtain ⟨user, howner, u, hu, rfl⟩ := hI.overrides o ho
    exact ⟨u, hu, howner⟩
  · rcases hI.links l hl with hl | ⟨u, hu, hid⟩
    · exact .inl hl
    · exact .inr ⟨u, hu, hid.symm⟩
  · cases l with
    | spawn op =>
      obtain rfl := Option.some.inj hstep
      obtain ⟨user, hsub, -⟩ := (Mine.refl none p.store).2 round player htouches
      cases hsub
    | answer i e =>
      obtain ⟨op, rest, -, hi, -⟩ := Pool.step_answer hstep
      have hmine : Mine op.sub p.store p'.store :=
        Pool.guarantee (E := fun _ _ _ => True) (G := fun op => Mine op.sub)
          (W := fun _ _ _ => True) Keeps.refl hI hthreads hi trivial hstep
      obtain ⟨user, hsub, u, hu, rfl⟩ := hmine.2 round player htouches
      exact ⟨i, e, (op, rest), u, rfl, hi, hu, hsub⟩

/-- Two players, and nothing has been set. -/
def sampleNew : Db where
  users := [⟨1, 5⟩, ⟨2, 6⟩]
  overrides := .empty
  acl := []
  friendships := []
  links := .empty

/-- Player 5 hides his replay and player 6 is about to; then player 5 shares his. -/
def sampleOwnerRun : List OwnerLabel :=
  [.spawn (.setReplayVisibility ⟨1, 21, .user, .ppf, "r-1"⟩ "r" ⟨5, none⟩ "private"),
    .spawn (.setReplayVisibility ⟨2, 22, .user, .ppf, "r-2"⟩ "r" ⟨5, none⟩ "public"),
    .answer 0 ⟨.replay (.override "r" 5), .ok none⟩,
    .answer 1 ⟨.replay (.override "r" 5), .ok none⟩,
    .answer 0 ⟨.replay (.findUser 1), .ok (some ⟨1, 5⟩)⟩,
    .answer 0 ⟨.setVisibility "r" 5 1 .private, .ok ⟨41, "r", 5, some 1, .private⟩⟩,
    .answer 1 ⟨.replay (.findUser 2), .ok (some ⟨2, 6⟩)⟩,
    .spawn (.createShare ⟨1, 21, .user, .ppf, "r-3"⟩ "r" ⟨5, none⟩ none),
    .answer 2 ⟨.replay (.override "r" 5), .ok (some ⟨41, "r", 5, some 1, .private⟩)⟩,
    .answer 2 ⟨.newShareToken, "secret"⟩,
    .answer 2 ⟨.insertLink "r" 5 "secret" 1 none, .ok ⟨51, "r", 5, "secret", 1, none, none⟩⟩]

theorem replay_owners_shared : ∃ p, Reachable (Owners.next sampleExtern) (.idle sampleNew) p ∧
    p.store.overrides.rows.length = 1 ∧ p.store.links.rows.length = 1 ∧
    (∀ o ∈ p.store.overrides, ∃ u, p.store.playerOf o.playerPhiraId = some u ∧
      o.ownerUserId = some u.id) := by
  have hrun : ((runFrom (Owners.next sampleExtern) (.idle sampleNew) sampleOwnerRun).any fun p =>
      p.store.overrides.rows.length == 1 && p.store.links.rows.length == 1) = true := by
    decide +kernel
  obtain ⟨p, hp, hlengths⟩ := exists_reachable_of_runFrom hrun
  simp only [Bool.and_eq_true, beq_iff_eq] at hlengths
  have hfresh : sampleNew.Fresh := ⟨rfl, by decide, by decide⟩
  exact ⟨p, hp, hlengths.1, hlengths.2, (replay_owners sampleExtern sampleNew hfresh p hp).1⟩

end Ppb.Replay
