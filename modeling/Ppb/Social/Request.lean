import Ppb.Social.Ops

/-!
# Can a request always be sent?

`send_request` inserts a row with `ON CONFLICT (from_user_id, to_user_id) DO NOTHING` and
answers `FRIEND_REQUEST_ALREADY_SENT` if there was one. The constraint does not look at the
status, and rows are never deleted: after a request was declined, or accepted and the
friendship ended, there can be no second one.

* `answers_iff`: what `send_request` answers, run alone.
* `requesting_iff`: for which tables that is what it should be.
-/

namespace Ppb.Social

open Prog Shared Trace

variable {db db' : Db} {a b : Uuid} {r : Except ApiError FriendRequest}

/-- A pending request from one user to another. -/
def Db.Pending (db : Db) (a b : Uuid) : Prop :=
  ∃ r ∈ db.requests, r.fromUserId = a ∧ r.toUserId = b ∧ r.status = .pending

/-- A request that was answered or cancelled. -/
def Db.Handled (db : Db) (a b : Uuid) : Prop :=
  ∃ r ∈ db.requests, r.fromUserId = a ∧ r.toUserId = b ∧ r.status ≠ .pending

/-- No request has this id. -/
def Db.Fresh (db : Db) (id : Uuid) : Prop := ∀ r ∈ db.requests, r.id ≠ id

instance (db : Db) (a b : Uuid) : Decidable (db.Pending a b) :=
  inferInstanceAs (Decidable (∃ r ∈ db.requests, _))

instance (db : Db) (a b : Uuid) : Decidable (db.Handled a b) :=
  inferInstanceAs (Decidable (∃ r ∈ db.requests, _))

/-- The statement did not fail. -/
def Succeeds : Event Query Query.Answer → Prop
  | ⟨.areFriends _ _, .error _⟩ | ⟨.insertRequest _ _, .error _⟩ => False
  | _ => True

/-- `send_request` runs alone, none of its statements fails, and it ends with `r`. -/
def Answers (db : Db) (a b : Uuid) (r : Except ApiError FriendRequest) : Prop :=
  ∃ h db', OkAll exec (fun _ e => Succeeds e) db h ∧ (sendRequest a b).follow h = some (.done r) ∧
    execAll exec db h = some db'

/-- A request can be sent: unless the two are friends or a request is pending, it is, whatever
    id it gets; and `FRIEND_REQUEST_ALREADY_SENT` means that one is pending. -/
def Requesting (db : Db) (a b : Uuid) : Prop :=
  (¬ db.Friends a b → ¬ db.Pending a b →
    (∀ r, Answers db a b r → ∃ request, r = .ok request) ∧
    ∀ id, db.Fresh id → Answers db a b (.ok ⟨id, a, b, .pending⟩)) ∧
  ∀ e, Answers db a b (.error e) → e.code = .friendRequestAlreadySent → db.Pending a b

/-! ## What `send_request` answers -/

theorem requestOf_isSome :
    (db.requestOf a b).isSome ↔ ∃ r ∈ db.requests, r.fromUserId = a ∧ r.toUserId = b := by
  simp [Db.requestOf, List.find?_isSome, Table.mem_def]

/-- There is a request, and it is one or the other. -/
theorem requestOf_isSome_iff : (db.requestOf a b).isSome ↔ db.Pending a b ∨ db.Handled a b := by
  rw [requestOf_isSome]
  constructor
  · rintro ⟨x, hx, hfrom, hto⟩
    by_cases hstatus : x.status = .pending
    · exact .inl ⟨x, hx, hfrom, hto, hstatus⟩
    · exact .inr ⟨x, hx, hfrom, hto, hstatus⟩
  · rintro (⟨x, hx, hfrom, hto, -⟩ | ⟨x, hx, hfrom, hto, -⟩)
    · exact ⟨x, hx, hfrom, hto⟩
    · exact ⟨x, hx, hfrom, hto⟩

/-- There is one row for a pair. -/
theorem not_pending_of_handled (h : db.Handled a b) : ¬ db.Pending a b := by
  obtain ⟨x, hx, hfrom, hto, hstatus⟩ := h
  rintro ⟨y, hy, hfrom', hto', hpending⟩
  have hpair : (x.fromUserId, x.toUserId) = (y.fromUserId, y.toUserId) := by
    rw [hfrom, hto, hfrom', hto']
  rcases Table.eq_or_compat hx hy with rfl | hkeys | hkeys
  · exact hstatus hpending
  · exact hkeys.2 hpair
  · exact hkeys.2 hpair.symm

/-- The answer of `send_request`, by what it finds. -/
def Expected (db : Db) (a b : Uuid) (r : Except ApiError FriendRequest) : Prop :=
  if db.Friends a b then r = .error (.new .alreadyFriends "already friends")
  else if (db.requestOf a b).isSome then
    r = .error (.new .friendRequestAlreadySent "friend request already sent")
  else ∃ id, db.Fresh id ∧ r = .ok ⟨id, a, b, .pending⟩

/-- The row that was inserted was not there before. -/
theorem fresh_of_insert {x : FriendRequest} {requests : Table FriendRequest RequestKeys}
    (h : db.requests.insert x = some requests) :
    db.Fresh x.id ∧ ¬ (db.requestOf x.fromUserId x.toUserId).isSome := by
  refine ⟨fun y hy => (Table.compat_of_insert h hy).1, fun hsome => ?_⟩
  obtain ⟨y, hy, hfrom, hto⟩ := requestOf_isSome.mp hsome
  exact (Table.compat_of_insert h hy).2 (by rw [hfrom, hto])

theorem exists_insert {x : FriendRequest} (hfresh : db.Fresh x.id)
    (hnone : ¬ (db.requestOf x.fromUserId x.toUserId).isSome) :
    ∃ requests, db.requests.insert x = some requests := by
  have hwf : (db.requests.rows ++ [x]).Pairwise RequestKeys := by
    refine List.pairwise_append.mpr ⟨db.requests.wf, List.pairwise_singleton _ _, ?_⟩
    intro y hy z hz
    obtain rfl := List.mem_singleton.mp hz
    refine ⟨hfresh y hy, fun hpair => hnone (requestOf_isSome.mpr ⟨y, hy, ?_⟩)⟩
    exact Prod.mk.inj hpair
  exact ⟨⟨_, hwf⟩, Table.commit_eq_some.mpr rfl⟩

/-- Whatever it answers is expected. -/
theorem expected_of_answers (hne : a ≠ b) (h : Answers db a b r) : Expected db a b r := by
  obtain ⟨h, db', hok, hf, hexec⟩ := h
  have hsafe : Safe (fun s e s' => exec s e = some s' ∧ Succeeds e) (fun _ => True) Eq
      (fun _ _ => True) (sendRequest a b) db fun _ r => Expected db a b r := by
    refine safe_failIf_bind (fun heq => absurd heq hne) fun _ => ?_
    rintro _ rfl - friend db₁ ⟨hexec, hsucceeds⟩
    refine ⟨⟨trivial, trivial⟩, ?_⟩
    cases friend with
    | error e => exact hsucceeds.elim
    | ok friend =>
      obtain ⟨rfl, hfriend⟩ := reads_cases hexec
      obtain rfl := hfriend _ rfl
      refine safe_failIf_bind (fun hfriends _ _ _ => ?_) fun hfriends => ?_
      · rw [Expected, if_pos (of_decide_eq_true hfriends)]
      · have hnot : ¬ db₁.Friends a b := by simpa using hfriends
        rintro _ rfl - inserted db₂ ⟨hexec, hsucceeds⟩
        refine ⟨⟨trivial, trivial⟩, ?_⟩
        match inserted with
        | .error e => exact hsucceeds.elim
        | .ok none =>
          have hsome : (db₁.requestOf a b).isSome := by
            by_contra hnone
            simp [exec, orUnchanged, Db.insertRequest, hnone] at hexec
          intro _ _ _
          rw [Expected, if_neg hnot, if_pos hsome]
        | .ok (some x) =>
          simp only [exec, orUnchanged, Db.insertRequest] at hexec
          split_ifs at hexec with hrow
          obtain ⟨requests, hinsert, -⟩ := Option.map_eq_some_iff.mp hexec
          obtain ⟨hfresh, hnone⟩ := fresh_of_insert hinsert
          obtain ⟨rfl, rfl, hstatus⟩ := hrow
          intro _ _ _
          rw [Expected, if_neg hnot, if_neg hnone]
          exact ⟨x.id, hfresh, by rw [← hstatus]⟩
  exact hsafe.execAll trivial hf hok hexec

/-- The two questions of `send_request` and what it makes of the answers. -/
theorem follow_sendRequest_friends (hne : a ≠ b) :
    (sendRequest a b).follow [⟨.areFriends a b, .ok true⟩] =
      some (.done (.error (.new .alreadyFriends "already friends"))) := by
  rw [sendRequest, failIf, if_neg hne]
  exact follow_ask

theorem follow_sendRequest_insert (hne : a ≠ b) (inserted : Option FriendRequest) :
    (sendRequest a b).follow [⟨.areFriends a b, .ok false⟩, ⟨.insertRequest a b, .ok inserted⟩] =
      some (ofOption (.new .friendRequestAlreadySent "friend request already sent") inserted) := by
  rw [sendRequest, failIf, if_neg hne]
  refine follow_ask.trans (follow_ask.trans ?_)
  cases inserted <;> rfl

/-- The answer that the store gives is one that `send_request` can get. -/
theorem answers_of_expected (hne : a ≠ b) (h : Expected db a b r) : Answers db a b r := by
  by_cases hfriends : db.Friends a b
  · rw [Expected, if_pos hfriends] at h
    subst h
    refine ⟨[⟨.areFriends a b, .ok true⟩], db, ⟨trivial, fun _ _ => trivial⟩,
      follow_sendRequest_friends hne, ?_⟩
    simp [execAll, exec, reads, orUnchanged, hfriends]
  · have hread : exec db ⟨.areFriends a b, .ok false⟩ = some db := by
      simp [exec, reads, orUnchanged, hfriends]
    rw [Expected, if_neg hfriends] at h
    split_ifs at h with hsome
    · subst h
      refine ⟨[⟨.areFriends a b, .ok false⟩, ⟨.insertRequest a b, .ok none⟩], db,
        ⟨trivial, fun _ _ => ⟨trivial, fun _ _ => trivial⟩⟩, follow_sendRequest_insert hne none, ?_⟩
      rw [execAll, hread, Option.bind_some]
      simp [execAll, exec, orUnchanged, Db.insertRequest, hsome]
    · obtain ⟨id, hfresh, rfl⟩ := h
      obtain ⟨requests, hinsert⟩ :=
        exists_insert (x := ⟨id, a, b, .pending⟩) hfresh (by simpa using hsome)
      refine ⟨[⟨.areFriends a b, .ok false⟩, ⟨.insertRequest a b, .ok (some ⟨id, a, b, .pending⟩)⟩],
        { db with requests := requests }, ⟨trivial, fun _ _ => ⟨trivial, fun _ _ => trivial⟩⟩,
        follow_sendRequest_insert hne (some _), ?_⟩
      rw [execAll, hread, Option.bind_some]
      simp [execAll, exec, orUnchanged, Db.insertRequest, hinsert]

/-- `send_request` answers by the friendship first, then by the row of the pair, whatever
    its status. -/
theorem answers_iff (hne : a ≠ b) : Answers db a b r ↔ Expected db a b r :=
  ⟨expected_of_answers hne, answers_of_expected hne⟩

/-- A request can be sent as it should exactly if the two are friends or no earlier request
    from the one to the other was answered. -/
theorem requesting_iff (db : Db) (a b : Uuid) (hne : a ≠ b) :
    Requesting db a b ↔ db.Friends a b ∨ ¬ db.Handled a b := by
  simp only [Requesting, answers_iff hne, Expected]
  by_cases hfriends : db.Friends a b
  · -- the only answer is the friendship
    simp only [hfriends, if_true, not_true, true_or, iff_true]
    refine ⟨fun h => h.elim, fun e he hcode => ?_⟩
    rw [Except.error.inj he] at hcode
    cases hcode
  · simp only [hfriends, if_false, not_false_eq_true, false_or, forall_const]
    by_cases hhandled : db.Handled a b
    · -- the row is there, and it is not pending
      have hsome : (db.requestOf a b).isSome := requestOf_isSome_iff.mpr (.inr hhandled)
      simp only [hsome, if_true, hhandled, not_true, iff_false]
      rintro ⟨-, honly⟩
      exact not_pending_of_handled hhandled (honly _ rfl rfl)
    · simp only [hhandled, not_false_eq_true, iff_true]
      by_cases hpending : db.Pending a b
      · exact ⟨fun h => absurd hpending h, fun _ _ _ => hpending⟩
      · have hnone : ¬ (db.requestOf a b).isSome := by
          rw [requestOf_isSome_iff]
          exact not_or.mpr ⟨hpending, hhandled⟩
        simp only [hnone]
        refine ⟨fun _ => ⟨?_, fun id hfresh => ⟨id, hfresh, rfl⟩⟩, ?_⟩
        · rintro r ⟨id, -, rfl⟩
          exact ⟨_, rfl⟩
        · rintro e ⟨id, -, he⟩
          cases he

/-! ### A request that was declined -/

/-- The users 1 and 2, with the players 5 and 6. -/
def sampleUsers : List User := [⟨1, 5⟩, ⟨2, 6⟩]

/-- The user 1 is signed in. -/
def sampleAuth : AuthPrincipal := ⟨1, 21, .user, .ppf, "r-1"⟩

/-- He sends a request to the player 6. -/
def sendTrace (i : ℕ) (row : FriendRequest) : List (Label Query Query.Answer Op) :=
  [.spawn (.sendRequest sampleAuth 6),
    .answer i ⟨.rateLimit ("social-request:" ++ Uuid.toText 1), .ok ()⟩,
    .answer i ⟨.findUser 6, .ok (some ⟨2, 6⟩)⟩, .answer i ⟨.isBlocked 1 2, .ok false⟩,
    .answer i ⟨.areFriends 1 2, .ok false⟩, .answer i ⟨.insertRequest 1 2, .ok (some row)⟩]

/-- The user 2 answers the request 11. -/
def respondTrace (i : ℕ) (accept : Bool) (row : FriendRequest) : List (Label Query Query.Answer Op) :=
  [.spawn (.respondRequest 11 2 accept), .answer i ⟨.getRequest 11, .ok (some row)⟩,
    .answer i ⟨.respond 11 (answerStatus accept) (friendshipOf accept row), .ok ()⟩]

/-- In an empty table, a request can be sent. -/
theorem requesting_new : Requesting (.new sampleUsers) 1 2 :=
  (requesting_iff (.new sampleUsers) 1 2 (by decide)).mpr (.inr (by decide))

/-- The request was declined; the two are not friends, and nothing is pending. A second
    request is answered as one that was already sent. -/
theorem not_requesting_declined :
    ∃ p : System, Reachable step ⟨.new sampleUsers, []⟩ p ∧ ¬ p.store.Friends 1 2 ∧
      ¬ p.store.Pending 1 2 ∧
      Answers p.store 1 2
        (.error (.new .friendRequestAlreadySent "friend request already sent")) := by
  have hrun : ((runFrom step ⟨.new sampleUsers, []⟩ (sendTrace 0 ⟨11, 1, 2, .pending⟩ ++
      respondTrace 1 false ⟨11, 1, 2, .pending⟩)).any fun p => decide (¬ p.store.Friends 1 2 ∧
        ¬ p.store.Pending 1 2 ∧ (p.store.requestOf 1 2).isSome)) = true := by decide +kernel
  obtain ⟨p, hp, hdeclined⟩ := exists_reachable_of_runFrom hrun
  obtain ⟨hfriends, hpending, hsome⟩ := of_decide_eq_true hdeclined
  refine ⟨p, hp, hfriends, hpending, answers_of_expected (by decide) ?_⟩
  rw [Expected, if_neg hfriends, if_pos hsome]

end Ppb.Social
