import Ppb.Social.Respond

/-!
# Can two users be friends while one has blocked the other?

`block` enters the block and then deletes the friendship, and ignores whether the second
statement failed. `respond_request` does not look for blocks, and a request outlives them:
one that was sent before the block can be accepted after it.

* `Mends pair t`: the request `t` has entered a block and has yet to end the friendship.
* `Clean p l`: an accept finds no block, and the second statement of a block does not fail
  while it is needed; or another block of the same pair has yet to end the friendship.
* `blocked_not_friends`: in every run of clean steps, friends who have blocked each other
  are so only until a block under way has ended.
-/

namespace Ppb.Social

open Prog Shared Trace

variable {db db' : Db} {p p' : System} {pair : Uuid × Uuid} {i : ℕ} {e : Event Query Query.Answer}

def Op.isBlock : Op → Bool
  | .block _ _ => true
  | _ => false

/-- The request has entered its block and is about to delete the friendship. -/
def Mends (pair : Uuid × Uuid) (t : Op × Handler Unit) : Prop :=
  t.1.isBlock = true ∧ t.2.question = some (.deleteFriendship pair)

instance (pair : Uuid × Uuid) (t : Op × Handler Unit) : Decidable (Mends pair t) :=
  inferInstanceAs (Decidable (_ ∧ _))

/-- The two are friends and one has blocked the other. -/
def Db.Clash (db : Db) (pair : Uuid × Uuid) : Prop :=
  pair ∈ db.friendships ∧ db.Blocked pair.1 pair.2

instance (db : Db) (pair : Uuid × Uuid) : Decidable (db.Clash pair) :=
  inferInstanceAs (Decidable (_ ∧ _))

/-- What the steps must not do unless another request mends it: accept a request between
    users one of whom has blocked the other, and fail to end the friendship of a block. -/
def Clean (p : System) : Label Query Query.Answer Op → Prop
  | .answer i ⟨.respond _ _ (some pair), .ok ()⟩ =>
    p.store.Blocked pair.1 pair.2 → ∃ t ∈ p.threads.eraseIdx i, Mends pair t
  | .answer i ⟨.deleteFriendship pair, .error _⟩ =>
    (p.threads[i]?).any (·.1.isBlock) = true → p.store.Clash pair →
      ∃ t ∈ p.threads.eraseIdx i, Mends pair t
  | _ => True

/-! ## The threads -/

/-- A request that is not the one that gets its answer stays. -/
theorem exists_mends_of_not (hstep : step p (.answer i e) = some p')
    (h : ∃ t ∈ p.threads, Mends pair t) (hnot : ∀ t, p.threads[i]? = some t → ¬ Mends pair t) :
    ∃ t ∈ p'.threads, Mends pair t := by
  obtain ⟨t, ht, hmends⟩ := h
  obtain ⟨op, rest, rest', -, -, -, hset⟩ := Pool.step_answer hstep
  obtain ⟨j, hj⟩ := List.mem_iff_getElem?.mp ht
  have hij : i ≠ j := by
    rintro rfl
    exact hnot t hj hmends
  refine ⟨t, ?_, hmends⟩
  rw [hset]
  exact List.mem_iff_getElem?.mpr ⟨j, by rw [List.getElem?_set_ne hij, hj]⟩

/-- Another request stays. -/
theorem exists_mends_of_other (hstep : step p (.answer i e) = some p')
    (h : ∃ t ∈ p.threads.eraseIdx i, Mends pair t) : ∃ t ∈ p'.threads, Mends pair t := by
  obtain ⟨t, ht, hmends⟩ := h
  obtain ⟨op, rest, rest', -, -, -, hset⟩ := Pool.step_answer hstep
  obtain ⟨j, hji, hj⟩ := List.mem_eraseIdx_iff_getElem?.mp ht
  refine ⟨t, ?_, hmends⟩
  rw [hset]
  exact List.mem_iff_getElem?.mpr ⟨j, by rw [List.getElem?_set_ne hji.symm, hj]⟩

/-- After the first statement of `block` comes the second. -/
def Enters (op : Op) : (q : Query) → (q.Answer → Handler Unit) → Prop
  | .insertBlock x y, next =>
    op.isBlock = true ∧ (next (.ok ())).question = some (.deleteFriendship (normalizePair x y))
  | _, _ => True

theorem enters_program (op : Op) : op.program.Each (Enters op) := by
  cases op with
  | block blocker blocked =>
    refine each_bind only_failIf fun _ => each_ask ⟨rfl, rfl⟩ fun inserted => ?_
    refine each_bind only_mapErr fun _ => each_bind (only_attempt ?_) fun _ => trivial
    exact only_bind (only_query fun _ => trivial) fun _ => only_mapErr
  | _ =>
    refine each_of_only (only_program _) fun q next hq => ?_
    cases q <;> trivial

/-! ## The invariant -/

/-- Friendships are stored in order, and where a block clashes with one there is a request
    that mends it. -/
structure Mending (p : System) : Prop where
  ordered : ∀ pair ∈ p.store.friendships, pair.1 < pair.2
  mended : ∀ pair, p.store.Clash pair → ∃ t ∈ p.threads, Mends pair t

theorem normalizePair_of_lt (hlt : pair.1 < pair.2) :
    normalizePair pair.1 pair.2 = pair ∧ normalizePair pair.2 pair.1 = pair := by
  have hnot : ¬ pair.2 < pair.1 := BitVec.not_lt.mpr (BitVec.le_of_lt hlt)
  exact ⟨by rw [normalizePair, if_pos hlt], by rw [normalizePair, if_neg hnot]⟩

theorem ordered_exec (h : ∀ pair ∈ db.friendships, pair.1 < pair.2) (hexec : exec db e = some db') :
    ∀ pair ∈ db'.friendships, pair.1 < pair.2 := by
  intro pair hpair
  cases exec_effect hexec with
  | responded id status of hq hrespond =>
    obtain ⟨requests, -, ⟨-, rfl⟩ | ⟨x, -, hlt, rfl⟩⟩ := respond_cases hrespond
    · exact h pair hpair
    · rcases List.mem_insert_iff.mp hpair with rfl | hpair
      · exact hlt
      · exact h pair hpair
  | unfriended x hq heq =>
    subst heq
    exact h pair (List.mem_filter.mp hpair).1
  | unchanged heq => exact h pair (heq ▸ hpair)
  | requested r requests hq hstatus hinsert heq =>
    subst heq
    exact h pair hpair
  | blocked x y hq heq =>
    subst heq
    exact h pair hpair
  | unblocked x y hq heq =>
    subst heq
    exact h pair hpair

/-- A clash comes from an accept or from a block. -/
theorem clash_exec (hexec : exec db e = some db') (hnew : db'.Clash pair) (hold : ¬ db.Clash pair) :
    (∃ id status, e = ⟨.respond id status (some pair), .ok ()⟩ ∧ db.Blocked pair.1 pair.2) ∨
      ∃ x y, e = ⟨.insertBlock x y, .ok ()⟩ ∧ (pair = (x, y) ∨ pair = (y, x)) := by
  obtain ⟨q, a⟩ := e
  cases exec_effect hexec with
  | responded id status of hq hrespond =>
    subst hq
    match a with
    | .ok () =>
      obtain ⟨requests, -, ⟨-, rfl⟩ | ⟨x, rfl, -, rfl⟩⟩ := respond_cases hrespond
      · exact absurd hnew hold
      · rcases List.mem_insert_iff.mp hnew.1 with rfl | hmem
        · exact .inl ⟨id, status, rfl, hnew.2⟩
        · exact absurd ⟨hmem, hnew.2⟩ hold
    | .error .other =>
      obtain rfl := Option.some.inj hexec
      exact absurd hnew hold
    | .error .rowNotFound => cases hexec
  | blocked x y hq heq =>
    subst hq
    match a with
    | .ok () =>
      subst heq
      refine .inr ⟨x, y, rfl, ?_⟩
      by_contra hother
      push Not at hother
      refine hold ⟨hnew.1, hnew.2.imp (fun h => ?_) fun h => ?_⟩
      · exact (List.mem_insert_iff.mp h).resolve_left hother.1
      · exact (List.mem_insert_iff.mp h).resolve_left fun heq => hother.2 (Prod.swap_eq_iff_eq_swap.mp heq)
    | .error .other =>
      obtain rfl := Option.some.inj hexec
      exact absurd hnew hold
    | .error .rowNotFound => cases hexec
  | unchanged heq => exact absurd (heq ▸ hnew) hold
  | requested r requests hq hstatus hinsert heq =>
    subst heq
    exact absurd hnew hold
  | unfriended x hq heq =>
    subst heq
    exact absurd ⟨(List.mem_filter.mp hnew.1).1, hnew.2⟩ hold
  | unblocked x y hq heq =>
    subst heq
    refine absurd ⟨hnew.1, hnew.2.imp (fun h => ?_) fun h => ?_⟩ hold
    · exact (List.mem_filter.mp h).1
    · exact (List.mem_filter.mp h).1

/-- A clash that stays is still to be mended. -/
theorem Mending.stays (h : Mending p) (hok : Clean p (.answer i e))
    (hstep : step p (.answer i e) = some p') (hclash : p.store.Clash pair)
    (hstays : pair ∈ p'.store.friendships) : ∃ t ∈ p'.threads, Mends pair t := by
  obtain ⟨op, rest, rest', hi, hfollow, hexec, -⟩ := Pool.step_answer hstep
  by_cases hmends : Mends pair (op, rest)
  · -- the request itself: its statement has failed, or there is no friendship any more
    obtain ⟨next, rfl, -⟩ := follow_one hfollow
    obtain ⟨q, a⟩ := e
    obtain rfl : q = .deleteFriendship pair := Option.some.inj hmends.2
    match a with
    | .ok () =>
      rw [← Option.some.inj hexec] at hstays
      exact absurd rfl (of_decide_eq_true (List.mem_filter.mp hstays).2)
    | .error f => exact exists_mends_of_other hstep (hok (by rw [hi]; exact hmends.1) hclash)
  · refine exists_mends_of_not hstep (h.mended pair hclash) fun t ht => ?_
    obtain rfl := Option.some.inj (hi.symm.trans ht)
    exact hmends

theorem Mending.answer (h : Mending p) (heach : ∀ t ∈ p.threads, t.2.Each (Enters t.1))
    (hok : Clean p (.answer i e)) (hstep : step p (.answer i e) = some p') : Mending p' := by
  obtain ⟨op, rest, rest', hi, hfollow, hexec, hset⟩ := Pool.step_answer hstep
  have hordered := ordered_exec h.ordered hexec
  refine ⟨hordered, fun pair hnew => ?_⟩
  by_cases hold : p.store.Clash pair
  · exact h.stays hok hstep hold hnew.1
  · rcases clash_exec hexec hnew hold with ⟨id, status, rfl, hblocked⟩ | ⟨x, y, rfl, hpair⟩
    · exact exists_mends_of_other hstep (hok hblocked)
    · obtain ⟨next, rfl, rfl⟩ := follow_one hfollow
      obtain ⟨hblock, hquestion⟩ := (heach _ (List.mem_of_getElem? hi)).1
      refine ⟨(op, next (.ok ())), ?_, hblock, hquestion.trans ?_⟩
      · rw [hset]
        exact List.mem_set (List.getElem?_eq_some_iff.mp hi).1 _
      have hnormal := normalizePair_of_lt (hordered pair hnew.1)
      rcases hpair with rfl | rfl
      · rw [hnormal.1]
      · rw [hnormal.2]

/-! ## Every run -/

theorem mending_of_run {users : List User} (hrun : Reaches step Clean ⟨.new users, []⟩ p) :
    Mending p := by
  induction hrun with
  | start => exact ⟨by simp [Db.new], fun pair h => by simp [Db.Clash, Db.new] at h⟩
  | @next p p' l hreach hok hstep ih =>
    cases l with
    | spawn op =>
      obtain rfl := Option.some.inj hstep
      refine ⟨ih.ordered, fun pair hclash => ?_⟩
      obtain ⟨t, ht, hmends⟩ := ih.mended pair hclash
      exact ⟨t, List.mem_append_left _ ht, hmends⟩
    | answer i e => exact ih.answer (Pool.each enters_program rfl hreach) hok hstep

/-- In every run of clean steps: friends one of whom has blocked the other are so only while a
    block of the two is between its statements; when all requests have ended there are none. -/
theorem blocked_not_friends (users : List User) (p : System)
    (hrun : Reaches step Clean ⟨.new users, []⟩ p) :
    (∀ a b, p.store.Friends a b → p.store.Blocked a b →
      ∃ t ∈ p.threads, Mends (normalizePair a b) t) ∧
    ((∀ t ∈ p.threads, t.2.question = none) →
      ∀ a b, ¬ (p.store.Friends a b ∧ p.store.Blocked a b)) := by
  have hmending := mending_of_run hrun
  have hmends : ∀ a b, p.store.Friends a b → p.store.Blocked a b →
      ∃ t ∈ p.threads, Mends (normalizePair a b) t := by
    rintro a b (hfriends | hfriends) hblocked
    · rw [(normalizePair_of_lt (hmending.ordered _ hfriends)).1]
      exact hmending.mended _ ⟨hfriends, hblocked⟩
    · rw [(normalizePair_of_lt (hmending.ordered _ hfriends)).2]
      exact hmending.mended _ ⟨hfriends, hblocked.symm⟩
  refine ⟨hmends, fun hended a b hboth => ?_⟩
  obtain ⟨t, ht, hquestion⟩ := hmends a b hboth.1 hboth.2
  cases (hended t ht).symm.trans hquestion.2

/-! ### A request that outlives a block -/

instance (p : System) : ∀ l, Decidable (Clean p l)
  | .answer i ⟨.respond _ _ (some pair), .ok ()⟩ => inferInstanceAs
      (Decidable (p.store.Blocked pair.1 pair.2 → ∃ t ∈ p.threads.eraseIdx i, Mends pair t))
  | .answer i ⟨.deleteFriendship pair, .error _⟩ => inferInstanceAs
      (Decidable ((p.threads[i]?).any (·.1.isBlock) = true → p.store.Clash pair →
        ∃ t ∈ p.threads.eraseIdx i, Mends pair t))
  | .spawn _ | .answer _ ⟨.respond _ _ none, _⟩ | .answer _ ⟨.respond _ _ (some _), .error _⟩
  | .answer _ ⟨.deleteFriendship _, .ok _⟩ | .answer _ ⟨.rateLimit _, _⟩ | .answer _ ⟨.findUser _, _⟩
  | .answer _ ⟨.isBlocked .., _⟩ | .answer _ ⟨.areFriends .., _⟩ | .answer _ ⟨.insertRequest .., _⟩
  | .answer _ ⟨.getRequest _, _⟩ | .answer _ ⟨.insertBlock .., _⟩ | .answer _ ⟨.deleteBlock .., _⟩ =>
    .isTrue trivial

/-- The user 2 blocks the user 1. -/
def blockTrace (i : ℕ) : List (Label Query Query.Answer Op) :=
  [.spawn (.block 2 1), .answer i ⟨.insertBlock 2 1, .ok ()⟩,
    .answer i ⟨.deleteFriendship (1, 2), .ok ()⟩]

/-- Friends, and then the one blocks the other. -/
theorem blocked_not_friends_blocked :
    ∃ p : System, Reaches step Clean ⟨.new sampleUsers, []⟩ p ∧ p.store.Blocked 1 2 ∧
      ¬ (p.store.Friends 1 2 ∧ p.store.Blocked 1 2) := by
  have hrun : ((runWhile step (fun p l => decide (Clean p l)) ⟨.new sampleUsers, []⟩
      (sendTrace 0 ⟨11, 1, 2, .pending⟩ ++ respondTrace 1 true ⟨11, 1, 2, .pending⟩ ++
        blockTrace 2)).any fun p => decide (p.store.Blocked 1 2 ∧
          ∀ t ∈ p.threads, t.2.question = none)) = true := by decide +kernel
  obtain ⟨p, hp, hended⟩ := exists_reaches_of_runWhile (fun _ _ h => of_decide_eq_true h) hrun
  obtain ⟨hblocked, hnone⟩ := of_decide_eq_true hended
  exact ⟨p, hp, hblocked, (blocked_not_friends sampleUsers p hp).2 hnone 1 2⟩

/-- A request is sent, its addressee blocks the sender, and then accepts it. -/
theorem not_blocked_not_friends_accepted :
    ∃ p : System, Reachable step ⟨.new sampleUsers, []⟩ p ∧ (∀ t ∈ p.threads, t.2.question = none) ∧
      p.store.Friends 1 2 ∧ p.store.Blocked 1 2 := by
  have hrun : ((runFrom step ⟨.new sampleUsers, []⟩ (sendTrace 0 ⟨11, 1, 2, .pending⟩ ++
      blockTrace 1 ++ respondTrace 2 true ⟨11, 1, 2, .pending⟩)).any fun p => decide
        ((∀ t ∈ p.threads, t.2.question = none) ∧ p.store.Friends 1 2 ∧ p.store.Blocked 1 2)) = true := by
    decide +kernel
  obtain ⟨p, hp, hboth⟩ := exists_reachable_of_runFrom hrun
  exact ⟨p, hp, of_decide_eq_true hboth⟩

end Ppb.Social
