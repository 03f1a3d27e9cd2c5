import Ppb.Groups.Repo

/-!
# Every user is in a group

A user without a group has no permissions, so `remove_member` and
`replace_group_members` put a user who has lost his last group into the default
one. Two ways out remain. `delete_group` relies on `ON DELETE CASCADE` and puts
nobody anywhere; and an operation whose statement fails after its `DELETE` stops
before it has put anybody back.

* `Unbroken db e`: the statement `e` is neither of the two.
* `safe_ensureUserNotOrphaned`, `safe_rehome`, `safe_insertMembers`: the parts of the
  two operations, each with the list of users it may still owe a group.
* `membership_kept`: over every sequence of operations all of whose statements are
  unbroken, every user keeps a group.
-/

namespace Ppb.Groups

open Prog Shared Trace

/-! ## The invariant and its exceptions -/

/-- `user` is in some group. -/
def InGroup (db : Db) (user : Uuid) : Prop := ∃ m ∈ db.members, m.userId = user

/-- Every user is in some group or among `owed`. -/
def GroupedBut (db : Db) (owed : List Uuid) : Prop :=
  ∀ user ∈ db.users, InGroup db user ∨ user ∈ owed

/-- Every user is in some group. -/
def AllGrouped (db : Db) : Prop := ∀ user ∈ db.users, InGroup db user

/-- `group` is the only group of `user`. -/
def Sole (db : Db) (group user : Uuid) : Prop :=
  InGroup db user ∧ ∀ m ∈ db.members, m.userId = user → m.groupId = group

instance (db : Db) (user : Uuid) : Decidable (InGroup db user) :=
  inferInstanceAs (Decidable (∃ m ∈ db.members, m.userId = user))

-- by the list of users: `Uuid` is a finite type too, of size 2^128
instance (db : Db) : Decidable (AllGrouped db) := List.decidableBAll _ db.users

instance (db : Db) (group user : Uuid) : Decidable (Sole db group user) :=
  inferInstanceAs (Decidable (_ ∧ ∀ m ∈ db.members, m.userId = user → m.groupId = group))

/-- The group a statement deletes. -/
def deletes (e : Event Stmt Stmt.Answer) : Option Uuid :=
  match e with
  | ⟨.deleteGroup id, .ok ()⟩ => some id
  | _ => none

/-- The statement does not fail while a user is without a group, and does not delete
    the only group of a user. -/
def Unbroken (db : Db) (e : Event Stmt Stmt.Answer) : Prop :=
  (failed e = true → AllGrouped db) ∧
    ∀ group ∈ deletes e, ∀ user ∈ db.users, ¬ Sole db group user

instance (db : Db) (e : Event Stmt Stmt.Answer) : Decidable (Unbroken db e) :=
  have : DecidablePred fun group => ∀ user ∈ db.users, ¬ Sole db group user :=
    fun _ => List.decidableBAll _ db.users
  have : Decidable (∀ group ∈ deletes e, ∀ user ∈ db.users, ¬ Sole db group user) :=
    Option.decidableForallMem _
  inferInstanceAs (Decidable (_ ∧ _))

variable {db db' : Db} {owed : List Uuid} {e : Event Stmt Stmt.Answer}

theorem groupedBut_nil : GroupedBut db [] ↔ AllGrouped db := by
  simp [GroupedBut, AllGrouped]

/-- `db'` has the users of `db` and no fewer members. -/
structure Keeps (db db' : Db) : Prop where
  users : db'.users = db.users
  members : ∀ m ∈ db.members, m ∈ db'.members

theorem Keeps.inGroup (hk : Keeps db db') {user : Uuid} (h : InGroup db user) : InGroup db' user := by
  obtain ⟨m, hm, huser⟩ := h
  exact ⟨m, hk.members m hm, huser⟩

theorem Keeps.groupedBut (hk : Keeps db db') (h : GroupedBut db owed) : GroupedBut db' owed := by
  intro user huser
  rw [hk.users] at huser
  exact (h user huser).imp_left hk.inGroup

/-- The statements that take members away. -/
def TakesMembers : Stmt → Prop
  | .deleteGroup _ | .deleteMember _ _ | .deleteMembers _ => True
  | _ => False

theorem keeps_of_exec (h : exec db e = some db') (hq : ¬ TakesMembers e.1) : Keeps db db' := by
  cases exec_wrote h with
  | nothing => exact ⟨rfl, fun _ hm => hm⟩
  | newGroup h =>
    obtain ⟨hu, hm, -⟩ := Db.insertGroup_spec h
    exact ⟨hu, fun m hmem => hm ▸ hmem⟩
  | newSeed h =>
    obtain ⟨hu, hm, -⟩ := Db.insertGroup_spec h
    exact ⟨hu, fun m hmem => hm ▸ hmem⟩
  | updated h =>
    obtain ⟨hu, hm, -⟩ := Db.updateGroups_spec h
    exact ⟨hu, fun m hmem => hm ▸ hmem⟩
  | committed h =>
    obtain ⟨hu, hm, -⟩ := Db.updateAll_spec h
    exact ⟨hu, fun m hmem => hm ▸ hmem⟩
  | newMember h =>
    obtain ⟨hu, -, -, -, hm⟩ := Db.insertMember_spec h
    exact ⟨hu, fun m hmem => (hm m).mpr (.inl hmem)⟩
  | newPermission h =>
    obtain ⟨hu, -, hm, -⟩ := Db.insertPermission_spec h
    exact ⟨hu, fun m hmem => hm ▸ hmem⟩
  | deletedPermission => exact ⟨rfl, fun _ hm => hm⟩
  | deletedPermissions => exact ⟨rfl, fun _ hm => hm⟩
  | deletedGroup => exact absurd trivial hq
  | deletedMember => exact absurd trivial hq
  | deletedMembers => exact absurd trivial hq

/-! ## Programs that run alone -/

/-- `p` runs alone on `db` with unbroken statements and ends in `P`. -/
def Runs {α : Type} (p : Repo α) (db : Db) (P : Db → Except ApiError α → Prop) : Prop :=
  Safe (fun db e db' => exec db e = some db' ∧ Unbroken db e) (fun _ => True) Eq (fun _ _ => True)
    p db P

variable {α β : Type} {P : Db → Except ApiError α → Prop}

theorem runs_pure {a : α} (h : P db (.ok a)) : Runs (pure a) db P := by
  rintro _ rfl -
  exact h

theorem runs_fail {err : ApiError} (h : P db (.error err)) : Runs (fail err) db P := by
  rintro _ rfl -
  exact h

theorem runs_sql {q : Stmt} {k : q.Answer → Repo α}
    (h : ∀ a db', exec db ⟨q, a⟩ = some db' → Unbroken db ⟨q, a⟩ → Runs (k a) db' P) :
    Runs (sql q >>= k) db P := by
  rintro _ rfl - a db' ⟨hexec, hok⟩
  exact ⟨⟨trivial, trivial⟩, h a db' hexec hok⟩

theorem runs_bind {p : Repo α} {k : α → Repo β} {P' : Db → Except ApiError β → Prop}
    (hp : Runs p db P) (hok : ∀ db' a, P db' (.ok a) → Runs (k a) db' P')
    (herr : ∀ db' err, P db' (.error err) → P' db' (.error err)) : Runs (p >>= k) db P' :=
  safe_bind (fun _ => rfl) trivial hp (fun db' a _ h => hok db' a h) fun db' err _ h => herr db' err h

theorem runs_mono {p : Repo α} {P' : Db → Except ApiError α → Prop} (hp : Runs p db P)
    (h : ∀ db' r, P db' r → P' db' r) : Runs p db P' := safe_mono hp h

theorem Keeps.refl (db : Db) : Keeps db db := ⟨rfl, fun _ hm => hm⟩

theorem Keeps.trans {db₁ db₂ db₃ : Db} (h : Keeps db₁ db₂) (h' : Keeps db₂ db₃) : Keeps db₁ db₃ :=
  ⟨h'.users.trans h.users, fun m hm => h'.members m (h.members m hm)⟩

/-- A program that takes no members away. -/
theorem runs_keeps {p : Repo α} {h : History Stmt Stmt.Answer}
    {W : History Stmt Stmt.Answer → Except ApiError α → Prop}
    (hp : wp (fun _ e => ¬ TakesMembers e.1) p h W) : Runs p db fun db' _ => Keeps db db' := by
  induction p generalizing db h with
  | done r =>
    rintro _ rfl -
    exact .refl db
  | ask q next ih =>
    rintro _ rfl - a db' ⟨hexec, -⟩
    have hkeeps : Keeps db db' := keeps_of_exec hexec (hp a).1
    exact ⟨⟨trivial, trivial⟩, runs_mono (ih a (hp a).2) fun _ _ hk => hkeeps.trans hk⟩

/-! ## Putting users back -/

/-- No member is lost; a success has `Q`, and at a failure every user is in a group. -/
def Owes (Q : Db → α → Prop) (db db' : Db) (r : Except ApiError α) : Prop :=
  Keeps db db' ∧ (∀ a, r = .ok a → Q db' a) ∧ ∀ err, r = .error err → AllGrouped db'

variable {Q : Db → α → Prop} {Q' : Db → β → Prop}

theorem Owes.ok {a : α} (hQ : Q db a) : Owes Q db db (.ok a) := by
  refine ⟨.refl db, ?_, nofun⟩
  rintro _ ⟨⟩
  exact hQ

theorem Owes.error {err : ApiError} (h : AllGrouped db) : Owes Q db db (.error err) :=
  ⟨.refl db, nofun, fun _ _ => h⟩

/-- What is owed from `db'` on is owed from `db` on. -/
theorem runs_owes_from {p : Repo α} (hk : Keeps db db') (hp : Runs p db' (Owes Q db')) :
    Runs p db' (Owes Q db) :=
  runs_mono hp fun _ _ ⟨hk', hQ⟩ => ⟨hk.trans hk', hQ⟩

/-- A statement that takes no members away and must not fail now. -/
theorem runs_owes_sql {q : Stmt} {k : q.Answer → Repo α} (hq : ¬ TakesMembers q)
    (h : ∀ a db', exec db ⟨q, a⟩ = some db' → (failed ⟨q, a⟩ = true → AllGrouped db) →
      Runs (k a) db' (Owes Q db')) : Runs (sql q >>= k) db (Owes Q db) :=
  runs_sql fun a db' hexec hok => runs_owes_from (keeps_of_exec hexec hq) (h a db' hexec hok.1)

theorem runs_owes_bind {p : Repo α} {k : α → Repo β} (hp : Runs p db (Owes Q db))
    (hok : ∀ db' a, Q db' a → Keeps db db' → Runs (k a) db' (Owes Q' db')) :
    Runs (p >>= k) db (Owes Q' db) := by
  refine runs_bind hp ?_ ?_
  · rintro db' a ⟨hk, hQ, -⟩
    exact runs_owes_from hk (hok db' a (hQ a rfl) hk)
  · rintro db' err ⟨hk, -, herr⟩
    exact ⟨hk, nofun, fun _ _ => herr err rfl⟩

/-- An `INSERT` of a seed leaves a group of that name. -/
theorem exists_seed_of_exec {seed : Seed} {inserted : Option Uuid}
    (h : exec db ⟨.insertSeed seed, .ok inserted⟩ = some db') :
    ∃ g ∈ db'.groups, g.name = seed.name := by
  cases inserted with
  | some id =>
    obtain ⟨-, -, -, -, -, hg⟩ := Db.insertGroup_spec h
    exact ⟨seed.toGroup id, (hg _).mpr (.inr rfl), rfl⟩
  | none =>
    simp only [exec] at h
    split_ifs at h with hany
    obtain rfl := Option.some.inj h
    obtain ⟨g, hg, hname⟩ := List.any_eq_true.mp hany
    exact ⟨g, hg, beq_iff_eq.mp hname⟩

/-- A statement that fails where it must not. -/
theorem owes_failed {err : ApiError} (h : exec db e = some db') (hf : failed e = true)
    (hall : failed e = true → AllGrouped db) : Owes Q db' db' (.error err) := by
  obtain rfl := exec_failed h hf
  exact .error (hall hf)

theorem runs_ensureGroup {message : String} (seed : Seed) :
    Runs (ensureGroup message seed) db
      (Owes (fun db' _ => ∃ g ∈ db'.groups, g.name = seed.name) db) := by
  refine runs_owes_sql nofun fun inserted db₁ hexec hall => ?_
  cases inserted with
  | error e => exact runs_fail (owes_failed hexec rfl hall)
  | ok inserted =>
    have hseed := exists_seed_of_exec hexec
    rw [orDbErr_ok]
    split_ifs
    · refine runs_owes_sql nofun fun updated db₂ hexec₂ hall₂ => ?_
      cases updated with
      | error e => exact runs_fail (owes_failed hexec₂ rfl hall₂)
      | ok u =>
        refine runs_pure (.ok ?_)
        cases exec_wrote hexec₂ with
        | nothing => exact hseed
        | updated hup =>
          obtain ⟨g, hg, hname⟩ := hseed
          obtain ⟨-, -, -, -, hmem⟩ := Db.updateGroups_spec hup
          exact ⟨_, (hmem _).mpr ⟨g, hg, rfl⟩, hname⟩
    · exact runs_pure (.ok hseed)

theorem runs_bootstrapGroups {message : String} :
    Runs (bootstrapGroups message) db
      (Owes (fun db' _ => ∃ g ∈ db'.groups, g.name = members.name) db) := by
  refine runs_owes_bind (runs_ensureGroup administrators) fun db₁ _ _ _ => ?_
  refine runs_owes_bind (runs_ensureGroup moderators) fun db₂ _ _ _ => ?_
  refine runs_owes_bind (runs_ensureGroup developers) fun db₃ _ _ _ => ?_
  exact runs_ensureGroup members

theorem runs_defaultGroupId : Runs defaultGroupId db (Owes (fun _ _ => True) db) := by
  refine runs_owes_sql nofun fun row db₁ hexec hall => ?_
  cases row with
  | error e => exact runs_fail (owes_failed hexec rfl hall)
  | ok row =>
    cases row with
    | some id => exact runs_pure (.ok trivial)
    | none =>
      rw [orDbErr_ok]
      refine runs_owes_bind runs_bootstrapGroups fun db₂ _ hmembers _ => ?_
      refine runs_owes_sql nofun fun row db₃ hexec₃ hall₃ => ?_
      cases row with
      | error e => exact runs_fail (owes_failed hexec₃ rfl hall₃)
      | ok row =>
        -- the row is there: the seeds have just been inserted
        obtain ⟨rfl, hrow⟩ := exec_findByName hexec₃
        cases row with
        | some group => exact runs_pure (.ok trivial)
        | none =>
          obtain ⟨g, hg, hname⟩ := hmembers
          have hne := List.find?_eq_none.mp hrow.symm g hg
          simp [hname] at hne

theorem inGroup_of_exec {group user : Uuid}
    (h : exec db ⟨.insertMember group user, .ok ()⟩ = some db') : InGroup db' user := by
  have hins : db.insertMember ⟨group, user⟩ = some db' := h
  obtain ⟨-, -, -, -, hm⟩ := Db.insertMember_spec hins
  exact ⟨⟨group, user⟩, (hm _).mpr (.inr rfl), rfl⟩

/-- After a success the user is in a group. -/
theorem runs_addMember (group user : Uuid) :
    Runs (addMember group user) db (Owes (fun db' _ => InGroup db' user) db) := by
  refine runs_owes_sql nofun fun inserted db₁ hexec hall => ?_
  cases inserted with
  | error e => exact runs_fail (owes_failed hexec rfl hall)
  | ok u => exact runs_pure (.ok (inGroup_of_exec hexec))

theorem inGroup_of_count {user : Uuid} (h : db.countMemberships user ≠ 0) : InGroup db user := by
  obtain ⟨m, hm, huser⟩ := List.countP_pos_iff.mp (Nat.pos_of_ne_zero h)
  exact ⟨m, hm, beq_iff_eq.mp huser⟩

/-- After a success the user is in a group. -/
theorem runs_ensureUserNotOrphaned (user : Uuid) :
    Runs (ensureUserNotOrphaned user) db (Owes (fun db' _ => InGroup db' user) db) := by
  refine runs_owes_sql nofun fun count db₁ hexec hall => ?_
  cases count with
  | error e => exact runs_fail (owes_failed hexec rfl hall)
  | ok count =>
    obtain ⟨rfl, rfl⟩ := exec_countMemberships hexec
    rw [orFail_ok]
    split_ifs with hzero
    · refine runs_owes_bind runs_defaultGroupId fun db₂ group _ _ => ?_
      exact runs_addMember group user
    · exact runs_pure (.ok (inGroup_of_count hzero))

/-- The last loop of `replace_group_members`, by induction on the users. -/
theorem runs_rehome (users : List Uuid) :
    Runs (rehome users) db (Owes (fun db' _ => ∀ user ∈ users, InGroup db' user) db) := by
  induction users generalizing db with
  | nil => exact runs_pure (.ok nofun)
  | cons user users ih =>
    refine runs_owes_bind (runs_ensureUserNotOrphaned user) fun db₁ _ hin _ => ?_
    refine runs_mono ih ?_
    rintro db₂ r ⟨hk, hQ, herr⟩
    refine ⟨hk, fun a hr user' huser' => ?_, herr⟩
    rcases List.mem_cons.mp huser' with rfl | huser'
    · exact hk.inGroup hin
    · exact hQ a hr user' huser'

theorem runs_insertMembers (group : Uuid) (users : List Uuid) :
    Runs (insertMembers group users) db (Owes (fun db' _ => ∀ user ∈ users, InGroup db' user) db) := by
  induction users generalizing db with
  | nil => exact runs_pure (.ok nofun)
  | cons user users ih =>
    refine runs_owes_sql nofun fun inserted db₁ hexec hall => ?_
    cases inserted with
    | error e => exact runs_fail (owes_failed hexec rfl hall)
    | ok u =>
      have hin : InGroup db₁ user := inGroup_of_exec hexec
      rw [orFail_ok]
      refine runs_mono ih ?_
      rintro db₂ r ⟨hk, hQ, herr⟩
      refine ⟨hk, fun a hr user' huser' => ?_, herr⟩
      rcases List.mem_cons.mp huser' with rfl | huser'
      · exact hk.inGroup hin
      · exact hQ a hr user' huser'

/-! ## Operations -/

/-- Whoever was in a group before a `DELETE` of members still is, or lost a row. -/
theorem groupedBut_deleteMembers {p : GroupMember → Bool} (h : AllGrouped db)
    (howed : ∀ m ∈ db.members, p m = true → m.userId ∈ owed) :
    GroupedBut (db.deleteMembers p) owed := by
  intro user huser
  obtain ⟨m, hm, rfl⟩ := h user huser
  cases hp : p m with
  | true => exact .inr (howed m hm hp)
  | false => exact .inl ⟨m, Table.mem_delete.mpr ⟨hm, hp⟩, rfl⟩

theorem allGrouped_of_owes {r : Except ApiError α} (h : GroupedBut db owed)
    (ho : Owes (fun db' _ => ∀ user ∈ owed, InGroup db' user) db db' r) : AllGrouped db' := by
  obtain ⟨hk, hQ, herr⟩ := ho
  cases r with
  | error err => exact herr err rfl
  | ok a =>
    intro user huser
    exact ((hk.groupedBut h) user huser).elim id (hQ a rfl user)

theorem runs_removeMember (h : AllGrouped db) (group user : Uuid) :
    Runs (removeMember group user) db fun db' _ => AllGrouped db' := by
  refine runs_sql fun deleted db₁ hexec hok => ?_
  cases deleted with
  | error e =>
    obtain rfl := exec_failed hexec rfl
    exact runs_fail h
  | ok u =>
    obtain rfl := Option.some.inj hexec
    rw [orFail_ok]
    have hbut : GroupedBut (db.deleteMembers fun m => m == ⟨group, user⟩) [user] := by
      refine groupedBut_deleteMembers h fun m _ hm => ?_
      rw [beq_iff_eq.mp hm]
      exact List.mem_singleton_self user
    refine runs_mono (runs_ensureUserNotOrphaned user) fun db' r ho => ?_
    refine allGrouped_of_owes hbut ⟨ho.1, fun a hr user' huser' => ?_, ho.2.2⟩
    rw [List.mem_singleton.mp huser']
    exact ho.2.1 a hr

theorem runs_replaceGroupMembers (h : AllGrouped db) (group : Uuid) (users : List Uuid) :
    Runs (replaceGroupMembers group users) db fun db' _ => AllGrouped db' := by
  refine runs_sql fun existing db₁ hexec _ => ?_
  cases existing with
  | error e =>
    obtain rfl := exec_failed hexec rfl
    exact runs_fail h
  | ok existing =>
    obtain ⟨rfl, hperm⟩ := exec_listMembers hexec
    rw [orFail_ok]
    refine runs_sql fun deleted db₂ hexec₂ _ => ?_
    cases deleted with
    | error e =>
      obtain rfl := exec_failed hexec₂ rfl
      exact runs_fail h
    | ok u =>
      obtain rfl := Option.some.inj hexec₂
      rw [orFail_ok]
      -- the former members are owed a group, until they are inserted or put back
      have hbut : GroupedBut (db₁.deleteMembers fun m => m.groupId == group) existing := by
        refine groupedBut_deleteMembers h fun m hm hgroup => hperm.mem_iff.mpr ?_
        exact List.mem_map_of_mem (List.mem_filter.mpr ⟨hm, hgroup⟩)
      refine runs_bind (runs_insertMembers group users) ?_ fun db' err ho => ho.2.2 err rfl
      rintro db₃ u ⟨hk, hin, -⟩
      refine runs_mono (runs_rehome _) fun db' r ho => allGrouped_of_owes ?_ ho
      intro user huser
      rcases hk.groupedBut hbut user huser with hg | howed
      · exact .inl hg
      · by_cases hmem : user ∈ users
        · exact .inl (hin u rfl user hmem)
        · exact .inr (List.mem_filter.mpr ⟨howed, by simpa using hmem⟩)

theorem runs_getGroup (id : Uuid) : Runs (getGroup id) db fun db' _ => db' = db := by
  refine runs_sql fun row db₁ hexec _ => ?_
  cases row with
  | error e => exact runs_fail (exec_failed hexec rfl)
  | ok row =>
    obtain ⟨rfl, -⟩ := exec_getGroup hexec
    rw [orFail_ok]
    cases row with
    | none => exact runs_fail rfl
    | some g => exact runs_pure rfl

/-- The `DELETE` takes no user's only group. -/
theorem allGrouped_deleteGroup {group : Uuid} (h : AllGrouped db)
    (hsole : ∀ user ∈ db.users, ¬ Sole db group user) : AllGrouped (db.deleteGroup group) := by
  intro user huser
  have hin := h user huser
  by_contra hnot
  refine hsole user huser ⟨hin, fun m hm hu => ?_⟩
  by_contra hne
  exact hnot ⟨m, Table.mem_delete.mpr ⟨hm, by simpa using hne⟩, hu⟩

theorem runs_deleteGroup (h : AllGrouped db) (id : Uuid) :
    Runs (deleteGroup id) db fun db' _ => AllGrouped db' := by
  refine runs_bind (runs_getGroup id) ?_ fun db' err heq => heq ▸ h
  rintro db₁ group rfl
  refine safe_failIf_bind (fun _ _ heq _ => heq ▸ h) fun _ => ?_
  refine safe_failIf_bind (fun _ _ heq _ => heq ▸ h) fun _ => ?_
  refine runs_sql fun deleted db₂ hexec hok => ?_
  cases deleted with
  | error e =>
    obtain rfl := exec_failed hexec rfl
    exact runs_fail h
  | ok u =>
    obtain rfl := Option.some.inj hexec
    exact runs_pure (allGrouped_deleteGroup h (hok.2 id rfl))

theorem runs_map {f : α → β} {p : Repo α} {J : Db → Prop} (hp : Runs p db fun db' _ => J db') :
    Runs (f <$> p) db fun db' _ => J db' := by
  have hmap : (f <$> p) = p >>= fun a => pure (f a) := rfl
  rw [hmap]
  exact runs_bind hp (fun _ _ hJ => runs_pure hJ) fun _ _ hJ => hJ

theorem not_takesMembers_of_read {q : Stmt} (hq : IsRead q) : ¬ TakesMembers q := by
  cases q <;> first | exact hq.elim | exact nofun

theorem not_takesMembers_of_seeding {q : Stmt} (hq : IsSeeding q) : ¬ TakesMembers q := by
  cases q <;> first | exact hq.elim | exact nofun

/-- Three operations take members away. -/
def Op.TakesMembers : Op → Prop
  | .deleteGroup _ | .removeMember _ _ | .replaceGroupMembers _ _ => True
  | _ => False

theorem not_takesMembers_of_asks {op : Op} (hop : ¬ op.TakesMembers) {q : Stmt} (hq : op.Asks q) :
    ¬ TakesMembers q := by
  rcases hq with hread | hwrites
  · exact not_takesMembers_of_read hread
  · cases op with
    | createGroup name description isDefault => obtain rfl | ⟨id, rfl⟩ := hwrites <;> exact nofun
    | patchGroup id name description isDefault => obtain ⟨us, commit, rfl⟩ := hwrites; exact nofun
    | setDefaultGroup id => obtain rfl := hwrites; exact nofun
    | addPermission group permission => obtain ⟨rfl, -⟩ := hwrites; exact nofun
    | removePermission group permission => obtain rfl := hwrites; exact nofun
    | replaceGroupPermissions group permissions =>
      obtain rfl | ⟨p, -, rfl, -⟩ := hwrites <;> exact nofun
    | addMember group user => obtain rfl := hwrites; exact nofun
    | bootstrapGroups => exact not_takesMembers_of_seeding hwrites
    | defaultGroupId => exact not_takesMembers_of_seeding hwrites
    | ensureUserInDefaultGroup user =>
      rcases hwrites with hseed | ⟨group, rfl⟩
      · exact not_takesMembers_of_seeding hseed
      · exact nofun
    | accountRole target user => obtain ⟨group, rfl⟩ := hwrites; exact nofun
    | deleteGroup id => exact absurd trivial hop
    | removeMember group user => exact absurd trivial hop
    | replaceGroupMembers group users => exact absurd trivial hop

/-- Every operation, run alone with unbroken statements. -/
theorem runs_program (h : AllGrouped db) (op : Op) :
    Runs op.program db fun db' _ => AllGrouped db' := by
  by_cases hop : op.TakesMembers
  · cases op with
    | deleteGroup id => exact runs_map (runs_deleteGroup h id)
    | removeMember group user => exact runs_map (runs_removeMember h group user)
    | replaceGroupMembers group users => exact runs_map (runs_replaceGroupMembers h group users)
    | _ => cases hop
  · have hwp := wp_weaken (wp_program op) fun _ e he => not_takesMembers_of_asks hop he
    refine runs_mono (runs_keeps hwp) fun db' _ hk => groupedBut_nil.mp ?_
    exact hk.groupedBut (groupedBut_nil.mpr h)

/-- **Every user keeps a group** in every sequence of group operations in which no
    statement fails while a user is without a group and no `DELETE` takes a user's only
    group, whether the operations succeed or not. -/
theorem membership_kept {db₀ db : Db} (h₀ : AllGrouped db₀)
    (hrun : Reaches (Alone exec Op.program) (fun db l => OkAll exec Unbroken db l.2) db₀ db) :
    AllGrouped db := by
  refine hrun.invariant h₀ fun db l db' h hok hstep => ?_
  obtain ⟨r, -, hgrouped⟩ := Alone.post (runs_program h l.1) trivial hok hstep
  exact hgrouped

theorem not_wildcard_empty :
    ∀ p ∈ (.empty : Table GroupPermission (· ≠ ·)), p.permission ≠ rootWildcard := nofun

/-- The group `Members`, and a group `Staff` with the user 1 in it. -/
def staffDb : Db where
  users := [1]
  groups := ⟨[⟨10, "Members", "", none, true, true⟩, ⟨11, "Staff", "", none, false, false⟩],
    by decide +kernel⟩
  members := ⟨[⟨11, 1⟩], by decide +kernel⟩
  permissions := .empty
  issued := [10, 11]
  kind := by decide +kernel
  group_issued := by decide +kernel
  member_group := by decide +kernel
  member_user := by decide +kernel
  permission_group := List.forall_mem_nil _
  not_wildcard := not_wildcard_empty

/-- The user 1 is removed from `Staff` and put into `Members`. -/
theorem membership_kept_remove :
    AllGrouped staffDb ∧ ∃ db, Alone exec Op.program staffDb (.removeMember 11 1,
      [⟨.deleteMember 11 1, .ok ()⟩, ⟨.countMemberships 1, .ok 0⟩, ⟨.findDefault, .ok (some 10)⟩,
        ⟨.insertMember 10 1, .ok ()⟩]) = some db ∧ AllGrouped db := by
  have h₀ : AllGrouped staffDb := by decide +kernel
  obtain ⟨db, hdb⟩ : ∃ db, Alone exec Op.program staffDb (.removeMember 11 1,
      [⟨.deleteMember 11 1, .ok ()⟩, ⟨.countMemberships 1, .ok 0⟩, ⟨.findDefault, .ok (some 10)⟩,
        ⟨.insertMember 10 1, .ok ()⟩]) = some db :=
    Option.isSome_iff_exists.mp (by decide +kernel)
  exact ⟨h₀, db, hdb, membership_kept h₀ (.next .start (by decide +kernel) hdb)⟩

/-- `Staff` is deleted with its only member; and a member list with an unknown user 2
    is refused after the old list is gone. Both leave the user 1 without a group. -/
theorem not_membership_kept_staff :
    AllGrouped staffDb ∧
      (Alone exec Op.program staffDb (.deleteGroup 11,
        [⟨.getGroup 11, .ok (some ⟨11, "Staff", "", none, false, false⟩)⟩,
          ⟨.deleteGroup 11, .ok ()⟩])).any (fun db => decide (¬ AllGrouped db)) = true ∧
      (Alone exec Op.program staffDb (.replaceGroupMembers 11 [2],
        [⟨.listMembers 11, .ok [1]⟩, ⟨.deleteMembers 11, .ok ()⟩,
          ⟨.insertMember 11 2, .error .other⟩])).any (fun db => decide (¬ AllGrouped db)) = true :=
  ⟨by decide +kernel, by decide +kernel, by decide +kernel⟩

end Ppb.Groups
