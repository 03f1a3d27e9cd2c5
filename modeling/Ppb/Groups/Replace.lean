import Ppb.Common.Alone
import Ppb.Groups.Membership

/-!
# Is a member list replaced in one piece?

`replace_group_members` deletes the members of a group, inserts the new ones one after the other
and puts former members who are left without a group into the default group. There is no
transaction, so an error after the `DELETE` leaves the list half replaced; and if the group is
the default group, the former members come back.

* `starts_replaceGroupMembers`: the members after a success.
* `replaced_iff`: whether they are the listed ones.
* `all_or_nothing_iff`: when no failure of a statement can leave the list half replaced.
-/

namespace Ppb.Groups

open Prog Shared

variable {db db' : Db} {group user d : Uuid} {users : List Uuid}

/-! ## All or nothing -/

/-- A member of the group who is not listed and has no other group. -/
def LeftOut (db : Db) (group : Uuid) (users : List Uuid) (user : Uuid) : Prop :=
  Sole db group user ∧ user ∉ users

def IsDefault (db : Db) (id : Uuid) : Prop := ∃ g ∈ db.groups, g.id = id ∧ g.isDefault = true

/-- The listed users are the members of `group`, and nothing else has changed, except that those
    who are left out are in a default group. -/
structure Replaced (db : Db) (group : Uuid) (users : List Uuid) (db' : Db) : Prop where
  listed : ∀ user, (⟨group, user⟩ : GroupMember) ∈ db'.members ↔ user ∈ users
  kept : ∀ m ∈ db.members, m.groupId ≠ group → m ∈ db'.members
  added : ∀ m ∈ db'.members, m.groupId ≠ group →
    m ∈ db.members ∨ LeftOut db group users m.userId ∧ IsDefault db' m.groupId
  rehomed : ∀ user, LeftOut db group users user →
    ∃ id, IsDefault db' id ∧ (⟨id, user⟩ : GroupMember) ∈ db'.members

/-- The same rows in `group_members`. -/
def SameMembers (db db' : Db) : Prop := ∀ m, m ∈ db'.members ↔ m ∈ db.members

def Outcome (db : Db) (group : Uuid) (users : List Uuid) (db' : Db) : Except ApiError Unit → Prop
  | .ok () => Replaced db group users db'
  | .error _ => SameMembers db db'

/-- However `replace_group_members` ends, it has done everything or nothing. -/
def AllOrNothing (db : Db) (group : Uuid) (users : List Uuid) : Prop :=
  ∀ h db' r, (replaceGroupMembers group users).Ends h r → execAll exec db h = some db' →
    Outcome db group users db' r

/-! ## Successes -/

/-- `d` is the default group. -/
def OnlyDefault (db : Db) (d : Uuid) : Prop :=
  IsDefault db d ∧ ∀ id, IsDefault db id → id = d

theorem onlyDefault_of_groups (hd : OnlyDefault db d) (hgroups : db'.groups = db.groups) :
    OnlyDefault db' d := by
  rw [OnlyDefault, IsDefault, hgroups]
  exact ⟨hd.1, fun id hid => hd.2 id (by rwa [IsDefault, hgroups] at hid)⟩

theorem starts_insertMembers : Starts (insertMembers group users) db (Succeeds fun db' _ =>
    db'.groups = db.groups ∧
      ∀ m, m ∈ db'.members ↔ m ∈ db.members ∨ m.groupId = group ∧ m.userId ∈ users) := by
  induction users generalizing db with
  | nil => exact starts_pure ⟨rfl, fun m => by simp⟩
  | cons user users ih =>
    refine starts_sql fun inserted db₁ hexec => ?_
    cases inserted with
    | error e => exact starts_fail
    | ok u =>
      have hinsert : db.insertMember ⟨group, user⟩ = some db₁ := hexec
      obtain ⟨-, hgroups, -, -, hmembers⟩ := Db.insertMember_spec hinsert
      refine safe_mono ih fun db₂ r hr a ha => ?_
      obtain ⟨hgroups₂, hmembers₂⟩ := hr a ha
      refine ⟨hgroups₂.trans hgroups, fun m => ?_⟩
      rw [hmembers₂, hmembers, List.mem_cons, or_assoc]
      obtain ⟨gid, uid⟩ := m
      simp only [GroupMember.mk.injEq]
      tauto

theorem starts_defaultGroupId (hd : OnlyDefault db d) :
    Starts defaultGroupId db (Succeeds fun db' id => db' = db ∧ id = d) := by
  refine starts_sql fun row db₁ hexec => ?_
  cases row with
  | error e => exact starts_fail
  | ok row =>
    cases row with
    | some id =>
      obtain ⟨rfl, hid⟩ := exec_findDefault_some hexec
      exact starts_pure ⟨rfl, hd.2 id hid⟩
    | none =>
      -- there is a default group
      obtain ⟨rfl, hnone⟩ := exec_findDefault_none hexec
      obtain ⟨g, hg, -, hdefault⟩ := hd.1
      rw [hnone g hg] at hdefault
      cases hdefault

theorem countMemberships_eq_zero : db.countMemberships user = 0 ↔ ¬ InGroup db user := by
  rw [Db.countMemberships, List.countP_eq_zero]
  constructor
  · rintro h ⟨m, hm, huser⟩
    exact h m hm (beq_iff_eq.mpr huser)
  · intro h m hm huser
    exact h ⟨m, hm, beq_iff_eq.mp huser⟩

theorem starts_ensureUserNotOrphaned (hd : OnlyDefault db d) :
    Starts (ensureUserNotOrphaned user) db (Succeeds fun db' _ => db'.groups = db.groups ∧
      ∀ m, m ∈ db'.members ↔ m ∈ db.members ∨ m = ⟨d, user⟩ ∧ ¬ InGroup db user) := by
  refine starts_sql fun count db₁ hexec => ?_
  cases count with
  | error e => exact starts_fail
  | ok count =>
    obtain ⟨rfl, rfl⟩ := exec_countMemberships hexec
    rw [orFail_ok]
    split_ifs with hzero
    · have hout : ¬ InGroup db₁ user := countMemberships_eq_zero.mp hzero
      refine starts_bind (starts_defaultGroupId hd) ?_
      rintro db₂ id ⟨rfl, rfl⟩
      refine starts_sql fun inserted db₃ hexec₃ => ?_
      cases inserted with
      | error e => exact starts_fail
      | ok u =>
        have hinsert : db₂.insertMember ⟨id, user⟩ = some db₃ := hexec₃
        obtain ⟨-, hgroups, -, -, hmembers⟩ := Db.insertMember_spec hinsert
        refine starts_pure ⟨hgroups, fun m => ?_⟩
        rw [hmembers, and_iff_left hout]
    · have hin : InGroup db₁ user := not_not.mp fun h => hzero (countMemberships_eq_zero.mpr h)
      refine starts_pure ⟨rfl, fun m => ?_⟩
      rw [or_iff_left fun h => h.2 hin]

/-- The last loop: whoever is in no group gets into the default group. -/
theorem starts_rehome (hd : OnlyDefault db d) : Starts (rehome users) db (Succeeds fun db' _ =>
    db'.groups = db.groups ∧ ∀ m, m ∈ db'.members ↔
      m ∈ db.members ∨ m.groupId = d ∧ m.userId ∈ users ∧ ¬ InGroup db m.userId) := by
  induction users generalizing db with
  | nil => exact starts_pure ⟨rfl, fun m => by simp⟩
  | cons user users ih =>
    refine starts_bind (starts_ensureUserNotOrphaned hd) ?_
    rintro db₁ - ⟨hgroups, hmembers⟩
    refine safe_mono (ih (onlyDefault_of_groups hd hgroups)) fun db₂ r hr a ha => ?_
    obtain ⟨hgroups₂, hmembers₂⟩ := hr a ha
    refine ⟨hgroups₂.trans hgroups, fun m => ?_⟩
    -- being in a group changes for `user` only
    have hin (other : Uuid) : InGroup db₁ other ↔ InGroup db other ∨ other = user ∧ ¬ InGroup db user := by
      simp only [InGroup, hmembers]
      constructor
      · rintro ⟨m, hm | ⟨rfl, hout⟩, rfl⟩
        · exact .inl ⟨m, hm, rfl⟩
        · exact .inr ⟨rfl, hout⟩
      · rintro (⟨m, hm, rfl⟩ | ⟨rfl, hout⟩)
        · exact ⟨m, .inl hm, rfl⟩
        · exact ⟨⟨d, other⟩, .inr ⟨rfl, hout⟩, rfl⟩
    rw [hmembers₂, hmembers, hin, List.mem_cons]
    obtain ⟨gid, uid⟩ := m
    simp only [GroupMember.mk.injEq]
    by_cases hsame : uid = user
    · subst hsame
      tauto
    · tauto

/-- The members after a success: those of other groups, the listed ones, and in the default group
    whoever was left out. -/
theorem starts_replaceGroupMembers (hd : OnlyDefault db d) :
    Starts (replaceGroupMembers group users) db (Succeeds fun db' _ => db'.groups = db.groups ∧
      ∀ m, m ∈ db'.members ↔ m ∈ db.members ∧ m.groupId ≠ group ∨
        m.groupId = group ∧ m.userId ∈ users ∨
          m.groupId = d ∧ LeftOut db group users m.userId) := by
  refine starts_sql fun existing db₁ hexec => ?_
  cases existing with
  | error e => exact starts_fail
  | ok existing =>
    obtain ⟨rfl, hperm⟩ := exec_listMembers hexec
    rw [orFail_ok]
    refine starts_sql fun deleted db₂ hexec₂ => ?_
    cases deleted with
    | error e => exact starts_fail
    | ok u =>
      obtain rfl := Option.some.inj hexec₂
      rw [orFail_ok]
      refine starts_bind starts_insertMembers ?_
      rintro db₃ - ⟨hgroups, hmembers⟩
      have hd₃ : OnlyDefault db₃ d := onlyDefault_of_groups hd hgroups
      refine safe_mono (starts_rehome hd₃) fun db₄ r hr a ha => ?_
      obtain ⟨hgroups₄, hmembers₄⟩ := hr a ha
      refine ⟨hgroups₄.trans hgroups, fun m => ?_⟩
      have hdeleted (m : GroupMember) :
          m ∈ (db₁.deleteMembers fun m => m.groupId == group).members ↔
            m ∈ db₁.members ∧ m.groupId ≠ group := by
        rw [Db.deleteMembers, Table.mem_delete, beq_eq_false_iff_ne]
      have hexisting (user : Uuid) : user ∈ existing ↔ ⟨group, user⟩ ∈ db₁.members := by
        rw [hperm.mem_iff, Db.membersOf, List.mem_map]
        constructor
        · rintro ⟨⟨gid, uid⟩, hrow, rfl⟩
          obtain ⟨hm, hgid⟩ := List.mem_filter.mp hrow
          obtain rfl : gid = group := beq_iff_eq.mp hgid
          exact hm
        · intro hm
          exact ⟨_, List.mem_filter.mpr ⟨hm, by simp⟩, rfl⟩
      have hleft (user : Uuid) : LeftOut db₁ group users user ↔
          user ∈ existing.filter (fun user => !users.contains user) ∧ ¬ InGroup db₃ user := by
        rw [List.mem_filter, hexisting]
        constructor
        · rintro ⟨⟨⟨⟨gid, uid⟩, hm, rfl⟩, hsole⟩, hout⟩
          obtain rfl : gid = group := hsole _ hm rfl
          refine ⟨⟨hm, by simpa using hout⟩, ?_⟩
          rintro ⟨m', hm', huser⟩
          rcases (hmembers m').mp hm' with hm' | ⟨-, hin⟩
          · obtain ⟨hm', hne⟩ := (hdeleted m').mp hm'
            exact hne (hsole m' hm' huser)
          · exact hout (huser ▸ hin)
        · rintro ⟨⟨hm, hout⟩, hnone⟩
          refine ⟨⟨⟨_, hm, rfl⟩, fun m' hm' huser => ?_⟩, by simpa using hout⟩
          by_contra hne
          exact hnone ⟨m', (hmembers m').mpr (.inl ((hdeleted m').mpr ⟨hm', hne⟩)), huser⟩
      rw [hmembers₄, hmembers, hdeleted, hleft, or_assoc]

/-- After a success the members are the listed ones, unless the group is the default group and
    somebody was left out. -/
theorem replaced_iff (hd : OnlyDefault db d) {h : History Stmt Stmt.Answer}
    (hends : (replaceGroupMembers group users).Ends h (.ok ()))
    (hexec : execAll exec db h = some db') :
    Replaced db group users db' ↔ (group = d → ∀ user, ¬ LeftOut db group users user) := by
  obtain ⟨hgroups, hmembers⟩ := (starts_replaceGroupMembers hd).execAll hends hexec () rfl
  have hd' : OnlyDefault db' d := onlyDefault_of_groups hd hgroups
  constructor
  · rintro hreplaced rfl user hleft
    obtain ⟨id, hid, hmem⟩ := hreplaced.rehomed user hleft
    obtain rfl := hd'.2 id hid
    exact hleft.2 ((hreplaced.listed user).mp hmem)
  · intro hcond
    refine ⟨fun user => ?_, fun m hm hne => (hmembers m).mpr (.inl ⟨hm, hne⟩), ?_, ?_⟩
    · rw [hmembers]
      constructor
      · rintro (⟨-, hne⟩ | ⟨-, hin⟩ | ⟨heq, hleft⟩)
        · exact absurd rfl hne
        · exact hin
        · exact absurd hleft (hcond heq user)
      · exact fun hin => .inr (.inl ⟨rfl, hin⟩)
    · intro m hm hne
      rcases (hmembers m).mp hm with ⟨hm, -⟩ | ⟨heq, -⟩ | ⟨heq, hleft⟩
      · exact .inl hm
      · exact absurd heq hne
      · exact .inr ⟨hleft, heq ▸ hd'.1⟩
    · intro user hleft
      exact ⟨d, hd'.1, (hmembers _).mpr (.inr (.inr ⟨rfl, hleft⟩))⟩

/-! ## Failures -/

/-- The foreign keys of the row are there. -/
def CanInsert (db : Db) (group user : Uuid) : Prop :=
  (∃ g ∈ db.groups, g.id = group) ∧ user ∈ db.users

theorem canInsert_of_insertMember (h : db.insertMember ⟨group, user⟩ = some db') :
    CanInsert db group user := by
  unfold Db.insertMember at h
  split_ifs at h with hmem hkeys
  · exact ⟨db.member_group _ hmem, db.member_user _ hmem⟩
  · exact hkeys

theorem exists_insertMember (h : CanInsert db group user) :
    ∃ db', db.insertMember ⟨group, user⟩ = some db' := by
  unfold Db.insertMember
  split_ifs with hmem
  · exact ⟨db, rfl⟩
  · obtain ⟨members, hinsert⟩ : ∃ members, db.members.insert ⟨group, user⟩ = some members :=
      Table.exists_insert fun m hm heq => hmem (heq ▸ hm)
    split
    · exact ⟨_, rfl⟩
    · rename_i hnone
      rw [hinsert] at hnone
      cases hnone
  · rename_i hkeys
    exact absurd h hkeys

/-- At most one statement changes something: no member is deleted, and there is one to insert or
    the first one cannot be inserted. -/
def OneStep (db : Db) (group : Uuid) (users : List Uuid) : Prop :=
  (∀ m ∈ db.members, m.groupId ≠ group) ∧
    ∀ user other rest, users = user :: other :: rest → ¬ CanInsert db group user

theorem SameMembers.refl (db : Db) : SameMembers db db := fun _ => Iff.rfl

/-- One step is done or not done. -/
theorem allOrNothing_of_oneStep (hcond : OneStep db group users) : AllOrNothing db group users := by
  obtain ⟨hempty, hfirst⟩ := hcond
  have hsole (user : Uuid) : ¬ LeftOut db group users user := by
    rintro ⟨⟨⟨m, hm, huser⟩, hsole⟩, -⟩
    exact hempty m hm (hsole m hm huser)
  suffices hruns : Prog.Runs exec (replaceGroupMembers group users) db [] fun db' _ r =>
      Outcome db group users db' r from fun h db' r hends hexec => hruns.ends hends hexec
  refine Prog.runs_ask fun existing db₁ hexec => ?_
  cases existing with
  | error e =>
    obtain rfl := exec_failed hexec rfl
    exact SameMembers.refl db₁
  | ok existing =>
    obtain ⟨rfl, hperm⟩ := exec_listMembers hexec
    have hnone : existing = [] := by
      have hmembers : db₁.membersOf group = [] := by
        rw [Db.membersOf, List.map_eq_nil_iff, List.filter_eq_nil_iff]
        exact fun m hm hgroup => hempty m hm (beq_iff_eq.mp hgroup)
      rw [hmembers] at hperm
      exact hperm.eq_nil
    subst hnone
    refine Prog.runs_ask fun deleted db₂ hexec₂ => ?_
    cases deleted with
    | error e =>
      obtain rfl := exec_failed hexec₂ rfl
      exact SameMembers.refl db₂
    | ok u =>
      obtain rfl := Option.some.inj hexec₂
      have hsame : SameMembers db₁ (db₁.deleteMembers fun m => m.groupId == group) := by
        intro m
        rw [Db.deleteMembers, Table.mem_delete, beq_eq_false_iff_ne]
        exact and_iff_left_of_imp (hempty m)
      cases users with
      | nil =>
        refine ⟨fun user => ?_, fun m hm _ => (hsame m).mpr hm, fun m hm _ => .inl ((hsame m).mp hm),
          fun user hleft => absurd hleft (hsole user)⟩
        rw [hsame]
        exact iff_of_false (fun hm => hempty _ hm rfl) List.not_mem_nil
      | cons user users =>
        refine Prog.runs_ask fun inserted db₃ hexec₃ => ?_
        cases inserted with
        | error e =>
          obtain rfl := exec_failed hexec₃ rfl
          exact hsame
        | ok u =>
          have hinsert : Db.insertMember _ ⟨group, user⟩ = some db₃ := hexec₃
          have hkeys := canInsert_of_insertMember hinsert
          have hcan : CanInsert db₁ group user := hkeys
          cases users with
          | cons other rest => exact absurd hcan (hfirst user other rest rfl)
          | nil =>
            obtain ⟨-, -, -, -, hmembers⟩ := Db.insertMember_spec hinsert
            have hafter (m : GroupMember) : m ∈ db₃.members ↔ m ∈ db₁.members ∨ m = ⟨group, user⟩ := by
              rw [hmembers, hsame]
            refine ⟨fun other => ?_, fun m hm _ => (hafter m).mpr (.inl hm), fun m hm hne => ?_,
              fun user hleft => absurd hleft (hsole user)⟩
            · rw [hafter, List.mem_singleton, or_iff_right fun hm => hempty _ hm rfl,
                GroupMember.mk.injEq, and_iff_right rfl]
            · rcases (hafter m).mp hm with hm | rfl
              · exact .inl hm
              · exact absurd rfl hne

/-- A run up to the failure of a statement. -/
theorem AllOrNothing.not_can (h : AllOrNothing db group users)
    (hcan : Prog.Can exec (replaceGroupMembers group users) db fun db' r =>
      (∃ e, r = .error e) ∧ ¬ SameMembers db db') : False := by
  obtain ⟨es, db', r, hends, hexec, ⟨e, rfl⟩, hchanged⟩ := hcan.ends
  exact hchanged (h es db' _ hends hexec)

theorem exec_deleteMembers : exec db ⟨.deleteMembers group, .ok ()⟩ =
    some (db.deleteMembers fun m => m.groupId == group) := rfl

theorem exec_listMembers_self : exec db ⟨.listMembers group, .ok (db.membersOf group)⟩ = some db := by
  show (if decide ((db.membersOf group).Perm (db.membersOf group)) then some db else none) = _
  rw [if_pos (decide_eq_true (.refl _))]

theorem oneStep_of_allOrNothing (h : AllOrNothing db group users) : OneStep db group users := by
  have hempty : ∀ m ∈ db.members, m.groupId ≠ group := by
    rintro m hm rfl
    -- the members are gone when the next statement fails
    have hchanged : ¬ SameMembers db (db.deleteMembers fun m' => m'.groupId == m.groupId) := by
      intro hsame
      have hstays := (hsame m).mpr hm
      rw [Db.deleteMembers, Table.mem_delete] at hstays
      simp at hstays
    have hmember : m.userId ∈ db.membersOf m.groupId :=
      List.mem_map_of_mem (List.mem_filter.mpr ⟨hm, by simp⟩)
    refine h.not_can (Prog.can_ask _ exec_listMembers_self (Prog.can_ask (.ok ()) exec_deleteMembers ?_))
    cases users with
    | cons user users => exact Prog.can_ask (.error .other) rfl ⟨⟨_, rfl⟩, hchanged⟩
    | nil =>
      have hall : (db.membersOf m.groupId).filter (fun user => !([] : List Uuid).contains user) =
          db.membersOf m.groupId := by simp
      show Prog.Can exec (rehome ((db.membersOf m.groupId).filter _)) _ _
      rw [hall]
      cases hlist : db.membersOf m.groupId with
      | nil => rw [hlist] at hmember; cases hmember
      | cons user rest => exact Prog.can_ask (.error .other) rfl ⟨⟨_, rfl⟩, hchanged⟩
  refine ⟨hempty, ?_⟩
  rintro user other rest rfl hcan
  have hcan' : CanInsert (db.deleteMembers fun m => m.groupId == group) group user := hcan
  obtain ⟨db', hinsert⟩ := exists_insertMember hcan'
  obtain ⟨-, -, -, -, hmembers⟩ := Db.insertMember_spec hinsert
  refine h.not_can (Prog.can_ask _ exec_listMembers_self (Prog.can_ask (.ok ()) exec_deleteMembers
    (Prog.can_ask (.ok ()) hinsert (Prog.can_ask (.error .other) rfl ⟨⟨_, rfl⟩, fun hsame => ?_⟩))))
  exact hempty _ ((hsame _).mp ((hmembers ⟨group, user⟩).mpr (.inr rfl))) rfl

/-- A replacement is all or nothing just when at most one of its statements changes something.
    When it has succeeded the members are the listed ones, unless the group is the default group
    and somebody was left out. -/
theorem all_or_nothing_iff (db : Db) (group : Uuid) (users : List Uuid) :
    (AllOrNothing db group users ↔ OneStep db group users) ∧
      ∀ d h db', OnlyDefault db d → (replaceGroupMembers group users).Ends h (.ok ()) →
        execAll exec db h = some db' →
          (Replaced db group users db' ↔ (group = d → ∀ user, ¬ LeftOut db group users user)) :=
  ⟨⟨oneStep_of_allOrNothing, allOrNothing_of_oneStep⟩,
    fun _ _ _ hd hends hexec => replaced_iff hd hends hexec⟩

/-- The group `Staff` gets its first member. -/
theorem all_or_nothing_first : AllOrNothing (staffDb.deleteMembers fun _ => true) 11 [1] :=
  (all_or_nothing_iff _ _ _).1.mpr ⟨by decide +kernel, nofun⟩

/-- `Staff` loses its member to a user who does not exist. -/
theorem not_all_or_nothing_staff : ¬ AllOrNothing staffDb 11 [2] := by
  intro h
  refine h.not_can (Prog.can_ask _ exec_listMembers_self (Prog.can_ask (.ok ()) exec_deleteMembers
    (Prog.can_ask (.error .other) rfl ⟨⟨_, rfl⟩, fun hsame => ?_⟩)))
  have hbefore : (⟨11, 1⟩ : GroupMember) ∈ staffDb.members.rows := by decide +kernel
  have hafter : (⟨11, 1⟩ : GroupMember) ∈
      (staffDb.deleteMembers fun m => m.groupId == 11).members.rows := (hsame _).mpr hbefore
  exact absurd hafter (by decide +kernel)

end Ppb.Groups
