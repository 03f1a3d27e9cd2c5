import Ppb.Groups.Repo

/-!
# The default group

New users and users who lose their last group are put into the default group, so
there must be exactly one and it must not be an `admin_scope` group.

`set_default_group` and `patch_group` check the kind of the group and then update
every row; the kind of a group never changes, so the check is still true at the
`UPDATE` (`NotAdmin.frame`). What they do not notice is that the group is gone, and
`delete_group` does not notice that its group has become the default. The third
way out is `ensure_group`: it looks for the seed `Members` by a name that
`patch_group` may have changed, inserts a second one and makes it the default.

* `Undisturbed db e`: the statement `e` is none of the three.
* `kept_*`: each operation, whatever the others do between two of its statements.
* `default_group_kept`: over every interleaving of undisturbed statements there is
  one default group and no operation enrols anybody in an `admin_scope` group that
  it does not name.
-/

namespace Ppb.Groups

open Prog Shared Trace

-- a look at a program would run it on a name that is not known
attribute [local irreducible] Text.trim

/-! ## The invariant -/

/-- Exactly one group is the default, and it is not an `admin_scope` group. -/
def OneDefault (db : Db) : Prop :=
  ∃ g ∈ db.groups, g.isDefault = true ∧ g.isAdminScope = false ∧
    ∀ g' ∈ db.groups, g'.isDefault = true → g' = g

/-- The same groups are the default. -/
def SameDefault (db db' : Db) : Prop :=
  ∀ id, (∃ g ∈ db.groups, g.id = id ∧ g.isDefault = true) ↔
    ∃ g ∈ db'.groups, g.id = id ∧ g.isDefault = true

/-- `id` was given to a group, and no `admin_scope` group has it. -/
def NotAdmin (db : Db) (id : Uuid) : Prop :=
  id ∈ db.issued ∧ ∀ g ∈ db.groups, g.id = id → g.isAdminScope = false

/-- The group that an `UPDATE` makes the default is there. -/
def GroupUpdate.Finds (db : Db) : GroupUpdate → Prop
  | .setDefault id => ∃ g ∈ db.groups, g.id = id
  | _ => True

/-- A statement that finds the group it makes the default, does not delete the
    default group, and does not find `Members` missing. -/
def Stmt.Finds (db : Db) : Stmt → Prop
  | .insertSeed seed => seed.isDefault = true → ∃ g ∈ db.groups, g.name = seed.name
  | .updateGroups u => u.Finds db
  | .transaction us commit => commit = true → ∀ u ∈ us, u.Finds db
  | .deleteGroup id => ∀ g ∈ db.groups, g.id = id → g.isDefault = false
  | _ => True

/-- A statement takes effect only on what it expects. -/
def Undisturbed (db : Db) (e : Event Stmt Stmt.Answer) : Prop := failed e = false → e.1.Finds db

instance (db : Db) : DecidablePred (GroupUpdate.Finds db) := fun u =>
  match u with
  | .setDefault id => inferInstanceAs (Decidable (∃ g ∈ db.groups, g.id = id))
  | .setName _ _ | .setDescription _ _ | .setDefaultByName _ => .isTrue trivial

instance (db : Db) : DecidablePred (Stmt.Finds db) := fun q =>
  match q with
  | .insertSeed seed =>
    inferInstanceAs (Decidable (seed.isDefault = true → ∃ g ∈ db.groups, g.name = seed.name))
  | .updateGroups u => inferInstanceAs (Decidable (u.Finds db))
  | .transaction us commit => inferInstanceAs (Decidable (commit = true → ∀ u ∈ us, u.Finds db))
  | .deleteGroup id => inferInstanceAs (Decidable (∀ g ∈ db.groups, g.id = id → g.isDefault = false))
  | .insertGroup _ _ | .getGroup _ | .findByName _ | .findDefault | .insertMember _ _
  | .deleteMember _ _ | .deleteMembers _ | .listMembers _ | .countMemberships _ | .hasMembership _
  | .insertPermission _ _ | .deletePermission _ _ | .deletePermissions _ | .listPermissions _ =>
    .isTrue trivial

instance (db : Db) (e : Event Stmt Stmt.Answer) : Decidable (Undisturbed db e) :=
  inferInstanceAs (Decidable (failed e = false → e.1.Finds db))

instance (db : Db) : Decidable (OneDefault db) :=
  inferInstanceAs (Decidable (∃ g ∈ db.groups, g.isDefault = true ∧ g.isAdminScope = false ∧
    ∀ g' ∈ db.groups, g'.isDefault = true → g' = g))

variable {db db' : Db} {e : Event Stmt Stmt.Answer} {id : Uuid}

/-! ## What every statement respects -/

/-- Ids are not given twice, and the kind of a group does not change. -/
structure Frame (db db' : Db) : Prop where
  issued : ∀ id ∈ db.issued, id ∈ db'.issued
  groups : ∀ g' ∈ db'.groups, g'.id ∈ db.issued →
    ∃ g ∈ db.groups, g.id = g'.id ∧ g.systemKind = g'.systemKind

theorem Frame.refl (db : Db) : Frame db db := ⟨fun _ hid => hid, fun g hg _ => ⟨g, hg, rfl, rfl⟩⟩

theorem Frame.trans {db₁ db₂ db₃ : Db} (h : Frame db₁ db₂) (h' : Frame db₂ db₃) :
    Frame db₁ db₃ := by
  refine ⟨fun id hid => h'.issued id (h.issued id hid), fun g₃ hg₃ hid => ?_⟩
  obtain ⟨g₂, hg₂, hid₂, hkind₂⟩ := h'.groups g₃ hg₃ (h.issued _ hid)
  obtain ⟨g₁, hg₁, hid₁, hkind₁⟩ := h.groups g₂ hg₂ (hid₂ ▸ hid)
  exact ⟨g₁, hg₁, hid₁.trans hid₂, hkind₁.trans hkind₂⟩

/-- A group that is not `admin_scope` stays so, also while it does not exist. -/
theorem NotAdmin.frame (h : NotAdmin db id) (hf : Frame db db') : NotAdmin db' id := by
  refine ⟨hf.issued id h.1, fun g' hg' hid => ?_⟩
  obtain ⟨g, hg, hid', hkind⟩ := hf.groups g' hg' (hid ▸ h.1)
  have := h.2 g hg (hid'.trans hid)
  rwa [Group.isAdminScope, ← hkind]

theorem Frame.of_eq (hgroups : db'.groups = db.groups) (hissued : db'.issued = db.issued) :
    Frame db db' :=
  ⟨fun _ hid => hissued ▸ hid, fun g hg _ => ⟨g, hgroups ▸ hg, rfl, rfl⟩⟩

theorem frame_insertGroup {g : Group} (h : db.insertGroup g = some db') : Frame db db' := by
  obtain ⟨-, -, -, hissued, hfresh, hmem⟩ := Db.insertGroup_spec h
  refine ⟨fun id hid => ?_, fun g' hg' hid => ?_⟩
  · rw [hissued]
    exact List.mem_cons_of_mem _ hid
  · rcases (hmem g').mp hg' with hg' | rfl
    · exact ⟨g', hg', rfl, rfl⟩
    · exact absurd hid hfresh

theorem frame_map {f : Group → Group} (hissued : db'.issued = db.issued)
    (hmem : ∀ g', g' ∈ db'.groups ↔ ∃ g ∈ db.groups, f g = g') (hid : ∀ g, (f g).id = g.id)
    (hkind : ∀ g, (f g).systemKind = g.systemKind) : Frame db db' := by
  refine ⟨fun _ hid => hissued ▸ hid, fun g' hg' _ => ?_⟩
  obtain ⟨g, hg, rfl⟩ := (hmem g').mp hg'
  exact ⟨g, hg, (hid g).symm, (hkind g).symm⟩

theorem frame_of_exec (h : exec db e = some db') : Frame db db' := by
  cases exec_wrote h with
  | nothing => exact .refl db
  | newGroup h => exact frame_insertGroup h
  | newSeed h => exact frame_insertGroup h
  | @updated _ u h =>
    obtain ⟨-, -, -, hissued, hmem⟩ := Db.updateGroups_spec h
    exact frame_map hissued hmem u.apply_id u.apply_systemKind
  | @committed _ us h =>
    obtain ⟨-, -, -, hissued, hmem⟩ := Db.updateAll_spec h
    exact frame_map hissued hmem (Db.applyAll_id us) (Db.applyAll_systemKind us)
  | deletedGroup =>
    exact ⟨fun _ hid => hid, fun g hg _ => ⟨g, (Table.mem_delete.mp hg).1, rfl, rfl⟩⟩
  | newMember h =>
    obtain ⟨-, hgroups, -, hissued, -⟩ := Db.insertMember_spec h
    exact .of_eq hgroups hissued
  | deletedMember => exact .of_eq rfl rfl
  | deletedMembers => exact .of_eq rfl rfl
  | newPermission h =>
    obtain ⟨-, hgroups, -, hissued, -⟩ := Db.insertPermission_spec h
    exact .of_eq hgroups hissued
  | deletedPermission => exact .of_eq rfl rfl
  | deletedPermissions => exact .of_eq rfl rfl

/-! ## What a write does to the default -/

theorem OneDefault.of_eq (h : OneDefault db) (hgroups : db'.groups = db.groups) :
    OneDefault db' := by
  unfold OneDefault
  rwa [hgroups]

theorem SameDefault.of_eq (hgroups : db'.groups = db.groups) : SameDefault db db' := by
  intro id
  rw [hgroups]

/-- A new group that is not the default. -/
theorem oneDefault_insertGroup {g : Group} (h : OneDefault db) (hg : g.isDefault = false)
    (hins : db.insertGroup g = some db') : OneDefault db' ∧ SameDefault db db' := by
  obtain ⟨-, -, -, -, -, hmem⟩ := Db.insertGroup_spec hins
  obtain ⟨d, hd, hdef, hadmin, huniq⟩ := h
  have hold : ∀ g' ∈ db'.groups, g'.isDefault = true → g' ∈ db.groups := by
    intro g' hg' hdef'
    rcases (hmem g').mp hg' with hg' | rfl
    · exact hg'
    · rw [hg] at hdef'
      cases hdef'
  refine ⟨⟨d, (hmem d).mpr (.inl hd), hdef, hadmin, fun g' hg' hdef' => ?_⟩, fun id => ⟨?_, ?_⟩⟩
  · exact huniq g' (hold g' hg' hdef') hdef'
  · rintro ⟨g', hg', hid, hdef'⟩
    exact ⟨g', (hmem g').mpr (.inl hg'), hid, hdef'⟩
  · rintro ⟨g', hg', hid, hdef'⟩
    exact ⟨g', hold g' hg' hdef', hid, hdef'⟩

section

variable {f : Group → Group} (hmem : ∀ g', g' ∈ db'.groups ↔ ∃ g ∈ db.groups, f g = g')
  (hkind : ∀ g, (f g).systemKind = g.systemKind)
include hmem hkind

/-- An `UPDATE` that leaves `is_default` alone. -/
theorem oneDefault_map_same (h : OneDefault db) (hdef : ∀ g, (f g).isDefault = g.isDefault) :
    OneDefault db' := by
  obtain ⟨d, hd, hdefault, hadmin, huniq⟩ := h
  refine ⟨f d, (hmem _).mpr ⟨d, hd, rfl⟩, (hdef d).trans hdefault, ?_, fun g' hg' hdef' => ?_⟩
  · rwa [Group.isAdminScope, hkind]
  · obtain ⟨g, hg, rfl⟩ := (hmem g').mp hg'
    rw [huniq g hg ((hdef g).symm.trans hdef')]

/-- An `UPDATE` that makes the group `id` the default. -/
theorem oneDefault_map_id (hdef : ∀ g, (f g).isDefault = (g.id == id)) (hadmin : NotAdmin db id)
    (hfound : ∃ g ∈ db.groups, g.id = id) : OneDefault db' := by
  obtain ⟨d, hd, rfl⟩ := hfound
  refine ⟨f d, (hmem _).mpr ⟨d, hd, rfl⟩, by simp [hdef], ?_, fun g' hg' hdef' => ?_⟩
  · have := hadmin.2 d hd rfl
    rwa [Group.isAdminScope, hkind]
  · obtain ⟨g, hg, rfl⟩ := (hmem g').mp hg'
    rw [Db.group_unique hg hd (by simpa [hdef] using hdef')]

end

/-- A `DELETE` that does not take the default. -/
theorem oneDefault_deleteGroup (h : OneDefault db)
    (hnot : ∀ g ∈ db.groups, g.id = id → g.isDefault = false) : OneDefault (db.deleteGroup id) := by
  obtain ⟨d, hd, hdef, hadmin, huniq⟩ := h
  refine ⟨d, Table.mem_delete.mpr ⟨hd, ?_⟩, hdef, hadmin, fun g' hg' hdef' => ?_⟩
  · by_contra hne
    have := hnot d hd (by simpa using hne)
    rw [hdef] at this
    cases this
  · exact huniq g' (Table.mem_delete.mp hg').1 hdef'

/-- The name of a new row is new. -/
theorem name_ne_of_insertGroup {g g' : Group} (h : db.insertGroup g = some db')
    (hg' : g' ∈ db.groups) : g'.name ≠ g.name := by
  obtain ⟨-, -, -, -, hfresh, hmem⟩ := Db.insertGroup_spec h
  rcases Table.eq_or_compat ((hmem g').mpr (.inl hg')) ((hmem g).mpr (.inr rfl)) with
    rfl | hcompat | hcompat
  · exact absurd (db.group_issued g' hg') hfresh
  · exact hcompat.2
  · exact hcompat.2.symm

theorem notAdmin_insertGroup {g : Group} (h : db.insertGroup g = some db')
    (hadmin : g.isAdminScope = false) : NotAdmin db' g.id := by
  obtain ⟨-, -, -, hissued, hfresh, hmem⟩ := Db.insertGroup_spec h
  refine ⟨hissued ▸ List.mem_cons_self, fun g' hg' hid => ?_⟩
  rcases (hmem g').mp hg' with hg' | rfl
  · exact absurd (hid ▸ db.group_issued g' hg') hfresh
  · exact hadmin

theorem patchUpdates_isDefault (id : Uuid) (name description : Option String) (g : Group) :
    (Db.applyAll (patchUpdates id name description) g).isDefault = g.isDefault := by
  have hstep : ∀ u ∈ patchUpdates id name description, ∀ g, (u.apply g).isDefault = g.isDefault := by
    intro u hu g
    simp only [patchUpdates, List.mem_append, List.mem_map] at hu
    obtain ⟨_, -, rfl⟩ | ⟨_, -, rfl⟩ := hu <;> simp only [GroupUpdate.apply] <;> split_ifs <;> rfl
  generalize patchUpdates id name description = us at hstep
  induction us generalizing g with
  | nil => rfl
  | cons u us ih =>
    exact (ih (u.apply g) fun u' hu' => hstep u' (by simp [hu'])).trans (hstep u (by simp) g)

/-! ## Operations among others -/

/-- The group a request names to put users in. -/
def Op.Names : Op → Uuid → Prop
  | .addMember group _, id => id = group
  | .replaceGroupMembers group _, id => id = group
  | _, _ => False

/-- A statement that changes neither groups' defaults nor adds a member. -/
structure Quiet (db db' : Db) : Prop where
  frame : Frame db db'
  same : SameDefault db db'
  members : ∀ m ∈ db'.members, m ∈ db.members

/-- What a statement of `op` may do. -/
structure Guarantee (op : Op) (db db' : Db) : Prop where
  frame : Frame db db'
  bootstrap : op = .bootstrapGroups → SameDefault db db'
  enrols : ∀ m ∈ db'.members, m ∈ db.members ∨ op.Names m.groupId ∨ NotAdmin db' m.groupId

variable {op : Op}

theorem Quiet.guarantee (h : Quiet db db') : Guarantee op db db' :=
  ⟨h.frame, fun _ => h.same, fun m hm => .inl (h.members m hm)⟩

theorem Guarantee.of_members (hop : op ≠ .bootstrapGroups) (hframe : Frame db db')
    (hmembers : db'.members = db.members) : Guarantee op db db' :=
  ⟨hframe, fun heq => absurd heq hop, fun _ hm => .inl (hmembers ▸ hm)⟩

/-- `p` is a part of `op` that runs among other operations. -/
def Kept {α : Type} (op : Op) (p : Repo α) (db : Db) (P : Db → Except ApiError α → Prop) : Prop :=
  Safe (fun db e db' => exec db e = some db' ∧ Undisturbed db e) OneDefault Frame (Guarantee op)
    p db P

variable {α β : Type} {P : Db → Except ApiError α → Prop}

theorem kept_sql {q : Stmt} {k : q.Answer → Repo α}
    (h : ∀ db₁ a db₂, Frame db db₁ → OneDefault db₁ → exec db₁ ⟨q, a⟩ = some db₂ →
      Undisturbed db₁ ⟨q, a⟩ → (OneDefault db₂ ∧ Guarantee op db₁ db₂) ∧ Kept op (k a) db₂ P) :
    Kept op (sql q >>= k) db P :=
  fun db₁ hframe hI a db₂ hdoes => h db₁ a db₂ hframe hI hdoes.1 hdoes.2

theorem exec_read {q : Stmt} {a : q.Answer} (hq : IsRead q) (h : exec db ⟨q, a⟩ = some db') :
    db' = db := by
  cases exec_wrote h with
  | nothing => rfl
  | _ => exact hq.elim

theorem kept_read {q : Stmt} {k : q.Answer → Repo α} (hq : IsRead q)
    (h : ∀ db₁ a, Frame db db₁ → OneDefault db₁ → exec db₁ ⟨q, a⟩ = some db₁ →
      Kept op (k a) db₁ P) : Kept op (sql q >>= k) db P := by
  refine kept_sql fun db₁ a db₂ hframe hI hexec _ => ?_
  obtain rfl := exec_read hq hexec
  have hquiet : Quiet db₂ db₂ := ⟨.refl _, .of_eq rfl, fun _ hm => hm⟩
  exact ⟨⟨hI, hquiet.guarantee⟩, h db₂ a hframe hI hexec⟩

theorem kept_bind {p : Repo α} {k : α → Repo β} {P' : Db → Except ApiError β → Prop}
    (hI : OneDefault db) (hp : Kept op p db P)
    (hok : ∀ db' a, OneDefault db' → P db' (.ok a) → Kept op (k a) db' P')
    (herr : ∀ db' err, P' db' (.error err)) : Kept op (p >>= k) db P' :=
  safe_bind Frame.refl hI hp hok fun db' err _ _ => herr db' err

variable {Q : Db → α → Prop}

theorem kept_fail {err : ApiError} : Kept op (.fail err) db (Succeeds Q) :=
  safe_fail fun _ _ _ => succeeds_error

theorem kept_pure {a : α} (h : ∀ db', Frame db db' → Q db' a) : Kept op (pure a) db (Succeeds Q) := by
  rintro db' hframe - _ ⟨⟩
  exact h db' hframe

theorem kept_orDbErr {message : String} {r : Except DbError α} :
    Kept op (orDbErr message r) db (Succeeds fun _ _ => True) := by
  cases r with
  | ok a => exact kept_pure fun _ _ => trivial
  | error e => exact kept_fail

theorem kept_orDbErr_bind {message : String} {r : Except DbError β} {k : β → Repo α}
    (h : ∀ a, r = .ok a → Kept op (k a) db (Succeeds Q)) :
    Kept op (orDbErr message r >>= k) db (Succeeds Q) := by
  cases r with
  | ok a => exact h a rfl
  | error e => exact kept_fail

/-! The seeds: `Members` is there, so no default is inserted. -/

theorem quiet_insertSeed {seed : Seed} {a : Except DbError (Option Uuid)} (hI : OneDefault db)
    (hexec : exec db ⟨.insertSeed seed, a⟩ = some db') (hok : Undisturbed db ⟨.insertSeed seed, a⟩) :
    OneDefault db' ∧ Quiet db db' ∧ ∀ id, a = .ok (some id) → seed.isDefault = false := by
  cases exec_wrote hexec with
  | nothing =>
    refine ⟨hI, ⟨.refl db, .of_eq rfl, fun _ hm => hm⟩, ?_⟩
    rintro id rfl
    obtain ⟨-, -, -, -, hfresh, hmem⟩ := Db.insertGroup_spec (show db.insertGroup _ = some db from hexec)
    exact absurd (db.group_issued _ ((hmem _).mpr (.inr rfl))) hfresh
  | @newSeed _ _ id hins =>
    have hnot : seed.isDefault = false := by
      by_contra hdef
      obtain ⟨g, hg, hname⟩ := hok rfl (by simpa using hdef)
      exact name_ne_of_insertGroup hins hg hname
    obtain ⟨hI', hsame⟩ := oneDefault_insertGroup hI (g := seed.toGroup id) hnot hins
    obtain ⟨-, hmembers, -⟩ := Db.insertGroup_spec hins
    exact ⟨hI', ⟨frame_insertGroup hins, hsame, fun _ hm => hmembers ▸ hm⟩, fun _ _ => hnot⟩

theorem kept_ensureGroup {message : String} {seed : Seed} :
    Kept op (ensureGroup message seed) db (Succeeds fun _ _ => True) := by
  refine kept_sql fun db₁ a db₂ _ hI hexec hok => ?_
  obtain ⟨hI', hquiet, hnot⟩ := quiet_insertSeed hI hexec hok
  refine ⟨⟨hI', hquiet.guarantee⟩, kept_orDbErr_bind fun inserted ha => ?_⟩
  rw [if_neg]
  · exact kept_pure fun _ _ => trivial
  · rintro ⟨hsome, hdef⟩
    obtain ⟨id, rfl⟩ := Option.isSome_iff_exists.mp hsome
    rw [hnot id ha] at hdef
    cases hdef

theorem kept_bootstrapGroups {message : String} (hI : OneDefault db) :
    Kept op (bootstrapGroups message) db (Succeeds fun _ _ => True) := by
  refine kept_bind hI kept_ensureGroup (fun _ _ hI _ => ?_) fun _ _ => succeeds_error
  refine kept_bind hI kept_ensureGroup (fun _ _ hI _ => ?_) fun _ _ => succeeds_error
  refine kept_bind hI kept_ensureGroup (fun _ _ hI _ => ?_) fun _ _ => succeeds_error
  exact kept_ensureGroup

/-- There is a default group, so the fallback is not reached. -/
theorem kept_defaultGroupId : Kept op defaultGroupId db (Succeeds NotAdmin) := by
  refine kept_read trivial fun db₁ row hframe hI hexec => kept_orDbErr_bind fun found hrow => ?_
  subst hrow
  obtain ⟨d, hd, hdef, hadmin, huniq⟩ := hI
  cases found with
  | none =>
    have := (exec_findDefault_none hexec).2 d hd
    rw [hdef] at this
    cases this
  | some id =>
    obtain ⟨-, g, hg, rfl, hgdef⟩ := exec_findDefault_some hexec
    obtain rfl := huniq g hg hgdef
    have hnot : NotAdmin db₁ g.id := by
      refine ⟨db₁.group_issued g hg, fun g' hg' hid => ?_⟩
      rwa [Db.group_unique hg' hg hid]
    exact kept_pure fun db' hframe' => hnot.frame hframe'

/-- A group that was found keeps its kind. -/
theorem kept_getGroup {id : Uuid} : Kept op (getGroup id) db
    (Succeeds fun db' g => g.isAdminScope = false → NotAdmin db' id) := by
  refine kept_read trivial fun db₁ row hframe hI hexec => kept_orDbErr_bind fun found hrow => ?_
  subst hrow
  obtain ⟨-, hfound⟩ := exec_getGroup hexec
  cases found with
  | none => exact kept_fail
  | some g =>
    obtain ⟨hg, rfl⟩ := Db.findGroup_eq_some.mp hfound.symm
    refine kept_pure fun db' hframe' hadmin => NotAdmin.frame ?_ hframe'
    refine ⟨db₁.group_issued g hg, fun g' hg' hid => ?_⟩
    rwa [Db.group_unique hg' hg hid]

/-! Writes. -/

theorem guarantee_insertMember {group user : Uuid} {a : Except DbError Unit} (hI : OneDefault db)
    (hop : op ≠ .bootstrapGroups) (hgroup : op.Names group ∨ NotAdmin db group)
    (hexec : exec db ⟨.insertMember group user, a⟩ = some db') :
    OneDefault db' ∧ Guarantee op db db' := by
  have hframe := frame_of_exec hexec
  cases exec_wrote hexec with
  | nothing => exact ⟨hI, .of_members hop hframe rfl⟩
  | newMember hins =>
    obtain ⟨-, hgroups, -, -, hmem⟩ := Db.insertMember_spec hins
    refine ⟨hI.of_eq hgroups, hframe, fun heq => absurd heq hop, fun m hm => ?_⟩
    rcases (hmem m).mp hm with hm | rfl
    · exact .inl hm
    · exact .inr (hgroup.imp_right fun h => h.frame hframe)

theorem guarantee_setDefault {a : Except DbError Unit} (hI : OneDefault db)
    (hop : op ≠ .bootstrapGroups) (hadmin : NotAdmin db id)
    (hexec : exec db ⟨.updateGroups (.setDefault id), a⟩ = some db')
    (hok : Undisturbed db ⟨.updateGroups (.setDefault id), a⟩) :
    OneDefault db' ∧ Guarantee op db db' := by
  have hframe := frame_of_exec hexec
  cases exec_wrote hexec with
  | nothing => exact ⟨hI, .of_members hop hframe rfl⟩
  | updated hup =>
    obtain ⟨-, hmembers, -, -, hmem⟩ := Db.updateGroups_spec hup
    refine ⟨?_, .of_members hop hframe hmembers⟩
    exact oneDefault_map_id hmem (GroupUpdate.apply_systemKind _) (fun _ => rfl) hadmin (hok rfl)

/-- Statements that touch neither groups nor add members. -/
def IsQuiet : Stmt → Prop
  | .deleteMember _ _ | .deleteMembers _ | .insertPermission _ _ | .deletePermission _ _
  | .deletePermissions _ => True
  | q => IsRead q

theorem quiet_of_exec (hq : IsQuiet e.1) (hI : OneDefault db) (hexec : exec db e = some db') :
    OneDefault db' ∧ Quiet db db' := by
  have hframe := frame_of_exec hexec
  cases exec_wrote hexec with
  | nothing => exact ⟨hI, hframe, .of_eq rfl, fun _ hm => hm⟩
  | deletedMember => exact ⟨hI, hframe, .of_eq rfl, fun _ hm => (Table.mem_delete.mp hm).1⟩
  | deletedMembers => exact ⟨hI, hframe, .of_eq rfl, fun _ hm => (Table.mem_delete.mp hm).1⟩
  | newPermission hins =>
    obtain ⟨-, hgroups, hmembers, -, -⟩ := Db.insertPermission_spec hins
    exact ⟨hI.of_eq hgroups, hframe, .of_eq hgroups, fun _ hm => hmembers ▸ hm⟩
  | deletedPermission => exact ⟨hI, hframe, .of_eq rfl, fun _ hm => hm⟩
  | deletedPermissions => exact ⟨hI, hframe, .of_eq rfl, fun _ hm => hm⟩
  | _ => exact hq.elim

/-- A new member of a group that the request names or that is not `admin_scope`. -/
theorem kept_insertMember (hop : op ≠ .bootstrapGroups) {group user : Uuid}
    (hgroup : op.Names group ∨ NotAdmin db group) {k : Except DbError Unit → Repo α}
    (hk : ∀ a db', OneDefault db' → Kept op (k a) db' P) :
    Kept op (sql (.insertMember group user) >>= k) db P := by
  refine kept_sql fun db₁ a db₂ hframe hI hexec _ => ?_
  have hstep := guarantee_insertMember hI hop (hgroup.imp_right fun h => h.frame hframe) hexec
  exact ⟨hstep, hk a db₂ hstep.1⟩

/-! ## Each operation -/

theorem kept_createGroup (hop : op ≠ .bootstrapGroups) (name description : String)
    (isDefault : Option Bool) :
    Kept op (createGroup name description isDefault) db (Succeeds fun _ _ => True) := by
  refine safe_failIf_bind (fun _ _ _ _ => succeeds_error) fun _ => ?_
  refine kept_sql fun db₁ a db₂ _ hI hexec _ => ?_
  have hframe := frame_of_exec hexec
  cases a with
  | error err =>
    obtain rfl := exec_failed hexec rfl
    refine ⟨⟨hI, .of_members hop hframe rfl⟩, ?_⟩
    cases err <;> exact kept_fail
  | ok g =>
    simp only [exec] at hexec
    split_ifs at hexec with hg
    have hins : db₁.insertGroup g = some db₂ := hexec
    have hnot : g.isDefault = false := by rw [hg]
    have hadmin : NotAdmin db₂ g.id := notAdmin_insertGroup hins (by rw [hg]; rfl)
    obtain ⟨-, hmembers, -⟩ := Db.insertGroup_spec hins
    refine ⟨⟨(oneDefault_insertGroup hI hnot hins).1, .of_members hop hframe hmembers⟩, ?_⟩
    show Kept op (if isDefault = some true then _ else _) db₂ _
    split_ifs
    · refine kept_sql fun db₃ a db₄ hframe₃ hI₃ hexec₃ hok₃ => ?_
      have hstep := guarantee_setDefault hI₃ hop (hadmin.frame hframe₃) hexec₃ hok₃
      refine ⟨hstep, kept_orDbErr_bind fun _ _ => ?_⟩
      exact safe_mono kept_getGroup fun _ _ _ _ _ => trivial
    · exact kept_pure fun _ _ => trivial

theorem kept_setDefaultGroup (hop : op ≠ .bootstrapGroups) (hI : OneDefault db) (id : Uuid) :
    Kept op (setDefaultGroup id) db (Succeeds fun _ _ => True) := by
  refine kept_bind hI kept_getGroup (fun db₁ g _ hg => ?_) fun _ _ => succeeds_error
  refine safe_failIf_bind (fun _ _ _ _ => succeeds_error) fun hadmin => ?_
  have hnot : NotAdmin db₁ id := hg g rfl (by simpa using hadmin)
  refine kept_sql fun db₂ a db₃ hframe hI₂ hexec hok => ?_
  exact ⟨guarantee_setDefault hI₂ hop (hnot.frame hframe) hexec hok, kept_orDbErr⟩

/-- A transaction of `patch_group` that does not touch the default. -/
theorem guarantee_patch {id : Uuid} {name description : Option String} {commit : Bool}
    {a : Except DbError Unit} (hI : OneDefault db) (hop : op ≠ .bootstrapGroups)
    (hexec : exec db ⟨.transaction (patchUpdates id name description) commit, a⟩ = some db') :
    OneDefault db' ∧ Guarantee op db db' := by
  have hframe := frame_of_exec hexec
  cases exec_wrote hexec with
  | nothing => exact ⟨hI, .of_members hop hframe rfl⟩
  | committed hup =>
    obtain ⟨-, hmembers, -, -, hmem⟩ := Db.updateAll_spec hup
    refine ⟨?_, .of_members hop hframe hmembers⟩
    exact oneDefault_map_same hmem (Db.applyAll_systemKind _) hI
      (patchUpdates_isDefault id name description)

/-- A transaction of `patch_group` that makes the group the default. -/
theorem guarantee_patch_default {id : Uuid} {us : List GroupUpdate} {a : Except DbError Unit}
    (hI : OneDefault db) (hop : op ≠ .bootstrapGroups) (hadmin : NotAdmin db id)
    (hexec : exec db ⟨.transaction (us ++ [.setDefault id]) true, a⟩ = some db')
    (hok : Undisturbed db ⟨.transaction (us ++ [.setDefault id]) true, a⟩) :
    OneDefault db' ∧ Guarantee op db db' := by
  have hframe := frame_of_exec hexec
  cases exec_wrote hexec with
  | nothing => exact ⟨hI, .of_members hop hframe rfl⟩
  | committed hup =>
    obtain ⟨-, hmembers, -, -, hmem⟩ := Db.updateAll_spec hup
    refine ⟨?_, .of_members hop hframe hmembers⟩
    refine oneDefault_map_id hmem (Db.applyAll_systemKind _) (fun g => ?_) hadmin
      (hok rfl rfl (.setDefault id) (by simp))
    have hlast : Db.applyAll (us ++ [.setDefault id]) g =
        GroupUpdate.apply (.setDefault id) (Db.applyAll us g) := by
      simp [Db.applyAll]
    rw [hlast]
    simp [GroupUpdate.apply]

theorem kept_patchGroup (hop : op ≠ .bootstrapGroups) (hI : OneDefault db) (id : Uuid)
    (name description : Option String) (isDefault : Option Bool) :
    Kept op (patchGroup id name description isDefault) db (Succeeds fun _ _ => True) := by
  refine kept_bind hI kept_getGroup (fun db₁ g _ hg => ?_) fun _ _ => succeeds_error
  have hread : ∀ db, Kept op (getGroup id) db (Succeeds fun _ _ => True) :=
    fun _ => safe_mono kept_getGroup fun _ _ _ _ _ => trivial
  dsimp only
  split_ifs with _ hadmin
  · refine kept_sql fun db₂ a db₃ _ hI₂ hexec _ => ⟨guarantee_patch hI₂ hop hexec, ?_⟩
    exact kept_orDbErr_bind fun _ _ => kept_fail
  · have hnot : NotAdmin db₁ id := hg g rfl (by simpa using hadmin)
    refine kept_sql fun db₂ a db₃ hframe hI₂ hexec hok => ⟨?_, ?_⟩
    · exact guarantee_patch_default hI₂ hop (hnot.frame hframe) hexec hok
    · exact kept_orDbErr_bind fun _ _ => hread db₃
  · refine kept_sql fun db₂ a db₃ _ hI₂ hexec _ => ⟨guarantee_patch hI₂ hop hexec, ?_⟩
    exact kept_orDbErr_bind fun _ _ => hread db₃

theorem kept_deleteGroup (hop : op ≠ .bootstrapGroups) (hI : OneDefault db) (id : Uuid) :
    Kept op (deleteGroup id) db (Succeeds fun _ _ => True) := by
  refine kept_bind hI kept_getGroup (fun db₁ g _ _ => ?_) fun _ _ => succeeds_error
  refine safe_failIf_bind (fun _ _ _ _ => succeeds_error) fun _ => ?_
  refine safe_failIf_bind (fun _ _ _ _ => succeeds_error) fun _ => ?_
  refine kept_sql fun db₂ a db₃ _ hI₂ hexec hok => ⟨?_, kept_orDbErr⟩
  have hframe := frame_of_exec hexec
  cases exec_wrote hexec with
  | nothing => exact ⟨hI₂, .of_members hop hframe rfl⟩
  | deletedGroup =>
    refine ⟨oneDefault_deleteGroup hI₂ (hok rfl), hframe, fun heq => absurd heq hop, fun m hm => ?_⟩
    exact .inl (Table.mem_delete.mp hm).1

theorem kept_ensureUserInDefaultGroup (hop : op ≠ .bootstrapGroups) (user : Uuid) :
    Kept op (ensureUserInDefaultGroup user) db (Succeeds fun _ _ => True) := by
  refine kept_read trivial fun db₁ a _ hI _ => kept_orDbErr_bind fun found _ => ?_
  split_ifs
  · exact kept_pure fun _ _ => trivial
  · refine kept_bind hI kept_defaultGroupId (fun db₂ group _ hgroup => ?_) fun _ _ => succeeds_error
    exact kept_insertMember hop (.inr (hgroup group rfl)) fun _ _ _ => kept_orDbErr

theorem kept_ensureUserNotOrphaned (hop : op ≠ .bootstrapGroups) (user : Uuid) :
    Kept op (ensureUserNotOrphaned user) db (Succeeds fun _ _ => True) := by
  refine kept_read trivial fun db₁ a _ hI _ => kept_orDbErr_bind fun count _ => ?_
  split_ifs
  · refine kept_bind hI kept_defaultGroupId (fun db₂ group _ hgroup => ?_) fun _ _ => succeeds_error
    exact kept_insertMember hop (.inr (hgroup group rfl)) fun _ _ _ => kept_orDbErr
  · exact kept_pure fun _ _ => trivial

theorem kept_insertMembers (hop : op ≠ .bootstrapGroups) {group : Uuid} (hgroup : op.Names group)
    (users : List Uuid) : Kept op (insertMembers group users) db (Succeeds fun _ _ => True) := by
  induction users generalizing db with
  | nil => exact kept_pure fun _ _ => trivial
  | cons user users ih =>
    exact kept_insertMember hop (.inl hgroup) fun _ _ _ => kept_orDbErr_bind fun _ _ => ih

theorem kept_rehome (hop : op ≠ .bootstrapGroups) (hI : OneDefault db) (users : List Uuid) :
    Kept op (rehome users) db (Succeeds fun _ _ => True) := by
  induction users generalizing db with
  | nil => exact kept_pure fun _ _ => trivial
  | cons user users ih =>
    exact kept_bind hI (kept_ensureUserNotOrphaned hop user) (fun _ _ hI _ => ih hI)
      fun _ _ => succeeds_error

/-- A statement that is quiet, then the rest. -/
theorem kept_quiet {q : Stmt} {k : q.Answer → Repo α} (hq : IsQuiet q)
    (hk : ∀ a db', OneDefault db' → Kept op (k a) db' P) : Kept op (sql q >>= k) db P := by
  refine kept_sql fun db₁ a db₂ _ hI hexec _ => ?_
  obtain ⟨hI₂, hquiet⟩ := quiet_of_exec hq hI hexec
  exact ⟨⟨hI₂, hquiet.guarantee⟩, hk a db₂ hI₂⟩

theorem kept_removeMember (hop : op ≠ .bootstrapGroups) (group user : Uuid) :
    Kept op (removeMember group user) db (Succeeds fun _ _ => True) :=
  kept_quiet trivial fun _ _ _ => kept_orDbErr_bind fun _ _ => kept_ensureUserNotOrphaned hop user

theorem kept_replaceGroupMembers (hop : op ≠ .bootstrapGroups) {group : Uuid}
    (hgroup : op.Names group) (users : List Uuid) :
    Kept op (replaceGroupMembers group users) db (Succeeds fun _ _ => True) := by
  refine kept_quiet trivial fun _ _ _ => kept_orDbErr_bind fun existing _ => ?_
  refine kept_quiet trivial fun _ db₁ hI => kept_orDbErr_bind fun _ _ => ?_
  refine kept_bind hI (kept_insertMembers hop hgroup users) (fun db₂ _ hI _ => ?_)
    fun _ _ => succeeds_error
  exact kept_rehome hop hI _

theorem kept_accountRole (hop : op ≠ .bootstrapGroups) (hI : OneDefault db) (target : RoleTarget)
    (user : Uuid) : Kept op (accountRole target user) db (Succeeds fun _ _ => True) := by
  refine kept_bind (P := Succeeds fun db' row => ∀ g, row = .ok (some g) →
      g.isAdminScope = false → NotAdmin db' g.id) hI ?_ (fun db₁ row hI₁ hrow => ?_)
    fun _ _ => succeeds_error
  · have hfound : ∀ {db₁ db₂ : Db} {g : Group}, g ∈ db₁.groups → Frame db₁ db₂ →
        g.isAdminScope = false → NotAdmin db₂ g.id := by
      intro db₁ db₂ g hg hframe hadmin
      refine NotAdmin.frame ⟨db₁.group_issued g hg, fun g' hg' hid => ?_⟩ hframe
      rwa [Db.group_unique hg' hg hid]
    cases target with
    | byId id =>
      refine kept_read (k := pure) trivial fun db₁ a _ _ hexec => kept_pure ?_
      rintro db₂ hframe g rfl
      exact hfound (Db.findGroup_eq_some.mp (exec_getGroup hexec).2.symm).1 hframe
    | byName name =>
      refine kept_read (k := pure) trivial fun db₁ a _ _ hexec => kept_pure ?_
      rintro db₂ hframe g rfl
      exact hfound (List.mem_of_find?_eq_some (exec_findByName hexec).2.symm) hframe
  · cases row with
    | error err => exact kept_fail
    | ok found =>
      refine safe_ofOption_bind (fun _ _ _ _ => succeeds_error) fun g hg => ?_
      refine safe_failIf_bind (fun _ _ _ _ => succeeds_error) fun hadmin => ?_
      rw [not_or] at hadmin
      subst hg
      have hnot : NotAdmin db₁ g.id := hrow _ rfl g rfl (by simpa using hadmin.1)
      refine kept_insertMember hop (.inr hnot) fun a _ _ => ?_
      cases a with
      | ok u => exact kept_pure fun _ _ => trivial
      | error err => exact kept_fail

/-- What an operation returns: `default_group_id` returns no `admin_scope` group. -/
def Returned (op : Op) (db : Db) (r : Except ApiError Reply) : Prop :=
  op = .defaultGroupId → ∀ id, r = .ok (.groupId id) → NotAdmin db id

/-- The three operations on permissions. -/
def Op.OnPermissions : Op → Prop
  | .addPermission _ _ | .removePermission _ _ | .replaceGroupPermissions _ _ => True
  | _ => False

theorem isQuiet_of_asks {q : Stmt} (hop : op.OnPermissions) (hq : op.Asks q) : IsQuiet q := by
  rcases hq with hread | hwrites
  · cases q <;> first | exact hread | exact hread.elim
  · cases op with
    | addPermission group permission => obtain ⟨rfl, -⟩ := hwrites; trivial
    | removePermission group permission => obtain rfl := hwrites; trivial
    | replaceGroupPermissions group permissions =>
      obtain rfl | ⟨p, -, rfl, -⟩ := hwrites <;> trivial
    | _ => exact hop.elim

/-- Every operation among others. -/
theorem kept_program (hI : OneDefault db) (op : Op) :
    Kept op op.program db (Returned op) := by
  have hdone : ∀ {β : Type} {f : β → Reply} {p : Repo β}, op ≠ .defaultGroupId →
      Kept op p db (Succeeds fun _ _ => True) → Kept op (f <$> p) db (Returned op) :=
    fun hne hp => safe_bind Frame.refl hI hp (fun _ _ _ _ _ _ _ heq => absurd heq hne)
      fun _ _ _ _ heq => absurd heq hne
  cases op with
  | createGroup name description isDefault =>
    exact hdone (by nofun) (kept_createGroup (by nofun) name description isDefault)
  | patchGroup id name description isDefault =>
    exact hdone (by nofun) (kept_patchGroup (by nofun) hI id name description isDefault)
  | setDefaultGroup id => exact hdone (by nofun) (kept_setDefaultGroup (by nofun) hI id)
  | deleteGroup id => exact hdone (by nofun) (kept_deleteGroup (by nofun) hI id)
  | addMember group user =>
    exact hdone (by nofun) (kept_insertMember (by nofun) (.inl (by rfl)) fun _ _ _ => kept_orDbErr)
  | removeMember group user => exact hdone (by nofun) (kept_removeMember (by nofun) group user)
  | replaceGroupMembers group users =>
    exact hdone (by nofun) (kept_replaceGroupMembers (by nofun) (by rfl) users)
  | bootstrapGroups => exact hdone (by nofun) (kept_bootstrapGroups hI)
  | defaultGroupId =>
    refine safe_bind Frame.refl hI kept_defaultGroupId ?_ fun _ _ _ _ _ _ => nofun
    rintro db₁ id _ hid db₂ hframe - - _ ⟨⟩
    exact (hid id rfl).frame hframe
  | ensureUserInDefaultGroup user => exact hdone (by nofun) (kept_ensureUserInDefaultGroup (by nofun) user)
  | accountRole target user => exact hdone (by nofun) (kept_accountRole (by nofun) hI target user)
  | _ =>
    -- the operations on permissions
    refine safe_mono (safe_of_wp (wp_program _) fun db e db' hasks hI hdoes => ?_)
      fun _ _ _ heq => nomatch heq
    obtain ⟨hI', hquiet⟩ := quiet_of_exec (isQuiet_of_asks (by trivial) hasks) hI hdoes.1
    exact ⟨hI', hquiet.guarantee⟩

/-! ## The first bootstrap -/

/-- No group is the default or called `Members`. -/
def NoMembers (db : Db) : Prop := ∀ g ∈ db.groups, g.isDefault = false ∧ g.name ≠ members.name

/-- A seed other than `Members`. -/
theorem starts_ensureGroup {message : String} {seed : Seed} (h : NoMembers db)
    (hdef : seed.isDefault = false) (hname : seed.name ≠ members.name) :
    Starts (ensureGroup message seed) db (Succeeds fun db' _ => NoMembers db') := by
  refine starts_sql fun a db₁ hexec => ?_
  have h₁ : NoMembers db₁ := by
    cases exec_wrote hexec with
    | nothing => exact h
    | newSeed hins =>
      obtain ⟨-, -, -, -, -, hmem⟩ := Db.insertGroup_spec hins
      intro g hg
      rcases (hmem g).mp hg with hg | rfl
      · exact h g hg
      · exact ⟨hdef, hname⟩
  cases a with
  | error err => exact starts_fail
  | ok inserted =>
    rw [orDbErr_ok, if_neg]
    · exact starts_pure h₁
    · simp [hdef]

/-- `Members` is new, and the `UPDATE` makes it the only default. -/
theorem starts_members {message : String} (h : NoMembers db) :
    Starts (ensureGroup message members) db (Succeeds fun db' _ => OneDefault db') := by
  refine starts_sql fun a db₁ hexec => ?_
  cases a with
  | error err => exact starts_fail
  | ok inserted =>
    cases inserted with
    | none =>
      simp only [exec] at hexec
      split_ifs at hexec with hany
      obtain ⟨g, hg, hname⟩ := List.any_eq_true.mp hany
      exact absurd (beq_iff_eq.mp hname) (h g hg).2
    | some id =>
      obtain ⟨-, -, -, -, -, hmem⟩ := Db.insertGroup_spec (show db.insertGroup _ = some db₁ from hexec)
      rw [orDbErr_ok, if_pos ⟨rfl, rfl⟩]
      refine starts_sql fun a db₂ hexec₂ => ?_
      cases a with
      | error err => exact starts_fail
      | ok u =>
        obtain ⟨-, -, -, -, hmem₂⟩ :=
          Db.updateGroups_spec (show db₁.updateGroups _ = some db₂ from hexec₂)
        refine starts_pure ⟨members.toGroup id, (hmem₂ _).mpr ⟨_, (hmem _).mpr (.inr rfl), ?_⟩, rfl,
          rfl, fun g' hg' hdef => ?_⟩
        · simp [GroupUpdate.apply, Seed.toGroup, members]
        · obtain ⟨g, hg, rfl⟩ := (hmem₂ g').mp hg'
          rcases (hmem g).mp hg with hg | rfl
          · exact absurd (by simpa [GroupUpdate.apply] using hdef) (h g hg).2
          · simp [GroupUpdate.apply, Seed.toGroup, members]

theorem starts_bootstrapGroups {message : String} (h : NoMembers db) :
    Starts (bootstrapGroups message) db (Succeeds fun db' _ => OneDefault db') := by
  refine starts_bind (starts_ensureGroup h rfl (by decide)) fun db₁ _ h₁ => ?_
  refine starts_bind (starts_ensureGroup h₁ rfl (by decide)) fun db₂ _ h₂ => ?_
  refine starts_bind (starts_ensureGroup h₂ rfl (by decide)) fun db₃ _ h₃ => ?_
  exact starts_members h₃

/-- After the first `bootstrap_groups` on empty tables. -/
theorem oneDefault_of_bootstrap {db₀ : Db} {message : String} {h : History Stmt Stmt.Answer}
    (hempty : db₀.groups.rows = []) (hends : (bootstrapGroups message).Ends h (.ok ()))
    (hdb : execAll exec db₀ h = some db) : OneDefault db := by
  have hno : NoMembers db₀ := by
    intro g hg
    rw [Table.mem_def, hempty] at hg
    cases hg
  exact (starts_bootstrapGroups hno).execAll hends hdb () rfl

/-! ## Every interleaving -/

/-- **One default group**, in every state that operations reach after the first
    `bootstrap_groups`, however their statements interleave, as long as these are
    undisturbed. `default_group_id` has returned no `admin_scope` group; a further
    `bootstrap_groups` does not change the default; and no operation puts anybody
    into an `admin_scope` group that its request does not name. -/
theorem default_group_kept {db₀ db : Db} {h : History Stmt Stmt.Answer}
    (hempty : db₀.groups.rows = []) (hends : (bootstrapGroups "group not found").Ends h (.ok ()))
    (hdb : execAll exec db₀ h = some db) {p : Pool Stmt Stmt.Answer Db Op ApiError Reply}
    (hrun : Reaches (Pool.step exec Op.program) (Pool.Ok (fun _ _ => True) fun _ => Undisturbed)
      ⟨db, []⟩ p) :
    OneDefault p.store ∧
      (∀ id, (.defaultGroupId, .done (.ok (.groupId id))) ∈ p.threads → NotAdmin p.store id) ∧
      ∀ i op rest e p', p.threads[i]? = some (op, rest) → Undisturbed p.store e →
        p.step exec Op.program (.answer i e) = some p' →
          (op = .bootstrapGroups → SameDefault p.store p'.store) ∧
            ∀ m ∈ p'.store.members, m ∈ p.store.members ∨ op.Names m.groupId ∨
              NotAdmin p'.store m.groupId := by
  obtain ⟨hI, hthreads⟩ : OneDefault p.store ∧
      ∀ t ∈ p.threads, Safe (fun db e db' => exec db e = some db' ∧ Undisturbed db e)
        OneDefault Frame (Guarantee t.1) t.2 p.store (Returned t.1) :=
    Pool.safe Frame.refl (fun hab hbc => hab.trans hbc) (fun _ _ _ hg => hg.frame)
      (fun db op hI _ => kept_program hI op) (oneDefault_of_bootstrap hempty hends hdb) rfl hrun
  refine ⟨hI, fun id hid => ?_, fun i op rest e p' hi hok hstep => ?_⟩
  · exact hthreads _ hid p.store (.refl _) hI rfl id rfl
  · have hguar : Guarantee op p.store p'.store := by
      refine Pool.guarantee (E := fun _ => Undisturbed) Frame.refl hI hthreads hi ?_ hstep
      exact hok
    exact ⟨hguar.bootstrap, hguar.enrols⟩

/-- The statements of the first `bootstrap_groups`: `Members` gets the id 4. -/
def firstBootstrap : History Stmt Stmt.Answer :=
  [⟨.insertSeed administrators, .ok (some 1)⟩, ⟨.insertSeed moderators, .ok (some 2)⟩,
    ⟨.insertSeed developers, .ok (some 3)⟩, ⟨.insertSeed members, .ok (some 4)⟩,
    ⟨.updateGroups (.setDefaultByName "Members"), .ok ()⟩]

/-- The user 1 is enrolled while `Moderators` is made the default. -/
def enrolWhileSwitching : List (Label Stmt Stmt.Answer Op) :=
  [.spawn (.ensureUserInDefaultGroup 1), .spawn (.setDefaultGroup 2),
    .answer 0 ⟨.hasMembership 1, .ok false⟩, .answer 0 ⟨.findDefault, .ok (some 4)⟩,
    .answer 1 ⟨.getGroup 2, .ok (some (moderators.toGroup 2))⟩,
    .answer 1 ⟨.updateGroups (.setDefault 2), .ok ()⟩, .answer 0 ⟨.insertMember 4 1, .ok ()⟩]

theorem default_group_kept_enrol :
    ∃ db p, execAll exec (.fresh [1]) firstBootstrap = some db ∧
      Reaches (Pool.step exec Op.program) (Pool.Ok (fun _ _ => True) fun _ => Undisturbed) ⟨db, []⟩ p ∧
      p.store.members.rows = [⟨4, 1⟩] ∧ OneDefault p.store := by
  have hrun : ((execAll exec (.fresh [1]) firstBootstrap).any fun db =>
      (runWhile (Pool.step exec Op.program)
        (fun p l => decide (p.Ok (fun _ _ => True) (fun _ => Undisturbed) l)) ⟨db, []⟩ enrolWhileSwitching).any
          fun p => decide (p.store.members.rows = [⟨4, 1⟩])) = true := by decide +kernel
  obtain ⟨db, hdb, hrun⟩ := (Option.any_eq_true _ _).mp hrun
  obtain ⟨p, hp, hmembers⟩ := exists_reaches_of_runWhile (fun _ _ h => of_decide_eq_true h) hrun
  have hends : (bootstrapGroups "group not found").Ends firstBootstrap (.ok ()) := rfl
  exact ⟨db, p, hdb, hp, of_decide_eq_true hmembers, (default_group_kept rfl hends hdb hp).1⟩

/-- `Members` is renamed; then the server starts again. -/
def renameAndRestart : List (Label Stmt Stmt.Answer Op) :=
  [.spawn (.patchGroup 4 (some "Users") none none),
    .answer 0 ⟨.getGroup 4, .ok (some (members.toGroup 4))⟩,
    .answer 0 ⟨.transaction [.setName 4 "Users"] true, .ok ()⟩,
    .answer 0 ⟨.getGroup 4, .ok (some ⟨4, "Users", "默认成员组", none, true, true⟩)⟩,
    .spawn .bootstrapGroups, .answer 1 ⟨.insertSeed administrators, .ok none⟩,
    .answer 1 ⟨.insertSeed moderators, .ok none⟩, .answer 1 ⟨.insertSeed developers, .ok none⟩,
    .answer 1 ⟨.insertSeed members, .ok (some 5)⟩]

/-- A second `Members` is inserted, so that two groups are the default, and then the
    default is no longer the group 4. -/
theorem not_default_group_kept_rename :
    (bootstrapGroups "group not found").Ends firstBootstrap (.ok ()) ∧
      ((execAll exec (.fresh [1]) firstBootstrap).any fun db =>
        ((runFrom (Pool.step exec Op.program) ⟨db, []⟩ renameAndRestart).any fun p =>
          decide (¬ OneDefault p.store)) &&
        ((runFrom (Pool.step exec Op.program) ⟨db, []⟩ (renameAndRestart ++
          [.answer 1 ⟨.updateGroups (.setDefaultByName "Members"), .ok ()⟩])).any fun p =>
            (p.store.groups.rows.filter (·.isDefault)).map (·.id) == [5])) = true :=
  ⟨rfl, by decide +kernel⟩

end Ppb.Groups
