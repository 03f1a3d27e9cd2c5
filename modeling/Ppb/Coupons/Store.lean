import Ppb.Common.Json
import Ppb.Common.Transactions
import Ppb.Groups.Store
import Ppb.Server.Sql

/-!
# The tables of the redemption codes (migrations/0003, 0011)

The coupons and their redemptions, and what a redemption can write besides: the status of
a user, the members of a group, a task for the administrators, a notification.

`does db e` says what a statement and its answer do; `Ppb.Common.Transactions` says when it
takes effect. `SELECT … FOR UPDATE` takes the lock of the row of a coupon, and so do the
statements that update it. Any statement may fail, a commit too, and then does nothing. Outside the
model: foreign keys, and that a transaction sees its own writes (no statement here reads
what its own transaction has written).
-/

namespace Ppb.Coupons

open Transactions

/-! ## Rows -/

structure Coupon where
  id : Uuid
  code : String
  actionType : String
  payload : Json
  maxUses : Int32
  usedCount : Int32
  createdBy : Option Uuid
  holderMode : String
  holderUserId : Option Uuid
  note : String
  expiresAt : Option ℕ
  createdAt : ℕ
  revokedAt : Option ℕ
  deriving DecidableEq

/-- A row of `coupon_redemptions`. -/
structure Redemption where
  couponId : Uuid
  userId : Uuid
  actionType : String
  result : Json
  redeemedAt : ℕ
  deriving DecidableEq

/-- A row of `admin_tasks` whose source is a coupon. -/
structure AdminTask where
  id : Uuid
  sourceId : Uuid
  taskType : String
  payload : Json
  deriving DecidableEq

/-- A row of `notification_events` of the type `redemption.completed`. -/
structure NotificationEvent where
  id : Uuid
  payload : Json
  deriving DecidableEq

/-- A row of `users` with its status. -/
structure UserRow where
  user : User
  status : String
  deriving DecidableEq

/-- `PRIMARY KEY (id)` and `UNIQUE (code)` of `coupons`. -/
def CouponKeys (a b : Coupon) : Prop := a.id ≠ b.id ∧ a.code ≠ b.code

instance : DecidableRel CouponKeys := fun a b =>
  inferInstanceAs (Decidable (a.id ≠ b.id ∧ a.code ≠ b.code))

/-- `UNIQUE (coupon_id, user_id)` of `coupon_redemptions`. -/
def RedemptionKeys (a b : Redemption) : Prop := (a.couponId, a.userId) ≠ (b.couponId, b.userId)

instance : DecidableRel RedemptionKeys := fun a b =>
  inferInstanceAs (Decidable ((a.couponId, a.userId) ≠ (b.couponId, b.userId)))

structure Db where
  users : List UserRow
  groups : List Groups.Group
  members : List Groups.GroupMember
  coupons : Table Coupon CouponKeys
  redemptions : Table Redemption RedemptionKeys
  tasks : List AdminTask
  events : List NotificationEvent
  /-- the events and users of `user_notifications` -/
  notifications : List (Uuid × Uuid)

/-- No redemption codes yet. -/
def Db.new (users : List UserRow) (groups : List Groups.Group) (members : List Groups.GroupMember) :
    Db := ⟨users, groups, members, .empty, .empty, [], [], []⟩

/-! ## Writes -/

inductive Write where
  | addCoupon (coupon : Coupon)
  | revoke (coupon : Uuid) (now : ℕ)
  /-- `UPDATE users SET status='active'` -/
  | activate (user : Uuid)
  /-- `INSERT INTO group_members … ON CONFLICT DO NOTHING` -/
  | addMember (group user : Uuid)
  | addTask (task : AdminTask)
  | addEvent (event : NotificationEvent)
  /-- `INSERT INTO user_notifications … ON CONFLICT DO NOTHING` -/
  | notify (event user : Uuid)
  /-- `UPDATE coupons SET used_count=used_count+1` -/
  | countUse (coupon : Uuid)
  | addRedemption (redemption : Redemption)
  deriving DecidableEq

namespace Db

/-- The row of a coupon. -/
def coupon (db : Db) (id : Uuid) : Option Coupon := db.coupons.rows.find? (·.id == id)

/-- `… WHERE code=$1`. -/
def couponByCode (db : Db) (code : String) : Option Coupon := db.coupons.rows.find? (·.code == code)

/-- A coupon that a revocation would find. -/
def unrevoked (db : Db) (id : Uuid) : Bool :=
  db.coupons.rows.any fun c => c.id == id && c.revokedAt.isNone

/-- `UPDATE coupons SET … WHERE p`. -/
def updateCoupons (db : Db) (p : Coupon → Bool) (f : Coupon → Coupon) : Option Db :=
  (db.coupons.update p f).map fun coupons => { db with coupons := coupons }

/-- The increment fails if it does not fit into an `INTEGER`. -/
def countUse (db : Db) (id : Uuid) : Option Db :=
  if db.coupons.rows.any fun c => c.id == id && c.usedCount == Int32.maxValue then none
  else db.updateCoupons (·.id == id) fun c => { c with usedCount := c.usedCount + 1 }

/-- What a write does; `none` if it would violate a constraint. -/
def apply (db : Db) : Write → Option Db
  | .addCoupon coupon =>
    (db.coupons.insert coupon).map fun coupons => { db with coupons := coupons }
  | .revoke id now => db.updateCoupons (fun c => c.id == id && c.revokedAt.isNone)
      fun c => { c with revokedAt := some now }
  | .activate user => some { db with
      users := db.users.map fun u => if u.user.id = user then { u with status := "active" } else u }
  | .addMember group user => some { db with members := db.members.insert ⟨group, user⟩ }
  | .addTask task => some { db with tasks := db.tasks ++ [task] }
  | .addEvent event => some { db with events := db.events ++ [event] }
  | .notify event user => some { db with notifications := db.notifications.insert (event, user) }
  | .countUse id => db.countUse id
  | .addRedemption redemption =>
    (db.redemptions.insert redemption).map fun redemptions => { db with redemptions := redemptions }

/-- What no write undoes: the groups stay, and so do the redemptions; a coupon keeps its holder, and
    stays revoked. -/
structure Later (db db' : Db) : Prop where
  groups : db'.groups = db.groups
  redemptions : ∀ r ∈ db.redemptions, r ∈ db'.redemptions
  coupons : ∀ c ∈ db.coupons, ∃ c' ∈ db'.coupons, c'.id = c.id ∧ c'.holderUserId = c.holderUserId ∧
    (c.revokedAt.isSome = true → c'.revokedAt.isSome = true)

end Db

/-- The coupons a write changes. -/
def Write.touches : Write → List Uuid
  | .addCoupon coupon => [coupon.id]
  | .revoke id _ | .countUse id => [id]
  | _ => []

variable {db db' : Db} {w : Write}

theorem later_updateCoupons {p : Coupon → Bool} {f : Coupon → Coupon}
    (h : db.updateCoupons p f = some db') (hid : ∀ c, (f c).id = c.id)
    (hholder : ∀ c, (f c).holderUserId = c.holderUserId)
    (hrevoked : ∀ c, c.revokedAt.isSome = true → (f c).revokedAt.isSome = true) :
    db.Later db' := by
  obtain ⟨coupons, hupdate, rfl⟩ := Option.map_eq_some_iff.mp h
  refine ⟨rfl, fun r hr => hr, fun c hc => ?_⟩
  refine ⟨if p c then f c else c, (Table.mem_update hupdate).mpr ⟨c, hc, rfl⟩, ?_⟩
  split_ifs
  · exact ⟨hid c, hholder c, hrevoked c⟩
  · exact ⟨rfl, rfl, fun h => h⟩

theorem later_of_tables (hgroups : db'.groups = db.groups) (hcoupons : db'.coupons = db.coupons)
    (hredemptions : db'.redemptions = db.redemptions) : db.Later db' :=
  ⟨hgroups, fun _ hr => hredemptions ▸ hr, fun c hc => ⟨c, hcoupons ▸ hc, rfl, rfl, fun h => h⟩⟩

theorem later_apply (h : db.apply w = some db') : db.Later db' := by
  cases w with
  | addCoupon coupon =>
    obtain ⟨coupons, hinsert, rfl⟩ := Option.map_eq_some_iff.mp h
    refine ⟨rfl, fun r hr => hr, fun c hc => ⟨c, (Table.mem_insert hinsert).mpr (.inl hc), ?_⟩⟩
    exact ⟨rfl, rfl, fun h => h⟩
  | revoke id now =>
    exact later_updateCoupons h (fun _ => rfl) (fun _ => rfl) fun _ _ => rfl
  | countUse id =>
    simp only [Db.apply, Db.countUse] at h
    split_ifs at h
    exact later_updateCoupons h (fun _ => rfl) (fun _ => rfl) fun _ h => h
  | addRedemption redemption =>
    obtain ⟨redemptions, hinsert, rfl⟩ := Option.map_eq_some_iff.mp h
    refine ⟨rfl, fun r hr => (Table.mem_insert hinsert).mpr (.inl hr), fun c hc => ⟨c, hc, ?_⟩⟩
    exact ⟨rfl, rfl, fun h => h⟩
  | activate _ | addMember _ _ | addTask _ | addEvent _ | notify _ _ =>
    obtain rfl := Option.some.inj h
    exact later_of_tables rfl rfl rfl

/-- An update of other rows leaves the row of a coupon. -/
theorem coupon_updateCoupons {p : Coupon → Bool} {f : Coupon → Coupon} {k : Uuid}
    (h : db.updateCoupons p f = some db') (hid : ∀ c, (f c).id = c.id)
    (hp : ∀ c, p c = true → c.id ≠ k) : db'.coupon k = db.coupon k := by
  obtain ⟨coupons, hupdate, rfl⟩ := Option.map_eq_some_iff.mp h
  have hrows : coupons.rows = db.coupons.rows.map fun c => if p c then f c else c :=
    Table.commit_eq_some.mp hupdate
  show coupons.rows.find? _ = db.coupons.rows.find? _
  rw [hrows, List.find?_map]
  have hkey : (fun c : Coupon => c.id == k) ∘ (fun c => if p c then f c else c) =
      fun c => c.id == k := by
    funext c
    show ((if p c then f c else c).id == k) = (c.id == k)
    split_ifs
    · rw [hid]
    · rfl
  rw [hkey]
  cases hfind : db.coupons.rows.find? (fun c => c.id == k) with
  | none => rfl
  | some c =>
    have hk : c.id = k := by simpa using List.find?_some hfind
    have hnot : ¬ p c = true := fun hpc => hp c hpc hk
    show some (if p c then f c else c) = some c
    rw [if_neg hnot]

theorem coupon_apply {k : Uuid} (h : db.apply w = some db') (hk : k ∉ w.touches) :
    db'.coupon k = db.coupon k := by
  cases w with
  | addCoupon coupon =>
    obtain ⟨coupons, hinsert, rfl⟩ := Option.map_eq_some_iff.mp h
    have hrows : coupons.rows = db.coupons.rows ++ [coupon] := Table.commit_eq_some.mp hinsert
    have hne : coupon.id ≠ k := fun hid => hk (hid ▸ List.mem_cons_self)
    show coupons.rows.find? _ = db.coupons.rows.find? _
    rw [hrows, List.find?_append]
    simp [hne]
  | revoke id now =>
    have hne : id ≠ k := fun hid => hk (hid ▸ List.mem_cons_self)
    refine coupon_updateCoupons h (fun _ => rfl) fun c hc => ?_
    have hid : c.id = id := by simpa using (Bool.and_eq_true_iff.mp hc).1
    rw [hid]
    exact hne
  | countUse id =>
    have hne : id ≠ k := fun hid => hk (hid ▸ List.mem_cons_self)
    simp only [Db.apply, Db.countUse] at h
    split_ifs at h
    refine coupon_updateCoupons h (fun _ => rfl) fun c hc => ?_
    have hid : c.id = id := by simpa using hc
    rw [hid]
    exact hne
  | addRedemption redemption =>
    obtain ⟨redemptions, hinsert, rfl⟩ := Option.map_eq_some_iff.mp h
    rfl
  | activate _ | addMember _ _ | addTask _ | addEvent _ | notify _ _ =>
    obtain rfl := Option.some.inj h
    rfl

/-- The tables, with the rows of the coupons as those that are locked. -/
def tables : Tables Db Write Uuid (Option Coupon) where
  apply := Db.apply
  touches := Write.touches
  row := Db.coupon
  Later := Db.Later
  refl _ := later_of_tables rfl rfl rfl
  trans h h' := by
    refine ⟨h'.groups.trans h.groups, fun r hr => h'.redemptions r (h.redemptions r hr),
      fun c hc => ?_⟩
    obtain ⟨c₁, hc₁, hid₁, hholder₁, hrevoked₁⟩ := h.coupons c hc
    obtain ⟨c₂, hc₂, hid₂, hholder₂, hrevoked₂⟩ := h'.coupons c₁ hc₁
    exact ⟨c₂, hc₂, hid₂.trans hid₁, hholder₂.trans hholder₁, fun h => hrevoked₂ (hrevoked₁ h)⟩
  later := later_apply
  frame := coupon_apply

/-! ## Statements -/

inductive Query where
  /-- `permissions.require` -/
  | require (auth : AuthPrincipal) (permission : String)
  /-- `Utc::now()` -/
  | now
  /-- `generate_code` -/
  | generateCode
  | findByPhiraId (phiraId : Int64)
  /-- the `INSERT` of `create`; the answer has the id and the time of the new row -/
  | insertCoupon (code actionType : String) (payload : Json) (maxUses : Int32)
      (createdBy : Option Uuid) (holderMode : String) (holderUserId : Option Uuid) (note : String)
      (expiresAt : Option ℕ)
  /-- the `UPDATE` of `revoke`; the answer is the time it has set, `none` if it found no row -/
  | revoke (id : Uuid)
  | begin
  | commit
  /-- the transaction is dropped -/
  | rollback
  /-- `SELECT … FROM coupons WHERE code=$1 FOR UPDATE` -/
  | couponForUpdate (code : String)
  | redeemedBefore (coupon user : Uuid)
  | activate (user : Uuid)
  | groupById (id : Uuid)
  | groupByName (name : String)
  | addMember (group user : Uuid)
  | insertTask (coupon : Uuid) (taskType : String) (payload : Json)
  | insertEvent (payload : Json)
  | notify (event user : Uuid)
  | countUse (coupon : Uuid)
  | insertRedemption (coupon user : Uuid) (actionType : String) (result : Json) (redeemedAt : ℕ)
  deriving DecidableEq

@[reducible]
def Query.Answer : Query → Type
  | .require .. => Except ApiError Unit
  | .now => ℕ
  | .generateCode => String
  | .findByPhiraId _ => Except DbError (Option User)
  | .insertCoupon .. => Except Groups.InsertError (Uuid × ℕ)
  | .revoke _ => Except DbError (Option ℕ)
  | .couponForUpdate _ => Except DbError (Option Coupon)
  | .redeemedBefore .. => Except DbError Bool
  | .groupById _ | .groupByName _ => Except DbError (Option Groups.Group)
  | .insertTask .. | .insertEvent _ => Except DbError Uuid
  | .rollback => Unit
  | .begin | .commit | .activate _ | .addMember .. | .notify .. | .countUse _
  | .insertRedemption .. => Except DbError Unit

/-- What a statement does if it does not fail. -/
def orFails {α : Type} (ok : α → Option (Does Write Uuid)) :
    Except DbError α → Option (Does Write Uuid)
  | .ok a => ok a
  | .error .other => some .nothing
  | .error .rowNotFound => none

/-- A read that finds `row`. -/
def finds {α : Type} [DecidableEq α] (row : α) : Except DbError α → Option (Does Write Uuid) :=
  orFails fun a => if a = row then some .nothing else none

/-- What a statement and its answer do if `db` is committed. -/
def does (db : Db) : Event Query Query.Answer → Option (Does Write Uuid)
  | ⟨.require .., _⟩ | ⟨.now, _⟩ | ⟨.generateCode, _⟩ => some .nothing
  | ⟨.findByPhiraId phiraId, a⟩ =>
    finds ((db.users.find? (·.user.phiraId == phiraId)).map (·.user)) a
  | ⟨.insertCoupon code actionType payload maxUses createdBy holderMode holderUserId note expiresAt,
      a⟩ =>
    match a with
    | .ok (id, createdAt) => some (.autocommit (.addCoupon ⟨id, code, actionType, payload, maxUses, 0,
        createdBy, holderMode, holderUserId, note, expiresAt, createdAt, none⟩))
    | .error .uniqueViolation => if (db.couponByCode code).isSome then some .nothing else none
    | .error (.db _) => some .nothing
  | ⟨.revoke id, a⟩ => orFails (fun
      | some now => if db.unrevoked id then some (.autocommit (.revoke id now)) else none
      | none => if db.unrevoked id then none else some .nothing) a
  | ⟨.begin, a⟩ => orFails (fun _ => some .begin) a
  | ⟨.commit, a⟩ => orFails (fun _ => some .commit) a
  | ⟨.rollback, _⟩ => some .rollback
  | ⟨.couponForUpdate code, a⟩ => orFails (fun row =>
      if row = db.couponByCode code then
        some (match row with
          | some coupon => .lock coupon.id
          | none => .nothing)
      else none) a
  | ⟨.redeemedBefore coupon user, a⟩ =>
    finds (db.redemptions.rows.any fun r => r.couponId == coupon && r.userId == user) a
  | ⟨.activate user, a⟩ => orFails (fun _ => some (.write (.activate user))) a
  | ⟨.groupById id, a⟩ => finds (db.groups.find? (·.id == id)) a
  | ⟨.groupByName name, a⟩ => finds (db.groups.find? (·.name == name)) a
  | ⟨.addMember group user, a⟩ => orFails (fun _ => some (.write (.addMember group user))) a
  | ⟨.insertTask coupon taskType payload, a⟩ =>
    orFails (fun id => some (.write (.addTask ⟨id, coupon, taskType, payload⟩))) a
  | ⟨.insertEvent payload, a⟩ => orFails (fun id => some (.write (.addEvent ⟨id, payload⟩))) a
  | ⟨.notify event user, a⟩ => orFails (fun _ => some (.write (.notify event user))) a
  | ⟨.countUse coupon, a⟩ => orFails (fun _ => some (.write (.countUse coupon))) a
  | ⟨.insertRedemption coupon user actionType result redeemedAt, a⟩ => orFails (fun _ =>
      some (.write (.addRedemption ⟨coupon, user, actionType, result, redeemedAt⟩))) a

theorem orFails_cases {α : Type} {ok : α → Option (Does Write Uuid)} {a : Except DbError α}
    {d : Does Write Uuid} (h : orFails ok a = some d) :
    (∃ x, a = .ok x ∧ ok x = some d) ∨ a = .error .other ∧ d = .nothing := by
  match a with
  | .ok x => exact .inl ⟨x, rfl, h⟩
  | .error .other => exact .inr ⟨rfl, (Option.some.inj h).symm⟩
  | .error .rowNotFound => cases h

theorem finds_cases {α : Type} [DecidableEq α] {row : α} {a : Except DbError α}
    {d : Does Write Uuid} (h : finds row a = some d) :
    d = .nothing ∧ (a = .ok row ∨ a = .error .other) := by
  rcases orFails_cases h with ⟨x, rfl, hx⟩ | ⟨rfl, rfl⟩
  · split_ifs at hx with hrow
    exact ⟨(Option.some.inj hx).symm, .inl (by rw [hrow])⟩
  · exact ⟨rfl, .inr rfl⟩

/-- The statements that do not commit at once. -/
def Query.Quiet : Query → Prop
  | .insertCoupon .. | .revoke _ | .commit => False
  | _ => True

theorem quiet_does {q : Query} (hq : q.Quiet) {a : q.Answer} {d : Does Write Uuid}
    (hd : does db ⟨q, a⟩ = some d) : d.quiet = true := by
  have hwrite : ∀ {α : Type} {a : Except DbError α} {f : α → Does Write Uuid},
      (∀ x, (f x).quiet = true) → orFails (fun x => some (f x)) a = some d → d.quiet = true := by
    intro α a f hf h
    rcases orFails_cases h with ⟨x, -, hx⟩ | ⟨-, rfl⟩
    · obtain rfl := Option.some.inj hx
      exact hf x
    · rfl
  have hread : ∀ {α : Type} [DecidableEq α] {row : α} {a : Except DbError α},
      finds row a = some d → d.quiet = true := by
    intro α _ row a h
    rw [(finds_cases h).1]
    rfl
  cases q with
  | require _ _ | now | generateCode | rollback =>
    obtain rfl := Option.some.inj hd
    rfl
  | insertCoupon => exact hq.elim
  | revoke _ => exact hq.elim
  | commit => exact hq.elim
  | couponForUpdate code =>
    rcases orFails_cases hd with ⟨row, -, hrow⟩ | ⟨-, rfl⟩
    · split_ifs at hrow
      obtain rfl := Option.some.inj hrow
      cases row <;> rfl
    · rfl
  | findByPhiraId _ | redeemedBefore _ _ | groupById _ | groupByName _ => exact hread hd
  | begin | activate _ | addMember _ _ | insertTask _ _ _ | insertEvent _ | notify _ _ | countUse _
  | insertRedemption _ _ _ _ _ => exact hwrite (fun _ => rfl) hd

end Ppb.Coupons
