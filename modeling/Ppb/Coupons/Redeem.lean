import Ppb.Coupons.Routes

/-!
# The counts of the redemption codes

In any interleaving of the requests the committed tables agree: the count of a coupon is
the number of its redemptions and within its limit, and only its holder has redeemed it.

`redeem` reads the row of the coupon under its lock, and the lock is held to the commit. So
what `redeem` has checked still holds when its writes take effect (`Holds`), and it takes
all of them together.

* `Balanced`: the tables agree; `Allowed`: what a statement may commit.
* `redeem_commit`: the commit of `redeem` keeps the one and is within the other.
* `safe_program`: every request keeps `Balanced`, each commit within `Allowed`.
* `coupons_sound`: what this means for the runs.
-/

namespace Ppb.Coupons

open Prog Transactions Trace

/-! ## What holds of the tables -/

/-- How often a coupon was redeemed. -/
def Db.uses (db : Db) (id : Uuid) : ℕ := db.redemptions.rows.countP (·.couponId == id)

/-- The holder of the coupon, if it has one, is this user. -/
def Coupon.HeldBy (c : Coupon) (user : Uuid) : Prop := ∀ h, c.holderUserId = some h → user = h

structure Balanced (db : Db) : Prop where
  counts : ∀ c ∈ db.coupons, c.usedCount.toInt = db.uses c.id
  limit : ∀ c ∈ db.coupons, c.usedCount ≤ c.maxUses
  holder : ∀ r ∈ db.redemptions, ∃ c ∈ db.coupons, c.id = r.couponId ∧ c.HeldBy r.userId

/-- What a statement may commit: redemptions by the holders of coupons that are not revoked, and
    members of groups that are not for administrators. -/
structure Allowed (db db' : Db) : Prop where
  redemptions : ∀ r ∈ db'.redemptions, r ∈ db.redemptions ∨
    ∃ c ∈ db.coupons, c.id = r.couponId ∧ c.revokedAt = none ∧ c.HeldBy r.userId
  members : ∀ m ∈ db'.members, m ∈ db.members ∨
    ∃ g ∈ db.groups, g.id = m.groupId ∧ g.isAdminScope = false
  later : db.Later db'

variable {db db' : Db} {c : Coupon} {w : Write} {ws : List Write} {groups : List Groups.Group}

theorem allowed_refl (db : Db) : Allowed db db :=
  ⟨fun _ => .inl, fun _ => .inl, later_of_tables rfl rfl rfl⟩

theorem Balanced.of_tables (h : Balanced db) (hcoupons : db'.coupons = db.coupons)
    (hredemptions : db'.redemptions = db.redemptions) : Balanced db' := by
  refine ⟨?_, ?_, ?_⟩
  · rw [hcoupons]
    unfold Db.uses
    rw [hredemptions]
    exact h.counts
  · rw [hcoupons]
    exact h.limit
  · rw [hredemptions, hcoupons]
    exact h.holder

theorem balanced_new (users : List UserRow) (groups : List Groups.Group)
    (members : List Groups.GroupMember) : Balanced (.new users groups members) :=
  ⟨nofun, nofun, nofun⟩

theorem mem_of_coupon {k : Uuid} (h : db.coupon k = some c) : c ∈ db.coupons ∧ c.id = k :=
  ⟨List.mem_of_find?_eq_some h, by simpa using List.find?_some h⟩

theorem eq_of_id {a b : Coupon} (ha : a ∈ db.coupons) (hb : b ∈ db.coupons) (hid : a.id = b.id) :
    a = b := by
  rcases Table.eq_or_compat ha hb with heq | hne | hne
  · exact heq
  · exact absurd hid hne.1
  · exact absurd hid.symm hne.1

theorem coupon_of_mem (h : c ∈ db.coupons) : db.coupon c.id = some c := by
  cases hfind : db.coupon c.id with
  | none =>
    have hnone := List.find?_eq_none.mp hfind c h
    simp at hnone
  | some c' =>
    obtain ⟨hmem, hid⟩ := mem_of_coupon hfind
    rw [eq_of_id hmem h hid]

/-! ## The commit of a redemption -/

/-- A write of `execute_action`. -/
def Aside (groups : List Groups.Group) : Write → Prop
  | .activate _ | .addTask _ | .addEvent _ | .notify _ _ => True
  | .addMember group _ => ∃ g ∈ groups, g.id = group ∧ g.isAdminScope = false
  | _ => False

/-- What the writes of `execute_action` leave as it was, and what they add. -/
structure AsideOf (db db' : Db) : Prop where
  coupons : db'.coupons = db.coupons
  redemptions : db'.redemptions = db.redemptions
  groups : db'.groups = db.groups
  members : ∀ m ∈ db'.members, m ∈ db.members ∨
    ∃ g ∈ db.groups, g.id = m.groupId ∧ g.isAdminScope = false

theorem aside_apply (hw : Aside db.groups w) (h : db.apply w = some db') : AsideOf db db' := by
  cases w with
  | activate _ | addTask _ | addEvent _ | notify _ _ =>
    obtain rfl := Option.some.inj h
    exact ⟨rfl, rfl, rfl, fun _ => .inl⟩
  | addMember group user =>
    obtain rfl := Option.some.inj h
    refine ⟨rfl, rfl, rfl, fun m hm => ?_⟩
    rcases List.mem_insert_iff.mp hm with rfl | hm
    · exact .inr hw
    · exact .inl hm
  | addCoupon _ | revoke _ _ | countUse _ | addRedemption _ => exact hw.elim

theorem aside_foldlM (hws : ∀ w ∈ ws, Aside db.groups w) (h : ws.foldlM Db.apply db = some db') :
    AsideOf db db' := by
  induction ws generalizing db with
  | nil =>
    obtain rfl := Option.some.inj h
    exact ⟨rfl, rfl, rfl, fun _ => .inl⟩
  | cons w ws ih =>
    obtain ⟨db₁, h₁, h₂⟩ := Option.bind_eq_some_iff.mp h
    rw [List.forall_mem_cons] at hws
    have hfirst := aside_apply hws.1 h₁
    have hrest := ih (by rw [hfirst.groups]; exact hws.2) h₂
    refine ⟨hrest.coupons.trans hfirst.coupons, hrest.redemptions.trans hfirst.redemptions,
      hrest.groups.trans hfirst.groups, fun m hm => ?_⟩
    rcases hrest.members m hm with hm | hm
    · exact hfirst.members m hm
    · rw [hfirst.groups] at hm
      exact .inr hm

theorem toInt_succ {a b : Int32} (h : a < b) : (a + 1).toInt = a.toInt + 1 ∧ a + 1 ≤ b := by
  have hlt := Int32.lt_iff_toInt_lt.mp h
  have hmax := b.toInt_lt
  have hmin := a.le_toInt
  have hsucc : (a + 1).toInt = a.toInt + 1 := by
    rw [Int32.toInt_add]
    show (a.toInt + 1).bmod (2 ^ 32) = a.toInt + 1
    exact Int.bmod_eq_of_le (by omega) (by omega)
  refine ⟨hsucc, Int32.le_iff_toInt_le.mpr ?_⟩
  omega

/-- What `redeem` has checked of the row it has read. -/
structure Redeemable (c : Coupon) (user : Uuid) : Prop where
  unrevoked : c.revokedAt = none
  unused : c.usedCount < c.maxUses
  heldBy : c.HeldBy user

/-- The last two writes of a redemption. -/
theorem balanced_redeem {db₁ : Db} {r : Redemption} (hb : Balanced db) (hrow : db.coupon c.id = some c)
    (hcheck : Redeemable c r.userId) (hr : r.couponId = c.id)
    (hcount : db.apply (.countUse c.id) = some db₁)
    (hadd : db₁.apply (.addRedemption r) = some db') :
    Balanced db' ∧ Allowed db db' := by
  obtain ⟨hc, -⟩ := mem_of_coupon hrow
  have hlater : db.Later db' := tables.trans (later_apply hcount) (later_apply hadd)
  simp only [Db.apply, Db.countUse] at hcount
  split_ifs at hcount
  obtain ⟨coupons, hupdate, rfl⟩ := Option.map_eq_some_iff.mp hcount
  obtain ⟨redemptions, hinsert, rfl⟩ := Option.map_eq_some_iff.mp hadd
  have hrows : redemptions.rows = db.redemptions.rows ++ [r] := Table.commit_eq_some.mp hinsert
  have huses : ∀ id, redemptions.rows.countP (·.couponId == id) =
      db.uses id + if c.id = id then 1 else 0 := by
    intro id
    rw [hrows, List.countP_append, Db.uses, List.countP_singleton, hr]
    simp
  refine ⟨⟨fun d hd => ?_, fun d hd => ?_, fun r' hr' => ?_⟩, ?_⟩
  · obtain ⟨d₀, hd₀, rfl⟩ := (Table.mem_update hupdate).mp hd
    show _ = ((redemptions.rows.countP _ : ℕ) : ℤ)
    rw [huses]
    by_cases hid : d₀.id = c.id
    · obtain rfl := eq_of_id hd₀ hc hid
      simp only [beq_self_eq_true, if_true]
      rw [(toInt_succ hcheck.unused).1, hb.counts d₀ hd₀]
      push_cast
      rfl
    · simp only [beq_iff_eq, hid, if_false, Ne.symm hid]
      exact hb.counts d₀ hd₀
  · obtain ⟨d₀, hd₀, rfl⟩ := (Table.mem_update hupdate).mp hd
    by_cases hid : d₀.id = c.id
    · obtain rfl := eq_of_id hd₀ hc hid
      simp only [beq_self_eq_true, if_true]
      exact (toInt_succ hcheck.unused).2
    · simp only [beq_iff_eq, hid, if_false]
      exact hb.limit d₀ hd₀
  · have hholder : ∃ d ∈ db.coupons, d.id = r'.couponId ∧ d.HeldBy r'.userId := by
      rcases (Table.mem_insert hinsert).mp hr' with hr' | rfl
      · exact hb.holder r' hr'
      · exact ⟨c, hc, hr.symm, hcheck.heldBy⟩
    obtain ⟨d, hd, hid, hheld⟩ := hholder
    obtain ⟨d', hd', hid', hholder', -⟩ := hlater.coupons d hd
    refine ⟨d', hd', hid'.trans hid, fun h hh => hheld h ?_⟩
    rw [← hholder']
    exact hh
  · refine ⟨fun r' hr' => ?_, fun m hm => .inl hm, hlater⟩
    rcases (Table.mem_insert hinsert).mp hr' with hr' | rfl
    · exact .inl hr'
    · exact .inr ⟨c, hc, hr.symm, hcheck.unrevoked, hcheck.heldBy⟩

/-- The commit of a redemption: the writes of its action, the count, and the redemption. -/
theorem redeem_commit {r : Redemption} (hb : Balanced db) (hrow : db.coupon c.id = some c)
    (hcheck : Redeemable c r.userId) (hr : r.couponId = c.id) (hws : ∀ w ∈ ws, Aside db.groups w)
    (h : (ws ++ [Write.countUse c.id, Write.addRedemption r]).foldlM Db.apply db = some db') :
    Balanced db' ∧ Allowed db db' := by
  rw [List.foldlM_append] at h
  obtain ⟨db₁, h₁, h⟩ := Option.bind_eq_some_iff.mp h
  obtain ⟨db₂, h₂, h⟩ := Option.bind_eq_some_iff.mp h
  obtain ⟨db₃, h₃, h⟩ := Option.bind_eq_some_iff.mp h
  obtain rfl := Option.some.inj h
  have haside := aside_foldlM hws h₁
  have hrow₁ : db₁.coupon c.id = some c := by
    unfold Db.coupon
    rw [haside.coupons]
    exact hrow
  have hb₁ := hb.of_tables haside.coupons haside.redemptions
  obtain ⟨hb₃, hallowed⟩ := balanced_redeem hb₁ hrow₁ hcheck hr h₂ h₃
  refine ⟨hb₃, fun r' hr' => ?_, fun m hm => ?_, ?_⟩
  · have hr' := hallowed.redemptions r' hr'
    rw [haside.redemptions, haside.coupons] at hr'
    exact hr'
  · rcases hallowed.members m hm with hm | hm
    · exact haside.members m hm
    · rw [haside.groups] at hm
      exact .inr hm
  · exact tables.trans (later_of_tables haside.groups haside.coupons haside.redemptions)
      hallowed.later

/-! ## The statements of a transaction -/

/-- The steps of a session that keep `Balanced` and commit what is `Allowed`. -/
abbrev SafeHere {α : Type} (i : ℕ) : Handler α → Store Db Write Uuid →
    (Store Db Write Uuid → Except ApiError α → Prop) → Prop :=
  SafeIn tables does Balanced i Allowed

/-- The transaction has written `ws`, and holds the lock of the row it has read. -/
structure Holds (i : ℕ) (c : Coupon) (groups : List Groups.Group) (ws : List Write)
    (s : Store Db Write Uuid) : Prop where
  pending : s.pending i = some ws
  lock : s.locks c.id = some i
  row : s.db.coupon c.id = some c
  groups : s.db.groups = groups

variable {parseUuid : String → Option Uuid} {i : ℕ} {s s' : Store Db Write Uuid} {α β : Type}

theorem Holds.keeps (h : Holds i c groups ws s) (hkeeps : Keeps tables i s s') :
    Holds i c groups ws s' := by
  obtain ⟨hlock, hrow⟩ := hkeeps.2.2 c.id h.lock
  exact ⟨hkeeps.1.trans h.pending, hlock, hrow.trans h.row, hkeeps.2.1.groups.trans h.groups⟩

/-- What the transaction has written after a statement. -/
def After (i : ℕ) (c : Coupon) (groups : List Groups.Group) (ws : List Write)
    (s : Store Db Write Uuid) : Does Write Uuid → Prop
  | .nothing => Holds i c groups ws s
  | .write w => Holds i c groups (ws ++ [w]) s
  | _ => True

theorem Holds.perform (h : Holds i c groups ws s) {d : Does Write Uuid}
    (hd : perform tables i s d = some s') : After i c groups ws s' d := by
  cases d with
  | nothing =>
    obtain rfl := Option.some.inj hd
    exact h
  | write w =>
    obtain ⟨hdb, hpending, hlocks⟩ := write_spec h.pending hd
    exact ⟨hpending, hlocks _ _ h.lock, by rw [hdb]; exact h.row, by rw [hdb]; exact h.groups⟩
  | _ => trivial

/-- A statement of the transaction that has locked its coupon. -/
theorem safe_statement {q : Query} {k : q.Answer → Handler β}
    {P : Store Db Write Uuid → Except ApiError β → Prop} (hq : q.Quiet)
    (hs : Holds i c groups ws s)
    (h : ∀ s₂ a db d, db.groups = groups → does db ⟨q, a⟩ = some d → After i c groups ws s₂ d →
      Owned tables s₂ ∧ Balanced s₂.db → SafeHere i (k a) s₂ P) :
    SafeHere i (ask q >>= k) s P :=
  safe_quiet (fun _ _ _ => quiet_does hq) allowed_refl hs (fun _ _ => Holds.keeps)
    fun s₁ a s₂ d hs₁ hd hperform hI =>
      h s₂ a s₁.db d hs₁.groups hd (hs₁.perform hperform) hI

/-- What `execute_action` leaves to the rest of the transaction. -/
def Acted (i : ℕ) (c : Coupon) (groups : List Groups.Group) (s : Store Db Write Uuid)
    (r : Except ApiError Json) : Prop :=
  ∀ result, r = .ok result → ∃ ws, Holds i c groups ws s ∧ ∀ w ∈ ws, Aside groups w

theorem acted_pure {result : Json} (hs : Holds i c groups ws s) (hws : ∀ w ∈ ws, Aside groups w) :
    SafeHere i (pure result) s (Acted i c groups) :=
  Shared.safe_pure fun _ hkeeps _ _ _ => ⟨ws, hs.keeps hkeeps, hws⟩

theorem acted_fail {e : ApiError} : SafeHere i (fail e) s (Acted i c groups) :=
  Shared.safe_fail fun _ _ _ => nofun

/-- The group that `account_role` has found is one of the table. -/
def Found (i : ℕ) (c : Coupon) (groups : List Groups.Group) (s : Store Db Write Uuid)
    (r : Except ApiError (Option Groups.Group)) : Prop :=
  ∀ found, r = .ok found → Holds i c groups [] s ∧ ∀ g ∈ found, g ∈ groups

theorem found_answer {row : Option Groups.Group} {a : Except DbError (Option Groups.Group)}
    {d : Does Write Uuid} (hd : finds row a = some d) (hrow : ∀ g ∈ row, g ∈ groups)
    (hs : After i c groups [] s d) :
    SafeHere i (mapErr couponErr a) s (Found i c groups) := by
  obtain ⟨rfl, rfl | rfl⟩ := finds_cases hd
  · refine Shared.safe_pure fun s₁ hkeeps _ found hfound => ?_
    obtain rfl := Except.ok.inj hfound
    exact ⟨Holds.keeps hs hkeeps, hrow⟩
  · exact Shared.safe_fail fun _ _ _ => nofun

theorem safe_findGroup (args : Json) (hs : Holds i c groups [] s) :
    SafeHere i (findGroup parseUuid args) s (Found i c groups) := by
  unfold findGroup
  split
  · refine Shared.safe_ofOption_bind (fun _ _ _ _ => nofun) fun id _ => ?_
    refine safe_statement trivial hs fun s₂ a db d hgroups hd hs₂ _ => ?_
    refine found_answer hd (fun g hg => ?_) hs₂
    rw [← hgroups]
    exact List.mem_of_find?_eq_some hg
  · refine safe_statement trivial hs fun s₂ a db d hgroups hd hs₂ _ => ?_
    refine found_answer hd (fun g hg => ?_) hs₂
    rw [← hgroups]
    exact List.mem_of_find?_eq_some hg

/-- The member that `account_role` adds is not one of an `admin_scope` group. -/
theorem safe_accountRole (user : Uuid) (args : Json) (hs : Holds i c groups [] s)
    (hI : Owned tables s ∧ Balanced s.db) :
    SafeHere i (accountRole parseUuid user args) s (Acted i c groups) := by
  refine Shared.safe_bind keeps_refl hI (safe_findGroup args hs) (fun s₁ found _ hfound => ?_)
    fun _ _ _ _ => nofun
  obtain ⟨hs₁, hmem⟩ := hfound found rfl
  refine Shared.safe_ofOption_bind (fun _ _ _ _ => nofun) fun g hg => ?_
  refine Shared.safe_failIf_bind (fun _ _ _ _ => nofun) fun hadmin => ?_
  refine safe_statement trivial hs₁ fun s₂ a db d _ hd hs₂ _ => ?_
  rcases orFails_cases hd with ⟨x, rfl, hd⟩ | ⟨rfl, rfl⟩
  · obtain rfl := Option.some.inj hd
    have hscope : g.isAdminScope = false := by
      cases hkind : g.isAdminScope with
      | false => rfl
      | true => exact absurd (.inl hkind) hadmin
    refine acted_pure hs₂ fun w hw => ?_
    obtain rfl := List.mem_singleton.mp hw
    exact ⟨g, hmem g hg, rfl, hscope⟩
  · exact acted_fail

theorem safe_executeAction (user : Uuid) (kind : String) (args : Json)
    (hs : Holds i c groups [] s) (hI : Owned tables s ∧ Balanced s.db) :
    SafeHere i (executeAction parseUuid user c.id kind args) s (Acted i c groups) := by
  unfold executeAction
  split_ifs with hunlock hrole halert hhook
  · refine safe_statement trivial hs fun s₂ a db d _ hd hs₂ _ => ?_
    rcases orFails_cases hd with ⟨x, rfl, hd⟩ | ⟨rfl, rfl⟩
    · obtain rfl := Option.some.inj hd
      exact acted_pure hs₂ (by simp [Aside])
    · exact acted_fail
  · exact safe_accountRole user args hs hI
  · refine safe_statement trivial hs fun s₂ a db d _ hd hs₂ _ => ?_
    rcases orFails_cases hd with ⟨x, rfl, hd⟩ | ⟨rfl, rfl⟩
    · obtain rfl := Option.some.inj hd
      exact acted_pure hs₂ (by simp [Aside])
    · exact acted_fail
  · refine safe_statement trivial hs fun s₂ a db d _ hd hs₂ _ => ?_
    rcases orFails_cases hd with ⟨x, rfl, hd⟩ | ⟨rfl, rfl⟩
    · obtain rfl := Option.some.inj hd
      refine safe_statement trivial hs₂ fun s₃ a db d _ hd hs₃ _ => ?_
      rcases orFails_cases hd with ⟨y, rfl, hd⟩ | ⟨rfl, rfl⟩
      · obtain rfl := Option.some.inj hd
        exact acted_pure hs₃ (by simp [Aside])
      · exact acted_fail
    · exact acted_fail
  · exact acted_fail

/-! ## The requests -/

/-- The end of a session does not matter. -/
abbrev Safely {α : Type} (i : ℕ) (p : Handler α) (s : Store Db Write Uuid) : Prop :=
  SafeHere i p s fun _ _ => True

theorem safely_done {r : Except ApiError α} : Safely i (.done r) s := fun _ _ _ => trivial

theorem redeemable_of_check {user : Uuid} {now : ℕ} (h : checkCoupon user c now = .ok ()) :
    Redeemable c user := by
  unfold checkCoupon at h
  split_ifs at h with hrevoked hexpired hlimit hholder hcreator
  refine ⟨by simpa using hrevoked, Int32.not_le.mp hlimit, fun holder hh => ?_⟩
  by_contra hne
  refine hholder ⟨by rw [hh]; rfl, fun heq => hne ?_⟩
  exact (Option.some.inj (hh.symm.trans heq)).symm

/-- From the count to the commit. -/
theorem safely_commit {user : Uuid} {result : Json} {redeemedAt : ℕ}
    (hs : Holds i c groups ws s) (hws : ∀ w ∈ ws, Aside groups w) (hcheck : Redeemable c user) :
    Safely i (do
      let counted ← ask (.countUse c.id)
      mapErr couponErr counted
      let inserted ← ask (.insertRedemption c.id user c.actionType result redeemedAt)
      mapErr couponErr inserted
      let committed ← ask .commit
      mapErr couponErr committed
      return (⟨c.actionType, result, redeemedAt⟩ : RedeemCodeResponse)) s := by
  refine safe_statement trivial hs fun s₂ a db d _ hd hs₂ _ => ?_
  rcases orFails_cases hd with ⟨x, rfl, hd⟩ | ⟨rfl, rfl⟩
  · obtain rfl := Option.some.inj hd
    refine safe_statement trivial hs₂ fun s₃ a db d _ hd hs₃ _ => ?_
    rcases orFails_cases hd with ⟨y, rfl, hd⟩ | ⟨rfl, rfl⟩
    · obtain rfl := Option.some.inj hd
      refine Shared.safe_ask fun s₄ hkeeps hI a s₅ hexec => ?_
      obtain ⟨d, hd, hperform⟩ := Option.bind_eq_some_iff.mp hexec
      have hs₄ := Holds.keeps hs₃ hkeeps
      rcases orFails_cases hd with ⟨z, rfl, hd⟩ | ⟨rfl, rfl⟩
      · obtain rfl := Option.some.inj hd
        have happly := commit_spec hs₄.pending hperform
        rw [List.append_assoc] at happly
        obtain ⟨hb, hallowed⟩ := redeem_commit hI.2 hs₄.row hcheck rfl
          (fun w hw => by rw [hs₄.groups]; exact hws w hw) happly
        exact ⟨⟨⟨owned_perform hI.1 hperform, hb⟩, hallowed⟩, safely_done⟩
      · obtain rfl := Option.some.inj hperform
        exact ⟨⟨hI, allowed_refl _⟩, safely_done⟩
    · exact safely_done
  · exact safely_done

theorem coupon_of_code {code : String} (h : db.couponByCode code = some c) :
    db.coupon c.id = some c :=
  coupon_of_mem (List.mem_of_find?_eq_some h)

theorem safely_redeemBody (user : Uuid) (code : String) (hs : s.pending i = some []) :
    Safely i (redeemBody parseUuid user code) s := by
  refine safe_quiet (F := fun s => s.pending i = some [])
    (fun _ _ _ => quiet_does (q := .couponForUpdate code) trivial) allowed_refl hs
    (fun _ _ h hkeeps => hkeeps.1.trans h) fun s₁ a s₂ d hs₁ hd hperform hI => ?_
  rcases orFails_cases hd with ⟨row, rfl, hrow⟩ | ⟨rfl, rfl⟩
  · split_ifs at hrow with hcode
    obtain rfl := Option.some.inj hrow
    refine Shared.safe_ofOption_bind (fun _ _ _ _ => trivial) fun c hc => ?_
    subst hc
    obtain ⟨hdb, hpending, hlock⟩ := lock_spec hperform
    have hholds : Holds i c s₂.db.groups [] s₂ :=
      ⟨by rw [hpending]; exact hs₁, hlock, by rw [hdb]; exact coupon_of_code hcode.symm, rfl⟩
    refine safe_statement trivial hholds fun s₃ now db d _ hd hs₃ _ => ?_
    obtain rfl := Option.some.inj hd
    cases hcheck : checkCoupon user c now with
    | error e => exact safely_done
    | ok =>
      refine safe_statement trivial hs₃ fun s₄ prior db d _ hd hs₄ hI₄ => ?_
      obtain ⟨rfl, rfl | rfl⟩ := finds_cases hd
      · refine Shared.safe_failIf_bind (fun _ _ _ _ => trivial) fun _ => ?_
        cases hvalid : validateAction c.actionType c.payload with
        | error e => exact safely_done
        | ok =>
          show Safely i (executeAction parseUuid user c.id c.actionType c.payload >>= _) s₄
          refine Shared.safe_bind keeps_refl hI₄
            (safe_executeAction user c.actionType c.payload hs₄ hI₄) (fun s₅ result hI₅ hacted => ?_)
            fun _ _ _ _ => trivial
          obtain ⟨ws, hs₅, hws⟩ := hacted result rfl
          refine safe_statement trivial hs₅ fun s₆ redeemedAt db d _ hd hs₆ _ => ?_
          obtain rfl := Option.some.inj hd
          exact safely_commit hs₆ hws (redeemable_of_check hcheck)
      · exact safely_done
  · exact safely_done

/-- A question outside a transaction, or the end of one, that commits nothing. -/
theorem safely_quiet {q : Query} {k : q.Answer → Handler α} (hq : q.Quiet)
    (h : ∀ s₂ a, Owned tables s₂ ∧ Balanced s₂.db → Safely i (k a) s₂) :
    Safely i (ask q >>= k) s :=
  safe_quiet (F := fun _ => True) (fun _ _ _ => quiet_does hq) allowed_refl trivial
    (fun _ _ _ _ => trivial) fun _ a s₂ _ _ _ _ hI => h s₂ a hI

theorem safely_inTransaction {body : Handler α}
    (hbody : ∀ s : Store Db Write Uuid, s.pending i = some [] → Safely i body s) :
    Safely i (inTransaction body) s := by
  refine safe_quiet (F := fun _ => True) (fun _ _ _ => quiet_does (q := .begin) trivial) allowed_refl
    trivial (fun _ _ _ _ => trivial) fun s₁ a s₂ d _ hd hperform hI => ?_
  rcases orFails_cases hd with ⟨x, rfl, hd⟩ | ⟨rfl, rfl⟩
  · obtain rfl := Option.some.inj hd
    obtain ⟨hpending, -, -⟩ := begin_spec hperform
    show Safely i ((body.attempt : Handler (Except ApiError α)) >>= _) s₂
    refine Shared.safe_bind (P := fun _ _ => True) keeps_refl hI
      (Shared.safe_attempt (hbody s₂ hpending)) (fun s₃ r _ _ => ?_) fun _ _ _ _ => trivial
    cases r with
    | ok a => exact safely_done
    | error e => exact safely_quiet trivial fun _ _ _ => safely_done
  · exact safely_done

theorem safely_redeem (auth : AuthPrincipal) (code : String) : Safely i (redeem parseUuid auth code) s := by
  unfold redeem
  refine Shared.safe_failIf_bind (fun _ _ _ _ => trivial) fun _ => ?_
  generalize normalize code = code
  refine Shared.safe_failIf_bind (fun _ _ _ _ => trivial) fun _ => ?_
  exact safely_inTransaction fun s hs => safely_redeemBody _ _ hs

/-- A revocation leaves the counts and the holders. -/
theorem balanced_revoke {id : Uuid} {now : ℕ} (hb : Balanced db)
    (h : db.apply (.revoke id now) = some db') : Balanced db' ∧ Allowed db db' := by
  have hlater := later_apply h
  obtain ⟨coupons, hupdate, rfl⟩ := Option.map_eq_some_iff.mp h
  have hold : ∀ d ∈ coupons, ∃ d₀ ∈ db.coupons, d.id = d₀.id ∧ d.usedCount = d₀.usedCount ∧
      d.maxUses = d₀.maxUses := by
    intro d hd
    obtain ⟨d₀, hd₀, rfl⟩ := (Table.mem_update hupdate).mp hd
    refine ⟨d₀, hd₀, ?_⟩
    split_ifs
    · exact ⟨rfl, rfl, rfl⟩
    · exact ⟨rfl, rfl, rfl⟩
  refine ⟨⟨fun d hd => ?_, fun d hd => ?_, fun r hr => ?_⟩, fun _ => .inl, fun _ => .inl, hlater⟩
  · obtain ⟨d₀, hd₀, hid, hcount, -⟩ := hold d hd
    rw [hid, hcount]
    exact hb.counts d₀ hd₀
  · obtain ⟨d₀, hd₀, -, hcount, hmax⟩ := hold d hd
    rw [hcount, hmax]
    exact hb.limit d₀ hd₀
  · obtain ⟨d, hd, hid, hheld⟩ := hb.holder r hr
    obtain ⟨d', hd', hid', hholder, -⟩ := hlater.coupons d hd
    exact ⟨d', hd', hid'.trans hid, fun h hh => hheld h (hholder ▸ hh)⟩

/-- A new coupon has no redemptions. -/
theorem balanced_addCoupon (hb : Balanced db) (hzero : c.usedCount = 0) (hmax : 0 ≤ c.maxUses)
    (h : db.apply (.addCoupon c) = some db') : Balanced db' ∧ Allowed db db' := by
  have hlater := later_apply h
  obtain ⟨coupons, hinsert, rfl⟩ := Option.map_eq_some_iff.mp h
  have hnone : db.uses c.id = 0 := by
    refine List.countP_eq_zero.mpr fun r hr hid => ?_
    obtain ⟨d, hd, hdid, -⟩ := hb.holder r hr
    have hne : d.id ≠ c.id := (Table.compat_of_insert hinsert hd).1
    exact hne (hdid.trans (by simpa using hid))
  refine ⟨⟨fun d hd => ?_, fun d hd => ?_, fun r hr => ?_⟩, fun _ => .inl, fun _ => .inl, hlater⟩
  · rcases (Table.mem_insert hinsert).mp hd with hd | rfl
    · exact hb.counts d hd
    · show d.usedCount.toInt = ((db.uses d.id : ℕ) : ℤ)
      rw [hzero, hnone]
      rfl
  · rcases (Table.mem_insert hinsert).mp hd with hd | rfl
    · exact hb.limit d hd
    · rw [hzero]
      exact hmax
  · obtain ⟨d, hd, hrest⟩ := hb.holder r hr
    exact ⟨d, (Table.mem_insert hinsert).mpr (.inl hd), hrest⟩

/-- A statement that commits at once. -/
theorem safely_commits {q : Query} {k : q.Answer → Handler α}
    (h : ∀ db a d, does db ⟨q, a⟩ = some d → d = .nothing ∨
      ∃ w, d = .autocommit w ∧ ∀ db', Balanced db → db.apply w = some db' →
        Balanced db' ∧ Allowed db db')
    (hk : ∀ s₂ a, Safely i (k a) s₂) : Safely i (ask q >>= k) s := by
  refine Shared.safe_ask fun s₁ _ hI a s₂ hexec => ?_
  obtain ⟨d, hd, hperform⟩ := Option.bind_eq_some_iff.mp hexec
  have howned := owned_perform hI.1 hperform
  rcases h s₁.db a d hd with rfl | ⟨w, rfl, hw⟩
  · obtain rfl := Option.some.inj hperform
    exact ⟨⟨hI, allowed_refl _⟩, hk _ a⟩
  · obtain ⟨hb, hallowed⟩ := hw s₂.db hI.2 (autocommit_spec hperform)
    exact ⟨⟨⟨howned, hb⟩, hallowed⟩, hk s₂ a⟩

theorem safely_revoke (auth : AuthPrincipal) (id : Uuid) : Safely i (revoke auth id) s := by
  refine safely_quiet trivial fun s₂ permitted _ => ?_
  cases permitted with
  | error e => exact safely_done
  | ok =>
    refine safely_commits (fun db a d hd => ?_) fun s₃ affected => ?_
    · rcases orFails_cases hd with ⟨affected, rfl, hset⟩ | ⟨rfl, rfl⟩
      · cases affected with
        | none =>
          dsimp only at hset
          split_ifs at hset
          exact .inl (Option.some.inj hset).symm
        | some now =>
          dsimp only at hset
          split_ifs at hset
          exact .inr ⟨_, (Option.some.inj hset).symm, fun db' hb h => balanced_revoke hb h⟩
      · exact .inl rfl
    · cases affected with
      | error e => exact safely_done
      | ok affected =>
        show Safely i (failIf (affected = none) _) s₃
        unfold failIf
        split_ifs
        · exact safely_done
        · exact safely_done

theorem only_holderOf (auth : AuthPrincipal) (body : CreateCouponBody) :
    (holderOf auth body).Only Query.Quiet := by
  unfold holderOf
  split_ifs with hcreator
  · exact only_failIf_bind fun _ => trivial
  · split
    · refine only_bind (only_query trivial) fun found => ?_
      exact only_bind only_mapErr fun found => only_bind only_ofOption fun user => trivial
    · trivial

theorem only_codeOf (body : CreateCouponBody) : (codeOf body).Only Query.Quiet := by
  unfold codeOf
  split
  · exact only_query (show Query.Quiet .generateCode from trivial)
  · exact only_done

/-- A part of a request that commits nothing. -/
theorem safely_bind_only {p : Handler α} {k : α → Handler β} (hp : p.Only Query.Quiet)
    (hI : Owned tables s ∧ Balanced s.db)
    (hk : ∀ s₂ a, Owned tables s₂ ∧ Balanced s₂.db → Safely i (k a) s₂) :
    Safely i (p >>= k) s := by
  refine Shared.safe_bind (P := fun _ _ => True) keeps_refl hI ?_ (fun s₂ a hI₂ _ => hk s₂ a hI₂)
    fun _ _ _ _ => trivial
  refine Shared.safe_of_only (K := fun _ => True) hp trivial (fun _ _ => trivial) ?_
  rintro s₁ ⟨q, a⟩ s₂ hq - hI₁ hexec
  obtain ⟨d, hd, hperform⟩ := Option.bind_eq_some_iff.mp hexec
  have hdb := db_of_quiet (quiet_does hq hd) hperform
  refine ⟨⟨⟨owned_perform hI₁.1 hperform, by rw [hdb]; exact hI₁.2⟩, ?_⟩, trivial⟩
  show Allowed s₁.db s₂.db
  rw [hdb]
  exact allowed_refl _

/-- A coupon can be redeemed at least once. -/
theorem insert_allowed {code kind mode note : String} {args : Json} {maxUses : Int32}
    {creator holder : Option Uuid} {expiresAt : Option ℕ} (hmax : ¬ maxUses ≤ 0) (db : Db)
    (a : (Query.insertCoupon code kind args maxUses creator mode holder note expiresAt).Answer)
    (d : Does Write Uuid)
    (hd : does db ⟨.insertCoupon code kind args maxUses creator mode holder note expiresAt, a⟩ =
      some d) : d = .nothing ∨ ∃ w, d = .autocommit w ∧ ∀ db', Balanced db →
        db.apply w = some db' → Balanced db' ∧ Allowed db db' := by
  match a with
  | .ok (id, createdAt) =>
    refine .inr ⟨_, (Option.some.inj hd).symm, fun db' hb h => ?_⟩
    have hpos : (0 : Int32) ≤ maxUses := Int32.le_of_lt (Int32.not_le.mp hmax)
    exact balanced_addCoupon hb rfl hpos h
  | .error .uniqueViolation =>
    have hnothing : (if (db.couponByCode code).isSome then some Does.nothing else none) = some d := hd
    split_ifs at hnothing
    exact .inl (Option.some.inj hnothing).symm
  | .error (.db e) => exact .inl (Option.some.inj hd).symm

theorem safely_create (auth : AuthPrincipal) (body : CreateCouponBody) :
    Safely i (create auth body) s := by
  refine safely_quiet trivial fun s₂ permitted _ => ?_
  cases permitted with
  | error e => exact safely_done
  | ok =>
    show Safely i (ofExcept (validateAction body.actionType body.args) >>= _) s₂
    cases hvalid : validateAction body.actionType body.args with
    | error e => exact safely_done
    | ok =>
      refine Shared.safe_failIf_bind (fun _ _ _ _ => trivial) fun _ => ?_
      refine Shared.safe_failIf_bind (fun _ _ _ _ => trivial) fun hmax => ?_
      refine safely_quiet trivial fun s₃ now hI₃ => ?_
      refine Shared.safe_failIf_bind (fun _ _ _ _ => trivial) fun _ => ?_
      refine safely_bind_only (only_holderOf auth body) hI₃ fun s₄ holder hI₄ => ?_
      apply safely_bind_only (only_codeOf body) hI₄
      intro s₅ code _
      refine safely_commits (insert_allowed hmax) fun s₆ row => ?_
      cases row with
      | error e => exact safely_done
      | ok row => exact safely_done

/-- Every request keeps the tables in agreement, and commits only what is allowed. -/
theorem safely_program (op : Op) (hI : Owned tables s ∧ Balanced s.db) :
    Safely i (program parseUuid op) s := by
  cases op with
  | create auth body =>
    exact Shared.safe_bind (P := fun _ _ => True) keeps_refl hI (safely_create auth body)
      (fun _ _ _ _ => safely_done) fun _ _ _ _ => trivial
  | revoke auth id =>
    exact Shared.safe_bind (P := fun _ _ => True) keeps_refl hI (safely_revoke auth id)
      (fun _ _ _ _ => safely_done) fun _ _ _ _ => trivial
  | redeem auth code =>
    exact Shared.safe_bind (P := fun _ _ => True) keeps_refl hI (safely_redeem auth code)
      (fun _ _ _ _ => safely_done) fun _ _ _ _ => trivial

/-! ## Nothing before the commit, and nothing after it -/

theorem only_executeAction (user coupon : Uuid) (kind : String) (args : Json) :
    (executeAction parseUuid user coupon kind args).Only Query.Quiet := by
  unfold executeAction
  split_ifs with hunlock hrole halert hhook
  · exact only_bind (only_query trivial) fun _ => only_bind only_mapErr fun _ => only_done
  · refine only_bind ?_ fun found => only_bind only_ofOption fun group =>
      only_failIf_bind fun _ => only_bind (only_query trivial) fun _ =>
        only_bind only_mapErr fun _ => only_done
    unfold findGroup
    split
    · exact only_bind only_ofOption fun id => only_bind (only_query trivial) fun _ => only_mapErr
    · exact only_bind (only_query trivial) fun _ => only_mapErr
  · exact only_bind (only_query trivial) fun _ => only_bind only_mapErr fun _ => only_done
  · exact only_bind (only_query trivial) fun _ => only_bind only_mapErr fun _ =>
      only_bind (only_query trivial) fun _ => only_bind only_mapErr fun _ => only_done
  · exact only_done

/-- The transaction asks for its commit last. -/
theorem each_redeemBody (user : Uuid) (code : String)
    {P : (q : Query) → (q.Answer → Handler RedeemCodeResponse) → Prop}
    (hquiet : ∀ q next, q.Quiet → P q next)
    (hcommit : ∀ next, (∃ r, next (.ok ()) = pure r) → P .commit next) :
    (redeemBody parseUuid user code).Each P := by
  have hpart : ∀ {α : Type} {p : Handler α}, p.Only Query.Quiet → p.Only fun x => ∀ next, P x next :=
    fun hp => hp.mono fun q hq next => hquiet q next hq
  refine each_ask (hquiet _ _ trivial) fun found => each_bind only_mapErr fun found => ?_
  refine each_bind only_ofOption fun c => each_ask (hquiet _ _ trivial) fun now => ?_
  refine each_bind (p := ofExcept (checkCoupon user c now)) trivial fun _ => ?_
  refine each_ask (hquiet _ _ trivial) fun prior => each_bind only_mapErr fun prior => ?_
  refine each_bind only_failIf fun _ => ?_
  refine each_bind (p := ofExcept (validateAction c.actionType c.payload)) trivial fun _ => ?_
  refine each_bind (hpart (only_executeAction user c.id c.actionType c.payload)) fun result => ?_
  refine each_ask (hquiet _ _ trivial) fun redeemedAt => ?_
  refine each_ask (hquiet _ _ trivial) fun _ => each_bind only_mapErr fun _ => ?_
  refine each_ask (hquiet _ _ trivial) fun _ => each_bind only_mapErr fun _ => ?_
  refine each_ask (hcommit _ ⟨_, rfl⟩) fun _ => each_bind only_mapErr fun _ => each_done

/-- What is asked commits nothing, or the request has then succeeded. -/
def CommitsLast (q : Query) (next : q.Answer → Handler Reply) : Prop :=
  q.Quiet ∨ ∀ db a d, does db ⟨q, a⟩ = some d → d = .nothing ∨ ∃ r, next a = pure r

theorem each_redeem (auth : AuthPrincipal) (code : String) :
    (program parseUuid (.redeem auth code)).Each CommitsLast := by
  refine Each.bind ?_ fun _ => each_done
  unfold redeem
  refine each_bind only_failIf fun _ => ?_
  generalize normalize code = code
  refine each_bind only_failIf fun _ => ?_
  refine each_ask (.inl trivial) fun begun => each_bind only_mapErr fun _ => ?_
  refine each_attempt_bind (each_redeemBody _ _ (fun _ _ hq => .inl hq) fun next hnext => ?_) ?_
  · obtain ⟨r, hr⟩ := hnext
    refine .inr fun db a d hd => ?_
    rcases orFails_cases hd with ⟨x, rfl, -⟩ | ⟨rfl, rfl⟩
    · refine .inr ⟨.redeemed r, ?_⟩
      dsimp only
      rw [hr]
      rfl
    · exact .inl rfl
  · intro r
    cases r with
    | ok response => exact each_done
    | error e => exact each_ask (.inl trivial) fun _ => each_done

/-- The commits of a request are those its transaction ends with. -/
def Op.Commits : Op → (q : Query) → (q.Answer → Handler Reply) → Prop
  | .redeem _ _, q, next => CommitsLast q next
  | _, _, _ => True

theorem each_of_forall {P : (q : Query) → (q.Answer → Handler α) → Prop} (p : Handler α)
    (hP : ∀ q next, P q next) : p.Each P := by
  induction p with
  | done r => trivial
  | ask q next ih => exact ⟨hP q next, ih⟩

theorem each_program (op : Op) : (program parseUuid op).Each op.Commits := by
  cases op with
  | redeem auth code => exact each_redeem auth code
  | create auth body => exact each_of_forall _ fun _ _ => trivial
  | revoke auth id => exact each_of_forall _ fun _ _ => trivial

/-! ## Runs -/

abbrev System := Shared.Pool Query Query.Answer (Store Db Write Uuid) Op ApiError Reply

abbrev step (parseUuid : String → Option Uuid) :
    System → Shared.Label Query Query.Answer Op → Option System :=
  Transactions.step tables does (program parseUuid)

variable {db₀ : Db} {p p' : System}

theorem safe_system (h₀ : Balanced db₀) (hrun : Reachable (step parseUuid) ⟨.start db₀, []⟩ p) :
    SafeRun tables does Balanced (fun _ => Allowed) p :=
  safe_run (fun _ op _ howned hb => safely_program op ⟨howned, hb⟩) h₀ hrun

/-- What a step commits is allowed. -/
theorem allowed_step (h : SafeRun tables does Balanced (fun _ => Allowed) p)
    {l : Shared.Label Query Query.Answer Op} (hstep : step parseUuid p l = some p') :
    Allowed p.store.db p'.store.db := by
  cases l with
  | spawn op =>
    obtain rfl := Option.some.inj hstep
    exact allowed_refl _
  | answer i e =>
    obtain ⟨op, rest, rest', hi, -⟩ := step_answer hstep
    exact h.guarantee hi hstep

/-- After a coupon is revoked nobody redeems it. -/
theorem no_redemption_after (h₀ : Balanced db₀)
    (hrun : Reachable (step parseUuid) ⟨.start db₀, []⟩ p) (hc : c ∈ p.store.db.coupons) (hrevoked : c.revokedAt.isSome = true)
    (hlater : Reachable (step parseUuid) p p') :
    ∀ r ∈ p'.store.db.redemptions, r.couponId = c.id → r ∈ p.store.db.redemptions := by
  suffices h : (∃ c' ∈ p'.store.db.coupons, c'.id = c.id ∧ c'.revokedAt.isSome = true) ∧
      ∀ r ∈ p'.store.db.redemptions, r.couponId = c.id → r ∈ p.store.db.redemptions from h.2
  induction hlater with
  | start => exact ⟨⟨c, hc, rfl, hrevoked⟩, fun r hr _ => hr⟩
  | @next p₁ p₂ l hreach _ hstep ih =>
    obtain ⟨⟨c₁, hc₁, hid₁, hrevoked₁⟩, hold⟩ := ih
    have hallowed := allowed_step (safe_system h₀ (hrun.trans hreach)) hstep
    refine ⟨?_, fun r hr hid => ?_⟩
    · obtain ⟨c₂, hc₂, hid₂, -, hrevoked₂⟩ := hallowed.later.coupons c₁ hc₁
      exact ⟨c₂, hc₂, hid₂.trans hid₁, hrevoked₂ hrevoked₁⟩
    · rcases hallowed.redemptions r hr with hr | ⟨d, hd, hdid, hnone, -⟩
      · exact hold r hr hid
      · obtain rfl := eq_of_id hd hc₁ (hdid.trans (hid.trans hid₁.symm))
        rw [hnone] at hrevoked₁
        cases hrevoked₁

/-- A step of `redeem` changes the tables only if `redeem` returns with success. -/
theorem redeem_all_or_nothing (hrun : Reachable (step parseUuid) ⟨.start db₀, []⟩ p) {i : ℕ}
    {e : Event Query Query.Answer} {auth : AuthPrincipal} {code : String} {rest : Handler Reply}
    (hi : p.threads[i]? = some (.redeem auth code, rest))
    (hstep : step parseUuid p (.answer i e) = some p') :
    p'.store.db = p.store.db ∨ ∃ r, p'.threads[i]? = some (.redeem auth code, pure r) := by
  obtain ⟨op, rest', rest'', hi', hfollow, hexec, hset⟩ := step_answer hstep
  obtain ⟨rfl, rfl⟩ := Prod.mk.inj (Option.some.inj (hi.symm.trans hi'))
  obtain ⟨next, rfl, rfl⟩ := follow_one hfollow
  have heach := each_run (C := Op.Commits) each_program hrun _ (List.mem_of_getElem? hi)
  obtain ⟨d, hd, hperform⟩ := Option.bind_eq_some_iff.mp hexec
  have hlast : CommitsLast e.1 next := heach.1
  rcases hlast with hquiet | hlast
  · exact .inl (db_of_quiet (quiet_does hquiet hd) hperform)
  · rcases hlast _ e.2 d hd with rfl | ⟨r, hr⟩
    · exact .inl (congrArg Store.db (Option.some.inj hperform).symm)
    · refine .inr ⟨r, ?_⟩
      rw [hset, List.getElem?_set_self (List.getElem?_eq_some_iff.mp hi).1, hr]

/-- A user redeems a coupon at most once. -/
theorem redeemed_once (redemptions : Table Redemption RedemptionKeys) (coupon user : Uuid) :
    redemptions.rows.countP (fun r => r.couponId == coupon && r.userId == user) ≤ 1 := by
  rw [List.countP_eq_length_filter]
  have hpairs := redemptions.wf.filter fun r => r.couponId == coupon && r.userId == user
  have hkeys : ∀ r ∈ redemptions.rows.filter (fun r => r.couponId == coupon && r.userId == user),
      (r.couponId, r.userId) = (coupon, user) := by
    intro r hr
    simpa using (List.mem_filter.mp hr).2
  generalize redemptions.rows.filter _ = rows at hpairs hkeys
  match rows, hpairs, hkeys with
  | [], _, _ => exact Nat.zero_le 1
  | [r], _, _ => exact le_rfl
  | a :: b :: rest, hpairs, hkeys =>
    have hne : RedemptionKeys a b := (List.pairwise_cons.mp hpairs).1 b List.mem_cons_self
    refine absurd ?_ hne
    rw [hkeys a List.mem_cons_self, hkeys b (List.mem_cons_of_mem _ List.mem_cons_self)]

/-- In every interleaving of the requests, and whatever texts are UUIDs: a coupon counts its
    redemptions and keeps its limit; a user redeems it once, and only its holder does; nobody
    redeems it after its revocation; `redeem` changes nothing unless it succeeds; and nobody is
    added to an `admin_scope` group. -/
theorem coupons_sound (parseUuid : String → Option Uuid) (db₀ : Db) (h₀ : Balanced db₀) (p : System)
    (hrun : Reachable (step parseUuid) ⟨.start db₀, []⟩ p) :
    (∀ c ∈ p.store.db.coupons, c.usedCount.toInt = p.store.db.uses c.id ∧
      c.usedCount ≤ c.maxUses) ∧
    (∀ coupon user, p.store.db.redemptions.rows.countP
      (fun r => r.couponId == coupon && r.userId == user) ≤ 1) ∧
    (∀ r ∈ p.store.db.redemptions, ∃ c ∈ p.store.db.coupons, c.id = r.couponId ∧
      c.HeldBy r.userId) ∧
    (∀ c ∈ p.store.db.coupons, c.revokedAt.isSome = true → ∀ p', Reachable (step parseUuid) p p' →
      ∀ r ∈ p'.store.db.redemptions, r.couponId = c.id → r ∈ p.store.db.redemptions) ∧
    (∀ i e p' auth code rest, p.threads[i]? = some (.redeem auth code, rest) →
      step parseUuid p (.answer i e) = some p' → p'.store.db = p.store.db ∨
        ∃ r, p'.threads[i]? = some (.redeem auth code, pure r)) ∧
    ∀ l p', step parseUuid p l = some p' → ∀ m ∈ p'.store.db.members, m ∈ p.store.db.members ∨
      ∃ g ∈ p.store.db.groups, g.id = m.groupId ∧ g.isAdminScope = false := by
  have h := safe_system h₀ hrun
  exact ⟨fun c hc => ⟨h.inv.counts c hc, h.inv.limit c hc⟩, redeemed_once _, h.inv.holder,
    fun c hc hrevoked p' hlater => no_redemption_after h₀ hrun hc hrevoked hlater,
    fun i e p' auth code rest hi hstep => redeem_all_or_nothing hrun hi hstep,
    fun l p' hstep => (allowed_step h hstep).members⟩

/-! ## A run -/

/-- Somebody signed in, or Root. -/
def sampleAuth (user : Uuid) (kind : PrincipalType) : AuthPrincipal := ⟨user, 0, kind, .panel, ""⟩

/-- A coupon for one redemption by anybody. -/
def sampleBody : CreateCouponBody where
  code := "gift"
  actionType := "account_unlock"
  args := .obj []
  holderMode := "manual"
  holderPhiraId := none
  note := ""
  maxUses := some 1
  expiresAt := none

/-- Its row. -/
def sampleCoupon : Coupon := ⟨7, "GIFT", "account_unlock", .obj [], 1, 0, none, "manual", none, "",
  none, 0, none⟩

/-- Root creates the coupon and user 5 redeems it. -/
def sampleRun : List (Shared.Label Query Query.Answer Op) :=
  [.spawn (.create (sampleAuth 0 .root) sampleBody),
    .answer 0 ⟨.require (sampleAuth 0 .root) "coupon:create", .ok ()⟩, .answer 0 ⟨.now, (0 : ℕ)⟩,
    .answer 0 ⟨.insertCoupon "GIFT" "account_unlock" (.obj []) 1 none "manual" none "" none,
      .ok (7, 0)⟩,
    .spawn (.redeem (sampleAuth 5 .user) " Gift"), .answer 1 ⟨.begin, .ok ()⟩,
    .answer 1 ⟨.couponForUpdate "GIFT", .ok (some sampleCoupon)⟩, .answer 1 ⟨.now, (1 : ℕ)⟩,
    .answer 1 ⟨.redeemedBefore 7 5, .ok false⟩, .answer 1 ⟨.activate 5, .ok ()⟩,
    .answer 1 ⟨.now, (2 : ℕ)⟩, .answer 1 ⟨.countUse 7, .ok ()⟩,
    .answer 1 ⟨.insertRedemption 7 5 "account_unlock" (.obj [("status", .str "active")]) 2, .ok ()⟩,
    .answer 1 ⟨.commit, .ok ()⟩]

/-- The coupon has been redeemed once, which is all it allows. -/
theorem coupons_sound_once : ∃ p, Reachable (step Uuid.ofText) ⟨.start (.new [] [] []), []⟩ p ∧
    p.store.db.uses 7 = 1 ∧ ∀ c ∈ p.store.db.coupons, c.usedCount ≤ c.maxUses := by
  have hrun : (runFrom (step Uuid.ofText) ⟨.start (.new [] [] []), []⟩ sampleRun).any
      (fun p => decide (p.store.db.uses 7 = 1)) = true := by decide +kernel
  obtain ⟨p, hp, huses⟩ := exists_reachable_of_runFrom hrun
  have h := coupons_sound Uuid.ofText (.new [] [] []) (balanced_new [] [] []) p hp
  exact ⟨p, hp, of_decide_eq_true huses, fun c hc => (h.1 c hc).2⟩

end Ppb.Coupons
