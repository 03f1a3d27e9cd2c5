import Ppb.JoinIntents.Ops

/-!
# The index of join intents

`by_phira` names, for each player, the intent that `match_online` will find. `create` is
meant to replace the user's earlier intent ("one join target at a time"), but it looks for
it under the id it has just drawn, so the earlier one stays. And `cancel`, `mark_terminal`
and `cleanup_expired` take the index away by player, whichever intent it names.

* `Tidy db e`: the access neither adds an active intent to a user who has one nor takes
  away the index of another intent that is still waiting.
* `Indexed`: the invariant, with `Indexed.create`, `Indexed.drop`, `Indexed.update` and
  `Indexed.unindex` for what the operations do.
* `index_kept`: over every sequence of operations all of whose accesses are tidy.
-/

namespace Ppb.JoinIntents

open Prog Shared Trace

variable {db db' : Db} {a : JoinIntent} {id : Uuid} {p : Int64}

/-! ## The invariant and its exceptions -/

/-- Neither finished nor expired. -/
def Active (now : ℕ) (a : JoinIntent) : Prop := a.status.isTerminal = false ∧ now < a.expiresAt

/-- Pending and not expired: the next `match_online` should find it. -/
def Waits (now : ℕ) (a : JoinIntent) : Prop := a.status = .pending ∧ now < a.expiresAt

instance (now : ℕ) (a : JoinIntent) : Decidable (Active now a) :=
  inferInstanceAs (Decidable (_ ∧ _))

instance (now : ℕ) (a : JoinIntent) : Decidable (Waits now a) :=
  inferInstanceAs (Decidable (_ ∧ _))

theorem Waits.active {now : ℕ} (h : Waits now a) : Active now a := ⟨by rw [h.1]; rfl, h.2⟩

/-- The user has no active intent. -/
def NoneActive (db : Db) (user : Uuid) : Prop :=
  ∀ a ∈ db.intents.rows, a.userId = user → ¬ Active db.clock a

/-- If the index of the player names another intent than `of`, that one does not wait. -/
def Free (db : Db) (p : Int64) (of : Uuid) : Prop :=
  ∀ i ∈ db.byPhira p, i ≠ of → ∀ a ∈ db.intents.rows, a.id = i → ¬ Waits db.clock a

/-- If a finished intent becomes active again, its user has no other one. -/
def Revives (db : Db) (id : Uuid) (status : Status) : Prop :=
  status.isTerminal = false → ∀ a ∈ db.intents.rows, a.id = id → a.status.isTerminal = true →
    db.clock < a.expiresAt → NoneActive db a.userId

instance (db : Db) (user : Uuid) : Decidable (NoneActive db user) :=
  inferInstanceAs (Decidable (∀ a ∈ db.intents.rows, a.userId = user → ¬ Active db.clock a))

instance (db : Db) (p : Int64) (of : Uuid) : Decidable (Free db p of) :=
  Option.decidableForallMem _

instance (db : Db) (id : Uuid) (status : Status) : Decidable (Revives db id status) :=
  inferInstanceAs (Decidable (_ → ∀ a ∈ db.intents.rows, a.id = id → a.status.isTerminal = true →
    db.clock < a.expiresAt → NoneActive db a.userId))

/-- The accesses that go wrong, left out. -/
def Tidy (db : Db) (e : Event Query Query.Answer) : Prop :=
  match e.1 with
  | .insertIntent user _ _ _ _ => NoneActive db user
  | .updateStatus id status => Revives db id status
  | .removePhira p of => Free db p of
  | _ => True

instance (db : Db) : ∀ e, Decidable (Tidy db e)
  | ⟨.insertIntent user _ _ _ _, _⟩ => inferInstanceAs (Decidable (NoneActive db user))
  | ⟨.updateStatus id status, _⟩ => inferInstanceAs (Decidable (Revives db id status))
  | ⟨.removePhira p of, _⟩ => inferInstanceAs (Decidable (Free db p of))
  | ⟨.now, _⟩ | ⟨.getIntent _, _⟩ | ⟨.lookIntent _, _⟩ | ⟨.removeIntent _, _⟩ | ⟨.intentIds, _⟩
  | ⟨.listIntents, _⟩ | ⟨.getPhira _, _⟩ | ⟨.insertPhira _ _, _⟩ | ⟨.forceMove _ _ _, _⟩ =>
    .isTrue trivial

structure Indexed (db : Db) : Prop where
  created : ∀ a ∈ db.intents, (a.id, a.phiraId) ∈ db.created
  index : ∀ p i, db.byPhira p = some i → ∃ a ∈ db.intents, a.id = i ∧ a.phiraId = p
  named : ∀ p, ∀ a ∈ db.intents, db.latest p = some a.id → Waits db.clock a → db.byPhira p = some a.id
  single : ∀ a ∈ db.intents, ∀ b ∈ db.intents, a.userId = b.userId → Active db.clock a →
    Active db.clock b → a = b

theorem indexed_new : Indexed .new where
  created := by simp [Db.new, Table.empty, Table.mem_def]
  index := by simp [Db.new]
  named := by simp [Db.new, Table.empty, Table.mem_def]
  single := by simp [Db.new, Table.empty, Table.mem_def]

/-- With time intents only expire. -/
theorem Indexed.tick {now : ℕ} (h : Indexed db) (hnow : db.clock ≤ now) :
    Indexed { db with clock := now } where
  created := h.created
  index := h.index
  named p a ha hlatest hwaits := h.named p a ha hlatest ⟨hwaits.1, hnow.trans_lt hwaits.2⟩
  single a ha b hb huser hactive hactive' :=
    h.single a ha b hb huser ⟨hactive.1, hnow.trans_lt hactive.2⟩ ⟨hactive'.1, hnow.trans_lt hactive'.2⟩

/-- The player of the latest intent under an id that was created. -/
theorem mem_created_of_latest {i : Uuid} (h : db.latest p = some i) : (i, p) ∈ db.created := by
  obtain ⟨c, hc, rfl⟩ := Option.map_eq_some_iff.mp h
  have hp : c.2 = p := by simpa using List.find?_some hc
  rw [← hp]
  exact List.mem_of_find?_eq_some hc

/-- `create`: the intent and then its index. -/
theorem Indexed.create (h : Indexed db) (hadds : Adds a db db') (hnone : NoneActive db a.userId) :
    Indexed (db'.setPhira a.phiraId (some a.id)) := by
  have hmem : ∀ b, b ∈ (db'.setPhira a.phiraId (some a.id)).intents → b ∈ db.intents ∨ b = a :=
    fun b hb => (hadds.mem b).mp hb
  have hclock : (db'.setPhira a.phiraId (some a.id)).clock = db.clock := hadds.clock
  have hlatest : ∀ p, (db'.setPhira a.phiraId (some a.id)).latest p =
      if a.phiraId = p then some a.id else db.latest p := fun p => latest_cons hadds.created
  refine ⟨fun b hb => ?_, fun p i hi => ?_, fun p b hb hnamed hwaits => ?_,
    fun b hb c hc huser hactive hactive' => ?_⟩
  · rw [setPhira_created, hadds.created]
    rcases hmem b hb with hb | rfl
    · exact List.mem_cons_of_mem _ (h.created b hb)
    · exact List.mem_cons_self
  · rw [setPhira_byPhira] at hi
    split_ifs at hi with hp
    · obtain rfl := Option.some.inj hi
      exact ⟨a, (hadds.mem a).mpr (.inr rfl), rfl, hp.symm⟩
    · rw [hadds.byPhira] at hi
      obtain ⟨b, hb, hid, hphira⟩ := h.index p i hi
      exact ⟨b, (hadds.mem b).mpr (.inl hb), hid, hphira⟩
  · rw [hlatest] at hnamed
    rw [hclock] at hwaits
    rw [setPhira_byPhira]
    by_cases hp : a.phiraId = p
    · rw [if_pos hp] at hnamed
      rw [if_pos hp.symm, hnamed]
    · rw [if_neg hp] at hnamed
      rw [if_neg (Ne.symm hp), hadds.byPhira]
      rcases hmem b hb with hb | rfl
      · exact h.named p b hb hnamed hwaits
      · exact absurd rfl (hadds.fresh _ (mem_created_of_latest hnamed))
  · rw [hclock] at hactive hactive'
    rcases hmem b hb with hb' | rfl <;> rcases hmem c hc with hc' | rfl
    · exact h.single b hb' c hc' huser hactive hactive'
    · exact absurd hactive (hnone b hb' huser)
    · exact absurd hactive' (hnone c hc' huser.symm)
    · rfl

/-- `cancel` and the end of an old intent: the intent and the index of its player. -/
theorem Indexed.drop (h : Indexed db) (ha : a ∈ db.intents) (hfree : Free db a.phiraId a.id) :
    Indexed ((db.setPhira a.phiraId none).removeIntent a.id) := by
  refine ⟨fun b hb => ?_, fun p i hi => ?_, fun p b hb hnamed hwaits => ?_,
    fun b hb c hc => ?_⟩
  · exact h.created b (mem_removeIntent.mp hb).1
  · rw [removeIntent_byPhira, setPhira_byPhira] at hi
    split_ifs at hi with hp
    obtain ⟨b, hb, hid, hphira⟩ := h.index p i hi
    refine ⟨b, mem_removeIntent.mpr ⟨hb, fun heq => hp ?_⟩, hid, hphira⟩
    rw [← hphira, eq_of_id hb ha heq]
  · obtain ⟨hb, hne⟩ := mem_removeIntent.mp hb
    have hindex : db.byPhira p = some b.id := h.named p b hb hnamed hwaits
    rw [removeIntent_byPhira, setPhira_byPhira]
    by_cases hp : p = a.phiraId
    · subst hp
      exact absurd hwaits (hfree b.id hindex hne b hb rfl)
    · rw [if_neg hp]
      exact hindex
  · exact h.single b (mem_removeIntent.mp hb).1 c (mem_removeIntent.mp hc).1

/-- A status that is not `pending`. -/
theorem Indexed.update {status : Status} (h : Indexed db) (hsets : SetsStatus id status db db')
    (hstatus : status ≠ .pending) (hrevives : Revives db id status) : Indexed db' := by
  have hlatest : db'.latest = db.latest := by
    funext p
    rw [Db.latest, hsets.created, Db.latest]
  refine ⟨fun y hy => ?_, fun p i hi => ?_, fun p y hy hnamed hwaits => ?_,
    fun y hy z hz huser hactive hactive' => ?_⟩
  · obtain ⟨x, hx, rfl⟩ := (hsets.mem y).mp hy
    rw [hsets.created]
    split_ifs
    · exact h.created x hx
    · exact h.created x hx
  · rw [hsets.byPhira] at hi
    obtain ⟨x, hx, hid, hphira⟩ := h.index p i hi
    refine ⟨_, (hsets.mem _).mpr ⟨x, hx, rfl⟩, ?_, ?_⟩
    · split_ifs
      · exact hid
      · exact hid
    · split_ifs
      · exact hphira
      · exact hphira
  · obtain ⟨x, hx, rfl⟩ := (hsets.mem y).mp hy
    rw [hlatest] at hnamed
    rw [hsets.clock] at hwaits
    rw [hsets.byPhira]
    split_ifs at hnamed hwaits ⊢ with hid
    · exact absurd hwaits.1 hstatus
    · exact h.named p x hx hnamed hwaits
  · obtain ⟨x, hx, rfl⟩ := (hsets.mem y).mp hy
    obtain ⟨w, hw, rfl⟩ := (hsets.mem z).mp hz
    rw [hsets.clock] at hactive hactive'
    -- an intent that has become active was so before, or is its user's only one
    have hbefore : ∀ u v : JoinIntent, u ∈ db.intents → v ∈ db.intents → u.userId = v.userId →
        u.id = id → v.id ≠ id → Active db.clock { u with status := status } →
        Active db.clock v → False := by
      intro u v hu hv huv hid hne hact hact'
      by_cases hterminal : u.status.isTerminal = true
      · exact hrevives hact.1 u hu hid hterminal hact.2 v hv huv.symm hact'
      · have hsame := h.single u hu v hv huv ⟨by simpa using hterminal, hact.2⟩ hact'
        exact hne (hsame ▸ hid)
    by_cases hxid : x.id = id <;> by_cases hwid : w.id = id
    · rw [eq_of_id hx hw (hxid.trans hwid.symm)]
    · simp only [if_pos hxid, if_neg hwid] at *
      exact (hbefore x w hx hw huser hxid hwid hactive hactive').elim
    · simp only [if_neg hxid, if_pos hwid] at *
      exact (hbefore w x hw hx huser.symm hwid hxid hactive' hactive).elim
    · simp only [if_neg hxid, if_neg hwid] at *
      exact h.single x hx w hw huser hactive hactive'

/-- `mark_terminal`: the index of the player of a finished intent. -/
theorem Indexed.unindex (h : Indexed db) (hfree : Free db p id)
    (hdone : ∀ b ∈ db.intents, b.id = id → ¬ Waits db.clock b) : Indexed (db.setPhira p none) := by
  refine ⟨h.created, fun p' i hi => ?_, fun p' b hb hnamed hwaits => ?_, h.single⟩
  · rw [setPhira_byPhira] at hi
    split_ifs at hi
    exact h.index p' i hi
  · have hindex : db.byPhira p' = some b.id := h.named p' b hb hnamed hwaits
    rw [setPhira_byPhira]
    by_cases hp : p' = p
    · subst hp
      by_cases hid : b.id = id
      · exact absurd hwaits (hdone b hb hid)
      · exact absurd hwaits (hfree b.id hindex hid b hb rfl)
    · rw [if_neg hp]
      exact hindex

/-! ## The operations, one after the other -/

/-- `p` runs alone, all its accesses are in `E`, and it ends in `P`. -/
abbrev Runs (E : Db → Event Query Query.Answer → Prop) {α : Type} (p : Handler α) (db : Db)
    (P : Db → Except ApiError α → Prop) : Prop :=
  Safe (fun db e db' => exec db e = some db' ∧ E db e) (fun _ => True) Eq (fun _ _ => True) p db P

section Rules

variable {E : Db → Event Query Query.Answer → Prop} {α β : Type} {P : Db → Except ApiError α → Prop} {W : Db → Except ApiError β → Prop}

theorem runs_pure {x : α} (h : P db (.ok x)) : Runs E (pure x) db P := by
  rintro _ rfl _
  exact h

theorem runs_fail {e : ApiError} (h : P db (.error e)) : Runs E (fail e) db P := by
  rintro _ rfl _
  exact h

theorem runs_ask {q : Query} {k : q.Answer → Handler α}
    (h : ∀ x db', exec db ⟨q, x⟩ = some db' → E db ⟨q, x⟩ → Runs E (k x) db' P) :
    Runs E (ask q >>= k) db P := by
  rintro _ rfl _ x db' hdoes
  exact ⟨⟨trivial, trivial⟩, h x db' hdoes.1 hdoes.2⟩

theorem runs_bind {p : Handler α} {k : α → Handler β} (hp : Runs E p db P)
    (hok : ∀ db' x, P db' (.ok x) → Runs E (k x) db' W)
    (herr : ∀ db' e, P db' (.error e) → W db' (.error e)) : Runs E (p >>= k) db W :=
  safe_bind Eq.refl trivial hp (fun db' x _ => hok db' x) fun db' e _ => herr db' e

/-- The last access. -/
theorem runs_last {q : Query} {P : Db → Except ApiError q.Answer → Prop}
    (h : ∀ x db', exec db ⟨q, x⟩ = some db' → E db ⟨q, x⟩ → P db' (.ok x)) :
    Runs E (ask q) db P := by
  rintro _ rfl _ x db' hdoes
  refine ⟨⟨trivial, trivial⟩, ?_⟩
  rintro _ rfl _
  exact h x db' hdoes.1 hdoes.2

end Rules

theorem runs_create {userId : Uuid} {phiraId : Int64} {roomId : String} {ttlSecs : Option ℤ}
    (h : Indexed db) : Runs Tidy (create userId phiraId roomId ttlSecs) db fun db' _ => Indexed db' := by
  apply safe_failIf_bind (fun _ _ heq _ => heq ▸ h)
  intro hroom
  apply safe_failIf_bind (fun _ _ heq _ => heq ▸ h)
  intro httl
  refine runs_ask fun now db₁ hexec _ => ?_
  simp only [exec] at hexec
  split_ifs at hexec with hnow
  obtain rfl := Option.some.inj hexec
  have h₁ := h.tick hnow
  refine runs_ask fun drawn db₂ hexec htidy => ?_
  obtain ⟨id, previous⟩ := drawn
  simp only [exec] at hexec
  split_ifs at hexec with hprevious
  have hadds := addIntent_spec hexec
  -- the id is new, so there is nothing to replace
  have hnone : previous = none := by
    rw [hprevious, find_eq_none]
    intro b hb heq
    exact hadds.fresh _ (h₁.created b hb) heq
  subst hnone
  refine runs_ask fun _ db₃ hexec _ => runs_pure ?_
  obtain rfl := Option.some.inj hexec
  exact h₁.create hadds htidy

/-- A look at the clock. -/
theorem runs_now {α : Type} {k : ℕ → Handler α} (h : Indexed db)
    (hk : ∀ now db', Indexed db' → Runs Tidy (k now) db' fun db'' _ => Indexed db'') :
    Runs Tidy (ask .now >>= k) db fun db'' _ => Indexed db'' := by
  refine runs_ask fun now db' hexec _ => hk now db' ?_
  simp only [exec] at hexec
  split_ifs at hexec with hnow
  obtain rfl := Option.some.inj hexec
  exact h.tick hnow

/-- A read of an intent. -/
theorem of_getIntent {found : Option JoinIntent} (h : exec db ⟨.getIntent id, found⟩ = some db') :
    db' = db ∧ found = db.find id := by
  simp only [exec] at h
  split_ifs at h with hfound
  exact ⟨(Option.some.inj h).symm, hfound⟩

theorem runs_cancel {userId id : Uuid} (h : Indexed db) :
    Runs Tidy (cancel userId id) db fun db' _ => Indexed db' := by
  refine runs_ask fun found db₁ hexec _ => ?_
  obtain ⟨rfl, hfound⟩ := of_getIntent hexec
  cases found with
  | none => exact runs_fail h
  | some a =>
    obtain ⟨ha, rfl⟩ := find_eq_some.mp hfound.symm
    dsimp only
    split_ifs
    · refine runs_ask fun _ db₂ hexec₂ hfree => ?_
      obtain rfl := Option.some.inj hexec₂
      refine runs_ask fun removed db₃ hexec₃ _ => runs_pure ?_
      simp only [exec] at hexec₃
      split_ifs at hexec₃
      obtain rfl := Option.some.inj hexec₃
      exact h.drop ha hfree
    · exact runs_fail h

theorem runs_matchOnline {phiraId : Int64} (h : Indexed db) :
    Runs Tidy (matchOnline phiraId) db fun db' _ => Indexed db' := by
  refine runs_ask fun index db₁ hexec _ => ?_
  simp only [exec] at hexec
  split_ifs at hexec
  obtain rfl := Option.some.inj hexec
  cases index with
  | none => exact runs_pure h
  | some id =>
    refine runs_ask fun found db₂ hexec _ => ?_
    simp only [exec] at hexec
    split_ifs at hexec
    obtain rfl := Option.some.inj hexec
    have h₂ : Indexed { db with
        looked := found.toList.map (fun a => (a, db.clock)) ++ db.looked } :=
      ⟨h.created, h.index, h.named, h.single⟩
    cases found with
    | none => exact runs_pure h₂
    | some intent =>
      refine runs_ask fun now db₃ hexec _ => ?_
      simp only [exec] at hexec
      split_ifs at hexec with hnow
      obtain rfl := Option.some.inj hexec
      have h₃ := h₂.tick hnow
      split_ifs
      · refine runs_ask fun _ db₄ hexec hrevives => runs_pure ?_
        exact h₃.update (setStatus_spec hexec) nofun hrevives
      · exact runs_pure h₃

theorem runs_markMoving (h : Indexed db) : Runs Tidy (markMoving id) db fun db' _ => Indexed db' :=
  runs_last fun _ _ hexec hrevives => h.update (setStatus_spec hexec) nofun hrevives

theorem runs_markTerminal {ok : Bool} (h : Indexed db) :
    Runs Tidy (markTerminal id (moveStatus ok)) db fun db' _ => Indexed db' := by
  refine runs_ask fun found db₁ hexec _ => ?_
  obtain ⟨rfl, -⟩ := of_getIntent hexec
  refine runs_ask fun _ db₂ hexec₂ hrevives => ?_
  have hsets := setStatus_spec hexec₂
  have hne : moveStatus ok ≠ .pending := by cases ok <;> nofun
  have h₂ := h.update hsets hne hrevives
  cases found with
  | none => exact runs_pure h₂
  | some a =>
    refine runs_last fun _ db₃ hexec₃ hfree => ?_
    obtain rfl := Option.some.inj hexec₃
    refine h₂.unindex hfree fun b hb hid hwaits => ?_
    obtain ⟨x, hx, rfl⟩ := (hsets.mem b).mp hb
    split_ifs at hid hwaits with hxid
    · exact hne hwaits.1
    · exact hxid hid

theorem runs_cleanupOne {now : ℕ} (h : Indexed db) :
    Runs Tidy (cleanupOne now id) db fun db' _ => Indexed db' := by
  refine runs_ask fun found db₁ hexec _ => ?_
  obtain ⟨rfl, hfound⟩ := of_getIntent hexec
  cases found with
  | none =>
    refine runs_ask fun _ db₂ hexec₂ hrevives => runs_pure ?_
    exact h.update (setStatus_spec hexec₂) nofun hrevives
  | some a =>
    obtain ⟨ha, rfl⟩ := find_eq_some.mp hfound.symm
    dsimp only
    split_ifs
    · exact runs_pure h
    · refine runs_ask fun removed db₂ hexec₂ _ => ?_
      simp only [exec] at hexec₂
      split_ifs at hexec₂ with hremoved
      obtain rfl := Option.some.inj hexec₂
      rw [← hfound] at hremoved
      subst hremoved
      refine runs_ask fun _ db₃ hexec₃ hfree => runs_pure ?_
      obtain rfl := Option.some.inj hexec₃
      refine h.drop ha fun i hi hne b hb hid => ?_
      exact hfree i hi hne b (mem_removeIntent.mpr ⟨hb, hid ▸ hne⟩) hid
    · exact runs_pure h
    · refine runs_ask fun _ db₂ hexec₂ hrevives => runs_pure ?_
      exact h.update (setStatus_spec hexec₂) nofun hrevives

theorem runs_cleanupAll {now : ℕ} {ids : List Uuid} (h : Indexed db) :
    Runs Tidy (cleanupAll now ids) db fun db' _ => Indexed db' := by
  induction ids generalizing db with
  | nil => exact runs_pure h
  | cons id rest ih =>
    refine runs_bind (runs_cleanupOne h) (fun db₁ n h₁ => ?_) fun _ _ herr => herr
    exact runs_bind (ih h₁) (fun db₂ m h₂ => runs_pure h₂) fun _ _ herr => herr

theorem runs_cleanupExpired (h : Indexed db) : Runs Tidy cleanupExpired db fun db' _ => Indexed db' := by
  refine runs_now h fun now db₁ h₁ => runs_ask fun ids db₂ hexec _ => ?_
  simp only [exec] at hexec
  split_ifs at hexec
  obtain rfl := Option.some.inj hexec
  exact runs_cleanupAll h₁

theorem runs_get {userId id : Uuid} (h : Indexed db) :
    Runs Tidy (get userId id) db fun db' _ => Indexed db' := by
  refine runs_ask fun found db₁ hexec _ => ?_
  obtain ⟨rfl, -⟩ := of_getIntent hexec
  cases found with
  | none => exact runs_fail h
  | some a =>
    dsimp only
    split_ifs
    · exact runs_now h fun now db₂ h₂ => runs_pure h₂
    · exact runs_fail h

theorem runs_effectiveAll {intents : List JoinIntent} (h : Indexed db) :
    Runs Tidy (effectiveAll intents) db fun db' _ => Indexed db' := by
  induction intents generalizing db with
  | nil => exact runs_pure h
  | cons a rest ih =>
    refine runs_now h fun now db₁ h₁ => ?_
    exact runs_bind (ih h₁) (fun db₂ out h₂ => runs_pure h₂) fun _ _ herr => herr

theorem runs_listForUser {userId : Uuid} (h : Indexed db) :
    Runs Tidy (listForUser userId) db fun db' _ => Indexed db' := by
  refine runs_now h fun now db₁ h₁ => runs_ask fun all db₂ hexec _ => ?_
  simp only [exec] at hexec
  split_ifs at hexec
  obtain rfl := Option.some.inj hexec
  exact runs_effectiveAll h₁

/-- Every operation, run alone with tidy accesses. -/
theorem runs_program (h : Indexed db) (op : Op) : Runs Tidy op.program db fun db' _ => Indexed db' := by
  have hmap : ∀ {α : Type} {p : Handler α} {f : α → Reply}, (Runs Tidy p db fun db' _ => Indexed db') →
      Runs Tidy (p >>= fun x => pure (f x)) db fun db' _ => Indexed db' :=
    fun hp => runs_bind hp (fun db' x h' => runs_pure h') fun _ _ herr => herr
  cases op with
  | create userId phiraId roomId ttlSecs => exact hmap (runs_create h)
  | get userId id => exact hmap (runs_get h)
  | cancel userId id => exact hmap (runs_cancel h)
  | listForUser userId => exact hmap (runs_listForUser h)
  | matchOnline phiraId => exact hmap (runs_matchOnline h)
  | markMoving id => exact hmap (runs_markMoving h)
  | markTerminal id ok => exact hmap (runs_markTerminal h)
  | cleanupExpired => exact hmap (runs_cleanupExpired h)

/-! ## The next `match_online` -/

/-- `match_online` returns the intent that the index names, if it still waits. -/
theorem match_named (ha : a ∈ db.intents) (hindex : db.byPhira p = some a.id)
    (hpending : a.status = .pending) :
    Runs (fun _ _ => True) (matchOnline p) db fun db' r => db'.clock < a.expiresAt →
      r = .ok (some { a with status := .userOnline }) := by
  refine runs_ask fun index db₁ hexec _ => ?_
  simp only [exec] at hexec
  split_ifs at hexec with hfound
  obtain rfl := Option.some.inj hexec
  rw [hindex] at hfound
  subst hfound
  refine runs_ask fun found db₂ hexec _ => ?_
  simp only [exec] at hexec
  split_ifs at hexec with hfound
  obtain rfl := Option.some.inj hexec
  rw [find_eq_some.mpr ⟨ha, rfl⟩] at hfound
  subst hfound
  refine runs_ask fun now db₃ hexec _ => ?_
  simp only [exec] at hexec
  split_ifs at hexec with hnow
  obtain rfl := Option.some.inj hexec
  by_cases htime : now < a.expiresAt
  · have heffective : effectiveStatus now a = .pending := by
      rw [effectiveStatus, if_neg (fun h => absurd h.1 (not_le.mpr htime)), hpending]
    rw [if_pos heffective]
    exact runs_ask fun _ db₄ _ _ => runs_pure fun _ => rfl
  · have heffective : effectiveStatus now a ≠ .pending := by
      rw [effectiveStatus, if_pos ⟨not_lt.mp htime, by rw [hpending]; rfl⟩]
      nofun
    rw [if_neg heffective]
    exact runs_pure fun hclock => absurd hclock htime

/-- Over every sequence of operations all of whose accesses are tidy: the index names
    stored intents of its players; if the latest intent of a player waits, the index names
    it and the next `match_online` before it expires returns it; and a user has at most one
    active intent. -/
theorem index_kept (db : Db)
    (hrun : Reaches (Alone exec Op.program) (fun db l => OkAll exec Tidy db l.2) .new db) :
    (∀ p i, db.byPhira p = some i → ∃ a ∈ db.intents, a.id = i ∧ a.phiraId = p) ∧
    (∀ p, ∀ a ∈ db.intents, db.latest p = some a.id → a.status = .pending →
      db.clock < a.expiresAt → db.byPhira p = some a.id ∧
        ∀ h r db', Alone exec Op.program db (.matchOnline p, h) = some db' →
          (Op.matchOnline p).program.Ends h r → db'.clock < a.expiresAt →
            r = .ok (.matched (some { a with status := .userOnline }))) ∧
    ∀ a ∈ db.intents, ∀ b ∈ db.intents, a.userId = b.userId → Active db.clock a →
      Active db.clock b → a = b := by
  have hindexed : Indexed db := by
    refine hrun.invariant indexed_new fun db l db' h hok hstep => ?_
    obtain ⟨r, -, h'⟩ := Alone.post (runs_program h l.1) trivial hok hstep
    exact h'
  refine ⟨hindexed.index, fun p a ha hlatest hpending htime => ?_, hindexed.single⟩
  have hindex := hindexed.named p a ha hlatest ⟨hpending, htime⟩
  refine ⟨hindex, fun h r db' halone hends hclock => ?_⟩
  have hmatch : Runs (fun _ _ => True) (Op.matchOnline p).program db fun db' r =>
      db'.clock < a.expiresAt → r = .ok (.matched (some { a with status := .userOnline })) := by
    refine runs_bind (match_named ha hindex hpending) (fun db' x hx => runs_pure fun hclock => ?_)
      fun db' e he hclock => ?_
    · rw [Except.ok.inj (hx hclock)]
    · cases he hclock
  obtain ⟨r', hends', hr'⟩ :=
    Alone.post hmatch trivial (okAll_of_forall (fun _ _ => trivial) _ _) halone
  rw [show r = r' from Option.some.inj (hends.symm.trans hends')]
  exact hr' hclock

/-! ### One user, two rooms -/

/-- The user 1, whose player is 5, creates the intent `id` for a room. -/
def createRun (id : Uuid) (roomId : String) : Op × History Query Query.Answer :=
  (.create 1 5 roomId none, [⟨.now, (1000 : ℕ)⟩,
    ⟨.insertIntent 1 5 roomId 1000 300000001000, (id, none)⟩, ⟨.insertPhira 5 id, ()⟩])

/-- He cancels the intent 11. -/
def cancelRun : Op × History Query Query.Answer :=
  (.cancel 1 11, [⟨.getIntent 11, some ⟨11, 1, 5, "R1", 1000, 300000001000, .pending⟩⟩,
    ⟨.removePhira 5 11, ()⟩,
    ⟨.removeIntent 11, some ⟨11, 1, 5, "R1", 1000, 300000001000, .pending⟩⟩])

theorem index_kept_created :
    ∃ db, Reaches (Alone exec Op.program) (fun db l => OkAll exec Tidy db l.2) .new db ∧
      db.byPhira 5 = some 11 ∧ ∃ a ∈ db.intents, a.id = 11 ∧ a.phiraId = 5 := by
  have hrun : ((runWhile (Alone exec Op.program) (fun db l => decide (OkAll exec Tidy db l.2)) .new
      [createRun 11 "R1"]).any fun db => decide (db.byPhira 5 = some 11)) = true := by decide +kernel
  obtain ⟨db, hdb, hindex⟩ := exists_reaches_of_runWhile (fun _ _ h => of_decide_eq_true h) hrun
  have hnamed := of_decide_eq_true hindex
  exact ⟨db, hdb, hnamed, (index_kept db hdb).1 5 11 hnamed⟩

/-- The user creates an intent for one room and then one for another: both are active.
    He cancels the first: the second still waits, and the index does not name it. -/
theorem not_index_kept_cancelled :
    (∃ db, Reachable (Alone exec Op.program) .new db ∧
      ∃ a ∈ db.intents.rows, ∃ b ∈ db.intents.rows, a.userId = b.userId ∧ Active db.clock a ∧
        Active db.clock b ∧ a ≠ b) ∧
    ∃ db, Reachable (Alone exec Op.program) .new db ∧
      ∃ a ∈ db.intents.rows, db.latest 5 = some a.id ∧ a.status = .pending ∧
        db.clock < a.expiresAt ∧ db.byPhira 5 = none := by
  constructor
  · have hrun : ((runFrom (Alone exec Op.program) .new [createRun 11 "R1", createRun 12 "R2"]).any
        fun db => decide (∃ a ∈ db.intents.rows, ∃ b ∈ db.intents.rows, a.userId = b.userId ∧
          Active db.clock a ∧ Active db.clock b ∧ a ≠ b)) = true := by decide +kernel
    obtain ⟨db, hdb, htwo⟩ := exists_reachable_of_runFrom hrun
    exact ⟨db, hdb, of_decide_eq_true htwo⟩
  · have hrun : ((runFrom (Alone exec Op.program) .new
        [createRun 11 "R1", createRun 12 "R2", cancelRun]).any fun db =>
          decide (∃ a ∈ db.intents.rows, db.latest 5 = some a.id ∧ a.status = .pending ∧
            db.clock < a.expiresAt ∧ db.byPhira 5 = none)) = true := by decide +kernel
    obtain ⟨db, hdb, hlost⟩ := exists_reachable_of_runFrom hrun
    exact ⟨db, hdb, of_decide_eq_true hlost⟩

end Ppb.JoinIntents
