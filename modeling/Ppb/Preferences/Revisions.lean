import Ppb.Preferences.Routes

/-!
# Do preferences lose an update?

`upsert` compares the client's revision with one it has read before, and then overwrites
the row whatever its revision is by then: two updates with the same revision both succeed.
And `delete` takes the revision away with the row, so the next one starts at 1 again, and an
old revision names a new row.

* `Guarded db e`: a write finds the revision it counts up from, and the row was never
  deleted.
* `no_lost_update`: in every run of guarded writes, an update overwrites the row that its
  client has read, one of two with the same revision fails, and the revisions go up.
-/

namespace Ppb.Preferences

open Prog Shared Trace

variable {db db' : Db} {key k : Key} {r : Int64} {e : Event Query Query.Answer}

/-- The revision that `get` finds. -/
def Db.revision (db : Db) (key : Key) : Int64 := revisionOf (db.rows key)

/-- What has happened to one row. -/
def Db.history (db : Db) (key : Key) : List (Option Int64) :=
  (db.log.filter (·.1 = key)).map (·.2)

/-- The revisions that were written, newest first. -/
def Db.writes (db : Db) (key : Key) : List Int64 := (db.history key).filterMap id

/-- The row was deleted once. -/
def Db.Erased (db : Db) (key : Key) : Prop := none ∈ db.history key

instance (db : Db) (key : Key) : Decidable (db.Erased key) :=
  inferInstanceAs (Decidable (_ ∈ _))

/-- A write finds the revision below its own, which can still be counted up, in a row that was
    never deleted. -/
def Guarded (db : Db) : Event Query Query.Answer → Prop
  | ⟨.put key revision _, .ok _⟩ =>
    revision = db.revision key + 1 ∧ db.revision key < Int64.maxValue ∧ ¬ db.Erased key
  | _ => True

/-! ## What a statement does to a row -/

theorem lt_next (h : r < Int64.maxValue) : r < r + 1 := by
  rw [Int64.lt_iff_toInt_lt] at h ⊢
  have hmin := Int64.le_toInt r
  have hmax : Int64.maxValue.toInt = 9223372036854775807 := by decide
  rw [Int64.toInt_add, Int64.toInt_one, Int.bmod_eq_of_le] <;> omega

/-- The row is as it was, and nothing has happened to it. -/
def Same (key : Key) (db db' : Db) : Prop :=
  db'.rows key = db.rows key ∧ db'.history key = db.history key

/-- One statement leaves a row alone, writes the next revision or deletes it. -/
inductive Change (key : Key) (db db' : Db) : Prop
  | same (h : Same key db db')
  | wrote (herased : ¬ db.Erased key) (hlt : db.revision key < db'.revision key)
      (h : db'.history key = some (db'.revision key) :: db.history key)
  | deleted (h : db'.history key = none :: db.history key)

theorem change_exec (hguarded : Guarded db e) (hexec : exec db e = some db') (key : Key) :
    Change key db db' := by
  cases exec_effect hexec with
  | unchanged h => exact .same ⟨by rw [h], by rw [h]⟩
  | wrote k revision data he h =>
    subst he
    obtain ⟨hnext, hmax, herased⟩ := hguarded
    by_cases hk : k = key
    · subst hk
      have hrevision : db'.revision k = revision := by simp [h, Db.put, Db.revision, revisionOf]
      refine .wrote herased ?_ ?_
      · rw [hrevision, hnext]
        exact lt_next hmax
      · rw [hrevision]
        simp [h, Db.put, Db.history]
    · refine .same ⟨?_, ?_⟩
      · simp [h, Db.put, Function.update_of_ne (Ne.symm hk)]
      · simp [h, Db.put, Db.history, hk]
  | deleted k hsome h =>
    by_cases hk : k = key
    · subst hk
      exact .deleted (by simp [h, Db.history])
    · refine .same ⟨?_, ?_⟩
      · simp [h, Function.update_of_ne (Ne.symm hk)]
      · simp [h, Db.history, hk]

/-- What was deleted stays so. -/
theorem Change.erased (h : Change key db db') (herased : db.Erased key) : db'.Erased key := by
  cases h with
  | same h => rwa [Db.Erased, h.2]
  | wrote _ _ h | deleted h =>
    rw [Db.Erased, h]
    exact List.mem_cons_of_mem _ herased

/-- The revision goes up, as long as the row is not deleted. -/
theorem Change.revision_le (h : Change key db db') (herased : ¬ db'.Erased key) :
    db.revision key ≤ db'.revision key := by
  cases h with
  | same h => rw [Db.revision, Db.revision, h.1]; exact Int64.le_refl _
  | wrote _ hlt _ => exact Int64.le_of_lt hlt
  | deleted h => exact absurd (by rw [Db.Erased, h]; exact List.mem_cons_self) herased

/-! ## Every run -/

/-- A run all of whose writes are guarded. -/
abbrev RunGuarded (p p' : System) : Prop :=
  Reaches step (Pool.Ok (fun _ _ => True) fun _ => Guarded) p p'

theorem change_step {p p' : System} {l : Label Query Query.Answer Op}
    (hok : p.Ok (fun _ _ => True) (fun _ => Guarded) l) (hstep : step p l = some p') (key : Key) :
    Change key p.store p'.store := by
  cases l with
  | spawn op =>
    obtain rfl := Option.some.inj hstep
    exact .same ⟨rfl, rfl⟩
  | answer i e =>
    obtain ⟨op, rest, rest', hi, -, hexec, -⟩ := Pool.step_answer hstep
    exact change_exec (hok _ hi) hexec key

/-- The revisions that were written go up, to the one that is there. -/
def Counts (db : Db) (key : Key) : Prop :=
  (db.writes key).Pairwise (· > ·) ∧ (¬ db.Erased key → ∀ r ∈ db.writes key, r ≤ db.revision key)

theorem Counts.change (h : Counts db key) (hchange : Change key db db') : Counts db' key := by
  cases hchange with
  | same hsame =>
    rw [Counts, Db.writes, Db.Erased, Db.revision, hsame.1, hsame.2]
    exact h
  | wrote hold hlt hhistory =>
    have hwrites : db'.writes key = db'.revision key :: db.writes key := by
      rw [Db.writes, hhistory]
      rfl
    have hbelow : ∀ r ∈ db.writes key, r < db'.revision key := fun r hr =>
      Int64.lt_of_le_of_lt (h.2 hold r hr) hlt
    rw [Counts, hwrites]
    refine ⟨List.pairwise_cons.mpr ⟨hbelow, h.1⟩, fun _ r hr => ?_⟩
    rcases List.mem_cons.mp hr with rfl | hr
    · exact Int64.le_refl _
    · exact Int64.le_of_lt (hbelow r hr)
  | deleted hhistory =>
    have hwrites : db'.writes key = db.writes key := by
      rw [Db.writes, hhistory]
      rfl
    have hgone : db'.Erased key := by
      rw [Db.Erased, hhistory]
      exact List.mem_cons_self
    rw [Counts, hwrites]
    exact ⟨h.1, fun hnot => absurd hgone hnot⟩

theorem counts_run {p : System} (hrun : RunGuarded .new p) (key : Key) : Counts p.store key := by
  refine hrun.invariant (I := fun p => Counts p.store key) ?_ fun p l p' h hok hstep =>
    h.change (change_step hok hstep key)
  simp [Counts, Db.writes, Db.history, System.new, Db.new]

/-- Since a state with the revision `r` nothing has happened to the row, or its revision has
    gone up, or it was deleted. -/
theorem since_run {p p' : System} (hrun : RunGuarded p p') (herased : ¬ p'.store.Erased key) :
    Same key p.store p'.store ∨ p.store.revision key < p'.store.revision key := by
  induction hrun with
  | start => exact .inl ⟨rfl, rfl⟩
  | @next p₁ p₂ l hreach hok hstep ih =>
    have hchange := change_step hok hstep key
    have hbefore := ih fun h => herased (hchange.erased h)
    have hle := hchange.revision_le herased
    rcases hbefore with hsame | hlt
    · cases hchange with
      | same h => exact .inl ⟨h.1.trans hsame.1, h.2.trans hsame.2⟩
      | wrote _ hlt _ =>
        refine .inr ?_
        rwa [Db.revision, ← hsame.1]
      | deleted h => exact absurd (by rw [Db.Erased, h]; exact List.mem_cons_self) herased
    · exact .inr (Int64.lt_of_lt_of_le hlt hle)

/-- The row of an update and the revision its client has read. -/
def Op.base : Op → Option (Key × Int64)
  | .update auth ns _ (some base) => some ((auth.sub, ns), base)
  | _ => none

/-- The write of an update. -/
def Writes : Event Query Query.Answer → Prop
  | ⟨.put .., .ok _⟩ => True
  | _ => False

theorem owes_program {op : Op} (hbase : op.base = some (key, r)) : op.program.Owes Writes := by
  cases op with
  | update auth ns data baseRevision =>
    refine Owes.bind (owes_bind fun _ => owes_bind fun _ => owes_bind fun current => ?_)
    refine owes_bind fun _ => owes_ask fun written => ?_
    cases written with
    | ok row => exact .inl trivial
    | error e => exact .inr owes_fail
  | getOne auth ns => cases hbase
  | deleteOne auth ns => cases hbase

/-- The update number `i`, of a client who has read the revision `r`, has succeeded. -/
def Saved (p : System) (i : ℕ) (key : Key) (r : Int64) : Prop :=
  ∃ op row, op.base = some (key, r) ∧ p.threads[i]? = some (op, .done (.ok row))

theorem Saved.past {p : System} {i : ℕ} (h : Saved p i key r) :
    p.Past Op.base (fun _ => Writes) (key, r) i := by
  obtain ⟨op, row, hbase, hi⟩ := h
  exact ⟨_, hi, hbase, fun howes => howes⟩

/-- The write of an update finds the revision of its client. -/
theorem writes_cases {op : Op} (hbase : op.base = some (key, r)) (hwrites : Writes e)
    (hasks : op.MayAsk e.1) (hguarded : Guarded db e) :
    ∃ data row, e = ⟨.put key (r + 1) data, .ok row⟩ ∧ db.revision key = r ∧ ¬ db.Erased key ∧
      r < Int64.maxValue := by
  obtain ⟨q, a⟩ := e
  cases q with
  | get key => exact hwrites.elim
  | delete key => exact hwrites.elim
  | put k revision data =>
    cases a with
    | error f => exact hwrites.elim
    | ok row =>
      cases op with
      | getOne auth ns => cases hbase
      | deleteOne auth ns => cases hbase
      | update auth ns data' baseRevision =>
        cases baseRevision with
        | none => cases hbase
        | some base =>
          obtain ⟨hkey, rfl⟩ := Prod.mk.inj (Option.some.inj hbase)
          obtain ⟨hk, -, hrevision⟩ := hasks
          obtain rfl : k = key := hk.trans hkey
          obtain rfl := hrevision base rfl
          obtain ⟨hnext, hmax, herased⟩ := hguarded
          have hfound : db.revision k = base := ((Int64.add_left_inj 1).mp hnext).symm
          exact ⟨data, row, rfl, hfound, herased, hfound ▸ hmax⟩

/-- Nobody else can use the revision any more. -/
def Used (db : Db) (slot : Key × Int64) : Prop := db.Erased slot.1 ∨ slot.2 < db.revision slot.1

/-- Two updates with the same revision that have both succeeded are one. -/
theorem saved_unique {p : System} (hrun : RunGuarded .new p) {i j : ℕ} (hi : Saved p i key r)
    (hj : Saved p j key r) : i = j := by
  have hasks := Pool.asks only_program rfl hrun
  refine Pool.at_most_once (I := fun _ => True) (U := Used) ?_ ?_ (fun op slot hbase => owes_program hbase)
    trivial rfl hasks hi.past hj.past
  · rintro db op e db' - ⟨hguarded, -⟩ hexec
    refine ⟨trivial, fun slot hused => ?_⟩
    have hchange := change_exec hguarded hexec slot.1
    by_cases herased : db'.Erased slot.1
    · exact .inl herased
    · refine .inr (Int64.lt_of_lt_of_le (hused.resolve_left ?_) (hchange.revision_le herased))
      exact fun hold => herased (hchange.erased hold)
  · rintro db op e db' ⟨k, base⟩ - ⟨hguarded, hask⟩ hexec hwrites hbase
    obtain ⟨data, row, rfl, hfound, herased, hmax⟩ := writes_cases hbase hwrites hask hguarded
    have hrow : row = ⟨k.1, k.2, base + 1, data⟩ := by
      by_contra hne
      simp [exec, orUnchanged, hne] at hexec
    have hnext : db'.revision k = base + 1 := by
      subst hrow
      simp only [exec, orUnchanged, if_true] at hexec
      rw [← Option.some.inj hexec]
      simp [Db.put, Db.revision, revisionOf]
    refine ⟨?_, .inr ?_⟩
    · rintro (hold | hlt)
      · exact herased hold
      · rw [hfound] at hlt
        exact Int64.lt_irrefl hlt
    · rw [hnext]
      exact lt_next hmax

/-- In every run of guarded writes: an update with the revision `r` that succeeds has written
    over the very row that was there whenever the revision was `r`, with no write or delete in
    between; two updates with the same revision do not both succeed; and the revisions that are
    written go up. -/
theorem no_lost_update (p : System) (hrun : RunGuarded .new p) :
    (∀ i key r, Saved p i key r → ∃ p₁ data row p₂, RunGuarded .new p₁ ∧
      step p₁ (.answer i ⟨.put key (r + 1) data, .ok row⟩) = some p₂ ∧ RunGuarded p₂ p ∧
      p₁.store.revision key = r ∧
      ∀ p₀, RunGuarded p₀ p₁ → p₀.store.revision key = r →
        p₁.store.rows key = p₀.store.rows key ∧ p₁.store.history key = p₀.store.history key) ∧
    (∀ i j key r, Saved p i key r → Saved p j key r → i = j) ∧
    ∀ key, (p.store.writes key).Pairwise (· > ·) := by
  refine ⟨fun i key r hi => ?_, fun i j key r hi hj => saved_unique hrun hi hj,
    fun key => (counts_run hrun key).1⟩
  have hweaken : ∀ {p p' : System}, Reaches step (Pool.Ok (fun _ _ => True)
      fun op db e => Guarded db e ∧ op.MayAsk e.1) p p' → RunGuarded p p' := fun h =>
    h.mono fun p l hok => by
      cases l with
      | spawn op => trivial
      | answer i e => exact fun t ht => (hok t ht).1
  obtain ⟨p₁, e, p₂, t, h₁, ht, hbase, hwrites, hok, hstep, h₂⟩ :=
    Pool.happened (C := fun _ => Writes) (F := fun _ rest => rest.Owes Writes)
      (fun op slot hbase => owes_program hbase) (fun _ _ _ _ h hf => h.follow hf) rfl
      (Pool.asks only_program rfl hrun) hi.past
  obtain ⟨hguarded, hasks⟩ := hok t ht
  obtain ⟨data, row, rfl, hfound, herased, -⟩ := writes_cases hbase hwrites hasks hguarded
  refine ⟨p₁, data, row, p₂, hweaken h₁, hstep, hweaken h₂, hfound, fun p₀ h₀ hr => ?_⟩
  refine (since_run h₀ herased).resolve_right fun hlt => ?_
  rw [hfound, hr] at hlt
  exact Int64.lt_irrefl hlt

/-! ### Two updates at once, and a row that was deleted -/

instance (db : Db) : ∀ e, Decidable (Guarded db e)
  | ⟨.put key revision _, .ok _⟩ => inferInstanceAs (Decidable
      (revision = db.revision key + 1 ∧ db.revision key < Int64.maxValue ∧ ¬ db.Erased key))
  | ⟨.put .., .error _⟩ | ⟨.get _, _⟩ | ⟨.delete _, _⟩ => .isTrue trivial

/-- The user 1 is signed in. -/
def sampleAuth : AuthPrincipal := ⟨1, 21, .user, .ppf, "r-1"⟩

/-- His row in a namespace. -/
def sampleKey : Key := (1, "common")

def sampleRow (revision : Int64) (data : Json) : UserPreference := ⟨1, "common", revision, data⟩

/-- The request number `i` saves `data` over the revision `base`, of a row it finds as `found`. -/
def saveTrace (i : ℕ) (data : Json) (base : Option Int64) (found : Option UserPreference) :
    List (Label Query Query.Answer Op) :=
  [.spawn (.update sampleAuth "common" data base), .answer i ⟨.get sampleKey, .ok found⟩,
    .answer i ⟨.put sampleKey (revisionOf found + 1) data, .ok (sampleRow (revisionOf found + 1) data)⟩]

/-- He saves, and then saves again what he has read. -/
theorem no_lost_update_twice :
    ∃ p : System, RunGuarded .new p ∧ p.store.revision sampleKey = 2 ∧
      (p.store.writes sampleKey).Pairwise (· > ·) := by
  have hrun : ((runWhile step (fun p l => decide (p.Ok (fun _ _ => True) (fun _ => Guarded) l)) .new
      (saveTrace 0 (.bool true) none none ++
        saveTrace 1 (.bool false) (some 1) (some (sampleRow 1 (.bool true))))).any
          fun p => decide (p.store.revision sampleKey = 2)) = true := by decide +kernel
  obtain ⟨p, hp, hrevision⟩ := exists_reaches_of_runWhile (fun _ _ h => of_decide_eq_true h) hrun
  exact ⟨p, hp, of_decide_eq_true hrevision, (no_lost_update p hp).2.2 sampleKey⟩

/-- Two updates with the revision 1 have read the row, and both are saved, with the same
    revision. And after a delete, an update with the revision 1 of the old row overwrites the
    new one, which has that revision too. -/
theorem not_no_lost_update_both :
    (∃ p : System, Reachable step .new p ∧
      (p.threads.map fun t => t.1.base) = [none, some (sampleKey, 1), some (sampleKey, 1)] ∧
      (p.threads.all fun t => t.2.result.any (·.isOk)) ∧ p.store.writes sampleKey = [2, 2, 1]) ∧
    ∃ p : System, Reachable step .new p ∧
      (p.threads.map fun t => t.1.base) = [none, none, none, some (sampleKey, 1)] ∧
      (p.threads.all fun t => t.2.result.any (·.isOk)) ∧
      p.store.history sampleKey = [some 2, some 1, none, some 1] := by
  constructor
  · have hrun : ((runFrom step .new (saveTrace 0 (.bool true) none none ++
        [.spawn (.update sampleAuth "common" (.bool false) (some 1)),
          .answer 1 ⟨.get sampleKey, .ok (some (sampleRow 1 (.bool true)))⟩] ++
        saveTrace 2 .null (some 1) (some (sampleRow 1 (.bool true))) ++
        [.answer 1 ⟨.put sampleKey 2 (.bool false), .ok (sampleRow 2 (.bool false))⟩])).any fun p =>
          decide ((p.threads.map fun t => t.1.base) =
              [none, some (sampleKey, 1), some (sampleKey, 1)] ∧
            (p.threads.all fun t => t.2.result.any (·.isOk)) ∧
            p.store.writes sampleKey = [2, 2, 1])) = true := by decide +kernel
    obtain ⟨p, hp, hboth⟩ := exists_reachable_of_runFrom hrun
    exact ⟨p, hp, of_decide_eq_true hboth⟩
  · have hrun : ((runFrom step .new (saveTrace 0 (.bool true) none none ++
        [.spawn (.deleteOne sampleAuth "common"), .answer 1 ⟨.delete sampleKey, .ok ()⟩] ++
        saveTrace 2 (.bool false) none none ++
        saveTrace 3 .null (some 1) (some (sampleRow 1 (.bool false))))).any fun p =>
          decide ((p.threads.map fun t => t.1.base) = [none, none, none, some (sampleKey, 1)] ∧
            (p.threads.all fun t => t.2.result.any (·.isOk)) ∧
            p.store.history sampleKey = [some 2, some 1, none, some 1])) = true := by decide +kernel
    obtain ⟨p, hp, hreset⟩ := exists_reachable_of_runFrom hrun
    exact ⟨p, hp, of_decide_eq_true hreset⟩

end Ppb.Preferences
