import Ppb.Jobs.Exclusion

/-!
# What a successful cancel means

`cancel` answers `Ok` when its lookup saw the row `queued`; it then sets the
flag it finds in `cancels`, if there is one. The task loads its flag once, after
it has written `running`. If it finds the flag set it writes `cancelled`, and
`run` then writes the outcome of `execute`, the error `cancelled`, as `failed`.

Results:
* `truthful_of_reaches`: a cancelled run dispatches nothing, leaves its row
  `cancelled`, and only such runs do, if every `cancel` sets the flag of the run
  it saw before that run loads it, and if the last write of a cancelled run
  never reaches the database.
* `not_truthful_after_cancel`: with a working database the row of a cancelled
  run ends `failed`.
-/

namespace Ppb.Jobs

open Ppb.Trace

variable {deployment : Deployment} {s s' : State} {l : Label}

/-- What `Ok` from `cancel` promises, and that nothing else ends in `cancelled`.
    `owner` names the latest run of a job, so a row that a later retry re-queued
    is no longer bound by an older cancel. -/
structure Truthful (s : State) : Prop where
  never_dispatches : ∀ r ∈ s.cancelOk, r ∉ s.dispatched
  ends_cancelled : ∀ r ∈ s.cancelOk, r ∈ s.ended → ∀ row ∈ s.rows, s.owner row.id = some r →
    row.state = .cancelled
  only_cancelled : ∀ row ∈ s.rows, row.state = .cancelled → ∀ r ∈ s.ended,
    s.owner row.id = some r → r ∈ s.cancelOk

/-- Each `cancel` sets the flag of the run its lookup saw, and that run has not
    loaded it; a cancelled run writes `cancelled`, and its last write is lost. -/
def CancelsInTime (s : State) : Label → Prop
  | .cancelStore job none => ∀ x ∈ s.runs, x.job ≠ job
  | .cancelStore job (some r) =>
    s.cancels job = some r ∧ ∃ x ∈ s.runs, x.id = r ∧ x.phase.beforeLoad = true
  | .run _ .writeCancelled ok => ok = true
  | .run r .finish ok => ∀ x ∈ s.runs, x.id = r → x.phase = .cancelWritten → ok = false
  | _ => True

instance (s : State) (l : Label) : Decidable (CancelsInTime s l) := by
  unfold CancelsInTime; split <;> infer_instance

/-! ## The invariant -/

/-- The run loaded its flag and found it clear, and has not finished. -/
def Phase.cleared : Phase → Bool
  | .ticking | .sleeping | .executing | .finishing _ => true
  | _ => false

/-- The run found its flag set, and has not finished. -/
def Phase.stopped : Phase → Bool
  | .cancelSeen | .cancelWritten => true
  | _ => false

/-- What the phase of a run says about its cancellation. -/
structure RunTruth (s : State) (x : Run) : Prop where
  owner : s.owner x.job = some x.id
  flag : x.flag = true ↔ x.id ∈ s.cancelOk
  undispatched : x.phase.beforeLoad = true → x.id ∉ s.dispatched
  alive : x.id ∉ s.ended
  cleared : x.phase.cleared = true → x.flag = false
  stopped : x.phase.stopped = true → x.flag = true
  written : x.flag = true → x.phase.afterTerminal = true → ∀ row ∈ s.rows, row.id = x.job →
    row.state = .cancelled

/-- The invariant behind `Truthful`. -/
structure Truth (s : State) : Prop where
  run : ∀ x ∈ s.runs, RunTruth s x
  cancels : ∀ j r, s.cancels j = some r → r < s.next ∧ ∀ x ∈ s.runs, x.id = r → x.job = j
  owner_inj : ∀ j j' r, s.owner j = some r → s.owner j' = some r → j = j'
  owner_fresh : ∀ j r, s.owner j = some r → r < s.next
  cancelOk_fresh : ∀ r ∈ s.cancelOk, r < s.next
  dispatched_fresh : ∀ r ∈ s.dispatched, r < s.next
  ended_fresh : ∀ r ∈ s.ended, r < s.next
  never : ∀ r ∈ s.cancelOk, r ∉ s.dispatched
  ends : ∀ r ∈ s.cancelOk, r ∈ s.ended → ∀ row ∈ s.rows, s.owner row.id = some r →
    row.state = .cancelled
  only : ∀ row ∈ s.rows, row.state = .cancelled → ∀ r, s.owner row.id = some r → r ∈ s.cancelOk

theorem Truth.truthful (h : Truth s) : Truthful s :=
  ⟨h.never, h.ends, fun row hrow hc r _ ho => h.only row hrow hc r ho⟩

theorem Truth.init (rows : JobTable) : Truth (State.init rows) := by
  constructor <;> simp [State.init]

/-- A queued row and a fresh run. -/
theorem Truth.enqueue (h : Truth s) {rows : JobTable} {job : Uuid} {jobType : String}
    (hback : ∀ row' ∈ rows, row'.id ≠ job → row' ∈ s.rows)
    (hq : ∀ row ∈ rows, row.id = job → row.state = .queued)
    (hnew : ∀ x ∈ s.runs, x.job ≠ job) : Truth (s.enqueue rows job jobType) := by
  have howner : ∀ {j r}, (s.enqueue rows job jobType).owner j = some r →
      (j = job ∧ r = s.next) ∨ (j ≠ job ∧ s.owner j = some r) := by
    intro j r hj
    simp only [State.enqueue, Function.update_apply] at hj
    split_ifs at hj with hjj
    · exact .inl ⟨hjj, (Option.some.inj hj).symm⟩
    · exact .inr ⟨hjj, hj⟩
  have hlt : ∀ {r}, r < s.next → r < (s.enqueue rows job jobType).next := Nat.lt_succ_of_lt
  refine
    { run := ?_, cancels := ?_, owner_inj := ?_, owner_fresh := ?_
      cancelOk_fresh := fun r hr => hlt (h.cancelOk_fresh r hr)
      dispatched_fresh := fun r hr => hlt (h.dispatched_fresh r hr)
      ended_fresh := fun r hr => hlt (h.ended_fresh r hr)
      never := h.never, ends := ?_, only := ?_ }
  · intro x hx
    rcases List.mem_append.mp hx with hx | hx
    · have h0 := h.run x hx
      refine ⟨?_, h0.flag, h0.undispatched, h0.alive, h0.cleared, h0.stopped, ?_⟩
      · rw [← h0.owner]
        exact Function.update_of_ne (hnew x hx) _ _
      · intro hf hp row hrow hid
        exact h0.written hf hp row (hback row hrow (hid ▸ hnew x hx)) hid
    · rw [List.mem_singleton.mp hx]
      refine ⟨Function.update_self _ _ _, ?_, ?_, ?_, by simp, by simp [Phase.stopped], by simp⟩
      · exact ⟨by simp, fun hr => absurd rfl (h.cancelOk_fresh _ hr).ne⟩
      · exact fun _ hr => (h.dispatched_fresh _ hr).ne rfl
      · exact fun hr => (h.ended_fresh _ hr).ne rfl
  · intro j r hj
    obtain ⟨h1, h2⟩ := h.cancels j r hj
    refine ⟨hlt h1, fun x hx hid => ?_⟩
    rcases List.mem_append.mp hx with hx | hx
    · exact h2 x hx hid
    · rw [List.mem_singleton.mp hx] at hid
      exact absurd hid.symm h1.ne
  · intro j j' r hj hj'
    rcases howner hj with ⟨rfl, rfl⟩ | ⟨-, ho⟩ <;> rcases howner hj' with ⟨rfl, hr⟩ | ⟨-, ho'⟩
    · rfl
    · exact absurd rfl (h.owner_fresh _ _ ho').ne
    · exact absurd hr (h.owner_fresh _ _ ho).ne
    · exact h.owner_inj j j' r ho ho'
  · intro j r hj
    rcases howner hj with ⟨-, rfl⟩ | ⟨-, ho⟩
    · exact Nat.lt_succ_self _
    · exact hlt (h.owner_fresh j r ho)
  · intro r hr he row hrow ho
    rcases howner ho with ⟨-, rfl⟩ | ⟨hne, ho⟩
    · exact absurd rfl (h.ended_fresh _ he).ne
    · exact h.ends r hr he row (hback row hrow hne) ho
  · intro row hrow hc r ho
    rcases howner ho with ⟨hid, -⟩ | ⟨hne, ho⟩
    · rw [hq row hrow hid] at hc
      cases hc
    · exact h.only row (hback row hrow hne) hc r ho

/-- Steps that touch no row and no history, and drop runs or leave them as far
    as they were. -/
theorem Truth.of_back (h : Truth s) (hrows : s'.rows = s.rows) (hnext : s'.next = s.next)
    (howner : s'.owner = s.owner) (hok : s'.cancelOk = s.cancelOk)
    (hdis : s'.dispatched = s.dispatched) (hend : s'.ended = s.ended)
    (hrun : ∀ x ∈ s'.runs, RunTruth s x)
    (hcan : ∀ j r, s'.cancels j = some r → r < s.next ∧ ∀ x ∈ s'.runs, x.id = r → x.job = j) :
    Truth s' := by
  refine
    { run := fun x hx => ?_, cancels := by rw [hnext]; exact hcan
      owner_inj := by rw [howner]; exact h.owner_inj
      owner_fresh := by rw [howner, hnext]; exact h.owner_fresh
      cancelOk_fresh := by rw [hok, hnext]; exact h.cancelOk_fresh
      dispatched_fresh := by rw [hdis, hnext]; exact h.dispatched_fresh
      ended_fresh := by rw [hend, hnext]; exact h.ended_fresh
      never := by rw [hok, hdis]; exact h.never
      ends := by rw [hok, hend, hrows, howner]; exact h.ends
      only := by rw [hrows, howner, hok]; exact h.only }
  obtain ⟨h1, h2, h3, h4, h5, h6, h7⟩ := hrun x hx
  exact ⟨howner ▸ h1, hok ▸ h2, hdis ▸ h3, hend ▸ h4, h5, h6, hrows ▸ h7⟩

/-! ## The steps of a run -/

/-- Where a move leads, seen from the cancellation of its run. The type of a run
    is registered, so `execute` never stops at the registry. -/
theorem RunTruth.phase {x : Run} {l : RunLabel} {m : Move} (h : RunTruth s x)
    (hd : (getDescriptor x.jobType).isSome) (hm : x.move deployment l = some m) :
    (m.phase.beforeLoad = true → x.id ∉ s.dispatched ∧ m.dispatches = false) ∧
      (m.phase.cleared = true → x.flag = false) ∧ (m.phase.stopped = true → x.flag = true) ∧
      (m.dispatches = true → x.flag = false) := by
  cases move_moves hm with
  | unknown e hp h0 => rw [h0] at hd; cases hd
  | spawn hp => exact ⟨fun _ => ⟨h.undispatched (by rw [hp]; rfl), rfl⟩, nofun, nofun, nofun⟩
  | markRunning hp => exact ⟨fun _ => ⟨h.undispatched (by rw [hp]; rfl), rfl⟩, nofun, nofun, nofun⟩
  | seen hp hf => exact ⟨nofun, nofun, fun _ => hf, nofun⟩
  | clear hp hf => exact ⟨nofun, fun _ => hf, nofun, nofun⟩
  | writeCancelled hp => exact ⟨nofun, nofun, fun _ => h.stopped (by rw [hp]; rfl), nofun⟩
  | tick stage hp => exact ⟨nofun, fun _ => h.cleared (by rw [hp]; rfl), nofun, nofun⟩
  | refuse l e hp => exact ⟨nofun, fun _ => h.cleared (by rw [hp]; rfl), nofun, nofun⟩
  | dispatch hp =>
    have hf := h.cleared (by rw [hp]; rfl)
    exact ⟨nofun, fun _ => hf, nofun, fun _ => hf⟩
  | executed r r' hp => exact ⟨nofun, fun _ => h.cleared (by rw [hp]; rfl), nofun, nofun⟩
  | finish r hp => exact ⟨nofun, nofun, nofun, nofun⟩
  | finishCancelled hp => exact ⟨nofun, nofun, nofun, nofun⟩

/-- The row of a cancelled run after its terminal write, in time. -/
theorem RunTruth.row_cancelled {x : Run} {l : RunLabel} {m : Move} {ok : Bool} (h : RunTruth s x)
    (hx : x ∈ s.runs) (hm : x.move deployment l = some m) (hok : CancelsInTime s (.run x.id l ok))
    (hf : x.flag = true) (hp : m.phase.afterTerminal = true) {row' : JobRow}
    (hrow' : row' ∈ (s.advance x m ok).rows) (hid : row'.id = x.job) : row'.state = .cancelled := by
  obtain ⟨row, hrow, hrid, ⟨w, hw, rfl, rfl⟩ | ⟨rfl, hlost⟩⟩ := row_advance hrow' hid
  · cases move_moves hm with
    | writeCancelled h0 => cases hw; rfl
    | finish r h0 =>
      rw [h.cleared (by rw [h0]; rfl)] at hf
      cases hf
    | finishCancelled h0 => exact absurd (hok x hx rfl h0) nofun
    | _ => cases hp
  · cases move_moves hm with
    | writeCancelled h0 =>
      obtain rfl : ok = true := hok
      obtain ⟨t, ht⟩ := terminal_write_commits s.rows x.job
        (w := ⟨.cancelled, "cancelled", "cancelled"⟩) rfl
      rcases hlost with hlost | hlost
      · cases hlost
      · exact absurd (ht.symm.trans hlost) nofun
    | finish r h0 =>
      rw [h.cleared (by rw [h0]; rfl)] at hf
      cases hf
    | finishCancelled h0 => exact h.written hf (by rw [h0]; rfl) row' hrow hrid
    | _ => cases hp

theorem RunTruth.flag_of_writes_cancelled {x : Run} {l : RunLabel} {m : Move} {w : StateWrite}
    (h : RunTruth s x) (hm : x.move deployment l = some m) (hw : m.write = some w)
    (hc : w.state = .cancelled) : x.flag = true := by
  cases move_moves hm with
  | writeCancelled h0 => exact h.stopped (by rw [h0]; rfl)
  | finish r h0 => cases hw; exact absurd hc (finalWrite_ne_cancelled r)
  | finishCancelled h0 => cases hw; exact absurd hc (finalWrite_ne_cancelled _)
  | _ => cases hw <;> cases hc

theorem Truth.advance (hw : Wf s) (hr : SingleRun s) (h : Truth s) {x : Run} {l : RunLabel}
    {m : Move} {ok : Bool} (hx : x ∈ s.runs) (hm : x.move deployment l = some m)
    (hok : CancelsInTime s (.run x.id l ok)) : Truth (s.advance x m ok) := by
  have hx0 := h.run x hx
  obtain ⟨hbefore, hcleared, hstopped, hdis⟩ := hx0.phase (hw.known x hx) hm
  have hmem : ∀ r, r ∈ (s.advance x m ok).dispatched ↔
      (m.dispatches = true ∧ r = x.id) ∨ r ∈ s.dispatched := by
    intro r
    simp only [State.advance]
    split_ifs with hd <;> simp [hd]
  -- a row of another job is as before
  have hback : ∀ row' ∈ (s.advance x m ok).rows, row'.id ≠ x.job → row' ∈ s.rows := by
    intro row' hrow' hne
    obtain ⟨row, hrow, hid, -, hkeep⟩ := (touched_advance s x m ok).back row' hrow'
    rw [hkeep (hid ▸ hne)]
    exact hrow
  refine
    { run := ?_, cancels := ?_, owner_inj := h.owner_inj, owner_fresh := h.owner_fresh
      cancelOk_fresh := h.cancelOk_fresh, dispatched_fresh := ?_, ended_fresh := h.ended_fresh
      never := ?_, ends := ?_, only := ?_ }
  · intro y' hy'
    obtain ⟨y, hy, ⟨hyx, rfl⟩ | ⟨hyx, rfl⟩⟩ := mem_advance hy'
    · obtain rfl := hw.eq_of_id hy hx hyx
      refine ⟨hx0.owner, hx0.flag, ?_, hx0.alive, hcleared, hstopped, ?_⟩
      · intro hp hd
        rcases (hmem _).mp hd with ⟨hd, -⟩ | hd
        · rw [(hbefore hp).2] at hd
          cases hd
        · exact (hbefore hp).1 hd
      · exact fun hf hp row' hrow' hid => hx0.row_cancelled hx hm hok hf hp hrow' hid
    · obtain ⟨h1, h2, h3, h4, h5, h6, h7⟩ := h.run y' hy
      refine ⟨h1, h2, ?_, h4, h5, h6, ?_⟩
      · intro hp hd
        rcases (hmem _).mp hd with ⟨-, hd⟩ | hd
        · exact hyx hd
        · exact h3 hp hd
      · intro hf hp row hrow hid
        refine h7 hf hp row (hback row hrow ?_) hid
        rintro hrx
        exact hyx (hr.job y' hy x hx (hid.symm.trans hrx))
  · intro j r hj
    obtain ⟨h1, h2⟩ := h.cancels j r hj
    refine ⟨h1, fun y' hy' hid => ?_⟩
    obtain ⟨y, hy, ⟨-, rfl⟩ | ⟨-, rfl⟩⟩ := mem_advance hy'
    · exact h2 y hy hid
    · exact h2 y' hy hid
  · intro r hr
    rcases (hmem r).mp hr with ⟨-, rfl⟩ | hr
    · exact hw.fresh x hx
    · exact h.dispatched_fresh r hr
  · intro r hr hd
    rcases (hmem r).mp hd with ⟨hd', rfl⟩ | hd
    · -- the run that dispatches loaded a clear flag
      exact absurd (hx0.flag.mpr hr) (by simp [hdis hd'])
    · exact h.never r hr hd
  · intro r hr he row hrow ho
    refine h.ends r hr he row (hback row hrow ?_) ho
    rintro hid
    have hxr : some x.id = some r := by rw [← hx0.owner, ← hid]; exact ho
    exact hx0.alive (Option.some.inj hxr ▸ he)
  · intro row' hrow' hc r ho
    by_cases hid : row'.id = x.job
    · obtain ⟨row, hrow, hrid, ⟨w, hww, -, rfl⟩ | ⟨rfl, -⟩⟩ := row_advance hrow' hid
      · have hxr : some x.id = some r := by rw [← hx0.owner, ← hid]; exact ho
        rw [← Option.some.inj hxr]
        exact hx0.flag.mp (hx0.flag_of_writes_cancelled hm hww hc)
      · exact h.only row' hrow hc r ho
    · exact h.only row' (hback row' hrow' hid) hc r ho

/-! ## The other steps -/

theorem Truth.remove (hw : Wf s) (h : Truth s) {x : Run} (hx : x ∈ s.runs)
    (hp : x.phase = .finished) : Truth (s.remove x) := by
  have hx0 := h.run x hx
  refine
    { run := ?_, cancels := ?_, owner_inj := h.owner_inj, owner_fresh := h.owner_fresh
      cancelOk_fresh := h.cancelOk_fresh, dispatched_fresh := h.dispatched_fresh
      ended_fresh := ?_, never := h.never, ends := ?_, only := h.only }
  · intro y hy
    obtain ⟨hy, hne⟩ := List.mem_filter.mp hy
    obtain ⟨h1, h2, h3, h4, h5, h6, h7⟩ := h.run y hy
    refine ⟨h1, h2, h3, ?_, h5, h6, h7⟩
    intro he
    rcases List.mem_cons.mp he with he | he
    · exact of_decide_eq_true hne he
    · exact h4 he
  · intro j r hj
    simp only [State.remove, Function.update_apply] at hj
    split_ifs at hj
    obtain ⟨h1, h2⟩ := h.cancels j r hj
    exact ⟨h1, fun y hy => h2 y (List.mem_filter.mp hy).1⟩
  · intro r hr
    rcases List.mem_cons.mp hr with rfl | hr
    · exact hw.fresh x hx
    · exact h.ended_fresh r hr
  · intro r hr he row hrow ho
    rcases List.mem_cons.mp he with rfl | he
    · -- the run that ends: its row is of its own job
      have hid : row.id = x.job := h.owner_inj _ _ _ ho hx0.owner
      exact hx0.written (hx0.flag.mpr hr) (by rw [hp]; rfl) row hrow hid
    · exact h.ends r hr he row hrow ho

theorem Truth.storeFlag (hw : Wf s) (h : Truth s) {job : Uuid} {run : Option ℕ}
    (hok : CancelsInTime s (.cancelStore job run)) : Truth (s.storeFlag job run) := by
  cases run with
  | none =>
    -- no run of this job is left, so no flag changes
    have hruns : (s.storeFlag job none).runs = s.runs := by
      refine (List.map_congr_left fun y hy => if_neg fun hc => ?_).trans (List.map_id s.runs)
      exact hok y hy ((h.cancels job y.id hc).2 y hy rfl)
    refine h.of_back rfl rfl rfl rfl rfl rfl ?_ ?_
    · rw [hruns]; exact h.run
    · rw [hruns]; exact h.cancels
  | some r =>
    obtain ⟨hc, x, hx, rfl, hp⟩ := hok
    have hx0 := h.run x hx
    have hmem : ∀ y' ∈ (s.storeFlag job (some x.id)).runs,
        y' = { x with flag := true } ∨ (y'.id ≠ x.id ∧ y' ∈ s.runs) := by
      intro y' hy'
      obtain ⟨y, hy, rfl⟩ := List.mem_map.mp hy'
      split_ifs with hcy
      · obtain rfl := hw.eq_of_id hy hx (Option.some.inj (hcy.symm.trans hc))
        exact .inl rfl
      · exact .inr ⟨fun hid => hcy (by rw [hc, hid]), hy⟩
    refine
      { run := ?_, cancels := ?_, owner_inj := h.owner_inj, owner_fresh := h.owner_fresh
        cancelOk_fresh := ?_, dispatched_fresh := h.dispatched_fresh
        ended_fresh := h.ended_fresh, never := ?_, ends := ?_, only := ?_ }
    · intro y' hy'
      rcases hmem y' hy' with rfl | ⟨hne, hy⟩
      · have h1 : x.phase.cleared = false ∧ x.phase.afterTerminal = false := by
          cases hph : x.phase <;> rw [hph] at hp <;> first | exact ⟨rfl, rfl⟩ | cases hp
        refine ⟨hx0.owner, ⟨fun _ => List.mem_cons_self, fun _ => rfl⟩, hx0.undispatched, hx0.alive,
          fun hcl => ?_, fun _ => rfl, fun _ hat => ?_⟩
        · exact absurd (h1.1.symm.trans hcl) nofun
        · exact absurd (h1.2.symm.trans hat) nofun
      · obtain ⟨h1, h2, h3, h4, h5, h6, h7⟩ := h.run y' hy
        refine ⟨h1, ⟨fun hf => List.mem_cons_of_mem _ (h2.mp hf), fun hf => ?_⟩, h3, h4, h5, h6, h7⟩
        exact h2.mpr ((List.mem_cons.mp hf).resolve_left hne)
    · intro j r hj
      obtain ⟨h1, h2⟩ := h.cancels j r hj
      refine ⟨h1, fun y' hy' hid => ?_⟩
      rcases hmem y' hy' with rfl | ⟨-, hy⟩
      · exact h2 x hx hid
      · exact h2 y' hy hid
    · intro r hr
      rcases List.mem_cons.mp hr with rfl | hr
      · exact hw.fresh x hx
      · exact h.cancelOk_fresh r hr
    · intro r hr
      rcases List.mem_cons.mp hr with rfl | hr
      · exact hx0.undispatched hp
      · exact h.never r hr
    · intro r hr he
      rcases List.mem_cons.mp hr with rfl | hr
      · exact absurd he hx0.alive
      · exact h.ends r hr he
    · exact fun row hrow hcan r ho => List.mem_cons_of_mem _ (h.only row hrow hcan r ho)

theorem Truth.step (hw : Wf s) (hr : SingleRun s) (h : Truth s)
    (hok : RequeuesSettled s l ∧ CancelsInTime s l) (hs : step deployment s l = some s') :
    Truth s' := by
  cases step_effect hs with
  | request l calls hc => exact h.of_back rfl rfl rfl rfl rfl rfl h.run h.cancels
  | start jobType id desc rows hc hi =>
    refine h.enqueue (mem_of_insert hi) ?_ (hw.job_ne_of_insert hi)
    intro row hrow hid
    rcases (Table.mem_insert hi).mp hrow with hrow | rfl
    · exact absurd hid (Table.compat_of_insert hi hrow).1
    · rfl
  | reset job jobType rows hc hu =>
    have h0 : Truth { s with calls := s.calls.erase (.retryFree job jobType) } :=
      h.of_back rfl rfl rfl rfl rfl rfl h.run h.cancels
    refine h0.enqueue (mem_of_requeue hu) ?_ (hr.job_ne_of_settled hw (hok.1 (by rw [hu]; rfl)))
    intro row' hrow' hid
    obtain ⟨row, hrow, rfl⟩ := (mem_rewrite hu).mp hrow'
    split_ifs at hid ⊢ with hj
    · rfl
    · exact absurd hid hj
  | register x hx hp =>
    refine h.of_back rfl rfl rfl rfl rfl rfl ?_ ?_
    · intro y' hy'
      obtain ⟨y, hy, ⟨hyx, rfl⟩ | ⟨-, rfl⟩⟩ := mem_advance hy'
      · obtain rfl := hw.eq_of_id hy hx hyx
        obtain ⟨h1, h2, h3, h4, -, -, -⟩ := h.run y hy
        exact ⟨h1, h2, fun _ => h3 (by rw [hp]; rfl), h4, nofun, nofun, nofun⟩
      · exact h.run y' hy
    · intro j r hj
      simp only [State.register, Function.update_apply] at hj
      split_ifs at hj with hjx
      · obtain rfl := Option.some.inj hj
        refine ⟨hw.fresh x hx, fun y' hy' hid => ?_⟩
        obtain ⟨y, hy, ⟨hyx, rfl⟩ | ⟨hyx, rfl⟩⟩ := mem_advance hy'
        · rw [hjx, ← hw.eq_of_id hy hx hyx]
        · exact absurd hid hyx
      · obtain ⟨h1, h2⟩ := h.cancels j r hj
        refine ⟨h1, fun y' hy' hid => ?_⟩
        obtain ⟨y, hy, ⟨-, rfl⟩ | ⟨-, rfl⟩⟩ := mem_advance hy'
        · exact h2 y hy hid
        · exact h2 y' hy hid
  | drop x hx hp =>
    refine h.of_back rfl rfl rfl rfl rfl rfl (fun y hy => h.run y (List.mem_filter.mp hy).1) ?_
    exact fun j r hj => ⟨(h.cancels j r hj).1,
      fun y hy => (h.cancels j r hj).2 y (List.mem_filter.mp hy).1⟩
  | run x l m ok hx hm => exact h.advance hw hr hx hm hok.2
  | remove x hx hp => exact h.remove hw hx hp
  | store job run hc =>
    refine Truth.storeFlag (s := { s with calls := s.calls.erase (.cancelQueued job run) })
      ⟨hw.distinct, hw.fresh, hw.row, hw.known, fun c hc' => hw.calls c (List.mem_of_mem_erase hc')⟩
      (h.of_back rfl rfl rfl rfl rfl rfl h.run h.cancels) ?_
    cases run with
    | none => exact hok.2
    | some r => exact hok.2
  | restart =>
    exact h.of_back rfl rfl rfl rfl rfl rfl (by simp [State.restart]) (by simp [State.restart])

/-- **Cancel is truthful** in every run in which each `cancel` sets the flag of
    the run its lookup saw before that run loads it, each cancelled run gets
    `cancelled` into its row and loses its last write, and each retry finds its
    row settled. -/
theorem truthful_of_reaches {rows : JobTable}
    (h : Reaches (step deployment) (fun s l => RequeuesSettled s l ∧ CancelsInTime s l)
      (State.init rows) s) : Truthful s := by
  have hi := h.invariant (I := fun s => Wf s ∧ SingleRun s ∧ Truth s)
    ⟨.init rows, .init rows, .init rows⟩ fun _ _ _ hi hok hs =>
      ⟨hi.1.step hs, hi.2.1.step hi.1 hok.1 hs, hi.2.2.step hi.1 hi.2.1 hok hs⟩
  exact hi.2.2.truthful

/-- A job is cancelled while queued and its task runs to the end; `ok` says
    whether the last write of the task reaches the database. -/
def cancelledRun (ok : Bool) : List Label :=
  [.start "pmp.update.apply" 1#128 true, .register 0, .cancelLookup 1#128,
    .cancelStore 1#128 (some 0), .run 0 .spawn true, .run 0 .markRunning true, .run 0 .load true,
    .run 0 .writeCancelled true, .run 0 .finish ok, .remove 0]

theorem truthful_after_lost_write :
    ∃ s, Reaches (step ⟨false, false⟩) (fun s l => RequeuesSettled s l ∧ CancelsInTime s l)
      (State.init Table.empty) s ∧ s.cancelOk = [0] ∧ s.ended = [0] ∧ Truthful s := by
  have hrun : (runWhile (step ⟨false, false⟩)
      (fun s l => decide (RequeuesSettled s l ∧ CancelsInTime s l)) (State.init Table.empty)
      (cancelledRun false)).any (fun s => decide (s.cancelOk = [0] ∧ s.ended = [0])) = true := by
    decide
  obtain ⟨s, hs, h0⟩ := exists_reaches_of_runWhile (fun _ _ h => of_decide_eq_true h) hrun
  obtain ⟨h1, h2⟩ := of_decide_eq_true h0
  exact ⟨s, hs, h1, h2, truthful_of_reaches hs⟩

/-- The last write of a cancelled run is `failed`. -/
theorem not_truthful_after_cancel :
    ∃ s, Reachable (step ⟨false, false⟩) (State.init Table.empty) s ∧ ¬ Truthful s := by
  have hrun : (runFrom (step ⟨false, false⟩) (State.init Table.empty) (cancelledRun true)).any
      (fun s => decide (∃ r ∈ s.cancelOk, r ∈ s.ended ∧ ∃ row ∈ s.rows,
        s.owner row.id = some r ∧ row.state = .failed)) = true := by
    decide
  obtain ⟨s, hs, h0⟩ := exists_reachable_of_runFrom hrun
  obtain ⟨r, hr, he, row, hrow, ho, hf⟩ := of_decide_eq_true h0
  refine ⟨s, hs, fun ht => ?_⟩
  rw [ht.ends_cancelled r hr he row hrow ho] at hf
  cases hf

-- The flag is set after the task loaded it: `Ok`, and the command is dispatched.
example : (runFrom (step ⟨false, false⟩) (State.init Table.empty)
    [.start "pmp.update.apply" 1#128 true, .register 0, .cancelLookup 1#128, .run 0 .spawn true,
      .run 0 .markRunning true, .run 0 .load true, .cancelStore 1#128 (some 0), .run 0 .tick true,
      .run 0 .dispatch true]).any
    (fun s => decide (∃ r ∈ s.cancelOk, r ∈ s.dispatched)) = true := by
  decide

end Ppb.Jobs
