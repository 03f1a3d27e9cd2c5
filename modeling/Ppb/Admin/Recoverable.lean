import Ppb.Admin.Save

/-!
# Can every configuration be brought back?

`save` stores the text it replaces in a snapshot first. `rollback` does not: what was edited by
hand since the last save is lost when an older snapshot is restored.

* `stored_exec`: no snapshot is deleted.
* `replaced_recoverable`: in every run whose rollbacks find the text of the file in a snapshot,
  every text that was replaced is in one.
-/

namespace Ppb.Admin

open Prog Auth Shared Trace

variable {s s' : Store} {c : String} {e : Event Query Query.Answer}

/-! ## Operations, one after the other -/

/-- An operation that replaces the configuration. -/
inductive ConfigOp where
  | save (auth : AuthPrincipal) (headers : Headers) (body : ConfigValuesBody)
  | rollback (auth : AuthPrincipal) (headers : Headers) (id : Uuid)

def ConfigOp.program (x : Extern) (state : AdminState) : ConfigOp → Handler Unit
  | .save auth headers body => Admin.save x state auth headers body >>= fun _ => pure ()
  | .rollback auth headers id => Admin.rollback state auth headers id >>= fun _ => pure ()

/-- The store, and the texts of the configuration that operations have replaced so far. -/
structure Life where
  store : Store
  replaced : List String

/-- What can happen to the configuration: an operation with the answers to its questions, up to
    its end, and an edit by hand. -/
inductive LifeStep where
  | run (op : ConfigOp) (h : History Query Query.Answer)
  | edit (text : Option String)

/-- The text that is live before and not after. -/
def lost (s s' : Store) : List String := if s'.file = s.file then [] else s.file.toList

def Life.step (x : Extern) (state : AdminState) (st : Life) : LifeStep → Option Life
  | .run op h => (Alone exec (ConfigOp.program x state) st.store (op, h)).map fun s' =>
    ⟨s', lost st.store s' ++ st.replaced⟩
  | .edit text => some { st with store := { st.store with file := text } }

/-- The text is the content of a snapshot of the configuration. -/
def Store.Stored (s : Store) (c : String) : Prop :=
  ∃ r ∈ s.snapshots, r.scope = "pmp" ∧ r.content = c

/-- A rollback that replaces the file finds its text in a snapshot. -/
def RollbackGuarded (st : Life) : LifeStep → Prop
  | .run (.rollback ..) h => ⟨.rename, .ok ()⟩ ∈ h → ∀ c, st.store.file = some c → st.store.Stored c
  | _ => True

/-! ## What an event does -/

/-- What is in a snapshot stays there. -/
theorem stored_exec (hexec : exec s e = some s') (hc : s.Stored c) : s'.Stored c := by
  obtain ⟨r, hr, hscope, hcontent⟩ := hc
  cases exec_effect hexec with
  | elsewhere _ hsnapshots => exact ⟨r, hsnapshots ▸ hr, hscope, hcontent⟩
  | wrote content a _ h => exact ⟨r, h ▸ hr, hscope, hcontent⟩
  | renamed text _ _ h => exact ⟨r, h ▸ hr, hscope, hcontent⟩
  | inserted scope content note actor id time _ h =>
    unfold Store.insertSnapshot at h
    split_ifs at h
    obtain ⟨rows, hrows, rfl⟩ := Option.map_eq_some_iff.mp h
    exact ⟨r, (Table.mem_insert hrows).mpr (.inl hr), hscope, hcontent⟩
  | restored id time _ h =>
    obtain ⟨rows, hrows, rfl⟩ := Option.map_eq_some_iff.mp h
    have hmem := (Table.mem_update hrows).mpr ⟨r, hr, rfl⟩
    split_ifs at hmem
    · exact ⟨_, hmem, hscope, hcontent⟩
    · exact ⟨_, hmem, hscope, hcontent⟩

theorem stored_execAll {h : History Query Query.Answer} (hexec : execAll exec s h = some s')
    (hc : s.Stored c) : s'.Stored c := by
  induction h generalizing s with
  | nil => exact Option.some.inj hexec ▸ hc
  | cons e es ih =>
    obtain ⟨s₁, h₁, h₂⟩ := Option.bind_eq_some_iff.mp hexec
    exact ih h₂ (stored_exec h₁ hc)

/-- The text is the one of `s₀`, or the file was replaced. -/
def KeptOrRenamed (s₀ s : Store) (h : History Query Query.Answer) : Prop :=
  s.file = s₀.file ∨ ⟨.rename, .ok ()⟩ ∈ h

/-- A question that writes no text. -/
def WritesNothing : Query → Prop
  | .write .. => False
  | _ => True

variable {s₀ : Store} {h : History Query Query.Answer} {x : Extern} {state : AdminState}

/-- An event that does not write to the configuration itself. -/
theorem KeptOrRenamed.snoc (hk : KeptOrRenamed s₀ s h) (hexec : exec s e = some s')
    (hwrite : ∀ content, e.1 ≠ .write s.inode content) : KeptOrRenamed s₀ s' (h ++ [e]) := by
  rcases exec_file hexec with hfile | rfl | ⟨content, a, rfl, -⟩
  · exact hk.imp hfile.trans fun hmem => List.mem_append_left _ hmem
  · exact .inr (List.mem_append_right _ (List.mem_singleton_self _))
  · exact absurd rfl (hwrite content)

theorem runs_writesNothing {α : Type} {p : Handler α} (hp : p.Only WritesNothing)
    (hk : KeptOrRenamed s₀ s h) : Runs exec p s h fun s' h' _ => KeptOrRenamed s₀ s' h' := by
  induction p generalizing s h with
  | done r => exact hk
  | ask q next ih =>
    intro a s' hexec
    refine ih a (hp.2 a) (hk.snoc hexec fun content heq => ?_)
    have hq : WritesNothing q := hp.1
    rw [show q = .write s.inode content from heq] at hq
    exact hq

theorem runs_writesNothing_bind {α β : Type} {p : Handler α} {k : α → Handler β}
    (hp : p.Only WritesNothing) (hk : KeptOrRenamed s₀ s h)
    (hnext : ∀ s' h' a, KeptOrRenamed s₀ s' h' →
      Runs exec (k a) s' h' fun s' h' _ => KeptOrRenamed s₀ s' h') :
    Runs exec (p >>= k) s h fun s' h' _ => KeptOrRenamed s₀ s' h' :=
  runs_bind (runs_writesNothing hp hk) hnext fun _ _ _ hk' => hk'

theorem kept_writeYamlAtomic {content : String} (hk : KeptOrRenamed s₀ s h) :
    Runs exec (writeYamlAtomic state content) s h fun s' h' _ => KeptOrRenamed s₀ s' h' := by
  refine runs_mono runs_writeYamlAtomic ?_
  rintro s' h' r ⟨⟨es, rfl, -⟩, -, ⟨-, -, hrenamed⟩ | ⟨-, hfile⟩⟩
  · exact .inr hrenamed
  · exact hk.imp hfile.trans fun hmem => List.mem_append_left _ hmem

theorem only_call_writesNothing {α : Type} (p : Server α) : (call p).Only WritesNothing := by
  refine (only_call p).mono fun q hq => ?_
  cases q with
  | server q => trivial
  | _ => exact hq.elim

/-- A rollback that leaves another text has renamed. -/
theorem runs_rollback {auth : AuthPrincipal} {headers : Headers} {id : Uuid}
    (hk : KeptOrRenamed s₀ s h) : Runs exec (rollback state auth headers id) s h
      fun s' h' _ => KeptOrRenamed s₀ s' h' := by
  refine runs_writesNothing_bind (only_call_writesNothing _) hk fun s₁ h₁ _ hk₁ => ?_
  refine runs_writesNothing_bind (only_call_writesNothing _) hk₁ fun s₂ h₂ _ hk₂ => ?_
  refine runs_writesNothing_bind (only_call_writesNothing _) hk₂ fun s₃ h₃ _ hk₃ => ?_
  refine runs_writesNothing_bind (only_query trivial) hk₃ fun s₄ h₄ row hk₄ => ?_
  refine runs_writesNothing_bind only_mapErr hk₄ fun s₅ h₅ row hk₅ => ?_
  refine runs_writesNothing_bind only_ofOption hk₅ fun s₆ h₆ snapshot hk₆ => ?_
  refine runs_failIf_bind (fun _ => hk₆) fun _ => ?_
  refine runs_bind (kept_writeYamlAtomic hk₆) ?_ fun _ _ _ hk' => hk'
  intro s₇ h₇ _ hk₇
  -- what follows writes to no file
  refine runs_writesNothing (only_bind (only_query trivial) fun reloaded => only_bind ?_ fun _ =>
    only_bind (only_query trivial) fun restored => only_bind only_mapErr fun _ =>
      only_bind (only_bind (only_query trivial) fun pinged => ?_) fun _ =>
        only_bind (only_query trivial) fun _ => trivial) hk₇
  · cases reloaded <;> trivial
  · cases pinged <;> trivial

/-! ## Every run -/

/-- A save stores the text that it replaces. -/
theorem save_stores {auth : AuthPrincipal} {headers : Headers} {body : ConfigValuesBody}
    {h : History Query Query.Answer}
    (halone : Alone exec (ConfigOp.program x state) s (.save auth headers body, h) = some s')
    (hc : c ∈ lost s s') : s'.Stored c := by
  obtain ⟨r, hends, hexec⟩ := Alone.ends halone
  have hruns : Runs exec (ConfigOp.program x state (.save auth headers body)) s []
      fun s' h' _ => ∃ r, SaveOutcome x state auth headers body s s' h' r :=
    runs_bind save_runs (fun s' h' id houtcome => ⟨_, houtcome⟩) fun s' h' e houtcome => ⟨_, houtcome⟩
  have hstored : ∀ {prev text : String} {id : Uuid},
      Replaced x state auth headers body s s' prev text id → s'.Stored c := by
    intro prev text id hreplaced
    obtain ⟨row, hrow, -, hscope, hcontent⟩ := hreplaced.stored
    unfold lost at hc
    split_ifs at hc
    · cases hc
    · have hprev : c = prev := by simpa [hreplaced.read] using hc
      exact ⟨row, hrow, hscope, hcontent.trans hprev.symm⟩
  obtain ⟨r', houtcome⟩ := hruns.ends hends hexec
  cases houtcome with
  | refused e hfile _ => simp [lost, hfile] at hc
  | unacknowledged e prev text id hreplaced _ => exact hstored hreplaced
  | saved prev text id hreplaced _ _ => exact hstored hreplaced

theorem step_recoverable {st st' : Life} {l : LifeStep} (hguarded : RollbackGuarded st l)
    (hstep : st.step x state l = some st') (hst : ∀ c ∈ st.replaced, st.store.Stored c) :
    ∀ c ∈ st'.replaced, st'.store.Stored c := by
  cases l with
  | edit text =>
    obtain rfl := Option.some.inj hstep
    exact hst
  | run op h =>
    obtain ⟨s', halone, rfl⟩ := Option.map_eq_some_iff.mp hstep
    obtain ⟨r, hends, hexec⟩ := Alone.ends halone
    intro c hc
    rcases List.mem_append.mp hc with hc | hc
    · cases op with
      | save auth headers body => exact save_stores halone hc
      | rollback auth headers id =>
        unfold lost at hc
        split_ifs at hc with hsame
        · cases hc
        · have hfile := Option.mem_toList.mp hc
          have hruns : Runs exec (ConfigOp.program x state (.rollback auth headers id)) st.store []
              fun s' h' _ => KeptOrRenamed st.store s' h' :=
            runs_bind (runs_rollback (.inl rfl)) (fun _ _ _ hk => hk) fun _ _ _ hk => hk
          have hrenamed := (hruns.ends hends hexec).resolve_left hsame
          exact stored_execAll hexec (hguarded hrenamed c hfile)
    · exact stored_execAll hexec (hst c hc)

/-- In every run of saves, rollbacks and edits by hand, in which a rollback that replaces the file
    finds its text in a snapshot, every text that an operation has replaced is in a snapshot. -/
theorem replaced_recoverable (x : Extern) (state : AdminState) (s₀ : Store) (st : Life)
    (hrun : Reaches (Life.step x state) RollbackGuarded ⟨s₀, []⟩ st) :
    ∀ c ∈ st.replaced, st.store.Stored c :=
  hrun.invariant (I := fun st => ∀ c ∈ st.replaced, st.store.Stored c) nofun
    fun _ _ _ hst hok hstep => step_recoverable hok hstep hst

/-! ### A save, and a rollback of an edit by hand -/

/-- The user 1 may restore a snapshot, which Root has stored. -/
def sampleEdited : Store where
  users := [1]
  groups _ := [⟨none, some "config:reload"⟩, ⟨none, some "config:rollback"⟩]
  members _ := []
  file := some "port: 3\n"
  tmp := none
  snapshots := ⟨[⟨51, "pmp", "port: 1\nserver_name: a\n", "pre-save: ", some 1, 9, none⟩], by decide⟩
  ppfConfig := none
  runbooks := .empty
  events := .empty
  acknowledged := none

/-- The snapshot 51 is restored. -/
def sampleRestore : History Query Query.Answer :=
  [⟨.server (.groupRows 1), .ok [⟨none, some "config:reload"⟩, ⟨none, some "config:rollback"⟩]⟩,
    ⟨.server (.decodeReauthToken "t"), some ⟨"reauth", 1, 21, .user, .panel, "critical", 0, 100⟩⟩,
    ⟨.server .now, (10 : Int64)⟩,
    ⟨.getSnapshot 51,
      .ok (some ⟨51, "pmp", "port: 1\nserver_name: a\n", "pre-save: ", some 1, 9, none⟩)⟩,
    ⟨.createTmp, .ok 1⟩,
    ⟨.write 1 "port: 1\nserver_name: a\n", .ok (), some "port: 1\nserver_name: a\n"⟩,
    ⟨.rename, .ok ()⟩,
    ⟨.reload, .error (.timeout 5000)⟩]

/-- A step that is no rollback. -/
def isNoRollback : LifeStep → Bool
  | .run (.rollback ..) _ => false
  | _ => true

theorem guarded_of_isNoRollback {st : Life} {l : LifeStep} (hl : isNoRollback l = true) :
    RollbackGuarded st l := by
  match l with
  | .run (.rollback ..) _ => cases hl
  | .run (.save ..) _ => trivial
  | .edit _ => trivial

/-- A save of another port, then an edit by hand. -/
theorem replaced_recoverable_save : ∃ st : Life,
    Reaches (Life.step sampleExtern sampleState) RollbackGuarded ⟨sampleStore, []⟩ st ∧
      st.replaced = ["port: 1\nserver_name: a\n"] ∧ st.store.Stored "port: 1\nserver_name: a\n" := by
  have hrun : ((runWhile (Life.step sampleExtern sampleState) (fun _ => isNoRollback)
      ⟨sampleStore, []⟩ [.run (.save sampleAuth sampleHeaders samplePort) (sampleChecks ++
        sampleWrite 0 "port: 1\nserver_name: a\n" "port: 2\nserver_name: a\n" 51 ++
        sampleReload samplePort 51), .edit (some "port: 3\n")]).any
        fun st => decide (st.replaced = ["port: 1\nserver_name: a\n"])) = true := by decide +kernel
  obtain ⟨st, hst, hreplaced⟩ :=
    exists_reaches_of_runWhile (fun _ _ hl => guarded_of_isNoRollback hl) hrun
  have hlist := of_decide_eq_true hreplaced
  exact ⟨st, hst, hlist, replaced_recoverable _ _ _ st hst _ (by simp [hlist])⟩

/-- What was edited by hand is gone after a rollback. -/
theorem not_replaced_recoverable_edit : ∃ st : Life,
    Reachable (Life.step sampleExtern sampleState) ⟨sampleEdited, []⟩ st ∧
      st.replaced = ["port: 3\n"] ∧ ¬ st.store.Stored "port: 3\n" := by
  have hrun : ((runFrom (Life.step sampleExtern sampleState) ⟨sampleEdited, []⟩
      [.run (.rollback sampleAuth sampleHeaders 51) sampleRestore]).any fun st =>
        decide (st.replaced = ["port: 3\n"] ∧
          st.store.snapshots.rows.all (fun r => r.content != "port: 3\n") = true)) = true := by
    decide +kernel
  obtain ⟨st, hst, hlost⟩ := exists_reachable_of_runFrom hrun
  obtain ⟨hreplaced, hnone⟩ := of_decide_eq_true hlost
  refine ⟨st, hst, hreplaced, ?_⟩
  rintro ⟨r, hr, -, hcontent⟩
  have hne := List.all_eq_true.mp hnone r hr
  simp [hcontent] at hne

end Ppb.Admin
