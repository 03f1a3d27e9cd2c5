import Ppb.Actions.RawCli
import Ppb.Commands.Liveness

/-!
# `command_runs` and the broker

Each entry point inserts the row of a command as `queued` and then offers its task
to the broker; the executor marks the row finished at the end. The row and the task
should stand for each other. They do as long as the broker takes the task, the
execution does not panic and its statement succeeds: a refused submit leaves the
row `queued` for good, and is answered with 202 Accepted.

* `Faithful`: a `queued` row stands for exactly one task, or for the request that is
  about to submit it.
* `RunsInv`: the invariant that carries it.
* `runs_faithful`: it holds in every run that meets the conditions above.
* `not_faithful_when_full`: the 65th task that waits for one key.
-/

namespace Ppb.Commands

open Trace KeyedQueue Actions Prog

/-! ## Events of a request -/

/-- What is true of every event of a request with respect to `command_runs`. -/
structure RunOk (h : Asked) (e : Event Query Query.Answer) : Prop where
  /-- a submit follows the insert of its row at once -/
  submit : ∀ task, e.1 = .submit task → h.getLast? = some ⟨.insertQueued task.commandId task.action
    task.actor task.resourceKey task.argsRedacted, .ok ()⟩
  /-- and a successful insert is followed by a submit at once -/
  insert : (∀ task, e.1 ≠ .submit task) → Settled h
  /-- no row is put back into its queue -/
  finished : ∀ id status summary errorCode, e.1 = .markFinished id status summary errorCode →
    status = "succeeded" ∨ status = "failed"

/-- What a console request does not ask. -/
def IsQueueQuery : Query → Prop
  | .insertQueued _ _ _ _ _ => True
  | .submit _ => True
  | .markFinished _ status _ _ => ¬ (status = "succeeded" ∨ status = "failed")
  | _ => False

/-- A program without such questions is always settled. -/
theorem wp_runOk {α ε : Type} {p : Prog Query Query.Answer ε α} {h : Asked}
    {R : Asked → Except ε α → Prop} (hs : Settled h)
    (hp : wp (fun _ e => ¬ IsQueueQuery e.1) p h R) : wp RunOk p h R := by
  induction p generalizing h with
  | done r => exact hp
  | ask q next ih =>
    intro a
    obtain ⟨hq, hrest⟩ := hp a
    refine ⟨⟨fun task htask => ?_, fun _ => hs, fun id status summary errorCode hm => ?_⟩,
      ih a (.snoc fun id action actor key args hi => ?_) hrest⟩
    · obtain rfl : q = .submit task := htask
      exact absurd trivial hq
    · obtain rfl : q = .markFinished id status summary errorCode := hm
      exact not_not.mp hq
    · obtain rfl : q = .insertQueued id action actor key args := hi
      exact absurd trivial hq

theorem wp_consoleGate_runs {state : AppState} {auth : AuthPrincipal} {headers : Headers}
    {h : Asked} : wp (fun _ e => ¬ IsQueueQuery e.1) (consoleGate state auth headers) h
      fun _ _ => True := by
  refine wp_bind (wp_mono (Auth.wp_require fun _ => nofun) fun _ _ _ => trivial)
    (R := fun _ _ => True) ?_ fun _ _ _ => trivial
  intro h₁ u _
  refine wp_ask (fun _ => nofun) fun allowed => ?_
  cases allowed with
  | error e => trivial
  | ok u =>
    refine wp_mono (Auth.wp_checkReauthHeader fun h' e _ he => ?_) fun _ _ _ => trivial
    obtain ⟨q, a⟩ := e
    cases q <;> first | exact he.elim | nofun

theorem wp_request_runs {state : AppState} (request : Request) (auth : AuthPrincipal)
    (headers : Headers) :
    wp RunOk (request.handler state auth headers) [] fun _ _ => True := by
  cases request with
  | entry e =>
    refine wp_weaken (wp_entry e) fun h e hok => ⟨hok.submit, hok.insert, ?_⟩
    intro id status summary errorCode hm
    exact absurd (hm ▸ trivial : OffLimits e.1) hok.limits
  | executeCommand command =>
    refine wp_runOk settled_nil ?_
    refine wp_bind (R := fun _ _ => True) ?_ (fun _ _ _ => trivial) fun _ _ _ => trivial
    refine wp_bind wp_consoleGate_runs ?_ fun _ _ _ => trivial
    intro h₁ u _
    refine wp_requireDb_bind trivial (wp_ask (fun _ => nofun) fun commandId => ?_)
    refine wp_ask (fun _ => nofun) fun inserted => ?_
    refine wp_orFail_bind (fun _ _ => trivial) fun _ _ => ?_
    refine wp_ask (fun _ => nofun) fun answer => ?_
    refine wp_ask (fun _ => ?_) fun marked => ?_
    · cases answer with
      | ok v => exact fun h => h (.inl rfl)
      | error e => exact fun h => h (.inr rfl)
    · refine wp_orFail_bind (fun _ _ => trivial) fun _ _ => ?_
      exact wp_ask (fun _ => nofun) fun _ => trivial
  | submitInput command =>
    refine wp_runOk settled_nil ?_
    refine wp_bind (R := fun _ _ => True) ?_ (fun _ _ _ => trivial) fun _ _ _ => trivial
    refine wp_bind wp_consoleGate_runs ?_ fun _ _ _ => trivial
    intro h₁ u _
    refine wp_ask (fun _ => nofun) fun answer => ?_
    have hend : ∀ h', wp (fun _ e => ¬ IsQueueQuery e.1) (orFail OpenUdsError.toApiError answer)
        h' fun _ _ => True := by
      intro h'
      cases answer <;> trivial
    dsimp only
    split_ifs
    · exact wp_ask (fun _ => nofun) fun _ => hend _
    · exact hend _

/-! ## Rows -/

/-- From `rows` to `rows'` nothing was inserted, and no row went back to `queued`. -/
structure Moves (rows rows' : CommandRuns) : Prop where
  back : ∀ row' ∈ rows', ∃ row ∈ rows, row.id = row'.id ∧ row.console = row'.console ∧
    (row'.status = .queued → row.status = .queued)
  forth : ∀ row ∈ rows, ∃ row' ∈ rows', row'.id = row.id ∧ (row'.status = .queued →
    row.status = .queued)

theorem Moves.refl (rows : CommandRuns) : Moves rows rows :=
  ⟨fun row h => ⟨row, h, rfl, rfl, fun h => h⟩, fun row h => ⟨row, h, rfl, fun h => h⟩⟩

theorem ofText_ne_queued {status : String} {s : RunStatus} (hs : RunStatus.ofText status = some s)
    (h : status = "succeeded" ∨ status = "failed") : s ≠ .queued := by
  rcases h with rfl | rfl
  · obtain rfl : .succeeded = s := Option.some.inj hs
    nofun
  · obtain rfl : .failed = s := Option.some.inj hs
    nofun

/-- What a `mark_finished` that succeeds does. -/
theorem moves_of_markFinished {db : Bool} {rows rows' : CommandRuns} {id : Uuid}
    {status summary errorCode : String} (hstatus : status = "succeeded" ∨ status = "failed")
    (h : writeRow db rows ⟨.markFinished id status summary errorCode, .ok ()⟩ = some rows') :
    Moves rows rows' ∧ ∀ row ∈ rows', row.id = id → row.status ≠ .queued := by
  simp only [writeRow] at h
  split_ifs at h
  obtain ⟨st, hst, h⟩ := Option.bind_eq_some_iff.mp h
  have hne := ofText_ne_queued hst hstatus
  have hmem := fun {x} => Table.mem_update (x := x) h
  refine ⟨⟨fun row' hrow' => ?_, fun row hrow => ?_⟩, fun row' hrow' hid => ?_⟩
  · obtain ⟨row, hrow, rfl⟩ := hmem.mp hrow'
    refine ⟨row, hrow, ?_⟩
    split_ifs
    · exact ⟨rfl, rfl, fun h => absurd h hne⟩
    · exact ⟨rfl, rfl, fun h => h⟩
  · refine ⟨_, hmem.mpr ⟨row, hrow, rfl⟩, ?_⟩
    split_ifs
    · exact ⟨rfl, fun h => absurd h hne⟩
    · exact ⟨rfl, fun h => h⟩
  · obtain ⟨row, hrow, rfl⟩ := hmem.mp hrow'
    split_ifs at hid ⊢ with hrid
    · exact hne
    · exact absurd (by simpa using hid) hrid

/-- What a statement of a request or an execution does to the table. -/
theorem writeRow_cases {db : Bool} {rows rows' : CommandRuns} {e : Event Query Query.Answer}
    (hfin : ∀ id status summary errorCode, e.1 = .markFinished id status summary errorCode →
      status = "succeeded" ∨ status = "failed") (h : writeRow db rows e = some rows') :
    (∃ id console, db = true ∧ rows.insert ⟨id, .queued, console⟩ = some rows' ∧
      ((∃ action actor key args, console = false ∧
          e = ⟨.insertQueued id action actor key args, .ok ()⟩) ∨
        (∃ actor command scope, console = true ∧
          e = ⟨.insertConsoleRun id actor command scope, .ok ()⟩))) ∨
      (Moves rows rows' ∧ (db = false → rows' = rows) ∧
        ∀ id action actor key args, e ≠ ⟨.insertQueued id action actor key args, .ok ()⟩) := by
  unfold writeRow at h
  split at h
  · next id action actor key args =>
    split_ifs at h with hdb
    exact .inl ⟨id, false, hdb, h, .inl ⟨action, actor, key, args, rfl, rfl⟩⟩
  · next id actor command scope =>
    split_ifs at h with hdb
    exact .inl ⟨id, true, hdb, h, .inr ⟨actor, command, scope, rfl, rfl⟩⟩
  · next id status summary errorCode =>
    have h' : writeRow db rows ⟨.markFinished id status summary errorCode, .ok ()⟩ = some rows' := h
    have hmoves := moves_of_markFinished (hfin id status summary errorCode rfl) h'
    split_ifs at h with hdb
    exact .inr ⟨hmoves.1, fun h => absurd h (by simp [hdb]), nofun⟩
  · next hne _ _ =>
    obtain rfl := Option.some.inj h
    refine .inr ⟨.refl _, fun _ => rfl, ?_⟩
    rintro id action actor key args rfl
    exact hne id action actor key args rfl

/-- The primary key tells rows apart. -/
theorem row_unique {rows : CommandRuns} {a b : CommandRow} (ha : a ∈ rows) (hb : b ∈ rows)
    (hid : a.id = b.id) : a = b := by
  by_contra hne
  have hsymm : Std.Symm SameKey := ⟨fun _ _ h => Ne.symm h⟩
  exact (rows.wf.forall ha hb hne) hid

/-! ## Who stands for a row -/

/-- The event is the insert of the row `id`. -/
def insertsRow (id : Uuid) : Event Query Query.Answer → Bool
  | ⟨.insertQueued id' _ _ _ _, .ok ()⟩ => id' == id
  | _ => false

/-- The request has inserted the row `id` and is about to submit its task. -/
def Flight.inHand (id : Uuid) (f : Flight) : Bool := f.asked.getLast?.any (insertsRow id)

/-- How many tasks of the row `id` are waiting in or being executed by the broker. -/
def System.tasks (s : System) (id : Uuid) : ℕ :=
  s.broker.held.countP fun i => i.task.commandId == id

/-- The requests and the tasks that stand for the row `id`. -/
def System.holders (s : System) (id : Uuid) : ℕ :=
  s.flights.countP (Flight.inHand id) + s.tasks id

theorem inHand_of_settled {f : Flight} (hs : Settled f.asked) (id : Uuid) : f.inHand id = false := by
  unfold Flight.inHand
  cases hlast : f.asked.getLast? with
  | none => rfl
  | some e =>
    rw [Option.any_some]
    unfold insertsRow
    split
    · next id' action actor key args => exact absurd hlast (hs id' action actor key args)
    · rfl

theorem inHand_snoc {f : Flight} {e : Event Query Query.Answer} {rest : Server ℕ} (id : Uuid) :
    ({ f with rest := rest, asked := f.asked ++ [e] } : Flight).inHand id = insertsRow id e := by
  rw [Flight.inHand, List.getLast?_concat, Option.any_some]

theorem insertsRow_eq_false {e : Event Query Query.Answer}
    (he : ∀ id action actor key args, e ≠ ⟨.insertQueued id action actor key args, .ok ()⟩)
    (id : Uuid) : insertsRow id e = false := by
  unfold insertsRow
  split
  · next id' action actor key args => exact absurd rfl (he id' action actor key args)
  · rfl

/-- Replacing an element of a list changes a count by that element. -/
theorem countP_set_add {α : Type} {p : α → Bool} {l : List α} {i : ℕ} {a b : α}
    (h : l[i]? = some a) : (l.set i b).countP p + (if p a then 1 else 0) =
      l.countP p + if p b then 1 else 0 := by
  obtain ⟨hi, rfl⟩ := List.getElem?_eq_some_iff.mp h
  have hle := List.boole_getElem_le_countP (p := p) hi
  rw [List.countP_set hi]
  omega

/-! ## The invariant -/

/-- The execution has marked its command finished. -/
def Execution.Marked (x : Execution) : Prop :=
  ∃ status summary errorCode,
    ⟨.markFinished x.item.task.commandId status summary errorCode, .ok ()⟩ ∈ x.asked

/-- What holds between rows, requests and tasks. -/
structure RunsInv (db : Bool) (s : System) : Prop where
  /-- nothing stands for a row twice -/
  one : ∀ id, s.holders id ≤ 1
  row : ∀ id, s.holders id = 1 → ∃ row ∈ s.rows, row.id = id
  queued : ∀ row ∈ s.rows, row.status = .queued → row.console = false → s.holders row.id = 1
  marked : ∀ key worker x, s.running key worker = some x → x.Marked →
    ∃ row ∈ s.rows, row.id = x.item.task.commandId ∧ row.status ≠ .queued
  /-- without a database there are no rows -/
  nodb : db = false → s.rows.rows = []

variable {state : AppState} {s s' : System} {l : Label} {cond : System → Label → Prop} {db : Bool}

/-- A step that inserts nothing and leaves the holders as they are. -/
theorem RunsInv.moves (hinv : RunsInv db s) (hholders : ∀ id, s'.holders id = s.holders id)
    (hmoves : Moves s.rows s'.rows) (hnodb : db = false → s'.rows = s.rows)
    (hmarked : ∀ key worker x, s'.running key worker = some x → x.Marked →
      s.running key worker = some x ∨
        ∃ row ∈ s'.rows, row.id = x.item.task.commandId ∧ row.status ≠ .queued) :
    RunsInv db s' where
  one id := by
    rw [hholders]
    exact hinv.one id
  row id h := by
    rw [hholders] at h
    obtain ⟨row, hrow, rfl⟩ := hinv.row id h
    obtain ⟨row', hrow', hid, -⟩ := hmoves.forth row hrow
    exact ⟨row', hrow', hid⟩
  queued row' hrow' hq hc := by
    obtain ⟨row, hrow, hid, hcon, hqueued⟩ := hmoves.back row' hrow'
    rw [hholders, ← hid]
    exact hinv.queued row hrow (hqueued hq) (hcon.trans hc)
  marked key worker x hx hm := by
    rcases hmarked key worker x hx hm with hx | hdone
    · obtain ⟨row, hrow, hid, hne⟩ := hinv.marked key worker x hx hm
      obtain ⟨row', hrow', hid', hq⟩ := hmoves.forth row hrow
      exact ⟨row', hrow', hid'.trans hid, fun h => hne (hq h)⟩
    · exact hdone
  nodb h := by
    rw [hnodb h]
    exact hinv.nodb h

/-- An insert: the id of the new row is used by nobody. -/
theorem RunsInv.insert (id : Uuid) (console : Bool) (hinv : RunsInv db s) (hdb : db = true)
    (hrows : s.rows.insert ⟨id, .queued, console⟩ = some s'.rows) (hr : s'.running = s.running)
    (hholders : ∀ id', s'.holders id' = s.holders id' + if console = false ∧ id' = id then 1 else 0) :
    RunsInv db s' := by
  have hmem := fun {x} => Table.mem_insert (x := x) hrows
  have hzero : s.holders id = 0 := by
    by_contra hne
    have hone := hinv.one id
    obtain ⟨row, hrow, hid⟩ := hinv.row id (by omega)
    exact Table.compat_of_insert hrows hrow hid
  constructor
  · intro id'
    have hone := hinv.one id'
    rw [hholders]
    split_ifs with h
    · rw [h.2, hzero]
    · exact hone
  · intro id' h
    rw [hholders] at h
    split_ifs at h with hnew
    · exact ⟨_, hmem.mpr (.inr rfl), hnew.2.symm⟩
    · obtain ⟨row, hrow, hid⟩ := hinv.row id' h
      exact ⟨row, hmem.mpr (.inl hrow), hid⟩
  · intro row hrow hq hc
    rw [hholders]
    rcases hmem.mp hrow with hrow | rfl
    · have hne : SameKey row ⟨id, .queued, console⟩ := Table.compat_of_insert hrows hrow
      rw [hinv.queued row hrow hq hc, if_neg fun h => hne h.2]
    · rw [if_pos ⟨hc, rfl⟩, hzero]
  · intro key worker x hx hm
    rw [hr] at hx
    obtain ⟨row, hrow, hrest⟩ := hinv.marked key worker x hx hm
    exact ⟨row, hmem.mpr (.inl hrow), hrest⟩
  · intro h
    rw [hdb] at h
    cases h

/-! ## Runs -/

/-- The step keeps rows and tasks together: a submitted task finds a queue that is
    neither full nor dead, and an execution that ends has an error text that can be cut
    and has written its outcome to its row. -/
def KeepsRuns (state : AppState) (s : System) (l : Label) : Prop :=
  (∀ i task accepted, l = .answer i ⟨.submit task, accepted⟩ →
    s.broker.Accepts channelCapacity task.resourceKey) ∧
  ∀ key worker x, l = .finish key worker → s.running key worker = some x →
    x.Cuttable state.db ∧ ∀ id status summary errorCode marked,
      ⟨.markFinished id status summary errorCode, marked⟩ ∈ x.asked → marked = .ok ()

theorem holders_congr (hf : s'.flights = s.flights) (hb : s'.broker.held.Perm s.broker.held)
    (id : Uuid) : s'.holders id = s.holders id := by
  rw [System.holders, System.holders, System.tasks, System.tasks, hf, hb.countP_eq]

/-- An answer other than to a submit. -/
theorem runsInv_answer {i : ℕ} {e : Event Query Query.Answer} {f : Flight} {rest : Server ℕ}
    {rows : CommandRuns} (hreach : Reaches (step state) cond System.init s)
    (hinv : RunsInv state.db s) (hf : s.flights[i]? = some f)
    (hrest : f.rest.follow [e] = some rest) (hrows : writeRow state.db s.rows e = some rows)
    (hne : ∀ task, e.1 ≠ .submit task) :
    RunsInv state.db { s with
      rows := rows
      flights := s.flights.set i { f with rest := rest, asked := f.asked ++ [e] } } := by
  have hpath := flights_onPath (R := fun _ _ _ _ _ => True) wp_request_runs hreach f
    (List.mem_of_getElem? hf)
  have hok : RunOk f.asked e := ok_of_follow hpath.future hrest
  have hcount : ∀ id, (s.flights.set i { f with rest := rest, asked := f.asked ++ [e] }).countP
      (Flight.inHand id) = s.flights.countP (Flight.inHand id) +
        if insertsRow id e = true then 1 else 0 := by
    intro id
    have hset := countP_set_add (p := Flight.inHand id)
      (b := { f with rest := rest, asked := f.asked ++ [e] }) hf
    rw [inHand_of_settled (hok.insert hne), inHand_snoc] at hset
    simpa using hset
  rcases writeRow_cases hok.finished hrows with ⟨id, console, hdb, hins, hkind⟩ | ⟨hmoves, hnodb, hno⟩
  · refine hinv.insert id console hdb hins rfl fun id' => ?_
    simp only [System.holders, System.tasks, hcount]
    rcases hkind with ⟨action, actor, key, args, rfl, rfl⟩ | ⟨actor, command, scope, rfl, rfl⟩
    · simp only [insertsRow, beq_iff_eq, true_and, eq_comm (a := id)]
      omega
    · simp [insertsRow]
  · refine hinv.moves (fun id => ?_) hmoves hnodb fun key worker x hx _ => .inl hx
    simp [System.holders, System.tasks, hcount, insertsRow_eq_false hno]

/-- A task that is accepted goes from the hands of its request to the broker. -/
theorem runsInv_submit {i : ℕ} {task : CommandTask} {accepted : Bool} {f : Flight}
    {rest : Server ℕ} {broker : BrokerState} (hreach : Reaches (step state) cond System.init s)
    (hinv : RunsInv state.db s) (haccepts : s.broker.Accepts channelCapacity task.resourceKey)
    (hf : s.flights[i]? = some f) (hrest : f.rest.follow [⟨.submit task, accepted⟩] = some rest)
    (hsubmit : submitStep s.broker s.submits task = some (broker, accepted)) :
    RunsInv state.db { s with
      broker := broker
      submits := s.submits + 1
      flights := s.flights.set i
        { f with rest := rest, asked := f.asked ++ [⟨.submit task, accepted⟩] } } := by
  have hpath := flights_onPath (R := fun _ _ _ _ _ => True) wp_request_runs hreach f
    (List.mem_of_getElem? hf)
  have hok : RunOk f.asked ⟨.submit task, accepted⟩ := ok_of_follow hpath.future hrest
  obtain ⟨-, hiff, -, hheld, -⟩ := submit_spec (by decide) (broker_reachable hreach)
    (coherent_of_reaches hreach).pending hsubmit
  have hperm := hheld (hiff.mpr haccepts)
  refine hinv.moves (fun id => ?_) (.refl _) (fun _ => rfl) fun key worker x hx _ => .inl hx
  have hset := countP_set_add (p := Flight.inHand id)
    (b := { f with rest := rest, asked := f.asked ++ [⟨.submit task, accepted⟩] }) hf
  have hhand : f.inHand id = (task.commandId == id) := by
    rw [Flight.inHand, hok.submit task rfl]
    rfl
  rw [hhand, inHand_snoc] at hset
  simp only [System.holders, System.tasks, hperm.countP_eq, List.countP_append,
    List.countP_singleton]
  simp only [insertsRow, Bool.false_eq_true, if_false] at hset
  omega

/-- A worker's statement: no execution inserts, and marking a command finished takes its
    row out of the queue. -/
theorem runsInv_work {key : String} {worker : ℕ} {e : Event Query Query.Answer} {x : Execution}
    {rest : Prog Query Query.Answer Panic (Except String Json)} {rows : CommandRuns}
    (hreach : Reaches (step state) cond System.init s) (hinv : RunsInv state.db s)
    (hx : s.running key worker = some x) (hrest : x.rest.follow [e] = some rest)
    (hrows : writeRow state.db s.rows e = some rows) :
    RunsInv state.db { s with
      rows := rows
      running := s.setRunning key worker
        (some { x with rest := rest, asked := x.asked ++ [e] }) } := by
  have hpath := executions_onPath (R := fun _ _ _ => True) (wp_execute_queries state.db) hreach x
    (.inl ⟨_, _, hx⟩)
  have hok : IsExecuteQuery x.item.task e.1 := ok_of_follow hpath.future hrest
  have hfin : ∀ id status summary errorCode, e.1 = .markFinished id status summary errorCode →
      status = "succeeded" ∨ status = "failed" := by
    intro id status summary errorCode he
    rw [he] at hok
    exact hok.2
  rcases writeRow_cases hfin hrows with ⟨id, console, -, -, hkind⟩ | ⟨hmoves, hnodb, -⟩
  · rcases hkind with ⟨action, actor, key, args, -, rfl⟩ | ⟨actor, command, scope, -, rfl⟩
    · exact hok.elim
    · exact hok.elim
  · refine hinv.moves (fun id => rfl) hmoves hnodb fun k w y hy hm => ?_
    simp only [System.setRunning] at hy
    split_ifs at hy with h
    · obtain rfl := Option.some.inj hy
      obtain ⟨status, summary, errorCode, hmem⟩ := hm
      rcases List.mem_append.mp hmem with hmem | hmem
      · obtain ⟨row, hrow, hid, hne⟩ := hinv.marked key worker x hx ⟨_, _, _, hmem⟩
        obtain ⟨row', hrow', hid', hq⟩ := hmoves.forth row hrow
        exact .inr ⟨row', hrow', hid'.trans hid, fun h => hne (hq h)⟩
      · have he : ⟨.markFinished x.item.task.commandId status summary errorCode, .ok ()⟩ = e :=
          List.mem_singleton.mp hmem
        rw [← he] at hrows hfin
        -- the row is there, since the task is held
        have hheld : x.item ∈ s.broker.held := by
          refine mem_held_of_busy (k := key) (w := worker) ?_
          rw [← (coherent_of_reaches hreach).running key worker, hx]
          rfl
        have hpos : 0 < s.tasks x.item.task.commandId :=
          List.countP_pos_iff.mpr ⟨x.item, hheld, by simp⟩
        have hone := hinv.one x.item.task.commandId
        obtain ⟨row, hrow, hid⟩ := hinv.row x.item.task.commandId (by
          unfold System.holders at hone ⊢
          omega)
        obtain ⟨row', hrow', hid', -⟩ := hmoves.forth row hrow
        have hmark := (moves_of_markFinished (hfin _ _ _ _ rfl) hrows).2
        exact .inr ⟨row', hrow', hid'.trans hid, hmark row' hrow' (hid'.trans hid)⟩
    · exact .inl hy

/-- The task of an execution that ends is let go of, after its row left the queue. -/
theorem runsInv_finish {key : String} {worker : ℕ} {x : Execution} {result : Except String Json}
    {broker : BrokerState} (hreach : Reaches (step state) cond System.init s)
    (hinv : RunsInv state.db s) (hx : s.running key worker = some x)
    (hr : x.rest.result = some (.ok result))
    (hmarked : ∀ id status summary errorCode marked,
      ⟨.markFinished id status summary errorCode, marked⟩ ∈ x.asked → marked = .ok ())
    (hb : brokerStep s.broker (.finish key worker) = some broker) :
    RunsInv state.db { s with
      broker := broker
      running := s.setRunning key worker none
      ended := s.ended ++ [x] } := by
  obtain ⟨item, -, -, hbusy, -⟩ := busy_finish hb
  obtain ⟨W, item', hfind, hphase, hperm⟩ := held_finish
    (lane_of_reachable (broker_reachable hreach) key) hb
  have hitem : item' = x.item := by
    have hlink := (coherent_of_reaches hreach).running key worker
    rw [hx, Option.map_some, State.busy, hfind, Option.bind_some, hphase] at hlink
    exact (Option.some.inj hlink).symm
  rw [hitem] at hperm
  -- with a database, the row has been marked
  have hmark : state.db = true → x.Marked := by
    intro hdb
    have hpath := executions_onPath (wp_execute_concluded state.db) hreach x (.inl ⟨_, _, hx⟩)
    obtain ⟨es, result', -, -, hdone, hpanic⟩ := hpath.ends hr
    by_cases hw : Writable result'
    · obtain ⟨status, summary, errorCode, marked, -, hmem⟩ := (hdone hw).2.1 hdb
      obtain rfl := hmarked _ _ _ _ _ hmem
      exact ⟨status, summary, errorCode, hmem⟩
    · cases hpanic hw
  have hcount : ∀ id, s.tasks id = broker.held.countP (fun i => i.task.commandId == id) +
      if x.item.task.commandId = id then 1 else 0 := by
    intro id
    rw [System.tasks, hperm.countP_eq, List.countP_append, List.countP_singleton]
    simp
  have hholders : ∀ id, s.holders id = System.holders { s with
      broker := broker
      running := s.setRunning key worker none
      ended := s.ended ++ [x] } id + if x.item.task.commandId = id then 1 else 0 := by
    intro id
    rw [System.holders, hcount, ← Nat.add_assoc]
    rfl
  constructor
  · intro id
    have hone := hinv.one id
    rw [hholders] at hone
    omega
  · intro id h
    have hone := hinv.one id
    rw [hholders, h] at hone
    refine hinv.row id ?_
    rw [hholders, h]
    omega
  · intro row hrow hq hc
    have hold := hinv.queued row hrow hq hc
    rw [hholders] at hold
    split_ifs at hold with hid
    · exfalso
      cases hdb : state.db with
      | false =>
        have hnil := hinv.nodb hdb
        rw [Table.mem_def, hnil] at hrow
        cases hrow
      | true =>
        obtain ⟨row', hrow', hid', hne⟩ := hinv.marked key worker x hx (hmark hdb)
        rw [row_unique hrow hrow' (hid.symm.trans hid'.symm)] at hq
        exact hne hq
    · exact hold
  · intro k w y hy hm
    simp only [System.setRunning] at hy
    split_ifs at hy
    exact hinv.marked k w y hy hm
  · exact hinv.nodb

theorem runsInv_of_reaches (hreach : Reaches (step state) (KeepsRuns state) System.init s) :
    RunsInv state.db s := by
  induction hreach with
  | start => exact ⟨fun _ => Nat.zero_le _, nofun, nofun, nofun, fun _ => rfl⟩
  | @next s s' l hreach hcond hstep ih =>
    cases step_effect hstep with
    | arrive request auth headers =>
      refine ih.moves (fun id => ?_) (.refl _) (fun _ => rfl) fun key worker x hx _ => .inl hx
      simp [System.holders, System.tasks, Flight.inHand]
    | answer i e f rest rows hf hrest hrows hne => exact runsInv_answer hreach ih hf hrest hrows hne
    | submit i task accepted f rest broker hf hrest hsubmit =>
      exact runsInv_submit hreach ih (hcond.1 i task accepted rfl) hf hrest hsubmit
    | recv key worker broker item hb hitem =>
      have hperm := held_recv (lane_of_reachable (broker_reachable hreach) key) hb
      refine ih.moves (holders_congr rfl hperm) (.refl _) (fun _ => rfl) fun k w x hx hm => ?_
      simp only [System.setRunning] at hx
      split_ifs at hx
      · obtain rfl := Option.some.inj hx
        obtain ⟨_, _, _, hmem⟩ := hm
        cases hmem
      · exact .inl hx
    | work key worker e x rest rows hx hrest hrows => exact runsInv_work hreach ih hx hrest hrows
    | finish key worker x r broker hx hr hb =>
      obtain ⟨hcut, hmarked⟩ := hcond.2 key worker x rfl hx
      obtain ⟨result, rfl⟩ := finish_returns hreach hcut hx hr
      exact runsInv_finish hreach ih hx hr hmarked hb

theorem no_refusal (hreach : Reaches (step state) (KeepsRuns state) System.init s) :
    ∀ f ∈ s.flights, ∀ task, ⟨.submit task, false⟩ ∉ f.asked := by
  induction hreach with
  | start => exact nofun
  | @next s s' l hreach hcond hstep ih =>
    have hset : ∀ {i : ℕ} {e : Event Query Query.Answer} {f : Flight} {rest : Server ℕ},
        s.flights[i]? = some f → (∀ task, e ≠ ⟨.submit task, false⟩) →
        ∀ g ∈ s.flights.set i { f with rest := rest, asked := f.asked ++ [e] },
          ∀ task, ⟨.submit task, false⟩ ∉ g.asked := by
      intro i e f rest hf he g hg task hmem
      rcases List.mem_or_eq_of_mem_set hg with hg | rfl
      · exact ih g hg task hmem
      · rcases List.mem_append.mp hmem with hmem | hmem
        · exact ih f (List.mem_of_getElem? hf) task hmem
        · exact he task (List.mem_singleton.mp hmem).symm
    cases step_effect hstep with
    | arrive request auth headers =>
      intro f hf task hmem
      rcases List.mem_append.mp hf with hf | hf
      · exact ih f hf task hmem
      · rw [List.mem_singleton.mp hf] at hmem
        cases hmem
    | answer i e f rest rows hf hrest hrows hne =>
      refine hset hf fun task he => hne task ?_
      rw [he]
    | submit i task accepted f rest broker hf hrest hsubmit =>
      obtain ⟨-, hiff, -⟩ := submit_spec (by decide) (broker_reachable hreach)
        (coherent_of_reaches hreach).pending hsubmit
      obtain rfl := hiff.mpr (hcond.1 i task accepted rfl)
      refine hset hf fun task' he => ?_
      cases he
    | _ => exact ih

/-- `command_runs` agrees with the broker: a `queued` row has exactly one task, waiting
    or being executed, unless its request is still between the insert and the submit;
    and when a submit was refused, its row is no longer `queued` and the response is no
    success. The rows of console requests never go through the broker. -/
structure Faithful (s : System) : Prop where
  one : ∀ row ∈ s.rows, row.status = .queued → row.console = false →
    (∀ f ∈ s.flights, f.inHand row.id = false) → s.tasks row.id = 1
  inHand : ∀ row ∈ s.rows, row.status = .queued → row.console = false →
    (∃ f ∈ s.flights, f.inHand row.id = true) → s.tasks row.id = 0
  refused : ∀ f ∈ s.flights, ∀ task, ⟨.submit task, false⟩ ∈ f.asked →
    (∀ row ∈ s.rows, row.id = task.commandId → row.status ≠ .queued) ∧
      ∀ r, f.rest.result = some r → isSuccessStatus (responseStatus r) = false

/-- **Rows and tasks stand for each other** in every run in which no submit is refused
    and every execution that ends has an error text that can be cut and wrote its
    outcome. -/
theorem runs_faithful (state : AppState) (s : System)
    (hreach : Reaches (step state) (KeepsRuns state) System.init s) : Faithful s := by
  have hinv := runsInv_of_reaches hreach
  refine ⟨fun row hrow hq hc hno => ?_, fun row hrow hq hc hf => ?_, fun f hf task hmem => ?_⟩
  · have hone := hinv.queued row hrow hq hc
    have hzero : s.flights.countP (Flight.inHand row.id) = 0 :=
      List.countP_eq_zero.mpr fun f hf => by simp [hno f hf]
    rwa [System.holders, hzero, Nat.zero_add] at hone
  · have hone := hinv.queued row hrow hq hc
    have hpos : 0 < s.flights.countP (Flight.inHand row.id) := List.countP_pos_iff.mpr hf
    rw [System.holders] at hone
    omega
  · exact absurd hmem (no_refusal hreach f hf task)

/-- The conditions of `runs_faithful`, for runs with the one command of `failedRun`. -/
def keepsRefused (s : System) (l : Label) : Bool :=
  endsRefused s l &&
    match l with
    | .answer _ ⟨.submit task, _⟩ => decide (s.broker.Accepts channelCapacity task.resourceKey)
    | .finish key worker => (s.running key worker).all fun x => x.asked.all fun e =>
      match e with
      | ⟨.markFinished _ _ _ _, .error _⟩ => false
      | _ => true
    | _ => true

theorem keepsRuns_of_keepsRefused (s : System) (l : Label) (h : keepsRefused s l = true) :
    KeepsRuns ⟨true, 10⟩ s l := by
  unfold keepsRefused at h
  obtain ⟨hends, h⟩ := Bool.and_eq_true_iff.mp h
  refine ⟨?_, ?_⟩
  · rintro i task accepted rfl
    exact of_decide_eq_true h
  · rintro key worker x rfl hx
    refine ⟨cutsErrors_of_endsRefused s _ hends key worker x rfl hx, ?_⟩
    intro id status summary errorCode marked hmem
    simp only [hx, Option.all_some, List.all_eq_true] at h
    have hok := h _ hmem
    cases marked with
    | ok u => rfl
    | error e => cases hok

/-- A command that failed has its row marked, and the row of the next one is `queued`. -/
theorem runs_faithful_refused :
    ∃ s, Reaches (step ⟨true, 10⟩) (KeepsRuns ⟨true, 10⟩) System.init s ∧
      s.rows.rows = [⟨1, .failed, false⟩, ⟨2, .queued, false⟩] ∧ Faithful s := by
  have hrun : (runWhile (step ⟨true, 10⟩) keepsRefused System.init failedRun).any (fun s =>
      decide (s.rows.rows = [⟨1, .failed, false⟩, ⟨2, .queued, false⟩])) = true := by
    decide +kernel
  obtain ⟨s, hreach, hrows⟩ := exists_reaches_of_runWhile keepsRuns_of_keepsRefused hrun
  exact ⟨s, hreach, of_decide_eq_true hrows, runs_faithful ⟨true, 10⟩ s hreach⟩

/-- 65 requests for the key `server`, before its worker takes the first task. -/
def fullRun : List Label :=
  (List.range 64).flatMap (fun i => gateRequest i (BitVec.ofNat 128 (i + 1)) true) ++
    gateRequest 64 65 false

/-- The last request ends with 202 Accepted, its row is `queued` and it has no task. -/
def refusedAsAccepted (s : System) : Bool :=
  s.rows.rows.any (fun row => decide (row = ⟨65, .queued, false⟩)) && decide (s.tasks 65 = 0) &&
    s.flights.all (fun f => !f.inHand 65) &&
    (s.flights[64]?).any fun f => (f.rest.result).any fun r => decide (responseStatus r = 202)

/-- The worker of `server` has not started, and `items` are waiting for it. -/
structure Waiting (s : System) (items : List (Item CommandTask)) : Prop where
  entry : s.broker.entry "server" = some 0
  workers : s.broker.workers = [⟨0, "server", items, .idle⟩]

/-- The questions of `gateRequest`, one by one; a refused submit is answered with 202. -/
theorem gateRequest_follow (id : Uuid) (accepted : Bool) :
    ∃ p₁ p₂ p₃, (Request.handler ⟨true, 10⟩ rootCaller []
        (.entry (.executeAction "server.roomcreation" (.obj [("enabled", .bool false)])))).follow
          [⟨.newUuid, id⟩] = some p₁ ∧
      p₁.follow [⟨.insertQueued id "server.roomcreation" (Uuid.toText Uuid.nil) "server"
        (.obj [("enabled", .bool false)]), .ok ()⟩] = some p₂ ∧
      p₂.follow [⟨.submit (gateTask id), accepted⟩] = some p₃ ∧
      (accepted = false → p₃.result.any (fun r => decide (responseStatus r = 202)) = true) := by
  refine ⟨_, _, _, follow_self, follow_self, follow_self, ?_⟩
  rintro rfl
  rfl

/-- The next request: its row is `queued`, and its task waits unless the queue is full. -/
theorem runFrom_gateRequest {items : List (Item CommandTask)} {id : Uuid}
    (hc : s.Coherent) (hw : Waiting s items) (hid : ∀ row ∈ s.rows, row.id ≠ id) :
    ∃ s' f, runFrom (step ⟨true, 10⟩) s (gateRequest s.flights.length id
        (decide (items.length < channelCapacity))) = some s' ∧
      Waiting s' (if items.length < channelCapacity then
        items ++ [⟨s.submits, gateTask id⟩] else items) ∧
      s'.rows.rows = s.rows.rows ++ [⟨id, .queued, false⟩] ∧
      s'.flights = s.flights ++ [f] ∧ (∀ id', f.inHand id' = false) ∧
      (¬ items.length < channelCapacity →
        (f.rest.result).any (fun r => decide (responseStatus r = 202)) = true) := by
  obtain ⟨rows, hrows⟩ := Table.exists_insert (t := s.rows) (r := ⟨id, .queued, false⟩) hid
  have hfresh : ∀ e ∈ s.broker.log, e.item.id ≠ s.submits := fun e he => (hc.logged e he).ne
  obtain ⟨broker, hsubmit, hentry, hworkers⟩ : ∃ broker,
      submitStep s.broker s.submits (gateTask id) =
        some (broker, decide (items.length < channelCapacity)) ∧
      broker.entry = s.broker.entry ∧
      broker.workers = [⟨0, "server", if items.length < channelCapacity then
        items ++ [(⟨s.submits, gateTask id⟩ : Item CommandTask)] else items, .idle⟩] :=
    submit_of_idle hc.pending hfresh hw.entry hw.workers
  obtain ⟨p₁, p₂, p₃, h₁, h₂, h₃, hresult⟩ :=
    gateRequest_follow id (decide (items.length < channelCapacity))
  have hget : ∀ f : Flight, (s.flights ++ [f])[s.flights.length]? = some f := fun f => by simp
  have hset : ∀ f g : Flight, (s.flights ++ [f]).set s.flights.length g = s.flights ++ [g] :=
    fun f g => by simp
  simp only [gateRequest, runFrom, step, Option.bind_some, answerStep, hget, hset, h₁, h₂, h₃,
    Option.bind_eq_bind, Option.pure_def, writeRow, answerBroker, hrows, if_true]
  simp only [hsubmit, Option.bind_some, if_true, hset]
  refine ⟨_, _, rfl, ⟨?_, hworkers⟩, Table.commit_eq_some.mp hrows, rfl, fun _ => rfl, fun hfull => ?_⟩
  · exact (congrFun hentry "server").trans hw.entry
  · exact hresult (decide_eq_false hfull)

/-- The first `n` requests of `fullRun` wait for the key `server`. -/
structure FirstWait (n : ℕ) (s : System) : Prop where
  length : s.flights.length = n
  inHand : ∀ f ∈ s.flights, ∀ id, f.inHand id = false
  rows : ∀ row ∈ s.rows, row.id.toNat ≤ n
  waiting : ∃ items, Waiting s items ∧ items.length = n ∧
    ∀ i ∈ items, i.task.commandId.toNat ≤ n

theorem firstWait_one : ∃ s, runFrom (step ⟨true, 10⟩) System.init (gateRequest 0 1 true) = some s ∧
    FirstWait 1 s := by
  refine ⟨_, rfl, rfl, ?_, ?_, _, ⟨rfl, rfl⟩, rfl, ?_⟩
  · rintro f hf id
    obtain rfl := List.mem_singleton.mp hf
    rfl
  · intro row hrow
    obtain rfl := List.mem_singleton.mp hrow
    decide
  · intro i hi
    obtain rfl := List.mem_singleton.mp hi
    decide

theorem toNat_commandId {n : ℕ} (hn : n ≤ channelCapacity) :
    (BitVec.ofNat 128 (n + 1)).toNat = n + 1 := by
  have hcap : channelCapacity = 64 := rfl
  rw [BitVec.toNat_ofNat]
  omega

/-- The next request waits as well, unless the queue is full. -/
theorem FirstWait.next {n : ℕ} (hreach : Reachable (step ⟨true, 10⟩) System.init s)
    (h : FirstWait n s) (hn : n < channelCapacity) :
    ∃ s', runFrom (step ⟨true, 10⟩) s (gateRequest n (BitVec.ofNat 128 (n + 1)) true) = some s' ∧
      FirstWait (n + 1) s' := by
  obtain ⟨items, hw, hlength, hitems⟩ := h.waiting
  have hid : (BitVec.ofNat 128 (n + 1)).toNat = n + 1 := toNat_commandId hn.le
  have hne : ∀ row ∈ s.rows, row.id ≠ BitVec.ofNat 128 (n + 1) := by
    intro row hrow heq
    have hle := h.rows row hrow
    rw [heq, hid] at hle
    omega
  obtain ⟨s', f, hrun, hw', hrows, hflights, hhand, -⟩ :=
    runFrom_gateRequest (coherent_of_reaches hreach) hw hne
  rw [h.length, hlength, decide_eq_true hn] at hrun
  rw [hlength, if_pos hn] at hw'
  refine ⟨s', hrun, ?_, ?_, ?_, _, hw', ?_, ?_⟩
  · rw [hflights, List.length_append, h.length, List.length_singleton]
  · rw [hflights]
    exact List.forall_mem_append.mpr ⟨h.inHand, by simpa using hhand⟩
  · intro row hrow
    rw [Table.mem_def, hrows] at hrow
    rcases List.mem_append.mp hrow with hrow | hrow
    · exact (h.rows row hrow).trans n.le_succ
    · rw [List.mem_singleton.mp hrow]
      exact hid.le
  · rw [List.length_append, hlength, List.length_singleton]
  · intro i hi
    rcases List.mem_append.mp hi with hi | hi
    · exact (hitems i hi).trans n.le_succ
    · rw [List.mem_singleton.mp hi]
      exact hid.le

theorem exists_firstWait {n : ℕ} (hn : n < channelCapacity) :
    ∃ s, runFrom (step ⟨true, 10⟩) System.init ((List.range (n + 1)).flatMap fun i =>
      gateRequest i (BitVec.ofNat 128 (i + 1)) true) = some s ∧ FirstWait (n + 1) s := by
  induction n with
  | zero => exact firstWait_one
  | succ n ih =>
    obtain ⟨s, hrun, hs⟩ := ih (by omega)
    obtain ⟨s', hrun', hs'⟩ := hs.next (reachable_of_runFrom hrun) hn
    refine ⟨s', ?_, hs'⟩
    rw [List.range_succ, List.flatMap_append, runFrom_append, hrun]
    simpa using hrun'

theorem refusedAsAccepted_fullRun :
    ∃ s, runFrom (step ⟨true, 10⟩) System.init fullRun = some s ∧ refusedAsAccepted s = true := by
  obtain ⟨s, hrun, hs⟩ := exists_firstWait (n := 63) (by decide)
  obtain ⟨items, hw, hlength, hitems⟩ := hs.waiting
  have hfull : ¬ items.length < channelCapacity := by simp [hlength, channelCapacity]
  have hne : ∀ row ∈ s.rows, row.id ≠ (65 : Uuid) := by
    rintro row hrow heq
    have hle := hs.rows row hrow
    rw [heq] at hle
    exact absurd hle (by decide)
  obtain ⟨s', f, hrun', hw', hrows, hflights, hhand, hstatus⟩ :=
    runFrom_gateRequest (coherent_of_reaches (reachable_of_runFrom hrun)) hw hne
  rw [decide_eq_false hfull, hs.length] at hrun'
  rw [if_neg hfull] at hw'
  refine ⟨s', ?_, ?_⟩
  · rw [fullRun, runFrom_append, hrun]
    exact hrun'
  · have htasks : s'.tasks 65 = 0 := by
      rw [System.tasks, State.held, hw'.workers, List.flatMap_singleton, List.countP_eq_zero]
      intro i hi heq
      have hle := hitems i hi
      rw [eq_of_beq heq] at hle
      exact absurd hle (by decide)
    have hnone : s'.flights.all (fun f => !f.inHand 65) = true := by
      rw [hflights, List.all_append, Bool.and_eq_true, List.all_eq_true]
      refine ⟨fun g hg => ?_, by simpa using hhand 65⟩
      rw [hs.inHand g hg]
      rfl
    have hlast : s'.flights[64]? = some f := by
      rw [hflights, List.getElem?_append_right hs.length.le, hs.length]
      rfl
    simp only [refusedAsAccepted, Bool.and_eq_true]
    refine ⟨⟨⟨?_, decide_eq_true htasks⟩, hnone⟩, ?_⟩
    · simp [hrows]
    · rw [hlast]
      exact hstatus hfull

theorem not_faithful_when_full :
    ∃ s, Reachable (step ⟨true, 10⟩) System.init s ∧ refusedAsAccepted s = true ∧ ¬ Faithful s := by
  obtain ⟨s, hrun, hs⟩ := refusedAsAccepted_fullRun
  refine ⟨s, reachable_of_runFrom hrun, hs, fun hfaithful => ?_⟩
  simp only [refusedAsAccepted, Bool.and_eq_true, List.any_eq_true, List.all_eq_true,
    decide_eq_true_eq] at hs
  obtain ⟨⟨⟨⟨row, hrow, rfl⟩, hzero⟩, hhand⟩, -⟩ := hs
  have hone := hfaithful.one _ hrow rfl rfl fun f hf => by simpa using hhand f hf
  rw [hzero] at hone
  cases hone

end Ppb.Commands
