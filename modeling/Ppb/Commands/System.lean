import Ppb.Actions.Entry
import Ppb.Actions.Executor
import Ppb.Common.HeldTasks
import Ppb.Common.Table

/-!
# Requests, broker and `command_runs` together

One process: any number of requests in flight, the broker with its workers, the
executions of its tasks, and the table `command_runs`. A step is the arrival of a
request, the answer to the question a request or an execution is waiting for, a
worker taking a task, or the end of an execution. Requests and executions are the
programs of `Actions/Routes` and `Actions/Executor`; what they ask of `command_runs`
and of the broker is answered by the state, everything else is in the labels.

* `step`: the steps; `step_effect`: everything a step can do.
* `broker_reachable`: the broker's part of a run is a run of the broker.
* `flights_onPath`, `executions_onPath`: what all paths of a program have in common
  holds of every request and of every execution of a run.
-/

namespace Ppb.Commands

open Trace KeyedQueue Actions

/-! ## `command_runs` -/

/-- The values of `command_runs.status` (migrations/0001_init.sql:266). -/
inductive RunStatus where
  | queued | running | succeeded | failed | cancelled
  deriving DecidableEq, Repr

/-- A status as it is written; `none` violates the check constraint. -/
def RunStatus.ofText (s : String) : Option RunStatus :=
  if s = "queued" then some .queued
  else if s = "running" then some .running
  else if s = "succeeded" then some .succeeded
  else if s = "failed" then some .failed
  else if s = "cancelled" then some .cancelled
  else none

/-- A row of `command_runs`. `console` rows are written by `insert_console_run` and
    never go through the broker. -/
structure CommandRow where
  id : Uuid
  status : RunStatus
  console : Bool
  deriving DecidableEq, Repr

/-- The primary key. -/
def SameKey (a b : CommandRow) : Prop := a.id ≠ b.id

instance : DecidableRel SameKey := fun a b => inferInstanceAs (Decidable (a.id ≠ b.id))

abbrev CommandRuns := Table CommandRow SameKey

/-- What a successful statement does to `command_runs`; `none` if it would violate a
    constraint, or if there is no database, and then cannot have succeeded. -/
def writeRow (db : Bool) (rows : CommandRuns) : Event Query Query.Answer → Option CommandRuns
  | ⟨.insertQueued id _ _ _ _, .ok ()⟩ => if db then rows.insert ⟨id, .queued, false⟩ else none
  | ⟨.insertConsoleRun id _ _ _, .ok ()⟩ => if db then rows.insert ⟨id, .queued, true⟩ else none
  | ⟨.markFinished id status _ _, .ok ()⟩ =>
    if db then do
      let status ← RunStatus.ofText status
      rows.update (fun row => row.id == id) fun row => { row with status := status }
    else none
  | _ => some rows

/-! ## The system -/

/-- A request that has arrived: what is left of its handler, and what it has asked. -/
structure Flight where
  request : Request
  auth : AuthPrincipal
  headers : Headers
  rest : Server ℕ
  asked : Asked

/-- The execution of a task: what is left of it, and what it has asked. -/
structure Execution where
  item : Item CommandTask
  rest : Prog Query Query.Answer Panic (Except String Json)
  asked : Asked

structure System where
  flights : List Flight
  broker : BrokerState
  rows : CommandRuns
  /-- what each worker is executing -/
  running : String → ℕ → Option Execution
  ended : List Execution
  /-- how many submits were made; names the next one -/
  submits : ℕ

inductive Label where
  | arrive (request : Request) (auth : AuthPrincipal) (headers : Headers)
  /-- the `i`-th request is answered -/
  | answer (i : ℕ) (e : Event Query Query.Answer)
  /-- a worker takes the next task -/
  | recv (key : String) (worker : ℕ)
  /-- the execution of a worker is answered -/
  | work (key : String) (worker : ℕ) (e : Event Query Query.Answer)
  /-- the execution of a worker has ended -/
  | finish (key : String) (worker : ℕ)

/-- The system after a start: no rows of earlier processes. -/
def System.init : System :=
  { flights := [], broker := State.init, rows := Table.empty, running := fun _ _ => none,
    ended := [], submits := 0 }

/-- A worker starts, goes on with or ends an execution. -/
def System.setRunning (s : System) (key : String) (worker : ℕ) (x : Option Execution) :
    String → ℕ → Option Execution :=
  fun k w => if k = key ∧ w = worker then x else s.running k w

/-- `CommandBroker::submit`, both steps; the map entry is locked in between. -/
def submitStep : BrokerState → ℕ → CommandTask → Option (BrokerState × Bool) :=
  KeyedQueue.submit CommandTask.resourceKey channelCapacity

/-- What an answer does to the broker: a submit is answered by it. -/
def answerBroker (s : System) : Event Query Query.Answer → Option System
  | ⟨.submit task, accepted⟩ => do
    let (broker, accepted') ← submitStep s.broker s.submits task
    if accepted = accepted' then some { s with broker := broker, submits := s.submits + 1 }
    else none
  | _ => some s

def answerStep (db : Bool) (s : System) (i : ℕ) (e : Event Query Query.Answer) :
    Option System := do
  let f ← s.flights[i]?
  let rest ← f.rest.follow [e]
  let rows ← writeRow db s.rows e
  let s ← answerBroker s e
  return { s with
    rows := rows
    flights := s.flights.set i { f with rest := rest, asked := f.asked ++ [e] } }

def recvStep (db : Bool) (s : System) (key : String) (worker : ℕ) : Option System := do
  let broker ← brokerStep s.broker (.recv key worker)
  let item ← broker.busy key worker
  return { s with
    broker := broker
    running := s.setRunning key worker (some ⟨item, execute db item.task, []⟩) }

def workStep (db : Bool) (s : System) (key : String) (worker : ℕ)
    (e : Event Query Query.Answer) : Option System := do
  let x ← s.running key worker
  let rest ← x.rest.follow [e]
  let rows ← writeRow db s.rows e
  return { s with
    rows := rows
    running := s.setRunning key worker (some { x with rest := rest, asked := x.asked ++ [e] }) }

/-- The broker's step at the end of an execution: a panic kills the worker. -/
def endLabel (key : String) (worker : ℕ) : Except Panic (Except String Json) → BrokerLabel
  | .ok _ => .finish key worker
  | .error _ => .crash key worker

def finishStep (s : System) (key : String) (worker : ℕ) : Option System := do
  let x ← s.running key worker
  let r ← x.rest.result
  let broker ← brokerStep s.broker (endLabel key worker r)
  return { s with
    broker := broker
    running := s.setRunning key worker none
    ended := s.ended ++ [x] }

/-- One step of the process. -/
def step (state : AppState) (s : System) : Label → Option System
  | .arrive request auth headers =>
    some { s with
      flights := s.flights ++ [⟨request, auth, headers, request.handler state auth headers, []⟩] }
  | .answer i e => answerStep state.db s i e
  | .recv key worker => recvStep state.db s key worker
  | .work key worker e => workStep state.db s key worker e
  | .finish key worker => finishStep s key worker

/-! ## What a step can do -/

/-- The states a step leads to, with everything it depends on. -/
inductive Effect (state : AppState) (s : System) : Label → System → Prop
  | arrive (request : Request) (auth : AuthPrincipal) (headers : Headers) :
      Effect state s (.arrive request auth headers)
        { s with flights :=
            s.flights ++ [⟨request, auth, headers, request.handler state auth headers, []⟩] }
  | answer (i : ℕ) (e : Event Query Query.Answer) (f : Flight) (rest : Server ℕ)
      (rows : CommandRuns) (hf : s.flights[i]? = some f) (hrest : f.rest.follow [e] = some rest)
      (hrows : writeRow state.db s.rows e = some rows) (hne : ∀ task, e.1 ≠ .submit task) :
      Effect state s (.answer i e)
        { s with rows := rows
                 flights := s.flights.set i { f with rest := rest, asked := f.asked ++ [e] } }
  | submit (i : ℕ) (task : CommandTask) (accepted : Bool) (f : Flight) (rest : Server ℕ)
      (broker : BrokerState) (hf : s.flights[i]? = some f)
      (hrest : f.rest.follow [⟨.submit task, accepted⟩] = some rest)
      (hsubmit : submitStep s.broker s.submits task = some (broker, accepted)) :
      Effect state s (.answer i ⟨.submit task, accepted⟩)
        { s with broker := broker
                 submits := s.submits + 1
                 flights := s.flights.set i
                  { f with rest := rest, asked := f.asked ++ [⟨.submit task, accepted⟩] } }
  | recv (key : String) (worker : ℕ) (broker : BrokerState) (item : Item CommandTask)
      (hb : brokerStep s.broker (.recv key worker) = some broker)
      (hitem : broker.busy key worker = some item) :
      Effect state s (.recv key worker)
        { s with broker := broker
                 running := s.setRunning key worker
                  (some ⟨item, execute state.db item.task, []⟩) }
  | work (key : String) (worker : ℕ) (e : Event Query Query.Answer) (x : Execution)
      (rest : Prog Query Query.Answer Panic (Except String Json)) (rows : CommandRuns)
      (hx : s.running key worker = some x) (hrest : x.rest.follow [e] = some rest)
      (hrows : writeRow state.db s.rows e = some rows) :
      Effect state s (.work key worker e)
        { s with rows := rows
                 running := s.setRunning key worker
                  (some { x with rest := rest, asked := x.asked ++ [e] }) }
  | finish (key : String) (worker : ℕ) (x : Execution) (r : Except Panic (Except String Json))
      (broker : BrokerState) (hx : s.running key worker = some x) (hr : x.rest.result = some r)
      (hb : brokerStep s.broker (endLabel key worker r) = some broker) :
      Effect state s (.finish key worker)
        { s with broker := broker
                 running := s.setRunning key worker none
                 ended := s.ended ++ [x] }

variable {state : AppState} {s s' : System} {l : Label} {cond : System → Label → Prop}

theorem answerStep_effect {i : ℕ} {e : Event Query Query.Answer}
    (h : answerStep state.db s i e = some s') : Effect state s (.answer i e) s' := by
  simp only [answerStep, Option.bind_eq_bind, Option.bind_eq_some_iff, Option.pure_def,
    Option.some.injEq] at h
  obtain ⟨f, hf, rest, hrest, rows, hrows, b, hb, rfl⟩ := h
  obtain ⟨q, a⟩ := e
  cases q with
  | submit task =>
    simp only [answerBroker, Option.bind_eq_bind, Option.bind_eq_some_iff] at hb
    obtain ⟨⟨broker, accepted⟩, hsubmit, hb⟩ := hb
    dsimp only at hb
    split_ifs at hb with ha
    obtain rfl := Option.some.inj hb
    obtain rfl : s.rows = rows := Option.some.inj hrows
    rw [← ha] at hsubmit
    exact .submit i task a f rest broker hf hrest hsubmit
  | _ =>
    obtain rfl : s = b := Option.some.inj hb
    refine .answer i _ f rest rows hf hrest hrows fun task hq => ?_
    cases hq

theorem step_effect (h : step state s l = some s') : Effect state s l s' := by
  cases l with
  | arrive request auth headers =>
    obtain rfl := Option.some.inj h
    exact .arrive request auth headers
  | answer i e => exact answerStep_effect h
  | recv key worker =>
    simp only [step, recvStep, Option.bind_eq_bind, Option.bind_eq_some_iff, Option.pure_def,
      Option.some.injEq] at h
    obtain ⟨broker, hb, item, hitem, rfl⟩ := h
    exact .recv key worker broker item hb hitem
  | work key worker e =>
    simp only [step, workStep, Option.bind_eq_bind, Option.bind_eq_some_iff, Option.pure_def,
      Option.some.injEq] at h
    obtain ⟨x, hx, rest, hrest, rows, hrows, rfl⟩ := h
    exact .work key worker e x rest rows hx hrest hrows
  | finish key worker =>
    simp only [step, finishStep, Option.bind_eq_bind, Option.bind_eq_some_iff, Option.pure_def,
      Option.some.injEq] at h
    obtain ⟨x, hx, r, hr, broker, hb, rfl⟩ := h
    exact .finish key worker x r broker hx hr hb

/-! ## The broker of a run -/

theorem submitStep_reachable {broker broker' : BrokerState} {id : ℕ} {task : CommandTask}
    {accepted : Bool} (h : submitStep broker id task = some (broker', accepted)) :
    Reachable brokerStep broker broker' := by
  simp only [submitStep, KeyedQueue.submit, Option.bind_eq_bind, Option.bind_eq_some_iff,
    Option.pure_def, Option.some.injEq, Prod.mk.injEq] at h
  obtain ⟨b₁, h₁, b₂, h₂, rfl, -⟩ := h
  exact .next (l := .send task.resourceKey id) (.next (l := .enter id task) .start trivial h₁)
    trivial h₂

theorem Effect.broker (h : Effect state s l s') : Reachable brokerStep s.broker s'.broker := by
  cases h with
  | submit i task accepted f rest broker hf hrest hsubmit => exact submitStep_reachable hsubmit
  | recv key worker broker item hb hitem => exact .next .start trivial hb
  | finish key worker x r broker hx hr hb => exact .next .start trivial hb
  | _ => exact .start

theorem broker_reachable (h : Reaches (step state) cond System.init s) :
    Reachable brokerStep State.init s.broker := by
  refine h.invariant (I := fun s => Reachable brokerStep State.init s.broker) .start ?_
  intro s l s' hs _ hstep
  exact hs.trans (step_effect hstep).broker

/-- What the parts of a state say about each other: no submit is half done, the
    numbers of the submits are used up in order, and a worker is executing what the
    broker says it is. -/
structure System.Coherent (s : System) : Prop where
  pending : s.broker.pending = []
  logged : ∀ e ∈ s.broker.log, e.item.id < s.submits
  held : ∀ i ∈ s.broker.held, i.id < s.submits
  running : ∀ k w, (s.running k w).map Execution.item = s.broker.busy k w

theorem lane_of_reachable {broker : BrokerState} (h : Reachable brokerStep State.init broker)
    (k : String) : Lane channelCapacity k (brokerView k broker) :=
  ((lanes_of_reachable h).2 k).1

/-- The held tasks after a submit. -/
theorem mem_held_submit {broker broker' : BrokerState} {id : ℕ} {task : CommandTask}
    {accepted : Bool} {i : Item CommandTask} (hreach : Reachable brokerStep State.init broker)
    (hp : broker.pending = []) (h : submitStep broker id task = some (broker', accepted))
    (hi : i ∈ broker'.held) : i ∈ broker.held ∨ i = ⟨id, task⟩ := by
  obtain ⟨-, -, -, hyes, hno⟩ := submit_spec (by decide) hreach hp h
  cases accepted with
  | true =>
    have hi' := (hyes rfl).mem_iff.mp hi
    rcases List.mem_append.mp hi' with hi' | hi'
    · exact .inl hi'
    · exact .inr (List.mem_singleton.mp hi')
  | false =>
    rw [hno rfl] at hi
    exact .inl hi

/-- The end of an execution lets go of its task, or of all tasks of its worker. -/
theorem mem_held_end {broker broker' : BrokerState} {key : String} {worker : ℕ}
    {r : Except Panic (Except String Json)} {i : Item CommandTask}
    (hreach : Reachable brokerStep State.init broker)
    (h : brokerStep broker (endLabel key worker r) = some broker') (hi : i ∈ broker'.held) :
    i ∈ broker.held := by
  cases r with
  | ok v =>
    obtain ⟨W, item, -, -, hheld⟩ := held_finish (lane_of_reachable hreach key) h
    exact hheld.mem_iff.mpr (List.mem_append_left _ hi)
  | error e => exact held_crash (lane_of_reachable hreach key) h i hi

/-- The end of an execution leaves the other workers as they are. -/
theorem busy_end {broker broker' : BrokerState} {key : String} {worker : ℕ}
    {r : Except Panic (Except String Json)}
    (h : brokerStep broker (endLabel key worker r) = some broker') :
    ∃ item, broker'.pending = broker.pending ∧
      (∀ e ∈ broker'.log, e ∈ broker.log ∨ e.item = item) ∧ broker.busy key worker = some item ∧
      ∀ k w, broker'.busy k w = if k = key ∧ w = worker then none else broker.busy k w := by
  cases r with
  | ok v =>
    obtain ⟨item, hp, hl, hb, hb'⟩ := busy_finish h
    refine ⟨item, hp, fun e he => ?_, hb, hb'⟩
    rw [hl] at he
    rcases List.mem_append.mp he with he | he
    · exact .inl he
    · rw [List.mem_singleton.mp he]
      exact .inr rfl
  | error e =>
    obtain ⟨item, hp, hl, hb, hb'⟩ := busy_crash h
    exact ⟨item, hp, fun e he => .inl (hl ▸ he), hb, hb'⟩

theorem Effect.coherent (hreach : Reachable brokerStep State.init s.broker) (hc : s.Coherent)
    (h : Effect state s l s') : s'.Coherent := by
  cases h with
  | arrive request auth headers => exact ⟨hc.pending, hc.logged, hc.held, hc.running⟩
  | answer i e f rest rows hf hrest hrows hne => exact ⟨hc.pending, hc.logged, hc.held, hc.running⟩
  | submit i task accepted f rest broker hf hrest hsubmit =>
    obtain ⟨hp, -, ⟨kind, -, hlog⟩, -, -⟩ := submit_spec (by decide) hreach hc.pending hsubmit
    refine ⟨hp, fun e he => ?_, fun j hj => ?_, fun k w => ?_⟩
    · rw [hlog] at he
      rcases List.mem_append.mp he with he | he
      · exact Nat.lt_succ_of_lt (hc.logged e he)
      · rw [List.mem_singleton.mp he]
        exact Nat.lt_succ_self _
    · rcases mem_held_submit hreach hc.pending hsubmit hj with hj | rfl
      · exact Nat.lt_succ_of_lt (hc.held j hj)
      · exact Nat.lt_succ_self _
    · rw [hc.running k w]
      exact (busy_submit hsubmit k w).symm
  | recv key worker broker item hb hitem =>
    obtain ⟨item', hp, hl, -, hbusy⟩ := busy_recv hb
    have hheld := held_recv (lane_of_reachable hreach key) hb
    have hnew : item'.id < s.submits := by
      refine hc.held item' (hheld.mem_iff.mp (mem_held_of_busy (k := key) (w := worker) ?_))
      simp [hbusy]
    refine ⟨hp.trans hc.pending, fun e he => ?_, fun j hj => ?_, fun k w => ?_⟩
    · rw [hl] at he
      rcases List.mem_append.mp he with he | he
      · exact hc.logged e he
      · rw [List.mem_singleton.mp he]
        exact hnew
    · exact hc.held j (hheld.mem_iff.mp hj)
    · rw [hbusy] at hitem ⊢
      simp only [and_self, if_true] at hitem
      obtain rfl := Option.some.inj hitem
      simp only [System.setRunning]
      split_ifs
      · rfl
      · exact hc.running k w
  | work key worker e x rest rows hx hrest hrows =>
    refine ⟨hc.pending, hc.logged, hc.held, fun k w => ?_⟩
    rw [← hc.running k w]
    simp only [System.setRunning]
    split_ifs with h
    · rw [h.1, h.2, hx]
      rfl
    · rfl
  | finish key worker x r broker hx hr hb =>
    obtain ⟨item, hp, hl, hbusy, hbusy'⟩ := busy_end hb
    refine ⟨hp.trans hc.pending, fun e he => ?_, fun j hj => ?_, fun k w => ?_⟩
    · rcases hl e he with he | he
      · exact hc.logged e he
      · rw [he]
        exact hc.held item (mem_held_of_busy hbusy)
    · exact hc.held j (mem_held_end hreach hb hj)
    · rw [hbusy' k w]
      simp only [System.setRunning]
      split_ifs
      · rfl
      · exact hc.running k w

theorem coherent_of_reaches (h : Reaches (step state) cond System.init s) : s.Coherent := by
  induction h with
  | start => exact ⟨rfl, nofun, nofun, fun _ _ => rfl⟩
  | next hreach _ hstep ih => exact (step_effect hstep).coherent (broker_reachable hreach) ih

/-! ## The programs of a run -/

/-- What holds on all paths of every handler holds of all requests of a run. -/
theorem flights_onPath
    {ok : Request → AuthPrincipal → Headers → Asked → Event Query Query.Answer → Prop}
    {R : Request → AuthPrincipal → Headers → Asked → Except ApiError ℕ → Prop}
    (hok : ∀ request auth headers, Prog.wp (ok request auth headers)
      (request.handler state auth headers) [] (R request auth headers))
    (h : Reaches (step state) cond System.init s) : ∀ f ∈ s.flights,
      Prog.OnPath (ok f.request f.auth f.headers) (R f.request f.auth f.headers) f.asked f.rest := by
  refine h.invariant (I := fun s => ∀ f ∈ s.flights, Prog.OnPath (ok f.request f.auth f.headers)
    (R f.request f.auth f.headers) f.asked f.rest) (by simp [System.init]) ?_
  intro s l s' hs _ hstep
  have hset : ∀ {i : ℕ} {e : Event Query Query.Answer} {f : Flight} {rest : Server ℕ},
      s.flights[i]? = some f → f.rest.follow [e] = some rest →
      ∀ g ∈ s.flights.set i { f with rest := rest, asked := f.asked ++ [e] },
        Prog.OnPath (ok g.request g.auth g.headers) (R g.request g.auth g.headers) g.asked
          g.rest := by
    intro i e f rest hf hrest g hg
    rcases List.mem_or_eq_of_mem_set hg with hg | rfl
    · exact hs g hg
    · exact (hs f (List.mem_of_getElem? hf)).answer hrest
  cases step_effect hstep with
  | arrive request auth headers =>
    intro f hf
    rcases List.mem_append.mp hf with hf | hf
    · exact hs f hf
    · rw [List.mem_singleton.mp hf]
      exact .start (hok request auth headers)
  | answer i e f rest rows hf hrest hrows hne => exact hset hf hrest
  | submit i task accepted f rest broker hf hrest hsubmit => exact hset hf hrest
  | recv key worker broker item hb hitem => exact hs
  | work key worker e x rest rows hx hrest hrows => exact hs
  | finish key worker x r broker hx hr hb => exact hs

/-- `x` is an execution of the run, still going on or ended. -/
def System.Executed (s : System) (x : Execution) : Prop :=
  (∃ key worker, s.running key worker = some x) ∨ x ∈ s.ended

/-- The executions after a step: the old ones, a new one, or one that went on. -/
theorem Effect.executed {x : Execution} (h : Effect state s l s') (hx : s'.Executed x) :
    s.Executed x ∨
      (∃ key worker, s'.broker.busy key worker = some x.item ∧
        x.rest = execute state.db x.item.task ∧ x.asked = []) ∨
      ∃ y e, s.Executed y ∧ y.item = x.item ∧ y.rest.follow [e] = some x.rest ∧
        x.asked = y.asked ++ [e] := by
  have hset : ∀ {key : String} {worker : ℕ} {v : Option Execution} {k : String} {w : ℕ},
      s.setRunning key worker v k w = some x → v = some x ∨ s.running k w = some x := by
    intro key worker v k w hx
    unfold System.setRunning at hx
    split_ifs at hx with h
    · exact .inl hx
    · exact .inr hx
  cases h with
  | recv key worker broker item hb hitem =>
    rcases hx with ⟨k, w, hx⟩ | hx
    · rcases hset hx with hx | hx
      · obtain rfl := Option.some.inj hx
        exact .inr (.inl ⟨key, worker, hitem, rfl, rfl⟩)
      · exact .inl (.inl ⟨k, w, hx⟩)
    · exact .inl (.inr hx)
  | work key worker e y rest rows hy hrest hrows =>
    rcases hx with ⟨k, w, hx⟩ | hx
    · rcases hset hx with hx | hx
      · obtain rfl := Option.some.inj hx
        exact .inr (.inr ⟨y, e, .inl ⟨key, worker, hy⟩, rfl, hrest, rfl⟩)
      · exact .inl (.inl ⟨k, w, hx⟩)
    · exact .inl (.inr hx)
  | finish key worker y r broker hy hr hb =>
    rcases hx with ⟨k, w, hx⟩ | hx
    · rcases hset hx with hx | hx
      · cases hx
      · exact .inl (.inl ⟨k, w, hx⟩)
    · rcases List.mem_append.mp hx with hx | hx
      · exact .inl (.inr hx)
      · rw [List.mem_singleton.mp hx]
        exact .inl (.inl ⟨key, worker, hy⟩)
  | _ => exact .inl hx

/-- What holds on all paths of `execute` holds of all executions of a run. -/
theorem executions_onPath {ok : CommandTask → Asked → Event Query Query.Answer → Prop}
    {R : CommandTask → Asked → Except Panic (Except String Json) → Prop}
    (hok : ∀ task, Prog.wp (ok task) (execute state.db task) [] (R task))
    (h : Reaches (step state) cond System.init s) : ∀ x, s.Executed x →
      Prog.OnPath (ok x.item.task) (R x.item.task) x.asked x.rest := by
  refine h.invariant (I := fun s => ∀ x, s.Executed x →
    Prog.OnPath (ok x.item.task) (R x.item.task) x.asked x.rest) ?_ ?_
  · rintro x (⟨k, w, hx⟩ | hx) <;> cases hx
  · intro s l s' hs _ hstep x hx
    rcases (step_effect hstep).executed hx with hx | ⟨-, -, -, hrest, hasked⟩ | ⟨y, e, hy, hi, hf, ha⟩
    · exact hs x hx
    · rw [hrest, hasked]
      exact .start (hok x.item.task)
    · rw [ha, ← hi]
      exact (hs y hy).answer hf

end Ppb.Commands
