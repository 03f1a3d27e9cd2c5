import Ppb.Commands.System

/-!
# A failing command and its queue

The text of an error decides over a whole queue: if it cannot be cut at byte 120
the execution panics, its worker dies, and the queue of its key refuses every task
from then on, since the dead worker keeps its entry in the map.

* `finish_returns`, `alive_of_reaches`: if every error text can be cut, no worker dies.
* `progress_gain`: each step of a worker brings its key forward. An execution asks
  at most five questions, so seven steps of its worker are enough for a task.
* `failures_contained`: what this means for the queues, and exactly when an execution
  ends well.
* `queue_disabled`: a text that cannot be cut.
-/

namespace Ppb.Commands

open Trace KeyedQueue Actions Prog

/-! ## Executions are short -/

theorem atMost_pmpAnswer (answer : Except OpenUdsError Json) : (pmpAnswer answer).AtMost 0 := by
  cases answer <;> trivial

theorem atMost_runInternal (db : Bool) (task : CommandTask) : (runInternal db task).AtMost 2 := by
  unfold runInternal
  split_ifs
  · exact (AtMost.bind (atMost_query _) fun _ => atMost_done (n := 0)).mono (by omega)
  · exact (AtMost.bind (atMost_query _) fun _ => atMost_done (n := 0)).mono (by omega)
  · refine AtMost.after (atMost_ofOption _ _) fun _ => ?_
    refine AtMost.after (atMost_failIf _ _) fun _ => ?_
    refine AtMost.bind (m := 1) (n := 1) (atMost_query _) fun _ => ?_
    refine AtMost.after atMost_done fun _ => ?_
    refine AtMost.after (atMost_ofOption _ _) fun _ => ?_
    refine AtMost.bind (m := 1) (n := 0) (atMost_query _) fun _ => ?_
    exact AtMost.after atMost_done fun _ => atMost_done
  · exact atMost_done

theorem atMost_run (db : Bool) (task : CommandTask) : (run db task).AtMost 2 := by
  refine AtMost.after (atMost_ofOption _ _) fun action => ?_
  have hask : ∀ q : Query, (hq : q.Answer = Except OpenUdsError Json) →
      (ask q >>= fun a => pmpAnswer (hq ▸ a) : Runner Json).AtMost 2 := by
    intro q hq
    exact (AtMost.bind (n := 0) (atMost_query q) fun a => atMost_pmpAnswer _).mono (by omega)
  cases action.executor with
  | openUds => exact hask _ rfl
  | cliExecute => exact AtMost.after (atMost_ofOption _ _) fun _ => hask _ rfl
  | cliRaw => exact AtMost.after (atMost_failIf _ _) fun _ => hask _ rfl
  | internal => exact atMost_runInternal db task

theorem atMost_record (db : Bool) (task : CommandTask) (status summary errorCode : String) :
    (record db task status summary errorCode).AtMost 2 := by
  unfold record
  split_ifs
  · refine AtMost.bind (m := 1) (n := 1) (atMost_query _) fun _ => ?_
    cases task.audit with
    | none => exact atMost_done
    | some audit => exact AtMost.bind (m := 1) (n := 0) (atMost_query _) fun _ => atMost_done
  · exact atMost_done

/-- An execution asks at most five questions. -/
theorem atMost_execute (db : Bool) (task : CommandTask) : (execute db task).AtMost 5 := by
  refine AtMost.bind (m := 2) (n := 3) (atMost_run db task).attempt fun result => ?_
  refine AtMost.after (atMost_ofOption _ _) fun out => ?_
  refine AtMost.bind (m := 2) (n := 1) (atMost_record _ _ _ _ _) fun _ => ?_
  split_ifs
  · exact AtMost.bind (m := 1) (n := 0) (atMost_query _) fun _ => atMost_done
  · exact atMost_done

/-! ## Workers stay alive -/

/-- The error text the run of the task ended with, if any, can be cut. -/
def Execution.Cuttable (db : Bool) (x : Execution) : Prop :=
  ∀ es e, es <+: x.asked → (run db x.item.task).Ends es (.error e) → CanTruncate e 120

/-- The step does not end an execution whose error text cannot be cut. -/
def CutsErrors (state : AppState) (s : System) (l : Label) : Prop :=
  ∀ key worker x, l = .finish key worker → s.running key worker = some x → x.Cuttable state.db

variable {state : AppState} {s s' : System} {l : Label} {cond : System → Label → Prop}
  {key : String} {worker : ℕ} {x : Execution}

/-- An execution whose error text can be cut returns. -/
theorem finish_returns {r : Except Panic (Except String Json)}
    (hreach : Reaches (step state) cond System.init s) (hcut : x.Cuttable state.db)
    (hx : s.running key worker = some x) (hr : x.rest.result = some r) :
    ∃ result, r = .ok result := by
  have hpath := executions_onPath (wp_execute_concluded state.db) hreach x (.inl ⟨_, _, hx⟩)
  obtain ⟨es, result, hpre, hends, hcompleted, -⟩ := hpath.ends hr
  have hw : Writable result := by
    rintro e rfl
    exact hcut es e hpre hends
  exact ⟨result, (hcompleted hw).1⟩

theorem asked_length_le (hreach : Reaches (step state) cond System.init s)
    (hx : s.running key worker = some x) : x.asked.length ≤ 5 := by
  have hpath := executions_onPath (fun task => wp_of_atMost (h := []) (atMost_execute state.db task))
    hreach x (.inl ⟨_, _, hx⟩)
  rcases List.eq_nil_or_concat x.asked with hnil | ⟨h, e, hsnoc⟩
  · simp [hnil]
  · have hlt := hpath.past h e (by rw [hsnoc, List.concat_eq_append])
    rw [hsnoc, List.concat_eq_append, List.length_append, List.length_singleton]
    simpa using hlt

theorem alive_of_reaches (hreach : Reaches (step state) (CutsErrors state) System.init s) :
    s.broker.Alive := by
  induction hreach with
  | start => exact nofun
  | @next s s' l hreach hcond hstep ih =>
    cases step_effect hstep with
    | submit i task accepted f rest broker hf hrest hsubmit => exact Alive.submit ih hsubmit
    | recv key worker broker item hb hitem => exact Alive.step ih (by simp) hb
    | finish key worker x r broker hx hr hb =>
      obtain ⟨result, rfl⟩ := finish_returns hreach (hcond key worker x rfl hx) hx hr
      exact Alive.step ih (by simp [endLabel]) hb
    | _ => exact ih

/-! ## Progress of a key -/

/-- How far a worker is with its task. -/
def stage : Option Execution → ℕ
  | some x => x.asked.length + 1
  | none => 0

/-- How far a key is: seven for each executed task, and the current one. -/
def progressOf (broker : BrokerState) (running : String → ℕ → Option Execution) (key : String) : ℕ :=
  7 * (broker.served CommandTask.resourceKey key).length +
    stage ((broker.entry key).bind (running key))

def System.progress (s : System) (key : String) : ℕ := progressOf s.broker s.running key

/-- The step is one of the key's worker. -/
def Label.worksOn (key : String) : Label → Bool
  | .recv k _ | .work k _ _ | .finish k _ => k == key
  | _ => false

theorem entry_of_running (hreach : Reaches (step state) cond System.init s)
    (hx : s.running key worker = some x) : s.broker.entry key = some worker := by
  have hbusy := (coherent_of_reaches hreach).running key worker
  rw [hx] at hbusy
  obtain ⟨W, hW, -⟩ := Option.bind_eq_some_iff.mp hbusy.symm
  exact entry_of_findWorker (lane_of_reachable (broker_reachable hreach) key) hW

theorem stage_le (hreach : Reaches (step state) cond System.init s) (key : String) :
    stage ((s.broker.entry key).bind (s.running key)) ≤ 6 := by
  cases hx : (s.broker.entry key).bind (s.running key) with
  | none => exact Nat.zero_le _
  | some x =>
    obtain ⟨worker, -, hx⟩ := Option.bind_eq_some_iff.mp hx
    have hlen := asked_length_le hreach hx
    simp only [stage]
    omega

theorem setRunning_of_ne {v : Option Execution} {k : String} (hk : k ≠ key) :
    s.setRunning key worker v k = s.running k := by
  funext w
  exact if_neg fun h => hk h.1

theorem setRunning_self {v : Option Execution} : s.setRunning key worker v key worker = v :=
  if_pos ⟨rfl, rfl⟩

/-- A submit executes nothing, and a worker it spawns is idle. -/
theorem progress_submit {broker : BrokerState} {task : CommandTask} {accepted : Bool}
    (hreach : Reaches (step state) cond System.init s)
    (hsubmit : submitStep s.broker s.submits task = some (broker, accepted)) (key : String) :
    progressOf broker s.running key = s.progress key := by
  obtain ⟨-, -, ⟨kind, hkind, hlog⟩, -, -⟩ := submit_spec (by decide) (broker_reachable hreach)
    (coherent_of_reaches hreach).pending hsubmit
  have hbind : (broker.entry key).bind (s.running key) =
      (s.broker.entry key).bind (s.running key) := by
    cases he : s.broker.entry key with
    | some w => rw [entry_submit hsubmit he]
    | none =>
      have hnone : ∀ w, s.running key w = none := by
        intro w
        cases hx : s.running key w with
        | none => rfl
        | some x =>
          rw [entry_of_running hreach hx] at he
          cases he
      cases broker.entry key with
      | none => rfl
      | some w => exact hnone w
  rw [System.progress, progressOf, progressOf, hbind, served_append hlog]
  simp [hkind]

/-- A worker that takes a task had none. -/
theorem progress_recv {broker : BrokerState} {item : Item CommandTask} {k : String}
    (hreach : Reaches (step state) cond System.init s)
    (hb : brokerStep s.broker (.recv k worker) = some broker) (key : String) :
    progressOf broker (s.setRunning k worker (some ⟨item, execute state.db item.task, []⟩)) key =
      s.progress key + if k == key then 1 else 0 := by
  obtain ⟨item', -, hlog, hidle, -⟩ := busy_recv hb
  rw [System.progress, progressOf, progressOf, served_append hlog, entry_of_step hb (by simp)]
  by_cases hk : key = k
  · subst hk
    have hnone : s.running key worker = none := by
      have hlink := (coherent_of_reaches hreach).running key worker
      rwa [hidle, Option.map_eq_none_iff] at hlink
    obtain ⟨W, hW⟩ : ∃ W, s.broker.findWorker key worker = some W := by
      simp only [brokerStep, KeyedQueue.step, KeyedQueue.recvStep] at hb
      split at hb
      · exact ⟨_, by assumption⟩
      · cases hb
    have hentry := entry_of_findWorker (lane_of_reachable (broker_reachable hreach) key) hW
    rw [hentry, Option.bind_some, Option.bind_some, setRunning_self, hnone]
    simp [stage]
  · rw [setRunning_of_ne hk]
    simp [Ne.symm hk]

theorem progress_work {e : Event Query Query.Answer} {k : String}
    {rest : Prog Query Query.Answer Panic (Except String Json)}
    (hreach : Reaches (step state) cond System.init s) (hx : s.running k worker = some x)
    (key : String) :
    progressOf s.broker (s.setRunning k worker
        (some { x with rest := rest, asked := x.asked ++ [e] })) key =
      s.progress key + if k == key then 1 else 0 := by
  rw [System.progress, progressOf, progressOf]
  by_cases hk : key = k
  · subst hk
    rw [entry_of_running hreach hx, Option.bind_some, Option.bind_some, setRunning_self, hx]
    simp only [stage, List.length_append, List.length_singleton, beq_self_eq_true, if_true]
    omega
  · rw [setRunning_of_ne hk]
    simp [Ne.symm hk]

/-- The end of an execution is worth more than the execution. -/
theorem progress_finish {broker : BrokerState} {k : String}
    (hreach : Reaches (step state) cond System.init s)
    (hb : brokerStep s.broker (.finish k worker) = some broker) (key : String) :
    s.progress key + (if k == key then 1 else 0) ≤
      progressOf broker (s.setRunning k worker none) key := by
  obtain ⟨item, -, hlog, hbusy, -⟩ := busy_finish hb
  have hkey : item.task.resourceKey = k :=
    key_of_busy (lanes_of_reachable (broker_reachable hreach)).1 hbusy
  rw [System.progress, progressOf, progressOf, served_append hlog]
  by_cases hk : key = k
  · subst hk
    have hstage := stage_le hreach key
    simp only [hkey, and_self, if_true, List.length_append, List.length_singleton, beq_self_eq_true]
    omega
  · rw [entry_of_step hb (by simp), setRunning_of_ne hk]
    simp [Ne.symm hk, hkey]

/-- Each step of a worker brings its key forward, and no step takes it back. -/
theorem progress_gain (hreach : Reaches (step state) (CutsErrors state) System.init s)
    (hcond : CutsErrors state s l) (hstep : step state s l = some s') (key : String) :
    s.progress key + (if l.worksOn key then 1 else 0) ≤ s'.progress key := by
  cases step_effect hstep with
  | arrive request auth headers => exact le_rfl
  | answer i e f rest rows hf hrest hrows hne => exact le_rfl
  | submit i task accepted f rest broker hf hrest hsubmit =>
    exact (progress_submit hreach hsubmit key).ge
  | recv k worker broker item hb hitem => exact (progress_recv hreach hb key).ge
  | work k worker e x rest rows hx hrest hrows => exact (progress_work hreach hx key).ge
  | finish k worker x r broker hx hr hb =>
    obtain ⟨result, rfl⟩ := finish_returns hreach (hcond k worker x rfl hx) hx hr
    exact progress_finish hreach hb key

/-! ## Accepted tasks are executed -/

theorem log_prefix_of_reachable {a b : BrokerState} (h : Reachable brokerStep a b) :
    a.log <+: b.log := by
  induction h with
  | start => exact List.prefix_rfl
  | next _ _ hstep ih => exact ih.trans <| log_prefix hstep

theorem log_prefix_of_follows {ls : List Label} (h : Follows (step state) cond s ls s') :
    s.broker.log <+: s'.broker.log := by
  induction h with
  | nil => exact List.prefix_rfl
  | cons _ hstep _ ih => exact (log_prefix_of_reachable (step_effect hstep).broker).trans ih

theorem mem_items {log : List (KeyedQueue.Event CommandTask)} {kind : EventKind}
    {item : Item CommandTask} : item ∈ items kind log ↔ ⟨kind, item⟩ ∈ log := by
  constructor
  · intro h
    obtain ⟨e, he, rfl⟩ := List.mem_map.mp h
    obtain ⟨hmem, hk⟩ := List.mem_filter.mp he
    obtain rfl := of_decide_eq_true hk
    exact hmem
  · intro h
    exact List.mem_map.mpr ⟨_, List.mem_filter.mpr ⟨h, by simp⟩, rfl⟩

theorem mem_items_view {broker : BrokerState} {kind : EventKind} {item : Item CommandTask} :
    item ∈ items kind (brokerView item.task.resourceKey broker).log ↔
      ⟨kind, item⟩ ∈ broker.log := by
  rw [mem_items]
  simp [KeyedQueue.view]

theorem accepted_of_reaches (hreach : Reaches (step state) (CutsErrors state) System.init s)
    (key : String) : items .accepted (brokerView key s.broker).log =
      s.broker.served CommandTask.resourceKey key ++ (brokerView key s.broker).held :=
  accepted_eq (lane_of_reachable (broker_reachable hreach) key) (alive_of_reaches hreach)

/-- After seven steps of its worker for each task that was before it, an accepted
    task has been executed. -/
theorem finished_of_follows {item : Item CommandTask} {ls : List Label}
    (hreach : Reaches (step state) (CutsErrors state) System.init s)
    (hacc : ⟨.accepted, item⟩ ∈ s.broker.log)
    (hrun : Follows (step state) (CutsErrors state) s ls s')
    (hsteps : 7 * (brokerView item.task.resourceKey s.broker).held.length ≤
      ls.countP (Label.worksOn item.task.resourceKey)) : ⟨.finished, item⟩ ∈ s'.broker.log := by
  have hreach' := hrun.reaches hreach
  have hgain := hrun.gain hreach (g := fun s => s.progress item.task.resourceKey)
    fun s l s' h hc hs => progress_gain h hc hs item.task.resourceKey
  have hstage := stage_le hreach' item.task.resourceKey
  have heq := accepted_of_reaches hreach item.task.resourceKey
  have heq' := accepted_of_reaches hreach' item.task.resourceKey
  have hlen : (items .accepted (brokerView item.task.resourceKey s.broker).log).length ≤
      (s'.broker.served CommandTask.resourceKey item.task.resourceKey).length := by
    have hsum := congrArg List.length heq
    rw [List.length_append] at hsum
    simp only [System.progress, progressOf] at hgain
    omega
  -- both the tasks accepted so far and the executed ones are a prefix of what is accepted later
  have hpre : items .accepted (brokerView item.task.resourceKey s.broker).log <+:
      items .accepted (brokerView item.task.resourceKey s'.broker).log :=
    (((log_prefix_of_follows hrun).filter _).filter _).map _
  have hpre' : s'.broker.served CommandTask.resourceKey item.task.resourceKey <+:
      items .accepted (brokerView item.task.resourceKey s'.broker).log := ⟨_, heq'.symm⟩
  have hsub := List.prefix_of_prefix_length_le hpre hpre' hlen
  exact mem_items_view.mp (hsub.subset (mem_items_view.mpr hacc))

/-- Every question of an execution has an answer that leaves the table alone. -/
theorem exists_answer (db : Bool) (rows : CommandRuns) (q : Query) :
    ∃ a : q.Answer, writeRow db rows ⟨q, a⟩ = some rows := by
  cases q with
  | insertQueued id action actor resourceKey argsRedacted => exact ⟨.error .other, rfl⟩
  | insertConsoleRun id actor command scope => exact ⟨.error .other, rfl⟩
  | markFinished id status summary errorCode => exact ⟨.error .other, rfl⟩
  | _ => exact ⟨emptyWorld _, rfl⟩

/-- The worker of a task that is not executed yet can take a step. -/
theorem exists_worker_step {item : Item CommandTask}
    (hreach : Reaches (step state) (CutsErrors state) System.init s)
    (hacc : ⟨.accepted, item⟩ ∈ s.broker.log) (hnot : ⟨.finished, item⟩ ∉ s.broker.log) :
    ∃ l : Label, l.worksOn item.task.resourceKey = true ∧ (step state s l).isSome = true := by
  have hheld : item ∈ (brokerView item.task.resourceKey s.broker).held := by
    have hmem := mem_items_view.mpr hacc
    rw [accepted_of_reaches hreach, List.mem_append] at hmem
    exact hmem.resolve_left fun h => hnot (mem_items_view.mp h)
  obtain ⟨W, hW, hin⟩ := mem_held.mp hheld
  obtain ⟨hmem, hkey⟩ := List.mem_filter.mp hW
  generalize item.task.resourceKey = key at *
  have hfind : s.broker.findWorker key W.name = some W := by
    have hone : (brokerView key s.broker).workers = [W] := by
      cases lane_of_reachable (broker_reachable hreach) key with
      | closed _ hw => rw [hw] at hW; cases hW
      | opened V _ hw =>
        rw [hw, List.mem_singleton] at hW
        rw [hw, hW]
    have hview : (brokerView key s.broker).findWorker key W.name = some W := by
      simpa [State.findWorker, hone] using hkey
    rwa [findWorker_view] at hview
  have hdead := alive_of_reaches hreach W hmem
  cases hph : W.phase with
  | dead => exact absurd hph hdead
  | idle =>
    have hq : W.queue ≠ [] := by
      rintro hnil
      simp [hph, hnil, Phase.item] at hin
    obtain ⟨broker, hb⟩ := exists_recv hfind hph hq
    obtain ⟨i, -, -, -, hbusy⟩ := busy_recv hb
    have hb' : brokerStep s.broker (.recv key W.name) = some broker := hb
    refine ⟨.recv key W.name, by simp [Label.worksOn], ?_⟩
    simp [step, recvStep, hb', hbusy]
  | busy i =>
    have hbusy : s.broker.busy key W.name = some i := by
      simp [State.busy, hfind, hph, Phase.item]
    obtain ⟨x, hx, -⟩ : ∃ x, s.running key W.name = some x ∧ x.item = i := by
      have hlink := (coherent_of_reaches hreach).running key W.name
      rw [hbusy] at hlink
      exact Option.map_eq_some_iff.mp hlink
    cases hrest : x.rest with
    | done r =>
      have hend : ∃ broker, brokerStep s.broker (endLabel key W.name r) = some broker := by
        cases r with
        | ok v => exact (exists_finish hbusy).1
        | error e => exact (exists_finish hbusy).2
      obtain ⟨broker, hb⟩ := hend
      refine ⟨.finish key W.name, by simp [Label.worksOn], ?_⟩
      simp [step, finishStep, hx, hrest, Prog.result, hb]
    | ask q next =>
      obtain ⟨a, ha⟩ := exists_answer state.db s.rows q
      refine ⟨.work key W.name ⟨q, a⟩, by simp [Label.worksOn], ?_⟩
      simp [step, workStep, hx, hrest, Prog.follow, ha]

/-! ## A text that cannot be cut -/

/-- The end of an execution whose error text cannot be cut kills its worker. -/
theorem dead_of_not_cuttable (hreach : Reaches (step state) cond System.init s)
    (hx : s.running key worker = some x) (hcut : ¬ x.Cuttable state.db)
    (hstep : step state s (.finish key worker) = some s') : s'.broker.Dead key := by
  obtain ⟨es, e, hpre, hends, hbad⟩ : ∃ es e, es <+: x.asked ∧
      (run state.db x.item.task).Ends es (.error e) ∧ ¬ CanTruncate e 120 := by
    unfold Execution.Cuttable at hcut
    push Not at hcut
    exact hcut
  cases step_effect hstep with
  | finish _ _ y r broker hy hr hb =>
    obtain rfl : x = y := Option.some.inj (hx.symm.trans hy)
    have hpath := executions_onPath (wp_execute_concluded state.db) hreach x (.inl ⟨_, _, hx⟩)
    obtain ⟨es', result, hpre', hends', -, hpanic⟩ := hpath.ends hr
    obtain rfl : result = .error e := hends.unique_of_prefix hends' hpre hpre'
    obtain rfl : r = .error .slice := hpanic fun hw => hbad (hw e rfl)
    exact dead_crash hb

theorem dead_of_follows {ls : List Label} (hreach : Reaches (step state) cond System.init s)
    (hd : s.broker.Dead key) (h : Follows (step state) cond s ls s') : s'.broker.Dead key := by
  induction h with
  | nil => exact hd
  | @cons s s₁ _ _ _ hcond hstep _ ih =>
    have hdead : ∀ b, Reachable brokerStep s.broker b → b.Dead key := by
      intro b hb
      have hbroker := broker_reachable hreach
      induction hb with
      | start => exact hd
      | next hb' _ hs ih' => exact Dead.step ih' (lane_of_reachable (hbroker.trans hb') key) hs
    exact ih (hreach.next hcond hstep) (hdead _ (step_effect hstep).broker)

theorem refused_of_dead {broker : BrokerState} {task : CommandTask} {accepted : Bool}
    (hreach : Reaches (step state) cond System.init s) (hd : s.broker.Dead task.resourceKey)
    (hsubmit : submitStep s.broker s.submits task = some (broker, accepted)) :
    accepted = false := by
  obtain ⟨-, hiff, -⟩ := submit_spec (by decide) (broker_reachable hreach)
    (coherent_of_reaches hreach).pending hsubmit
  rw [← Bool.not_eq_true, hiff]
  exact not_accepts_of_dead hd

/-! ## The queues -/

/-- Every queue is in service: a submit is accepted while fewer than 64 tasks of its
    key are waiting, and an accepted task is executed, within seven steps of its worker
    for each task the key held; the worker is never stuck before. -/
structure QueuesServe (state : AppState) (s : System) : Prop where
  submit : ∀ task : CommandTask,
    s.broker.waiting CommandTask.resourceKey task.resourceKey < channelCapacity →
      ∃ broker, submitStep s.broker s.submits task = some (broker, true)
  served : ∀ item ls s', ⟨.accepted, item⟩ ∈ s.broker.log →
    Follows (step state) (CutsErrors state) s ls s' →
    7 * (brokerView item.task.resourceKey s.broker).held.length ≤
      ls.countP (Label.worksOn item.task.resourceKey) → ⟨.finished, item⟩ ∈ s'.broker.log
  enabled : ∀ item, ⟨.accepted, item⟩ ∈ s.broker.log → ⟨.finished, item⟩ ∉ s.broker.log →
    ∃ l : Label, l.worksOn item.task.resourceKey = true ∧ (step state s l).isSome = true

theorem queuesServe_of_reaches (hreach : Reaches (step state) (CutsErrors state) System.init s) :
    QueuesServe state s where
  submit task hlt := by
    have hbroker := broker_reachable hreach
    have hcoherent := coherent_of_reaches hreach
    obtain ⟨broker, accepted, hsubmit⟩ :
        ∃ broker accepted, submitStep s.broker s.submits task = some (broker, accepted) :=
      exists_submit hbroker hcoherent.pending fun e he => (hcoherent.logged e he).ne
    obtain ⟨-, hiff, -⟩ := submit_spec (by decide) hbroker hcoherent.pending hsubmit
    obtain rfl := hiff.mpr (accepts_of_alive (alive_of_reaches hreach) hlt)
    exact ⟨broker, hsubmit⟩
  served _ _ _ hacc hrun hsteps := finished_of_follows hreach hacc hrun hsteps
  enabled _ hacc hnot := exists_worker_step hreach hacc hnot

/-- **Failures are contained as long as their texts can be cut.** `truncate` returns
    exactly if the text is short enough or byte `max` is between two characters; an
    execution returns, marks its command finished and fires its completion channel
    exactly if `truncate` returns for the error of its run; if it always does, every
    queue stays in service; and if it once does not, the queue refuses every task from
    then on. -/
theorem failures_contained (state : AppState) :
    (∀ text max, (truncate text max).isSome = true ↔ CanTruncate text max) ∧
    (∀ task es result, (run state.db task).Ends es result →
      ((∀ es' r, (execute state.db task).Ends (es ++ es') r →
        Completed state.db task result (es ++ es') r) ↔ Writable result)) ∧
    (∀ s, Reaches (step state) (CutsErrors state) System.init s → QueuesServe state s) ∧
    ∀ s key worker x s₁, Reachable (step state) System.init s → s.running key worker = some x →
      ¬ x.Cuttable state.db → step state s (.finish key worker) = some s₁ →
      ∀ ls s', Follows (step state) (fun _ _ => True) s₁ ls s' →
      ∀ (task : CommandTask) broker accepted, task.resourceKey = key →
        submitStep s'.broker s'.submits task = some (broker, accepted) → accepted = false := by
  refine ⟨truncate_isSome, fun task es result hends => execute_completes_iff hends,
    fun s hreach => queuesServe_of_reaches hreach, ?_⟩
  rintro s key worker x s₁ hreach hx hcut hstep ls s' hrun task broker accepted rfl hsubmit
  have hreach₁ := hreach.next trivial hstep
  have hdead := dead_of_follows hreach₁ (dead_of_not_cuttable hreach hx hcut hstep) hrun
  exact refused_of_dead (hrun.reaches hreach₁) hdead hsubmit

/-- Root, as the caller of the next runs. -/
def rootCaller : AuthPrincipal :=
  { sub := Uuid.nil, sid := 1, principalType := .root, clientType := .panel, requestId := "" }

/-- The task of a request of Root to close the creation of rooms. -/
def gateTask (commandId : Uuid) : CommandTask :=
  { commandId := commandId, action := "server.roomcreation", actor := Uuid.toText Uuid.nil,
    resourceKey := "server", args := .obj [("enabled", .bool false)],
    argsRedacted := .obj [("enabled", .bool false)], completion := true,
    audit := some { principalType := "root", actorUserId := none, actorSessionId := 1,
                    action := "server.roomcreation", resourceType := "action",
                    resourceId := "server", requestId := "", ip := "", userAgent := "" } }

/-- The request, up to its submit. -/
def gateRequest (i : ℕ) (commandId : Uuid) (accepted : Bool) : List Label :=
  [.arrive (.entry (.executeAction "server.roomcreation" (.obj [("enabled", .bool false)])))
      rootCaller [],
    .answer i ⟨.newUuid, commandId⟩,
    .answer i ⟨.insertQueued commandId "server.roomcreation" (Uuid.toText Uuid.nil) "server"
      (.obj [("enabled", .bool false)]), .ok ()⟩,
    .answer i ⟨.submit (gateTask commandId), accepted⟩]

/-- A worker takes the task and PMP answers. -/
def gateAnswer (answer : Except OpenUdsError Json) : List Label :=
  [.recv "server" 0,
    .work "server" 0 ⟨.openuds "server.roomcreation" (.obj [("enabled", .bool false)]) none, answer⟩]

/-- PMP refuses, with a short text. -/
def gateRefused : OpenUdsError := .command "server.roomcreation" "busy" "try later"

/-- The first command fails, and a second is submitted. -/
def failedRun : List Label :=
  gateRequest 0 1 true ++ gateAnswer (.error gateRefused) ++
    [.work "server" 0 ⟨.markFinished 1 "failed" "" gateRefused.toText, .ok ()⟩,
      .work "server" 0 ⟨.recordCompletedCommand
        ⟨"root", none, 1, "server.roomcreation", "action", "server", "", "", ""⟩
        (.obj [("enabled", .bool false)]) "failed" gateRefused.toText (Uuid.toText 1), .ok ()⟩,
      .work "server" 0 ⟨.complete 1 (.error gateRefused.toText), ()⟩,
      .finish "server" 0] ++ gateRequest 1 2 true

/-- The execution is one of `gateTask`, and PMP's answer was `gateRefused`. -/
def wasRefused (x : Execution) : Bool :=
  decide (x.item.task = gateTask 1) &&
    match x.asked with
    | ⟨.openuds command params timeout, .error e⟩ :: _ =>
      decide ((⟨command, params, timeout, e⟩ : String × Json × Option ℕ × OpenUdsError) =
        ⟨"server.roomcreation", .obj [("enabled", .bool false)], none, gateRefused⟩)
    | _ => false

/-- Only such executions end. -/
def endsRefused (s : System) (l : Label) : Bool :=
  match l with
  | .finish key worker => (s.running key worker).all wasRefused
  | _ => true

theorem cuttable_of_wasRefused (h : wasRefused x = true) : x.Cuttable true := by
  simp only [wasRefused, Bool.and_eq_true, decide_eq_true_eq] at h
  obtain ⟨htask, h⟩ := h
  split at h
  · next command params timeout e rest hasked =>
    obtain ⟨rfl, rfl, rfl, rfl⟩ : command = _ ∧ params = _ ∧ timeout = _ ∧ e = _ := by
      simpa only [decide_eq_true_eq, Prod.mk.injEq] using h
    intro es e hpre hends
    rw [htask] at hends
    have hrun : (run true (gateTask 1)).Ends [⟨.openuds "server.roomcreation"
        (.obj [("enabled", .bool false)]) none, .error gateRefused⟩] (.error gateRefused.toText) := by
      rfl
    have herr := hrun.unique_of_prefix hends (hasked ▸ List.prefix_append [_] rest) hpre
    rw [Except.error.inj herr]
    decide
  · cases h

theorem cutsErrors_of_endsRefused (s : System) (l : Label) (h : endsRefused s l = true) :
    CutsErrors ⟨true, 10⟩ s l := by
  rintro key worker x rfl hx
  simp only [endsRefused, hx, Option.all_some] at h
  exact cuttable_of_wasRefused h

/-- A command failed; the next one is accepted and served. -/
theorem failures_contained_refused :
    ∃ s, Reaches (step ⟨true, 10⟩) (CutsErrors ⟨true, 10⟩) System.init s ∧
      s.broker.log.getLast? = some ⟨.accepted, ⟨1, gateTask 2⟩⟩ ∧ QueuesServe ⟨true, 10⟩ s := by
  have hrun : (runWhile (step ⟨true, 10⟩) endsRefused System.init failedRun).any (fun s =>
      decide (s.broker.log.getLast? = some ⟨.accepted, ⟨1, gateTask 2⟩⟩)) = true := by
    decide +kernel
  obtain ⟨s, hreach, hlast⟩ := exists_reaches_of_runWhile cutsErrors_of_endsRefused hrun
  exact ⟨s, hreach, of_decide_eq_true hlast,
    (failures_contained ⟨true, 10⟩).2.2.1 s hreach⟩

/-- A message of PMP with a character across byte 120 of the error text. -/
def longMessage : OpenUdsError :=
  .command "server.roomcreation" "busy"
    "服务器正在维护，暂时无法修改房间创建开关，请稍后重试或联系管理员处理"

/-- The first command fails with this text, and a second is submitted. -/
def disabledRun : List Label :=
  gateRequest 0 1 true ++ gateAnswer (.error longMessage) ++ [.finish "server" 0] ++
    gateRequest 1 2 false

/-- Nothing waits for `server`, and its queue refuses a task. -/
theorem queue_disabled :
    truncate longMessage.toText 120 = none ∧
      ∃ s, Reachable (step ⟨true, 10⟩) System.init s ∧
        s.broker.waiting CommandTask.resourceKey "server" = 0 ∧
        s.broker.log.getLast? = some ⟨.rejected, ⟨1, gateTask 2⟩⟩ ∧ ¬ QueuesServe ⟨true, 10⟩ s := by
  have hrun : (runFrom (step ⟨true, 10⟩) System.init disabledRun).any (fun s =>
      decide (s.broker.waiting CommandTask.resourceKey "server" = 0) &&
      decide (s.broker.log.getLast? = some ⟨.rejected, ⟨1, gateTask 2⟩⟩) &&
      decide ((submitStep s.broker s.submits (gateTask 3)).map (·.2) = some false)) = true := by
    decide +kernel
  obtain ⟨s, hreach, h⟩ := exists_reachable_of_runFrom hrun
  simp only [Bool.and_eq_true, decide_eq_true_eq] at h
  obtain ⟨⟨hwaiting, hlast⟩, hno⟩ := h
  refine ⟨by decide +kernel, s, hreach, hwaiting, hlast, fun hserve => ?_⟩
  obtain ⟨broker, hyes⟩ := hserve.submit (gateTask 3) (by
    rw [show (gateTask 3).resourceKey = "server" from rfl, hwaiting]
    decide)
  rw [hyes] at hno
  cases hno

end Ppb.Commands
