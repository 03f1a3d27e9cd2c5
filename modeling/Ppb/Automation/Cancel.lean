import Ppb.Actions.Questions
import Ppb.Automation.RunStatus
import Ppb.Common.Histories

/-!
# Cancelling a run

`cancel_run` sets the status of a row, and the handler that executes the run never reads it: a
handler that is still at work submits its next steps and then writes its own final status over
`cancelled`.

* `run_finishes`: what the handler writes, and into which row.
* `CancelAfterEnd`: a `cancel_run` that changes a row finds the handler of that run ended.
* `cancelled_stays`: then a cancelled run submits nothing more and stays cancelled.
-/

namespace Ppb.Automation

open Prog Auth Commands Actions Shared Trace

/-- A request. -/
inductive AutomationOp where
  | run (auth : AuthPrincipal) (headers : Headers) (id : Uuid) (body : Option (Except Unit Json))
  | cancel (auth : AuthPrincipal) (id : Uuid)

def AutomationOp.program (state : AppState) : AutomationOp → Handler Unit
  | .run auth headers id body => do
    let _ ← call (Automation.run state auth headers id body)
  | .cancel auth id => do
    let _ ← cancelRun state auth id

/-- Any number of requests in progress. -/
abbrev Automations := Logged RunQuery RunQuery.Answer RunRows AutomationOp

abbrev AutomationLabel := Label RunQuery RunQuery.Answer AutomationOp

abbrev Past := History RunQuery RunQuery.Answer

def serverEvent : Event RunQuery RunQuery.Answer → Option (Event Query Query.Answer)
  | ⟨.server q, a⟩ => some ⟨q, a⟩
  | ⟨.cancel _, _⟩ => none

/-- The runs that a request has inserted. -/
def runIds (past : Past) : List Uuid := insertedIds (past.filterMap serverEvent)

/-- The actions of the run that the broker has accepted. -/
def submittedOf (runId : Uuid) (p : Automations) : List String :=
  p.threads.flatMap fun t =>
    if runId ∈ runIds t.2 then submitted (t.2.filterMap serverEvent) else []

/-- A `cancel_run` that changes a row finds the handler of that run ended. -/
def CancelAfterEnd (state : AppState) (p : Automations) : AutomationLabel → Prop
  | .answer _ ⟨.cancel id, .ok ()⟩ => p.store.rows.any (cancellable id) = true →
    ∀ t ∈ p.threads, id ∈ runIds t.2 → ∃ r, (t.1.program state).Ends t.2 r
  | _ => True

variable {state : AppState} {auth : AuthPrincipal} {headers : Headers} {h : Asked} {past : Past}
  {e : Event RunQuery RunQuery.Answer} {s s' : RunRows} {id : Uuid} {p p' : Automations}

/-! ## The handler -/

theorem allowsChecks_isStep : AllowsChecks IsStep :=
  ⟨fun _ => trivial, fun _ => trivial, fun _ => trivial, fun _ => trivial, trivial, trivial,
    fun _ _ => trivial, fun _ => trivial⟩

theorem allowsCommand_isStep (args : Json) : AllowsCommand IsStep args :=
  ⟨fun _ _ _ _ => trivial, fun _ _ _ => trivial⟩

/-- A final status goes into a row that the handler has inserted, and is not `cancelled`. -/
def Finishes (h : Asked) (e : Event Query Query.Answer) : Prop :=
  ∀ id status, e.1 = .finishRunbookRun id status → id ∈ insertedIds h ∧ status ≠ "cancelled"

theorem finishes_of_step {e : Event Query Query.Answer} (he : IsStep e.1) : Finishes h e := by
  intro id status heq
  rw [heq] at he
  exact he.elim

theorem wp_step {α : Type} {q : Server α} (hq : q.Only IsStep) :
    wp Finishes q h fun h' _ => Extends IsStep h h' :=
  hq.wp_extends fun _ _ _ he => finishes_of_step he

/-- What the handler writes. -/
theorem run_finishes (state : AppState) (auth : AuthPrincipal) (headers : Headers) (id : Uuid)
    (body : Option (Except Unit Json)) :
    wp Finishes (run state auth headers id body) [] fun _ _ => True := by
  refine wp_bind (wp_step (only_require allowsChecks_isStep)) ?_ fun _ _ _ => trivial
  intro h₁ _ _
  refine wp_failIf_bind (fun _ => trivial) fun _ => ?_
  refine wp_ask (fun _ => nofun) fun found => ?_
  refine wp_orFail_bind (fun _ _ => trivial) fun row _ => ?_
  refine wp_ofOption_bind (fun _ => trivial) fun runbook _ => ?_
  refine wp_orFail_bind (fun _ _ => trivial) fun definition _ => ?_
  refine wp_orFail_bind (fun _ _ => trivial) fun _ _ => ?_
  show wp _ (ofExcept (runArgsOf body) >>= _) _ _
  cases runArgsOf body with
  | error err => trivial
  | ok runArgs =>
    refine wp_ask (fun _ => nofun) fun inserted => ?_
    refine wp_orFail_bind (fun _ _ => trivial) fun runId hinserted => ?_
    refine wp_bind (wp_step (only_runSteps allowsChecks_isStep fun step _ => allowsCommand_isStep _)) ?_ fun _ _ _ => trivial
    rintro h₂ ⟨ok, results⟩ hx
    refine wp_ask (fun a => ?_) fun finished => wp_orFail_bind (fun _ _ => trivial) fun _ _ => trivial
    rintro _ _ ⟨⟩
    refine ⟨?_, by cases ok <;> decide⟩
    rw [insertedIds_extends hx, hinserted, insertedIds, List.filterMap_append]
    exact List.mem_append_right _ (List.mem_singleton_self _)

theorem wp_callFinishes {α : Type} {q : Server α} {R : Asked → Except ApiError α → Prop}
    (hq : wp Finishes q (past.filterMap serverEvent) R) :
    wp (fun past e => ∀ e₀, serverEvent e = some e₀ → Finishes (past.filterMap serverEvent) e₀)
      (call q) past fun past' r => R (past'.filterMap serverEvent) r :=
  wp_lift serverEvent (fun _ _ => rfl) hq

/-- The same for a request. -/
theorem program_finishes (op : AutomationOp) :
    wp (fun past e => ∀ e₀, serverEvent e = some e₀ → Finishes (past.filterMap serverEvent) e₀)
      (op.program state) [] fun _ _ => True := by
  cases op with
  | run auth headers id body =>
    refine wp_bind (wp_callFinishes (run_finishes state auth headers id body)) ?_ ?_
    · exact fun _ _ _ => trivial
    · exact fun _ _ _ => trivial
  | cancel auth id =>
    refine wp_bind (R := fun _ _ => True) ?_ (fun _ _ _ => trivial) fun _ _ _ => trivial
    refine wp_bind (wp_callFinishes (wp_step (only_require allowsChecks_isStep))) ?_ fun _ _ _ => trivial
    intro past _ _
    refine wp_bind (wp_callFinishes (wp_step only_failIf)) ?_ fun _ _ _ => trivial
    intro past' _ _
    refine wp_ask (fun _ e₀ he₀ => ?_) fun cancelled => ?_
    · cases he₀
    · cases cancelled <;> trivial

/-! ## The rows -/

theorem mem_runIds_snoc :
    id ∈ runIds (past ++ [e]) ↔ id ∈ runIds past ∨ (serverEvent e).bind insertedId = some id := by
  rw [runIds, List.filterMap_append, insertedIds, List.filterMap_append, List.mem_append]
  refine or_congr_right ?_
  cases hserver : serverEvent e with
  | none => simp [hserver]
  | some e₀ => simp [hserver]

/-- What an event does to the rows. -/
theorem exec_cases (hexec : exec s e = some s') :
    s' = s ∨
    (∃ id, s.insert ⟨id, "running"⟩ = some s') ∨
    (∃ id status, e.1 = .server (.finishRunbookRun id status) ∧
      s.update (·.id == id) (fun row => { row with status := status }) = some s') ∨
    ∃ id, e = ⟨.cancel id, .ok ()⟩ ∧
      s.update (cancellable id) (fun row => { row with status := "cancelled" }) = some s' := by
  obtain ⟨q, a⟩ := e
  cases q with
  | cancel id =>
    rcases orUnchanged_cases hexec with hsame | ⟨u, rfl, hupdate⟩
    · exact .inl hsame
    · exact .inr (.inr (.inr ⟨id, rfl, hupdate⟩))
  | server q =>
    cases q with
    | insertRunbookRun _ _ _ _ =>
      rcases orUnchanged_cases hexec with hsame | ⟨id, rfl, hinsert⟩
      · exact .inl hsame
      · exact .inr (.inl ⟨id, hinsert⟩)
    | finishRunbookRun id status =>
      rcases orUnchanged_cases hexec with hsame | ⟨u, rfl, hupdate⟩
      · exact .inl hsame
      · exact .inr (.inr (.inl ⟨id, status, rfl, hupdate⟩))
    | _ => exact .inl (Option.some.inj hexec).symm

/-- A run that is inserted has not been there. -/
theorem not_mem_of_inserted (hexec : exec s e = some s')
    (hinserted : (serverEvent e).bind insertedId = some id) (status : String) : ⟨id, status⟩ ∉ s := by
  obtain ⟨q, a⟩ := e
  cases q with
  | cancel id => cases hinserted
  | server q =>
    cases q with
    | insertRunbookRun _ _ _ _ =>
      cases a with
      | error err => cases hinserted
      | ok id' =>
        obtain rfl : id' = id := Option.some.inj hinserted
        exact fun hmem => Table.compat_of_insert hexec hmem rfl
    | _ => cases hinserted

/-- A row that is cancelled afterwards was so before, or was cancelled now. -/
theorem cancelled_of_exec (hexec : exec s e = some s') (hmem : ⟨id, "cancelled"⟩ ∈ s')
    (hother : ∀ id, e.1 ≠ .server (.finishRunbookRun id "cancelled")) :
    ⟨id, "cancelled"⟩ ∈ s ∨ e = ⟨.cancel id, .ok ()⟩ ∧ s.rows.any (cancellable id) = true := by
  rcases exec_cases hexec with rfl | ⟨id', hinsert⟩ | ⟨id', status, he, hupdate⟩ | ⟨id', rfl, hupdate⟩
  · exact .inl hmem
  · rcases (Table.mem_insert hinsert).mp hmem with hmem | heq
    · exact .inl hmem
    · exact absurd (RunRow.mk.inj heq).2 (by decide)
  · obtain ⟨row, hrow, heq⟩ := (Table.mem_update hupdate).mp hmem
    split_ifs at heq with hid
    · obtain ⟨-, rfl⟩ := RunRow.mk.inj heq
      exact absurd he (hother id')
    · exact .inl (heq ▸ hrow)
  · obtain ⟨row, hrow, heq⟩ := (Table.mem_update hupdate).mp hmem
    split_ifs at heq with hid
    · obtain ⟨rfl, -⟩ := RunRow.mk.inj heq
      have hid' : row.id = id' := by
        rw [cancellable, Bool.and_eq_true, beq_iff_eq] at hid
        exact hid.1
      rw [hid']
      exact .inr ⟨rfl, List.any_eq_true.mpr ⟨row, hrow, hid⟩⟩
    · exact .inl (heq ▸ hrow)

/-- Only a final status ends a cancellation. -/
theorem exec_cancelled (hexec : exec s e = some s') (hmem : ⟨id, "cancelled"⟩ ∈ s)
    (hother : ∀ status, e.1 ≠ .server (.finishRunbookRun id status)) : ⟨id, "cancelled"⟩ ∈ s' := by
  rcases exec_cases hexec with rfl | ⟨id', hinsert⟩ | ⟨id', status, he, hupdate⟩ | ⟨id', rfl, hupdate⟩
  · exact hmem
  · exact (Table.mem_insert hinsert).mpr (.inl hmem)
  · refine (Table.mem_update hupdate).mpr ⟨_, hmem, ?_⟩
    rw [if_neg]
    intro hid
    rw [← beq_iff_eq.mp hid] at he
    exact hother status he
  · refine (Table.mem_update hupdate).mpr ⟨_, hmem, ?_⟩
    split_ifs <;> rfl

/-! ## Runs of the server -/

/-- The handlers of cancelled runs have ended. -/
def Settled (state : AppState) (p : Automations) : Prop :=
  ∀ t ∈ p.threads, ∀ id ∈ runIds t.2, ⟨id, "cancelled"⟩ ∈ p.store → ∃ r, (t.1.program state).Ends t.2 r

/-- In a settled state no request that is still in progress has to do with a cancelled run. -/
theorem Settled.apart (hp : Settled state p) {i : ℕ} {op : AutomationOp}
    {rest : Handler Unit} (hi : p.threads[i]? = some (op, past))
    (hrest : (op.program state).follow (past ++ [e]) = some rest) (hexec : exec p.store e = some s')
    (hcancelled : ⟨id, "cancelled"⟩ ∈ p.store) : id ∉ runIds past ∧ id ∉ runIds (past ++ [e]) := by
  have hpast : id ∉ runIds past := by
    intro hid
    obtain ⟨r, hends⟩ := hp (op, past) (List.mem_of_getElem? hi) id hid hcancelled
    rw [hends.follow_snoc] at hrest
    cases hrest
  refine ⟨hpast, fun hid => ?_⟩
  rcases mem_runIds_snoc.mp hid with hid | hinserted
  · exact hpast hid
  · exact not_mem_of_inserted hexec hinserted "cancelled" hcancelled

/-- What the request that takes a step may finish. -/
theorem finishes_of_follow {op : AutomationOp} {rest : Handler Unit} {status : String}
    (hrest : (op.program state).follow (past ++ [e]) = some rest)
    (he : e.1 = .server (.finishRunbookRun id status)) : id ∈ runIds past ∧ status ≠ "cancelled" := by
  obtain ⟨q, a⟩ := e
  obtain rfl : q = .server (.finishRunbookRun id status) := he
  exact ok_of_follow_snoc (program_finishes op) hrest _ rfl id status rfl

theorem Settled.step {l : AutomationLabel} (hp : Settled state p) (hok : CancelAfterEnd state p l)
    (hstep : p.step exec (AutomationOp.program state) l = some p') : Settled state p' := by
  intro t ht id hid hcancelled
  cases l with
  | spawn op =>
    obtain rfl := Option.some.inj hstep
    rcases List.mem_append.mp ht with ht | ht
    · exact hp t ht id hid hcancelled
    · rw [List.mem_singleton.mp ht] at hid
      cases hid
  | answer i e =>
    obtain ⟨op, past, rest, hi, hrest, hexec, hset⟩ := Logged.step_answer hstep
    rw [hset] at ht
    rcases cancelled_of_exec hexec hcancelled
      (fun id' he => (finishes_of_follow hrest he).2 rfl) with hbefore | ⟨rfl, hrow⟩
    · rcases List.mem_or_eq_of_mem_set ht with ht | rfl
      · exact hp t ht id hid hbefore
      · exact absurd hid (hp.apart hi hrest hexec hbefore).2
    · -- the row is cancelled by this step, whose condition speaks about all requests before it
      rcases List.mem_or_eq_of_mem_set ht with ht | rfl
      · exact hok hrow t ht hid
      · rcases mem_runIds_snoc.mp hid with hid | hinserted
        · obtain ⟨r, hends⟩ := hok hrow (op, past) (List.mem_of_getElem? hi) hid
          rw [hends.follow_snoc] at hrest
          cases hrest
        · cases hinserted

theorem CancelAfterEnd.settled (s₀ : RunRows)
    (hp : Reaches (Logged.step exec (AutomationOp.program state)) (CancelAfterEnd state) ⟨s₀, []⟩ p) :
    Settled state p :=
  hp.invariant (by simp [Settled]) fun _ _ _ hs hok hstep => hs.step hok hstep

theorem submittedOf_set {i : ℕ} {op : AutomationOp} (hi : p.threads[i]? = some (op, past))
    (hset : p'.threads = p.threads.set i (op, past ++ [e])) (hid : id ∉ runIds past)
    (hid' : id ∉ runIds (past ++ [e])) : submittedOf id p' = submittedOf id p := by
  obtain ⟨hlt, hthread⟩ := List.getElem?_eq_some_iff.mp hi
  rw [submittedOf, submittedOf, hset, List.flatMap_def, List.flatMap_def, List.map_set, if_neg hid']
  congr 1
  refine List.ext_getElem? fun j => ?_
  rw [List.getElem?_set]
  split_ifs with hj hlen
  · rw [← hj, List.getElem?_map, hi, Option.map_some, if_neg hid]
  · rw [List.length_map] at hlen
    omega
  · rfl

/-- One step leaves a cancelled run as it is. -/
theorem Settled.keeps {l : AutomationLabel} (hp : Settled state p)
    (hstep : p.step exec (AutomationOp.program state) l = some p')
    (hcancelled : ⟨id, "cancelled"⟩ ∈ p.store) :
    ⟨id, "cancelled"⟩ ∈ p'.store ∧ submittedOf id p' = submittedOf id p := by
  cases l with
  | spawn op =>
    obtain rfl := Option.some.inj hstep
    refine ⟨hcancelled, ?_⟩
    rw [submittedOf, List.flatMap_append, ← submittedOf]
    exact List.append_nil _
  | answer i e =>
    obtain ⟨op, past, rest, hi, hrest, hexec, hset⟩ := Logged.step_answer hstep
    obtain ⟨hpast, hnext⟩ := hp.apart hi hrest hexec hcancelled
    refine ⟨exec_cancelled hexec hcancelled fun status he => ?_, submittedOf_set hi hset hpast hnext⟩
    exact hpast (finishes_of_follow hrest he).1

/-- If every `cancel_run` that changes a row finds the handler of its run ended, then once a run is
    cancelled no further step of it is submitted and it stays cancelled. -/
theorem cancelled_stays (state : AppState) (s₀ : RunRows) (p p' : Automations)
    (hp : Reaches (Logged.step exec (AutomationOp.program state)) (CancelAfterEnd state) ⟨s₀, []⟩ p)
    (hp' : Reaches (Logged.step exec (AutomationOp.program state)) (CancelAfterEnd state) p p')
    (runId : Uuid) (hcancelled : statusOf p.store runId = some "cancelled") :
    statusOf p'.store runId = some "cancelled" ∧ submittedOf runId p' = submittedOf runId p := by
  rw [statusOf_eq_some] at hcancelled ⊢
  induction hp' with
  | start => exact ⟨hcancelled, rfl⟩
  | next hreach hok hstep ih =>
    obtain ⟨hkept, hsubmitted⟩ := ih
    obtain ⟨hkept', hsubmitted'⟩ :=
      (CancelAfterEnd.settled s₀ (hp.trans hreach)).keeps hstep hkept
    exact ⟨hkept', hsubmitted'.trans hsubmitted⟩

/-! ### Root cancels two runs -/

/-- The answers to request number `i`. -/
def serverAnswers (i : ℕ) (h : Asked) : List AutomationLabel :=
  h.map fun e => .answer i ⟨.server e.1, e.2⟩

/-- A run is started. -/
def startRun (row : RunbookRow) (runId : Uuid) : Asked :=
  [⟨.findRunbook 9, .ok (some row)⟩,
    ⟨.insertRunbookRun 9 row.definition .null (Uuid.toText Uuid.nil), .ok runId⟩]

/-- A step `server.roomcreation` succeeds. -/
def creationStep (commandId : Uuid) : Asked :=
  [⟨.newUuid, commandId⟩,
    ⟨.insertQueued commandId "server.roomcreation" (Uuid.toText Uuid.nil) "server" (.obj []), .ok ()⟩,
    ⟨.submit { creationTask with commandId := commandId }, true⟩,
    ⟨.completion commandId none, .result (.ok .emptyObject)⟩]

/-- A stored runbook with two steps. -/
def twoSteps : RunbookRow :=
  .ofSteps "x" [("server.roomcreation", .obj []), ("server.roomcreation", .obj [])]

/-- A test for `CancelAfterEnd`. -/
def cancelsAfterEnd (state : AppState) (p : Automations) : AutomationLabel → Bool
  | .answer _ ⟨.cancel id, _⟩ => p.threads.all fun t =>
    !(runIds t.2).contains id || (((t.1.program state).follow t.2).bind result).isSome
  | _ => true

theorem cancelAfterEnd_of_test {l : AutomationLabel} (htest : cancelsAfterEnd state p l = true) :
    CancelAfterEnd state p l := by
  unfold CancelAfterEnd
  split
  · intro _ t ht hid
    have hall := List.all_eq_true.mp htest t ht
    rw [Bool.or_eq_true, Bool.not_eq_true', List.contains_eq_mem, decide_eq_false_iff_not] at hall
    exact Option.isSome_iff_exists.mp (hall.resolve_left (not_not_intro hid))
  · trivial

/-- The handler of the run 71 has ended with an error when Root cancels it; then he runs another
    runbook, as run 72. -/
theorem cancelled_stays_shutdown : ∃ p p' : Automations,
    Reaches (Logged.step exec (AutomationOp.program ⟨true, 10⟩)) (CancelAfterEnd ⟨true, 10⟩)
      ⟨noRuns, []⟩ p ∧
    Reaches (Logged.step exec (AutomationOp.program ⟨true, 10⟩)) (CancelAfterEnd ⟨true, 10⟩) p p' ∧
    statusOf p.store 71 = some "cancelled" ∧ statusOf p'.store 72 = some "succeeded" ∧
    statusOf p'.store 71 = some "cancelled" ∧ submittedOf 71 p' = submittedOf 71 p := by
  have hrun : ((runWhile (Logged.step exec (AutomationOp.program ⟨true, 10⟩)) (cancelsAfterEnd ⟨true, 10⟩)
      ⟨noRuns, []⟩ ([.spawn (.run runRoot [] 9 none)] ++ serverAnswers 0 shutdownRun ++
        [.spawn (.cancel runRoot 71), .answer 1 ⟨.cancel 71, .ok ()⟩])).any fun p =>
      statusOf p.store 71 == some "cancelled" &&
        (runWhile (Logged.step exec (AutomationOp.program ⟨true, 10⟩)) (cancelsAfterEnd ⟨true, 10⟩) p
          ([.spawn (.run runRoot [] 9 none)] ++ serverAnswers 2 (startRun (oneStep "server.roomcreation") 72 ++
            creationStep 1 ++ [⟨.finishRunbookRun 72 "succeeded", .ok ()⟩]))).any fun p' =>
          statusOf p'.store 72 == some "succeeded") = true := by
    decide +kernel
  have htest : ∀ (p : Automations) l, cancelsAfterEnd ⟨true, 10⟩ p l = true →
      CancelAfterEnd ⟨true, 10⟩ p l := fun _ _ => cancelAfterEnd_of_test
  obtain ⟨p, hp, hrest⟩ := exists_reaches_of_runWhile htest hrun
  rw [Bool.and_eq_true, beq_iff_eq] at hrest
  obtain ⟨hcancelled, hrest⟩ := hrest
  obtain ⟨p', hp', hsucceeded⟩ := exists_reaches_of_runWhile htest hrest
  exact ⟨p, p', hp, hp', hcancelled, beq_iff_eq.mp hsucceeded,
    cancelled_stays _ noRuns p p' hp hp' 71 hcancelled⟩

/-- Root cancels the run 71 between its two steps. The second one is submitted all the same, and the
    run succeeds. -/
theorem not_cancelled_stays_twoSteps : ∃ p p' : Automations,
    Reachable (Logged.step exec (AutomationOp.program ⟨true, 10⟩)) ⟨noRuns, []⟩ p ∧
    Reachable (Logged.step exec (AutomationOp.program ⟨true, 10⟩)) p p' ∧
    statusOf p.store 71 = some "cancelled" ∧ submittedOf 71 p = ["server.roomcreation"] ∧
    statusOf p'.store 71 = some "succeeded" ∧
    submittedOf 71 p' = ["server.roomcreation", "server.roomcreation"] := by
  have hrun : ((runFrom (Logged.step exec (AutomationOp.program ⟨true, 10⟩)) ⟨noRuns, []⟩
      ([.spawn (.run runRoot [] 9 none)] ++ serverAnswers 0 (startRun twoSteps 71 ++ creationStep 1) ++
        [.spawn (.cancel runRoot 71), .answer 1 ⟨.cancel 71, .ok ()⟩])).any fun p =>
      (statusOf p.store 71 == some "cancelled" && submittedOf 71 p == ["server.roomcreation"]) &&
        (runFrom (Logged.step exec (AutomationOp.program ⟨true, 10⟩)) p
          (serverAnswers 0 (creationStep 2 ++ [⟨.finishRunbookRun 71 "succeeded", .ok ()⟩]))).any fun p' =>
          statusOf p'.store 71 == some "succeeded" &&
            submittedOf 71 p' == ["server.roomcreation", "server.roomcreation"]) = true := by
    decide +kernel
  obtain ⟨p, hp, hrest⟩ := exists_reachable_of_runFrom hrun
  simp only [Bool.and_eq_true, beq_iff_eq] at hrest
  obtain ⟨⟨hcancelled, hone⟩, hrest⟩ := hrest
  obtain ⟨p', hp', hend⟩ := exists_reachable_of_runFrom hrest
  simp only [Bool.and_eq_true, beq_iff_eq] at hend
  exact ⟨p, p', hp, hp', hcancelled, hone, hend⟩

end Ppb.Automation
