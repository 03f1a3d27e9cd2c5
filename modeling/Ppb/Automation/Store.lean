import Ppb.Automation.Routes
import Ppb.Common.Lift
import Ppb.Common.Table
import Ppb.Server.Sql

/-!
# The runs of runbooks (`automation/routes.rs`)

`run` inserts a row of `runbook_runs` with the status `running`, executes the steps, and writes
how they went into the row. `cancel_run` marks a row that is still `running` as `cancelled`.

`exec s e`: the rows after the event `e`. A statement may fail, and then changes nothing.
-/

namespace Ppb.Automation

open Prog Auth

/-- A row of `runbook_runs`: its key and its status. -/
structure RunRow where
  id : Uuid
  status : String
  deriving DecidableEq, Repr

/-- `PRIMARY KEY (id)`. -/
def RunKeys (a b : RunRow) : Prop := a.id ≠ b.id

instance : DecidableRel RunKeys := fun a b => inferInstanceAs (Decidable (a.id ≠ b.id))

abbrev RunRows := Table RunRow RunKeys

inductive RunQuery where
  /-- what `run` asks -/
  | server (q : Query)
  /-- the `UPDATE` of `cancel_run` (automation/routes.rs:89-95) -/
  | cancel (id : Uuid)
  deriving DecidableEq

@[reducible]
def RunQuery.Answer : RunQuery → Type
  | .server q => q.Answer
  | .cancel _ => Except DbError Unit

/-- `WHERE id = $1 AND status IN ('queued', 'running')`. -/
def cancellable (id : Uuid) (row : RunRow) : Bool :=
  row.id == id && (row.status == "queued" || row.status == "running")

/-- The rows after what `run` asks; `none` if it is not answered so. -/
def serve (s : RunRows) (e : Event Query Query.Answer) : Option RunRows :=
  match e with
  | ⟨.insertRunbookRun .., a⟩ => orUnchanged s (fun id => s.insert ⟨id, "running"⟩) a
  | ⟨.finishRunbookRun id status, a⟩ =>
    orUnchanged s (fun () => s.update (·.id == id) fun row => { row with status := status }) a
  | _ => some s

/-- The rows after an event. -/
def exec (s : RunRows) (e : Event RunQuery RunQuery.Answer) : Option RunRows :=
  match e with
  | ⟨.server q, a⟩ => serve s ⟨q, a⟩
  | ⟨.cancel id, a⟩ =>
    orUnchanged s (fun () => s.update (cancellable id) fun row => { row with status := "cancelled" }) a

/-- The status of a run. -/
def statusOf (s : RunRows) (id : Uuid) : Option String := (s.rows.find? (·.id == id)).map (·.status)

abbrev Handler (α : Type) := Prog RunQuery RunQuery.Answer ApiError α

/-- A program of the server. -/
def call {α : Type} (p : Server α) : Handler α := p.lift RunQuery.server fun _ a => a

/-- `cancel_run` (automation/routes.rs:82-98). -/
def cancelRun (state : AppState) (auth : AuthPrincipal) (id : Uuid) : Handler Uuid := do
  call (require state auth "automation:execute")
  call state.requireDb
  let cancelled ← (query (.cancel id) : Handler _)
  mapErr automationDbErr cancelled
  return id

/-! ## The rows -/

variable {s s' : RunRows} {id : Uuid} {row : RunRow}

theorem statusOf_eq_some {status : String} :
    statusOf s id = some status ↔ ⟨id, status⟩ ∈ s := by
  unfold statusOf
  rw [Option.map_eq_some_iff]
  constructor
  · rintro ⟨row, hfind, rfl⟩
    have hid : row.id = id := by simpa using List.find?_some hfind
    have hmem := List.mem_of_find?_eq_some hfind
    rw [← hid]
    exact hmem
  · intro hmem
    cases hfind : s.rows.find? (·.id == id) with
    | none => exact absurd (by simp) (List.find?_eq_none.mp hfind ⟨id, status⟩ hmem)
    | some row =>
      refine ⟨row, rfl, ?_⟩
      have hid : row.id = id := by simpa using List.find?_some hfind
      rcases Table.eq_or_compat (List.mem_of_find?_eq_some hfind : row ∈ s) hmem with heq | hne | hne
      · rw [heq]
      · exact absurd hid hne
      · exact absurd hid.symm hne

end Ppb.Automation
