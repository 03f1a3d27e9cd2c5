import Ppb.Common.Prog
import Ppb.Server.World

/-!
# SQL statements that may fail

`orUnchanged s ok a`: the tables after a statement with the answer `a`, which is `ok` if it
succeeded; a statement that fails changes nothing. `reads` is a `SELECT`. `Prog.mapErr` is
what the handlers make of a failure.
-/

namespace Ppb

variable {S α : Type} {s s' : S}

/-- A statement that may fail, and then changes nothing. A row that is missing is an
    answer, not a failure. -/
def orUnchanged (s : S) (ok : α → Option S) : Except DbError α → Option S
  | .ok a => ok a
  | .error .other => some s
  | .error .rowNotFound => none

/-- A read. -/
def reads [DecidableEq α] (s : S) (row : α) : Except DbError α → Option S :=
  orUnchanged s fun a => if a = row then some s else none

/-- A statement that does not fail does what it is for. -/
theorem orUnchanged_cases {ok : α → Option S} {a : Except DbError α}
    (h : orUnchanged s ok a = some s') : s' = s ∨ ∃ row, a = .ok row ∧ ok row = some s' := by
  match a with
  | .ok row => exact .inr ⟨row, rfl, h⟩
  | .error .other => exact .inl (Option.some.inj h).symm
  | .error .rowNotFound => cases h

theorem reads_cases [DecidableEq α] {row : α} {a : Except DbError α}
    (h : reads s row a = some s') : s' = s ∧ ∀ found, a = .ok found → found = row := by
  match a with
  | .ok found =>
    simp only [reads, orUnchanged] at h
    split_ifs at h with hrow
    refine ⟨(Option.some.inj h).symm, fun found' heq => ?_⟩
    rw [← Except.ok.inj heq, hrow]
  | .error .other => exact ⟨(Option.some.inj h).symm, nofun⟩
  | .error .rowNotFound => cases h

namespace Prog

variable {Q : Type} {A : Q → Type} {ε : Type}

/-- `.map_err(..)?`. -/
def mapErr (f : DbError → ε) : Except DbError α → Prog Q A ε α
  | .ok a => pure a
  | .error e => .fail (f e)

theorem only_mapErr {C : Q → Prop} {f : DbError → ε} {r : Except DbError α} :
    (mapErr f r : Prog Q A ε α).Only C := by
  cases r <;> trivial

end Prog

end Ppb
