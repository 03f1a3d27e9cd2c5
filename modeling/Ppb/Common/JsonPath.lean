import Ppb.Common.Json

/-!
# Positions in JSON values

A position is a path of object keys and array indices. `Json.at? v path` is the value there, and
`Json.shape` is what a value is apart from the values below it.
-/

namespace Ppb

/-- One step down. -/
inductive PathStep where
  | key (k : String)
  | index (i : ℕ)
  deriving DecidableEq, Repr

abbrev JsonPath := List PathStep

/-- A value without the values below it. -/
inductive JsonShape where
  | scalar (v : Json)
  | arr (length : ℕ)
  | obj (keys : List String)

namespace Json

def child? : Json → PathStep → Option Json
  | .obj fields, .key k => Fields.get? fields k
  | .arr items, .index i => items[i]?
  | _, _ => none

/-- The value at a position. -/
def at? (v : Json) : JsonPath → Option Json
  | [] => some v
  | step :: rest => (v.child? step).bind fun child => child.at? rest

def shape : Json → JsonShape
  | .arr items => .arr items.length
  | .obj fields => .obj (fields.map Prod.fst)
  | v => .scalar v

theorem at?_cons (v : Json) (step : PathStep) (rest : JsonPath) :
    v.at? (step :: rest) = (v.child? step).bind fun child => child.at? rest := rfl

/-- Nothing stands below a string. -/
theorem at?_str {s : String} {path : JsonPath} {v : Json} (h : (Json.str s).at? path = some v) :
    path = [] ∧ v = .str s := by
  cases path with
  | nil => exact ⟨rfl, (Option.some.inj h).symm⟩
  | cons step rest => cases h

end Json

end Ppb
