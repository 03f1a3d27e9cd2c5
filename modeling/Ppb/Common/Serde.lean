import Ppb.Common.Json

/-!
# Derived decoders

How the decoders that `serde` derives read a `serde_json::Value`. A struct is an object with its
fields by name, fields that it does not know aside, or an array with its fields by position. A
field may have a default, for where it is missing; an `Option` reads `null` as `None`; a variant
without data is its name.

The lemmas read back what is written with fields left out that are `None`.
-/

namespace Ppb.Serde

variable {α : Type}

/-- The fields of a struct that has `n`: of each, given its position and its name. -/
def fieldsOf (n : ℕ) : Json → Option (ℕ → String → Option Json)
  | .obj fields => some fun _ key => Fields.get? fields key
  | .arr items => if items.length ≤ n then some fun i _ => items[i]? else none
  | _ => none

/-- A field that has to be there. -/
def required (read : Json → Option α) (v : Option Json) : Option α := v.bind read

/-- `#[serde(default)]`. -/
def defaulted (d : α) (read : Json → Option α) : Option Json → Option α
  | none => some d
  | some v => read v

/-- `Option<T>`. -/
def optional (read : Json → Option α) : Json → Option (Option α)
  | .null => some none
  | v => (read v).map some

/-- A variant without data. -/
def unitVariant (ofText : String → Option α) : Json → Option α
  | .str s => ofText s
  | .obj [(s, .null)] => ofText s
  | _ => none

theorem optional_of_read {read : Json → Option α} (hnull : read .null = none) {v : Json} {a : α}
    (h : read v = some a) : optional read v = some (some a) := by
  cases v with
  | null => exact absurd (hnull.symm.trans h) (by simp)
  | _ => exact congrArg (Option.map some) h

/-- What is written for an `Option`, or left out, is read back. -/
theorem defaulted_optional (read : Json → Option α) (write : α → Json)
    (hnull : read .null = none) (hread : ∀ a, read (write a) = some a) (o : Option α) :
    defaulted none (optional read) (o.map write) = some o := by
  cases o with
  | none => rfl
  | some a => exact optional_of_read hnull (hread a)

end Ppb.Serde
