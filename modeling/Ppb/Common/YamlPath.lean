import Ppb.Common.Yaml

/-!
# Positions in YAML values

A position is a path of keys, which may be any values, and of indices of sequences.
`Yaml.at? y path` is the value there; along keys that are strings it is `getPath`.
-/

namespace Ppb

/-- One step down. -/
inductive YamlStep where
  | key (k : Yaml)
  | index (i : ℕ)
  deriving DecidableEq

abbrev YamlPath := List YamlStep

namespace Yaml

def child? (y : Yaml) (step : YamlStep) : Option Yaml :=
  match y.untag, step with
  | .map fields, .key k => (fields.find? fun f => f.1 == k).map (·.2)
  | .seq items, .index i => items[i]?
  | _, _ => none

/-- The value at a position. -/
def at? (y : Yaml) : YamlPath → Option Yaml
  | [] => some y
  | step :: rest => (y.child? step).bind fun child => child.at? rest

/-- The position at the end of a path of string keys. -/
def keys (path : List String) : YamlPath := path.map fun key => .key (.str key)

theorem at?_cons (y : Yaml) (step : YamlStep) (rest : YamlPath) :
    y.at? (step :: rest) = (y.child? step).bind fun child => child.at? rest := rfl

theorem child?_map_key (fields : List (Yaml × Yaml)) (k : Yaml) :
    (Yaml.map fields).child? (.key k) = (fields.find? fun f => f.1 == k).map (·.2) := rfl

theorem isKey_eq_beq (key : String) (k : Yaml) : isKey key k = (k == .str key) := by
  rw [Bool.eq_iff_iff, isKey_iff, beq_iff_eq]

theorem child?_key_str (y : Yaml) (key : String) : y.child? (.key (.str key)) = y.get? key := by
  unfold child? get?
  generalize y.untag = z
  cases z with
  | map fields => simp only [Mapping.get?, isKey_eq_beq]
  | null | bool b | num n | str s | seq items | tagged tag value => rfl

theorem getPath_eq_at? (y : Yaml) (path : List String) : y.getPath path = y.at? (keys path) := by
  induction path generalizing y with
  | nil => exact getPath_nil y
  | cons key rest ih =>
    rw [getPath_cons, keys, List.map_cons, at?_cons, child?_key_str]
    cases y.get? key with
    | none => rfl
    | some child => exact ih child

/-- Inserting under a string leaves every other step alone. -/
theorem child?_insert_of_ne {key : String} {step : YamlStep} (hne : step ≠ .key (.str key))
    (value : Yaml) (fields : List (Yaml × Yaml)) :
    (Yaml.map (Mapping.insert key value fields)).child? step = (Yaml.map fields).child? step := by
  cases step with
  | index i => rfl
  | key k =>
    have hk : k ≠ .str key := fun h => hne (by rw [h])
    rw [child?_map_key, child?_map_key]
    induction fields with
    | nil => simp [Mapping.insert, hk.symm]
    | cons f rest ih =>
      obtain ⟨k', v⟩ := f
      rw [Mapping.insert]
      split_ifs with hkey
      · rw [isKey_iff] at hkey
        subst hkey
        rw [List.find?_cons_of_neg (by simpa using hk.symm),
          List.find?_cons_of_neg (by simpa using hk.symm)]
      · rw [List.find?_cons, List.find?_cons]
        cases k' == k with
        | true => rfl
        | false => exact ih

end Yaml

end Ppb
