import Ppb.Common.Json

/-!
# YAML values

`Yaml` is `serde_yaml::Value`. A mapping keeps the order in which its keys were inserted;
`Mapping.insert` replaces the value of a key in place, or appends. Reading a key looks through
tags (`Value::get`).

* `getPath`: the value at a path of keys. `mapAt`: change the value at a path, if there is one.
* `getPath_mapAt_self`, `getPath_mapAt_of_disjoint`: what `mapAt` changes, and what it leaves.
-/

namespace Ppb

/-- `serde_yaml::Value`. -/
inductive Yaml where
  | null
  | bool (b : Bool)
  | num (n : Number)
  | str (s : String)
  | seq (items : List Yaml)
  | map (fields : List (Yaml × Yaml))
  | tagged (tag : String) (value : Yaml)
  deriving Repr

namespace Yaml

mutual

/-- Equality of values, by recursion on the first. -/
def beq : Yaml → Yaml → Bool
  | .null, .null => true
  | .bool a, .bool b => a == b
  | .num a, .num b => a == b
  | .str a, .str b => a == b
  | .seq a, .seq b => beqItems a b
  | .map a, .map b => beqFields a b
  | .tagged s a, .tagged t b => s == t && beq a b
  | _, _ => false

def beqItems : List Yaml → List Yaml → Bool
  | [], [] => true
  | a :: as, b :: bs => beq a b && beqItems as bs
  | _, _ => false

def beqFields : List (Yaml × Yaml) → List (Yaml × Yaml) → Bool
  | [], [] => true
  | (k, a) :: as, (k', b) :: bs => beq k k' && beq a b && beqFields as bs
  | _, _ => false

end

mutual

theorem beq_iff : ∀ a b : Yaml, beq a b = true ↔ a = b
  | .null, b => by cases b <;> simp [beq]
  | .bool a, b => by cases b <;> simp [beq]
  | .num a, b => by cases b <;> simp [beq]
  | .str a, b => by cases b <;> simp [beq]
  | .seq a, b => by cases b <;> simp [beq, beqItems_iff a]
  | .map a, b => by cases b <;> simp [beq, beqFields_iff a]
  | .tagged s a, b => by cases b <;> simp [beq, beq_iff a]

theorem beqItems_iff : ∀ a b : List Yaml, beqItems a b = true ↔ a = b
  | [], b => by cases b <;> simp [beqItems]
  | a :: as, b => by cases b <;> simp [beqItems, beq_iff a, beqItems_iff as]

theorem beqFields_iff : ∀ a b : List (Yaml × Yaml), beqFields a b = true ↔ a = b
  | [], b => by cases b <;> simp [beqFields]
  | (k, a) :: as, b => by
    cases b <;> simp [beqFields, beq_iff k, beq_iff a, beqFields_iff as, Prod.ext_iff]

end

instance : DecidableEq Yaml := fun a b => decidable_of_iff _ (beq_iff a b)

/-! ## Mappings -/

/-- The key `key` of a mapping. -/
def isKey (key : String) : Yaml → Bool
  | .str s => s == key
  | _ => false

theorem isKey_iff {key : String} {k : Yaml} : isKey key k = true ↔ k = .str key := by
  cases k <;> simp [isKey]

namespace Mapping

/-- `mapping.get(key)`. -/
def get? (fields : List (Yaml × Yaml)) (key : String) : Option Yaml :=
  (fields.find? fun f => isKey key f.1).map (·.2)

/-- `mapping.insert(key, value)`. -/
def insert (key : String) (value : Yaml) : List (Yaml × Yaml) → List (Yaml × Yaml)
  | [] => [(.str key, value)]
  | (k, v) :: rest => if isKey key k then (k, value) :: rest else (k, v) :: insert key value rest

theorem get?_cons (k v : Yaml) (rest : List (Yaml × Yaml)) (key : String) :
    get? ((k, v) :: rest) key = if isKey key k then some v else get? rest key := by
  rw [get?, List.find?_cons]
  cases isKey key k <;> rfl

@[simp] theorem get?_insert_self (key : String) (value : Yaml) (fields : List (Yaml × Yaml)) :
    get? (insert key value fields) key = some value := by
  induction fields with
  | nil => simp [insert, get?_cons, isKey]
  | cons f rest ih =>
    obtain ⟨k, v⟩ := f
    rw [insert]
    split_ifs with hk
    · rw [get?_cons, if_pos hk]
    · rw [get?_cons, if_neg hk, ih]

theorem get?_insert_of_ne {key key' : String} (hne : key' ≠ key) (value : Yaml)
    (fields : List (Yaml × Yaml)) : get? (insert key value fields) key' = get? fields key' := by
  induction fields with
  | nil => simp [insert, get?, isKey, hne.symm]
  | cons f rest ih =>
    obtain ⟨k, v⟩ := f
    rw [insert]
    split_ifs with hk
    · rw [get?_cons, get?_cons, if_neg, if_neg]
      all_goals
        rw [isKey_iff] at hk ⊢
        rw [hk]
        simpa using hne.symm
    · rw [get?_cons, get?_cons, ih]

/-- A key gets the value that it has. -/
theorem insert_of_get? {key : String} {value : Yaml} {fields : List (Yaml × Yaml)}
    (h : get? fields key = some value) : insert key value fields = fields := by
  induction fields with
  | nil => cases h
  | cons f rest ih =>
    obtain ⟨k, v⟩ := f
    rw [get?_cons] at h
    rw [insert]
    split_ifs at h ⊢ with hk
    · rw [Option.some.inj h]
    · rw [ih h]

end Mapping

/-! ## Paths -/

/-- `Value::untag_ref`. -/
def untag : Yaml → Yaml
  | .tagged _ value => value.untag
  | y => y

/-- `Value::get(key)` for a string key. -/
def get? (y : Yaml) (key : String) : Option Yaml :=
  match y.untag with
  | .map fields => Mapping.get? fields key
  | _ => none

/-- The value at a path of keys. -/
def getPath : Yaml → List String → Option Yaml
  | y, [] => some y
  | y, key :: rest => (y.get? key).bind (·.getPath rest)

@[simp] theorem getPath_nil (y : Yaml) : y.getPath [] = some y := by cases y <;> rfl

theorem getPath_cons (y : Yaml) (key : String) (rest : List String) :
    y.getPath (key :: rest) = (y.get? key).bind (·.getPath rest) := by cases y <;> rfl

/-- Change what is at a key, if there is something. -/
def mapKey (key : String) (g : Yaml → Yaml) : Yaml → Yaml
  | .map fields => .map (fields.map fun f => (f.1, if isKey key f.1 then g f.2 else f.2))
  | .tagged tag value => .tagged tag (mapKey key g value)
  | y => y

/-- Change what is at a path, if there is something. -/
def mapAt (f : Yaml → Yaml) : List String → Yaml → Yaml
  | [], y => f y
  | key :: rest, y => y.mapKey key (mapAt f rest)

theorem get?_mapKey (key : String) (g : Yaml → Yaml) (y : Yaml) (key' : String) :
    (y.mapKey key g).get? key' = if key' = key then (y.get? key').map g else y.get? key' := by
  induction y using mapKey.induct with
  | case1 fields =>
    show Mapping.get? (fields.map _) key' =
      if key' = key then (Mapping.get? fields key').map g else Mapping.get? fields key'
    induction fields with
    | nil => split_ifs <;> rfl
    | cons f rest ih =>
      obtain ⟨k, v⟩ := f
      rw [List.map_cons, Mapping.get?_cons, Mapping.get?_cons, ih]
      by_cases hk : isKey key' k = true
      · rw [if_pos hk, if_pos hk]
        rw [isKey_iff] at hk
        subst hk
        by_cases hkey : key' = key
        · simp [hkey, isKey]
        · simp [isKey, hkey]
      · rw [if_neg hk, if_neg hk]
  | case2 tag value ih => exact ih
  | case3 y hmap htagged =>
    have hnone : y.get? key' = none := by
      cases y with
      | map fields => exact (hmap fields rfl).elim
      | tagged tag value => exact (htagged tag value rfl).elim
      | null | bool b | num n | str s | seq items => rfl
    rw [mapKey, hnone]
    · split_ifs <;> rfl
    · exact hmap
    · exact htagged

theorem getPath_mapAt_self (f : Yaml → Yaml) (path : List String) :
    ∀ y : Yaml, (y.mapAt f path).getPath path = (y.getPath path).map f := by
  induction path with
  | nil => intro y; simp [mapAt]
  | cons key rest ih =>
    intro y
    rw [mapAt, getPath_cons, getPath_cons, get?_mapKey, if_pos rfl]
    cases y.get? key with
    | none => rfl
    | some v => exact ih v

/-- A path that neither goes through the changed one nor ends on the way to it. -/
theorem getPath_mapAt_of_disjoint (f : Yaml → Yaml) (path : List String) :
    ∀ {other : List String}, ¬ path <+: other → ¬ other <+: path →
      ∀ y : Yaml, (y.mapAt f path).getPath other = y.getPath other := by
  induction path with
  | nil => exact fun h => absurd List.nil_prefix h
  | cons key rest ih =>
    intro other hpre hpre' y
    cases other with
    | nil => exact absurd List.nil_prefix hpre'
    | cons key' rest' =>
      rw [mapAt, getPath_cons, getPath_cons, get?_mapKey]
      split_ifs with hkey
      · subst hkey
        rw [List.prefix_cons_inj] at hpre hpre'
        cases y.get? key' with
        | none => rfl
        | some v => exact ih hpre hpre' v
      · rfl

end Yaml

end Ppb
