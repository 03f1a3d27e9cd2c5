import Ppb.Common.Text

/-!
# JSON values

`Json` is `serde_json::Value`: an integer is an unsigned or a negative signed 64
bit number, any other number is kept as the text it prints as, and an object is
a list of fields in key order (`BTreeMap`).

`Fields` are the operations on such lists, for values of any type.
-/

namespace Ppb

/-! ## Fields in key order -/

namespace Fields

variable {α : Type}

/-- `map.get(key)`. -/
def get? (fields : List (String × α)) (key : String) : Option α :=
  (fields.find? fun f => f.1 == key).map (·.2)

/-- `map.insert(key, value)`. -/
def insert (key : String) (value : α) : List (String × α) → List (String × α)
  | [] => [(key, value)]
  | (k, v) :: rest =>
    if key = k then (key, value) :: rest
    else if key < k then (key, value) :: (k, v) :: rest
    else (k, v) :: insert key value rest

/-- `map.remove(key)`. -/
def remove (key : String) (fields : List (String × α)) : List (String × α) :=
  fields.filter fun f => f.1 != key

/-- `map.entry(key).or_insert(value)`. -/
def orInsert (key : String) (value : α) (fields : List (String × α)) : List (String × α) :=
  if (get? fields key).isSome then fields else insert key value fields

@[simp] theorem get?_nil (key : String) : get? ([] : List (String × α)) key = none := rfl

theorem get?_cons (k : String) (v : α) (rest : List (String × α)) (key : String) :
    get? ((k, v) :: rest) key = if k = key then some v else get? rest key := by
  have hfind : ((k, v) :: rest).find? (fun f => f.1 == key) =
      if k = key then some (k, v) else rest.find? fun f => f.1 == key := by
    rw [List.find?_cons]
    cases hk : k == key with
    | true => rw [if_pos (beq_iff_eq.mp hk)]
    | false => rw [if_neg (beq_eq_false_iff_ne.mp hk)]
  rw [get?, hfind]
  split_ifs <;> rfl

theorem insert_nil (key : String) (value : α) : insert key value [] = [(key, value)] := rfl

theorem insert_cons (key : String) (value : α) (k : String) (v : α) (rest : List (String × α)) :
    insert key value ((k, v) :: rest) =
      if key = k then (key, value) :: rest
      else if key < k then (key, value) :: (k, v) :: rest
      else (k, v) :: insert key value rest := rfl

@[simp] theorem get?_insert_self (key : String) (value : α) (fields : List (String × α)) :
    get? (insert key value fields) key = some value := by
  induction fields with
  | nil => simp [insert_nil, get?_cons]
  | cons f rest ih =>
    obtain ⟨k, v⟩ := f
    rw [insert_cons]
    split_ifs with h1 h2
    · simp [get?_cons]
    · simp [get?_cons]
    · rw [get?_cons, if_neg (fun h => h1 h.symm), ih]

theorem get?_insert_of_ne {key key' : String} (hne : key' ≠ key) (value : α)
    (fields : List (String × α)) : get? (insert key value fields) key' = get? fields key' := by
  induction fields with
  | nil => simp [insert_nil, get?_cons, hne.symm]
  | cons f rest ih =>
    obtain ⟨k, v⟩ := f
    rw [insert_cons]
    split_ifs with h1 h2
    · subst h1
      simp [get?_cons, hne.symm]
    · simp [get?_cons, hne.symm]
    · simp [get?_cons, ih]

theorem insert_cons_self (key : String) (value v : α) (rest : List (String × α)) :
    insert key value ((key, v) :: rest) = (key, value) :: rest := by
  rw [insert_cons, if_pos rfl]

theorem insert_cons_of_lt {key k : String} (h : key < k) (value v : α)
    (rest : List (String × α)) :
    insert key value ((k, v) :: rest) = (key, value) :: (k, v) :: rest := by
  rw [insert_cons, if_neg h.ne, if_pos h]

theorem insert_cons_of_gt {key k : String} (h : k < key) (value v : α)
    (rest : List (String × α)) :
    insert key value ((k, v) :: rest) = (k, v) :: insert key value rest := by
  rw [insert_cons, if_neg h.ne', if_neg h.not_gt]

/-- The later of two insertions at one key counts. -/
theorem insert_insert (key : String) (value value' : α) (fields : List (String × α)) :
    insert key value (insert key value' fields) = insert key value fields := by
  induction fields with
  | nil => rw [insert_nil, insert_nil, insert_cons_self]
  | cons f rest ih =>
    obtain ⟨k, v⟩ := f
    rcases lt_trichotomy key k with h | rfl | h
    · rw [insert_cons_of_lt h, insert_cons_self, insert_cons_of_lt h]
    · rw [insert_cons_self, insert_cons_self, insert_cons_self]
    · rw [insert_cons_of_gt h, insert_cons_of_gt h, ih, insert_cons_of_gt h]

/-- Insertions at two keys can be made in either order. -/
theorem insert_comm {key key' : String} (hne : key ≠ key') (value value' : α)
    (fields : List (String × α)) : insert key value (insert key' value' fields) =
      insert key' value' (insert key value fields) := by
  wlog hlt : key < key' generalizing key key' value value'
  · exact (this hne.symm value' value (lt_of_le_of_ne (not_lt.mp hlt) hne.symm)).symm
  induction fields with
  | nil =>
    rw [insert_nil, insert_nil, insert_cons_of_lt hlt]
    exact (insert_cons_of_gt hlt value' value []).symm
  | cons f rest ih =>
    obtain ⟨k, v⟩ := f
    rcases lt_trichotomy key k with h | rfl | h
    · rw [insert_cons_of_lt h, insert_cons_of_gt hlt]
      rcases lt_trichotomy key' k with h' | rfl | h'
      · rw [insert_cons_of_lt h', insert_cons_of_lt hlt]
      · rw [insert_cons_self, insert_cons_of_lt hlt]
      · rw [insert_cons_of_gt h', insert_cons_of_lt h]
    · rw [insert_cons_self, insert_cons_of_gt hlt, insert_cons_self, insert_cons_of_gt hlt]
    · rw [insert_cons_of_gt h, insert_cons_of_gt (h.trans hlt), insert_cons_of_gt h,
        insert_cons_of_gt (h.trans hlt), ih]

theorem get?_remove_of_ne {key key' : String} (hne : key' ≠ key) (fields : List (String × α)) :
    get? (remove key fields) key' = get? fields key' := by
  induction fields with
  | nil => rfl
  | cons f rest ih =>
    obtain ⟨k, v⟩ := f
    have hcons : remove key ((k, v) :: rest) =
        if k = key then remove key rest else (k, v) :: remove key rest := by
      simp only [remove, List.filter_cons, bne_iff_ne, ne_eq, ite_not]
    rw [hcons, get?_cons]
    split_ifs with hk hk'
    · exact absurd (hk'.symm.trans hk) hne
    · exact ih
    · rw [get?_cons, if_pos ‹_›]
    · rw [get?_cons, if_neg ‹_›, ih]

end Fields

/-! ## Values -/

/-- `serde_json::Number`. -/
inductive Number where
  | posInt (n : UInt64)
  | negInt (i : Int64)
  | float (text : String)
  deriving DecidableEq, Repr

/-- `serde_json::Value`. -/
inductive Json where
  | null
  | bool (b : Bool)
  | num (n : Number)
  | str (s : String)
  | arr (items : List Json)
  | obj (fields : List (String × Json))
  deriving Repr

namespace Json

mutual

/-- Equality of values, by recursion on the first. -/
def beq : Json → Json → Bool
  | .null, .null => true
  | .bool a, .bool b => a == b
  | .num a, .num b => a == b
  | .str a, .str b => a == b
  | .arr a, .arr b => beqItems a b
  | .obj a, .obj b => beqFields a b
  | _, _ => false

def beqItems : List Json → List Json → Bool
  | [], [] => true
  | a :: as, b :: bs => beq a b && beqItems as bs
  | _, _ => false

def beqFields : List (String × Json) → List (String × Json) → Bool
  | [], [] => true
  | (k, a) :: as, (k', b) :: bs => k == k' && beq a b && beqFields as bs
  | _, _ => false

end

mutual

theorem beq_iff : ∀ a b : Json, beq a b = true ↔ a = b
  | .null, b => by cases b <;> simp [beq]
  | .bool a, b => by cases b <;> simp [beq]
  | .num a, b => by cases b <;> simp [beq]
  | .str a, b => by cases b <;> simp [beq]
  | .arr a, b => by cases b <;> simp [beq, beqItems_iff a]
  | .obj a, b => by cases b <;> simp [beq, beqFields_iff a]

theorem beqItems_iff : ∀ a b : List Json, beqItems a b = true ↔ a = b
  | [], b => by cases b <;> simp [beqItems]
  | a :: as, b => by cases b <;> simp [beqItems, beq_iff a, beqItems_iff as]

theorem beqFields_iff : ∀ a b : List (String × Json), beqFields a b = true ↔ a = b
  | [], b => by cases b <;> simp [beqFields]
  | (k, a) :: as, b => by
    cases b <;> simp [beqFields, beq_iff a, beqFields_iff as, Prod.ext_iff]

end

instance : DecidableEq Json := fun a b => decidable_of_iff _ (beq_iff a b)

/-- `Value::get(key)` for a string key. -/
def get? (v : Json) (key : String) : Option Json :=
  match v with
  | .obj fields => Fields.get? fields key
  | _ => none

/-- `Value::as_str`. -/
def asStr : Json → Option String
  | .str s => some s
  | _ => none

/-- `Value::as_bool`. -/
def asBool : Json → Option Bool
  | .bool b => some b
  | _ => none

/-- `Value::as_i64`: an unsigned number counts if it is at most `i64::MAX`. -/
def asI64 : Json → Option Int64
  | .num (.posInt n) => if n.toNat < 2 ^ 63 then some n.toInt64 else none
  | .num (.negInt i) => some i
  | _ => none

/-- `Value::as_u64`. -/
def asU64 : Json → Option UInt64
  | .num (.posInt n) => some n
  | _ => none

/-- `Value::as_object`. -/
def asObject : Json → Option (List (String × Json))
  | .obj fields => some fields
  | _ => none

/-- `Value::as_array`. -/
def asArray : Json → Option (List Json)
  | .arr items => some items
  | _ => none

/-- `json!(i)` for an `i64`. -/
def ofInt64 (i : Int64) : Json :=
  if 0 ≤ i.toInt then .num (.posInt i.toUInt64) else .num (.negInt i)

/-- `json!({})`. -/
def emptyObject : Json := .obj []

theorem bind_asStr_eq_some {o : Option Json} {s : String} :
    o.bind asStr = some s ↔ o = some (.str s) := by
  cases o with
  | none => simp
  | some v => cases v <;> simp [asStr]

theorem asI64_ofInt64 (i : Int64) : (ofInt64 i).asI64 = some i := by
  unfold ofInt64
  split_ifs with hi
  · have hlt : i.toUInt64.toNat < 2 ^ 63 := by
      rw [Int64.toNat_toUInt64_of_le (Int64.le_iff_toInt_le.mpr hi)]
      show i.toInt.toNat < 2 ^ 63
      have := i.toInt_lt
      omega
    rw [asI64, if_pos hlt, Int64.toInt64_toUInt64]
  · rfl

/-! ## Compact text -/

/-- One character inside a JSON string. -/
def escapeChar (c : Char) : String :=
  if c = '"' then "\\\""
  else if c = '\\' then "\\\\"
  else if c.toNat = 8 then "\\b"
  else if c.toNat = 9 then "\\t"
  else if c.toNat = 10 then "\\n"
  else if c.toNat = 12 then "\\f"
  else if c.toNat = 13 then "\\r"
  else if c.toNat < 32 then
    "\\u00" ++ String.ofList [Text.hexDigit (c.toNat / 16), Text.hexDigit (c.toNat % 16)]
  else String.singleton c

def renderString (s : String) : String := "\"" ++ String.join (s.toList.map escapeChar) ++ "\""

def renderNumber : Number → String
  | .posInt n => toString n.toNat
  | .negInt i => toString i.toInt
  | .float text => text

mutual

/-- `Value::to_string`. -/
def render : Json → String
  | .null => "null"
  | .bool b => if b then "true" else "false"
  | .num n => renderNumber n
  | .str s => renderString s
  | .arr items => "[" ++ renderItems items ++ "]"
  | .obj fields => "\x7b" ++ renderFields fields ++ "\x7d"

def renderItems : List Json → String
  | [] => ""
  | [v] => render v
  | v :: vs => render v ++ "," ++ renderItems vs

def renderFields : List (String × Json) → String
  | [] => ""
  | [(k, v)] => renderString k ++ ":" ++ render v
  | (k, v) :: fs => renderString k ++ ":" ++ render v ++ "," ++ renderFields fs

end

end Json

end Ppb
