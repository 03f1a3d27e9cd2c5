import Ppb.Common.JsonPath

/-!
# Fields that are changed in place

`Fields.modify` changes the value at a key and leaves the keys as they are (`map.get_mut`).

* `get?_modify`: what is at each key afterwards.
* `Fields.ext`: two lists with the same keys, none of them twice, are equal if they have the same
  values.
* `Json.Distinct`: no object of a value has a key twice.
-/

namespace Ppb

namespace Fields

variable {α : Type} {key : String} {value : α} {f : α → α} {fields fields' : List (String × α)}

/-- Change the value at a key, if there is one. -/
def modify (key : String) (f : α → α) : List (String × α) → List (String × α)
  | [] => []
  | (k, v) :: rest => if k = key then (k, f v) :: rest else (k, v) :: modify key f rest

@[simp] theorem keys_modify (key : String) (f : α → α) (fields : List (String × α)) :
    (modify key f fields).map Prod.fst = fields.map Prod.fst := by
  induction fields with
  | nil => rfl
  | cons head rest ih =>
    obtain ⟨k, v⟩ := head
    rw [modify]
    split_ifs
    · simp
    · simp [ih]

theorem get?_modify (key : String) (f : α → α) (fields : List (String × α)) (key' : String) :
    get? (modify key f fields) key' =
      if key' = key then (get? fields key').map f else get? fields key' := by
  induction fields with
  | nil => simp [modify]
  | cons head rest ih =>
    obtain ⟨k, v⟩ := head
    rw [modify]
    by_cases hk : k = key
    · rw [if_pos hk, get?_cons, get?_cons]
      by_cases hkey : k = key'
      · simp [hkey, hk ▸ hkey]
      · have hne : key' ≠ key := fun h => hkey (hk.trans h.symm)
        simp [hkey, hne]
    · rw [if_neg hk, get?_cons, get?_cons, ih]
      by_cases hkey : k = key'
      · have hne : key' ≠ key := fun h => hk (hkey.trans h)
        simp [hkey, hne]
      · simp [hkey]

/-- What does not change the value changes nothing. -/
theorem modify_of_get? (h : ∀ v, get? fields key = some v → f v = v) :
    modify key f fields = fields := by
  induction fields with
  | nil => rfl
  | cons head rest ih =>
    obtain ⟨k, v⟩ := head
    rw [modify]
    by_cases hk : k = key
    · rw [if_pos hk, h v (by rw [get?_cons, if_pos hk])]
    · rw [if_neg hk, ih fun v hv => h v (by rw [get?_cons, if_neg hk, hv])]

theorem mem_of_get? (h : get? fields key = some value) : (key, value) ∈ fields := by
  induction fields with
  | nil => cases h
  | cons head rest ih =>
    obtain ⟨k, v⟩ := head
    rw [get?_cons] at h
    split_ifs at h with hk
    · rw [← hk, ← Option.some.inj h]
      exact List.mem_cons_self
    · exact List.mem_cons_of_mem _ (ih h)

theorem get?_eq_none (h : key ∉ fields.map Prod.fst) : get? fields key = none := by
  cases hget : get? fields key with
  | none => rfl
  | some v => exact absurd (List.mem_map_of_mem (mem_of_get? hget)) h

theorem ext (hkeys : fields.map Prod.fst = fields'.map Prod.fst)
    (hnodup : (fields.map Prod.fst).Nodup) (hget : ∀ key, get? fields key = get? fields' key) :
    fields = fields' := by
  induction fields generalizing fields' with
  | nil => exact (List.map_eq_nil_iff.mp hkeys.symm).symm
  | cons head rest ih =>
    cases fields' with
    | nil => cases hkeys
    | cons head' rest' =>
      obtain ⟨k, v⟩ := head
      obtain ⟨k', v'⟩ := head'
      rw [List.map_cons, List.map_cons, List.cons.injEq] at hkeys
      rw [List.map_cons, List.nodup_cons] at hnodup
      obtain ⟨hk, hrest⟩ := hkeys
      obtain rfl : k = k' := hk
      have hhead := hget k
      rw [get?_cons, get?_cons, if_pos rfl, if_pos rfl] at hhead
      have htail : ∀ key, get? rest key = get? rest' key := by
        intro key
        have hkey := hget key
        rw [get?_cons, get?_cons] at hkey
        by_cases heq : k = key
        · rw [← heq, get?_eq_none hnodup.1, get?_eq_none (hrest ▸ hnodup.1)]
        · rwa [if_neg heq, if_neg heq] at hkey
      rw [Option.some.inj hhead, ih hrest hnodup.2 htail]

end Fields

namespace Json

mutual

/-- No object has a key twice. -/
def Distinct : Json → Prop
  | .obj fields => (fields.map Prod.fst).Nodup ∧ DistinctFields fields
  | .arr items => DistinctItems items
  | _ => True

def DistinctItems : List Json → Prop
  | [] => True
  | v :: vs => Distinct v ∧ DistinctItems vs

def DistinctFields : List (String × Json) → Prop
  | [] => True
  | (_, v) :: fs => Distinct v ∧ DistinctFields fs

end

variable {fields : List (String × Json)} {key : String} {v : Json}

theorem distinctFields_iff : DistinctFields fields ↔ ∀ f ∈ fields, f.2.Distinct := by
  induction fields with
  | nil => simp [DistinctFields]
  | cons head rest ih => rw [DistinctFields, ih, List.forall_mem_cons]

theorem Distinct.nodup (h : (Json.obj fields).Distinct) : (fields.map Prod.fst).Nodup := by
  rw [Distinct] at h
  exact h.1

theorem Distinct.below (h : (Json.obj fields).Distinct) : DistinctFields fields := by
  rw [Distinct] at h
  exact h.2

theorem Distinct.field (h : (Json.obj fields).Distinct) (hv : Fields.get? fields key = some v) :
    v.Distinct := distinctFields_iff.mp h.below _ (Fields.mem_of_get? hv)

/-- The position at the end of a path of keys. -/
def keys (path : List String) : JsonPath := path.map .key

theorem at?_keys_cons (v : Json) (key : String) (path : List String) :
    v.at? (keys (key :: path)) = (v.child? (.key key)).bind fun child => child.at? (keys path) := rfl

/-- A path of keys to an object goes through objects. -/
theorem exists_obj_of_at?_keys {path : List String} (h : v.at? (keys path) = some (.obj fields)) :
    ∃ fields', v = .obj fields' := by
  cases path with
  | nil => exact ⟨fields, Option.some.inj h⟩
  | cons key rest =>
    cases v with
    | obj fields' => exact ⟨fields', rfl⟩
    | null | bool b | num n | str s | arr items => cases h

end Json

end Ppb
