import Mathlib

/-!
# Pages of a list

The page `i` of a list has the `size` entries from `i * size` on. Offsets are 64-bit numbers:
a product of two of them is the mathematical one just when it fits.

* `flatten_pages`: what the first pages are together.
* `I64.toInt_mul_iff`: when a product does not wrap around.
* `Vec`: a list whose length is a 64-bit number.
-/

namespace Ppb

/-! ## Pages -/

namespace Pages

variable {α : Type}

def slice (l : List α) (size i : ℕ) : List α := (l.drop (i * size)).take size

theorem slice_eq_nil {l : List α} {size i : ℕ} (h : l.length ≤ i * size) : slice l size i = [] := by
  rw [slice, List.drop_eq_nil_of_le h, List.take_nil]

/-- The first `m` pages are the first `m * size` entries. -/
theorem flatten_pages (l : List α) (size m : ℕ) :
    ((List.range m).map (slice l size)).flatten = l.take (m * size) := by
  induction m with
  | zero => simp
  | succ m ih =>
    rw [List.range_succ, List.map_append, List.flatten_append, ih, Nat.succ_mul, List.take_add]
    simp [slice]

/-- They are the whole list just when they have room for it. -/
theorem flatten_pages_eq_self_iff {l : List α} {size m : ℕ} :
    ((List.range m).map (slice l size)).flatten = l ↔ l.length ≤ m * size := by
  rw [flatten_pages]
  constructor
  · intro h
    rw [← h, List.length_take]
    omega
  · intro h
    rw [List.take_of_length_le h]

/-- As many pages as the length needs have room. -/
theorem le_ceilDiv_mul {n size : ℕ} (hsize : 0 < size) : n ≤ n ⌈/⌉ size * size := by
  have h : n ≤ size * (n ⌈/⌉ size) := (ceilDiv_le_iff_le_mul hsize).mp le_rfl
  rwa [Nat.mul_comm] at h

/-- No page of them is superfluous. -/
theorem mul_lt_of_lt_ceilDiv {n size i : ℕ} (hsize : 0 < size) (hi : i < n ⌈/⌉ size) :
    i * size < n := by
  rw [← not_le, ceilDiv_le_iff_le_mul hsize, not_le] at hi
  rwa [Nat.mul_comm]

end Pages

/-! ## 64-bit numbers -/

namespace I64

theorem toInt_mul_iff {a b : Int64} :
    (a * b).toInt = a.toInt * b.toInt ↔ -2 ^ 63 ≤ a.toInt * b.toInt ∧ a.toInt * b.toInt < 2 ^ 63 := by
  constructor
  · intro h
    rw [← h]
    exact ⟨Int64.le_toInt _, Int64.toInt_lt _⟩
  · rintro ⟨hle, hlt⟩
    rw [Int64.toInt_mul]
    exact Int.bmod_eq_of_le (by omega) (by omega)

theorem toInt_max (a b : Int64) : (max a b).toInt = max a.toInt b.toInt := by
  show (if a ≤ b then b else a).toInt = _
  by_cases h : a ≤ b
  · rw [if_pos h, max_eq_right (Int64.le_iff_toInt_le.mp h)]
  · rw [Int64.not_le] at h
    rw [if_neg (Int64.not_le.mpr h), max_eq_left (Int64.lt_iff_toInt_lt.mp h).le]

theorem toInt_min (a b : Int64) : (min a b).toInt = min a.toInt b.toInt := by
  show (if a ≤ b then a else b).toInt = _
  by_cases h : a ≤ b
  · rw [if_pos h, min_eq_left (Int64.le_iff_toInt_le.mp h)]
  · rw [Int64.not_le] at h
    rw [if_neg (Int64.not_le.mpr h), min_eq_right (Int64.lt_iff_toInt_lt.mp h).le]

/-- A number that is not negative is the same number without a sign. -/
theorem toNat_toUInt64 {a : Int64} (h : 0 ≤ a.toInt) : (a.toUInt64.toNat : ℤ) = a.toInt := by
  rw [Int64.toNat_toUInt64_of_le (Int64.le_iff_toInt_le.mpr h)]
  exact Int.toNat_of_nonneg h

end I64

/-! ## Vectors -/

/-- `Vec<T>`: its length is at most `isize::MAX`. -/
structure Vec (α : Type) where
  toList : List α
  length_lt : toList.length < 2 ^ 63

namespace Vec

variable {α β : Type}

/-- `v.len() as i64`. -/
def len (v : Vec α) : Int64 := .ofNat v.toList.length

theorem toInt_len (v : Vec α) : v.len.toInt = v.toList.length := Int64.toInt_ofNat_of_lt v.length_lt

/-- A list that is not longer than a vector. -/
def shrink (v : Vec α) (l : List β) (h : l.length ≤ v.toList.length) : Vec β :=
  ⟨l, lt_of_le_of_lt h v.length_lt⟩

def filter (v : Vec α) (p : α → Bool) : Vec α :=
  v.shrink (v.toList.filter p) (List.length_filter_le ..)

def filterMap (v : Vec α) (f : α → Option β) : Vec β :=
  v.shrink (v.toList.filterMap f) (List.length_filterMap_le ..)

def map (v : Vec α) (f : α → β) : Vec β := v.shrink (v.toList.map f) (List.length_map ..).le

end Vec

end Ppb
