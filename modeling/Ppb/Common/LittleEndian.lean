import Mathlib

/-!
# Little-endian bytes

`le w n` are the `w` low bytes of `n`, the lowest first; `ofLe` reads such bytes. A number that
fits into `w` bytes is read back (`ofLe_le`).
-/

namespace Ppb.LittleEndian

/-- The `w` low bytes of `n`. -/
def le : ℕ → ℕ → List UInt8
  | 0, _ => []
  | w + 1, n => UInt8.ofNat n :: le w (n / 256)

/-- The number with these bytes. -/
def ofLe (bytes : List UInt8) : ℕ := bytes.foldr (fun b n => b.toNat + 256 * n) 0

theorem length_le (w n : ℕ) : (le w n).length = w := by
  induction w generalizing n with
  | zero => rfl
  | succ w ih => rw [le, List.length_cons, ih]

theorem ofLe_le {w n : ℕ} (hn : n < 256 ^ w) : ofLe (le w n) = n := by
  induction w generalizing n with
  | zero =>
    rw [pow_zero] at hn
    show 0 = n
    omega
  | succ w ih =>
    have hdiv : n / 256 < 256 ^ w := by
      rw [pow_succ] at hn
      omega
    have hrest : ofLe (le w (n / 256)) = n / 256 := ih hdiv
    show (UInt8.ofNat n).toNat + 256 * ofLe (le w (n / 256)) = n
    rw [hrest, UInt8.toNat_ofNat']
    omega

theorem ofLe_lt (bytes : List UInt8) : ofLe bytes < 256 ^ bytes.length := by
  induction bytes with
  | nil => decide
  | cons b bytes ih =>
    have hb := b.toNat_lt
    show b.toNat + 256 * ofLe bytes < 256 ^ (bytes.length + 1)
    rw [pow_succ]
    omega

end Ppb.LittleEndian
