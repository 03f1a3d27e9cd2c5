import Ppb.Common.Text

/-!
# Identifiers and principals (`auth/types.rs`)

A UUID is its 128 bits. `Uuid.toText` is the hyphenated lower-case form that
`uuid::Uuid` prints, which several keys (rate limits, queue keys) are built
from.
-/

namespace Ppb

/-- `uuid::Uuid`. -/
abbrev Uuid := BitVec 128

instance lawfulBEq_uuid : LawfulBEq Uuid := inferInstance

namespace Uuid

/-- `Uuid::nil()`, the `sub` of Root. -/
def nil : Uuid := 0#128

/-- The hexadecimal digits of the nibbles `i, …, i + n - 1`, most significant
    first. -/
def hexDigits (u : Uuid) (i n : ℕ) : List Char :=
  (List.range' i n).map fun k => Text.hexDigit (u.toNat / 16 ^ (31 - k) % 16)

/-- `Display for Uuid`: groups of 8, 4, 4, 4 and 12 digits. -/
def toText (u : Uuid) : String :=
  String.ofList (hexDigits u 0 8 ++ ['-'] ++ hexDigits u 8 4 ++ ['-'] ++ hexDigits u 12 4 ++ ['-'] ++
    hexDigits u 16 4 ++ ['-'] ++ hexDigits u 20 12)

/-- The value of a hexadecimal digit. -/
def hexValue (c : Char) : Option ℕ :=
  if '0' ≤ c ∧ c ≤ '9' then some (c.toNat - 48)
  else if 'a' ≤ c ∧ c ≤ 'f' then some (c.toNat - 87)
  else if 'A' ≤ c ∧ c ≤ 'F' then some (c.toNat - 55)
  else none

/-- The number with these hexadecimal digits, most significant first. -/
def ofHex (digits : List Char) : Option ℕ :=
  digits.foldlM (fun n c => (hexValue c).map (16 * n + ·)) 0

/-- The UUID whose hyphenated form this is, with upper-case digits or lower-case ones: what
    `Uuid::parse_str` reads back of what `Display` has printed. The other spellings that
    `Uuid::parse_str` takes are not among these. -/
def ofText (s : String) : Option Uuid :=
  let digits := s.toList.filter (· ≠ '-')
  if s.length = 36 ∧ digits.length = 32 ∧
      [8, 13, 18, 23].all (fun i => s.toList[i]? == some '-') = true then
    (ofHex digits).map (BitVec.ofNat 128)
  else none

theorem hexValue_hexDigit {n : ℕ} (h : n < 16) : hexValue (Text.hexDigit n) = some n := by
  interval_cases n <;> rfl

theorem hexDigit_ne {n : ℕ} (h : n < 16) : Text.hexDigit n ≠ '-' := by
  interval_cases n <;> decide

theorem hexDigits_length (u : Uuid) (i n : ℕ) : (hexDigits u i n).length = n := by
  simp [hexDigits]

theorem hexDigits_filter (u : Uuid) (i n : ℕ) :
    (hexDigits u i n).filter (· ≠ '-') = hexDigits u i n := by
  refine List.filter_eq_self.mpr fun c hc => ?_
  obtain ⟨k, -, rfl⟩ := List.mem_map.mp hc
  simpa using hexDigit_ne (Nat.mod_lt _ (by omega))

theorem hexDigits_append (u : Uuid) (i m n : ℕ) :
    hexDigits u i m ++ hexDigits u (i + m) n = hexDigits u i (m + n) := by
  rw [hexDigits, hexDigits, hexDigits, ← List.map_append, List.range'_append_1]

theorem ofHex_hexDigits (u : Uuid) : ∀ n ≤ 32,
    ofHex (hexDigits u 0 n) = some (u.toNat / 16 ^ (32 - n)) := by
  intro n
  induction n with
  | zero =>
    intro _
    have hlt : u.toNat < 16 ^ 32 := u.isLt
    show some 0 = some (u.toNat / 16 ^ 32)
    rw [Nat.div_eq_of_lt hlt]
  | succ n ih =>
    intro hn
    have hprev : ofHex (hexDigits u 0 n) = some (u.toNat / 16 ^ (32 - n)) := ih (by omega)
    have hlast : hexDigits u 0 (n + 1) =
        hexDigits u 0 n ++ [Text.hexDigit (u.toNat / 16 ^ (31 - n) % 16)] := by
      rw [← hexDigits_append u 0 n 1]
      simp [hexDigits]
    have hdiv : u.toNat / 16 ^ (32 - n) = u.toNat / 16 ^ (31 - n) / 16 := by
      rw [Nat.div_div_eq_div_mul, ← pow_succ]
      congr 2
      omega
    rw [ofHex, hlast, List.foldlM_append, ← ofHex, hprev]
    show (hexValue _).map _ >>= _ = _
    rw [hexValue_hexDigit (Nat.mod_lt _ (by omega)), hdiv, show 32 - (n + 1) = 31 - n by omega]
    exact congrArg some (Nat.div_add_mod _ 16)

theorem ofText_toText (u : Uuid) : ofText (toText u) = some u := by
  have hchars : (toText u).toList = hexDigits u 0 8 ++ ['-'] ++ hexDigits u 8 4 ++ ['-'] ++
      hexDigits u 12 4 ++ ['-'] ++ hexDigits u 16 4 ++ ['-'] ++ hexDigits u 20 12 :=
    String.toList_ofList
  have hdigits : (toText u).toList.filter (· ≠ '-') = hexDigits u 0 32 := by
    rw [hchars]
    simp only [List.filter_append, hexDigits_filter]
    simp only [List.filter_cons, List.filter_nil, ne_eq, not_true_eq_false, decide_false,
      Bool.false_eq_true, if_false, List.append_nil]
    rw [hexDigits_append u 0 8 4, hexDigits_append u 0 12 4, hexDigits_append u 0 16 4,
      hexDigits_append u 0 20 12]
  have hlength : (toText u).length = 36 := by
    rw [← String.length_toList, hchars]
    simp [hexDigits_length]
  have hhyphens : [8, 13, 18, 23].all (fun i => (toText u).toList[i]? == some '-') = true := by
    rw [hchars]
    simp [hexDigits]
  rw [ofText, if_pos ⟨hlength, by rw [hdigits, hexDigits_length], hhyphens⟩, hdigits,
    ofHex_hexDigits u 32 le_rfl]
  simp

end Uuid

/-- `PrincipalType` (auth/types.rs:8-11). Root is a local emergency principal
    and has no row in `users`. -/
inductive PrincipalType where
  | user | root
  deriving DecidableEq, Repr

/-- `Display for PrincipalType` (auth/types.rs:13-20). -/
def PrincipalType.toText : PrincipalType → String
  | .user => "user"
  | .root => "root"

/-- The name of a `PrincipalType` as JSON has it. -/
def PrincipalType.parse (s : String) : Option PrincipalType :=
  if s = "user" then some .user else if s = "root" then some .root else none

@[simp] theorem PrincipalType.parse_toText (t : PrincipalType) : parse t.toText = some t := by
  cases t <;> rfl

/-- `ClientType` (auth/types.rs:25-30). -/
inductive ClientType where
  | ppf | panel | windows | android
  deriving DecidableEq, Repr

/-- `Display for ClientType` (auth/types.rs:32-41). -/
def ClientType.toText : ClientType → String
  | .ppf => "ppf"
  | .panel => "panel"
  | .windows => "windows"
  | .android => "android"

/-- `ClientType::parse` (auth/types.rs:45-53). -/
def ClientType.parse (s : String) : Option ClientType :=
  if s = "ppf" then some .ppf
  else if s = "panel" then some .panel
  else if s = "windows" then some .windows
  else if s = "android" then some .android
  else none

@[simp] theorem ClientType.parse_toText (t : ClientType) : parse t.toText = some t := by
  cases t <;> rfl

/-- `AuthPrincipal` (auth/types.rs:57-66). -/
structure AuthPrincipal where
  sub : Uuid
  sid : Uuid
  principalType : PrincipalType
  clientType : ClientType
  requestId : String
  deriving DecidableEq, Repr

/-- `AuthPrincipal::is_root` (auth/types.rs:69-71). -/
def AuthPrincipal.isRoot (auth : AuthPrincipal) : Bool := auth.principalType == .root

end Ppb
