import Mathlib

/-!
# Rust `str` operations

A Rust `str` is UTF-8 text and is indexed by bytes. `s.len()` is the number of
bytes, and `&s[..n]` panics unless `n` falls on a character boundary. Here a
`str` is a `String` read through its list of characters; a character takes
`Char.utf8Size` bytes.

* `byteLen`, `IsCharBoundary`: the length and the boundaries, in bytes.
* `sliceTo s n`: `&s[..n]`, `none` for the panic; `sliceTo_isSome` says when it
  does not panic.
* `containsStr`, `toAsciiLowercase`, `trimSpaces`, `replaceAll`: the remaining
  operations the server uses on header and identifier text.
-/

namespace Ppb.Text

/-- `s.len()`: the length in bytes. -/
def byteLen (s : List Char) : ℕ := (s.map Char.utf8Size).sum

/-- `s.is_char_boundary(n)`: `n` bytes are the bytes of a whole number of leading
    characters. -/
def IsCharBoundary (s : List Char) (n : ℕ) : Prop := ∃ k ≤ s.length, byteLen (s.take k) = n

/-- `&s[..n]`: the characters of the first `n` bytes. `none` is the panic when
    `n` is past the end or inside a character. -/
def sliceTo : List Char → ℕ → Option (List Char)
  | _, 0 => some []
  | [], _ + 1 => none
  | c :: s, n + 1 =>
    if c.utf8Size ≤ n + 1 then (sliceTo s (n + 1 - c.utf8Size)).map (c :: ·) else none

@[simp] theorem byteLen_nil : byteLen [] = 0 := rfl

@[simp] theorem byteLen_cons (c : Char) (s : List Char) :
    byteLen (c :: s) = c.utf8Size + byteLen s := by simp [byteLen]

@[simp] theorem byteLen_append (s t : List Char) : byteLen (s ++ t) = byteLen s + byteLen t := by
  simp [byteLen]

theorem sliceTo_spec : ∀ (s : List Char) (n : ℕ) (p : List Char),
    sliceTo s n = some p ↔ p <+: s ∧ byteLen p = n := by
  intro s
  induction s with
  | nil =>
    intro n p
    cases n with
    | zero =>
      simp only [sliceTo, Option.some.injEq, List.prefix_nil]
      constructor
      · rintro rfl; exact ⟨rfl, rfl⟩
      · rintro ⟨rfl, _⟩; rfl
    | succ n =>
      simp only [sliceTo, List.prefix_nil]
      constructor
      · rintro ⟨⟩
      · rintro ⟨rfl, h⟩; simp at h
  | cons c s ih =>
    intro n p
    have hc : 0 < c.utf8Size := Char.utf8Size_pos c
    cases n with
    | zero =>
      simp only [sliceTo, Option.some.injEq]
      constructor
      · rintro rfl; exact ⟨List.nil_prefix, rfl⟩
      · rintro ⟨h1, h2⟩
        cases p with
        | nil => rfl
        | cons d p =>
          rw [List.cons_prefix_cons] at h1
          rw [h1.1, byteLen_cons] at h2
          omega
    | succ n =>
      rw [sliceTo]
      split_ifs with hle
      · simp only [Option.map_eq_some_iff, ih]
        constructor
        · rintro ⟨q, ⟨h1, h2⟩, rfl⟩
          exact ⟨by simpa using h1, by rw [byteLen_cons]; omega⟩
        · rintro ⟨h1, h2⟩
          cases p with
          | nil => simp at h2
          | cons d p =>
            obtain ⟨rfl, hp⟩ := List.cons_prefix_cons.mp h1
            rw [byteLen_cons] at h2
            exact ⟨p, ⟨hp, by omega⟩, rfl⟩
      · constructor
        · rintro ⟨⟩
        · rintro ⟨h1, h2⟩
          cases p with
          | nil => simp at h2
          | cons d p =>
            obtain ⟨rfl, -⟩ := List.cons_prefix_cons.mp h1
            rw [byteLen_cons] at h2
            omega

/-- `&s[..n]` does not panic exactly when `n` is a character boundary. -/
theorem sliceTo_isSome (s : List Char) (n : ℕ) :
    (sliceTo s n).isSome = true ↔ IsCharBoundary s n := by
  rw [Option.isSome_iff_exists]
  constructor
  · rintro ⟨p, hp⟩
    obtain ⟨h1, h2⟩ := (sliceTo_spec s n p).mp hp
    exact ⟨p.length, h1.length_le, by rw [← List.prefix_iff_eq_take.mp h1, h2]⟩
  · rintro ⟨k, hk, h⟩
    exact ⟨s.take k, (sliceTo_spec s n _).mpr ⟨List.take_prefix k s, h⟩⟩

instance (s : List Char) (n : ℕ) : Decidable (IsCharBoundary s n) :=
  decidable_of_iff _ (sliceTo_isSome s n)

/-- `s.contains(t)` for a pattern `t : &str`. -/
def containsStr (s t : String) : Bool := decide (t.toList <:+: s.toList)

/-- `s.to_ascii_lowercase()`. -/
def toAsciiLowercase (s : String) : String := String.ofList (s.toList.map Char.toLower)

/-- A lower-case hexadecimal digit. -/
def hexDigit (n : ℕ) : Char := if n < 10 then Char.ofNat (48 + n) else Char.ofNat (87 + n)

/-- A space or a tab: the white space a header value can hold. -/
def isBlank (c : Char) : Bool := c == ' ' || c == '\t'

/-- `str::trim` on text whose only white space is spaces and tabs. -/
def trimSpaces (s : List Char) : List Char :=
  ((s.dropWhile isBlank).reverse.dropWhile isBlank).reverse

/-- `char::is_whitespace`: the Unicode property `White_Space`. -/
def isWhitespace (c : Char) : Bool :=
  let n := c.toNat
  (9 ≤ n && n ≤ 13) || n == 0x20 || n == 0x85 || n == 0xA0 || n == 0x1680 ||
    (0x2000 ≤ n && n ≤ 0x200A) || n == 0x2028 || n == 0x2029 || n == 0x202F || n == 0x205F ||
    n == 0x3000

/-- `s.trim()`. -/
def trim (s : String) : String :=
  String.ofList ((s.toList.dropWhile isWhitespace).reverse.dropWhile isWhitespace).reverse

/-- `s.split(sep).count()`. -/
def splitCount (sep : Char) (s : String) : ℕ := s.toList.count sep + 1

/-- The text left after `skip` characters, with each match of `pat` replaced. A
    match starts at the leftmost place and its characters are skipped. -/
def replaceFrom (pat new : List Char) : ℕ → List Char → List Char
  | _, [] => []
  | skip + 1, _ :: s => replaceFrom pat new skip s
  | 0, c :: s =>
    if pat.isPrefixOf (c :: s) then new ++ replaceFrom pat new (pat.length - 1) s
    else c :: replaceFrom pat new 0 s

/-- `s.replace(pat, new)` for a pattern that is not empty. -/
def replaceAll (s pat new : String) : String :=
  String.ofList (replaceFrom pat.toList new.toList 0 s.toList)

end Ppb.Text
