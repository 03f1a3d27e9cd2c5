import Mathlib

/-!
# Symbolic octets

HKDF and an AEAD as free functions. An octet is a byte, or the `i`-th octet of what a function
gives for its arguments; two outputs are equal only if function and arguments are. Decryption
finds a plaintext only in a whole ciphertext, under its own key and nonce.

* `hkdf_inj`: keys derived from different inputs differ.
* `aeadDecrypt_eq_some`: decryption inverts encryption, and nothing else decrypts.
-/

namespace Ppb

mutual

/-- What the free functions compute: `S` are the shared secrets of a key agreement. -/
inductive Term (S : Type) where
  | secret (s : S)
  | hkdf (salt ikm info : List (Octet S))
  | aead (key nonce plain : List (Octet S))

/-- A byte, or an octet of a term, to which `mask` is added bitwise. -/
inductive Octet (S : Type) where
  | lit (b : UInt8)
  | part (t : Term S) (i : ℕ) (mask : UInt8)

end

variable {S : Type}

/-! ## Equality -/

section Equality

variable [DecidableEq S]

mutual

def Term.beq : Term S → Term S → Bool
  | .secret s, .secret s' => s == s'
  | .hkdf a b c, .hkdf a' b' c' => Octet.beqAll a a' && Octet.beqAll b b' && Octet.beqAll c c'
  | .aead a b c, .aead a' b' c' => Octet.beqAll a a' && Octet.beqAll b b' && Octet.beqAll c c'
  | _, _ => false

def Octet.beq : Octet S → Octet S → Bool
  | .lit b, .lit b' => b == b'
  | .part t i m, .part t' i' m' => Term.beq t t' && i == i' && m == m'
  | _, _ => false

def Octet.beqAll : List (Octet S) → List (Octet S) → Bool
  | [], [] => true
  | o :: os, o' :: os' => Octet.beq o o' && Octet.beqAll os os'
  | _, _ => false

end

mutual

theorem Term.beq_iff : ∀ t t' : Term S, Term.beq t t' = true ↔ t = t'
  | .secret s, t' => by cases t' <;> simp [Term.beq]
  | .hkdf a b c, t' => by
    cases t' <;> simp [Term.beq, Octet.beqAll_iff a, Octet.beqAll_iff b, Octet.beqAll_iff c,
      and_assoc]
  | .aead a b c, t' => by
    cases t' <;> simp [Term.beq, Octet.beqAll_iff a, Octet.beqAll_iff b, Octet.beqAll_iff c,
      and_assoc]

theorem Octet.beq_iff : ∀ o o' : Octet S, Octet.beq o o' = true ↔ o = o'
  | .lit b, o' => by cases o' <;> simp [Octet.beq]
  | .part t i m, o' => by cases o' <;> simp [Octet.beq, Term.beq_iff t, and_assoc]

theorem Octet.beqAll_iff : ∀ os os' : List (Octet S), Octet.beqAll os os' = true ↔ os = os'
  | [], os' => by cases os' <;> simp [Octet.beqAll]
  | o :: os, os' => by cases os' <;> simp [Octet.beqAll, Octet.beq_iff o, Octet.beqAll_iff os]

end

instance : DecidableEq (Octet S) := fun o o' => decidable_of_iff _ (Octet.beq_iff o o')

end Equality

/-! ## Bytes -/

namespace Octet

/-- Bitwise addition of a byte. -/
def xor : Octet S → UInt8 → Octet S
  | .lit b, m => .lit (b ^^^ m)
  | .part t i mask, m => .part t i (mask ^^^ m)

def toByte? : Octet S → Option UInt8
  | .lit b => some b
  | .part _ _ _ => none

/-- The bytes, if all octets are bytes. -/
def toBytes? (octets : List (Octet S)) : Option (List UInt8) := octets.mapM toByte?

def ofBytes (bytes : List UInt8) : List (Octet S) := bytes.map .lit

@[simp] theorem length_ofBytes (bytes : List UInt8) :
    (ofBytes bytes : List (Octet S)).length = bytes.length := List.length_map ..

theorem ofBytes_append (a b : List UInt8) :
    (ofBytes (a ++ b) : List (Octet S)) = ofBytes a ++ ofBytes b := List.map_append ..

@[simp] theorem toBytes?_ofBytes (bytes : List UInt8) :
    toBytes? (ofBytes bytes : List (Octet S)) = some bytes := by
  induction bytes with
  | nil => rfl
  | cons b bytes ih =>
    rw [toBytes?, ofBytes] at ih ⊢
    rw [List.map_cons, List.mapM_cons, ih]
    rfl

theorem ofBytes_inj {a b : List UInt8} :
    (ofBytes a : List (Octet S)) = ofBytes b ↔ a = b := by
  rw [ofBytes, ofBytes, List.map_inj_right fun _ _ h => Octet.lit.inj h]

/-! ## HKDF -/

/-- The first `n` octets of a term. -/
def parts (t : Term S) (n : ℕ) : List (Octet S) := (List.range n).map fun i => .part t i 0

@[simp] theorem length_parts (t : Term S) (n : ℕ) : (parts t n).length = n := by
  rw [parts, List.length_map, List.length_range]

theorem parts_succ (t : Term S) (n : ℕ) :
    parts t (n + 1) = .part t 0 0 :: (List.range n).map fun i => .part t (i + 1) 0 := by
  rw [parts, List.range_succ_eq_map, List.map_cons, List.map_map]
  rfl

/-- The octets of different terms differ from the first on. -/
theorem parts_inj {t t' : Term S} {n n' : ℕ} (hn : n ≠ 0) (h : parts t n = parts t' n') :
    t = t' ∧ n = n' := by
  have hlength : n = n' := by simpa using congrArg List.length h
  subst hlength
  obtain ⟨k, rfl⟩ := Nat.exists_eq_succ_of_ne_zero hn
  rw [parts_succ, parts_succ] at h
  obtain ⟨ht, -⟩ := Octet.part.inj (List.cons.inj h).1
  exact ⟨ht, rfl⟩

/-- The `x` coordinate of a shared point. -/
def ofSecret (s : S) : List (Octet S) := parts (.secret s) 32

/-- `n` octets of HKDF-Expand under HKDF-Extract; fewer octets are a prefix. -/
def hkdf (salt ikm info : List (Octet S)) (n : ℕ) : List (Octet S) :=
  parts (.hkdf salt ikm info) n

@[simp] theorem length_hkdf (salt ikm info : List (Octet S)) (n : ℕ) :
    (hkdf salt ikm info n).length = n := length_parts ..

theorem hkdf_inj {salt ikm info salt' ikm' info' : List (Octet S)} {n : ℕ} (hn : n ≠ 0)
    (h : hkdf salt ikm info n = hkdf salt' ikm' info' n) :
    salt = salt' ∧ ikm = ikm' ∧ info = info' := Term.hkdf.inj (parts_inj hn h).1

/-! ## Authenticated encryption -/

/-- The ciphertext with its tag of 16 octets. -/
def aeadEncrypt (key nonce plain : List (Octet S)) : List (Octet S) :=
  parts (.aead key nonce plain) (plain.length + 16)

@[simp] theorem length_aeadEncrypt (key nonce plain : List (Octet S)) :
    (aeadEncrypt key nonce plain).length = plain.length + 16 := length_parts ..

theorem aeadEncrypt_eq_cons (key nonce plain : List (Octet S)) :
    ∃ rest, aeadEncrypt key nonce plain = .part (.aead key nonce plain) 0 0 :: rest :=
  ⟨_, parts_succ _ _⟩

variable [DecidableEq S]

def aeadDecrypt (key nonce cipher : List (Octet S)) : Option (List (Octet S)) :=
  match cipher with
  | .part (.aead _ _ plain) _ _ :: _ =>
    if cipher = aeadEncrypt key nonce plain then some plain else none
  | _ => none

theorem aeadDecrypt_eq_some {key nonce cipher plain : List (Octet S)} :
    aeadDecrypt key nonce cipher = some plain ↔ cipher = aeadEncrypt key nonce plain := by
  constructor
  · intro h
    unfold aeadDecrypt at h
    split at h
    · split_ifs at h with heq
      rw [← Option.some.inj h]
      exact heq
    · cases h
  · rintro rfl
    obtain ⟨rest, hcons⟩ := aeadEncrypt_eq_cons key nonce plain
    rw [hcons]
    show (if _ = aeadEncrypt key nonce plain then some plain else none) = _
    rw [if_pos hcons.symm]

end Octet

end Ppb
