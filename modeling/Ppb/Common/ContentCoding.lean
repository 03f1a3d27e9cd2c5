import Ppb.Common.LittleEndian
import Ppb.Common.Octets

/-!
# The content coding `aes128gcm` (RFC 8188)

A body starts with a header: a salt of 16 octets, the record size, and the name of the keying
material, which says the input of HKDF. Records of that size follow, the last one may be
shorter; each is encrypted on its own, its nonce is the base nonce with the number of the
record added bitwise, and the last octet of its plaintext (before padding with zeros) tells
whether it is the last one.

* `decode_encode`: what was encoded is decoded.
* `decodeRecords_foreign`: nothing of what was encrypted under another key is decoded.
-/

namespace Ppb.ContentCoding

open Octet

variable {S : Type}

/-- The `w` bytes of `n`, the highest first. -/
def be (w n : ℕ) : List UInt8 := (LittleEndian.le w n).reverse

def ofBe (bytes : List UInt8) : ℕ := LittleEndian.ofLe bytes.reverse

theorem length_be (w n : ℕ) : (be w n).length = w := by
  rw [be, List.length_reverse, LittleEndian.length_le]

theorem ofBe_be {w n : ℕ} (hn : n < 256 ^ w) : ofBe (be w n) = n := by
  rw [ofBe, be, List.reverse_reverse, LittleEndian.ofLe_le hn]

def ascii (text : String) : List UInt8 := text.toList.map fun c => UInt8.ofNat c.toNat

/-! ## Keys -/

/-- The content encryption key (section 2.2). -/
def contentKey (salt ikm : List (Octet S)) : List (Octet S) :=
  hkdf salt ikm (ofBytes (ascii "Content-Encoding: aes128gcm\x00")) 16

/-- The base nonce (section 2.3). -/
def baseNonce (salt ikm : List (Octet S)) : List (Octet S) :=
  hkdf salt ikm (ofBytes (ascii "Content-Encoding: nonce\x00")) 12

/-- The nonce of the record `seq`. -/
def recordNonce (base : List (Octet S)) (seq : ℕ) : List (Octet S) :=
  List.zipWith Octet.xor base (be 12 seq)

/-! ## Decoding -/

variable [DecidableEq S]

/-- The octet before the padding of a record. -/
def delimiter (last : Bool) : UInt8 := if last then 2 else 1

/-- The content of a record's plaintext. -/
def unpad (last : Bool) (plain : List (Octet S)) : Option (List (Octet S)) :=
  match plain.reverse.dropWhile (· = .lit 0) with
  | o :: rest => if o = .lit (delimiter last) then some rest.reverse else none
  | [] => none

/-- The records from the record `seq` on; `fuel` bounds their number. -/
def decodeRecords (key base : List (Octet S)) (size : ℕ) :
    ℕ → ℕ → List (Octet S) → Option (List (Octet S))
  | 0, _, _ => none
  | fuel + 1, seq, octets =>
    if octets.length ≤ size then
      (aeadDecrypt key (recordNonce base seq) octets).bind (unpad true)
    else
      ((aeadDecrypt key (recordNonce base seq) (octets.take size)).bind (unpad false)).bind
        fun content =>
          (decodeRecords key base size fuel (seq + 1) (octets.drop size)).map (content ++ ·)

structure Header (S : Type) where
  salt : List (Octet S)
  recordSize : ℕ
  keyId : List UInt8
  records : List (Octet S)

/-- The header (section 2.1): salt, record size, and the key id after its length. -/
def header? (body : List (Octet S)) : Option (Header S) :=
  match toBytes? ((body.drop 16).take 4), body.drop 20 with
  | some size, .lit idlen :: rest =>
    if idlen.toNat ≤ rest.length ∧ 18 ≤ ofBe size then
      (toBytes? (rest.take idlen.toNat)).map fun keyId =>
        ⟨body.take 16, ofBe size, keyId, rest.drop idlen.toNat⟩
    else none
  | _, _ => none

/-- What a body says, given the keying material under each name. -/
def decode (keyMaterial : List UInt8 → Option (List (Octet S))) (body : List (Octet S)) :
    Option (List (Octet S)) :=
  (header? body).bind fun h => (keyMaterial h.keyId).bind fun ikm =>
    decodeRecords (contentKey h.salt ikm) (baseNonce h.salt ikm) h.recordSize h.records.length 0
      h.records

/-! ## Encoding -/

def encodeHeader (salt : List UInt8) (size : ℕ) (keyId : List UInt8) : List (Octet S) :=
  ofBytes (salt ++ be 4 size ++ [UInt8.ofNat keyId.length] ++ keyId)

/-- The records with these contents, from the record `seq` on, without padding. -/
def encodeRecords (key base : List (Octet S)) : ℕ → List (List (Octet S)) → List (Octet S)
  | _, [] => []
  | seq, [content] => aeadEncrypt key (recordNonce base seq) (content ++ [.lit (delimiter true)])
  | seq, content :: contents =>
    aeadEncrypt key (recordNonce base seq) (content ++ [.lit (delimiter false)]) ++
      encodeRecords key base (seq + 1) contents

def encode (salt : List UInt8) (size : ℕ) (keyId : List UInt8) (ikm : List (Octet S))
    (contents : List (List (Octet S))) : List (Octet S) :=
  encodeHeader salt size keyId ++
    encodeRecords (contentKey (ofBytes salt) ikm) (baseNonce (ofBytes salt) ikm) 0 contents

/-- Every record but the last is full. -/
inductive Fits (size : ℕ) : List (List (Octet S)) → Prop
  | last (content : List (Octet S)) (h : content.length + 17 ≤ size) : Fits size [content]
  | cons (content : List (Octet S)) {contents : List (List (Octet S))}
      (h : content.length + 17 = size) (hcontents : Fits size contents) :
      Fits size (content :: contents)

omit [DecidableEq S] in
theorem header?_encodeHeader {salt keyId : List UInt8} {size : ℕ} (hsalt : salt.length = 16)
    (hsize : 18 ≤ size) (hfits : size < 256 ^ 4) (hkey : keyId.length < 256)
    (records : List (Octet S)) :
    header? (encodeHeader salt size keyId ++ records) =
      some ⟨ofBytes salt, size, keyId, records⟩ := by
  have hbody : (encodeHeader salt size keyId ++ records : List (Octet S)) =
      ofBytes salt ++ (ofBytes (be 4 size) ++
        (.lit (UInt8.ofNat keyId.length) :: (ofBytes keyId ++ records))) := by
    simp only [encodeHeader, ofBytes_append, List.append_assoc]
    rfl
  have hlength : (UInt8.ofNat keyId.length).toNat = keyId.length := by
    rw [UInt8.toNat_ofNat']
    omega
  have hsaltLength : (ofBytes salt : List (Octet S)).length = 16 := by rw [length_ofBytes, hsalt]
  have hsizeLength : (ofBytes (be 4 size) : List (Octet S)).length = 4 := by
    rw [length_ofBytes, length_be]
  have hdrop : (encodeHeader salt size keyId ++ records : List (Octet S)).drop 16 =
      ofBytes (be 4 size) ++ (.lit (UInt8.ofNat keyId.length) :: (ofBytes keyId ++ records)) := by
    rw [hbody, List.drop_left' hsaltLength]
  have hdrop' : (encodeHeader salt size keyId ++ records : List (Octet S)).drop 20 =
      .lit (UInt8.ofNat keyId.length) :: (ofBytes keyId ++ records) := by
    rw [show 20 = 16 + 4 from rfl, ← List.drop_drop, hdrop, List.drop_left' hsizeLength]
  have htake : (encodeHeader salt size keyId ++ records : List (Octet S)).take 16 =
      ofBytes salt := by
    rw [hbody, List.take_left' hsaltLength]
  unfold header?
  rw [hdrop', hdrop, htake, List.take_left' hsizeLength, toBytes?_ofBytes]
  show (if (UInt8.ofNat keyId.length).toNat ≤ _ ∧ 18 ≤ ofBe (be 4 size) then _ else none) = _
  rw [hlength, ofBe_be hfits, if_pos (by simp [hsize]),
    List.take_left' (length_ofBytes keyId), List.drop_left' (length_ofBytes keyId),
    toBytes?_ofBytes]
  rfl

/-! ## Encoding and decoding -/

theorem unpad_append (last : Bool) (content : List (Octet S)) :
    unpad last (content ++ [.lit (delimiter last)]) = some content := by
  unfold unpad
  have hzero : (Octet.lit (delimiter last) : Octet S) ≠ .lit 0 := by cases last <;> simp [delimiter]
  rw [List.reverse_append, List.reverse_singleton, List.singleton_append,
    List.dropWhile_cons_of_neg (by simpa using hzero)]
  show (if _ then some content.reverse.reverse else none) = _
  rw [if_pos rfl, List.reverse_reverse]

/-- One record is decrypted, whichever it is. -/
theorem aeadDecrypt_record (key base content : List (Octet S)) (seq : ℕ) (last : Bool) :
    (aeadDecrypt key (recordNonce base seq)
      (aeadEncrypt key (recordNonce base seq) (content ++ [.lit (delimiter last)]))).bind
        (unpad last) = some content := by
  rw [aeadDecrypt_eq_some.mpr rfl, Option.bind_some, unpad_append]

omit [DecidableEq S] in
theorem encodeRecords_ne_nil {size : ℕ} (key base : List (Octet S))
    {contents : List (List (Octet S))} (hfits : Fits size contents) (seq : ℕ) :
    0 < (encodeRecords key base seq contents).length := by
  cases hfits with
  | last content h =>
    rw [encodeRecords, length_aeadEncrypt]
    omega
  | cons content h hcontents =>
    cases hcontents with
    | last | cons =>
      rw [encodeRecords, List.length_append, length_aeadEncrypt]
      · omega
      · simp

theorem decodeRecords_encodeRecords {size : ℕ} (key base : List (Octet S))
    {contents : List (List (Octet S))} (hfits : Fits size contents) (seq : ℕ) {fuel : ℕ}
    (hfuel : (encodeRecords key base seq contents).length ≤ fuel) :
    decodeRecords key base size fuel seq (encodeRecords key base seq contents) =
      some contents.flatten := by
  induction hfits generalizing seq fuel with
  | last content h =>
    rw [encodeRecords, length_aeadEncrypt] at hfuel
    obtain ⟨fuel, rfl⟩ := Nat.exists_eq_add_of_lt (show 0 < fuel by omega)
    have hlength : (encodeRecords key base seq [content]).length ≤ size := by
      rw [encodeRecords, length_aeadEncrypt, List.length_append, List.length_singleton]
      omega
    rw [Nat.zero_add, decodeRecords, if_pos hlength, encodeRecords, aeadDecrypt_record]
    simp
  | @cons content contents h hcontents ih =>
    have hne : contents ≠ [] := by cases hcontents <;> simp
    have hrest := encodeRecords_ne_nil key base hcontents (seq + 1)
    have hrecords : encodeRecords key base seq (content :: contents) =
        aeadEncrypt key (recordNonce base seq) (content ++ [.lit (delimiter false)]) ++
          encodeRecords key base (seq + 1) contents := by
      rw [encodeRecords]
      exact hne
    have hfirst : (aeadEncrypt key (recordNonce base seq)
        (content ++ [.lit (delimiter false)])).length = size := by
      rw [length_aeadEncrypt, List.length_append, List.length_singleton]
      omega
    rw [hrecords, List.length_append, hfirst] at hfuel
    obtain ⟨fuel, rfl⟩ := Nat.exists_eq_add_of_lt (show 0 < fuel by omega)
    rw [hrecords, Nat.zero_add, decodeRecords, if_neg (by rw [List.length_append]; omega),
      List.take_left' hfirst, List.drop_left' hfirst, aeadDecrypt_record, Option.bind_some,
      ih (seq + 1) (by omega)]
    rfl

/-- What was encoded is decoded by whoever knows the keying material. -/
theorem decode_encode {salt keyId : List UInt8} {size : ℕ} {ikm : List (Octet S)}
    {keyMaterial : List UInt8 → Option (List (Octet S))} {contents : List (List (Octet S))}
    (hsalt : salt.length = 16) (hsize : size < 256 ^ 4) (hkey : keyId.length < 256)
    (hmaterial : keyMaterial keyId = some ikm) (hfits : Fits size contents) (hmin : 18 ≤ size) :
    decode keyMaterial (encode salt size keyId ikm contents) = some contents.flatten := by
  rw [decode, encode, header?_encodeHeader hsalt hmin hsize hkey, Option.bind_some, hmaterial,
    Option.bind_some]
  exact decodeRecords_encodeRecords _ _ hfits 0 le_rfl

/-! ## Another key -/

/-- A piece of a ciphertext is a ciphertext under the same key only. -/
theorem aeadDecrypt_foreign {key key' nonce nonce' plain : List (Octet S)} (hne : key ≠ key')
    {size : ℕ} (hsize : 0 < size) :
    aeadDecrypt key nonce ((aeadEncrypt key' nonce' plain).take size) = none := by
  rw [Option.eq_none_iff_forall_ne_some]
  intro plain' hdecrypt
  have heq := aeadDecrypt_eq_some.mp hdecrypt
  obtain ⟨rest, hcons⟩ := aeadEncrypt_eq_cons key' nonce' plain
  obtain ⟨rest', hcons'⟩ := aeadEncrypt_eq_cons key nonce plain'
  obtain ⟨size, rfl⟩ := Nat.exists_eq_add_of_lt hsize
  rw [hcons, hcons', Nat.zero_add, List.take_succ_cons] at heq
  obtain ⟨hterm, -⟩ := Octet.part.inj (List.cons.inj heq).1
  exact hne (Term.aead.inj hterm).1.symm

/-- What was encrypted under another key is not decoded. -/
theorem decodeRecords_foreign {key key' base nonce plain : List (Octet S)} (hne : key ≠ key')
    {size : ℕ} (hsize : 0 < size) (fuel seq : ℕ) :
    decodeRecords key base size fuel seq (aeadEncrypt key' nonce plain) = none := by
  cases fuel with
  | zero => rfl
  | succ fuel =>
    rw [decodeRecords, aeadDecrypt_foreign hne hsize]
    have hpos : 0 < (aeadEncrypt key' nonce plain).length := by
      rw [length_aeadEncrypt]
      omega
    have hwhole : aeadDecrypt key (recordNonce base seq)
        ((aeadEncrypt key' nonce plain).take (aeadEncrypt key' nonce plain).length) = none :=
      aeadDecrypt_foreign hne hpos
    rw [List.take_length] at hwhole
    rw [hwhole]
    split_ifs <;> rfl

end Ppb.ContentCoding
