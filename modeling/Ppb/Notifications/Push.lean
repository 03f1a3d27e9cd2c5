import Ppb.Common.ContentCoding

/-!
# Web Push (`notifications/push.rs`)

`encrypt_rfc8291` encrypts a payload for a browser: an ECDH secret with the browser's key, HKDF,
AES-128-GCM, and a body in the format of the content coding `aes128gcm`. The receiver is the one
of RFC 8291: it derives keying material from the secret and derives from that, with the salt of
the header, key and nonce.

* `receive_rfcEncrypt`: the receiver recovers what a sender that follows the RFC encrypts.
* `not_recovers`: it recovers nothing that `encrypt_rfc8291` encrypts, which takes key and nonce
  from the first derivation and never reads its salt.

Deviation: HKDF and AES-128-GCM are free functions, the curve P-256 is a parameter.
-/

namespace Ppb.Notifications

open Octet ContentCoding

/-- What the code takes from `p256`: key pairs, key agreement and the SEC1 encoding. -/
structure Curve where
  Secret : Type
  Public : Type
  Shared : Type
  [decEq : DecidableEq Shared]
  publicKey : Secret → Public
  diffieHellman : Secret → Public → Shared
  encodedPointBytes : Public → List UInt8
  fromSec1Bytes : List UInt8 → Except String Public
  diffieHellman_comm : ∀ a b, diffieHellman a (publicKey b) = diffieHellman b (publicKey a)
  length_encodedPointBytes : ∀ p, (encodedPointBytes p).length = 65
  fromSec1Bytes_encodedPointBytes : ∀ p, fromSec1Bytes (encodedPointBytes p) = .ok p

attribute [instance] Curve.decEq

/-- `PushSubscription` (push.rs:32-38), without its endpoint. -/
structure PushSubscription where
  p256dh : List UInt8
  auth : List UInt8
  length_p256dh : p256dh.length = 65
  length_auth : auth.length = 16

/-- The check at the end of `decrypt_subscription` (push.rs:331-344). -/
def decryptSubscription (p256dh auth : List UInt8) : Option PushSubscription :=
  if h : p256dh.length = 65 ∧ auth.length = 16 then some ⟨p256dh, auth, h.1, h.2⟩ else none

/-! ## The code -/

variable (c : Curve)

/-- `Aes128Gcm::encrypt`; the plaintext has at most `P_MAX` octets. -/
def aes128GcmEncrypt (cek nonce plain : List (Octet c.Shared)) :
    Except String (List (Octet c.Shared)) :=
  if 2 ^ 36 < plain.length then .error "aead::Error" else .ok (aeadEncrypt cek nonce plain)

/-- `encrypt_rfc8291` (push.rs:131-167), for the ephemeral secret and the salt that it draws. -/
def encryptRfc8291 (eph : c.Secret) (salt : Vector UInt8 16) (sub : PushSubscription)
    (payload : List UInt8) : Except String (List (Octet c.Shared)) := do
  let asPublicBytes := c.encodedPointBytes (c.publicKey eph)
  let uaPublic ← c.fromSec1Bytes sub.p256dh
  let sharedSecret := ofSecret (c.diffieHellman eph uaPublic)
  let info := ofBytes (ascii "WebPush: info\x00" ++ sub.p256dh ++ asPublicBytes)
  let cek := hkdf (ofBytes sub.auth) sharedSecret info 16
  let nonce := hkdf (ofBytes sub.auth) sharedSecret info 12
  let plaintext := ofBytes (payload ++ [0x02])
  let ct ← aes128GcmEncrypt c cek nonce plaintext
  .ok (ofBytes (salt.toList ++ be 4 4096 ++ [65] ++ asPublicBytes) ++ ct)

/-! ## RFC 8291 -/

/-- The input keying material (section 3.4). -/
def keyMaterial (auth : List UInt8) (shared : c.Shared) (uaPublic asPublic : List UInt8) :
    List (Octet c.Shared) :=
  hkdf (ofBytes auth) (ofSecret shared)
    (ofBytes (ascii "WebPush: info\x00" ++ uaPublic ++ asPublic)) 32

/-- What the receiver with the secret `ua` derives from a key id. -/
def receiverMaterial (ua : c.Secret) (auth keyId : List UInt8) : Option (List (Octet c.Shared)) :=
  match c.fromSec1Bytes keyId with
  | .ok asPublic =>
    some (keyMaterial c auth (c.diffieHellman ua asPublic) (c.encodedPointBytes (c.publicKey ua))
      keyId)
  | .error _ => none

/-- The receiver. -/
def receive (ua : c.Secret) (auth : List UInt8) (body : List (Octet c.Shared)) :
    Option (List UInt8) :=
  (decode (receiverMaterial c ua auth) body).bind toBytes?

/-- A sender that follows the RFC, with records of the size `size`. -/
def rfcEncrypt (eph : c.Secret) (salt : Vector UInt8 16) (auth : List UInt8) (ua : c.Public)
    (size : ℕ) (contents : List (List UInt8)) : List (Octet c.Shared) :=
  let asPublic := c.encodedPointBytes (c.publicKey eph)
  encode salt.toList size asPublic
    (keyMaterial c auth (c.diffieHellman eph ua) (c.encodedPointBytes ua) asPublic)
    (contents.map ofBytes)

variable {c}

/-- Both sides derive the same material. -/
theorem receiverMaterial_sender (ua eph : c.Secret) (auth : List UInt8) :
    receiverMaterial c ua auth (c.encodedPointBytes (c.publicKey eph)) =
      some (keyMaterial c auth (c.diffieHellman eph (c.publicKey ua))
        (c.encodedPointBytes (c.publicKey ua)) (c.encodedPointBytes (c.publicKey eph))) := by
  rw [receiverMaterial, c.fromSec1Bytes_encodedPointBytes]
  show some (keyMaterial c auth (c.diffieHellman ua (c.publicKey eph)) _ _) = _
  rw [c.diffieHellman_comm]

theorem flatten_map_ofBytes (contents : List (List UInt8)) :
    (contents.map ofBytes).flatten = (ofBytes contents.flatten : List (Octet c.Shared)) := by
  unfold ofBytes
  rw [List.map_flatten]

/-- The receiver recovers what a sender that follows the RFC sends, in any number of records. -/
theorem receive_rfcEncrypt (ua eph : c.Secret) (salt : Vector UInt8 16) (auth : List UInt8)
    {size : ℕ} {contents : List (List UInt8)} (hmin : 18 ≤ size) (hsize : size < 256 ^ 4)
    (hfits : Fits size (contents.map (ofBytes (S := c.Shared)))) :
    receive c ua auth (rfcEncrypt c eph salt auth (c.publicKey ua) size contents) =
      some contents.flatten := by
  have hkey : (c.encodedPointBytes (c.publicKey eph)).length < 256 := by
    rw [c.length_encodedPointBytes]
    omega
  rw [receive, rfcEncrypt, decode_encode salt.length_toList hsize hkey
    (receiverMaterial_sender ua eph auth) hfits hmin, flatten_map_ofBytes, Option.bind_some,
    toBytes?_ofBytes]

/-! ## What the receiver makes of the code's messages -/

/-- The receiver with the secret `ua` recovers the payload. -/
def Recovers (c : Curve) (ua : c.Secret) (sub : PushSubscription) (payload : List UInt8)
    (body : List (Octet c.Shared)) : Prop := receive c ua sub.auth body = some payload

instance (c : Curve) (ua : c.Secret) (sub : PushSubscription) (payload : List UInt8)
    (body : List (Octet c.Shared)) : Decidable (Recovers c ua sub payload body) :=
  inferInstanceAs (Decidable (_ = _))

/-- Whoever subscribed recovers what was encrypted for him. -/
def Interoperates : Prop :=
  ∀ (c : Curve) (ua eph : c.Secret) (salt : Vector UInt8 16) (sub : PushSubscription)
    (payload : List UInt8) (body : List (Octet c.Shared)),
    c.fromSec1Bytes sub.p256dh = .ok (c.publicKey ua) →
    encryptRfc8291 c eph salt sub payload = .ok body → Recovers c ua sub payload body

variable {ua eph : c.Secret} {salt : Vector UInt8 16} {sub : PushSubscription}
  {payload : List UInt8} {body : List (Octet c.Shared)}

/-- The body is a header and one ciphertext, under a key of the first derivation. -/
theorem encryptRfc8291_cases (h : encryptRfc8291 c eph salt sub payload = .ok body) :
    ∃ ikm info nonce plain,
      body = encodeHeader salt.toList 4096 (c.encodedPointBytes (c.publicKey eph)) ++
        aeadEncrypt (hkdf (ofBytes sub.auth) ikm (ofBytes (ascii "WebPush: info\x00" ++ info)) 16)
          nonce plain := by
  unfold encryptRfc8291 at h
  cases hpoint : c.fromSec1Bytes sub.p256dh with
  | error e => rw [hpoint] at h; cases h
  | ok uaPublic =>
    rw [hpoint] at h
    simp only [bind, Except.bind, aes128GcmEncrypt] at h
    split_ifs at h with hlong
    have hheader : encodeHeader salt.toList 4096 (c.encodedPointBytes (c.publicKey eph)) =
        (ofBytes (salt.toList ++ be 4 4096 ++ [65] ++
          c.encodedPointBytes (c.publicKey eph)) : List (Octet c.Shared)) := by
      rw [encodeHeader, c.length_encodedPointBytes]
      rfl
    have hbody := (Except.ok.inj h).symm
    rw [← hheader, List.append_assoc (ascii "WebPush: info\x00")] at hbody
    exact ⟨_, _, _, _, hbody⟩

/-- No key of the second derivation is one of the first: their info strings differ. -/
theorem contentKey_ne (salt ikm salt' ikm' : List (Octet c.Shared)) (info : List UInt8) :
    contentKey salt ikm ≠ hkdf salt' ikm' (ofBytes (ascii "WebPush: info\x00" ++ info)) 16 := by
  intro h
  obtain ⟨-, -, hinfo⟩ := hkdf_inj (by decide) h
  have hhead := congrArg List.head? (ofBytes_inj.mp hinfo)
  have hcontent : (ascii "Content-Encoding: aes128gcm\x00").head? = some 67 := by decide
  have hwebPush : (ascii "WebPush: info\x00").head? = some 87 := by decide
  rw [List.head?_append, hcontent, hwebPush] at hhead
  exact absurd (Option.some.inj hhead) (by decide)

/-- The receiver decrypts nothing. -/
theorem receive_encryptRfc8291 (h : encryptRfc8291 c eph salt sub payload = .ok body)
    (ua : c.Secret) (auth : List UInt8) : receive c ua auth body = none := by
  obtain ⟨ikm, info, nonce, plain, rfl⟩ := encryptRfc8291_cases h
  have hkey : (c.encodedPointBytes (c.publicKey eph)).length < 256 := by
    rw [c.length_encodedPointBytes]
    omega
  rw [receive, decode, header?_encodeHeader salt.length_toList (by decide) (by decide) hkey,
    Option.bind_some]
  show ((receiverMaterial c ua auth _).bind fun _ => decodeRecords _ _ 4096 _ 0 _).bind _ = none
  cases receiverMaterial c ua auth (c.encodedPointBytes (c.publicKey eph)) with
  | none => rfl
  | some material =>
    rw [Option.bind_some, decodeRecords_foreign (contentKey_ne _ _ _ _ _) (by decide)]
    rfl

/-- No receiver recovers a payload from what `encrypt_rfc8291` returns. -/
theorem not_recovers (c : Curve) (ua eph : c.Secret) (salt : Vector UInt8 16)
    (sub : PushSubscription) (payload : List UInt8) (body : List (Octet c.Shared))
    (h : encryptRfc8291 c eph salt sub payload = .ok body) : ¬ Recovers c ua sub payload body := by
  rw [Recovers, receive_encryptRfc8291 h]
  exact nofun

/-! ### Two key pairs -/

/-- The point `G` of P-256. -/
def pointOne : List UInt8 := 4 ::
  (be 32 0x6b17d1f2e12c4247f8bce6e563a440f277037d812deb33a0f4a13945d898c296 ++
    be 32 0x4fe342e2fe1a7f9b8ee7eb4a7c0f9e162bce33576b315ececbb6406837bf51f5)

/-- The point `2G`. -/
def pointTwo : List UInt8 := 4 ::
  (be 32 0x7cf27b188d034f7e8a52380304b51ac3c08969e277f21b35a60b48fc47669978 ++
    be 32 0x07775510db8ed040293d9ac69f7430dbba7dade63ce982299e04b79d227873d1)

/-- The keys 1 and 2 (`true`) of P-256; a shared secret is named by its multiple of `G`. -/
def sampleCurve : Curve where
  Secret := Bool
  Public := Bool
  Shared := ℕ
  publicKey := id
  diffieHellman a p := (if a then 2 else 1) * (if p then 2 else 1)
  encodedPointBytes p := if p then pointTwo else pointOne
  fromSec1Bytes bytes :=
    if bytes = pointTwo then .ok true else if bytes = pointOne then .ok false
    else .error "crypto error"
  diffieHellman_comm := by decide
  length_encodedPointBytes := by decide
  fromSec1Bytes_encodedPointBytes := by decide +kernel

def sampleSubscription : PushSubscription where
  p256dh := pointTwo
  auth := List.range 16 |>.map UInt8.ofNat
  length_p256dh := by decide
  length_auth := by decide

def sampleSalt : Vector UInt8 16 := Vector.replicate 16 7

/-- What is sent for `{}`. -/
def sampleBody : List (Octet sampleCurve.Shared) :=
  (encryptRfc8291 sampleCurve false sampleSalt sampleSubscription [123, 125]).toOption.getD []

theorem not_recovers_sample :
    ¬ Recovers sampleCurve true sampleSubscription [123, 125] sampleBody :=
  not_recovers sampleCurve true false sampleSalt sampleSubscription _ _ rfl

/-- The browser with the key 2 cannot read `{}`. -/
theorem not_interoperates : ¬ Interoperates := by
  intro h
  have hbody : encryptRfc8291 sampleCurve false sampleSalt sampleSubscription [123, 125] =
      .ok sampleBody := rfl
  have hpoint : sampleCurve.fromSec1Bytes sampleSubscription.p256dh =
      .ok (sampleCurve.publicKey true) := sampleCurve.fromSec1Bytes_encodedPointBytes true
  have hsome : receive sampleCurve true sampleSubscription.auth sampleBody = some [123, 125] :=
    h sampleCurve true false sampleSalt sampleSubscription [123, 125] sampleBody hpoint hbody
  have hnone := receive_encryptRfc8291 hbody true sampleSubscription.auth
  exact nomatch hnone.symm.trans hsome

end Ppb.Notifications
