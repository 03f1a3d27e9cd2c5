import Ppb.Server.Error
import Ppb.Server.Types

/-!
# Request headers and credentials (`middleware/cookies.rs`, `middleware/auth.rs`)

A header value is a string of bytes; only one that is visible ASCII can be read as
text. A request may carry several values under one name, and `get` returns the
first.

A caller presents an access token as `Authorization: Bearer …` or in the cookie
`ppb_access`; `extractBearerOrCookie` looks at both in that order.

`Vendor` is what the server takes from the crates `cookie`, `jsonwebtoken`, `hmac`
and `base64`, with the few facts about these that the proofs rest on.
-/

namespace Ppb.Middleware

/-! ## Headers -/

/-- `HeaderValue`: its bytes. -/
abbrev HeaderValue := List UInt8

/-- `HeaderMap`: names, in lower case, with their values, in the order received. -/
abbrev HeaderMap := List (String × HeaderValue)

/-- `headers.get(name)`; a name is compared in lower case. -/
def HeaderMap.get (headers : HeaderMap) (name : String) : Option HeaderValue :=
  (headers.find? fun h => h.1 == Text.toAsciiLowercase name).map (·.2)

/-- A byte that `HeaderValue::to_str` accepts. -/
def isVisibleAscii (b : UInt8) : Bool := (32 ≤ b && b < 127) || b == 9

/-- `HeaderValue::to_str`. -/
def toStr (v : HeaderValue) : Option String :=
  if v.all isVisibleAscii then some (String.ofList (v.map fun b => Char.ofNat b.toNat)) else none

/-- The value of a header that can be read as text. -/
def HeaderMap.getStr (headers : HeaderMap) (name : String) : Option String :=
  (headers.get name).bind toStr

/-- The bytes of an ASCII text. -/
def ofAscii (s : String) : HeaderValue := s.toList.map fun c => UInt8.ofNat c.toNat

/-- A text of visible ASCII characters. -/
def isVisible (s : String) : Bool := s.toList.all fun c => 32 ≤ c.toNat && c.toNat < 127

theorem isVisible_append {s t : String} (hs : isVisible s = true) (ht : isVisible t = true) :
    isVisible (s ++ t) = true := by
  rw [isVisible, String.toList_append, List.all_append, Bool.and_eq_true]
  exact ⟨hs, ht⟩

/-- Text goes through a header unchanged. -/
theorem toStr_ofAscii {s : String} (h : isVisible s = true) : toStr (ofAscii s) = some s := by
  have hbyte : ∀ c ∈ s.toList, 32 ≤ c.toNat ∧ c.toNat < 127 := by
    intro c hc
    simpa using List.all_eq_true.mp h c hc
  have hnat : ∀ c ∈ s.toList, (UInt8.ofNat c.toNat).toNat = c.toNat := by
    intro c hc
    have := (hbyte c hc).2
    rw [UInt8.toNat_ofNat', Nat.mod_eq_of_lt (by omega)]
  rw [toStr, if_pos, ofAscii, List.map_map]
  · have hid : s.toList.map ((fun b : UInt8 => Char.ofNat b.toNat) ∘ fun c => UInt8.ofNat c.toNat) =
        s.toList.map id := by
      refine List.map_congr_left fun c hc => ?_
      rw [Function.comp_apply, hnat c hc, Char.ofNat_toNat, id]
    rw [hid, List.map_id, String.ofList_toList]
  · rw [ofAscii, List.all_map, List.all_eq_true]
    intro c hc
    have hlo : (32 : UInt8) ≤ UInt8.ofNat c.toNat := by
      rw [UInt8.le_iff_toNat_le, hnat c hc]
      exact (hbyte c hc).1
    have hhi : UInt8.ofNat c.toNat < (127 : UInt8) := by
      rw [UInt8.lt_iff_toNat_lt, hnat c hc]
      exact (hbyte c hc).2
    simp [isVisibleAscii, hlo, hhi]

/-- `http::Method`. -/
inductive Method where
  | options | get | post | put | delete | head | trace | connect | patch
  | extension (name : String)
  deriving DecidableEq

/-- The head of a request. -/
structure Request where
  method : Method
  headers : HeaderMap

/-! ## Tokens -/

/-- `AccessClaims` (auth/jwt.rs:19-29), without the times it was issued and expires. -/
structure AccessClaims where
  sub : Uuid
  sid : Uuid
  principalType : PrincipalType
  clientType : ClientType
  deriving DecidableEq

/-- The functions of other crates. -/
structure Vendor where
  /-- `Cookie::split_parse`: each cookie's name and value, `none` if it cannot be parsed -/
  splitParse : String → List (Option (String × String))
  /-- `jsonwebtoken::decode` with the server's secret, at a time -/
  decode : ℕ → String → Option AccessClaims
  /-- HMAC-SHA256 of a message under a key -/
  hmac : List UInt8 → List UInt8 → List UInt8
  /-- base64 for URLs, without padding -/
  base64 : List UInt8 → String
  /-- of the claims only `exp` is compared with the clock -/
  decode_earlier : ∀ {now later token claims}, now ≤ later → decode later token = some claims →
    decode now token = some claims
  hmac_length : ∀ key message, (hmac key message).length = 32
  base64_ne_empty : ∀ bytes, bytes ≠ [] → base64 bytes ≠ ""

variable (vendor : Vendor)

/-- `decode_access` (auth/jwt.rs:64-77). -/
def decodeAccess (now : ℕ) (token : String) : Except ApiError AccessClaims :=
  match vendor.decode now token with
  | some claims => .ok claims
  | none => .error (.new .sessionExpired "invalid or expired access token")

theorem decodeAccess_eq_ok {now : ℕ} {token : String} {claims : AccessClaims} :
    decodeAccess vendor now token = .ok claims ↔ vendor.decode now token = some claims := by
  unfold decodeAccess
  split <;> simp_all

/-! ## Cookies -/

/-- `ACCESS_COOKIE` (auth/mod.rs:15). -/
def accessCookie : String := "ppb_access"

/-- `REFRESH_COOKIE` (auth/mod.rs:17). -/
def refreshCookie : String := "ppb_refresh"

/-- `get_cookie` (middleware/cookies.rs:111-117). -/
def getCookie (headers : HeaderMap) (name : String) : Option String := do
  let value ← headers.getStr "cookie"
  let cookie ← ((vendor.splitParse value).filterMap id).find? fun c => c.1 == name
  return cookie.2

/-- `s.strip_prefix(start)`. -/
def stripStart (start s : String) : Option String :=
  if start.toList <+: s.toList then some (String.ofList (s.toList.drop start.length)) else none

/-- The token of an `Authorization` header (middleware/auth.rs:92-96). -/
def bearer (headers : HeaderMap) : Option String :=
  (headers.getStr "authorization").bind (stripStart "Bearer ")

/-- `extract_bearer_or_cookie` (middleware/auth.rs:91-102). -/
def extractBearerOrCookie (headers : HeaderMap) (cookieName : String) : Option String :=
  if (bearer headers).isSome then bearer headers else getCookie vendor headers cookieName

/-- The token is that of the access cookie. -/
def FromCookie (headers : HeaderMap) (token : String) : Prop :=
  bearer headers = none ∧ getCookie vendor headers accessCookie = some token

instance (headers : HeaderMap) (token : String) : Decidable (FromCookie vendor headers token) :=
  inferInstanceAs (Decidable (_ ∧ _))

theorem FromCookie.extract {vendor : Vendor} {headers : HeaderMap} {token : String}
    (h : FromCookie vendor headers token) :
    extractBearerOrCookie vendor headers accessCookie = some token := by
  simp [extractBearerOrCookie, h.1, h.2]

/-! ## One token -/

/-- An access token of the user 1 in the session 7, signed with the secret of the
    tests, that expires at 1700003600. -/
@[irreducible] def sampleToken : String :=
  "eyJ0eXAiOiJKV1QiLCJhbGciOiJIUzI1NiJ9.eyJzdWIi" ++ "OiIwMDAwMDAwMC0wMDAwLTAwMDAtMDAwMC0wMDAwMDAwM" ++
  "DAwMDEiLCJzaWQiOiIwMDAwMDAwMC0wMDAwLTAwMDAtMD" ++ "AwMC0wMDAwMDAwMDAwMDciLCJwcmluY2lwYWxfdHlwZSI" ++
  "6InVzZXIiLCJjbGllbnRfdHlwZSI6InBhbmVsIiwiaWF0" ++ "IjoxNzAwMDAwMDAwLCJleHAiOjE3MDAwMDM2MDB9._8RT" ++
  "aEUZPG7sg8HJt70QEkEWnm8FpN7u3xtr_AZRNqs"

def sampleClaims : AccessClaims := ⟨1, 7, .user, .panel⟩

/-- HMAC-SHA256 of the session 7 under the key for CSRF tokens. -/
def sampleMac : List UInt8 :=
  [250, 79, 21, 86, 219, 126, 132, 204, 222, 131, 205, 97, 215, 122, 210, 82, 94, 217, 149, 79, 114,
    127, 30, 50, 106, 64, 56, 117, 245, 165, 90, 58]

/-- The key for CSRF tokens. -/
def sampleKey : List UInt8 :=
  [244, 101, 2, 76, 90, 137, 149, 82, 140, 50, 229, 108, 87, 179, 83, 64, 191, 180, 192, 160, 3, 60,
    142, 44, 242, 212, 149, 16, 154, 14, 194, 153]

/-- What the crates answer about this token. -/
def sampleVendor : Vendor where
  splitParse value := if value = "ppb_access=" ++ sampleToken then [some ("ppb_access", sampleToken)]
    else []
  decode now token := if token = sampleToken ∧ now ≤ 1700003660 then some sampleClaims else none
  hmac key _ := if key = sampleKey then sampleMac else sampleKey
  base64 mac := if mac = sampleMac then "-k8VVtt-hMzeg81h13rSUl7ZlU9yfx4yakA4dfWlWjo" else "A"
  decode_earlier := by
    intro now later token claims hle h
    split_ifs at h with hlater
    rw [if_pos ⟨hlater.1, hle.trans hlater.2⟩]
    exact h
  hmac_length := by
    intro key message
    split_ifs <;> rfl
  base64_ne_empty := by
    intro mac _
    split_ifs <;> decide

/-- The cookie of this token. -/
def sampleCookie : HeaderValue := ofAscii ("ppb_access=" ++ sampleToken)

theorem isVisible_sample : isVisible ("ppb_access=" ++ sampleToken) = true := by
  unfold sampleToken
  refine isVisible_append ?_ (isVisible_append (isVisible_append (isVisible_append (isVisible_append
    (isVisible_append (isVisible_append ?_ ?_) ?_) ?_) ?_) ?_) ?_)
  all_goals decide +kernel

theorem getCookie_sample {headers : HeaderMap} (h : headers.get "cookie" = some sampleCookie) :
    getCookie sampleVendor headers accessCookie = some sampleToken := by
  have hstr : headers.getStr "cookie" = some ("ppb_access=" ++ sampleToken) := by
    rw [HeaderMap.getStr, h, Option.bind_some, sampleCookie, toStr_ofAscii isVisible_sample]
  have hsplit : sampleVendor.splitParse ("ppb_access=" ++ sampleToken) =
      [some ("ppb_access", sampleToken)] := if_pos rfl
  rw [getCookie, hstr, Option.bind_eq_bind, Option.bind_some, hsplit]
  rfl

theorem decode_sample (now : ℕ) (h : now ≤ 1700003660) :
    sampleVendor.decode now sampleToken = some sampleClaims :=
  if_pos ⟨rfl, h⟩

end Ppb.Middleware
