import Ppb.Auth.Reauth
import Ppb.Middleware.Headers

/-!
# Tokens (`auth/jwt.rs`, `auth/reauth.rs`)

Access tokens and reauth contexts are JSON objects signed with one key. What tells
them apart is which fields a decoder asks for: a reauth context has all fields of an
access token and two more, and a decoder ignores fields it does not know.

`Jwt` is what the server takes from `jsonwebtoken` and `uuid`. `Issuing` is a history
of issued tokens, with the assumption that nobody else can sign.

* `decodeReauth_issued`: only reauth contexts pass as reauth contexts.
* `decodeAccess_reauth`: a reauth context passes as an access token too.
* `token_kinds_iff`: the tokens that pass as access tokens are access tokens if and
  only if no reauth context that has not expired is presented as one.
* `decodeAccess_earlier`: a token that passes passed before, so `decodeAccess` is a
  `Vendor.decode`.
-/

namespace Ppb.Auth

open Middleware

/-! ## Claims and their JSON -/

/-- `AccessClaims` (auth/jwt.rs:20-29), with its times. -/
structure AccessPayload extends AccessClaims where
  iat : Int64
  exp : Int64
  deriving DecidableEq

/-- `AccessClaims::new` (auth/jwt.rs:32-48). -/
def AccessPayload.new (claims : AccessClaims) (now ttlSecs : Int64) : AccessPayload :=
  { claims with iat := now, exp := now + ttlSecs }

/-- `Serialize for AccessClaims`. -/
def AccessPayload.toJson (c : AccessPayload) : Json :=
  .obj [("client_type", .str c.clientType.toText), ("exp", .ofInt64 c.exp), ("iat", .ofInt64 c.iat),
    ("principal_type", .str c.principalType.toText), ("sid", .str (Uuid.toText c.sid)),
    ("sub", .str (Uuid.toText c.sub))]

/-- `ReauthRisk::as_str` (auth/reauth.rs:24-29). -/
def ReauthRisk.asStr : ReauthRisk → String
  | .high => "high"
  | .critical => "critical"

/-- `ReauthClaims::new` (auth/reauth.rs:48-67). -/
def newReauthClaims (claims : AccessClaims) (risk : ReauthRisk) (now ttlSecs : Int64) :
    ReauthClaims :=
  ⟨"reauth", claims.sub, claims.sid, claims.principalType, claims.clientType, risk.asStr, now,
    now + ttlSecs⟩

/-- `Serialize for ReauthClaims`. -/
def reauthToJson (c : ReauthClaims) : Json :=
  .obj [("client_type", .str c.clientType.toText), ("exp", .ofInt64 c.exp), ("iat", .ofInt64 c.iat),
    ("principal_type", .str c.principalType.toText), ("purpose", .str c.purpose),
    ("risk", .str c.risk), ("sid", .str (Uuid.toText c.sid)), ("sub", .str (Uuid.toText c.sub))]

/-! ## What other crates do -/

structure Jwt where
  /-- `jsonwebtoken::encode` with HS256 and the server's secret -/
  sign : Json → Option String
  /-- the payload of a token whose header and signature are right -/
  verify : String → Option Json
  /-- `Uuid::parse_str` -/
  parseUuid : String → Option Uuid
  verify_sign : ∀ {payload token}, sign payload = some token → verify token = some payload
  parseUuid_toText : ∀ u, parseUuid (Uuid.toText u) = some u

variable (jwt : Jwt)

/-- A field that must be there and have the right form. -/
def field {α : Type} (payload : Json) (key : String) (read : Json → Option α) : Option α :=
  (payload.get? key).bind read

def readUuid (v : Json) : Option Uuid := v.asStr.bind jwt.parseUuid

def readPrincipalType (v : Json) : Option PrincipalType := v.asStr.bind PrincipalType.parse

def readClientType (v : Json) : Option ClientType := v.asStr.bind ClientType.parse

/-- `Deserialize for AccessClaims`: other fields are ignored. -/
def accessOfJson (payload : Json) : Option AccessPayload := do
  let sub ← field payload "sub" (readUuid jwt)
  let sid ← field payload "sid" (readUuid jwt)
  let principalType ← field payload "principal_type" readPrincipalType
  let clientType ← field payload "client_type" readClientType
  let iat ← field payload "iat" Json.asI64
  let exp ← field payload "exp" Json.asI64
  return ⟨⟨sub, sid, principalType, clientType⟩, iat, exp⟩

/-- `Deserialize for ReauthClaims`. -/
def reauthOfJson (payload : Json) : Option ReauthClaims := do
  let purpose ← field payload "purpose" Json.asStr
  let sub ← field payload "sub" (readUuid jwt)
  let sid ← field payload "sid" (readUuid jwt)
  let principalType ← field payload "principal_type" readPrincipalType
  let clientType ← field payload "client_type" readClientType
  let risk ← field payload "risk" Json.asStr
  let iat ← field payload "iat" Json.asI64
  let exp ← field payload "exp" Json.asI64
  return ⟨purpose, sub, sid, principalType, clientType, risk, iat, exp⟩

/-- `exp` is at most a minute ago (`Validation::new`). -/
def NotExpired (now : ℕ) (exp : Int64) : Prop := 0 ≤ exp.toInt ∧ (now : ℤ) ≤ exp.toInt + 60

instance (now : ℕ) (exp : Int64) : Decidable (NotExpired now exp) :=
  inferInstanceAs (Decidable (_ ∧ _))

/-! ## Encoding and decoding -/

/-- `encode_access` (auth/jwt.rs:56-63). -/
def encodeAccess (c : AccessPayload) : Except ApiError String :=
  match jwt.sign c.toJson with
  | some token => .ok token
  | none => .error .internal

/-- `decode_access` (auth/jwt.rs:66-77). -/
def decodeAccess (now : ℕ) (token : String) : Except ApiError AccessPayload :=
  match ((jwt.verify token).bind (accessOfJson jwt)).filter (NotExpired now ·.exp) with
  | some claims => .ok claims
  | none => .error (.new .sessionExpired "invalid or expired access token")

/-- `encode_reauth` (auth/reauth.rs:70-77). -/
def encodeReauth (c : ReauthClaims) : Except ApiError String :=
  match jwt.sign (reauthToJson c) with
  | some token => .ok token
  | none => .error .internal

/-- `decode::<ReauthClaims>` (auth/reauth.rs:81-88). -/
def decodeReauthClaims (now : ℕ) (token : String) : Option ReauthClaims :=
  ((jwt.verify token).bind (reauthOfJson jwt)).filter (NotExpired now ·.exp)

/-- `decode_reauth` (auth/reauth.rs:80-102). -/
def decodeReauthToken (now : ℕ) (token : String) (expectedSid : Uuid) :
    Except ApiError ReauthClaims :=
  match decodeReauthClaims jwt now token with
  | none => .error (reauthError "invalid reauth context")
  | some claims =>
    if claims.purpose ≠ "reauth" then .error (reauthError "not a reauth context")
    else if claims.sid ≠ expectedSid then
      .error (reauthError "reauth context bound to another session")
    else if claims.exp.toInt ≤ now then .error (reauthError "reauth context expired")
    else .ok claims

/-! ## Which fields a payload has -/

variable {jwt}

theorem readUuid_str (u : Uuid) : readUuid jwt (.str (Uuid.toText u)) = some u :=
  jwt.parseUuid_toText u

/-- A reauth context has the fields of an access token. -/
theorem accessOfJson_reauth (c : ReauthClaims) : accessOfJson jwt (reauthToJson c) =
    some ⟨⟨c.sub, c.sid, c.principalType, c.clientType⟩, c.iat, c.exp⟩ := by
  simp [accessOfJson, reauthToJson, field, Json.get?, Fields.get?_cons, readUuid_str,
    readPrincipalType, readClientType, Json.asStr, Json.asI64_ofInt64]

theorem reauthOfJson_reauth (c : ReauthClaims) :
    reauthOfJson jwt (reauthToJson c) = some c := by
  simp [reauthOfJson, reauthToJson, field, Json.get?, Fields.get?_cons, readUuid_str,
    readPrincipalType, readClientType, Json.asStr, Json.asI64_ofInt64]

/-- An access token has no purpose. -/
theorem reauthOfJson_access (c : AccessPayload) : reauthOfJson jwt c.toJson = none := by
  simp [reauthOfJson, AccessPayload.toJson, field, Json.get?, Fields.get?_cons]

/-! ## What a decoder accepts -/

theorem encodeAccess_eq_ok {c : AccessPayload} {token : String} :
    encodeAccess jwt c = .ok token ↔ jwt.sign c.toJson = some token := by
  unfold encodeAccess
  split <;> simp_all

theorem encodeReauth_eq_ok {c : ReauthClaims} {token : String} :
    encodeReauth jwt c = .ok token ↔ jwt.sign (reauthToJson c) = some token := by
  unfold encodeReauth
  split <;> simp_all

theorem decodeAccess_eq_ok_iff {now : ℕ} {token : String} {c : AccessPayload} :
    decodeAccess jwt now token = .ok c ↔
      ∃ payload, jwt.verify token = some payload ∧ accessOfJson jwt payload = some c ∧
        NotExpired now c.exp := by
  have hmatch : decodeAccess jwt now token = .ok c ↔
      ((jwt.verify token).bind (accessOfJson jwt)).filter (NotExpired now ·.exp) = some c := by
    unfold decodeAccess
    generalize ((jwt.verify token).bind (accessOfJson jwt)).filter (NotExpired now ·.exp) = found
    cases found <;> simp
  rw [hmatch, Option.filter_eq_some_iff, Option.bind_eq_some_iff]
  simp only [decide_eq_true_eq]
  constructor
  · rintro ⟨⟨payload, hverify, hjson⟩, hexp⟩
    exact ⟨payload, hverify, hjson, hexp⟩
  · rintro ⟨payload, hverify, hjson, hexp⟩
    exact ⟨⟨payload, hverify, hjson⟩, hexp⟩

/-- A token that passes passed before. -/
theorem decodeAccess_earlier {now later : ℕ} {token : String} {c : AccessPayload}
    (hle : now ≤ later) (h : decodeAccess jwt later token = .ok c) :
    decodeAccess jwt now token = .ok c := by
  rw [decodeAccess_eq_ok_iff] at h ⊢
  obtain ⟨payload, hverify, hjson, hpos, hexp⟩ := h
  exact ⟨payload, hverify, hjson, hpos, by omega⟩

/-- `decode_reauth` checks the purpose, the session and the time. -/
theorem decodeReauthToken_eq_ok {now : ℕ} {token : String} {sid : Uuid} {c : ReauthClaims}
    (h : decodeReauthToken jwt now token sid = .ok c) :
    (∃ payload, jwt.verify token = some payload ∧ reauthOfJson jwt payload = some c) ∧
      c.purpose = "reauth" ∧ c.sid = sid ∧ (now : ℤ) < c.exp.toInt := by
  unfold decodeReauthToken at h
  split at h
  · cases h
  · rename_i claims hclaims
    split_ifs at h with hpurpose hsid hexp
    obtain rfl := Except.ok.inj h
    rw [decodeReauthClaims, Option.filter_eq_some_iff, Option.bind_eq_some_iff] at hclaims
    exact ⟨hclaims.1, not_not.mp hpurpose, not_not.mp hsid, by omega⟩

/-- The check of a handler is this decoder, with what it asks answered by the crates. -/
theorem eval_decodeReauth {answer : (q : Query) → q.Answer} {now : ℕ} {token : String} (sid : Uuid)
    (hdecode : answer (.decodeReauthToken token) = decodeReauthClaims jwt now token)
    (hnow : (answer .now).toInt = now) :
    (decodeReauth token sid).eval answer = decodeReauthToken jwt now token sid := by
  unfold decodeReauth decodeReauthToken
  simp only [Prog.eval_bind, ask, Prog.eval_query, Except.bind, hdecode]
  cases decodeReauthClaims jwt now token with
  | none => rfl
  | some claims =>
    have hexp : claims.exp ≤ answer .now ↔ claims.exp.toInt ≤ now := by
      rw [Int64.le_iff_toInt_le, hnow]
    simp only [Prog.eval_ofOption_some, Prog.eval_failIf, Prog.eval_pure, hexp]
    split_ifs <;> rfl

/-! ## Issued tokens -/

/-- A token that the server has issued. -/
inductive Issue where
  | access (claims : AccessPayload) (token : String)
  | reauth (claims : ReauthClaims) (token : String)

namespace Issue

def token : Issue → String
  | .access _ token => token
  | .reauth _ token => token

def payload : Issue → Json
  | .access claims _ => claims.toJson
  | .reauth claims _ => reauthToJson claims

/-- It is what the encoder returned. -/
def Encoded (jwt : Jwt) : Issue → Prop
  | .access claims token => encodeAccess jwt claims = .ok token
  | .reauth claims token => encodeReauth jwt claims = .ok token

theorem Encoded.verify {issue : Issue} (h : issue.Encoded jwt) :
    jwt.verify issue.token = some issue.payload := by
  cases issue with
  | access claims token => exact jwt.verify_sign (encodeAccess_eq_ok.mp h)
  | reauth claims token => exact jwt.verify_sign (encodeReauth_eq_ok.mp h)

end Issue

/-- The tokens issued so far: each is what its encoder returned, and no other string has
    a right signature. -/
structure Issuing (jwt : Jwt) where
  log : List Issue
  encoded : ∀ issue ∈ log, issue.Encoded jwt
  unforged : ∀ token payload, jwt.verify token = some payload → ∃ issue ∈ log, issue.token = token

variable (issuing : Issuing jwt) {token : String}

/-- A token that verifies has the payload that was signed. -/
theorem Issuing.verified {payload : Json} (h : jwt.verify token = some payload) :
    ∃ issue ∈ issuing.log, issue.token = token ∧ issue.payload = payload := by
  obtain ⟨issue, hmem, rfl⟩ := issuing.unforged token payload h
  have hsigned := (issuing.encoded issue hmem).verify
  exact ⟨issue, hmem, rfl, Option.some.inj (hsigned.symm.trans h)⟩

/-- Only reauth contexts pass as reauth contexts. -/
theorem decodeReauth_issued {now : ℕ} {sid : Uuid} {c : ReauthClaims}
    (h : decodeReauthToken jwt now token sid = .ok c) :
    .reauth c token ∈ issuing.log ∧ c.purpose = "reauth" ∧ c.sid = sid ∧ (now : ℤ) < c.exp.toInt := by
  obtain ⟨⟨payload, hverify, hjson⟩, hclaims⟩ := decodeReauthToken_eq_ok h
  obtain ⟨issue, hmem, rfl, rfl⟩ := issuing.verified hverify
  refine ⟨?_, hclaims⟩
  cases issue with
  | access claims token =>
    rw [Issue.payload, reauthOfJson_access] at hjson
    cases hjson
  | reauth claims token =>
    rw [Issue.payload, reauthOfJson_reauth] at hjson
    obtain rfl := Option.some.inj hjson
    exact hmem

/-- A reauth context passes as an access token until it expires. -/
theorem decodeAccess_reauth {now : ℕ} {c : ReauthClaims} (hmem : .reauth c token ∈ issuing.log) :
    (∃ claims, decodeAccess jwt now token = .ok claims) ↔ NotExpired now c.exp := by
  have hverify : jwt.verify token = some (reauthToJson c) :=
    (issuing.encoded _ hmem : (Issue.reauth c token).Encoded jwt).verify
  simp only [decodeAccess_eq_ok_iff, hverify]
  constructor
  · rintro ⟨claims, payload, hpayload, hjson, hexp⟩
    obtain rfl := Option.some.inj hpayload
    rw [accessOfJson_reauth] at hjson
    obtain rfl := Option.some.inj hjson
    exact hexp
  · intro hexp
    exact ⟨_, _, rfl, accessOfJson_reauth c, hexp⟩

/-- A string is a token of one kind only. -/
theorem not_access_and_reauth {a : AccessPayload} {c : ReauthClaims}
    (ha : .access a token ∈ issuing.log) (hc : .reauth c token ∈ issuing.log) : False := by
  have hverify := (issuing.encoded _ ha).verify
  have hverify' := (issuing.encoded _ hc).verify
  have hpayload : a.toJson = reauthToJson c := Option.some.inj (hverify.symm.trans hverify')
  simp [AccessPayload.toJson, reauthToJson] at hpayload

/-- For every string: what passes as a reauth context is one, for that session, with its
    purpose and not expired; and what passes as an access token is one if and only if it
    is not a reauth context that has not expired. -/
theorem token_kinds_iff (jwt : Jwt) (issuing : Issuing jwt) (now : ℕ) (token : String) :
    (∀ sid c, decodeReauthToken jwt now token sid = .ok c →
      .reauth c token ∈ issuing.log ∧ c.purpose = "reauth" ∧ c.sid = sid ∧
        (now : ℤ) < c.exp.toInt) ∧
    (((∃ claims, decodeAccess jwt now token = .ok claims) →
        ∃ a, .access a token ∈ issuing.log) ↔
      ∀ c, .reauth c token ∈ issuing.log → ¬ NotExpired now c.exp) := by
  refine ⟨fun sid c h => decodeReauth_issued issuing h, ?_, ?_⟩
  · intro hpasses c hc hexp
    obtain ⟨a, ha⟩ := hpasses ((decodeAccess_reauth issuing hc).mpr hexp)
    exact not_access_and_reauth issuing ha hc
  · rintro hnone ⟨claims, hdecode⟩
    obtain ⟨payload, hverify, -⟩ := decodeAccess_eq_ok_iff.mp hdecode
    obtain ⟨issue, hmem, rfl, -⟩ := issuing.verified hverify
    cases issue with
    | access a token => exact ⟨a, hmem⟩
    | reauth c token =>
      exact absurd ((decodeAccess_reauth issuing hmem).mp ⟨claims, hdecode⟩) (hnone c hmem)

/-! ## One reauth context -/

/-- A reauth context of the user 1 in the session 7, signed with the secret of the
    tests. -/
@[irreducible] def sampleReauthToken : String :=
  "eyJ0eXAiOiJKV1QiLCJhbGciOiJIUzI1NiJ9.eyJwdXJwb3NlIjoicmVhdXRoIiwic3ViIjoiMDAwMDAwMDAtMD" ++
  "AwMC0wMDAwLTAwMDAtMDAwMDAwMDAwMDAxIiwic2lkIjoiMDAwMDAwMDAtMDAwMC0wMDAwLTAwMDAtMDAwMDAwM" ++
  "DAwMDA3IiwicHJpbmNpcGFsX3R5cGUiOiJ1c2VyIiwiY2xpZW50X3R5cGUiOiJwYW5lbCIsInJpc2siOiJjcml0" ++
  "aWNhbCIsImlhdCI6MTcwMDAwMDAwMCwiZXhwIjoxNzAwMDAwMzAwfQ.cQtHv-mFSakZtnjUYhWdxbraQKha4zV7" ++
  "WRuIFyP08WQ"

def sampleReauth : ReauthClaims := newReauthClaims sampleClaims .critical 1700000000 300

/-- What the crates answer about it. -/
def sampleJwt : Jwt where
  sign payload := if payload = reauthToJson sampleReauth then some sampleReauthToken else none
  verify token := if token = sampleReauthToken then some (reauthToJson sampleReauth) else none
  parseUuid := Uuid.ofText
  verify_sign := by
    intro payload token h
    split_ifs at h with hpayload
    rw [← Option.some.inj h, if_pos rfl, hpayload]
  parseUuid_toText := Uuid.ofText_toText

/-- It is the only token that was issued. -/
def sampleIssuing : Issuing sampleJwt where
  log := [.reauth sampleReauth sampleReauthToken]
  encoded := by
    intro issue hmem
    rw [List.mem_singleton.mp hmem]
    have hsign : sampleJwt.sign (reauthToJson sampleReauth) = some sampleReauthToken := by
      simp [sampleJwt]
    exact encodeReauth_eq_ok.mpr hsign
  unforged := by
    intro token payload h
    have htoken : token = sampleReauthToken := by
      by_contra hne
      exact absurd (h.symm.trans (if_neg hne)) (by simp)
    exact ⟨_, List.mem_singleton_self _, htoken.symm⟩

/-- The reauth context passes as an access token, and no access token was issued. -/
theorem not_token_kinds_reauth :
    (∃ claims, decodeAccess sampleJwt 1700000060 sampleReauthToken = .ok claims) ∧
      ¬ ∃ a, .access a sampleReauthToken ∈ sampleIssuing.log := by
  constructor
  · exact (decodeAccess_reauth sampleIssuing (List.mem_singleton_self _)).mpr (by decide)
  · rintro ⟨a, ha⟩
    cases List.mem_singleton.mp ha

end Ppb.Auth
